import ComparisonChain.Proofs.Connectors
import Mathlib.Order.Bounds.Image

/-!
# Searches in a buffer

A search answers with a byte position. The positions at which a character
occurs are ordered as the first parts of the text before them are, so the first
occurrence is the least one and the last is the greatest, whatever the sizes of
the characters between. A search from an aligned position is a search in what
stands behind it. `finds_occurrences` says this of the three searches, and that
what they find can be sliced out.
-/
namespace ComparisonChain
open Text

namespace Text

/-- The position falls between two characters, or at either end. -/
def Aligned (cs : List Char) (n : Nat) : Prop := ∃ a b, cs = a ++ b ∧ n = byteSize a

section
variable {x : Char} {cs a b : List Char} {n : Nat}

/-! ## Alignment -/

theorem splitAtByte?_eq_none_iff : splitAtByte? n cs = none ↔ ¬Aligned cs n := by
  rw [← not_iff_not, not_not, ← ne_eq, Option.ne_none_iff_exists']
  constructor
  · intro h
    obtain ⟨p, hp⟩ := h
    obtain ⟨hcs, hn⟩ := splitAtByte?_eq_some_iff.mp hp
    exact ⟨p.1, p.2, hcs, hn.symm⟩
  · intro h
    obtain ⟨a, b, rfl, rfl⟩ := h
    exact ⟨(a, b), splitAtByte?_append a b⟩

/-- Of two first parts of a text the one of fewer bytes starts the other. -/
theorem prefix_of_byteSize_le (ha : a <+: cs) (hb : b <+: cs) (h : byteSize a ≤ byteSize b) :
    a <+: b := by
  rcases List.prefix_or_prefix_of_prefix ha hb with hab | ⟨r, hr⟩
  · exact hab
  · have hsize : byteSize a = byteSize b := by
      rw [← hr, byteSize_append] at h ⊢
      omega
    exact Reading.eq_of_prefix_of_byteSize_eq ha hb hsize ▸ List.prefix_rfl

/-! ## Occurrences -/

theorem occursAt_iff : OccursAt x cs n ↔ ∃ a b, cs = a ++ x :: b ∧ n = byteSize a := by
  simp only [OccursAt, List.append_assoc, List.singleton_append]

theorem exists_occursAt_iff : (∃ n, OccursAt x cs n) ↔ x ∈ cs := by
  constructor
  · intro h
    obtain ⟨n, hn⟩ := h
    obtain ⟨a, b, rfl, -⟩ := occursAt_iff.mp hn
    simp
  · intro h
    obtain ⟨a, b, rfl⟩ := List.append_of_mem h
    exact ⟨byteSize a, occursAt_iff.mpr ⟨a, b, rfl, rfl⟩⟩

/-- Behind a first part a character occurs where it occurs in the rest. -/
theorem occursAt_append_iff : OccursAt x (a ++ cs) (byteSize a + n) ↔ OccursAt x cs n := by
  rw [occursAt_iff, occursAt_iff]
  constructor
  · intro h
    obtain ⟨p, q, hsplit, hp⟩ := h
    have ha : a <+: p := by
      refine prefix_of_byteSize_le (List.prefix_append a cs) ?_ (by omega)
      exact hsplit ▸ List.prefix_append p _
    obtain ⟨r, rfl⟩ := ha
    rw [List.append_assoc] at hsplit
    rw [byteSize_append] at hp
    exact ⟨r, q, List.append_cancel_left hsplit, by omega⟩
  · intro h
    obtain ⟨p, q, rfl, rfl⟩ := h
    exact ⟨a ++ p, q, by simp, by simp⟩

theorem isLeast_occursAt (ha : x ∉ a) : IsLeast {p | OccursAt x (a ++ x :: b) p} (byteSize a) := by
  refine ⟨occursAt_iff.mpr ⟨a, b, rfl, rfl⟩, fun p hp => ?_⟩
  obtain ⟨a', b', hsplit, rfl⟩ := occursAt_iff.mp hp
  obtain ⟨m, rfl, -⟩ := exists_of_append_eq ha hsplit
  rw [byteSize_append]
  exact Nat.le_add_right _ _

theorem isGreatest_occursAt (hb : x ∉ b) :
    IsGreatest {p | OccursAt x (a ++ x :: b) p} (byteSize a) := by
  refine ⟨occursAt_iff.mpr ⟨a, b, rfl, rfl⟩, fun p hp => ?_⟩
  obtain ⟨a', b', hsplit, rfl⟩ := occursAt_iff.mp hp
  rcases List.append_eq_append_iff.mp hsplit with ⟨r, rfl, hr⟩ | ⟨r, rfl, -⟩
  · cases r with
    | nil => exact Nat.le_of_eq (by rw [List.append_nil])
    | cons c r =>
        have hmem : x ∈ b := by
          rw [(List.cons.inj hr).2]
          simp
        exact absurd hmem hb
  · rw [byteSize_append]
    exact Nat.le_add_right _ _

/-! ## Searches -/

theorem findFirst?_eq_none_iff : findFirst? x cs = none ↔ ∀ p, ¬OccursAt x cs p := by
  rw [← not_exists, exists_occursAt_iff]
  exact ⟨notMem_of_findFirst?_eq_none, findFirst?_eq_none⟩

theorem findLast?_eq_none_iff : findLast? x cs = none ↔ ∀ p, ¬OccursAt x cs p := by
  rw [← not_exists, exists_occursAt_iff]
  exact ⟨notMem_of_findLast?_eq_none, findLast?_eq_none⟩

theorem findFirst?_eq_some_iff : findFirst? x cs = some n ↔ IsLeast {p | OccursAt x cs p} n := by
  have hleast : ∀ m, findFirst? x cs = some m → IsLeast {p | OccursAt x cs p} m := by
    intro m hm
    obtain ⟨a, b, rfl, ha, rfl⟩ := exists_of_findFirst? hm
    exact isLeast_occursAt ha
  refine ⟨hleast n, fun h => ?_⟩
  cases hm : findFirst? x cs with
  | none => exact absurd h.1 (findFirst?_eq_none_iff.mp hm n)
  | some m => rw [(hleast m hm).unique h]

theorem findLast?_eq_some_iff : findLast? x cs = some n ↔ IsGreatest {p | OccursAt x cs p} n := by
  have hgreatest : ∀ m, findLast? x cs = some m → IsGreatest {p | OccursAt x cs p} m := by
    intro m hm
    obtain ⟨a, b, rfl, hb, rfl⟩ := exists_of_findLast? hm
    exact isGreatest_occursAt hb
  refine ⟨hgreatest n, fun h => ?_⟩
  cases hm : findLast? x cs with
  | none => exact absurd h.1 (findLast?_eq_none_iff.mp hm n)
  | some m => rw [(hgreatest m hm).unique h]

end

end Text

namespace Buffer

section
variable {b : Buffer} {x : Char} {start n : Nat}

theorem findFrom?_of_not_aligned (h : ¬Aligned b.chars start) : b.findFrom? x start = none := by
  rw [findFrom?, splitAtByte?_eq_none_iff.mpr h, Option.bind_none]

/-- Behind a first part the occurrences are those in the rest, moved by its size. -/
theorem occurrences_append (x : Char) (a cs : List Char) :
    {p | OccursAt x (a ++ cs) p ∧ byteSize a ≤ p} =
      (byteSize a + ·) '' {p | OccursAt x cs p} := by
  ext p
  constructor
  · intro hp
    obtain ⟨hoccurs, hle⟩ := hp
    obtain ⟨k, rfl⟩ := Nat.exists_eq_add_of_le hle
    exact ⟨k, occursAt_append_iff.mp hoccurs, rfl⟩
  · intro hp
    obtain ⟨k, hk, rfl⟩ := hp
    exact ⟨occursAt_append_iff.mpr hk, Nat.le_add_right _ _⟩

theorem findFrom?_eq_some_iff (h : Aligned b.chars start) :
    b.findFrom? x start = some n ↔ IsLeast {p | OccursAt x b.chars p ∧ start ≤ p} n := by
  obtain ⟨cs⟩ := b
  obtain ⟨a, cs, rfl, rfl⟩ := h
  rw [findFrom?_append, occurrences_append, Option.map_eq_some_iff]
  have hmono : Monotone (byteSize a + ·) := fun _ _ h => Nat.add_le_add_left h _
  constructor
  · intro hn
    obtain ⟨k, hk, rfl⟩ := hn
    exact hmono.map_isLeast (findFirst?_eq_some_iff.mp hk)
  · intro hn
    obtain ⟨⟨k, hk, rfl⟩, hleast⟩ := hn
    refine ⟨k, findFirst?_eq_some_iff.mpr ⟨hk, fun p hp => ?_⟩, rfl⟩
    exact Nat.le_of_add_le_add_left (hleast ⟨p, hp, rfl⟩)

theorem findFrom?_eq_none_iff (h : Aligned b.chars start) :
    b.findFrom? x start = none ↔ ∀ p, OccursAt x b.chars p → p < start := by
  obtain ⟨cs⟩ := b
  obtain ⟨a, cs, rfl, rfl⟩ := h
  rw [findFrom?_append, Option.map_eq_none_iff, findFirst?_eq_none_iff]
  constructor
  · intro hnone p hp
    by_contra hle
    obtain ⟨k, rfl⟩ := Nat.exists_eq_add_of_le (Nat.le_of_not_lt hle)
    exact hnone k (occursAt_append_iff.mp hp)
  · intro hlt k hk
    have hbefore := hlt _ (occursAt_append_iff.mpr hk)
    omega

/-- A character that occurs can be sliced out. -/
theorem slice?_of_occursAt (h : OccursAt x b.chars n) :
    b.slice? n (n + x.utf8Size) = some [x] := by
  obtain ⟨p, q, hb, rfl⟩ := h
  exact slice?_eq_some_iff.mpr ⟨p, q, hb, rfl, by simp⟩

/-- The first occurrence is the least position at which the character occurs and the last one the
greatest, and nothing is found just if it occurs nowhere. A search from an aligned position
finds the least occurrence from there on, and one from any other position finds nothing. What is
found can be sliced out. -/
theorem finds_occurrences (b : Buffer) (x : Char) (start : Nat) :
    (∀ n, b.findFirst? x = some n ↔ IsLeast {p | OccursAt x b.chars p} n) ∧
    (b.findFirst? x = none ↔ ∀ p, ¬OccursAt x b.chars p) ∧
    (∀ n, b.findLast? x = some n ↔ IsGreatest {p | OccursAt x b.chars p} n) ∧
    (b.findLast? x = none ↔ ∀ p, ¬OccursAt x b.chars p) ∧
    (Aligned b.chars start →
      (∀ n, b.findFrom? x start = some n ↔ IsLeast {p | OccursAt x b.chars p ∧ start ≤ p} n) ∧
      (b.findFrom? x start = none ↔ ∀ p, OccursAt x b.chars p → p < start)) ∧
    (¬Aligned b.chars start → b.findFrom? x start = none) ∧
    ∀ n, b.findFirst? x = some n ∨ b.findLast? x = some n ∨ b.findFrom? x start = some n →
      b.slice? n (n + x.utf8Size) = some [x] := by
  refine ⟨fun n => findFirst?_eq_some_iff, findFirst?_eq_none_iff,
    fun n => findLast?_eq_some_iff, findLast?_eq_none_iff, ?_, findFrom?_of_not_aligned, ?_⟩
  · exact fun h => ⟨fun n => findFrom?_eq_some_iff h, findFrom?_eq_none_iff h⟩
  · intro n h
    apply slice?_of_occursAt
    rcases h with h | h | h
    · exact (findFirst?_eq_some_iff.mp h).1
    · exact (findLast?_eq_some_iff.mp h).1
    · by_cases hstart : Aligned b.chars start
      · exact ((findFrom?_eq_some_iff hstart).mp h).1.1
      · rw [findFrom?_of_not_aligned hstart] at h
        cases h

end

end Buffer

end ComparisonChain
