import ComparisonChain.Reading.Groups
import Mathlib.Data.List.TakeWhile

/-!
# Cutting groups as a fold from the right

The last opening parenthesis is cut first, so cutting goes through a text from
right to left and never touches what stands before the group at hand. The
groups of `c :: cs` are therefore those of `cs`, and one more if `c` opens a
group; that group reaches to the first closing parenthesis that the groups of
`cs` have left. `outcome_cutGroups` says that the loop over a shrinking buffer
does just this.
-/
namespace ComparisonChain.Reading
open Text

/-- The text before the first closing parenthesis. -/
def untilClose (cs : List Char) : List Char := cs.takeWhile (· != ')')

/-- The text after the first closing parenthesis. -/
def pastClose (cs : List Char) : List Char := (cs.dropWhile (· != ')')).drop 1

/-- Cuts every group of a text that starts at byte `n`: the spans in cutting
order, and what stands outside of them. A closing parenthesis that has no
partner in the text is left. -/
def peel (limit : Option Nat) : Nat → List Char → Except FormFault (List Span × List Char)
  | _, [] => .ok ([], [])
  | n, c :: cs =>
      match peel limit (n + c.utf8Size) cs with
      | .error f => .error f
      | .ok (spans, r) =>
          if c = '(' then
            if ')' ∈ r then
              match reached? limit spans.length with
              | some m => .error (.tooManyGroups m)
              | none => .ok (spans ++ [⟨n + 1, n + 1 + byteSize (untilClose r)⟩], pastClose r)
            else .error (.unclosed n)
          else .ok (spans, c :: r)

section
variable {a b own r cs : List Char} {limit : Option Nat} {found n i j : Nat}
variable {spans : List Span}

theorem untilClose_append (h : ')' ∉ own) (r : List Char) :
    untilClose (own ++ ')' :: r) = own :=
  takeWhile_ne_append h r

theorem pastClose_append (h : ')' ∉ own) (r : List Char) : pastClose (own ++ ')' :: r) = r := by
  rw [pastClose, dropWhile_ne_append h]
  rfl

theorem untilClose_append_pastClose (h : ')' ∈ cs) :
    untilClose cs ++ ')' :: pastClose cs = cs := by
  obtain ⟨own, r, rfl, hown⟩ := List.eq_append_cons_of_mem h
  rw [untilClose_append hown, pastClose_append hown]

/-! ## One cut -/

theorem nextPair?_of_notMem (h : '(' ∉ cs) :
    nextPair? ⟨cs⟩ =
      match findFirst? ')' cs with
      | some closing => .error (.unmatched closing)
      | none => .ok none := by
  simp only [nextPair?, Buffer.findLast?, findLast?_eq_none h]
  rfl

theorem nextPair?_append_cons (h : '(' ∉ r) :
    nextPair? ⟨a ++ '(' :: r⟩ =
      if ')' ∈ r then .ok (some (byteSize a, byteSize a + 1 + byteSize (untilClose r)))
      else .error (.unclosed (byteSize a)) := by
  simp only [nextPair?, Buffer.findLast?, findLast?_append_cons h, Buffer.findFrom?_append]
  split_ifs with hc
  · obtain ⟨own, r, rfl, hown⟩ := List.eq_append_cons_of_mem hc
    have hf : findFirst? ')' ('(' :: (own ++ ')' :: r)) = some (1 + byteSize own) :=
      findFirst?_append_cons (a := '(' :: own) (by simpa using hown) r
    simp [hf, untilClose_append hown, Nat.add_assoc]
  · have hf : findFirst? ')' ('(' :: r) = none := findFirst?_eq_none (by simpa using hc)
    simp [hf]

/-- Cutting a group leaves what stands on either side of it. -/
theorem erase?_group (a : List Char) (h : ')' ∈ r) :
    (⟨a ++ '(' :: r⟩ : Buffer).erase? (byteSize a) (byteSize a + 1 + byteSize (untilClose r) + 1) =
      some ('(' :: untilClose r ++ [')'], ⟨a ++ pastClose r⟩) := by
  refine Buffer.erase?_eq_some_iff.mpr ⟨a, pastClose r, ?_, rfl, ?_, rfl⟩
  · have hr := untilClose_append_pastClose h
    simp [hr]
  · have hopen : '('.utf8Size = 1 := rfl
    have hclose : ')'.utf8Size = 1 := rfl
    simp only [byteSize_append, byteSize_cons, byteSize_nil, hopen, hclose]
    omega

theorem outcome_cutGroups_of_fault {b : Buffer} {f : FormFault} (h : nextPair? b = .error f) :
    (cutGroups limit found b).outcome = .error (.form f) := by
  rw [cutGroups]
  split <;> simp_all

theorem outcome_cutGroups_of_none {b : Buffer} (h : nextPair? b = .ok none) :
    (cutGroups limit found b).outcome = .ok ([], b) := by
  rw [cutGroups]
  split <;> simp_all

theorem outcome_cutGroups_of_pair {b rest : Buffer} {x : List Char}
    (h : nextPair? b = .ok (some (i, j))) (he : b.erase? i (j + 1) = some (x, rest)) :
    (cutGroups limit found b).outcome =
      match reached? limit found with
      | some m => .error (.form (.tooManyGroups m))
      | none =>
          (cutGroups limit (found + 1) rest).outcome.map fun p => (⟨i + 1, j⟩ :: p.1, p.2) := by
  rw [cutGroups]
  split
  · simp_all
  · simp_all
  · next hp =>
      cases h.symm.trans hp
      cases reached? limit found with
      | some m => rfl
      | none =>
          simp only
          split
          · next hn => exact absurd (he.symm.trans hn) (by simp)
          · next hr =>
              cases he.symm.trans hr
              simp only [Logged.outcome_bind, Logged.outcome_note]
              cases (cutGroups limit (found + 1) rest).outcome <;> simp [Except.bind, Except.map]

/-! ## All cuts -/

theorem reached?_eq_none_iff : reached? limit found = none ↔ ∀ m ∈ limit, found < m := by
  cases limit <;> simp [reached?]

/-- The two ways in which a text is peeled from its first character on. -/
theorem peel_cons_eq_ok_iff {c : Char} : peel limit n (c :: cs) = .ok (spans, r) ↔
    ∃ spans' r', peel limit (n + c.utf8Size) cs = .ok (spans', r') ∧
      ((c ≠ '(' ∧ spans' = spans ∧ c :: r' = r) ∨
        (c = '(' ∧ ')' ∈ r' ∧ (∀ m ∈ limit, spans'.length < m) ∧
          spans' ++ [⟨n + 1, n + 1 + byteSize (untilClose r')⟩] = spans ∧ pastClose r' = r)) := by
  rw [peel]
  cases peel limit (n + c.utf8Size) cs with
  | error f => simp
  | ok p =>
      obtain ⟨spans', r'⟩ := p
      simp only [← reached?_eq_none_iff, Except.ok.injEq, Prod.mk.injEq, and_assoc, exists_and_left,
        exists_eq_left']
      by_cases hc : c = '('
      · by_cases hr : ')' ∈ r'
        · cases reached? limit spans'.length <;> simp [hc, hr]
        · simp [hc, hr]
      · simp [hc]

theorem open_notMem_of_peel (h : peel limit n cs = .ok (spans, r)) : '(' ∉ r := by
  induction cs generalizing n spans r with
  | nil =>
      cases h
      simp
  | cons c cs ih =>
      obtain ⟨_, r', hp, ⟨hc, _, rfl⟩ | ⟨_, _, _, _, rfl⟩⟩ := peel_cons_eq_ok_iff.mp h
      · simpa [Ne.symm hc] using ih hp
      · exact fun hm => ih hp (List.dropWhile_subset _ (List.mem_of_mem_drop hm))

/-- What the loop has found when it has come down to byte `byteSize a`, and what
it has still to do there. -/
theorem outcome_cutGroups_append (limit : Option Nat) (a cs : List Char) :
    (cutGroups limit 0 ⟨a ++ cs⟩).outcome =
      match peel limit (byteSize a) cs with
      | .error f => .error (.form f)
      | .ok (spans, r) =>
          (cutGroups limit spans.length ⟨a ++ r⟩).outcome.map fun p => (spans ++ p.1, p.2) := by
  induction cs generalizing a with
  | nil =>
      simp only [peel, List.length_nil, List.nil_append]
      cases (cutGroups limit 0 ⟨a ++ []⟩).outcome <;> rfl
  | cons c cs ih =>
      have hsize : byteSize (a ++ [c]) = byteSize a + c.utf8Size := by simp
      rw [List.append_cons, ih, hsize, peel]
      cases hp : peel limit (byteSize a + c.utf8Size) cs with
      | error f => rfl
      | ok p =>
          obtain ⟨spans, r⟩ := p
          have hr := open_notMem_of_peel hp
          simp only [List.append_assoc, List.singleton_append]
          split_ifs with hc hm
          · subst hc
            have hpair := nextPair?_append_cons (a := a) hr
            rw [if_pos hm] at hpair
            rw [outcome_cutGroups_of_pair hpair (erase?_group a hm)]
            cases reached? limit spans.length with
            | some m => rfl
            | none =>
                simp only [List.length_append, List.length_singleton]
                cases (cutGroups limit (spans.length + 1) ⟨a ++ pastClose r⟩).outcome <;>
                  simp [Except.map]
          · subst hc
            have hfault := nextPair?_append_cons (a := a) hr
            rw [if_neg hm] at hfault
            rw [outcome_cutGroups_of_fault hfault]
            rfl
          · rfl

theorem outcome_cutGroups (limit : Option Nat) (cs : List Char) :
    (cutGroups limit 0 ⟨cs⟩).outcome =
      match peel limit 0 cs with
      | .error f => .error (.form f)
      | .ok (spans, r) =>
          match findFirst? ')' r with
          | some closing => .error (.form (.unmatched closing))
          | none => .ok (spans, ⟨r⟩) := by
  have h := outcome_cutGroups_append limit [] cs
  rw [List.nil_append, byteSize_nil] at h
  rw [h]
  cases hp : peel limit 0 cs with
  | error f => rfl
  | ok p =>
      obtain ⟨spans, r⟩ := p
      have hn := nextPair?_of_notMem (open_notMem_of_peel hp)
      simp only [List.nil_append]
      split at hn
      · next closing hf =>
          rw [outcome_cutGroups_of_fault hn]
          rfl
      · next hf =>
          rw [outcome_cutGroups_of_none hn]
          simp [Except.map]

/-! ## Without a limit -/

/-- A limit only refuses: what it lets pass is peeled as without one. -/
theorem peel_eq_ok_iff : peel limit n cs = .ok (spans, r) ↔
    peel none n cs = .ok (spans, r) ∧ ∀ m ∈ limit, spans.length ≤ m := by
  induction cs generalizing n spans r with
  | nil =>
      refine ⟨fun h => ⟨h, fun m _ => ?_⟩, And.left⟩
      cases h
      exact Nat.zero_le m
  | cons c cs ih =>
      simp only [peel_cons_eq_ok_iff, ih]
      constructor
      · intro h
        obtain ⟨spans', r', ⟨hp, hm⟩, hcase⟩ := h
        rcases hcase with ⟨hc, rfl, rfl⟩ | ⟨rfl, hr, hl, rfl, rfl⟩
        · exact ⟨⟨_, _, hp, .inl ⟨hc, rfl, rfl⟩⟩, hm⟩
        · refine ⟨⟨_, _, hp, .inr ⟨rfl, hr, by simp, rfl, rfl⟩⟩, fun m hm => ?_⟩
          rw [List.length_append, List.length_singleton]
          exact hl m hm
      · intro h
        obtain ⟨⟨spans', r', hp, hcase⟩, hm⟩ := h
        rcases hcase with ⟨hc, rfl, rfl⟩ | ⟨rfl, hr, _, rfl, rfl⟩
        · exact ⟨_, _, ⟨hp, hm⟩, .inl ⟨hc, rfl, rfl⟩⟩
        · simp only [List.length_append, List.length_singleton] at hm
          exact ⟨_, _, ⟨hp, fun m h => Nat.le_of_lt (hm m h)⟩, .inr ⟨rfl, hr, hm, rfl, rfl⟩⟩

end

end ComparisonChain.Reading
