import ComparisonChain.Proofs.Searches
import Mathlib.Algebra.GroupWithZero.Nat

/-!
# What a buffer gives up

Two commands take something out of a buffer, and each answers with what it took:
a cut with the text of its range, the skipping of blanks with their size. A range
that does not fit is refused and nothing is lost. So at every point of a run the
initial size is that of the buffer and of all that was taken so far.
`run_accounts` says both of every run.
-/
namespace ComparisonChain.Buffer
open Text Reading

/-- The range is in order and in the text, and splits no character. -/
def Fits (b : Buffer) (start stop : Nat) : Prop :=
  start ≤ stop ∧ stop ≤ b.size ∧ Aligned b.chars start ∧ Aligned b.chars stop

/-- What a command answers of a buffer, and what it leaves of it. A range that fits is taken out
and answered, and stood between the parts on either side of its place; of blanks all are taken
that the text starts with. Nothing else changes the buffer. -/
def Accounts (b : Buffer) : Command → Answer → Buffer → Prop
  | .erase start stop, answer, r =>
      (b.Fits start stop → ∃ p x q, b.chars = p ++ x ++ q ∧
        splitAtByte? start r.chars = some (p, q) ∧ b.slice? start stop = some x ∧
        answer = .text (some x)) ∧
      (¬b.Fits start stop → answer = .text none ∧ r = b)
  | .skipBlanks, answer, r =>
      ∃ w, b.chars = w ++ r.chars ∧ answer = .count (byteSize w) ∧ AllBlank w ∧
        (∀ u, u <+: b.chars → AllBlank u → u <+: w) ∧ ∀ c ∈ r.chars.head?, isBlank c = false
  | _, _, r => r = b

/-- The bytes that are gone by an answer. -/
def taken : Command → Answer → Nat
  | .erase _ _, .text (some x) => byteSize x
  | .skipBlanks, .count n => n
  | _, _ => 0

/-- The buffer after some commands. -/
def after (b : Buffer) (cs : List Command) : Buffer := cs.foldl (fun b c => (b.step c).2) b

/-- All bytes that are gone by the answers of a run. -/
def removed (b : Buffer) (cs : List Command) : Nat :=
  (List.zipWith (fun c a => taken c a.1) cs (b.run cs)).sum

section
variable {b r : Buffer} {start stop : Nat} {c : Command} {x : List Char}

/-! ## Ranges -/

theorem fits_iff : b.Fits start stop ↔
    ∃ p x q, b.chars = p ++ x ++ q ∧ byteSize p = start ∧ byteSize (p ++ x) = stop := by
  constructor
  · intro h
    obtain ⟨hle, -, ⟨p, s, hp, rfl⟩, ⟨o, q, ho, rfl⟩⟩ := h
    have hprefix : p <+: o := prefix_of_byteSize_le ⟨s, hp.symm⟩ ⟨q, ho.symm⟩ hle
    obtain ⟨x, rfl⟩ := hprefix
    exact ⟨p, x, q, ho, rfl, rfl⟩
  · intro h
    obtain ⟨p, x, q, hb, rfl, rfl⟩ := h
    refine ⟨?_, ?_, ⟨p, x ++ q, by rw [hb, List.append_assoc], rfl⟩, ⟨p ++ x, q, hb, rfl⟩⟩
    · rw [byteSize_append]
      exact Nat.le_add_right _ _
    · rw [size, hb, byteSize_append (p ++ x)]
      exact Nat.le_add_right _ _

theorem erase?_eq_none_iff : b.erase? start stop = none ↔ ¬b.Fits start stop := by
  rw [← not_iff_not, not_not, ← ne_eq, Option.ne_none_iff_exists', fits_iff]
  constructor
  · intro h
    obtain ⟨⟨x, r⟩, hr⟩ := h
    obtain ⟨p, q, hb, hstart, hstop, -⟩ := erase?_eq_some_iff.mp hr
    exact ⟨p, x, q, hb, hstart, hstop⟩
  · intro h
    obtain ⟨p, x, q, hb, hstart, hstop⟩ := h
    exact ⟨(x, ⟨p ++ q⟩), erase?_eq_some_iff.mpr ⟨p, q, hb, hstart, hstop, rfl⟩⟩

/-- A cut gives what a slice would have given, and closes the gap. -/
theorem exists_of_erase? (h : b.erase? start stop = some (x, r)) :
    ∃ p q, b.chars = p ++ x ++ q ∧ splitAtByte? start r.chars = some (p, q) ∧
      b.slice? start stop = some x := by
  obtain ⟨p, q, hb, rfl, hstop, hr⟩ := erase?_eq_some_iff.mp h
  refine ⟨p, q, hb, ?_, slice?_eq_some_iff.mpr ⟨p, q, hb, rfl, hstop⟩⟩
  rw [hr]
  exact splitAtByte?_append p q

/-! ## Blanks -/

theorem allBlank_takeWhile (cs : List Char) : AllBlank (cs.takeWhile isBlank) :=
  fun c hc => List.all_eq_true.mp List.all_takeWhile c hc

/-- The blanks that are skipped are all that the text starts with. -/
theorem prefix_takeWhile_of_allBlank {u cs : List Char} (hu : u <+: cs) (h : AllBlank u) :
    u <+: cs.takeWhile isBlank := by
  obtain ⟨v, rfl⟩ := hu
  rw [List.takeWhile_append_of_pos h]
  exact List.prefix_append u _

theorem accounts_skipBlanks (b : Buffer) :
    b.Accounts .skipBlanks (b.step .skipBlanks).1 (b.step .skipBlanks).2 :=
  ⟨b.chars.takeWhile isBlank, b.skipBlanks_append.symm, rfl, allBlank_takeWhile _,
    fun _ => prefix_takeWhile_of_allBlank, fun _ => not_blank_of_head?_trimStart⟩

/-! ## One command -/

theorem step_erase_of_some (h : b.erase? start stop = some (x, r)) :
    b.step (.erase start stop) = (.text (some x), r) := by
  simp only [step, h]

theorem step_erase_of_none (h : b.erase? start stop = none) :
    b.step (.erase start stop) = (.text none, b) := by
  simp only [step, h]

theorem accounts_erase (b : Buffer) (start stop : Nat) :
    b.Accounts (.erase start stop) (b.step (.erase start stop)).1
      (b.step (.erase start stop)).2 := by
  cases he : b.erase? start stop with
  | none =>
      rw [step_erase_of_none he]
      exact ⟨fun h => absurd h (erase?_eq_none_iff.mp he), fun _ => ⟨rfl, rfl⟩⟩
  | some taken =>
      obtain ⟨x, r⟩ := taken
      have hfits : b.Fits start stop := by
        by_contra hno
        rw [erase?_eq_none_iff.mpr hno] at he
        cases he
      obtain ⟨p, q, hb, hr, hslice⟩ := exists_of_erase? he
      rw [step_erase_of_some he]
      exact ⟨fun _ => ⟨p, x, q, hb, hr, hslice, rfl⟩, fun h => absurd hfits h⟩

theorem accounts_step (b : Buffer) (c : Command) : b.Accounts c (b.step c).1 (b.step c).2 := by
  cases c with
  | erase start stop => exact accounts_erase b start stop
  | skipBlanks => exact accounts_skipBlanks b
  | size | isEmpty | findFirst | findLast | findFrom | slice => rfl

/-- What is taken and what is left make up the buffer. -/
theorem Accounts.size_add_taken {answer : Answer} (h : b.Accounts c answer r) :
    r.size + taken c answer = b.size := by
  cases c with
  | erase start stop =>
      by_cases hfits : b.Fits start stop
      · obtain ⟨p, x, q, hb, hr, -, rfl⟩ := h.1 hfits
        rw [size, size, hb, (splitAtByte?_eq_some_iff.mp hr).1, taken]
        simp only [byteSize_append]
        omega
      · obtain ⟨rfl, rfl⟩ := h.2 hfits
        rfl
  | skipBlanks =>
      obtain ⟨w, hb, rfl, -⟩ := h
      rw [size, size, hb, taken, byteSize_append, Nat.add_comm]
  | size | isEmpty | findFirst | findLast | findFrom | slice =>
      cases h
      cases answer <;> rfl

/-! ## Runs -/

theorem after_concat (b : Buffer) (cs : List Command) (c : Command) :
    b.after (cs ++ [c]) = ((b.after cs).step c).2 :=
  List.foldl_append

theorem getElem?_run (b : Buffer) (before behind : List Command) (c : Command) :
    (b.run (before ++ c :: behind))[before.length]? = some ((b.after before).step c) := by
  induction before generalizing b with
  | nil => rfl
  | cons d before ih => exact ih (b.step d).2

theorem size_after (b : Buffer) (cs : List Command) : (b.after cs).size + b.removed cs = b.size := by
  induction cs generalizing b with
  | nil => rfl
  | cons c cs ih =>
      have hstep := (accounts_step b c).size_add_taken
      have hrest := ih (b.step c).2
      have hremoved : b.removed (c :: cs) =
          taken c (b.step c).1 + (b.step c).2.removed cs := rfl
      have hafter : b.after (c :: cs) = (b.step c).2.after cs := rfl
      rw [hremoved, hafter]
      omega

/-- Each command of a run meets the buffer that the commands before it have left, and accounts
for what it takes out of it. At every point of the run the buffer and all that was taken
have the initial size together. -/
theorem run_accounts (b : Buffer) (cs : List Command) :
    (∀ before c behind, cs = before ++ c :: behind → ∃ answer r,
      (b.run cs)[before.length]? = some (answer, r) ∧ r = b.after (before ++ [c]) ∧
      (b.after before).Accounts c answer r) ∧
    ∀ before, before <+: cs → (b.after before).size + b.removed before = b.size := by
  refine ⟨?_, fun before _ => size_after b before⟩
  rintro before c behind rfl
  exact ⟨_, _, getElem?_run b before behind c, (after_concat b before c).symm, accounts_step _ c⟩

end

end ComparisonChain.Buffer
