import ComparisonChain.Text.Bytes

/-!
# Matching parentheses

Two parentheses are partners when the text between them is balanced. The outer
text is what no pair of partners surrounds.
-/
namespace ComparisonChain.Text

def isParenthesis (c : Char) : Bool := c == '(' || c == ')'

theorem isParenthesis_eq_false_iff {c : Char} :
    isParenthesis c = false ↔ c ≠ '(' ∧ c ≠ ')' := by
  simp only [isParenthesis, Bool.or_eq_false_iff, beq_eq_false_iff_ne]

/-- Without parentheses. -/
def Plain (cs : List Char) : Prop := ∀ c ∈ cs, isParenthesis c = false

theorem plain_cons {c : Char} {cs : List Char} :
    Plain (c :: cs) ↔ isParenthesis c = false ∧ Plain cs :=
  List.forall_mem_cons

theorem plain_append {cs ds : List Char} : Plain (cs ++ ds) ↔ Plain cs ∧ Plain ds :=
  List.forall_mem_append

theorem Plain.notMem_open {cs : List Char} (h : Plain cs) : '(' ∉ cs := fun hc => by
  cases h _ hc

theorem Plain.notMem_close {cs : List Char} (h : Plain cs) : ')' ∉ cs := fun hc => by
  cases h _ hc

/-- No first part closes more than it opens, and in the end all is closed. -/
def Balanced (cs : List Char) : Prop :=
  (∀ p, p <+: cs → p.count ')' ≤ p.count '(') ∧ cs.count ')' = cs.count '('

/-- An opening parenthesis at byte `i` and a closing one at byte `j` with
balanced text between them. -/
def Partners (cs : List Char) (i j : Nat) : Prop :=
  ∃ a m b, cs = a ++ ['('] ++ m ++ [')'] ++ b ∧ Balanced m ∧
    i = byteSize a ∧ j = byteSize (a ++ ['('] ++ m)

/-- The character `c` starts at byte `i`. -/
def OccursAt (c : Char) (cs : List Char) (i : Nat) : Prop :=
  ∃ a b, cs = a ++ [c] ++ b ∧ i = byteSize a

/-- An opening parenthesis occurs while an earlier one is still to be closed. -/
def Nested (cs : List Char) : Prop :=
  ∃ a m b, cs = a ++ ['('] ++ m ++ ['('] ++ b ∧
    ∀ p, p <+: m → p.count ')' ≤ p.count '('

/-- A character that a first part lacks occurs behind that part. -/
theorem exists_of_append_eq {w cs m b : List Char} {x : Char} (hw : x ∉ w)
    (h : w ++ cs = m ++ x :: b) : ∃ m', m = w ++ m' ∧ cs = m' ++ x :: b := by
  rcases List.append_eq_append_iff.mp h with ⟨m', hm, hcs⟩ | ⟨v, hv, hx⟩
  · exact ⟨m', hm, hcs⟩
  · cases v with
    | nil => exact ⟨[], by simpa using hv.symm, by simpa using hx.symm⟩
    | cons c v =>
        obtain ⟨rfl, -⟩ := List.cons.inj hx
        exact absurd (hv ▸ by simp) hw

theorem Nested.of_append {w cs : List Char} (hw : '(' ∉ w) (h : Nested (w ++ cs)) : Nested cs := by
  obtain ⟨a, m, b, hcs, hm⟩ := h
  have hsplit : w ++ cs = a ++ '(' :: (m ++ '(' :: b) := by simpa using hcs
  obtain ⟨a', -, hcs⟩ := exists_of_append_eq hw hsplit
  exact ⟨a', m, b, by simpa using hcs, hm⟩

/-- A group without parentheses closes before another one opens. -/
theorem Nested.of_group {w cs : List Char} (hw : Plain w) (h : Nested ('(' :: (w ++ ')' :: cs))) :
    Nested cs := by
  have hopen : '(' ∉ w ++ [')'] := by simpa using hw.notMem_open
  obtain ⟨a, m, b, hcs, hm⟩ := h
  cases a with
  | nil =>
      have hinner : w ++ [')'] ++ cs = m ++ '(' :: b := by simpa using hcs
      obtain ⟨m', hm', -⟩ := exists_of_append_eq hopen hinner
      have hcount := hm (w ++ [')']) ⟨m', hm'.symm⟩
      rw [List.count_eq_zero_of_not_mem hopen, Nat.le_zero, List.count_eq_zero] at hcount
      simp at hcount
  | cons c a =>
      have hrest : w ++ [')'] ++ cs = a ++ '(' :: (m ++ '(' :: b) := by
        simpa using (List.cons.inj hcs).2
      obtain ⟨a', -, hcs⟩ := exists_of_append_eq hopen hrest
      exact ⟨a', m, b, by simpa using hcs, hm⟩

/-- The characters at depth zero, parentheses left out. -/
def outerFrom : Nat → List Char → List Char
  | _, [] => []
  | depth, c :: cs =>
      if c = '(' then outerFrom (depth + 1) cs
      else if c = ')' then outerFrom (depth - 1) cs
      else if depth = 0 then c :: outerFrom depth cs
      else outerFrom depth cs

theorem outerFrom_other {c : Char} (h : isParenthesis c = false) (depth : Nat) (cs : List Char) :
    outerFrom depth (c :: cs) =
      if depth = 0 then c :: outerFrom depth cs else outerFrom depth cs := by
  obtain ⟨ho, hc⟩ := isParenthesis_eq_false_iff.mp h
  rw [outerFrom, if_neg ho, if_neg hc]

def outer (cs : List Char) : List Char := outerFrom 0 cs

end ComparisonChain.Text
