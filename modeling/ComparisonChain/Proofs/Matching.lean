import ComparisonChain.Proofs.Connectors
import Mathlib.Data.List.Induction

/-!
# Partners

A parenthesis has a partner just if the text on the side where it looks for one
has too many of the other kind: the shortest part that does ends at the partner.
`balanced_iff_partners` follows, which says that a text is balanced just if
every parenthesis in it has a partner.
-/
namespace ComparisonChain.Text

/-- The text closes `d` more parentheses than it opens, and no first part closes more. -/
inductive Closes : Nat → List Char → Prop
  | nil : Closes 0 []
  | opening {d : Nat} {cs : List Char} : Closes (d + 1) cs → Closes d ('(' :: cs)
  | closing {d : Nat} {cs : List Char} : Closes d cs → Closes (d + 1) (')' :: cs)
  | other {d : Nat} {c : Char} {cs : List Char} : isParenthesis c = false → Closes d cs →
      Closes d (c :: cs)

/-- Every opening parenthesis has a partner. -/
def AllClosed (cs : List Char) : Prop := ∀ i, OccursAt '(' cs i → ∃ j, Partners cs i j

/-- Every closing parenthesis has a partner. -/
def AllOpened (cs : List Char) : Prop := ∀ j, OccursAt ')' cs j → ∃ i, Partners cs i j

section
variable {cs a b m r : List Char} {c : Char} {d : Nat}

/-! ## Counting -/

theorem parenthesis_cases (c : Char) : c = '(' ∨ c = ')' ∨ isParenthesis c = false := by
  rw [isParenthesis_eq_false_iff]
  tauto

theorem count_cons_open (cs : List Char) :
    ('(' :: cs).count '(' = cs.count '(' + 1 ∧ ('(' :: cs).count ')' = cs.count ')' := by
  simp

theorem count_cons_close (cs : List Char) :
    (')' :: cs).count '(' = cs.count '(' ∧ (')' :: cs).count ')' = cs.count ')' + 1 := by
  simp

theorem count_cons_other (h : isParenthesis c = false) (cs : List Char) :
    (c :: cs).count '(' = cs.count '(' ∧ (c :: cs).count ')' = cs.count ')' := by
  obtain ⟨ho, hc⟩ := isParenthesis_eq_false_iff.mp h
  exact ⟨List.count_cons_of_ne ho, List.count_cons_of_ne hc⟩

theorem forall_prefix_cons_iff {P : List Char → Prop} :
    (∀ p, p <+: c :: cs → P p) ↔ P [] ∧ ∀ p, p <+: cs → P (c :: p) := by
  constructor
  · exact fun h => ⟨h [] List.nil_prefix, fun p hp => h _ (List.cons_prefix_cons.mpr ⟨rfl, hp⟩)⟩
  · intro h p hp
    cases p with
    | nil => exact h.1
    | cons x p =>
        obtain ⟨rfl, htail⟩ := List.cons_prefix_cons.mp hp
        exact h.2 p htail

/-- A first part closes at most `d` more than it opens, and the whole just `d` more. -/
theorem closes_iff : Closes d cs ↔
    (∀ p, p <+: cs → p.count ')' ≤ p.count '(' + d) ∧ cs.count ')' = cs.count '(' + d := by
  constructor
  · intro h
    induction h with
    | nil => simp
    | @opening d cs _ ih =>
        simp only [forall_prefix_cons_iff, count_cons_open]
        exact ⟨⟨by simp, fun p hp => by have := ih.1 p hp; omega⟩, by omega⟩
    | @closing d cs _ ih =>
        simp only [forall_prefix_cons_iff, count_cons_close]
        exact ⟨⟨by simp, fun p hp => by have := ih.1 p hp; omega⟩, by omega⟩
    | other hc _ ih =>
        simp only [forall_prefix_cons_iff, count_cons_other hc]
        exact ⟨⟨by simp, ih.1⟩, ih.2⟩
  · intro h
    induction cs generalizing d with
    | nil =>
        obtain rfl : d = 0 := by simpa using h.2.symm
        exact .nil
    | cons c cs ih =>
        rw [forall_prefix_cons_iff] at h
        obtain ⟨⟨-, hp⟩, hcount⟩ := h
        rcases parenthesis_cases c with rfl | rfl | hc
        · simp only [count_cons_open] at hp hcount
          exact .opening (ih ⟨fun p h => by have := hp p h; omega, by omega⟩)
        · simp only [count_cons_close] at hp hcount
          obtain ⟨k, rfl⟩ : ∃ k, d = k + 1 := by
            have hle := hp [] List.nil_prefix
            exact ⟨d - 1, by simp at hle; omega⟩
          exact .closing (ih ⟨fun p h => by have := hp p h; omega, by omega⟩)
        · simp only [count_cons_other hc] at hp hcount
          exact .other hc (ih ⟨hp, hcount⟩)

theorem balanced_iff_closes : Balanced cs ↔ Closes 0 cs := by
  rw [closes_iff]
  simp only [Balanced, Nat.add_zero]

/-! ## Where a partner is -/

theorem count_append_open (a r : List Char) :
    (a ++ '(' :: r).count '(' = a.count '(' + r.count '(' + 1 ∧
      (a ++ '(' :: r).count ')' = a.count ')' + r.count ')' := by
  simp only [List.count_append, count_cons_open, Nat.add_assoc, and_self]

theorem count_append_close (a r : List Char) :
    (a ++ ')' :: r).count '(' = a.count '(' + r.count '(' ∧
      (a ++ ')' :: r).count ')' = a.count ')' + r.count ')' + 1 := by
  simp only [List.count_append, count_cons_close, Nat.add_assoc, and_self]

/-- The first place where more than `d` parentheses too many are closed. -/
theorem exists_closes_of_count_lt (h : cs.count '(' + d < cs.count ')') :
    ∃ m b, cs = m ++ ')' :: b ∧ Closes d m := by
  induction cs generalizing d with
  | nil => simp at h
  | cons c cs ih =>
      rcases parenthesis_cases c with rfl | rfl | hc
      · simp only [count_cons_open] at h
        obtain ⟨m, b, rfl, hm⟩ := ih (d := d + 1) (by omega)
        exact ⟨'(' :: m, b, rfl, .opening hm⟩
      · simp only [count_cons_close] at h
        cases d with
        | zero => exact ⟨[], cs, rfl, .nil⟩
        | succ d =>
            obtain ⟨m, b, rfl, hm⟩ := ih (d := d) (by omega)
            exact ⟨')' :: m, b, rfl, .closing hm⟩
      · simp only [count_cons_other hc] at h
        obtain ⟨m, b, rfl, hm⟩ := ih h
        exact ⟨c :: m, b, rfl, .other hc hm⟩

/-- A text with parentheses that are closed too often starts with the partner's text. -/
theorem exists_balanced_before (h : cs.count '(' < cs.count ')') :
    ∃ m b, cs = m ++ ')' :: b ∧ Balanced m := by
  obtain ⟨m, b, hcs, hm⟩ := exists_closes_of_count_lt (d := 0) h
  exact ⟨m, b, hcs, balanced_iff_closes.mpr hm⟩

/-- What no last part opens more often than it closes is balanced if the whole is even. -/
theorem balanced_of_suffixes (h : ∀ q, q <:+ cs → q.count '(' ≤ q.count ')')
    (hcount : cs.count ')' = cs.count '(') : Balanced cs := by
  refine ⟨fun p hp => ?_, hcount⟩
  obtain ⟨q, rfl⟩ := hp
  have hle := h q (List.suffix_append p q)
  simp only [List.count_append] at hcount
  omega

/-- The last place where an opening parenthesis is too many. -/
theorem exists_balanced_behind (h : cs.count ')' < cs.count '(') :
    ∃ a m, cs = a ++ '(' :: m ∧ Balanced m := by
  have hsplit : (∀ q, q <:+ cs → q.count '(' ≤ q.count ')') ∨
      ∃ a m, cs = a ++ '(' :: m ∧ Balanced m := by
    clear h
    induction cs with
    | nil => exact .inl fun q hq => by simp [List.suffix_nil.mp hq]
    | cons c cs ih =>
        rcases ih with hall | ⟨a, m, rfl, hm⟩
        · by_cases hle : (c :: cs).count '(' ≤ (c :: cs).count ')'
          · refine .inl fun q hq => ?_
            rcases List.suffix_cons_iff.mp hq with rfl | hq
            · exact hle
            · exact hall q hq
          · -- the text gets one too many just where it opens a parenthesis
            have hcs := hall cs List.suffix_rfl
            rcases parenthesis_cases c with rfl | rfl | hc
            · simp only [count_cons_open] at hle
              exact .inr ⟨[], cs, rfl, balanced_of_suffixes hall (by omega)⟩
            · simp only [count_cons_close] at hle
              omega
            · simp only [count_cons_other hc] at hle
              omega
        · exact .inr ⟨c :: a, m, rfl, hm⟩
  refine hsplit.resolve_left fun hall => ?_
  have hle := hall cs List.suffix_rfl
  omega

/-! ## Partners of all -/

theorem exists_partners_iff_open : (∃ j, Partners (a ++ '(' :: r) (byteSize a) j) ↔
    ∃ m b, r = m ++ ')' :: b ∧ Balanced m := by
  constructor
  · intro h
    obtain ⟨_, a', m, b, hcs, hm, hi, rfl⟩ := h
    have ha : a = a' := Reading.eq_of_prefix_of_byteSize_eq (List.prefix_append a _)
      ⟨'(' :: (m ++ ')' :: b), by simpa using hcs.symm⟩ hi
    subst ha
    exact ⟨m, b, by simpa using hcs, hm⟩
  · intro h
    obtain ⟨m, b, rfl, hm⟩ := h
    exact ⟨_, a, m, b, by simp, hm, rfl, rfl⟩

theorem exists_partners_iff_close : (∃ i, Partners (a ++ ')' :: r) i (byteSize a)) ↔
    ∃ b m, a = b ++ '(' :: m ∧ Balanced m := by
  constructor
  · intro h
    obtain ⟨_, b, m, r', hcs, hm, rfl, hj⟩ := h
    have ha : a = b ++ ['('] ++ m := Reading.eq_of_prefix_of_byteSize_eq
      (List.prefix_append a _) ⟨')' :: r', by simpa using hcs.symm⟩ hj
    exact ⟨b, m, by simpa using ha, hm⟩
  · intro h
    obtain ⟨b, m, rfl, hm⟩ := h
    exact ⟨_, b, m, r, by simp, hm, rfl, by simp⟩

theorem allClosed_iff : AllClosed cs ↔
    ∀ a r, cs = a ++ '(' :: r → ∃ m b, r = m ++ ')' :: b ∧ Balanced m := by
  constructor
  · rintro h a r rfl
    exact exists_partners_iff_open.mp (h _ ⟨a, r, by simp, rfl⟩)
  · rintro h i ⟨a, r, hcs, rfl⟩
    have hsplit : cs = a ++ '(' :: r := by simpa using hcs
    rw [hsplit]
    exact exists_partners_iff_open.mpr (h a r hsplit)

theorem allOpened_iff : AllOpened cs ↔
    ∀ a r, cs = a ++ ')' :: r → ∃ b m, a = b ++ '(' :: m ∧ Balanced m := by
  constructor
  · rintro h a r rfl
    exact exists_partners_iff_close.mp (h _ ⟨a, r, by simp, rfl⟩)
  · rintro h j ⟨a, r, hcs, rfl⟩
    have hsplit : cs = a ++ ')' :: r := by simpa using hcs
    rw [hsplit]
    exact exists_partners_iff_close.mpr (h a r hsplit)

theorem AllClosed.lastPart (h : AllClosed cs) (hr : r <:+ cs) : AllClosed r := by
  obtain ⟨p, rfl⟩ := hr
  rw [allClosed_iff] at h ⊢
  rintro a r rfl
  exact h (p ++ a) r (by simp)

/-- With a partner for each, no more is opened than closed. -/
theorem AllClosed.count_le (h : AllClosed cs) : cs.count '(' ≤ cs.count ')' := by
  induction hn : cs.length using Nat.strong_induction_on generalizing cs with
  | _ n ih =>
      cases cs with
      | nil => simp
      | cons c cs =>
          have hrest : AllClosed cs := h.lastPart (List.suffix_cons c cs)
          have hle := ih cs.length (by simp [← hn]) hrest rfl
          rcases parenthesis_cases c with rfl | rfl | hc
          · -- from the partner on there is a text with a partner for each again
            obtain ⟨m, b, rfl, hm⟩ := allClosed_iff.mp h [] cs rfl
            have hb := ih b.length (by simp [← hn]; omega)
              (hrest.lastPart ⟨m ++ [')'], by simp⟩) rfl
            have hcount := hm.2
            simp only [count_cons_open, count_append_close]
            omega
          · simp only [count_cons_close]
            omega
          · simpa only [count_cons_other hc] using hle

theorem AllOpened.firstPart (h : AllOpened cs) (ha : a <+: cs) : AllOpened a := by
  obtain ⟨q, rfl⟩ := ha
  rw [allOpened_iff] at h ⊢
  rintro a r rfl
  exact h a (r ++ q) (by simp)

/-- With a partner for each, no more is closed than opened. -/
theorem AllOpened.count_le (h : AllOpened cs) : cs.count ')' ≤ cs.count '(' := by
  induction hn : cs.length using Nat.strong_induction_on generalizing cs with
  | _ n ih =>
      rcases List.eq_nil_or_concat cs with rfl | ⟨p, c, rfl⟩
      · simp
      · rw [List.concat_eq_append] at h hn ⊢
        have hrest : AllOpened p := h.firstPart (List.prefix_append p [c])
        have hle := ih p.length (by simp [← hn]) hrest rfl
        rcases parenthesis_cases c with rfl | rfl | hc
        · simp only [count_append_open, List.count_nil]
          omega
        · obtain ⟨b, m, rfl, hm⟩ := allOpened_iff.mp h p [] rfl
          have hb := ih b.length (by simp [← hn])
            (hrest.firstPart (List.prefix_append b _)) rfl
          have hcount := hm.2
          simp only [count_append_close, count_append_open, List.count_nil]
          omega
        · simpa only [List.count_append, count_cons_other hc, List.count_nil, Nat.add_zero]
            using hle

theorem Balanced.allClosed (h : Balanced cs) : AllClosed cs := by
  rw [allClosed_iff]
  rintro a r rfl
  have hprefix := h.1 a (List.prefix_append a _)
  have hcount := h.2
  simp only [count_append_open] at hcount
  exact exists_balanced_before (by omega)

theorem Balanced.allOpened (h : Balanced cs) : AllOpened cs := by
  rw [allOpened_iff]
  rintro a r rfl
  have hprefix := h.1 (a ++ [')']) ⟨r, by simp⟩
  simp only [count_append_close, List.count_nil] at hprefix
  exact exists_balanced_behind (by omega)

/-- A text is balanced just if every parenthesis in it has a partner. -/
theorem balanced_iff_partners : Balanced cs ↔ AllClosed cs ∧ AllOpened cs := by
  refine ⟨fun h => ⟨h.allClosed, h.allOpened⟩, fun h => ?_⟩
  exact ⟨fun p hp => (h.2.firstPart hp).count_le, Nat.le_antisymm h.2.count_le h.1.count_le⟩

/-! ## Outer text -/

theorem close_notMem_outerFrom (d : Nat) (cs : List Char) : ')' ∉ outerFrom d cs := by
  induction cs generalizing d with
  | nil => simp [outerFrom]
  | cons c cs ih =>
      simp only [outerFrom]
      split_ifs with ho hc hd
      · exact ih (d + 1)
      · exact ih (d - 1)
      · rw [List.mem_cons, not_or]
        exact ⟨Ne.symm hc, ih d⟩
      · exact ih d

theorem close_notMem_outer (cs : List Char) : ')' ∉ outer cs := close_notMem_outerFrom 0 cs

theorem outer_of_plain (h : Plain cs) : outer cs = cs := by
  induction cs with
  | nil => rfl
  | cons c cs ih =>
      rw [plain_cons] at h
      rw [outer, outerFrom_other h.1, if_pos rfl, ← outer, ih h.2]

theorem Balanced.plain (h : Balanced cs) (ho : '(' ∉ cs) : Plain cs := by
  have hcount := h.2
  rw [List.count_eq_zero_of_not_mem ho, List.count_eq_zero] at hcount
  intro c hc
  rcases parenthesis_cases c with rfl | rfl | hother
  · exact absurd hc ho
  · exact absurd hc hcount
  · exact hother

end

end ComparisonChain.Text
