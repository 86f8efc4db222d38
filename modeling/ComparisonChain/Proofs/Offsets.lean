import ComparisonChain.Proofs.Balance
import ComparisonChain.Proofs.Passes

/-!
# Where a parenthesis without a partner is told

A group is cut out at the right of all that is still to be searched for opening
parentheses, so the place of an opening one is its place in the source. The
closing ones are looked at last, when all groups are gone: the place told for
one is where it stands in what is left, short of its place in the source by all
groups in front of it, and there is one in front at least.
-/
namespace ComparisonChain.Text

section
variable {cs a b : List Char} {j : Nat}

/-- The outer text is shorter by each parenthesis at least. -/
theorem byteSize_outerFrom_le (depth : Nat) (cs : List Char) :
    byteSize (outerFrom depth cs) + cs.countP isParenthesis ≤ byteSize cs := by
  induction cs generalizing depth with
  | nil => exact Nat.le_refl 0
  | cons c cs ih =>
      have hpos := c.utf8Size_pos
      rcases parenthesis_cases c with rfl | rfl | hc
      · have hrest := ih (depth + 1)
        rw [List.countP_cons_of_pos rfl, outerFrom, if_pos rfl, byteSize_cons]
        omega
      · have hrest := ih (depth - 1)
        rw [List.countP_cons_of_pos rfl, outerFrom, if_neg (by decide), if_pos rfl, byteSize_cons]
        omega
      · have hrest := ih depth
        rw [List.countP_cons_of_neg (by simp [hc]), outerFrom_other hc, byteSize_cons]
        split_ifs
        · rw [byteSize_cons]
          omega
        · omega

theorem byteSize_outer_lt (h : '(' ∈ cs) : byteSize (outer cs) < byteSize cs := by
  have hle := byteSize_outerFrom_le 0 cs
  have hpos : 0 < cs.countP isParenthesis := List.countP_pos_iff.mpr ⟨_, h, rfl⟩
  rw [outer]
  omega

/-- Behind a balanced text there is no partner for a closing parenthesis. -/
theorem Balanced.not_exists_partners (h : Balanced a) :
    ¬∃ i, Partners (a ++ ')' :: b) i (byteSize a) := by
  rw [exists_partners_iff_close]
  rintro ⟨p, m, rfl, hm⟩
  have hprefix := h.1 p (List.prefix_append p _)
  have hcount := h.2
  have hinner := hm.2
  simp only [count_append_open] at hcount
  omega

/-- In front of it, each closing parenthesis has one. -/
theorem Balanced.byteSize_le (h : Balanced a) (hj : OccursAt ')' (a ++ ')' :: b) j)
    (hno : ¬∃ i, Partners (a ++ ')' :: b) i j) : byteSize a ≤ j := by
  obtain ⟨p, q, hs, rfl⟩ := hj
  rcases List.append_eq_append_iff.mp (hs.trans (List.append_assoc p [')'] q)) with
    ⟨r, rfl, -⟩ | ⟨r, rfl, hr⟩
  · rw [byteSize_append]
    exact Nat.le_add_right _ _
  · cases r with
    | nil => exact Nat.le_of_eq (by rw [List.append_nil])
    | cons c r =>
        obtain ⟨rfl, -⟩ := List.cons.inj hr
        have hopened := allOpened_iff.mp h.allOpened p r rfl
        rw [List.append_assoc] at hno
        exact absurd (exists_partners_iff_close.mpr hopened) hno

end

end ComparisonChain.Text

namespace ComparisonChain.Reading
open Text

section
variable {d : Dialect} {text cs r : List Char} {spans : List Span} {k : Nat}

/-- The closing parenthesis that peeling leaves first stands behind a balanced text, and what
peeling leaves of that text is its outer text. -/
theorem exists_of_peel_unmatched (hp : peel none 0 cs = .ok (spans, r))
    (hk : findFirst? ')' r = some k) :
    ∃ a b, cs = a ++ ')' :: b ∧ Balanced a ∧ k = byteSize (outer a) := by
  have hr : ')' ∈ r := by
    by_contra hno
    rw [findFirst?_eq_none hno] at hk
    cases hk
  obtain ⟨a, b, rfl, ha, huntil⟩ := exists_group_of_peel hp hr
  refine ⟨a, b, rfl, ha, ?_⟩
  obtain ⟨own, rest, rfl, hown⟩ := List.eq_append_cons_of_mem hr
  rw [untilClose_append hown] at huntil
  rw [findFirst?_append_cons hown, huntil] at hk
  exact (Option.some.inj hk).symm

/-- Without a limit an enclosed text that is not balanced is refused for a parenthesis. It is
an opening one if one has no partner, told at its place. Else it is the first closing one
without a partner, and the place told is the size of the outer text before it: always too
small, and never that of any closing parenthesis without a partner. -/
theorem read_of_unbalanced (hl : d.limit = none) (hhead : (trim text).head? = some '(')
    (hlast : (trim text).getLast? = some ')') (hb : ¬Balanced (trim text)) :
    (¬AllClosed (trim text) → ∃ k, d.read text = .error (.form (.unclosed k)) ∧
      OccursAt '(' (trim text) k ∧ ¬∃ j, Partners (trim text) k j) ∧
    (AllClosed (trim text) → ∃ a b, trim text = a ++ ')' :: b ∧ Balanced a ∧
      (¬∃ i, Partners (trim text) i (byteSize a)) ∧
      (∀ j, OccursAt ')' (trim text) j → (¬∃ i, Partners (trim text) i j) → byteSize a ≤ j) ∧
      d.read text = .error (.form (.unmatched (byteSize (outer a)))) ∧
      byteSize (outer a) < byteSize a) := by
  rw [read_of_enclosed (enclosed_of_parentheses hhead hlast), hl]
  cases hp : peel none 0 (trim text) with
  | error f =>
      obtain ⟨a, rest, hs, rfl, hno⟩ := exists_of_peel_eq_error hp
      rw [hs]
      refine ⟨fun _ => ⟨byteSize a, by rw [Nat.zero_add], ⟨a, rest, by simp, rfl⟩, ?_⟩, ?_⟩
      · rwa [exists_partners_iff_open]
      · exact fun hclosed => absurd (allClosed_iff.mp hclosed a rest rfl) hno
  | ok p =>
      obtain ⟨spans, r⟩ := p
      have hclosed := allClosed_of_peel hp
      refine ⟨fun hno => absurd hclosed hno, fun _ => ?_⟩
      cases hf : findFirst? ')' r with
      | none =>
          exact absurd (balanced_of_peel hp (notMem_of_findFirst?_eq_none hf)) hb
      | some k =>
          obtain ⟨a, b, hs, ha, rfl⟩ := exists_of_peel_unmatched hp hf
          rw [hs] at hhead ⊢
          have hopen : '(' ∈ a := by
            cases a with
            | nil => cases hhead
            | cons c a =>
                cases hhead
                exact List.mem_cons_self
          exact ⟨a, b, rfl, ha, ha.not_exists_partners, fun j => ha.byteSize_le, by simp only [hf],
            byteSize_outer_lt hopen⟩

theorem standard_read_of_unbalanced :
    Dialect.standard.limit = none ∧ (trim " ((é > 5) ".toList).head? = some '(' ∧
      (trim " ((é > 5) ".toList).getLast? = some ')' ∧ ¬Balanced (trim " ((é > 5) ".toList) ∧
      Dialect.standard.read " ((é > 5) ".toList = .error (.form (.unclosed 0)) ∧
      OccursAt '(' (trim " ((é > 5) ".toList) 0 ∧
      ¬∃ j, Partners (trim " ((é > 5) ".toList) 0 j := by
  have hhead : (trim " ((é > 5) ".toList).head? = some '(' := by decide
  have hlast : (trim " ((é > 5) ".toList).getLast? = some ')' := by decide
  have hb : ¬Balanced (trim " ((é > 5) ".toList) := fun h => absurd h.2 (by decide)
  have hread : Dialect.standard.read " ((é > 5) ".toList = .error (.form (.unclosed 0)) := by
    rw [read_of_enclosed (enclosed_of_parentheses hhead hlast)]
    decide
  obtain ⟨hunclosed, hunmatched⟩ :=
    read_of_unbalanced (d := .standard) rfl hhead hlast hb
  have hclosed : ¬AllClosed (trim " ((é > 5) ".toList) := by
    intro hall
    obtain ⟨a, b, -, -, -, -, herror, -⟩ := hunmatched hall
    rw [hread] at herror
    cases herror
  obtain ⟨k, herror, hoccurs, hno⟩ := hunclosed hclosed
  rw [hread] at herror
  cases herror
  exact ⟨rfl, hhead, hlast, hb, hread, hoccurs, hno⟩

/-- The closing parenthesis without a partner stands at byte 7, and byte 0 is told, where an
opening one stands. -/
theorem standard_read_unmatched :
    Dialect.standard.limit = none ∧ (trim "(x > 5))".toList).head? = some '(' ∧
      (trim "(x > 5))".toList).getLast? = some ')' ∧ ¬Balanced (trim "(x > 5))".toList) ∧
      Dialect.standard.read "(x > 5))".toList = .error (.form (.unmatched 0)) ∧
      ¬∃ k, (Dialect.standard.read "(x > 5))".toList = .error (.form (.unclosed k)) ∧
          OccursAt '(' (trim "(x > 5))".toList) k ∧
          ¬∃ j, Partners (trim "(x > 5))".toList) k j) ∨
        (Dialect.standard.read "(x > 5))".toList = .error (.form (.unmatched k)) ∧
          OccursAt ')' (trim "(x > 5))".toList) k ∧
          ¬∃ i, Partners (trim "(x > 5))".toList) i k) := by
  have hhead : (trim "(x > 5))".toList).head? = some '(' := by decide
  have hlast : (trim "(x > 5))".toList).getLast? = some ')' := by decide
  have hb : ¬Balanced (trim "(x > 5))".toList) := fun h => absurd h.2 (by decide)
  have hread : Dialect.standard.read "(x > 5))".toList = .error (.form (.unmatched 0)) := by
    rw [read_of_enclosed (enclosed_of_parentheses hhead hlast)]
    decide
  have hplace : ¬OccursAt ')' (trim "(x > 5))".toList) 0 := by
    rintro ⟨p, q, hs, hp⟩
    obtain rfl := byteSize_eq_zero.mp hp.symm
    have hfirst : (trim "(x > 5))".toList).head? = some ')' := by
      rw [hs]
      rfl
    exact absurd hfirst (by decide)
  refine ⟨rfl, hhead, hlast, hb, hread, ?_⟩
  rintro ⟨k, ⟨herror, -⟩ | ⟨herror, hoccurs, -⟩⟩
  · rw [hread] at herror
    cases herror
  · rw [hread] at herror
    cases herror
    exact hplace hoccurs

end

end ComparisonChain.Reading
