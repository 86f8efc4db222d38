import ComparisonChain.Proofs.Bounds
import ComparisonChain.Proofs.TokenRuns
import Mathlib.Data.List.Chain

/-!
# The operators that are told

An operator that nobody knows is told by its text. For a comparison this is
always a part of the source. A connective is cut from the outer text, where the
text closes up behind each group, so its characters stand in the source in this
order but with groups between them where no blank keeps two gaps apart: `XO` and
`R` around a group are told as `XOR`.
-/
namespace ComparisonChain.Text

/-- Where groups stand between two outer characters, one of these is a blank. -/
def Detached (cs : List Char) : Prop :=
  ∀ a x m y b, cs = a ++ x :: (m ++ y :: b) → Balanced a → isParenthesis x = false →
    Balanced m → outer m = [] → isParenthesis y = false →
    m = [] ∨ isBlank x = true ∨ isBlank y = true

section
variable {cs a b m r p q w : List Char} {c x : Char} {d : Nat}

/-! ## Balanced texts -/

theorem Closes.append (ha : Closes d a) (hb : Closes 0 b) : Closes d (a ++ b) := by
  induction ha with
  | nil => exact hb
  | opening _ ih => exact .opening ih
  | closing _ ih => exact .closing ih
  | other hc _ ih => exact .other hc ih

theorem Balanced.append (ha : Balanced a) (hb : Balanced b) : Balanced (a ++ b) := by
  rw [balanced_iff_closes] at ha hb ⊢
  exact ha.append hb

theorem balanced_singleton (hx : isParenthesis x = false) : Balanced [x] :=
  balanced_iff_closes.mpr (.other hx .nil)

/-- Wherever the outer text of a text is cut, the text itself can be cut. -/
theorem Closes.exists_append (h : Closes d cs) (ho : outerFrom d cs = p ++ q) :
    ∃ a b, cs = a ++ b ∧ Closes d a ∧ Closes 0 b ∧ outerFrom d a = p ∧ outer b = q := by
  induction h generalizing p with
  | nil =>
      obtain ⟨rfl, rfl⟩ := List.nil_eq_append_iff.mp ho
      exact ⟨[], [], rfl, .nil, .nil, rfl, rfl⟩
  | opening _ ih =>
      obtain ⟨a, b, rfl, ha, hb, hp, hq⟩ := ih ho
      exact ⟨'(' :: a, b, rfl, .opening ha, hb, hp, hq⟩
  | closing _ ih =>
      obtain ⟨a, b, rfl, ha, hb, hp, hq⟩ := ih ho
      exact ⟨')' :: a, b, rfl, .closing ha, hb, hp, hq⟩
  | @other d c cs hc hcs ih =>
      rw [outerFrom_other hc] at ho
      cases d with
      | succ d =>
          obtain ⟨a, b, rfl, ha, hb, hp, hq⟩ := ih ho
          exact ⟨c :: a, b, rfl, .other hc ha, hb, by rw [outerFrom_other hc]; exact hp, hq⟩
      | zero =>
          rw [if_pos rfl] at ho
          cases p with
          | nil =>
              refine ⟨[], c :: cs, rfl, .nil, .other hc hcs, rfl, ?_⟩
              rw [outer, outerFrom_other hc, if_pos rfl]
              exact ho
          | cons y p =>
              obtain ⟨rfl, htail⟩ := List.cons.inj ho
              obtain ⟨a, b, rfl, ha, hb, hp, hq⟩ := ih htail
              refine ⟨c :: a, b, rfl, .other hc ha, hb, ?_, hq⟩
              rw [outerFrom_other hc, if_pos rfl, hp]

theorem Balanced.exists_append (h : Balanced cs) (ho : outer cs = p ++ q) :
    ∃ a b, cs = a ++ b ∧ Balanced a ∧ Balanced b ∧ outer a = p ∧ outer b = q := by
  simp only [balanced_iff_closes] at h ⊢
  exact h.exists_append ho

/-- Before the first outer character stand only groups. -/
theorem Closes.exists_first (h : Closes d cs) (ho : outerFrom d cs = x :: q) :
    ∃ a b, cs = a ++ x :: b ∧ Closes d a ∧ Closes 0 b ∧ outerFrom d a = [] ∧
      isParenthesis x = false ∧ outer b = q := by
  induction h with
  | nil => cases ho
  | opening _ ih =>
      obtain ⟨a, b, rfl, ha, hb, hnil, hx, hq⟩ := ih ho
      exact ⟨'(' :: a, b, rfl, .opening ha, hb, hnil, hx, hq⟩
  | closing _ ih =>
      obtain ⟨a, b, rfl, ha, hb, hnil, hx, hq⟩ := ih ho
      exact ⟨')' :: a, b, rfl, .closing ha, hb, hnil, hx, hq⟩
  | @other d c cs hc hcs ih =>
      rw [outerFrom_other hc] at ho
      cases d with
      | succ d =>
          obtain ⟨a, b, rfl, ha, hb, hnil, hx, hq⟩ := ih ho
          refine ⟨c :: a, b, rfl, .other hc ha, hb, ?_, hx, hq⟩
          rw [outerFrom_other hc]
          exact hnil
      | zero =>
          obtain ⟨rfl, hq⟩ := List.cons.inj ho
          exact ⟨[], cs, rfl, .nil, hcs, rfl, hc, hq⟩

theorem Balanced.exists_first (h : Balanced cs) (ho : outer cs = x :: q) :
    ∃ a b, cs = a ++ x :: b ∧ Balanced a ∧ Balanced b ∧ outer a = [] ∧
      isParenthesis x = false ∧ outer b = q := by
  simp only [balanced_iff_closes] at h ⊢
  exact h.exists_first ho

/-- What is nothing but groups starts with a parenthesis that opens. -/
theorem Balanced.eq_cons_of_outer_eq_nil (h : Balanced m) (ho : outer m = []) (hne : m ≠ []) :
    ∃ r, m = '(' :: r := by
  obtain ⟨c, r, rfl⟩ := List.exists_cons_of_ne_nil hne
  rcases parenthesis_cases c with rfl | rfl | hc
  · exact ⟨r, rfl⟩
  · exact absurd (h.1 [')'] ⟨r, rfl⟩) (by decide)
  · rw [outer, outerFrom_other hc, if_pos rfl] at ho
    cases ho

/-! ## Words of the outer text -/

/-- Blanks in front of all groups keep the gaps apart. -/
theorem detached_of_isChain
    (h : cs.IsChain fun x y => y = '(' → isParenthesis x = true ∨ isBlank x = true) :
    Detached cs := by
  intro a x m y b hcs _ hx hm ho _
  by_cases hne : m = []
  · exact .inl hne
  · obtain ⟨r, rfl⟩ := hm.eq_cons_of_outer_eq_nil ho hne
    have hbefore := List.isChain_iff_forall_rel_of_append_cons_cons.mp h hcs rfl
    rw [hx] at hbefore
    exact .inr (.inl (hbefore.resolve_left nofun))

/-- Behind an outer character the text goes on as the outer text does, up to a blank. -/
theorem Detached.isPrefix_of_cons (h : Detached cs) (hcs : cs = a ++ x :: (r ++ b))
    (ha : Balanced a) (hx : isParenthesis x = false) (hr : Balanced r) (ho : outer r = w)
    (hw : ∀ c ∈ x :: w, isBlank c = false) : w <+: r := by
  induction w generalizing a x r with
  | nil => exact List.nil_prefix
  | cons y w ih =>
      rw [List.forall_mem_cons] at hw
      obtain ⟨m, t, rfl, hm, ht, hnil, hy, hrest⟩ := hr.exists_first ho
      rw [List.append_assoc, List.cons_append] at hcs
      -- neither `x` nor `y` is a blank, so no group can be between them
      obtain rfl : m = [] := by
        rcases h a x m y _ hcs ha hx hm hnil hy with hm | hblank | hblank
        · exact hm
        · cases hw.1.symm.trans hblank
        · cases (hw.2 y List.mem_cons_self).symm.trans hblank
      rw [List.nil_append, List.append_cons] at hcs
      exact List.cons_prefix_cons.mpr
        ⟨rfl, ih hcs (ha.append (balanced_singleton hx)) hy ht hrest hw.2⟩

theorem Detached.isInfix_of_outer (h : Detached cs) (hcs : cs = a ++ (m ++ b)) (ha : Balanced a)
    (hm : Balanced m) (ho : outer m = w) (hw : ∀ c ∈ w, isBlank c = false) : w <:+: m := by
  cases w with
  | nil => exact List.nil_infix
  | cons x w =>
      obtain ⟨g, r, rfl, hg, hr, -, hx, ho⟩ := hm.exists_first ho
      rw [List.append_assoc, List.cons_append, ← List.append_assoc] at hcs
      have hprefix := h.isPrefix_of_cons hcs (ha.append hg) hx hr ho hw
      exact (List.cons_prefix_cons.mpr ⟨rfl, hprefix⟩).isInfix.trans
        (List.suffix_append g (x :: r)).isInfix

theorem trim_isInfix (cs : List Char) : trim cs <:+: cs := by
  obtain ⟨u, v, hcs, -, -⟩ := exists_trim cs
  exact ⟨u, v, by rw [List.append_assoc, ← hcs]⟩

end

end ComparisonChain.Text

namespace ComparisonChain.Reading
open Text

section
variable {d : Dialect} {text run token : List Char} {kind : OperatorKind}

/-! ## The passes -/

/-- The word that a run is refused for has two characters, no blank, and starts with no token. -/
theorem unrecognized_of_connectives (hd : ∀ e ∈ d.entries, e.1 ≠ [])
    (h : Flat.connectives d run = .error (.unrecognized kind token)) :
    kind = .connective ∧ (∃ before behind, run = before ++ (token ++ behind)) ∧
      2 ≤ token.length ∧ (∀ c ∈ token, isBlank c = false) ∧
      ∀ e ∈ d.entries, ¬e.1 <+: token := by
  obtain ⟨before, left, rfl, hne, hb, hno, he⟩ := exists_of_connectives_eq_error h
  obtain ⟨word, behind, rfl, hword, hblank, -, hfault⟩ := exists_firstWord hne hb
  rw [hfault] at he
  split_ifs at he with hlength
  cases he
  have hpos := List.length_pos_iff.mpr hword
  rw [headToken?_eq_longestToken? hd, longestToken?_eq_none_iff] at hno
  refine ⟨rfl, ⟨before, behind, rfl⟩, by omega, hblank, fun e he hp => ?_⟩
  exact hno e he (hp.trans (List.prefix_append token behind))

theorem unrecognized_of_readComparison
    (h : Comparison.read text = .error (.unrecognized kind token)) :
    kind = .comparison ∧ token = text ∧ ∀ c : Comparison, c.token ≠ token := by
  unfold Comparison.read at h
  split at h
  · cases h
  · next hno =>
      cases h
      refine ⟨rfl, rfl, fun c hc => ?_⟩
      rw [Comparison.ofToken?_eq_some_iff.mpr hc.symm] at hno
      cases hno

/-- The comparison is cut from its group, and the group from the source. -/
theorem unrecognized_of_readGroups {source : Buffer} {ss : List Span}
    (h : (readGroups source ss).outcome = .error (.unrecognized kind token)) :
    kind = .comparison ∧ token <:+: source.chars ∧ ∀ c : Comparison, c.token ≠ token := by
  obtain hspan | ⟨s, -, contents, hs, ht⟩ := exists_of_readGroups_eq_error h
  · cases hspan
  · obtain ⟨f, hform, -⟩ | ⟨x, b, hfields, hc⟩ := testOf_eq_error_cases ht
    · cases hform
    · obtain ⟨rfl, rfl, hnone⟩ := unrecognized_of_readComparison hc
      obtain ⟨a, m, hgroup, -, -, rfl⟩ := fields_eq_ok_iff.mp hfields
      obtain ⟨p, q, hsource, -, -⟩ := Buffer.slice?_eq_some_iff.mp hs
      have hinner : m <:+: trim contents := ⟨a ++ [' '], ' ' :: b, by rw [hgroup]; simp⟩
      have houter : contents <:+: source.chars := ⟨p, q, hsource.symm⟩
      refine ⟨rfl, ?_, hnone⟩
      exact (trim_isInfix m).trans (hinner.trans ((trim_isInfix contents).trans houter))

/-! ## The outcome -/

/-- An unknown comparison stands in the text, and is none of the six. An unknown connective has
two characters, no blank, and starts with no token. It is the outer text of a part of the
source, and so it stands in the text itself if the gaps are kept apart. -/
theorem unrecognized_occurs (hd : ∀ e ∈ d.entries, e.1 ≠ [])
    (h : d.read text = .error (.unrecognized kind token)) :
    (kind = .comparison → token <:+: text ∧ ∀ c : Comparison, c.token ≠ token) ∧
    (kind = .connective →
      2 ≤ token.length ∧ (∀ c ∈ token, isBlank c = false) ∧
      (∀ e ∈ d.entries, ¬e.1 <+: token) ∧
      (∃ a m b, trim text = a ++ (m ++ b) ∧ Balanced a ∧ Balanced m ∧ Balanced b ∧
        outer m = token) ∧
      (Detached (trim text) → token <:+: text)) := by
  rcases read_eq_error_cases h with ⟨f, -, hf⟩ | ⟨f, -, hf⟩ | ⟨spans, r, hp, hfault⟩
  · cases hf
  · cases hf
  rcases hfault with ⟨k, hk⟩ | ⟨hr, hls | ⟨groups, connectors, hcount⟩ | hts⟩
  · cases hk
  · obtain ⟨rfl, ⟨before, behind, rfl⟩, hlength, hblank, hno⟩ :=
      unrecognized_of_connectives hd hls
    have hbalanced := balanced_of_peel hp hr
    have houter := (peel_of_balanced hbalanced hp).symm
    obtain ⟨a, t, hsplit, ha, ht, -, hrest⟩ := hbalanced.exists_append houter
    obtain ⟨m, b, rfl, hm, hb, htoken, -⟩ := ht.exists_append hrest
    refine ⟨nofun, fun _ => ⟨hlength, hblank, hno, ⟨a, m, b, hsplit, ha, hm, hb, htoken⟩, ?_⟩⟩
    intro hdetached
    have hinner : m <:+: trim text := ⟨a, b, by rw [hsplit, List.append_assoc]⟩
    exact (hdetached.isInfix_of_outer hsplit ha hm htoken hblank).trans
      (hinner.trans (trim_isInfix text))
  · cases hcount
  · obtain ⟨rfl, hpart, hnone⟩ := unrecognized_of_readGroups hts
    exact ⟨fun _ => ⟨hpart.trans (trim_isInfix text), hnone⟩, nofun⟩

theorem standard_unrecognized_occurs :
    (∀ e ∈ Dialect.standard.entries, e.1 ≠ []) ∧
    Dialect.standard.read " (é > 1) AND ((b ? 2)) XOR (c > 3) ".toList =
      .error (.unrecognized .connective "XOR".toList) ∧
    2 ≤ "XOR".toList.length ∧ (∀ c ∈ "XOR".toList, isBlank c = false) ∧
    (∀ e ∈ Dialect.standard.entries, ¬e.1 <+: "XOR".toList) ∧
    (∃ a m b, trim " (é > 1) AND ((b ? 2)) XOR (c > 3) ".toList = a ++ (m ++ b) ∧
      Balanced a ∧ Balanced m ∧ Balanced b ∧ outer m = "XOR".toList) ∧
    Detached (trim " (é > 1) AND ((b ? 2)) XOR (c > 3) ".toList) ∧
    "XOR".toList <:+: " (é > 1) AND ((b ? 2)) XOR (c > 3) ".toList := by
  have hd : ∀ e ∈ Dialect.standard.entries, e.1 ≠ [] := by decide
  have hread : Dialect.standard.read " (é > 1) AND ((b ? 2)) XOR (c > 3) ".toList =
      .error (.unrecognized .connective "XOR".toList) := by decide +kernel
  have hdetached : Detached (trim " (é > 1) AND ((b ? 2)) XOR (c > 3) ".toList) :=
    detached_of_isChain (by decide +kernel)
  obtain ⟨hlength, hblank, hno, hpiece, hpart⟩ := (unrecognized_occurs hd hread).2 rfl
  exact ⟨hd, hread, hlength, hblank, hno, hpiece, hdetached, hpart hdetached⟩

/-- `XO` and `R` stand on two sides of a group, and `XOR` is told. -/
theorem standard_unrecognized_not_occurs :
    (∀ e ∈ Dialect.standard.entries, e.1 ≠ []) ∧
    Dialect.standard.read "(a > 1)XO(b > 2)R(c > 3)".toList =
      .error (.unrecognized .connective "XOR".toList) ∧
    ¬"XOR".toList <:+: "(a > 1)XO(b > 2)R(c > 3)".toList := by
  have hread : Dialect.standard.read "(a > 1)XO(b > 2)R(c > 3)".toList =
      .error (.unrecognized .connective "XOR".toList) := by decide +kernel
  exact ⟨by decide, hread, by decide +kernel⟩

end

end ComparisonChain.Reading
