import ComparisonChain.Proofs.Flat

/-!
# Connectors between groups

A flat text is meant to have one connector between any two neighbouring groups.
The reader only counts: it joins all gaps into one run and asks for one
connector fewer than groups. A gap without a connector and one with two, or a
token spelled across a group, pass the count. `connectives_separated_iff` says
when an accepted text has its connectors in place.
-/
namespace ComparisonChain.Reading
open Text

/-- Each gap, trimmed, is a token, and the connectives are the tokens' in order. -/
def Separated (d : Dialect) (gaps : List (List Char)) (ls : List Connective) : Prop :=
  List.Forall₂ (fun w l => (trim w, l) ∈ d.entries) gaps ls

/-- The gaps, read one by one, give the connectives together. -/
def ReadApart (d : Dialect) (gaps : List (List Char)) (ls : List Connective) : Prop :=
  ∃ lss, List.Forall₂ (fun w l => Flat.connectives d w = .ok l) gaps lss ∧ lss.flatten = ls

section
variable {d : Dialect} {w : List Char} {l : Connective} {ls : List Connective}
variable {gaps : List (List Char)}

/-! ## One gap -/

/-- A gap is one token between blanks just when it reads as one connective. -/
theorem connectives_eq_singleton_iff (hd : d.check = .ok ()) :
    Flat.connectives d w = .ok [l] ↔ (trim w, l) ∈ d.entries := by
  constructor
  · intro h
    obtain ⟨u, e, r, rfl, hu, rfl, he, -, hr⟩ := Flat.exists_of_connectives_cons h
    have htoken := (Dialect.token_of_check hd he.1).2
    rw [trim_between hu (fun c hc => (htoken c hc).1) (Flat.connectives_eq_nil_iff.mp hr)]
    exact he.1
  · intro he
    obtain ⟨u, v, hw, hu, hv⟩ := exists_trim w
    have htoken := Dialect.token_of_check hd he
    have hne : trim w ≠ [] := fun hn => by simp [hn] at htoken
    rw [hw, Flat.connectives_append (e := (trim w, l)) hu hne (fun c hc => (htoken.2 c hc).1)
      (isLongest_of_boundary hd he fun c hc => hv c (List.mem_of_mem_head? hc)),
      Flat.connectives_eq_nil_iff.mpr hv]
    rfl

theorem length_pos_of_not_blank (hb : ¬AllBlank w) (h : Flat.connectives d w = .ok ls) :
    0 < ls.length := by
  apply List.length_pos_iff.mpr
  intro hnil
  rw [hnil] at h
  exact hb (Flat.connectives_eq_nil_iff.mp h)

/-! ## All gaps -/

theorem readApart_cons_iff : ReadApart d (w :: gaps) ls ↔
    ∃ as bs, Flat.connectives d w = .ok as ∧ ReadApart d gaps bs ∧ as ++ bs = ls := by
  constructor
  · intro h
    obtain ⟨lss, hlss, rfl⟩ := h
    cases hlss with
    | cons hw hlss => exact ⟨_, _, hw, ⟨_, hlss, rfl⟩, rfl⟩
  · intro h
    obtain ⟨as, _, hw, ⟨lss, hlss, rfl⟩, rfl⟩ := h
    exact ⟨as :: lss, .cons hw hlss, rfl⟩

theorem Separated.readApart (hd : d.check = .ok ()) (h : Separated d gaps ls) :
    ReadApart d gaps ls := by
  induction h with
  | nil => exact ⟨[], .nil, rfl⟩
  | cons hw _ ih =>
      obtain ⟨lss, hlss, rfl⟩ := ih
      exact ⟨_, .cons ((connectives_eq_singleton_iff hd).mpr hw) hlss, rfl⟩

theorem Separated.not_blank (hd : d.check = .ok ()) (h : Separated d gaps ls) :
    ∀ w ∈ gaps, ¬AllBlank w := by
  induction h with
  | nil => simp
  | @cons w l _ _ hw _ ih =>
      refine List.forall_mem_cons.mpr ⟨fun hb => ?_, ih⟩
      have hnil : Flat.connectives d w = .ok [] := Flat.connectives_eq_nil_iff.mpr hb
      rw [(connectives_eq_singleton_iff hd).mpr hw] at hnil
      cases hnil

/-- No gap reads as nothing, so each counts for one connective at least. -/
theorem length_le_of_not_blank {lss : List (List Connective)} (hb : ∀ w ∈ gaps, ¬AllBlank w)
    (h : List.Forall₂ (fun w l => Flat.connectives d w = .ok l) gaps lss) :
    gaps.length ≤ lss.flatten.length := by
  induction h with
  | nil => simp
  | @cons w l gaps lss hw _ ih =>
      have hpos := length_pos_of_not_blank (hb w List.mem_cons_self) hw
      have hrest := ih fun v hv => hb v (List.mem_cons_of_mem _ hv)
      simp only [List.flatten_cons, List.length_append, List.length_cons]
      omega

/-- Gaps with as many connectives as there are gaps, and at least one in each,
have just one in each. -/
theorem separated_of_readApart (hd : d.check = .ok ()) (hb : ∀ w ∈ gaps, ¬AllBlank w)
    (h : ReadApart d gaps ls) (hl : ls.length = gaps.length) : Separated d gaps ls := by
  obtain ⟨lss, hlss, rfl⟩ := h
  induction hlss with
  | nil => exact .nil
  | @cons w l gaps lss hw hlss ih =>
      have hrest : ∀ v ∈ gaps, ¬AllBlank v := fun v hv => hb v (List.mem_cons_of_mem _ hv)
      have hle := length_le_of_not_blank hrest hlss
      have hpos := length_pos_of_not_blank (hb w List.mem_cons_self) hw
      simp only [List.flatten_cons, List.length_append, List.length_cons] at hl
      obtain ⟨x, rfl⟩ := List.length_eq_one_iff.mp (show l.length = 1 by omega)
      refine .cons ((connectives_eq_singleton_iff hd).mp hw) (ih hrest ?_)
      simp only [List.length_singleton] at hl
      omega

/-! ## Accepted texts -/

/-- On an accepted flat text the gaps, taken as one run, read as the chain's
connectives. These stand between the groups, one in each gap, exactly when no
gap is blank and the gaps read one by one as they read in one run. -/
theorem connectives_separated_iff {text : List Char} {c : Chain} (hd : d.check = .ok ())
    (hs : Flat.Alternating ((trim text).filter isParenthesis)) (h : d.read text = .ok c) :
    Flat.connectives d (Flat.pieces (trim text)).gaps.flatten = .ok c.connectives ∧
    (Separated d (Flat.pieces (trim text)).gaps.dropLast c.connectives ↔
      (∀ w ∈ (Flat.pieces (trim text)).gaps.dropLast, ¬AllBlank w) ∧
      ReadApart d (Flat.pieces (trim text)).gaps.dropLast c.connectives) := by
  have he := enclosed_of_read h
  obtain ⟨_, hh, hl⟩ := enclosed_eq_ok_iff.mp he
  obtain ⟨bs, hbs, hplain⟩ := exists_blocks_of_isFlat ⟨hh, hl, hs⟩
  obtain ⟨hls, hts⟩ := columns_of_read_blocks hplain hbs h
  have hlength := length_of_tests hts
  have hsize := c.length_connectives
  rw [hbs, pieces_blocks hplain]
  refine ⟨hls, fun hsep => ⟨hsep.not_blank hd, hsep.readApart hd⟩, fun hread => ?_⟩
  apply separated_of_readApart hd hread.1 hread.2
  rw [List.length_map, ← Chain.size] at hlength
  rw [List.length_dropLast, List.length_map]
  omega

theorem standard_connectives_separated :
    Separated Dialect.standard
      (Flat.pieces (trim "(a > 1) AND (b > 2) or (c > 3)".toList)).gaps.dropLast [.and, .or] := by
  have hs : Flat.Alternating
      ((trim "(a > 1) AND (b > 2) or (c > 3)".toList).filter isParenthesis) := by
    have hp : (trim "(a > 1) AND (b > 2) or (c > 3)".toList).filter isParenthesis =
        ['(', ')', '(', ')', '(', ')'] := by decide
    rw [hp]
    exact .pair (.pair (.pair .nil))
  have hr : Dialect.standard.read "(a > 1) AND (b > 2) or (c > 3)".toList =
      .ok ⟨⟨.greater, 1⟩, [⟨.and, ⟨.greater, 2⟩⟩, ⟨.or, ⟨.greater, 3⟩⟩]⟩ := by decide +kernel
  have hc := Dialect.standard_check
  have hgaps : (Flat.pieces (trim "(a > 1) AND (b > 2) or (c > 3)".toList)).gaps.dropLast =
      [" AND ".toList, " or ".toList] := by decide +kernel
  refine (connectives_separated_iff hc hs hr).2.mpr ?_
  rw [hgaps]
  refine ⟨?_, [[.and], [.or]], .cons ?_ (.cons ?_ .nil), rfl⟩
  · have hand : ¬AllBlank " AND ".toList := fun h => by cases h 'A' (by decide)
    have hor : ¬AllBlank " or ".toList := fun h => by cases h 'o' (by decide)
    simpa using ⟨hand, hor⟩
  · decide +kernel
  · decide +kernel

/-- A gap without a connector is made up for by one with two. -/
theorem standard_connectives_not_separated :
    Dialect.standard.check = .ok () ∧
      Flat.Alternating ((trim "(a > 1)(b > 2) AND OR (c > 3)".toList).filter isParenthesis) ∧
      Dialect.standard.read "(a > 1)(b > 2) AND OR (c > 3)".toList =
        .ok ⟨⟨.greater, 1⟩, [⟨.and, ⟨.greater, 2⟩⟩, ⟨.or, ⟨.greater, 3⟩⟩]⟩ ∧
      ¬Separated Dialect.standard
        (Flat.pieces (trim "(a > 1)(b > 2) AND OR (c > 3)".toList)).gaps.dropLast [.and, .or] := by
  have hc := Dialect.standard_check
  have hp : (trim "(a > 1)(b > 2) AND OR (c > 3)".toList).filter isParenthesis =
      ['(', ')', '(', ')', '(', ')'] := by decide
  have hgap : [] ∈ (Flat.pieces (trim "(a > 1)(b > 2) AND OR (c > 3)".toList)).gaps.dropLast := by
    decide +kernel
  refine ⟨hc, hp ▸ .pair (.pair (.pair .nil)), by decide +kernel, fun h => ?_⟩
  exact h.not_blank hc [] hgap (by simp [AllBlank])

end

end ComparisonChain.Reading
