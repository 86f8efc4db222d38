import ComparisonChain.Proofs.Renderings
import ComparisonChain.Proofs.Separation
import Mathlib.Data.List.Forall2

/-!
# The canonical text of a chain

The canonical text is one of the ways to write a chain in the standard dialect.
Another dialect may know the canonical names, or not, or take them for other
connectives. Since each name stands among spaces, and no token is shorter than
two characters or goes on into a space, the names are read one by one: the text
is read back just if each name that occurs in it is a token with its own meaning.
-/
namespace ComparisonChain
open Text Reading

section
variable {d : Dialect} {gaps : List (List Char)} {ls : List Connective} {l : Connective}

theorem Dialect.connective?_eq_some_iff {token : List Char} :
    d.connective? token = some l ↔ (token, l) ∈ d.entries := by
  unfold connective?
  rw [List.lookup_eq_some_iff]
  constructor
  · intro h
    obtain ⟨as, bs, hentries, -⟩ := h
    rw [hentries]
    exact List.mem_append_right _ List.mem_cons_self
  · intro h
    obtain ⟨as, bs, hentries⟩ := List.append_of_mem h
    refine ⟨as, bs, hentries, fun p hp => ?_⟩
    have hnodup := d.nodup
    rw [hentries, List.map_append, List.nodup_append] at hnodup
    have hne := hnodup.2.2 p.1 (List.mem_map_of_mem hp) token (by simp)
    simpa using Ne.symm hne

/-! ## Canonical renderings -/

def Connective.joint (l : Connective) : Joint .standard where
  before := .space
  token := l.name
  connective := l
  after := .space
  known := by cases l <;> decide

/-- The text around a canonical name. -/
def Connective.gap (l : Connective) : List Char := [' '] ++ l.name ++ [' ']

def Chain.rendering (c : Chain) : Rendering .standard :=
  ⟨.ofTest c.first, c.links.map fun k => (k.connective.joint, .ofTest k.test)⟩

theorem text_rendering (c : Chain) : c.rendering.text = c.text := by
  have hlink : ∀ k : Link, k.connective.joint.text ++ (Group.ofTest k.test).text = k.text := by
    intro k
    rw [Group.text_ofTest]
    simp [Joint.text, Connective.joint, Link.text, Blanks.space]
  unfold Rendering.text Chain.rendering Chain.text
  rw [List.flatMap_map, Group.text_ofTest]
  simp only [hlink]

theorem chain_rendering (c : Chain) : c.rendering.chain = c := by
  simp [Rendering.chain, Chain.rendering, Connective.joint, Group.test_ofTest, Function.comp_def]

theorem run_rendering (c : Chain) :
    c.rendering.run = (c.connectives.map Connective.gap).flatten := by
  simp [Rendering.run, Rendering.joints, Chain.rendering, Chain.connectives, List.flatMap_def,
    Connective.joint, Joint.text, Connective.gap, Blanks.space, Function.comp_def]

theorem trim_gap (l : Connective) : trim l.gap = l.name := by cases l <;> decide

/-! ## Runs of canonical names -/

/-- Gaps that end in a blank are read one by one. -/
theorem connectives_flatten_iff (hd : d.check = .ok ())
    (hg : ∀ w ∈ gaps, ∃ v c, w = v ++ [c] ∧ isBlank c = true) :
    Flat.connectives d gaps.flatten = .ok ls ↔ ReadApart d gaps ls := by
  induction gaps generalizing ls with
  | nil =>
      have hnil : Flat.connectives d [] = .ok [] := Flat.connectives_of_blank rfl
      simp [ReadApart, hnil]
  | cons w gaps ih =>
      rw [List.forall_mem_cons] at hg
      obtain ⟨⟨v, c, rfl, hc⟩, hg⟩ := hg
      have hfirst : Flat.connectives d (v ++ [c]) = Flat.connectives d v := by
        have hnil : Flat.connectives d [] = .ok [] := Flat.connectives_of_blank rfl
        rw [Flat.connectives_append_blank hd hc, hnil]
        cases Flat.connectives d v <;> simp [Except.bind, Except.map]
      have hsplit : ((v ++ [c]) :: gaps).flatten = v ++ c :: gaps.flatten := by simp
      rw [hsplit, Flat.connectives_append_blank_eq_ok_iff hd hc, readApart_cons_iff, hfirst]
      simp only [ih hg]

/-- Each name gives one connective at least, and there are no more connectives than
names. -/
theorem connectives_gaps_iff (hd : d.check = .ok ()) :
    Flat.connectives d (ls.map Connective.gap).flatten = .ok ls ↔
      ∀ l ∈ ls, d.connective? l.name = some l := by
  have hends : ∀ w ∈ ls.map Connective.gap, ∃ v c, w = v ++ [c] ∧ isBlank c = true := by
    intro w hw
    obtain ⟨l, -, rfl⟩ := List.mem_map.mp hw
    exact ⟨[' '] ++ l.name, ' ', rfl, by decide⟩
  have hnames : ∀ w ∈ ls.map Connective.gap, ¬AllBlank w := by
    intro w hw hblank
    obtain ⟨l, -, rfl⟩ := List.mem_map.mp hw
    cases l
    · cases hblank 'A' (by decide)
    · cases hblank 'O' (by decide)
  have happart : ReadApart d (ls.map Connective.gap) ls ↔ Separated d (ls.map Connective.gap) ls :=
    ⟨fun h => separated_of_readApart hd hnames h (by simp), fun h => h.readApart hd⟩
  rw [connectives_flatten_iff hd hends, happart]
  unfold Separated
  rw [List.forall₂_map_left_iff, List.forall₂_same]
  simp only [trim_gap, Dialect.connective?_eq_some_iff]

/-! ## Reading -/

theorem read_rendering_iff (hd : d.check = .ok ()) (c : Chain) :
    d.read c.text = .ok c ↔ (∀ m ∈ d.limit, c.size ≤ m) ∧
      ∀ l ∈ c.connectives, d.connective? l.name = some l := by
  have hstandard := Dialect.standard_check
  have htrim : trim c.text = c.rendering.text := by
    have hpadded := c.rendering.trim_text .none .none
    rw [text_rendering] at hpadded ⊢
    simpa [Blanks.none] using hpadded
  rw [c.rendering.read_eq_ok_iff hstandard htrim, chain_rendering, run_rendering,
    connectives_gaps_iff hd]
  simp

/-- The canonical text is read back exactly where the dialect's limit admits it and
each canonical name in it is a token for its own connective, hence in the standard
dialect always. -/
theorem read_canonical_iff (hd : d.check = .ok ()) (c : Chain) :
    (d.read c.text = .ok c ↔ (∀ m ∈ d.limit, c.size ≤ m) ∧
      ∀ l ∈ c.connectives, d.connective? l.name = some l) ∧
    Chain.ofText c.text = .ok c := by
  refine ⟨read_rendering_iff hd c, (read_rendering_iff Dialect.standard_check c).mpr ⟨?_, ?_⟩⟩
  · simp [Dialect.standard]
  · intro l _
    cases l <;> decide

/-- A dialect of up to two groups that knows one of the canonical names. -/
def halfCanonical : Dialect where
  entries := [("AND".toList, .and), ("OU".toList, .or)]
  limit := some 2
  nodup := by decide

theorem halfCanonical_read : halfCanonical.check = .ok () ∧
    halfCanonical.read "(n >= -9223372036854775808) AND (n != 0)".toList =
      .ok ⟨⟨.greaterEqual, Int64.minValue⟩, [⟨.and, ⟨.notEqual, 0⟩⟩]⟩ ∧
    halfCanonical.read "(n < 1) OR (n > 5)".toList ≠ .ok ⟨⟨.less, 1⟩, [⟨.or, ⟨.greater, 5⟩⟩]⟩ := by
  have hd : halfCanonical.check = .ok () := by decide
  refine ⟨hd, (read_canonical_iff hd ⟨⟨.greaterEqual, Int64.minValue⟩,
    [⟨.and, ⟨.notEqual, 0⟩⟩]⟩).1.mpr (by decide), fun h => ?_⟩
  have hnames := ((read_canonical_iff hd ⟨⟨.less, 1⟩, [⟨.or, ⟨.greater, 5⟩⟩]⟩).1.mp h).2
  revert hnames
  decide

end

end ComparisonChain
