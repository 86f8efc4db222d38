import ComparisonChain.Proofs.Contents
import ComparisonChain.Proofs.Numerals

/-!
# Groups as they are written

A group is written with a name, a space, the comparison among blanks, a space
and a numeral, with blanks around, and reads as its test. The name ends at the
first space, since it holds none, and the numeral starts after the last one,
since it holds no blank; trimming takes the blanks outside of the two and no
more.
-/
namespace ComparisonChain.Reading
open Text

theorem not_blank_of_comparison (c : Comparison) :
    ∀ x ∈ c.token, isBlank x = false ∧ isParenthesis x = false := by
  cases c <;> simp [Comparison.token, isBlank, isParenthesis]

theorem plain_of_allBlank {cs : List Char} (h : AllBlank cs) : Plain cs := by
  intro c hc
  have hb := h c hc
  cases hp : isParenthesis c with
  | false => rfl
  | true =>
      simp only [isParenthesis, Bool.or_eq_true, beq_iff_eq] at hp
      rcases hp with rfl | rfl <;> cases hb

namespace Group
variable (g : Group)

theorem trim_contents : trim g.contents =
    g.name ++ ' ' :: ((g.left.1 ++ (g.comparison.token ++ g.right.1)) ++ ' ' :: g.numeral) := by
  have hcontents : g.contents = g.lead.1 ++ ((g.name ++ ' ' :: ((g.left.1 ++
      (g.comparison.token ++ g.right.1)) ++ ' ' :: g.numeral)) ++ g.trail.1) := by
    simp [contents]
  rw [hcontents]
  apply trim_padded g.lead.2 _ _ g.trail.2
  · obtain ⟨c, hc, hblank⟩ := g.begins
    intro x hx
    rw [List.head?_append, hc] at hx
    cases hx
    exact hblank
  · have hne := Numeral.ne_nil_of_read g.denotes
    intro x hx
    rw [List.append_cons, ← List.append_assoc, List.append_cons, ← List.append_assoc,
      List.getLast?_append_of_ne_nil _ hne] at hx
    exact (Numeral.not_blank_of_read g.denotes x (List.mem_of_mem_getLast? hx)).1

theorem plain_contents : Plain g.contents := by
  intro c hc
  simp only [contents, List.mem_append, List.mem_singleton] at hc
  rcases hc with (((((((hc | hc) | rfl) | hc) | hc) | hc) | rfl) | hc) | hc
  · exact plain_of_allBlank g.lead.2 c hc
  · exact (g.solid c hc).2
  · rfl
  · exact plain_of_allBlank g.left.2 c hc
  · exact (not_blank_of_comparison _ c hc).2
  · exact plain_of_allBlank g.right.2 c hc
  · rfl
  · exact (Numeral.not_blank_of_read g.denotes c hc).2
  · exact plain_of_allBlank g.trail.2 c hc

theorem testOf_contents : testOf (trim g.contents) = .ok g.test := by
  refine testOf_eq_ok_iff.mpr ⟨fun c hc => g.plain_contents c (mem_of_mem_trim hc), ?_⟩
  refine ⟨g.name, _, g.numeral, g.trim_contents, fun h => (g.solid _ h).1 rfl, fun h => ?_, ?_,
    g.denotes⟩
  · cases (Numeral.not_blank_of_read g.denotes _ h).1
  · exact trim_between g.left.2 (fun c hc => (not_blank_of_comparison _ c hc).1) g.right.2

/-- The group of a test in its canonical form. -/
def ofTest (t : Test) : Group where
  lead := .none
  name := ['n']
  left := .none
  comparison := t.comparison
  right := .none
  numeral := Numeral.decimal t.number
  trail := .none
  number := t.number
  begins := ⟨'n', rfl, by decide⟩
  solid := by simp [isParenthesis]
  denotes := Numeral.read_decimal t.number

theorem test_ofTest (t : Test) : (ofTest t).test = t := rfl

theorem text_ofTest (t : Test) : (ofTest t).text = t.text := by
  simp [text, contents, ofTest, Test.text, Blanks.none]

end Group

end ComparisonChain.Reading
