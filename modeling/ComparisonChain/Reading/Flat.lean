import ComparisonChain.Reading.Contents
import ComparisonChain.Reading.Chain

/-!
# Flat texts in one pass

A text is flat when its parentheses alternate, so that no group lies in another
and none is left open. A flat text falls apart from left to right into the
contents of its groups and the gaps between them, and is read from those
without any position in it.
-/
namespace ComparisonChain.Reading.Flat
open Text

/-- Parentheses that open and close in turn, as many of either. -/
inductive Alternating : List Char → Prop
  | nil : Alternating []
  | pair {ps : List Char} : Alternating ps → Alternating ('(' :: ')' :: ps)

/-- Starts and ends with a parenthesis, and alternates. -/
def IsFlat (source : List Char) : Prop :=
  source.head? = some '(' ∧ source.getLast? = some ')' ∧
    Alternating (source.filter isParenthesis)

/-- The pieces of a flat text: the contents of the groups, and the gaps after
each of them. -/
structure Pieces where
  contents : List (List Char)
  gaps : List (List Char)
  deriving DecidableEq, Repr

/-- Takes the text apart, starting before a group. What stands before the first
group belongs to no gap. -/
def pieces (source : List Char) : Pieces :=
  match source with
  | [] => ⟨[], []⟩
  | c :: cs =>
      if c = '(' then
        let rest := (cs.dropWhile (· != ')')).drop 1
        let p := pieces (rest.dropWhile (· != '('))
        ⟨cs.takeWhile (· != ')') :: p.contents, rest.takeWhile (· != '(') :: p.gaps⟩
      else pieces (cs.dropWhile (· != '('))
termination_by source.length
decreasing_by
  · have h1 := (List.dropWhile_suffix (l := cs) (· != ')')).length_le
    have h2 := (List.dropWhile_suffix (l := (cs.dropWhile (· != ')')).drop 1)
      (· != '(')).length_le
    simp only [List.length_drop, List.length_cons] at h2 ⊢
    omega
  · have h := (List.dropWhile_suffix (l := cs) (· != '(')).length_le
    simp only [List.length_cons]
    omega

/-- The entry whose token is the longest that prefixes the text, an empty token
being none. -/
def longestMatch? (d : Dialect) (text : List Char) : Option (List Char × Connective) :=
  d.entries.find? fun e => e.1 ≠ [] ∧ IsLongest d e text

theorem ne_nil_of_longestMatch? {d : Dialect} {text : List Char} {e : List Char × Connective}
    (h : longestMatch? d text = some e) : e.1 ≠ [] := by
  have he := List.find?_some h
  exact (of_decide_eq_true he).1

/-- The connectives of a run of tokens. -/
def connectives (d : Dialect) (run : List Char) : Except Error (List Connective) :=
  match _hr : trimStart run with
  | [] => .ok []
  | c :: cs =>
      match _ht : longestMatch? d (c :: cs) with
      | none => .error (noConnector (c :: cs))
      | some e => (connectives d ((c :: cs).drop e.1.length)).map (e.2 :: ·)
termination_by run.length
decreasing_by
  have h1 := (List.dropWhile_suffix (l := run) isBlank).length_le
  have h2 := List.length_pos_iff.mpr (ne_nil_of_longestMatch? _ht)
  rw [show run.dropWhile isBlank = c :: cs from _hr] at h1
  simp only [List.length_drop, List.length_cons] at h1 ⊢
  omega

/-- The texts of the comparison and of the number: what stands between the first
space and the last, and what stands after the last. -/
def fields (group : List Char) : Except FormFault (List Char × List Char) :=
  let afterFirst := (group.dropWhile (· != ' ')).drop 1
  let number := (afterFirst.reverse.takeWhile (· != ' ')).reverse
  if afterFirst.contains ' ' then
    .ok (trim (afterFirst.take (afterFirst.length - number.length - 1)), number)
  else .error (.shape group)

/-- The test in the contents of a group. -/
def test (contents : List Char) : Except Error Test :=
  match fields (trim contents) with
  | .error f => .error (.form f)
  | .ok (comparison, number) => do
      let c ← Comparison.read comparison
      let n ← readNumber number
      pure ⟨c, n⟩

/-- The tests in the contents of groups; of several faults the rightmost counts. -/
def tests : List (List Char) → Except Error (List Test)
  | [] => .ok []
  | g :: gs => do
      let ts ← tests gs
      let t ← test g
      pure (t :: ts)

/-- Joins tests by connectives, one fewer than tests. -/
def join : List Test → List Connective → Except Error Chain
  | t :: ts, ls => .ok ⟨t, List.zipWith Link.mk ls ts⟩
  | [], _ => .error (.form .noGroup)

/-- Reads a flat text from its pieces. -/
def read (d : Dialect) (source : List Char) : Except Error Chain := do
  let p := pieces source
  match d.limit.filter (· < p.contents.length) with
  | some m => .error (.form (.tooManyGroups m))
  | none => do
      let ls ← connectives d p.gaps.flatten
      if ls.length + 1 ≠ p.contents.length then
        .error (.form (.connectorCount p.contents.length ls.length))
      else do
        let ts ← tests p.contents
        join ts ls

end ComparisonChain.Reading.Flat
