import ComparisonChain.Event
import ComparisonChain.Text.Brackets

/-!
# The contents of a group

A group holds a name, a comparison and a number. The name ends at the first
space and the number starts after the last; the name means nothing. Only the
space U+0020 separates fields, while any blank may surround the comparison.
-/
namespace ComparisonChain.Reading
open Text

/-- The texts of the comparison and of the number. -/
def fields (group : List Char) : Except FormFault (List Char × List Char) :=
  let b : Buffer := ⟨group⟩
  match b.findFirst? ' ', b.findLast? ' ' with
  | some i, some j =>
      if i = j then .error (.shape group)
      else
        match b.slice? (i + 1) j, b.slice? (j + 1) b.size with
        | some comparison, some number => .ok (trim comparison, number)
        | _, _ => .error .fieldOutOfBounds
  | _, _ => .error (.shape group)

def readNumber (token : List Char) : Except Error Int64 :=
  match Numeral.read token with
  | .ok n => .ok n
  | .error f => .error (.form (.numeral f))

/-- The test in a group's trimmed contents. -/
def testOf (group : List Char) : Except Error Test :=
  if group.any isParenthesis then .error (.form (.nested group))
  else
    match fields group with
    | .error f => .error (.form f)
    | .ok (comparison, number) => do
        let c ← Comparison.read comparison
        let n ← readNumber number
        pure ⟨c, n⟩

/-- Reads the group at a span of the source. Spans of flat groups lie in the
source as they lay in the text they were cut from. -/
def readGroup (source : Buffer) (span : Span) : Logged Test :=
  match source.slice? span.start span.stop with
  | none => .fail (.form .spanOutOfBounds)
  | some contents => do
      let group := trim contents
      let t ← Logged.ofExcept (testOf group)
      Logged.note (.test group t)
      pure t

/-- Reads the groups at spans in turn, up to the first that is refused. -/
def readGroups (source : Buffer) : List Span → Logged (List Test)
  | [] => pure []
  | s :: ss => do
      let t ← readGroup source s
      let ts ← readGroups source ss
      pure (t :: ts)

end ComparisonChain.Reading
