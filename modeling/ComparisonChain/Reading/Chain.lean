import ComparisonChain.Reading.Connectors
import ComparisonChain.Reading.Contents
import ComparisonChain.Reading.Groups

/-!
# Reading a chain

A text is trimmed and stands in parentheses from end to end. Its groups are cut
out, the connectors between them are read, and then the groups' contents, from
right to left. Then room is asked for, once for each column of the chain. The
first fault in this order is the one that is told. Where no memory is named,
there is room for every chain.
-/
namespace ComparisonChain
open Text Reading

/-- Which numbers of entries there is room for, in each column of a chain. -/
structure Memory where
  comparisons : Nat → Bool
  numbers : Nat → Bool
  connectives : Nat → Bool

namespace Memory

def ample : Memory := ⟨fun _ => true, fun _ => true, fun _ => true⟩

/-- So many entries of a column take no room of their own. -/
def inPlace : Nat := 4

/-- Asks for room for the entries of one column of a chain with so many tests. -/
def reserve (grants : Nat → Bool) (tests entries : Nat) : Except Error Unit :=
  if entries ≤ inPlace ∨ grants entries then .ok () else .error (.allocation tests)

def reserveColumns (m : Memory) (tests connectives : Nat) : Except Error Unit := do
  reserve m.comparisons tests tests
  reserve m.numbers tests tests
  reserve m.connectives tests connectives

/-- There is room for every column of a chain. -/
structure HasRoom (m : Memory) (c : Chain) : Prop where
  comparisons : c.size ≤ inPlace ∨ m.comparisons c.size
  numbers : c.size ≤ inPlace ∨ m.numbers c.size
  connectives : c.connectives.length ≤ inPlace ∨ m.connectives c.connectives.length

end Memory

/-- The trimmed text, where that starts and ends with a parenthesis. -/
def Reading.enclosed (text : List Char) : Except FormFault (List Char) :=
  let source := trim text
  if source.isEmpty then .error .empty
  else if source.head? = some '(' ∧ source.getLast? = some ')' then .ok source
  else .error (.notEnclosed source)

/-- The chain of tests read from right to left and connectives from left to right. -/
def Reading.assemble (tests : List Test) (connectives : List Connective) : Except Error Chain :=
  match Chain.ofColumns (tests.reverse.map (·.comparison)) (tests.reverse.map (·.number))
      connectives with
  | .ok c => .ok c
  | .error f => .error (.form (.columns f))

namespace Dialect

/-- Reads a text in a dialect, reporting each step. -/
def compileIn (d : Dialect) (m : Memory) (text : List Char) : Logged Chain :=
  match enclosed text with
  | .error f => .fail (.form f)
  | .ok source => do
      let (spans, residual) ← cutGroups d.limit 0 ⟨source⟩
      if spans.isEmpty then Logged.fail (.form .noGroup)
      else
        let connectives ← readConnectors d residual
        if connectives.length + 1 ≠ spans.length then
          Logged.fail (.form (.connectorCount spans.length connectives.length))
        else
          let tests ← readGroups ⟨source⟩ spans
          Logged.ofExcept (m.reserveColumns tests.length connectives.length)
          let chain ← Logged.ofExcept (assemble tests connectives)
          Logged.note (.compiled source chain.size)
          pure chain

def readIn (d : Dialect) (m : Memory) (text : List Char) : Except Error Chain :=
  (d.compileIn m text).outcome

def compile (d : Dialect) (text : List Char) : Logged Chain := d.compileIn .ample text

def read (d : Dialect) (text : List Char) : Except Error Chain := (d.compile text).outcome

end Dialect

/-- Reads a text in the standard dialect. -/
def Chain.ofText (text : List Char) : Except Error Chain := Dialect.standard.read text

end ComparisonChain
