import ComparisonChain.Chain.Columns
import ComparisonChain.Json.Value

/-!
# Chains in JSON

A chain is written as a record of its three columns. It is read from such a
record when the columns fit together; the column of connectives may be missing
and is then empty.
-/
namespace ComparisonChain
open Json

def Comparison.jsonReader : Reader Comparison := alternative Comparison.ofToken?

def Connective.jsonReader : Reader Connective := alternative Connective.ofName?

namespace Chain

def jsonNumber : Reader Int64 := fun cs =>
  (integer Int64.minValue.toInt Int64.maxValue.toInt cs).map fun p => (Int64.ofInt p.1, p.2)

/-- The columns read so far. -/
structure Draft where
  comparisons : Option (List Comparison)
  numbers : Option (List Int64)
  connectives : Option (List Connective)
  deriving DecidableEq, Repr

namespace Draft

def comparisonsKey : List Char := ['c', 'o', 'm', 'p', 'a', 'r', 'i', 's', 'o', 'n', 's']

def numbersKey : List Char := ['n', 'u', 'm', 'b', 'e', 'r', 's']

def connectivesKey : List Char := ['l', 'o', 'g', 'i', 'c']

def member (s : Draft) (key : List Char) : Reader Draft :=
  if key = comparisonsKey then
    field s.comparisons (fun v => { s with comparisons := some v }) (list Comparison.jsonReader)
  else if key = numbersKey then
    field s.numbers (fun v => { s with numbers := some v }) (list jsonNumber)
  else if key = connectivesKey then
    field s.connectives (fun v => { s with connectives := some v }) (list Connective.jsonReader)
  else ignored s

def asObject : Reader Draft := members member ⟨none, none, none⟩

/-- A column that is required is missed where it should stand. -/
def asList : Reader Draft := fun cs => do
  let (comparisons, cs) ← place true (list Comparison.jsonReader) cs
  let comparisons ← required comparisons
  let (numbers, cs) ← place false (list jsonNumber) cs
  let numbers ← required numbers
  let (connectives, cs) ← place false (list Connective.jsonReader) cs
  let rest ← endList cs
  pure (⟨some comparisons, some numbers, connectives⟩, rest)

def reader : Reader Draft := record asList asObject

/-- The columns, once the required ones are there. -/
def columns (s : Draft) :
    Except Fault (List Comparison × List Int64 × List Connective) := do
  let comparisons ← required s.comparisons
  let numbers ← required s.numbers
  pure (comparisons, numbers, s.connectives.getD [])

end Draft

/-- Reads a chain. Columns that do not fit are told before what follows them in
the text is looked at. -/
def ofJson (text : List Char) : Except (ReadError ColumnFault) Chain :=
  match Draft.reader text with
  | .error f => .error (.text f)
  | .ok (draft, rest) =>
      match draft.columns with
      | .error f => .error (.text f)
      | .ok (cs, ns, ls) =>
          match ofColumns cs ns ls with
          | .error f => .error (.contents f)
          | .ok chain =>
              match finish rest with
              | .error f => .error (.text f)
              | .ok () => .ok chain

/-! ## Writing -/

/-- A word without quotes or escapes of its own, between quotes. -/
def jsonWord (w : List Char) : List Char := ['"'] ++ w ++ ['"']

def jsonList (xs : List (List Char)) : List Char := ['['] ++ [','].intercalate xs ++ [']']

def jsonMember (key value : List Char) : List Char := jsonWord key ++ [':'] ++ value

/-- The shortest JSON text of a chain, with the columns in order. -/
def json (c : Chain) : List Char :=
  ['\x7b'] ++
    [','].intercalate
      [jsonMember Draft.comparisonsKey (jsonList (c.comparisons.map fun p => jsonWord p.token)),
       jsonMember Draft.numbersKey (jsonList (c.numbers.map Numeral.decimal)),
       jsonMember Draft.connectivesKey (jsonList (c.connectives.map fun l => jsonWord l.name))] ++
    ['\x7d']

end Chain

end ComparisonChain
