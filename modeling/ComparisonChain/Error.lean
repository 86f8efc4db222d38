import ComparisonChain.Chain.Columns
import ComparisonChain.Dialect
import ComparisonChain.Numeral
import ComparisonChain.Text.Quoted

/-!
# Errors and their wording

A text is refused for a fault of its form or for an operator that nobody knows,
and a chain for want of room; a dialect is refused for a fault of its own.
`Error.message` is the one place where an error gets words.
-/
namespace ComparisonChain

/-- A text between double quotes. -/
def quoted (cs : List Char) : String := String.ofList (Text.quote cs)

inductive OperatorKind where
  | comparison | connective
  deriving DecidableEq, Repr

/-- Faults of a text's form. A span is out of bounds only where groups are
nested; the other bounds hold since a search answers with positions of its own
text, and a text that starts with a parenthesis has a group. -/
inductive FormFault where
  | empty
  | notEnclosed (source : List Char)
  | unclosed (offset : Nat)
  | unmatched (offset : Nat)
  | tooManyGroups (limit : Nat)
  | noGroup
  | cutOutOfBounds
  | tokenOutOfBounds
  | spanOutOfBounds
  | fieldOutOfBounds
  | dangling (word : List Char)
  | connectorCount (groups connectors : Nat)
  | nested (group : List Char)
  | shape (group : List Char)
  | numeral (fault : Numeral.Fault)
  | columns (fault : ColumnFault)
  deriving DecidableEq, Repr

inductive Error where
  | allocation (tests : Nat)
  | form (fault : FormFault)
  | unrecognized (kind : OperatorKind) (token : List Char)
  | dialect (fault : DialectFault)
  deriving DecidableEq, Repr

def OperatorKind.name : OperatorKind → String
  | .comparison => "comparison"
  | .connective => "logic"

def Numeral.Fault.message : Numeral.Fault → String
  | .malformed t => s!"invalid number {quoted t}"
  | .tooLarge t => s!"number {quoted t} out of range: number too large to fit in target type"
  | .tooSmall t => s!"number {quoted t} out of range: number too small to fit in target type"

def ColumnFault.message : ColumnFault → String
  | .noComparison => "predicate needs at least one comparison"
  | .numbers c n => s!"{c} comparisons but {n} numbers"
  | .connectives c l => s!"{c} comparisons need {c - 1} logic operators, found {l}"

def DialectFault.message : DialectFault → String
  | .noToken => "no logic tokens configured"
  | .shortToken t => s!"logic token {quoted t} must be at least 2 characters"
  | .brokenToken t => s!"logic token {quoted t} may not contain whitespace or parentheses"
  | .noGroup => "max_groups must be at least 1"

def FormFault.message : FormFault → String
  | .empty => "empty predicate"
  | .notEnclosed s => s!"predicate must start with '(' and end with ')': {quoted s}"
  | .unclosed n => s!"unclosed '(' at offset {n}"
  | .unmatched n => s!"unmatched ')' at offset {n}"
  | .tooManyGroups m => s!"more than {m} groups"
  | .noGroup => "no comparison groups"
  | .cutOutOfBounds | .spanOutOfBounds => "group span out of bounds"
  | .tokenOutOfBounds => "logic token out of bounds"
  | .fieldOutOfBounds => "group field out of bounds"
  | .dangling w => s!"dangling token {quoted w}"
  | .connectorCount g l => s!"{g} groups joined by {l} logic operators"
  | .nested g => s!"nested groups are not supported: {quoted g}"
  | .shape g => s!"expected '<lhs> <operator> <number>', got {quoted g}"
  | .numeral f => f.message
  | .columns f => f.message

namespace Error

def message : Error → String
  | .allocation n => s!"Allocation failed for {n} predicate terms"
  | .form f => s!"Invalid syntax: {f.message}"
  | .unrecognized k t => s!"Unrecognized {k.name} operator: {quoted t}"
  | .dialect f => s!"Invalid configuration: {f.message}"

/-- Whether the text is to blame, an unknown operator included. -/
def isFormError : Error → Bool
  | .form _ | .unrecognized _ _ => true
  | .allocation _ | .dialect _ => false

end Error

/-- The comparison that a token names. -/
def Comparison.read (t : List Char) : Except Error Comparison :=
  match Comparison.ofToken? t with
  | some c => .ok c
  | none => .error (.unrecognized .comparison t)

/-- The connective that a canonical name names. -/
def Connective.read (t : List Char) : Except Error Connective :=
  match Connective.ofName? t with
  | some c => .ok c
  | none => .error (.unrecognized .connective t)

end ComparisonChain
