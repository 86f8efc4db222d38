import ComparisonChain.Json.Number
import ComparisonChain.Json.String

/-!
# Skipping a JSON value

A value that nobody asks for is passed over at any depth. Its form is checked
as strictly as a value's that is read, but its numbers may be of any size and
its strings may hold any code units.
-/
namespace ComparisonChain.Json

inductive Bracket where
  | list | object
  deriving DecidableEq, Repr

def Bracket.closing : Bracket → Char
  | .list => ']'
  | .object => '\x7d'

/-- Where the skipping stands: before a value, or inside a bracket where it may
close, at its start or after a value. -/
inductive Stage where
  | value
  | inside (isFirst : Bool)
  deriving DecidableEq, Repr

/-- Skips a value that is no bracket. -/
def skipScalar (c : Char) (cs : List Char) : Except Fault (List Char) :=
  if c = '"' then skipString cs
  else if c = '-' ∨ c.isDigit then skipNumber (c :: cs)
  else
    match wordRest? c with
    | some w => word w cs
    | none => .error .malformed

/-- Skips a key and its colon inside an object; inside a list there is none. -/
def skipKey (b : Bracket) (cs : List Char) : Except Fault (List Char) :=
  match b with
  | .list => .ok cs
  | .object =>
      match skipSpace cs with
      | [] => .error .truncated
      | c :: cs =>
          if c = '"' then
            match skipString cs with
            | .error f => .error f
            | .ok rest => colon rest
          else .error .malformed

/-- Skips on for so many steps, with the innermost open bracket first. The value
ends when no bracket is open. -/
def skipOn : Nat → List Bracket → Stage → List Char → Except Fault (List Char)
  | 0, _, _, _ => .error .malformed
  | steps + 1, stack, .value, cs =>
      match skipSpace cs with
      | [] => .error .truncated
      | c :: cs =>
          if c = '[' then skipOn steps (.list :: stack) (.inside true) cs
          else if c = '\x7b' then skipOn steps (.object :: stack) (.inside true) cs
          else
            match skipScalar c cs with
            | .error f => .error f
            | .ok rest => skipOn steps stack (.inside false) rest
  | _ + 1, [], .inside _, cs => .ok cs
  | steps + 1, b :: bs, .inside isFirst, cs =>
      match skipSpace cs with
      | [] => .error .truncated
      | c :: cs =>
          if c = b.closing then skipOn steps bs (.inside false) cs
          else if isFirst ∨ c = ',' then
            match skipKey b (if isFirst then c :: cs else cs) with
            | .error f => .error f
            | .ok rest => skipOn steps (b :: bs) .value rest
          else .error .malformed

/-- Of two steps one takes a character, so a text ends before the steps do. -/
def skipValue (cs : List Char) : Except Fault (List Char) :=
  skipOn (2 * cs.length + 2) [] .value cs

end ComparisonChain.Json
