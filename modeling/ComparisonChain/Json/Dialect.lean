import ComparisonChain.Dialect
import ComparisonChain.Json.Chain

/-!
# Dialects in JSON

A dialect is read from a record of its tokens and its limit. A field that is
missing is as in the standard dialect, and of two entries for a token the later
counts. What has been read is then checked.
-/
namespace ComparisonChain.Dialect
open Json

/-- The entries read so far, or the entries and the limit of a record. -/
structure Draft where
  tokens : Option Dialect
  limit : Option (Option Nat)

namespace Draft

def tokensKey : List Char :=
  ['l', 'o', 'g', 'i', 'c', '_', 't', 'o', 'k', 'e', 'n', 's']

def limitKey : List Char :=
  ['m', 'a', 'x', '_', 'g', 'r', 'o', 'u', 'p', 's']

/-- An object from tokens to connectives. -/
def tokenTable : Reader Dialect :=
  byHead fun c cs =>
    if c = '\x7b' then
      members (fun d token => memberValue fun cs =>
        (Connective.jsonReader cs).map fun p => (d.withToken token p.1, p.2)) bare cs
    else .error (otherKind c cs)

def size : Reader Nat := fun cs =>
  (integer 0 (UInt64.size - 1) cs).map fun p => (p.1.toNat, p.2)

def member (s : Draft) (key : List Char) : Reader Draft :=
  if key = tokensKey then field s.tokens (fun d => { s with tokens := some d }) tokenTable
  else if key = limitKey then
    field s.limit (fun m => { s with limit := some m }) (optional size)
  else ignored s

def asObject : Reader Draft := members member ⟨none, none⟩

def asList : Reader Draft := fun cs => do
  let (tokens, cs) ← place true tokenTable cs
  let (limit, cs) ← place tokens.isNone (optional size) cs
  let rest ← endList cs
  pure (⟨tokens, limit⟩, rest)

def reader : Reader Draft := record asList asObject

def dialect (s : Draft) : Dialect :=
  { s.tokens.getD standard with limit := s.limit.getD standard.limit }

end Draft

/-- Reads a dialect and checks it. -/
def ofJson (text : List Char) : Except (ReadError DialectFault) Dialect :=
  match Draft.reader text with
  | .error f => .error (.text f)
  | .ok (draft, rest) =>
      match finish rest with
      | .error f => .error (.text f)
      | .ok () =>
          match draft.dialect.check with
          | .error f => .error (.contents f)
          | .ok () => .ok draft.dialect

end ComparisonChain.Dialect
