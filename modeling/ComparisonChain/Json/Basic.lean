/-!
# Reading JSON texts

A reader takes a value from the head of a text and returns it with the rest.
The first fault in the text is the one that counts: the text ends too soon, it
is no JSON, or a value is well formed but not of the kind that is asked for.
-/
namespace ComparisonChain.Json

inductive Fault where
  | truncated
  | malformed
  | mismatched
  deriving DecidableEq, Repr

/-- A text that cannot be read, or whose contents are refused. -/
inductive ReadError (ε : Type) where
  | text (fault : Fault)
  | contents (error : ε)
  deriving DecidableEq, Repr

abbrev Reader (α : Type) := List Char → Except Fault (α × List Char)

def isSpace (c : Char) : Bool := c == ' ' || c == '\t' || c == '\n' || c == '\r'

def skipSpace (cs : List Char) : List Char := cs.dropWhile isSpace

/-- The rest of a word whose first letter has been read. -/
def word : List Char → List Char → Except Fault (List Char)
  | [], cs => .ok cs
  | _ :: _, [] => .error .truncated
  | w :: ws, c :: cs => if c = w then word ws cs else .error .malformed

/-- The three words, by their first letter. -/
def wordRest? (c : Char) : Option (List Char) :=
  if c = 'n' then some ['u', 'l', 'l']
  else if c = 't' then some ['r', 'u', 'e']
  else if c = 'f' then some ['a', 'l', 's', 'e']
  else none

/-- The colon between a key and its value. -/
def colon (cs : List Char) : Except Fault (List Char) :=
  match skipSpace cs with
  | [] => .error .truncated
  | c :: cs => if c = ':' then .ok cs else .error .malformed

/-- After the value only spaces may follow. -/
def finish (cs : List Char) : Except Fault Unit :=
  if (skipSpace cs).isEmpty then .ok () else .error .malformed

end ComparisonChain.Json
