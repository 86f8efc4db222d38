import ComparisonChain.Json.Skip

/-!
# Values of known kinds

Lists, objects, integers and named alternatives are read with their kind known
beforehand. A value of another kind is a mismatch, told at its first character
for a list or an object, and once it has been read for any other. A key is a
string always: whatever else stands in its place is malformed.
-/
namespace ComparisonChain.Json

/-- The fault of a value that is not of the kind asked for. -/
def otherKind (c : Char) (cs : List Char) : Fault :=
  let told {α : Type} : Except Fault α → Fault
    | .error f => f
    | .ok _ => .mismatched
  if c = '[' ∨ c = '\x7b' then .mismatched
  else if c = '"' then told (stringBody cs)
  else if c = '-' ∨ c.isDigit then told (number (c :: cs))
  else
    match wordRest? c with
    | some w => told (word w cs)
    | none => .malformed

/-- Reads a value by its first character after spaces. -/
def byHead {α : Type} (f : Char → List Char → Except Fault α) (cs : List Char) : Except Fault α :=
  match skipSpace cs with
  | [] => .error .truncated
  | c :: cs => f c cs

def null (cs : List Char) : Except Fault (List Char) :=
  byHead (fun c cs => if c = 'n' then word ['u', 'l', 'l'] cs else .error (otherKind c cs)) cs

/-- An integer between two bounds. -/
def integer (lo hi : Int) : Reader Int :=
  byHead fun c cs =>
    if c = '-' ∨ c.isDigit then
      match number (c :: cs) with
      | .error f => .error f
      | .ok (.integer n, rest) => if lo ≤ n ∧ n ≤ hi then .ok (n, rest) else .error .mismatched
      | .ok (.real, _) => .error .mismatched
    else .error (otherKind c cs)

/-- The key of a member, which only a quote opens. -/
def key : Reader (List Char) :=
  byHead fun c cs => if c = '"' then stringBody cs else .error .malformed

/-- One of several names: a string, or an object whose only member has the name
for its key and null for its value. -/
def alternative {α : Type} (ofName? : List Char → Option α) : Reader α :=
  byHead fun c cs =>
    if c = '"' then do
      let (name, rest) ← stringBody cs
      match ofName? name with
      | some a => .ok (a, rest)
      | none => .error .mismatched
    else if c = '\x7b' then do
      let (name, rest) ← key cs
      match ofName? name with
      | none => .error .mismatched
      | some a => do
          let rest ← colon rest
          let rest ← null rest
          byHead (fun c cs => if c = '\x7d' then .ok (a, cs) else .error .malformed) rest
    else .error .malformed

/-- Null for nothing, and otherwise a value. -/
def optional {α : Type} (item : Reader α) : Reader (Option α) := fun cs =>
  match skipSpace cs with
  | 'n' :: cs => (word ['u', 'l', 'l'] cs).map fun rest => (none, rest)
  | _ => (item cs).map fun p => (some p.1, p.2)

/-! ## Lists -/

/-- What stands at a place where a list may go on: its end, which is still to be
read, or a further item. -/
inductive Next where
  | done (rest : List Char)
  | item (rest : List Char)
  deriving DecidableEq, Repr

def nextItem (isFirst : Bool) : List Char → Except Fault Next :=
  byHead fun c cs =>
    if c = ']' then .ok (.done (c :: cs))
    else if isFirst then .ok (.item (c :: cs))
    else if c = ',' then
      byHead (fun c cs => if c = ']' then .error .malformed else .ok (.item (c :: cs))) cs
    else .error .malformed

/-- The end of a list all of whose items have been read. -/
def endList (cs : List Char) : Except Fault (List Char) :=
  byHead (fun c cs => if c = ']' then .ok cs else .error .malformed) cs

/-- So many items at most, up to the end of the list. -/
def items {α : Type} (item : Reader α) : Nat → Bool → Reader (List α)
  | 0, _, _ => .error .malformed
  | room + 1, isFirst, cs =>
      match nextItem isFirst cs with
      | .error f => .error f
      | .ok (.done r) => (endList r).map fun rest => ([], rest)
      | .ok (.item r) =>
          match item r with
          | .error f => .error f
          | .ok (a, rest) => (items item room false rest).map fun p => (a :: p.1, p.2)

/-- A list; each item takes a character, so a text ends before the room does. -/
def list {α : Type} (item : Reader α) : Reader (List α) :=
  byHead fun c cs =>
    if c = '[' then items item (cs.length + 1) true cs else .error (otherKind c cs)

/-! ## Objects -/

/-- The key at a place where an object may go on, or none at its end. -/
def nextKey (isFirst : Bool) : List Char → Except Fault (Option (List Char) × List Char) :=
  byHead fun c cs =>
    if c = '\x7d' then .ok (none, cs)
    else if isFirst then (key (c :: cs)).map fun p => (some p.1, p.2)
    else if c = ',' then (key cs).map fun p => (some p.1, p.2)
    else .error .malformed

/-- Reads so many members at most, each by its key into a state, up to the end
of the object. -/
def membersOn {σ : Type} (member : σ → List Char → Reader σ) : Nat → Bool → σ → Reader σ
  | 0, _, _, _ => .error .malformed
  | room + 1, isFirst, s, cs =>
      match nextKey isFirst cs with
      | .error f => .error f
      | .ok (none, rest) => .ok (s, rest)
      | .ok (some key, r) =>
          match member s key r with
          | .error f => .error f
          | .ok (s, rest) => membersOn member room false s rest

/-- The members of an object whose brace has been read; each takes a character,
so a text ends before the room does. -/
def members {σ : Type} (member : σ → List Char → Reader σ) (s : σ) : Reader σ := fun cs =>
  membersOn member (cs.length + 1) true s cs

/-- A member's value, after its colon. -/
def memberValue {α : Type} (value : Reader α) : Reader α := fun cs => do
  let rest ← colon cs
  value rest

/-- A field that is still unset takes its value; a second value is a mismatch. -/
def field {α σ : Type} (current : Option α) (set : α → σ) (value : Reader α) : Reader σ :=
  fun cs =>
    match current with
    | some _ => .error .mismatched
    | none => (memberValue value cs).map fun p => (set p.1, p.2)

/-- The value of a member that no field has the name of. -/
def ignored {σ : Type} (s : σ) : Reader σ := fun cs => do
  let rest ← colon cs
  let rest ← skipValue rest
  .ok (s, rest)

/-- A field of a record that is written as a list, none where the list ends. -/
def place {α : Type} (isFirst : Bool) (value : Reader α) : Reader (Option α) := fun cs => do
  match ← nextItem isFirst cs with
  | .done rest => .ok (none, rest)
  | .item rest => (value rest).map fun p => (some p.1, p.2)

/-- A value that has to be there. -/
def required {α : Type} : Option α → Except Fault α
  | some a => .ok a
  | none => .error .mismatched

/-- A record, written as a list of its fields in order or as an object. -/
def record {α : Type} (asList asObject : Reader α) : Reader α :=
  byHead fun c cs =>
    if c = '[' then asList cs
    else if c = '\x7b' then asObject cs
    else .error (otherKind c cs)

end ComparisonChain.Json
