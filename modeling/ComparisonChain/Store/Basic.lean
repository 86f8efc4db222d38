import ComparisonChain.Reading.Chain

/-!
# Stores of compiled chains

A store keeps the chains compiled under its current dialect, one shared object
for each text. Fetching a text is a sequence of steps, each of which sees the
store at one moment: look up, take the current dialect, compile, settle. The
dialect may be replaced between these; a chain compiled under a dialect that is
no longer current goes to its caller and never into the store.
-/
namespace ComparisonChain

/-- A compiled chain and the identity of the object that holds it. -/
structure Shared where
  id : Nat
  chain : Chain
  deriving DecidableEq, Repr

/-- A dialect and the number of its installation. -/
structure Installed where
  generation : Nat
  dialect : Dialect
  deriving DecidableEq, Repr

structure Store where
  installed : Installed
  entries : List (List Char × Shared)
  nextId : Nat
  deriving DecidableEq, Repr

/-- What a call on a store returns, reports and leaves. -/
structure Outcome (α : Type) where
  result : Except Error α
  events : List Event
  store : Store

namespace Store

/-- Nothing compiled yet, in the standard dialect. -/
def initial : Store := ⟨⟨0, .standard⟩, [], 0⟩

def size (s : Store) : Nat := s.entries.length

def lookup? (s : Store) (text : List Char) : Option Shared := s.entries.lookup text

def contains (s : Store) (text : List Char) : Bool := (s.lookup? text).isSome

/-! ## Steps -/

/-- A new object for a chain. -/
def allocate (s : Store) (c : Chain) : Shared × Store :=
  (⟨s.nextId, c⟩, { s with nextId := s.nextId + 1 })

/-- Whether a dialect taken earlier is still the current one. -/
def isCurrent (s : Store) (origin : Installed) : Bool :=
  s.installed.generation == origin.generation

/-- Keeps a chain compiled under `origin`, unless that was replaced or another
object for the text came first; the object that the caller gets. -/
def settle (s : Store) (origin : Installed) (text : List Char) (fresh : Shared) : Shared × Store :=
  if s.isCurrent origin then
    match s.lookup? text with
    | some shared => (shared, s)
    | none => (fresh, { s with entries := s.entries ++ [(text, fresh)] })
  else (fresh, s)

def clear (s : Store) : Store := { s with entries := [] }

/-- Replaces the dialect and leaves the entries. -/
def swap (s : Store) (d : Dialect) : Store :=
  { s with installed := ⟨s.installed.generation + 1, d⟩ }

/-! ## Calls -/

/-- Installs a sound dialect and forgets what was compiled under the last one. -/
def configure (s : Store) (d : Dialect) : Outcome Unit :=
  match d.check with
  | .error f => ⟨.error (.dialect f), [], s⟩
  | .ok () => ⟨.ok (), [.configured d.entries.length d.limit], (s.swap d).clear⟩

/-- Fetches a text's chain; `interlude` is what happens to the store after the
chain has been compiled and before it is settled. -/
def fetchAround (interlude : Store → Store × List Event) (s : Store) (text : List Char) :
    Outcome Shared :=
  match s.lookup? text with
  | some shared => ⟨.ok shared, [], s⟩
  | none =>
      let origin := s.installed
      let compiled := origin.dialect.compile text
      match compiled.outcome with
      | .error e => ⟨.error e, .missed text :: compiled.events, s⟩
      | .ok chain =>
          let (fresh, s) := s.allocate chain
          let (s, between) := interlude s
          let stale := if s.isCurrent origin then [] else [.stale text]
          let (shared, s) := s.settle origin text fresh
          ⟨.ok shared, .missed text :: compiled.events ++ between ++ stale, s⟩

def fetch (s : Store) (text : List Char) : Outcome Shared :=
  s.fetchAround (fun s => (s, [])) text

/-- Fetches a text while a dialect is installed. -/
def fetchWhileConfiguring (s : Store) (d : Dialect) (text : List Char) : Outcome Shared :=
  s.fetchAround (fun s => ((s.configure d).store, (s.configure d).events)) text

/-- The value of a text's chain. -/
def check (s : Store) (text : List Char) (v : Int64) : Outcome Bool :=
  let o := s.fetch text
  ⟨o.result.map (·.chain.holds v), o.events, o.store⟩

/-! ## Histories -/

inductive Request where
  | fetch (text : List Char)
  | fetchWhileConfiguring (d : Dialect) (text : List Char)
  | check (text : List Char) (v : Int64)
  | contains (text : List Char)
  | size
  | clear
  | current
  | configure (d : Dialect)
  deriving DecidableEq, Repr

inductive Reply where
  | shared (x : Shared)
  | flag (b : Bool)
  | count (n : Nat)
  | dialect (d : Dialect)
  | done
  deriving DecidableEq, Repr

/-- One call of a history. -/
def step (s : Store) : Request → Outcome Reply
  | .fetch text =>
      let o := s.fetch text
      ⟨o.result.map .shared, o.events, o.store⟩
  | .fetchWhileConfiguring d text =>
      let o := s.fetchWhileConfiguring d text
      ⟨o.result.map .shared, o.events, o.store⟩
  | .check text v =>
      let o := s.check text v
      ⟨o.result.map .flag, o.events, o.store⟩
  | .contains text => ⟨.ok (.flag (s.contains text)), [], s⟩
  | .size => ⟨.ok (.count s.size), [], s⟩
  | .clear => ⟨.ok .done, [], s.clear⟩
  | .current => ⟨.ok (.dialect s.installed.dialect), [], s⟩
  | .configure d =>
      let o := s.configure d
      ⟨o.result.map fun _ => .done, o.events, o.store⟩

/-- The store after a history. -/
def after (s : Store) (history : List Request) : Store :=
  history.foldl (fun s r => (s.step r).store) s

end Store

end ComparisonChain
