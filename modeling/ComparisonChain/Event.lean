import ComparisonChain.Buffer
import ComparisonChain.Chain.Basic
import ComparisonChain.Error

/-!
# Events and logged computations

Reading a text and keeping chains report what they do as events. A logged
computation carries its events in order and ends in a value or an error; the
equations for `outcome` say that the events never influence it.
-/
namespace ComparisonChain

inductive Level where
  | trace | debug | info
  deriving DecidableEq, Repr

def Level.name : Level → String
  | .trace => "TRACE"
  | .debug => "DEBUG"
  | .info => "INFO"

inductive Event where
  | cut (span : Span) (residual : List Char)
  | connector (token : List Char) (connective : Connective)
  | test (group : List Char) (test : Test)
  | compiled (source : List Char) (size : Nat)
  | missed (text : List Char)
  | stale (text : List Char)
  | configured (tokens : Nat) (limit : Option Nat)
  deriving DecidableEq, Repr

namespace Event

def level : Event → Level
  | .cut .. | .connector .. | .test .. => .trace
  | .compiled .. | .missed .. | .stale .. => .debug
  | .configured .. => .info

def limitText : Option Nat → String
  | none => "None"
  | some m => s!"Some({m})"

def message : Event → String
  | .cut s r => s!"peeled group [{s.start}, {s.stop}), residual {quoted r}"
  | .connector t c => s!"logic token {quoted t} -> {String.ofList c.name}"
  | .test g t =>
      s!"group {quoted g} -> {String.ofList t.comparison.token} " ++
        String.ofList (Numeral.decimal t.number)
  | .compiled s n => s!"parsed {quoted s} into {n} comparisons"
  | .missed t => s!"predicate cache miss: {quoted t}"
  | .stale t => s!"parser reconfigured during compile, not caching {quoted t}"
  | .configured n m =>
      s!"predicate parser reconfigured: {n} logic tokens, max_groups {limitText m}"

end Event

structure Logged (α : Type) where
  events : List Event
  outcome : Except Error α

namespace Logged

def note (e : Event) : Logged Unit := ⟨[e], .ok ()⟩

def fail {α : Type} (e : Error) : Logged α := ⟨[], .error e⟩

def ofExcept {α : Type} (x : Except Error α) : Logged α := ⟨[], x⟩

def bind {α β : Type} (x : Logged α) (f : α → Logged β) : Logged β :=
  match x.outcome with
  | .error e => ⟨x.events, .error e⟩
  | .ok a => ⟨x.events ++ (f a).events, (f a).outcome⟩

instance : Monad Logged where
  pure a := ⟨[], .ok a⟩
  bind := bind

variable {α β : Type}

@[simp] theorem outcome_pure (a : α) : (pure a : Logged α).outcome = .ok a := rfl

@[simp] theorem outcome_note (e : Event) : (note e).outcome = .ok () := rfl

@[simp] theorem outcome_fail (e : Error) : (fail e : Logged α).outcome = .error e := rfl

@[simp] theorem outcome_ofExcept (x : Except Error α) : (ofExcept x).outcome = x := rfl

@[simp] theorem outcome_bind (x : Logged α) (f : α → Logged β) :
    (x >>= f).outcome = x.outcome.bind fun a => (f a).outcome := by
  change (bind x f).outcome = _
  unfold bind
  cases x.outcome <;> rfl

end Logged

end ComparisonChain
