import ComparisonChain.Store.Basic

/-!
# Calls of many clients on one store

Any number of clients call on one store, and their steps interleave in any
order. A step that looks up or settles a chain, or clears the store, waits until
nobody holds the store for writing. Replacing the dialect holds it from before
the swap until after the entries are gone; taking the current dialect does not
wait, and may fall in between.
-/
namespace ComparisonChain.Store

/-- A call that a client makes. -/
inductive Call where
  | fetch (text : List Char)
  | check (text : List Char) (v : Int64)
  | configure (d : Dialect)
  | clear
  deriving DecidableEq, Repr

namespace Call

/-- The text whose chain a call needs. -/
def text? : Call → Option (List Char)
  | .fetch text | .check text _ => some text
  | .configure _ | .clear => none

/-- What a call makes of the chain it needed. -/
def reply : Call → Shared → Reply
  | .check _ v, x => .flag (x.chain.holds v)
  | _, x => .shared x

end Call

/-- How far a call has come. -/
inductive Stage where
  | begun
  | missed
  | taken (origin : Installed)
  | compiled (origin : Installed) (fresh : Shared)
  | checked
  | holding
  | swapped
  | finished (result : Except Error Reply)

/-- A store, the client that holds it for writing, and each client's call. -/
structure World where
  store : Store
  writer : Option Nat
  calls : Nat → Option (Call × Stage)

namespace World

def start : World := ⟨initial, none, fun _ => none⟩

/-- A client's call comes to a stage. -/
def move (w : World) (i : Nat) (c : Call) (s : Stage) : World :=
  { w with calls := fun j => if j = i then some (c, s) else w.calls j }

/-- A client's call is over. -/
def leave (w : World) (i : Nat) : World :=
  { w with calls := fun j => if j = i then none else w.calls j }

/-- One step of one client. -/
inductive Step : World → World → Prop
  | call {w : World} {i : Nat} (c : Call) : w.calls i = none → Step w (w.move i c .begun)
  | hit {w : World} {i : Nat} {c : Call} {text : List Char} {x : Shared} :
      w.calls i = some (c, .begun) → c.text? = some text → w.writer = none →
      w.store.lookup? text = some x → Step w (w.move i c (.finished (.ok (c.reply x))))
  | miss {w : World} {i : Nat} {c : Call} {text : List Char} :
      w.calls i = some (c, .begun) → c.text? = some text → w.writer = none →
      w.store.lookup? text = none → Step w (w.move i c .missed)
  | take {w : World} {i : Nat} {c : Call} :
      w.calls i = some (c, .missed) → Step w (w.move i c (.taken w.store.installed))
  | refuse {w : World} {i : Nat} {c : Call} {text : List Char} {origin : Installed} {e : Error} :
      w.calls i = some (c, .taken origin) → c.text? = some text →
      origin.dialect.read text = .error e → Step w (w.move i c (.finished (.error e)))
  | compile {w : World} {i : Nat} {c : Call} {text : List Char} {origin : Installed}
      {chain : Chain} :
      w.calls i = some (c, .taken origin) → c.text? = some text →
      origin.dialect.read text = .ok chain →
      Step w { w.move i c (.compiled origin (w.store.allocate chain).1) with
        store := (w.store.allocate chain).2 }
  | settle {w : World} {i : Nat} {c : Call} {text : List Char} {origin : Installed}
      {fresh : Shared} :
      w.calls i = some (c, .compiled origin fresh) → c.text? = some text → w.writer = none →
      Step w { w.move i c (.finished (.ok (c.reply (w.store.settle origin text fresh).1))) with
        store := (w.store.settle origin text fresh).2 }
  | clear {w : World} {i : Nat} : w.calls i = some (.clear, .begun) → w.writer = none →
      Step w { w.move i .clear (.finished (.ok .done)) with store := w.store.clear }
  | reject {w : World} {i : Nat} {d : Dialect} {f : DialectFault} :
      w.calls i = some (.configure d, .begun) → d.check = .error f →
      Step w (w.move i (.configure d) (.finished (.error (.dialect f))))
  | accept {w : World} {i : Nat} {d : Dialect} :
      w.calls i = some (.configure d, .begun) → d.check = .ok () →
      Step w (w.move i (.configure d) .checked)
  | hold {w : World} {i : Nat} {d : Dialect} :
      w.calls i = some (.configure d, .checked) → w.writer = none →
      Step w { w.move i (.configure d) .holding with writer := some i }
  | swap {w : World} {i : Nat} {d : Dialect} : w.calls i = some (.configure d, .holding) →
      Step w { w.move i (.configure d) .swapped with store := w.store.swap d }
  | release {w : World} {i : Nat} {d : Dialect} : w.calls i = some (.configure d, .swapped) →
      Step w { w.move i (.configure d) (.finished (.ok .done)) with
        store := w.store.clear, writer := none }
  | leave {w : World} {i : Nat} {c : Call} {r : Except Error Reply} :
      w.calls i = some (c, .finished r) → Step w (w.leave i)

/-- A run from the start; it may rest at any moment. -/
structure Run where
  world : Nat → World
  starts : world 0 = start
  steps : ∀ n, world (n + 1) = world n ∨ Step (world n) (world (n + 1))

end World

end ComparisonChain.Store
