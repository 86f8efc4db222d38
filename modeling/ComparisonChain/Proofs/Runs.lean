import ComparisonChain.Store.Interleaving
import Mathlib.Logic.Relation

/-!
# Calls in steps, and runs of them

A call that one client makes is a path of steps, on which all others stay where
they were. It is told with a property of the worlds on it, for what is said of
a call often concerns each moment of it. A path that starts in a world of a run
goes on from that run, and hence every path from the start is part of some run.
-/
namespace ComparisonChain.Store
open Relation (ReflTransGen)

section
variable {s : Store} {text : List Char} {d : Dialect}

theorem configure_of_error {f : DialectFault} (hd : d.check = .error f) :
    s.configure d = ⟨.error (.dialect f), [], s⟩ := by
  simp only [configure, hd]

theorem configure_of_ok (hd : d.check = .ok ()) :
    (s.configure d).result = .ok () ∧ (s.configure d).store = (s.swap d).clear := by
  simp only [configure, hd, and_self]

variable (interlude : Store → Store × List Event)

theorem fetchAround_of_hit {x : Shared} (hl : s.lookup? text = some x) :
    s.fetchAround interlude text = ⟨.ok x, [], s⟩ := by
  simp only [fetchAround, hl]

theorem fetchAround_of_error {e : Error} (hl : s.lookup? text = none)
    (hr : s.installed.dialect.read text = .error e) :
    (s.fetchAround interlude text).result = .error e ∧
      (s.fetchAround interlude text).store = s := by
  have hr' : (s.installed.dialect.compile text).outcome = .error e := hr
  simp only [fetchAround, hl, hr', and_self]

theorem fetchAround_of_ok {chain : Chain} (hl : s.lookup? text = none)
    (hr : s.installed.dialect.read text = .ok chain) :
    (s.fetchAround interlude text).result = .ok ((interlude (s.allocate chain).2).1.settle
        s.installed text (s.allocate chain).1).1 ∧
      (s.fetchAround interlude text).store = ((interlude (s.allocate chain).2).1.settle
        s.installed text (s.allocate chain).1).2 := by
  have hr' : (s.installed.dialect.compile text).outcome = .ok chain := hr
  simp only [fetchAround, hl, hr', and_self]

end

namespace World
section
variable {w : World} {i j : Nat} {c : Call} {s : Stage} {text : List Char}

theorem calls_move_self (w : World) (i : Nat) (c : Call) (s : Stage) :
    (w.move i c s).calls i = some (c, s) :=
  if_pos rfl

theorem calls_move_of_ne (h : j ≠ i) (c : Call) (s : Stage) :
    (w.move i c s).calls j = w.calls j :=
  if_neg h

theorem calls_leave_self (w : World) (i : Nat) : (w.leave i).calls i = none := if_pos rfl

theorem calls_leave_of_ne (h : j ≠ i) : (w.leave i).calls j = w.calls j := if_neg h

/-- A call is at the stage that its client has just come to, or at the one it was at. -/
theorem calls_move_cases {d : Call} {t : Stage} (h : (w.move i d t).calls j = some (c, s)) :
    j = i ∧ d = c ∧ t = s ∨ w.calls j = some (c, s) := by
  by_cases hji : j = i
  · subst hji
    cases (calls_move_self w j d t).symm.trans h
    exact .inl ⟨rfl, rfl, rfl⟩
  · exact .inr ((calls_move_of_ne hji d t).symm.trans h)

theorem calls_of_leave (h : (w.leave i).calls j = some (c, s)) : w.calls j = some (c, s) := by
  by_cases hji : j = i
  · subst hji
    cases (calls_leave_self w j).symm.trans h
  · exact (calls_leave_of_ne hji).symm.trans h

theorem move_move (w : World) (i : Nat) (c d : Call) (s t : Stage) :
    (w.move i c s).move i d t = w.move i d t := by
  simp only [move, mk.injEq, true_and]
  funext j
  split <;> rfl

theorem leave_move (hi : w.calls i = none) (c : Call) (s : Stage) : (w.move i c s).leave i = w := by
  obtain ⟨store, writer, calls⟩ := w
  simp only [move, leave, mk.injEq, true_and]
  funext j
  split
  · next hji => rw [hji, ← hi]
  · rfl

/-! ## A call by one client

The property holds wherever this client has come to some stage, and all others
are where they were.
-/

/-- A step to a world with a property. -/
def StepInto (P : World → Prop) (w w' : World) : Prop := Step w w' ∧ P w'

theorem steps_of_stepInto {P : World → Prop} {w' : World} (h : ReflTransGen (StepInto P) w w') :
    ReflTransGen Step w w' :=
  ReflTransGen.mono (fun _ _ hs => hs.1) w w' h

section
variable {P : World → Prop}

/-- A call that comes to its end, seen from outside. -/
theorem steps_of_finished {t : Store} {result : Except Error Reply} (hi : w.calls i = none)
    (hP : ∀ v s, v.calls = (w.move i c s).calls → P v) (hend : P { w with store := t })
    (h : ReflTransGen (StepInto P) (w.move i c .begun)
      ({ w with store := t }.move i c (.finished result))) :
    ReflTransGen (StepInto P) w { w with store := t } := by
  have hcall : StepInto P w (w.move i c .begun) := ⟨.call c hi, hP _ _ rfl⟩
  have hleave := Step.leave (calls_move_self { w with store := t } i c (.finished result))
  rw [leave_move (w := { w with store := t }) hi] at hleave
  exact (ReflTransGen.head hcall h).tail ⟨hleave, hend⟩

theorem steps_configure (hi : w.calls i = none) (hw : w.writer = none) (d : Dialect)
    (hP : ∀ v s, v.calls = (w.move i (.configure d) s).calls → P v)
    (hend : P { w with store := (w.store.configure d).store }) :
    ReflTransGen (StepInto P) w { w with store := (w.store.configure d).store } := by
  suffices h : ReflTransGen (StepInto P) (w.move i (.configure d) .begun)
      ({ w with store := (w.store.configure d).store }.move i (.configure d)
        (.finished ((w.store.configure d).result.map fun _ => .done))) from
    steps_of_finished hi hP hend h
  cases hd : d.check with
  | error f =>
      have hreject := Step.reject (calls_move_self w i (.configure d) .begun) hd
      rw [move_move] at hreject
      rw [configure_of_error hd]
      exact .single ⟨hreject, hP _ _ rfl⟩
  | ok _ =>
      obtain ⟨store, writer, calls⟩ := w
      cases hw
      have haccept := Step.accept (calls_move_self ⟨store, none, calls⟩ i (.configure d) .begun) hd
      have hhold := Step.hold (calls_move_self ⟨store, none, calls⟩ i (.configure d) .checked) rfl
      have hswap := Step.swap (calls_move_self ⟨store, some i, calls⟩ i (.configure d) .holding)
      have hrelease := Step.release
        (calls_move_self ⟨store.swap d, some i, calls⟩ i (.configure d) .swapped)
      rw [move_move] at haccept hhold hswap hrelease
      obtain ⟨hresult, hstore⟩ := configure_of_ok (s := store) hd
      rw [hresult, hstore]
      exact .head ⟨haccept, hP _ _ rfl⟩ (.head ⟨hhold, hP _ _ rfl⟩
        (.head ⟨hswap, hP _ _ rfl⟩ (.single ⟨hrelease, hP _ _ rfl⟩)))

/-- A text that is not found, up to the dialect that is taken for it. -/
theorem steps_taken (ht : c.text? = some text) (hw : w.writer = none)
    (hl : w.store.lookup? text = none) (hP : ∀ v s, v.calls = (w.move i c s).calls → P v) :
    ReflTransGen (StepInto P) (w.move i c .begun) (w.move i c (.taken w.store.installed)) := by
  have hmiss := Step.miss (calls_move_self w i c .begun) ht hw hl
  have htake := Step.take (calls_move_self w i c .missed)
  rw [move_move] at hmiss htake
  exact .head ⟨hmiss, hP _ _ rfl⟩ (.single ⟨htake, hP _ _ rfl⟩)

/-- A text that is not found, up to the chain that is compiled. -/
theorem steps_compiled {chain : Chain} (ht : c.text? = some text) (hw : w.writer = none)
    (hl : w.store.lookup? text = none) (hr : w.store.installed.dialect.read text = .ok chain)
    (hP : ∀ v s, v.calls = (w.move i c s).calls → P v) :
    ReflTransGen (StepInto P) (w.move i c .begun)
      ({ w with store := (w.store.allocate chain).2 }.move i c
        (.compiled w.store.installed (w.store.allocate chain).1)) := by
  have hcompile := Step.compile (calls_move_self w i c (.taken w.store.installed)) ht hr
  rw [move_move] at hcompile
  exact (steps_taken ht hw hl hP).tail ⟨hcompile, hP _ _ rfl⟩

theorem step_settle {origin : Installed} {fresh : Shared} (ht : c.text? = some text)
    (hw : w.writer = none) :
    Step (w.move i c (.compiled origin fresh))
      ({ w with store := (w.store.settle origin text fresh).2 }.move i c
        (.finished (.ok (c.reply (w.store.settle origin text fresh).1)))) := by
  have hsettle := Step.settle (calls_move_self w i c (.compiled origin fresh)) ht hw
  rw [move_move] at hsettle
  exact hsettle

/-- A fetch, whatever happens to the store between compiling and settling. -/
theorem steps_fetchAround (interlude : Store → Store × List Event) (ht : c.text? = some text)
    (hw : w.writer = none) (hP : ∀ v s, v.calls = (w.move i c s).calls → P v)
    (hbetween : ∀ t s, ReflTransGen (StepInto P) ({ w with store := t }.move i c s)
      ({ w with store := (interlude t).1 }.move i c s)) :
    ReflTransGen (StepInto P) (w.move i c .begun)
      ({ w with store := (w.store.fetchAround interlude text).store }.move i c
        (.finished ((w.store.fetchAround interlude text).result.map c.reply))) := by
  cases hl : w.store.lookup? text with
  | some x =>
      have hhit := Step.hit (calls_move_self w i c .begun) ht hw hl
      rw [move_move] at hhit
      rw [fetchAround_of_hit _ hl]
      exact .single ⟨hhit, hP _ _ rfl⟩
  | none =>
      cases hr : w.store.installed.dialect.read text with
      | error e =>
          have hrefuse := Step.refuse (calls_move_self w i c (.taken w.store.installed)) ht hr
          rw [move_move] at hrefuse
          obtain ⟨hresult, hstore⟩ := fetchAround_of_error interlude hl hr
          rw [hresult, hstore]
          exact (steps_taken ht hw hl hP).tail ⟨hrefuse, hP _ _ rfl⟩
      | ok chain =>
          obtain ⟨hresult, hstore⟩ := fetchAround_of_ok interlude hl hr
          rw [hresult, hstore]
          have hcompiled := steps_compiled ht hw hl hr hP
          exact (hcompiled.trans (hbetween _ _)).tail ⟨step_settle ht hw, hP _ _ rfl⟩

end

/-! ## Runs -/

/-- A run up to some moment, and one more step from there. -/
def Run.extend (r : Run) (n : Nat) (hs : Step (r.world n) w) : Run where
  world k := if k ≤ n then r.world k else w
  starts := by simp [r.starts]
  steps := by
    intro k
    rcases Nat.lt_trichotomy k n with hk | hk | hk
    · have hk' : k + 1 ≤ n := hk
      simpa [hk', Nat.le_of_lt hk] using r.steps k
    · subst hk
      have hk' : ¬k + 1 ≤ k := Nat.not_succ_le_self k
      simpa [hk'] using Or.inr hs
    · have hk' : ¬k ≤ n := by omega
      have hk'' : ¬k + 1 ≤ n := by omega
      simp [hk', hk'']

theorem Run.world_extend_of_le {r : Run} {k n : Nat} (hs : Step (r.world n) w) (hk : k ≤ n) :
    (r.extend n hs).world k = r.world k :=
  if_pos hk

theorem Run.world_extend_succ {r : Run} {n : Nat} (hs : Step (r.world n) w) :
    (r.extend n hs).world (n + 1) = w :=
  if_neg (Nat.not_succ_le_self n)

section
variable {P : World → Prop} {r : Run} {m : Nat}

/-- A run that goes on, by steps that lead from one world with a property to the next. -/
theorem Run.exists_extension (r : Run) (hm : P (r.world m))
    (h : ReflTransGen (StepInto P) (r.world m) w) :
    ∃ r' : Run, ∃ n, m ≤ n ∧ r'.world m = r.world m ∧ r'.world n = w ∧
      ∀ k, m ≤ k → k ≤ n → P (r'.world k) := by
  induction h with
  | refl =>
      refine ⟨r, m, Nat.le_refl m, rfl, rfl, fun k hmk hkm => ?_⟩
      rwa [Nat.le_antisymm hkm hmk]
  | @tail v w _ hs ih =>
      obtain ⟨r', n, hmn, hm', rfl, hP⟩ := ih
      refine ⟨r'.extend n hs.1, n + 1, Nat.le_succ_of_le hmn, ?_, Run.world_extend_succ hs.1, ?_⟩
      · rw [Run.world_extend_of_le hs.1 hmn, hm']
      · intro k hmk hkn
        rcases Nat.lt_or_eq_of_le hkn with hk | rfl
        · rw [Run.world_extend_of_le hs.1 (Nat.le_of_lt_succ hk)]
          exact hP k hmk (Nat.le_of_lt_succ hk)
        · rw [Run.world_extend_succ]
          exact hs.2

/-- Whatever steps lead to a world, some run goes through it. -/
theorem exists_run (h : ReflTransGen Step start w) : ∃ r : Run, ∃ n, r.world n = w := by
  have hsteps : ReflTransGen (StepInto fun _ => True) start w :=
    ReflTransGen.mono (fun _ _ hs => ⟨hs, trivial⟩) _ _ h
  obtain ⟨r, n, -, -, hn, -⟩ :=
    Run.exists_extension (m := 0) ⟨fun _ => start, rfl, fun _ => .inl rfl⟩ trivial hsteps
  exact ⟨r, n, hn⟩

end

end

end World

end ComparisonChain.Store
