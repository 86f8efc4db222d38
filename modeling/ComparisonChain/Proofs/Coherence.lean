import ComparisonChain.Proofs.Runs
import Mathlib.Data.Nat.Basic

/-!
# What a store holds

A client compiles under a dialect that it took some steps ago, and that may
have been replaced since. So nothing can be said of the entries alone: the
invariant covers the objects that clients are about to settle as well, and each
of these is judged by the dialect it was compiled under. An entry is settled
only while that dialect is the current one, and while nobody is between a swap
and the end of it.
-/
namespace ComparisonChain.Store
open Relation (ReflTransGen)

/-- The current dialect, or one installed before it. -/
def Knows (s : Store) (origin : Installed) : Prop :=
  origin = s.installed ∨ origin.generation < s.installed.generation

section
variable {s : Store} {origin : Installed} {text : List Char} {fresh : Shared}

theorem Knows.swap (h : s.Knows origin) (d : Dialect) : (s.swap d).Knows origin := by
  have hle : origin.generation ≤ s.installed.generation := by
    rcases h with rfl | h
    · exact Nat.le_refl _
    · exact Nat.le_of_lt h
  exact .inr (Nat.lt_succ_of_le hle)

theorem eq_of_isCurrent (h : s.Knows origin) (hc : s.isCurrent origin = true) :
    origin = s.installed := by
  rcases h with h | h
  · exact h
  · rw [isCurrent, beq_iff_eq] at hc
    omega

theorem installed_settle (s : Store) (origin : Installed) (text : List Char) (fresh : Shared) :
    (s.settle origin text fresh).2.installed = s.installed := by
  unfold settle
  split
  · split <;> rfl
  · rfl

theorem nextId_settle (s : Store) (origin : Installed) (text : List Char) (fresh : Shared) :
    (s.settle origin text fresh).2.nextId = s.nextId := by
  unfold settle
  split
  · split <;> rfl
  · rfl

/-- A chain that is settled where it was compiled. -/
theorem settle_allocate (hl : s.lookup? text = none) (chain : Chain) :
    (s.allocate chain).2.settle s.installed text (s.allocate chain).1 = ((s.allocate chain).1,
      { (s.allocate chain).2 with entries := s.entries ++ [(text, (s.allocate chain).1)] }) := by
  have hl' : (s.allocate chain).2.lookup? text = none := hl
  have hcurrent : (s.allocate chain).2.isCurrent s.installed = true := by
    simp [isCurrent, allocate]
  simp only [settle, hcurrent, hl', if_true]
  rfl

theorem fetch_of_miss {chain : Chain} (hl : s.lookup? text = none)
    (hr : s.installed.dialect.read text = .ok chain) :
    (s.fetch text).result = .ok (s.allocate chain).1 ∧ (s.fetch text).store =
      { (s.allocate chain).2 with entries := s.entries ++ [(text, (s.allocate chain).1)] } := by
  obtain ⟨hresult, hstore⟩ := fetchAround_of_ok (fun s => (s, [])) hl hr
  rw [settle_allocate hl] at hresult hstore
  exact ⟨hresult, hstore⟩

theorem settle_of_stale (hc : s.isCurrent origin = false) :
    s.settle origin text fresh = (fresh, s) := by
  simp only [settle, hc, Bool.false_eq_true, if_false]

theorem lookup?_settle_of_some {t : List Char} {x : Shared} (hl : s.lookup? t = some x) :
    (s.settle origin text fresh).2.lookup? t = some x := by
  unfold settle
  split
  · split
    · exact hl
    · simp only [lookup?, List.lookup_append] at hl ⊢
      rw [hl]
      rfl
  · exact hl

/-- Whoever settles in time is given the object that is kept from then on. -/
theorem lookup?_settle_self (hc : s.isCurrent origin = true) :
    (s.settle origin text fresh).2.lookup? text = some (s.settle origin text fresh).1 := by
  unfold settle
  rw [if_pos hc]
  split
  · next hl => exact hl
  · next hl =>
      simp only [lookup?, List.lookup_append] at hl ⊢
      rw [hl]
      simp

theorem mem_entries_settle {e : List Char × Shared}
    (h : e ∈ (s.settle origin text fresh).2.entries) :
    e ∈ s.entries ∨ s.isCurrent origin = true ∧ e = (text, fresh) := by
  unfold settle at h
  split at h
  · next hc =>
      split at h
      · exact .inl h
      · rcases List.mem_append.mp h with h | h
        · exact .inl h
        · exact .inr ⟨hc, List.mem_singleton.mp h⟩
  · exact .inl h

end

namespace World

/-- Somebody has replaced the dialect, and the entries are still to be cleared. -/
def Swapped (w : World) : Prop := ∃ i c, w.calls i = some (c, .swapped)

/-- What can be relied on while a client is at a stage. -/
def Fits (w : World) (i : Nat) : Stage → Prop
  | .taken origin | .compiled origin _ => w.store.Knows origin
  | .holding | .swapped => w.writer = some i
  | _ => True

def Orderly (w : World) : Prop := ∀ i c s, w.calls i = some (c, s) → w.Fits i s

section
variable {w w' : World} {i j : Nat} {c : Call} {s : Stage}

/-! ## Order of the clients -/

theorem orderly_start : Orderly start := by
  intro i c s h
  cases h

theorem Orderly.move (h : Orderly w) (hs : w.Fits i s) : Orderly (w.move i c s) := by
  intro j c' s' hj
  rcases calls_move_cases hj with ⟨rfl, -, rfl⟩ | hold
  · exact hs
  · exact h j c' s' hold

theorem Orderly.leave (h : Orderly w) (i : Nat) : Orderly (w.leave i) :=
  fun j c s hj => h j c s (calls_of_leave hj)

theorem Orderly.with_store {t : Store} (h : Orderly w)
    (ht : ∀ origin, w.store.Knows origin → t.Knows origin) : Orderly { w with store := t } := by
  intro j c s hj
  have hs := h j c s hj
  cases s with
  | taken origin => exact ht origin hs
  | compiled origin fresh => exact ht origin hs
  | _ => exact hs

/-- Nobody holds the store, so no call is at a stage at which it would. -/
theorem Orderly.hold (h : Orderly w) (hw : w.writer = none) :
    Orderly { w with writer := some i } := by
  intro j c s hj
  have hs := h j c s hj
  cases s with
  | holding => cases hw.symm.trans hs
  | swapped => cases hw.symm.trans hs
  | _ => exact hs

theorem Orderly.not_swapped (h : Orderly w) (hw : w.writer = none) : ¬w.Swapped := by
  intro hswapped
  obtain ⟨i, c, hc⟩ := hswapped
  cases hw.symm.trans (h i c .swapped hc)

/-- The client that held the store was the only one to do so. -/
theorem Orderly.release {t : Store} {r : Except Error Reply} (h : Orderly w)
    (hi : w.calls i = some (c, .swapped))
    (ht : ∀ origin, w.store.Knows origin → t.Knows origin) :
    Orderly { w.move i c (.finished r) with store := t, writer := none } := by
  have hwriter : w.writer = some i := h i c .swapped hi
  intro j c' s hj
  by_cases hji : j = i
  · subst hji
    cases (calls_move_self w j c _).symm.trans hj
    exact trivial
  · have hs := h j c' s ((calls_move_of_ne hji c _).symm.trans hj)
    cases s with
    | holding => exact absurd (Option.some.inj (hs.symm.trans hwriter)) hji
    | swapped => exact absurd (Option.some.inj (hs.symm.trans hwriter)) hji
    | taken origin => exact ht origin hs
    | compiled origin fresh => exact ht origin hs
    | _ => exact trivial

theorem Orderly.step (h : Orderly w) (hs : Step w w') : Orderly w' := by
  cases hs with
  | call c hi => exact h.move trivial
  | hit hi ht hw hx => exact h.move trivial
  | miss hi ht hw hx => exact h.move trivial
  | take hi => exact h.move (.inl rfl)
  | refuse hi ht he => exact h.move trivial
  | @compile i c text origin chain hi ht hc =>
      have hknown : w.store.Knows origin := h i c (.taken origin) hi
      exact (h.with_store fun _ ho => ho).move hknown
  | @settle i c text origin fresh hi ht hw =>
      have hin := installed_settle w.store origin text fresh
      refine (h.with_store fun o ho => ?_).move trivial
      unfold Knows
      rw [hin]
      exact ho
  | clear hi hw => exact (h.with_store fun _ ho => ho).move trivial
  | reject hi hf => exact h.move trivial
  | accept hi hd => exact h.move trivial
  | hold hi hw => exact (h.hold hw).move rfl
  | swap hi => exact (h.with_store fun _ ho => ho.swap _).move (h _ _ _ hi)
  | release hi => exact h.release hi fun _ ho => ho
  | leave hi => exact h.leave _

/-! ## Objects in a step -/

/-- A client that has compiled had done so before, or does it in this step. -/
theorem compiled_of_step {origin : Installed} {x : Shared} (hs : Step w w')
    (hj : w'.calls j = some (c, .compiled origin x)) :
    w.calls j = some (c, .compiled origin x) ∨
      ∃ text chain, w.calls j = some (c, .taken origin) ∧ c.text? = some text ∧
        origin.dialect.read text = .ok chain ∧ x = (w.store.allocate chain).1 ∧
          w' = { w.move j c (.compiled origin x) with store := (w.store.allocate chain).2 } := by
  cases hs with
  | @compile i d text origin' chain hi ht hc =>
      rcases calls_move_cases hj with ⟨rfl, rfl, hx⟩ | hold
      · cases hx
        exact .inr ⟨text, chain, hi, ht, hc, rfl, rfl⟩
      · exact .inl hold
  | leave hi => exact .inl (calls_of_leave hj)
  | _ =>
      rcases calls_move_cases hj with ⟨-, -, hs⟩ | hold
      · cases hs
      · exact .inl hold

theorem Swapped.move (h : w.Swapped) (hi : ∀ d, w.calls i ≠ some (d, .swapped)) :
    (w.move i c s).Swapped := by
  obtain ⟨j, d, hj⟩ := h
  have hji : j ≠ i := by
    intro hji
    subst hji
    exact hi d hj
  exact ⟨j, d, (calls_move_of_ne hji c s).trans hj⟩

theorem Swapped.leave (h : w.Swapped) (hi : ∀ d, w.calls i ≠ some (d, .swapped)) :
    (w.leave i).Swapped := by
  obtain ⟨j, d, hj⟩ := h
  have hji : j ≠ i := by
    intro hji
    subst hji
    exact hi d hj
  exact ⟨j, d, (calls_leave_of_ne hji).trans hj⟩

/-- An entry was there before, under the same dialect, or is settled in this step
by a client that compiled it under the current one. -/
theorem entry_of_step {e : List Char × Shared} (ho : Orderly w) (hs : Step w w')
    (hw : ¬w'.Swapped) (he : e ∈ w'.store.entries) :
    (¬w.Swapped ∧ w'.store.installed = w.store.installed ∧ e ∈ w.store.entries) ∨
      ∃ i c, w.calls i = some (c, .compiled w'.store.installed e.2) ∧ c.text? = some e.1 := by
  cases hs with
  | @settle i c text origin fresh hi ht hfree =>
      have hin := installed_settle w.store origin text fresh
      rcases mem_entries_settle he with he | ⟨hc, rfl⟩
      · exact .inl ⟨ho.not_swapped hfree, hin, he⟩
      · have horigin := eq_of_isCurrent (ho i c _ hi) hc
        refine .inr ⟨i, c, ?_, ht⟩
        rw [hin, ← horigin]
        exact hi
  | clear hi hfree => cases he
  | @swap i d hi => exact absurd ⟨i, _, calls_move_self w i _ _⟩ hw
  | release hi => cases he
  | leave hi => exact .inl ⟨fun h => hw (h.leave (by simp [hi])), rfl, he⟩
  | call _ hi | hit hi | miss hi | take hi | refuse hi | compile hi | reject hi | accept hi
  | hold hi => exact .inl ⟨fun h => hw (h.move (by simp [hi])), rfl, he⟩

/-- What holds of the objects that clients have compiled, each under the dialect
it was compiled under, and of the entries, under the current one. -/
structure Keeps (P : Installed → List Char → Shared → Prop) (w : World) : Prop where
  compiled : ∀ i c origin text x, w.calls i = some (c, .compiled origin x) →
    c.text? = some text → P origin text x
  entries : ¬w.Swapped → ∀ e ∈ w.store.entries, P w.store.installed e.1 e.2

theorem Keeps.mono {P Q : Installed → List Char → Shared → Prop} (h : Keeps P w)
    (hpq : ∀ o t x, P o t x → Q o t x) : Keeps Q w :=
  ⟨fun i c o t x hi ht => hpq o t x (h.compiled i c o t x hi ht),
    fun hw e he => hpq _ _ _ (h.entries hw e he)⟩

/-- It goes on to hold if it holds of what a client compiles in this step. -/
theorem Keeps.step {P : Installed → List Char → Shared → Prop} (ho : Orderly w) (h : Keeps P w)
    (hs : Step w w')
    (hnew : ∀ i c origin text chain, w.calls i = some (c, .taken origin) → c.text? = some text →
      origin.dialect.read text = .ok chain →
        w' = { w.move i c (.compiled origin (w.store.allocate chain).1) with
          store := (w.store.allocate chain).2 } →
          P origin text (w.store.allocate chain).1) : Keeps P w' := by
  constructor
  · intro i c origin text x hi ht
    rcases compiled_of_step hs hi with hold | ⟨text', chain, htaken, ht', hc, rfl, hw⟩
    · exact h.compiled i c origin text x hold ht
    · cases ht.symm.trans ht'
      exact hnew i c origin text chain htaken ht hc hw
  · intro hw e he
    rcases entry_of_step ho hs hw he with ⟨hw, hin, he⟩ | ⟨i, c, hi, ht⟩
    · rw [hin]
      exact h.entries hw e he
    · exact h.compiled i c _ e.1 e.2 hi ht

theorem nextId_le_of_step (hs : Step w w') : w.store.nextId ≤ w'.store.nextId := by
  cases hs with
  | compile => exact Nat.le_succ _
  | settle => exact Nat.le_of_eq (nextId_settle ..).symm
  | _ => exact Nat.le_refl _

/-! ## Runs -/

/-- Objects are compiled as their dialects read, numbered below the next number,
and told apart by their numbers. -/
structure Coherent (w : World) : Prop where
  orderly : Orderly w
  reads : Keeps (fun o t x => o.dialect.read t = .ok x.chain) w
  below : Keeps (fun _ _ x => x.id < w.store.nextId) w
  apart : ∀ i c origin text x, w.calls i = some (c, .compiled origin x) → c.text? = some text →
    Keeps (fun o _ y => y.id = x.id → o = origin) w

theorem coherent_start : Coherent start := by
  have hkeeps : ∀ P, Keeps P start := fun P => ⟨by simp [start], by simp [start, initial]⟩
  exact ⟨orderly_start, hkeeps _, hkeeps _, fun _ _ _ _ _ _ _ => hkeeps _⟩

/-- A number that is taken stays with the dialect of its object. -/
theorem Coherent.apart_step {origin : Installed} {k : Nat} (h : Coherent w) (hs : Step w w')
    (hk : k < w.store.nextId) (ha : Keeps (fun o _ y => y.id = k → o = origin) w) :
    Keeps (fun o _ y => y.id = k → o = origin) w' := by
  refine ha.step h.orderly hs ?_
  intro i c o text chain _ _ _ _ hid
  have hid' : w.store.nextId = k := hid
  omega

/-- A step that compiles is one client's, under one dialect. -/
theorem origin_eq_of_move {d : Call} {origin o : Installed} {x y : Shared} {p q : Store}
    (hi : w.calls i = some (c, .taken origin))
    (h : ({ w.move i c (.compiled origin x) with store := p } : World) =
      { w.move j d (.compiled o y) with store := q }) : o = origin := by
  have hcalls := congrFun (congrArg World.calls h) i
  change (w.move i c _).calls i = (w.move j d _).calls i at hcalls
  rw [calls_move_self] at hcalls
  by_cases hij : i = j
  · subst hij
    cases hcalls.trans (calls_move_self w i d _)
    rfl
  · rw [calls_move_of_ne hij, hi] at hcalls
    cases hcalls

theorem Coherent.step (h : Coherent w) (hs : Step w w') : Coherent w' := by
  have hle := nextId_le_of_step hs
  constructor
  · exact h.orderly.step hs
  · exact h.reads.step h.orderly hs fun i c o text chain _ _ hc _ => hc
  · refine (h.below.mono fun _ _ x hx => Nat.lt_of_lt_of_le hx hle).step h.orderly hs ?_
    intro i c o text chain _ _ _ hw
    rw [hw]
    exact Nat.lt_succ_self _
  · intro i c origin text x hi ht
    rcases compiled_of_step hs hi with hold | ⟨text', chain, htaken, _, _, rfl, hw⟩
    · exact h.apart_step hs (h.below.compiled i c origin text x hold ht)
        (h.apart i c origin text x hold ht)
    · -- no object has the new number yet
      refine (h.below.mono fun _ _ y hy hid => ?_).step h.orderly hs ?_
      · have hid' : y.id = w.store.nextId := hid
        omega
      · intro i' c' o _ chain' _ _ _ hw' _
        exact origin_eq_of_move htaken (hw.symm.trans hw')

theorem Run.preserved (r : Run) {I : World → Prop} (hstep : ∀ w w', I w → Step w w' → I w')
    {m n : Nat} (hmn : m ≤ n) (hm : I (r.world m)) : I (r.world n) := by
  induction hmn with
  | refl => exact hm
  | @step n _ ih =>
      rcases r.steps n with h | h
      · rwa [h]
      · exact hstep _ _ ih h

theorem Run.coherent (r : Run) (n : Nat) : Coherent (r.world n) := by
  apply r.preserved (fun _ _ => Coherent.step) (Nat.zero_le n)
  rw [r.starts]
  exact coherent_start

/-- While nobody holds the store for writing, every entry is what the current
dialect reads in its text, and no entry is an object that some client compiled
under a dialect that has been replaced since. -/
theorem Run.entries_current (r : Run) (n : Nat) (hw : (r.world n).writer = none) :
    (∀ e ∈ (r.world n).store.entries,
      (r.world n).store.installed.dialect.read e.1 = .ok e.2.chain) ∧
    ∀ m ≤ n, ∀ i c origin text x, (r.world m).calls i = some (c, .compiled origin x) →
      c.text? = some text → origin ≠ (r.world n).store.installed →
        ∀ e ∈ (r.world n).store.entries, e.2.id ≠ x.id := by
  have hfree := (r.coherent n).orderly.not_swapped hw
  refine ⟨(r.coherent n).reads.entries hfree, ?_⟩
  intro m hmn i c origin text x hi ht hne e he hid
  have hkeeps : Coherent (r.world n) ∧ x.id < (r.world n).store.nextId ∧
      Keeps (fun o _ y => y.id = x.id → o = origin) (r.world n) := by
    refine r.preserved (I := fun w => Coherent w ∧ x.id < w.store.nextId ∧
      Keeps (fun o _ y => y.id = x.id → o = origin) w) ?_ hmn ?_
    · intro w w' h hs
      exact ⟨h.1.step hs, Nat.lt_of_lt_of_le h.2.1 (nextId_le_of_step hs),
        h.1.apart_step hs h.2.1 h.2.2⟩
    · have hm := r.coherent m
      exact ⟨hm, hm.below.compiled i c origin text x hi ht, hm.apart i c origin text x hi ht⟩
  exact hne (hkeeps.2.2.entries hfree e he hid).symm

end

/-! ## A dialect replaced in between -/

section
variable {d : Dialect} {text : List Char} {before after : Chain}

/-- One client with a call, and nobody holds the store. -/
def alone (s : Store) (c : Call) (p : Stage) : World := { start with store := s }.move 0 c p

theorem steps_alone_configure (hd : d.check = .ok ()) (s : Store) (c : Call) (p : Stage) :
    ReflTransGen (StepInto fun _ => True) (alone s c p) (alone (s.swap d).clear c p) := by
  have hsteps : ReflTransGen (StepInto fun _ => True) (alone s c p)
      (alone (s.configure d).store c p) :=
    steps_configure (w := alone s c p) (i := 1) rfl rfl d (fun _ _ _ => trivial) trivial
  rwa [(configure_of_ok hd).2] at hsteps

theorem step_alone_settle {s : Store} {c : Call} {origin : Installed} {fresh : Shared}
    (ht : c.text? = some text) (hc : s.isCurrent origin = false) :
    Step (alone s c (.compiled origin fresh)) (alone s c (.finished (.ok (c.reply fresh)))) := by
  have hstep : Step (alone s c (.compiled origin fresh)) (alone (s.settle origin text fresh).2 c
      (.finished (.ok (c.reply (s.settle origin text fresh).1)))) := step_settle ht rfl
  rwa [settle_of_stale hc] at hstep

theorem steps_alone_fetch {s : Store} {chain : Chain} (hl : s.lookup? text = none)
    (hr : s.installed.dialect.read text = .ok chain) (c : Call) (p : Stage) :
    ReflTransGen (StepInto fun _ => True) (alone s c p)
      (alone { (s.allocate chain).2 with
        entries := s.entries ++ [(text, (s.allocate chain).1)] } c p) := by
  have hsteps : ReflTransGen (StepInto fun _ => True) (alone s c p)
      (alone (s.fetch text).store c p) :=
    steps_of_finished (w := alone s c p) (i := 2) (c := .fetch text) rfl (fun _ _ _ => trivial)
      trivial (steps_fetchAround _ rfl rfl (fun _ _ _ => trivial) fun _ _ => .refl)
  rwa [(fetch_of_miss hl hr).2] at hsteps

/-- A client compiles a text, the dialect is replaced, the client settles, and then another one
fetches the text. -/
theorem exists_run_of_replaced (hd : d.check = .ok ())
    (hb : Dialect.standard.read text = .ok before) (ha : d.read text = .ok after) :
    ∃ (r : Run) (m n : Nat), m ≤ n ∧
      (r.world m).calls 0 = some (.fetch text, .compiled initial.installed ⟨0, before⟩) ∧
      (r.world n).calls 0 = some (.fetch text, .finished (.ok (.shared ⟨0, before⟩))) ∧
      (r.world n).writer = none ∧ (r.world n).store = ⟨⟨1, d⟩, [(text, ⟨1, after⟩)], 2⟩ := by
  have hcompiled : ReflTransGen Step (start.move 0 (.fetch text) .begun)
      (alone ⟨initial.installed, [], 1⟩ (.fetch text) (.compiled initial.installed ⟨0, before⟩)) :=
    steps_of_stepInto (steps_compiled (P := fun _ => True) rfl rfl rfl hb fun _ _ _ => trivial)
  obtain ⟨r, m, hm⟩ := exists_run (hcompiled.head (.call _ rfl))
  have hexchanged := steps_alone_configure hd ⟨initial.installed, [], 1⟩ (.fetch text)
    (.compiled initial.installed ⟨0, before⟩)
  have hsettled := hexchanged.tail ⟨step_alone_settle rfl rfl, trivial⟩
  have hfetched := hsettled.trans (steps_alone_fetch rfl ha _ _)
  rw [← hm] at hfetched
  obtain ⟨r', n, hmn, hm', hn, -⟩ := r.exists_extension trivial hfetched
  exact ⟨r', m, n, hmn, by rw [hm', hm]; rfl, by rw [hn]; rfl, by rw [hn]; rfl, by rw [hn]; rfl⟩

end

end World

def worded : List Char := "(n > 1) AND (n < 5)".toList

/-- The connectives with each other's words. -/
def exchanged : Dialect where
  entries := [("AND".toList, .or), ("OR".toList, .and)]
  limit := none
  nodup := by decide

/-- Both dialects read the text, each in its own way. The client that has compiled it before
gets what it compiled, and the store keeps what is compiled afterwards. -/
theorem entries_current_after_exchange :
    ∃ (r : World.Run) (m n : Nat) (stale kept : Shared), m ≤ n ∧
      (r.world m).calls 0 = some (.fetch worded, .compiled initial.installed stale) ∧
      (r.world n).calls 0 = some (.fetch worded, .finished (.ok (.shared stale))) ∧
      (r.world n).writer = none ∧ initial.installed ≠ (r.world n).store.installed ∧
      (r.world n).store.entries = [(worded, kept)] ∧ kept.chain ≠ stale.chain ∧
      (r.world n).store.installed.dialect.read worded = .ok kept.chain ∧ kept.id ≠ stale.id := by
  have hbefore : Dialect.standard.read worded =
      .ok ⟨⟨.greater, 1⟩, [⟨.and, ⟨.less, 5⟩⟩]⟩ := by decide +kernel
  have hafter : exchanged.read worded =
      .ok ⟨⟨.greater, 1⟩, [⟨.or, ⟨.less, 5⟩⟩]⟩ := by decide +kernel
  obtain ⟨r, m, n, hmn, hm, hn, hw, hstore⟩ := World.exists_run_of_replaced rfl hbefore hafter
  obtain ⟨hreads, hgone⟩ := r.entries_current n hw
  have hreplaced : initial.installed ≠ (r.world n).store.installed := by
    rw [hstore]
    nofun
  have hentries : (r.world n).store.entries =
      [(worded, ⟨1, ⟨⟨.greater, 1⟩, [⟨.or, ⟨.less, 5⟩⟩]⟩⟩)] := by rw [hstore]
  have hmem := hentries ▸ List.mem_singleton_self _
  exact ⟨r, m, n, _, _, hmn, hm, hn, hw, hreplaced, hentries, nofun, hreads _ hmem,
    hgone m hmn 0 _ _ worded _ hm rfl hreplaced _ hmem⟩

end ComparisonChain.Store
