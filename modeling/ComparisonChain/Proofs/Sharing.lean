import ComparisonChain.Proofs.Transparency
import Mathlib.Data.List.Chain
import Mathlib.Tactic.IntervalCases

/-!
# One object for each text

Several clients may miss a text at once, and then each compiles a chain of its
own. The one that settles first leaves its object in the store, and those that
settle later are given that object in place of theirs. So while nobody drops the
entries or replaces the dialect, stores only grow, and a client that has fetched
a text was given the object that the store keeps for it.
-/
namespace ComparisonChain.Store

/-- The dialect is the same, and every entry is still there. -/
structure GrowsTo (s t : Store) : Prop where
  installed_eq : t.installed = s.installed
  lookup?_eq : ∀ text x, s.lookup? text = some x → t.lookup? text = some x

section
variable {s t u : Store}

theorem GrowsTo.refl (s : Store) : s.GrowsTo s := ⟨rfl, fun _ _ h => h⟩

theorem GrowsTo.trans (h : s.GrowsTo t) (h' : t.GrowsTo u) : s.GrowsTo u :=
  ⟨h'.installed_eq.trans h.installed_eq,
    fun text x hl => h'.lookup?_eq text x (h.lookup?_eq text x hl)⟩

theorem growsTo_settle (s : Store) (origin : Installed) (text : List Char) (fresh : Shared) :
    s.GrowsTo (s.settle origin text fresh).2 :=
  ⟨installed_settle s origin text fresh, fun _ _ => lookup?_settle_of_some⟩

end

namespace World

/-- The stages from which a call goes on to take effect on what others fetch: the
entries are dropped, or the dialect is replaced. -/
inductive Disturbs : Call → Stage → Prop
  | clear : Disturbs .clear .begun
  | swap (d : Dialect) : Disturbs (.configure d) .holding
  | release (d : Dialect) : Disturbs (.configure d) .swapped

/-- From one moment to the next no such call goes on. -/
def Calm (w w' : World) : Prop :=
  ∀ i c s, w.calls i = some (c, s) → Disturbs c s → w'.calls i = some (c, s)

section
variable {w w' : World} {i j : Nat} {c : Call} {text : List Char} {a : Reply}

theorem not_calm {s t : Stage} (hi : w.calls i = some (c, s)) (hd : Disturbs c s)
    (hi' : w'.calls i = some (c, t)) (hst : s ≠ t) : ¬Calm w w' := by
  intro h
  cases (h i c s hi hd).symm.trans hi'
  exact hst rfl

/-- What a step does to the store, unless it drops the entries or replaces the dialect. -/
theorem Calm.growsTo (h : Calm w w') (hs : Step w w') : w.store.GrowsTo w'.store := by
  cases hs with
  | clear hi => exact absurd h (not_calm hi .clear (calls_move_self ..) (by simp))
  | @swap _ d hi => exact absurd h (not_calm hi (.swap d) (calls_move_self ..) (by simp))
  | @release _ d hi => exact absurd h (not_calm hi (.release d) (calls_move_self ..) (by simp))
  | settle => exact growsTo_settle ..
  | compile => exact ⟨rfl, fun _ _ hl => hl⟩
  | _ => exact .refl _

/-- A call that has been answered was so before, or is answered in this step: with what
it finds, or with what it settles. -/
theorem answered_of_step (hs : Step w w') (ht : c.text? = some text)
    (hj : w'.calls j = some (c, .finished (.ok a))) :
    w.calls j = some (c, .finished (.ok a)) ∨
      (∃ x, a = c.reply x ∧ w.store.lookup? text = some x) ∨
      ∃ origin fresh, w.calls j = some (c, .compiled origin fresh) ∧
        a = c.reply (w.store.settle origin text fresh).1 ∧
        w'.store = (w.store.settle origin text fresh).2 := by
  cases hs with
  | @hit i d _ x hi ht' hw hl =>
      rcases calls_move_cases hj with ⟨rfl, rfl, hx⟩ | hold
      · cases hx
        cases ht.symm.trans ht'
        exact .inr (.inl ⟨x, rfl, hl⟩)
      · exact .inl hold
  | @settle i d _ origin fresh hi ht' hw =>
      rcases calls_move_cases hj with ⟨rfl, rfl, hx⟩ | hold
      · cases hx
        cases ht.symm.trans ht'
        exact .inr (.inr ⟨origin, fresh, hi, rfl, rfl⟩)
      · exact .inl hold
  | leave hi => exact .inl (calls_of_leave hj)
  | clear hi | release hi =>
      -- such a call needs no text
      rcases calls_move_cases hj with ⟨rfl, rfl, -⟩ | hold
      · cases ht
      · exact .inl hold
  | _ =>
      rcases calls_move_cases hj with ⟨-, -, hs⟩ | hold
      · cases hs
      · exact .inl hold

end

/-! ## Runs -/

/-- Between two moments no call takes effect on what others fetch. -/
def Run.Undisturbed (r : Run) (m n : Nat) : Prop :=
  ∀ k, m ≤ k → k < n → Calm (r.world k) (r.world (k + 1))

section
variable {r : Run} {i m n : Nat} {c : Call} {text : List Char} {a : Reply}

/-- Calls that only need texts disturb nobody. -/
theorem Run.undisturbed_of_texts
    (h : ∀ k, m ≤ k → k < n → ∀ i c s, (r.world k).calls i = some (c, s) → c.text? ≠ none) :
    r.Undisturbed m n := by
  intro k hmk hkn i c s hi hd
  have hc := h k hmk hkn i c s hi
  cases hd <;> exact absurd rfl hc

theorem Run.Undisturbed.growsTo (h : r.Undisturbed m n) {k l : Nat} (hmk : m ≤ k) (hkl : k ≤ l)
    (hln : l ≤ n) : (r.world k).store.GrowsTo (r.world l).store := by
  induction hkl with
  | refl => exact .refl _
  | @step l hkl ih =>
      refine (ih (Nat.le_of_succ_le hln)).trans ?_
      rcases r.steps l with hs | hs
      · rw [hs]
        exact .refl _
      · exact (h l (Nat.le_trans hmk hkl) hln).growsTo hs

/-- A call that begins undisturbed is answered with the object that the store keeps. -/
theorem Run.Undisturbed.lookup?_of_returns {k l : Nat} (h : r.Undisturbed m n) (hmk : m ≤ k)
    (hln : l ≤ n) (ht : c.text? = some text) (hr : r.Returns i c k l (.ok a)) :
    ∃ x, a = c.reply x ∧ (r.world l).store.lookup? text = some x := by
  obtain ⟨hkl, hbegun, hlasts, hfinished⟩ := hr
  induction hkl with
  | refl => cases hbegun.symm.trans hfinished
  | @step l hkl ih =>
      have hl : l ≤ n := Nat.le_of_succ_le hln
      have hlasts' : ∀ p, k ≤ p → p ≤ l → (r.world p).calls i ≠ none :=
        fun p hkp hpl => hlasts p hkp (Nat.le_succ_of_le hpl)
      have hgrows := h.growsTo (Nat.le_trans hmk hkl) (Nat.le_succ l) hln
      rcases r.steps l with hs | hs
      · rw [hs] at hfinished ⊢
        exact ih hl hlasts' hfinished
      · rcases answered_of_step hs ht hfinished with
          hold | ⟨x, ha, hx⟩ | ⟨origin, fresh, hi, ha, hstore⟩
        · obtain ⟨x, ha, hx⟩ := ih hl hlasts' hold
          exact ⟨x, ha, hgrows.lookup?_eq text x hx⟩
        · exact ⟨x, ha, hgrows.lookup?_eq text x hx⟩
        · -- the dialect that was taken is still the current one
          obtain ⟨s, hi', horigin⟩ := Run.since (· = (r.world l).store.installed) ht hkl hbegun
            hlasts' fun p hkp hpl => (h.growsTo (Nat.le_trans hmk hkp) hpl hl).installed_eq.symm
          cases hi'.symm.trans hi
          refine ⟨_, ha, ?_⟩
          rw [hstore]
          apply lookup?_settle_self
          rw [show origin = _ from horigin, isCurrent, beq_self_eq_true]

end

/-- While nobody drops the entries or replaces the dialect, all clients that fetch a text
and succeed are given one object, and the entry for a text stays what it is. -/
theorem Run.Undisturbed.eq_of_returns {r : Run} {m n : Nat} (h : r.Undisturbed m n)
    (text : List Char) :
    (∀ i k l a j p q b, m ≤ k → l ≤ n → m ≤ p → q ≤ n →
      r.Returns i (.fetch text) k l (.ok a) → r.Returns j (.fetch text) p q (.ok b) →
        ∃ x, a = .shared x ∧ b = .shared x) ∧
    ∀ k l x, m ≤ k → k ≤ l → l ≤ n → (r.world k).store.lookup? text = some x →
      (r.world l).store.lookup? text = some x := by
  have hstays : ∀ k l x, m ≤ k → k ≤ l → l ≤ n → (r.world k).store.lookup? text = some x →
      (r.world l).store.lookup? text = some x :=
    fun k l x hmk hkl hln => (h.growsTo hmk hkl hln).lookup?_eq text x
  refine ⟨?_, hstays⟩
  intro i k l a j p q b hmk hln hmp hqn ha hb
  obtain ⟨x, hax, hx⟩ := h.lookup?_of_returns hmk hln rfl ha
  obtain ⟨y, hby, hy⟩ := h.lookup?_of_returns hmp hqn rfl hb
  -- both objects are still there at the end
  have hxn := hstays l n x (Nat.le_trans hmk ha.le) hln (Nat.le_refl n) hx
  have hyn := hstays q n y (Nat.le_trans hmp hb.le) hqn (Nat.le_refl n) hy
  cases hxn.symm.trans hyn
  exact ⟨x, hax, hby⟩

/-! ## Two clients that both compile -/

/-- The run through some worlds that rests at the last. -/
def Run.ofChain (ws : List World) (h : (start :: ws).IsChain Step) : Run where
  world k := (start :: ws).get ⟨min k ws.length, Nat.lt_succ_of_le (Nat.min_le_right k ws.length)⟩
  starts := by simp
  steps := by
    intro k
    rcases Nat.lt_or_ge k ws.length with hk | hk
    · have hstep := List.isChain_iff_getElem.mp h k (by simpa using hk)
      simpa [Nat.min_eq_left hk, Nat.min_eq_left (Nat.le_of_lt hk)] using Or.inr hstep
    · simp [Nat.min_eq_right hk, Nat.min_eq_right (Nat.le_succ_of_le hk)]

section
variable {c : Call} {s t : Store} {a b : Option Stage} {p : Stage} {text : List Char}
  {chain : Chain}

/-- Two clients with one call, and nobody holds the store. -/
def pair (c : Call) (s : Store) (a b : Option Stage) : World where
  store := s
  writer := none
  calls j := (if j = 0 then a else if j = 1 then b else none).map (c, ·)

theorem step_left (h : Step (pair c s a b) { (pair c s a b).move 0 c p with store := t }) :
    Step (pair c s a b) (pair c t (some p) b) := by
  convert h using 1
  simp only [pair, move, mk.injEq, true_and]
  funext j
  split <;> rfl

theorem step_right (h : Step (pair c s a b) { (pair c s a b).move 1 c p with store := t }) :
    Step (pair c s a b) (pair c t a (some p)) := by
  convert h using 1
  simp only [pair, move, mk.injEq, true_and]
  funext j
  split
  · next h0 => simp [h0]
  · split <;> rfl

theorem text?_of_pair (hc : c.text? = some text) {i : Nat} {d : Call}
    (hi : (pair c s a b).calls i = some (d, p)) : d.text? ≠ none := by
  obtain ⟨_, -, h⟩ := Option.map_eq_some_iff.mp hi
  cases h
  rw [hc]
  nofun

/-- Two clients miss a text before either settles, and the one that was first to begin is
the last to settle. -/
def race (text : List Char) (chain : Chain) : List World :=
  let origin := initial.installed
  let (first, once) := initial.allocate chain
  let (second, twice) := once.allocate chain
  let (kept, full) := twice.settle origin text second
  let (given, final) := full.settle origin text first
  [pair (.fetch text) initial (some .begun) none,
   pair (.fetch text) initial (some .begun) (some .begun),
   pair (.fetch text) initial (some .missed) (some .begun),
   pair (.fetch text) initial (some .missed) (some .missed),
   pair (.fetch text) initial (some (.taken origin)) (some .missed),
   pair (.fetch text) initial (some (.taken origin)) (some (.taken origin)),
   pair (.fetch text) once (some (.compiled origin first)) (some (.taken origin)),
   pair (.fetch text) twice (some (.compiled origin first)) (some (.compiled origin second)),
   pair (.fetch text) full (some (.compiled origin first)) (some (.finished (.ok (.shared kept)))),
   pair (.fetch text) final (some (.finished (.ok (.shared given))))
     (some (.finished (.ok (.shared kept))))]

theorem isChain_race (hr : Dialect.standard.read text = .ok chain) :
    (start :: race text chain).IsChain Step := by
  have hstart : start = pair (.fetch text) initial none none := by
    simp [start, pair]
  rw [hstart]
  simp only [race, List.isChain_cons_cons, List.isChain_singleton, and_true]
  exact ⟨step_left (.call _ rfl), step_right (.call _ rfl), step_left (.miss rfl rfl rfl rfl),
    step_right (.miss rfl rfl rfl rfl), step_left (.take rfl), step_right (.take rfl),
    step_left (.compile rfl rfl hr), step_right (.compile rfl rfl hr),
    step_right (.settle rfl rfl rfl), step_left (.settle rfl rfl rfl)⟩

theorem text?_of_mem_race {w : World} (hw : w ∈ start :: race text chain) (i : Nat) (d : Call)
    (p : Stage) (hi : w.calls i = some (d, p)) : d.text? ≠ none := by
  simp only [race, List.mem_cons, List.not_mem_nil, or_false] at hw
  rcases hw with rfl | rfl | rfl | rfl | rfl | rfl | rfl | rfl | rfl | rfl | rfl
  · cases hi
  all_goals exact text?_of_pair (c := .fetch text) rfl hi

theorem undisturbed_race (hr : Dialect.standard.read text = .ok chain) :
    (Run.ofChain _ (isChain_race hr)).Undisturbed 0 10 :=
  Run.undisturbed_of_texts fun _ _ _ => text?_of_mem_race (List.get_mem ..)

theorem returns_race (hr : Dialect.standard.read text = .ok chain) :
    (∃ x, (Run.ofChain _ (isChain_race hr)).Returns 0 (.fetch text) 1 10 (.ok (.shared x))) ∧
      (Run.ofChain _ (isChain_race hr)).Returns 1 (.fetch text) 2 9 (.ok (.shared ⟨1, chain⟩)) := by
  refine ⟨⟨_, by decide, rfl, ?_, rfl⟩, by decide, rfl, ?_, rfl⟩
  · intro k hk hk'
    interval_cases k <;> nofun
  · intro k hk hk'
    interval_cases k <;> nofun

end

/-- Each client compiles an object of its own, and both are given the one that was settled
first. -/
theorem eq_of_returns_race : ∃ (r : Run) (o : Installed) (x y : Shared), r.Undisturbed 0 10 ∧
    (r.world 8).calls 0 = some (.fetch worded, .compiled o x) ∧
    (r.world 8).calls 1 = some (.fetch worded, .compiled o y) ∧ x ≠ y ∧
    r.Returns 0 (.fetch worded) 1 10 (.ok (.shared y)) ∧
    r.Returns 1 (.fetch worded) 2 9 (.ok (.shared y)) ∧
    (r.world 10).store.lookup? worded = some y := by
  have hr : Dialect.standard.read worded =
    .ok ⟨⟨.greater, 1⟩, [⟨.and, ⟨.less, 5⟩⟩]⟩ := by decide +kernel
  have hcalm := undisturbed_race hr
  obtain ⟨⟨z, hz⟩, hy⟩ := returns_race hr
  obtain ⟨hone, hstays⟩ := hcalm.eq_of_returns worded
  have hle : 0 ≤ 1 ∧ 10 ≤ 10 ∧ 0 ≤ 2 ∧ 9 ≤ 10 := by decide
  obtain ⟨x, hzx, hyx⟩ := hone 0 1 10 _ 1 2 9 _ hle.1 hle.2.1 hle.2.2.1 hle.2.2.2 hz hy
  cases hzx
  cases hyx
  exact ⟨_, initial.installed, ⟨0, _⟩, ⟨1, _⟩, hcalm, rfl, rfl, nofun, hz, hy,
    hstays 9 10 _ (Nat.zero_le 9) (Nat.le_succ 9) (Nat.le_refl 10) rfl⟩

end World

end ComparisonChain.Store
