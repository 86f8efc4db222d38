import ComparisonChain.Proofs.Histories

/-!
# Transparency

A store changes nothing in what is answered: a call gets what some dialect reads
afresh, and that dialect was the current one at a moment between the beginning
of the call and its end. There are four ways to end. An entry that is found was
read by the dialect of that moment, and so was one that came first while this
call compiled its own; an error and a chain that is settled too late come from
the dialect that the call took. Hence each stage of a call is judged by the
dialects that were current since it began, and one lemma on a step carries this
through the whole call. When no other call is under way, there is one such
dialect only.
-/
namespace ComparisonChain.Store
open Relation (ReflTransGen)

/-- What a call is answered where nothing is kept and each text is read afresh. -/
inductive Answers (d : Dialect) : Call → Except Error Reply → Prop
  | fetched {text : List Char} {x : Shared} : d.read text = .ok x.chain →
      Answers d (.fetch text) (.ok (.shared x))
  | checked {text : List Char} {chain : Chain} (v : Int64) : d.read text = .ok chain →
      Answers d (.check text v) (.ok (.flag (chain.holds v)))
  | refused {c : Call} {text : List Char} {e : Error} : c.text? = some text →
      d.read text = .error e → Answers d c (.error e)

theorem answers_reply {d : Dialect} {c : Call} {text : List Char} {x : Shared}
    (ht : c.text? = some text) (hr : d.read text = .ok x.chain) :
    Answers d c (.ok (c.reply x)) := by
  cases c with
  | fetch => cases ht; exact .fetched hr
  | check _ v => cases ht; exact .checked v hr
  | configure | clear => cases ht

namespace World

/-- What is known of a call at a stage, where `seen` holds of the dialects that were
current since the call began. -/
def Since (seen : Installed → Prop) (c : Call) : Stage → Prop
  | .taken origin | .compiled origin _ => seen origin
  | .finished result => ∃ origin, seen origin ∧ Answers origin.dialect c result
  | _ => True

section
variable {seen : Installed → Prop} {w w' : World} {i j : Nat} {c d : Call}
  {s t u : Stage} {text : List Char}

/-- A client comes from one stage to another, be it this client or not. -/
theorem since_of_move (ht : c.text? = some text) (hi : w.calls i = some (c, s)) (h : Since seen c s)
    (hj : w.calls j = some (d, u))
    (hself : d.text? = some text → Since seen d u → Since seen d t) :
    ∃ s', (w.move j d t).calls i = some (c, s') ∧ Since seen c s' := by
  by_cases hij : i = j
  · subst hij
    cases hi.symm.trans hj
    exact ⟨t, calls_move_self w i c t, hself ht h⟩
  · exact ⟨s, (calls_move_of_ne hij d t).trans hi, h⟩

/-- A step, of this client or of another, while the call lasts. -/
theorem Since.step (hw : Coherent w) (hs : Step w w') (ht : c.text? = some text)
    (hseen : seen w.store.installed) (hi : w.calls i = some (c, s)) (h : Since seen c s)
    (hlasts : w'.calls i ≠ none) : ∃ s', w'.calls i = some (c, s') ∧ Since seen c s' := by
  cases hs with
  | @call j d hj =>
      have hij : i ≠ j := by
        intro hij
        cases (hij ▸ hj).symm.trans hi
      exact ⟨s, (calls_move_of_ne hij d .begun).trans hi, h⟩
  | hit hj ht' hfree hl =>
      have hread := (hw.faithful hfree).read_lookup? hl
      exact since_of_move ht hi h hj fun _ _ => ⟨_, hseen, answers_reply ht' hread⟩
  | miss hj => exact since_of_move ht hi h hj fun _ _ => trivial
  | take hj => exact since_of_move ht hi h hj fun _ _ => hseen
  | refuse hj ht' hr =>
      exact since_of_move ht hi h hj fun _ horigin => ⟨_, horigin, .refused ht' hr⟩
  | compile hj => exact since_of_move ht hi h hj fun _ horigin => horigin
  | @settle j d _ origin fresh hj ht' hfree =>
      refine since_of_move ht hi h hj fun _ horigin => ?_
      have hfresh := hw.reads.compiled j d origin _ fresh hj ht'
      rcases (hw.faithful hfree).read_settle fresh hfresh with hr | hr
      · exact ⟨origin, horigin, answers_reply ht' hr⟩
      · exact ⟨w.store.installed, hseen, answers_reply ht' hr⟩
  | clear hj | reject hj | accept hj | hold hj | swap hj | release hj =>
      -- such a call needs no text
      exact since_of_move ht hi h hj nofun
  | @leave j d r hj =>
      have hij : i ≠ j := by
        intro hij
        exact hlasts (hij ▸ calls_leave_self w i)
      exact ⟨s, (calls_leave_of_ne hij).trans hi, h⟩

theorem installed_of_step (hs : Step w w') :
    w'.store.installed = w.store.installed ∨ ∃ i d, w.calls i = some (.configure d, .holding) := by
  cases hs with
  | settle => exact .inl (installed_settle ..)
  | @swap i d hi => exact .inr ⟨i, d, hi⟩
  | _ => exact .inl rfl

end

/-! ## Runs -/

/-- A call that begins at one moment and is over, but not left, at another. -/
structure Run.Returns (r : Run) (i : Nat) (c : Call) (m n : Nat) (result : Except Error Reply) :
    Prop where
  le : m ≤ n
  begun : (r.world m).calls i = some (c, .begun)
  lasts : ∀ k, m ≤ k → k ≤ n → (r.world k).calls i ≠ none
  finished : (r.world n).calls i = some (c, .finished result)

/-- No other client's call is under way. -/
def Run.Alone (r : Run) (i m n : Nat) : Prop :=
  ∀ k, m ≤ k → k ≤ n → ∀ j ≠ i, ∀ c s, (r.world k).calls j = some (c, s) →
    ∃ result, s = .finished result

section
variable {r : Run} {i m n : Nat} {c : Call} {text : List Char} {result : Except Error Reply}

theorem Run.since (seen : Installed → Prop) (ht : c.text? = some text) (hmn : m ≤ n)
    (hm : (r.world m).calls i = some (c, .begun))
    (hlasts : ∀ k, m ≤ k → k ≤ n → (r.world k).calls i ≠ none)
    (hseen : ∀ k, m ≤ k → k ≤ n → seen (r.world k).store.installed) :
    ∃ s, (r.world n).calls i = some (c, s) ∧ Since seen c s := by
  induction hmn with
  | refl => exact ⟨.begun, hm, trivial⟩
  | @step n hmn ih =>
      obtain ⟨s, hi, hs⟩ := ih (fun k hk hkn => hlasts k hk (Nat.le_succ_of_le hkn))
        (fun k hk hkn => hseen k hk (Nat.le_succ_of_le hkn))
      rcases r.steps n with h | h
      · exact ⟨s, by rw [h, hi], hs⟩
      · exact hs.step (r.coherent n) h ht (hseen n hmn (Nat.le_succ n)) hi
          (hlasts (n + 1) (Nat.le_succ_of_le hmn) (Nat.le_refl _))

theorem Run.Returns.answers (h : r.Returns i c m n result) (ht : c.text? = some text)
    (seen : Installed → Prop) (hseen : ∀ k, m ≤ k → k ≤ n → seen (r.world k).store.installed) :
    ∃ origin, seen origin ∧ Answers origin.dialect c result := by
  obtain ⟨s, hi, hs⟩ := Run.since seen ht h.le h.begun h.lasts hseen
  cases hi.symm.trans h.finished
  exact hs

/-- Only a configuration replaces the dialect, and none is under way. -/
theorem Run.Returns.installed_eq (h : r.Returns i c m n result) (ht : c.text? = some text)
    (ha : r.Alone i m n) {k : Nat} (hmk : m ≤ k) (hkn : k ≤ n) :
    (r.world k).store.installed = (r.world m).store.installed := by
  induction hmk with
  | refl => rfl
  | @step k hmk ih =>
      have hk : k ≤ n := Nat.le_of_succ_le hkn
      rcases r.steps k with hs | hs
      · rw [hs]
        exact ih hk
      · rcases installed_of_step hs with hin | ⟨j, d, hj⟩
        · exact hin.trans (ih hk)
        · by_cases hji : j = i
          · subst hji
            obtain ⟨s, hi, -⟩ := Run.since (fun _ => True) ht hmk h.begun
              (fun l hl hlk => h.lasts l hl (Nat.le_trans hlk hk)) fun _ _ _ => trivial
            cases hi.symm.trans hj
            cases ht
          · obtain ⟨_, hfinished⟩ := ha k hmk hk j hji _ _ hj
            cases hfinished

/-- A call that goes from its beginning to its end is made in some run. -/
theorem exists_returns {P : World → Prop} {w w' : World} (hw : ReflTransGen Step start w)
    (hi : w.calls i = none) (hP : P (w.move i c .begun)) (hlasts : ∀ v, P v → v.calls i ≠ none)
    (h : ReflTransGen (StepInto P) (w.move i c .begun) w')
    (hfinished : w'.calls i = some (c, .finished result)) :
    ∃ (r : Run) (m n : Nat), r.Returns i c m n result ∧ r.world n = w' ∧
      ∀ k, m ≤ k → k ≤ n → P (r.world k) := by
  obtain ⟨r, m, hm⟩ := exists_run (hw.tail (.call c hi))
  rw [← hm] at h hP
  obtain ⟨r', n, hmn, hm', hn, hk⟩ := r.exists_extension hP h
  refine ⟨r', m, n, ⟨hmn, ?_, fun k hmk hkn => hlasts _ (hk k hmk hkn), ?_⟩, hn, hk⟩
  · rw [hm', hm, calls_move_self]
  · rw [hn, hfinished]

end

end World

/-- In every run a call is answered as some dialect reads that was the current one at a
moment between its beginning and its end, and as the dialect of its beginning reads if no
other call is under way. After every history, fetching and checking give what the current
dialect reads. -/
theorem transparent :
    (∀ (r : World.Run) (i : Nat) (c : Call) (text : List Char) (m n : Nat)
      (result : Except Error Reply), c.text? = some text → r.Returns i c m n result →
        (∃ k, m ≤ k ∧ k ≤ n ∧ Answers (r.world k).store.installed.dialect c result) ∧
        (r.Alone i m n → Answers (r.world m).store.installed.dialect c result)) ∧
    ∀ (history : List Request) (text : List Char),
      ((initial.after history).fetch text).result.map (·.chain) =
        (initial.after history).installed.dialect.read text ∧
      ∀ v, ((initial.after history).check text v).result =
        ((initial.after history).installed.dialect.read text).map (·.holds v) := by
  constructor
  · intro r i c text m n result ht h
    constructor
    · obtain ⟨origin, ⟨k, hmk, hkn, rfl⟩, ha⟩ := h.answers ht
        (fun o => ∃ k, m ≤ k ∧ k ≤ n ∧ (r.world k).store.installed = o)
        fun k hmk hkn => ⟨k, hmk, hkn, rfl⟩
      exact ⟨k, hmk, hkn, ha⟩
    · intro halone
      obtain ⟨origin, rfl, ha⟩ := h.answers ht (· = (r.world m).store.installed)
        fun k hmk hkn => h.installed_eq ht halone hmk hkn
      exact ha
  · intro history text
    have hread := (faithful_after history).chain_fetch text
    refine ⟨hread, fun v => ?_⟩
    rw [result_check, hread]

/-- Other words for the connectives. -/
def renamed : Dialect where
  entries := [(['E', 'T'], .and), (['O', 'U'], .or)]
  limit := none
  nodup := by decide

/-- A text is read in the standard dialect, and before its chain is settled the dialect is
replaced by one with other words, in which the text has no reading. Where no other call
is under way, a text is read in the dialect that was current at the beginning. -/
theorem transparent_renamed :
    (∃ (r : World.Run) (m n : Nat) (result : Except Error Reply),
      r.Returns 0 (.fetch worded) m n result ∧
      ¬Answers (r.world n).store.installed.dialect (.fetch worded) result ∧
      ∃ k, m ≤ k ∧ k ≤ n ∧ Answers (r.world k).store.installed.dialect (.fetch worded) result) ∧
    ∃ (r : World.Run) (m n : Nat) (result : Except Error Reply),
      r.Returns 0 (.check worded 3) m n result ∧ r.Alone 0 m n ∧
      Answers (r.world m).store.installed.dialect (.check worded 3) result := by
  constructor
  · have hpath := World.steps_fetchAround (w := .start) (i := 0) (c := .fetch worded)
      (P := fun v => v.calls 0 ≠ none)
      (fun s => ((s.configure renamed).store, (s.configure renamed).events)) rfl rfl
      (fun v s hv => by rw [hv]; nofun) fun t s =>
        World.steps_configure (i := 1) rfl rfl renamed (fun v u hv => by rw [hv]; nofun) nofun
    obtain ⟨r, m, n, hr, hn, -⟩ := World.exists_returns .refl rfl nofun (fun _ h => h) hpath rfl
    refine ⟨r, m, n, _, hr, ?_, (transparent.1 r 0 _ _ m n _ rfl hr).1⟩
    have hresult : (initial.fetchWhileConfiguring renamed worded).result =
      .ok ⟨0, ⟨⟨.greater, 1⟩, [⟨.and, ⟨.less, 5⟩⟩]⟩⟩ := by decide +kernel
    have hinstalled : (initial.fetchWhileConfiguring renamed worded).store.installed.dialect =
      renamed := by decide +kernel
    rw [hn]
    change ¬Answers (initial.fetchWhileConfiguring renamed worded).store.installed.dialect _
      ((initial.fetchWhileConfiguring renamed worded).result.map Reply.shared)
    rw [hinstalled, hresult]
    intro h
    cases h with
    | fetched hread => exact absurd hread (by decide +kernel)
  · have hpath := World.steps_fetchAround (w := .start) (i := 0) (c := .check worded 3)
      (P := fun v => v.calls 0 ≠ none ∧ ∀ j ≠ 0, v.calls j = none)
      (fun s => (s, [])) rfl rfl
      (fun v s hv => ⟨by rw [hv]; nofun, fun j hj => by rw [hv]; exact if_neg hj⟩) fun t s => .refl
    obtain ⟨r, m, n, hr, -, hothers⟩ := World.exists_returns .refl rfl
      ⟨nofun, fun j hj => if_neg hj⟩ (fun _ h => h.1) hpath rfl
    have halone : r.Alone 0 m n := by
      intro k hmk hkn j hj c s hc
      cases ((hothers k hmk hkn).2 j hj).symm.trans hc
    exact ⟨r, m, n, _, hr, halone, (transparent.1 r 0 _ _ m n _ rfl hr).2 halone⟩

end ComparisonChain.Store
