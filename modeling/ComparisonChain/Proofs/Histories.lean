import ComparisonChain.Proofs.Coherence

/-!
# Histories among the interleavings

A history is a list of calls, each of which ends before the next begins. It is
one of the interleavings: every call of it can be taken apart into the steps of a
client, with the same store and the same result at the end. Hence what holds in
all runs holds after a history, and fetching a text gives what the current
dialect reads in it.
-/
namespace ComparisonChain.Store
open Relation (ReflTransGen)

/-- Every entry is what the current dialect reads in its text. -/
def Faithful (s : Store) : Prop :=
  ∀ e ∈ s.entries, s.installed.dialect.read e.1 = .ok e.2.chain

section
variable {s : Store} {text : List Char}

theorem Faithful.read_lookup? {x : Shared} (h : s.Faithful) (hl : s.lookup? text = some x) :
    s.installed.dialect.read text = .ok x.chain := by
  obtain ⟨before, after, he, -⟩ := List.lookup_eq_some_iff.mp hl
  exact h (text, x) (by simp [he])

/-- What a caller gets was read by the dialect that it took or, where another object
came first, by the current one. -/
theorem Faithful.read_settle {origin : Installed} (fresh : Shared) (h : s.Faithful)
    (hr : origin.dialect.read text = .ok fresh.chain) :
    origin.dialect.read text = .ok (s.settle origin text fresh).1.chain ∨
      s.installed.dialect.read text = .ok (s.settle origin text fresh).1.chain := by
  unfold settle
  split
  · split
    · next x hl => exact .inr (h.read_lookup? hl)
    · exact .inl hr
  · exact .inl hr

theorem Faithful.chain_fetch (hs : s.Faithful) (text : List Char) :
    (s.fetch text).result.map (·.chain) = s.installed.dialect.read text := by
  unfold fetch
  cases hl : s.lookup? text with
  | some x =>
      rw [fetchAround_of_hit _ hl, hs.read_lookup? hl]
      rfl
  | none =>
      cases hr : s.installed.dialect.read text with
      | error e =>
          rw [(fetchAround_of_error _ hl hr).1]
          rfl
      | ok chain =>
          have hallocated : (s.allocate chain).2.Faithful := hs
          have hsettled := hallocated.read_settle (s.allocate chain).1 hr
          rw [(fetchAround_of_ok _ hl hr).1]
          exact hr ▸ hsettled.elim Eq.symm Eq.symm

theorem result_check (s : Store) (text : List Char) (v : Int64) :
    (s.check text v).result = ((s.fetch text).result.map (·.chain)).map (·.holds v) := by
  change (s.fetch text).result.map (fun x => x.chain.holds v) = _
  cases (s.fetch text).result <;> rfl

end

/-! ## Histories in steps -/

namespace World
section
variable {w : World}

theorem Coherent.faithful (h : Coherent w) (hw : w.writer = none) : w.store.Faithful :=
  h.reads.entries (h.orderly.not_swapped hw)

/-- Each call of a history, by a client that nobody interrupts. -/
theorem steps_step (hcalls : ∀ j, w.calls j = none) (hw : w.writer = none) (request : Request) :
    ReflTransGen Step w { w with store := (w.store.step request).store } := by
  apply steps_of_stepInto (P := fun _ => True)
  have hfetch {c : Call} {text : List Char} (ht : c.text? = some text) :
      ReflTransGen (StepInto fun _ => True) w { w with store := (w.store.fetch text).store } :=
    steps_of_finished (hcalls 0) (fun _ _ _ => trivial) trivial
      (steps_fetchAround _ ht hw (fun _ _ _ => trivial) fun _ _ => .refl)
  cases request with
  | fetch text => exact hfetch (c := .fetch text) rfl
  | check text v => exact hfetch (c := .check text v) rfl
  | fetchWhileConfiguring d text =>
      refine steps_of_finished (c := .fetch text) (hcalls 0) (fun _ _ _ => trivial) trivial
        (steps_fetchAround _ rfl hw (fun _ _ _ => trivial) fun t s => ?_)
      have hidle : ({ w with store := t }.move 0 (.fetch text) s).calls 1 = none := hcalls 1
      exact steps_configure hidle hw d (fun _ _ _ => trivial) trivial
  | configure d => exact steps_configure (hcalls 0) hw d (fun _ _ _ => trivial) trivial
  | clear =>
      have hclear := Step.clear (calls_move_self w 0 .clear .begun) hw
      rw [move_move] at hclear
      exact steps_of_finished (hcalls 0) (fun _ _ _ => trivial) trivial (.single ⟨hclear, trivial⟩)
  | contains | size | current => exact .refl

theorem steps_after (hcalls : ∀ j, w.calls j = none) (hw : w.writer = none)
    (history : List Request) :
    ReflTransGen Step w { w with store := w.store.after history } := by
  induction history generalizing w with
  | nil => exact .refl
  | cons request history ih =>
      exact (steps_step hcalls hw request).trans
        (ih (w := { w with store := (w.store.step request).store }) hcalls hw)

end
end World

theorem faithful_after (history : List Request) : (initial.after history).Faithful := by
  obtain ⟨r, n, hn⟩ := World.exists_run
    (World.steps_after (w := .start) (fun _ => rfl) rfl history)
  have hcoherent := r.coherent n
  rw [hn] at hcoherent
  exact hcoherent.faithful rfl

end ComparisonChain.Store
