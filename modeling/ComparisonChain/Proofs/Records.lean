import ComparisonChain.Proofs.Histories
import Mathlib.Data.Finset.Card
import Mathlib.Data.Finset.Dedup

/-!
# What a history leaves

A history leaves a record of what its successful calls have done: a text was
fetched, the entries were cleared, a dialect was installed. The record alone
determines the current dialect and the texts that the store has entries for. A
dialect that is installed while a text is fetched stands in the record after
that text, which is then no longer held, although it was never settled at all.
-/
namespace ComparisonChain.Store

/-- What a successful call has done. -/
inductive Deed where
  | fetched (text : List Char)
  | cleared
  | configured (d : Dialect)
  deriving DecidableEq, Repr

namespace Deed

def text? : Deed → Option (List Char)
  | .fetched text => some text
  | .cleared | .configured _ => none

def dialect? : Deed → Option Dialect
  | .configured d => some d
  | .fetched _ | .cleared => none

/-- The dialect that was configured last, or the standard one. -/
def current (deeds : List Deed) : Dialect := (deeds.filterMap dialect?).getLast?.getD .standard

/-- A text was fetched, and whatever was done after that was to fetch. -/
def Holds (deeds : List Deed) (text : List Char) : Prop :=
  ∃ before after, deeds = before ++ .fetched text :: after ∧ ∀ e ∈ after, e.text?.isSome = true

section
variable {deeds : List Deed} {e : Deed} {text : List Char}

theorem current_append (deeds : List Deed) (e : Deed) :
    current (deeds ++ [e]) = e.dialect?.getD (current deeds) := by
  cases e <;> simp [current, dialect?, List.filterMap_append]

theorem holds_append :
    Holds (deeds ++ [e]) text ↔ e = .fetched text ∨ e.text?.isSome = true ∧ Holds deeds text := by
  constructor
  · intro h
    obtain ⟨before, after, h, hafter⟩ := h
    rcases List.eq_nil_or_concat after with rfl | ⟨after, b, rfl⟩
    · obtain ⟨-, he⟩ := List.append_inj' h rfl
      exact .inl (List.singleton_inj.mp he)
    · rw [List.concat_eq_append, ← List.cons_append, ← List.append_assoc] at h
      obtain ⟨hdeeds, he⟩ := List.append_inj' h rfl
      rw [List.concat_eq_append, List.forall_mem_append] at hafter
      refine .inr ⟨?_, before, after, hdeeds, hafter.1⟩
      rw [List.singleton_inj.mp he]
      exact hafter.2 b List.mem_cons_self
  · intro h
    rcases h with rfl | ⟨he, before, after, rfl, hafter⟩
    · exact ⟨deeds, [], rfl, nofun⟩
    · refine ⟨before, after ++ [e], by simp, ?_⟩
      rw [List.forall_mem_append]
      refine ⟨hafter, fun b hb => ?_⟩
      rw [List.mem_singleton.mp hb]
      exact he

end

end Deed

/-! ## The record of a history -/

/-- What a call does if it succeeds. A dialect is installed within a fetch only if the text
is missed. -/
def aim (s : Store) : Request → List Deed
  | .fetch text | .check text _ => [.fetched text]
  | .fetchWhileConfiguring d text =>
      .fetched text ::
        if s.contains text = false ∧ (s.configure d).result.isOk then [.configured d] else []
  | .clear => [.cleared]
  | .configure d => [.configured d]
  | .contains _ | .size | .current => []

/-- What a call has done. -/
def deeds (s : Store) (request : Request) : List Deed :=
  if (s.step request).result.isOk then s.aim request else []

/-- What the calls of a history have done, in order. -/
def record (s : Store) : List Request → List Deed
  | [] => []
  | request :: history => s.deeds request ++ (s.step request).store.record history

/-- The texts that a store has entries for. -/
def texts (s : Store) : List (List Char) := s.entries.map (·.1)

section
variable {s t : Store} {text : List Char} {d : Dialect} {done : List Deed}

theorem contains_iff : s.contains text = true ↔ text ∈ s.texts := by
  rw [contains, lookup?, List.lookup_isSome_iff, texts, List.mem_map]
  simp only [beq_iff_eq, @eq_comm _ text]

theorem lookup?_eq_none_iff : s.lookup? text = none ↔ text ∉ s.texts := by
  rw [← contains_iff, contains, Option.not_isSome_iff_eq_none]

/-! ## One call -/

theorem isOk_map {ε α β : Type} (f : α → β) (r : Except ε α) : (r.map f).isOk = r.isOk := by
  cases r <;> rfl

theorem isOk_configure (s : Store) (d : Dialect) :
    (s.configure d).result.isOk = d.check.isOk := by
  cases hd : d.check with
  | error f =>
      rw [configure_of_error hd]
      rfl
  | ok u =>
      rw [(configure_of_ok hd).1]
      rfl

theorem fetchWhileConfiguring_of_error {f : DialectFault} (hd : d.check = .error f) :
    s.fetchWhileConfiguring d text = s.fetch text := by
  simp only [fetchWhileConfiguring, fetch, configure_of_error hd]

/-- Installing a dialect within a fetch is the same as installing it afterwards. -/
theorem fetchWhileConfiguring_eq (s : Store) (d : Dialect) (text : List Char) :
    (s.fetchWhileConfiguring d text).result = (s.fetch text).result ∧
      (s.fetchWhileConfiguring d text).store =
        if s.contains text = false ∧ (s.fetch text).result.isOk = true then
          ((s.fetch text).store.configure d).store
        else (s.fetch text).store := by
  cases hd : d.check with
  | error f =>
      simp only [fetchWhileConfiguring_of_error hd, configure_of_error hd, ite_self, and_self]
  | ok u =>
      unfold fetchWhileConfiguring contains
      cases hl : s.lookup? text with
      | some x => simp [fetch, fetchAround_of_hit _ hl]
      | none =>
          cases hr : s.installed.dialect.read text with
          | error e =>
              obtain ⟨hresult, hstore⟩ := fetchAround_of_error (fun s => (s, [])) hl hr
              obtain ⟨hresult', hstore'⟩ := fetchAround_of_error
                (fun s => ((s.configure d).store, (s.configure d).events)) hl hr
              simp [fetch, hresult, hstore, hresult', hstore', Except.isOk, Except.toBool]
          | ok chain =>
              obtain ⟨hresult, hstore⟩ := fetch_of_miss hl hr
              obtain ⟨hresult', hstore'⟩ := fetchAround_of_ok
                (fun s => ((s.configure d).store, (s.configure d).events)) hl hr
              have hstale : ((s.allocate chain).2.swap d).clear.isCurrent s.installed = false := by
                simp [isCurrent, swap, clear, allocate]
              rw [(configure_of_ok hd).2, settle_of_stale hstale] at hresult' hstore'
              rw [hresult, hstore, hresult', hstore', if_pos ⟨rfl, rfl⟩, (configure_of_ok hd).2]
              exact ⟨rfl, rfl⟩

/-! ## What the record tells -/

/-- A record tells the dialect of a store and the texts that it has entries for. -/
structure Tells (done : List Deed) (s : Store) : Prop where
  dialect_eq : s.installed.dialect = Deed.current done
  nodup : s.texts.Nodup
  mem_iff : ∀ text, text ∈ s.texts ↔ Deed.Holds done text

theorem tells_initial : Tells [] initial := by
  refine ⟨rfl, List.nodup_nil, fun text => ⟨nofun, fun h => ?_⟩⟩
  obtain ⟨before, after, h, -⟩ := h
  simp at h

theorem Tells.fetched (h : Tells done s) (hd : t.installed = s.installed) (hn : t.texts.Nodup)
    (ht : ∀ u, u ∈ t.texts ↔ u = text ∨ u ∈ s.texts) : Tells (done ++ [.fetched text]) t := by
  constructor
  · rw [hd, Deed.current_append]
    exact h.dialect_eq
  · exact hn
  · intro u
    rw [ht, Deed.holds_append, h.mem_iff]
    simp [Deed.text?, eq_comm]

theorem Tells.cleared (h : Tells done s) : Tells (done ++ [.cleared]) s.clear := by
  refine ⟨?_, List.nodup_nil, fun u => ?_⟩
  · rw [Deed.current_append]
    exact h.dialect_eq
  · rw [Deed.holds_append]
    simp [Deed.text?, texts, clear]

theorem tells_configured (done : List Deed) (s : Store) (d : Dialect) :
    Tells (done ++ [.configured d]) (s.swap d).clear := by
  refine ⟨?_, List.nodup_nil, fun u => ?_⟩
  · rw [Deed.current_append]
    rfl
  · rw [Deed.holds_append]
    simp [Deed.text?, texts, clear]

theorem Tells.configure (h : Tells done s) (d : Dialect) :
    Tells (done ++ if (s.configure d).result.isOk then [.configured d] else [])
      (s.configure d).store := by
  cases hd : d.check with
  | error f =>
      rw [configure_of_error hd]
      simpa [Except.isOk, Except.toBool] using h
  | ok u =>
      obtain ⟨hresult, hstore⟩ := configure_of_ok (s := s) hd
      rw [hresult, hstore]
      exact tells_configured done s d

theorem Tells.fetch (h : Tells done s) (text : List Char) :
    Tells (done ++ if (s.fetch text).result.isOk then [.fetched text] else [])
      (s.fetch text).store := by
  cases hl : s.lookup? text with
  | some x =>
      have ht : text ∈ s.texts := contains_iff.mp (by rw [contains, hl]; rfl)
      rw [Store.fetch, fetchAround_of_hit _ hl]
      refine h.fetched rfl h.nodup fun u => ⟨.inr, ?_⟩
      rintro (rfl | hu)
      · exact ht
      · exact hu
  | none =>
      cases hr : s.installed.dialect.read text with
      | error e =>
          obtain ⟨hresult, hstore⟩ := fetchAround_of_error (fun s => (s, [])) hl hr
          rw [Store.fetch, hresult, hstore]
          simpa [Except.isOk, Except.toBool] using h
      | ok chain =>
          obtain ⟨hresult, hstore⟩ := fetch_of_miss hl hr
          rw [hresult, hstore]
          have htexts : ({ (s.allocate chain).2 with
              entries := s.entries ++ [(text, (s.allocate chain).1)] } : Store).texts =
                s.texts ++ [text] := by
            simp [texts]
          refine h.fetched rfl ?_ fun u => ?_
          · rw [htexts, List.nodup_append_comm]
            exact List.nodup_cons.mpr ⟨lookup?_eq_none_iff.mp hl, h.nodup⟩
          · rw [htexts, List.mem_append, List.mem_singleton, or_comm]

theorem Tells.fetchWhileConfiguring (h : Tells done s) (d : Dialect) (text : List Char) :
    Tells (done ++ s.deeds (.fetchWhileConfiguring d text))
      (s.fetchWhileConfiguring d text).store := by
  obtain ⟨hresult, hstore⟩ := fetchWhileConfiguring_eq s d text
  have hfetched := h.fetch text
  have hconfigured := hfetched.configure d
  rw [isOk_configure] at hconfigured
  rw [hstore, deeds, Store.step, isOk_map, hresult, aim, isOk_configure]
  cases hok : (s.fetch text).result.isOk with
  | false => simpa [hok] using hfetched
  | true =>
      cases hcontains : s.contains text with
      | true => simpa [hok] using hfetched
      | false => simpa [hok] using hconfigured

theorem Tells.step (h : Tells done s) (request : Request) :
    Tells (done ++ s.deeds request) (s.step request).store := by
  cases request with
  | fetch text =>
      rw [deeds, Store.step, isOk_map]
      exact h.fetch text
  | check text v =>
      rw [deeds, Store.step, Store.check, isOk_map, isOk_map]
      exact h.fetch text
  | fetchWhileConfiguring d text => exact h.fetchWhileConfiguring d text
  | configure d =>
      rw [deeds, Store.step, isOk_map]
      exact h.configure d
  | clear => exact h.cleared
  | contains | size | current =>
      change Tells _ s
      simpa [deeds, aim] using h

theorem Tells.after (h : Tells done s) (history : List Request) :
    Tells (done ++ s.record history) (s.after history) := by
  induction history generalizing s done with
  | nil =>
      rw [record, List.append_nil]
      exact h
  | cons request history ih =>
      rw [record, ← List.append_assoc]
      exact ih (h.step request)

theorem store_fetch_of_not_isOk (h : (s.fetch text).result.isOk = false) :
    (s.fetch text).store = s := by
  unfold fetch at h ⊢
  cases hl : s.lookup? text with
  | some x => rw [fetchAround_of_hit _ hl]
  | none =>
      cases hr : s.installed.dialect.read text with
      | error e => exact (fetchAround_of_error _ hl hr).2
      | ok chain =>
          rw [(fetchAround_of_ok _ hl hr).1] at h
          cases h

/-- A call that fails leaves the store as it was. -/
theorem store_step_of_not_isOk {request : Request} (h : (s.step request).result.isOk = false) :
    (s.step request).store = s := by
  cases request with
  | fetch text =>
      rw [Store.step, isOk_map] at h
      exact store_fetch_of_not_isOk h
  | check text v =>
      rw [Store.step, Store.check, isOk_map, isOk_map] at h
      exact store_fetch_of_not_isOk h
  | fetchWhileConfiguring d text =>
      obtain ⟨hresult, hstore⟩ := fetchWhileConfiguring_eq s d text
      rw [Store.step, isOk_map, hresult] at h
      rw [Store.step, hstore, h, if_neg (by simp)]
      exact store_fetch_of_not_isOk h
  | configure d =>
      rw [Store.step, isOk_map, isOk_configure] at h
      cases hd : d.check with
      | error f => rw [Store.step, configure_of_error hd]
      | ok u =>
          rw [hd] at h
          cases h
  | clear | contains | size | current => cases h

end

/-- The record of a history tells what is answered after it: the current dialect is the one
that was configured last, and the texts that are held are those that were fetched since
anything was cleared or configured. What fails changes nothing, nor does a dialect that is
refused within a fetch. -/
theorem tells_after (history : List Request) :
    ((initial.after history).step .current).result =
        .ok (.dialect (Deed.current (initial.record history))) ∧
      (∃ held : Finset (List Char),
        (∀ text, text ∈ held ↔ Deed.Holds (initial.record history) text) ∧
        (∀ text, ((initial.after history).step (.contains text)).result =
          .ok (.flag (decide (text ∈ held)))) ∧
        ((initial.after history).step .size).result = .ok (.count held.card)) ∧
      (∀ request, ((initial.after history).step request).result.isOk = false →
        ((initial.after history).step request).store = initial.after history) ∧
      ∀ d f text, d.check = .error f →
        ((initial.after history).fetchWhileConfiguring d text).store =
          ((initial.after history).fetch text).store := by
  have htells := tells_initial.after history
  refine ⟨?_, ⟨(initial.after history).texts.toFinset, ?_, ?_, ?_⟩, ?_, ?_⟩
  · exact congrArg (fun d => Except.ok (Reply.dialect d)) htells.dialect_eq
  · intro text
    rw [List.mem_toFinset]
    exact htells.mem_iff text
  · intro text
    have hcontains : (initial.after history).contains text =
        decide (text ∈ (initial.after history).texts.toFinset) := by
      rw [Bool.eq_iff_iff, contains_iff, decide_eq_true_iff, List.mem_toFinset]
    exact congrArg (fun b => Except.ok (Reply.flag b)) hcontains
  · rw [List.toFinset_card_of_nodup htells.nodup, texts, List.length_map]
    rfl
  · exact fun request => store_step_of_not_isOk
  · intro d f text hd
    rw [fetchWhileConfiguring_of_error hd]

/-- A dialect with room for one group is installed while the third text is fetched; the first
cannot be read afterwards, and the blank that ends the last one counts. -/
def replaced : List Request :=
  [.fetch "(n > 1) AND (n < 5)".toList, .configure .bare,
   .fetchWhileConfiguring (Dialect.standard.withLimit 1) "(n > 1)".toList,
   .fetch "(n > 1) AND (n < 5)".toList, .check "(n > 1) ".toList 3]

theorem tells_after_replaced :
    initial.record replaced =
      [.fetched "(n > 1) AND (n < 5)".toList, .fetched "(n > 1)".toList,
       .configured (Dialect.standard.withLimit 1), .fetched "(n > 1) ".toList] ∧
    ((initial.after replaced).step .current).result =
      .ok (.dialect (Dialect.standard.withLimit 1)) ∧
    ((initial.after replaced).step (.contains "(n > 1) ".toList)).result = .ok (.flag true) ∧
    (((initial.after replaced).step (.fetch "n > 1".toList)).result.isOk = false ∧
      ((initial.after replaced).step (.fetch "n > 1".toList)).store = initial.after replaced) ∧
    Dialect.bare.check = .error .noToken ∧
      ((initial.after replaced).fetchWhileConfiguring .bare "(n > 2)".toList).store =
        ((initial.after replaced).fetch "(n > 2)".toList).store := by
  have hrecord : initial.record replaced =
      [.fetched "(n > 1) AND (n < 5)".toList, .fetched "(n > 1)".toList,
       .configured (Dialect.standard.withLimit 1), .fetched "(n > 1) ".toList] := by
    decide +kernel
  have hfails : ((initial.after replaced).step (.fetch "n > 1".toList)).result.isOk = false := by
    decide +kernel
  have hbare : Dialect.bare.check = .error .noToken := rfl
  obtain ⟨hcurrent, ⟨held, hheld, hcontains, -⟩, hunchanged, hrefused⟩ := tells_after replaced
  rw [hrecord] at hcurrent hheld
  have hmem : "(n > 1) ".toList ∈ held := (hheld _).mpr
    ⟨[.fetched "(n > 1) AND (n < 5)".toList, .fetched "(n > 1)".toList,
      .configured (Dialect.standard.withLimit 1)], [], rfl, nofun⟩
  have hflag := hcontains "(n > 1) ".toList
  rw [decide_eq_true hmem] at hflag
  exact ⟨hrecord, hcurrent, hflag, ⟨hfails, hunchanged _ hfails⟩, hbare, hrefused _ _ _ hbare⟩

end ComparisonChain.Store
