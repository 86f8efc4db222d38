import ComparisonChain.Chain.Basic
import Mathlib.Data.List.Induction

/-!
# The value of a chain in closed form

A chain is joined from left to right without precedence. So the last OR before a
test that holds makes up for all that failed before it, and an AND takes in the
whole of what stands before it: a chain holds just if some test settles it, and
`holds_iff_settles` says which tests do.
-/
namespace ComparisonChain.Chain

/-- The result at `i` is true, it opens the chain or is joined to it by OR, and every later
result that is joined by AND is true. -/
def Settles (ts : List Bool) (ls : List Connective) (i : Nat) : Prop :=
  ts[i]? = some true ∧ (i = 0 ∨ ls[i - 1]? = some .or) ∧
    ∀ k, i < k → ls[k - 1]? = some .and → ts[k]? = some true

section
variable {ts : List Bool} {ls : List Connective} {b acc : Bool} {l : Connective} {i j : Nat}

/-! ## One more link -/

theorem Settles.lt_length (h : Settles ts ls i) : i < ts.length :=
  (List.getElem?_eq_some_iff.mp h.1).choose

theorem settles_append_iff (hl : ts.length = ls.length + 1) (hi : i < ts.length) :
    Settles (ts ++ [b]) (ls ++ [l]) i ↔ Settles ts ls i ∧ (l = .and → b = true) := by
  have hlast : (ls ++ [l])[ts.length - 1]? = some l := by simp [hl]
  have hjoined : i = 0 ∨ (ls ++ [l])[i - 1]? = some .or ↔ i = 0 ∨ ls[i - 1]? = some .or := by
    by_cases h0 : i = 0
    · simp [h0]
    · rw [List.getElem?_append_left (by omega)]
  have hlater : (∀ k, i < k → (ls ++ [l])[k - 1]? = some .and → (ts ++ [b])[k]? = some true) ↔
      (∀ k, i < k → ls[k - 1]? = some .and → ts[k]? = some true) ∧ (l = .and → b = true) := by
    constructor
    · intro h
      refine ⟨fun k hk hand => ?_, fun hand => ?_⟩
      · have hlt := (List.getElem?_eq_some_iff.mp hand).choose
        have hk' := h k hk (by rwa [List.getElem?_append_left hlt])
        rwa [List.getElem?_append_left (by omega)] at hk'
      · have hk := h ts.length hi (by rw [hlast, hand])
        simpa using hk
    · intro h k hk hand
      -- the new link is the only one that may stand behind the old results
      rcases Nat.lt_trichotomy k ts.length with hlt | rfl | hgt
      · rw [List.getElem?_append_left (by omega)] at hand
        rw [List.getElem?_append_left hlt]
        exact h.1 k hk hand
      · rw [hlast, Option.some.injEq] at hand
        simp [h.2 hand]
      · rw [List.getElem?_eq_none (by simp; omega)] at hand
        cases hand
  unfold Settles
  rw [List.getElem?_append_left hi, hjoined, hlater, and_assoc, and_assoc]

theorem settles_append_length_iff (hl : ts.length = ls.length + 1) :
    Settles (ts ++ [b]) (ls ++ [l]) ts.length ↔ b = true ∧ l = .or := by
  have hne : ts.length ≠ 0 := by omega
  have hnone : ∀ k, ts.length < k → (ls ++ [l])[k - 1]? = none := by
    intro k hk
    exact List.getElem?_eq_none (by simp; omega)
  have hlast : (ls ++ [l])[ts.length - 1]? = some l := by simp [hl]
  constructor
  · intro h
    refine ⟨by simpa using h.1, ?_⟩
    simpa [hlast] using h.2.1.resolve_left hne
  · intro h
    obtain ⟨rfl, rfl⟩ := h
    refine ⟨by simp, .inr hlast, fun k hk hand => ?_⟩
    rw [hnone k hk] at hand
    cases hand

/-- A link by OR settles the chain itself, and one by AND may only undo what is settled. -/
theorem apply_iff_settles (hl : ts.length = ls.length + 1)
    (hacc : acc = true ↔ ∃ i, Settles ts ls i) :
    l.apply acc b = true ↔ ∃ i, Settles (ts ++ [b]) (ls ++ [l]) i := by
  have hsplit : (∃ i, Settles (ts ++ [b]) (ls ++ [l]) i) ↔
      (b = true ∧ l = .or) ∨ acc = true ∧ (l = .and → b = true) := by
    rw [hacc]
    constructor
    · intro h
      obtain ⟨i, hi⟩ := h
      have hlt := hi.lt_length
      rw [List.length_append, List.length_singleton] at hlt
      rcases Nat.lt_succ_iff_lt_or_eq.mp hlt with hlt | rfl
      · obtain ⟨hs, hb⟩ := (settles_append_iff hl hlt).mp hi
        exact .inr ⟨⟨i, hs⟩, hb⟩
      · exact .inl ((settles_append_length_iff hl).mp hi)
    · intro h
      rcases h with h | ⟨⟨i, hi⟩, hb⟩
      · exact ⟨ts.length, (settles_append_length_iff hl).mpr h⟩
      · exact ⟨i, (settles_append_iff hl hi.lt_length).mpr ⟨hi, hb⟩⟩
  rw [hsplit]
  cases l <;> simp [Connective.apply, or_comm]

/-! ## One connective throughout -/

theorem exists_connective (hl : ts.length = ls.length + 1) (hj : j < ts.length) (h0 : j ≠ 0) :
    ∃ l ∈ ls, ls[j - 1]? = some l := by
  have hlt : j - 1 < ls.length := by omega
  exact ⟨ls[j - 1], List.getElem_mem hlt, List.getElem?_eq_getElem hlt⟩

theorem exists_settles_iff_of_and (hl : ts.length = ls.length + 1) (hls : ∀ l ∈ ls, l = .and) :
    (∃ i, Settles ts ls i) ↔ ∀ b ∈ ts, b = true := by
  constructor
  · intro h b hb
    obtain ⟨i, hi, hjoined, hlater⟩ := h
    have hzero : i = 0 := by
      refine hjoined.resolve_right fun hor => ?_
      cases hls _ (List.mem_of_getElem? hor)
    subst hzero
    obtain ⟨j, hj, rfl⟩ := List.mem_iff_getElem.mp hb
    by_cases h0 : j = 0
    · subst h0
      exact Option.some.inj ((List.getElem?_eq_getElem hj).symm.trans hi)
    · obtain ⟨l, hmem, hget⟩ := exists_connective hl hj h0
      rw [hls l hmem] at hget
      exact Option.some.inj ((List.getElem?_eq_getElem hj).symm.trans (hlater j (by omega) hget))
  · intro h
    have htrue : ∀ k < ts.length, ts[k]? = some true := by
      intro k hk
      rw [List.getElem?_eq_getElem hk, h _ (List.getElem_mem hk)]
    refine ⟨0, htrue 0 (by omega), .inl rfl, fun k hk hand => htrue k ?_⟩
    have hlt := (List.getElem?_eq_some_iff.mp hand).choose
    omega

theorem exists_settles_iff_of_or (hl : ts.length = ls.length + 1) (hls : ∀ l ∈ ls, l = .or) :
    (∃ i, Settles ts ls i) ↔ true ∈ ts := by
  constructor
  · intro h
    obtain ⟨i, hi, -⟩ := h
    exact List.mem_of_getElem? hi
  · intro h
    obtain ⟨j, hj, htrue⟩ := List.mem_iff_getElem.mp h
    refine ⟨j, by rw [List.getElem?_eq_getElem hj, htrue], ?_, fun k _ hand => ?_⟩
    · by_cases h0 : j = 0
      · exact .inl h0
      · obtain ⟨l, hmem, hget⟩ := exists_connective hl hj h0
        rw [hls l hmem] at hget
        exact .inr hget
    · cases hls _ (List.mem_of_getElem? hand)

/-! ## Chains -/

variable {c : Chain} {v : Int64}

theorem length_results (c : Chain) (v : Int64) :
    (c.results v).length = c.connectives.length + 1 := by
  rw [length_connectives, results, List.length_map, size]

theorem getElem?_results_eq_some_iff : (c.results v)[j]? = some b ↔
    ∃ (p : Comparison) (n : Int64),
      c.comparisons[j]? = some p ∧ c.numbers[j]? = some n ∧ p.holds v n = b ∧
        (b = true ↔ p.Relates v.toInt n.toInt) := by
  simp only [results, comparisons, numbers, List.getElem?_map, ← Comparison.holds_iff]
  cases c.tests[j]? with
  | none => simp
  | some t =>
      simp only [Option.map_some, Option.some.injEq]
      constructor
      · intro h
        subst h
        exact ⟨_, _, rfl, rfl, rfl, Iff.rfl⟩
      · intro h
        obtain ⟨p, n, rfl, rfl, h, -⟩ := h
        exact h

theorem holds_iff_exists_settles (c : Chain) (v : Int64) :
    c.holds v = true ↔ ∃ i, Settles (c.results v) c.connectives i := by
  obtain ⟨t, ks⟩ := c
  induction ks using List.reverseRecOn with
  | nil =>
      rw [exists_settles_iff_of_or rfl (by simp [connectives])]
      simp only [holds, results, tests, List.map_cons, List.map_nil, List.foldl_nil,
        List.mem_singleton]
      exact eq_comm
  | append_singleton ks k ih =>
      have hresults : (⟨t, ks ++ [k]⟩ : Chain).results v =
          (⟨t, ks⟩ : Chain).results v ++ [k.test.holds v] := by simp [results, tests]
      have hconnectives : (⟨t, ks ++ [k]⟩ : Chain).connectives =
          (⟨t, ks⟩ : Chain).connectives ++ [k.connective] := by simp [connectives]
      have hlink := holds_append_link ⟨t, ks⟩ k v
      rw [hlink, hresults, hconnectives]
      exact apply_iff_settles (length_results ⟨t, ks⟩ v) ih

/-- Each result is that of a comparison with a number, as integers compare. A chain holds just if
one of the results settles it, so a link applies to the value of all that stands before it, and
with one connective throughout the chain is a conjunction or a disjunction. -/
theorem holds_iff_settles (c : Chain) (v : Int64) :
    (∀ (j : Nat) (b : Bool), (c.results v)[j]? = some b ↔
      ∃ (p : Comparison) (n : Int64),
      c.comparisons[j]? = some p ∧ c.numbers[j]? = some n ∧ p.holds v n = b ∧
        (b = true ↔ p.Relates v.toInt n.toInt)) ∧
    (c.holds v = true ↔ ∃ i : Nat, (c.results v)[i]? = some true ∧
      (i = 0 ∨ c.connectives[i - 1]? = some .or) ∧
      ∀ k : Nat, i < k → c.connectives[k - 1]? = some .and → (c.results v)[k]? = some true) ∧
    (∀ k : Link, (⟨c.first, c.links ++ [k]⟩ : Chain).holds v =
      k.connective.apply (c.holds v) (k.test.holds v)) ∧
    ((∀ l ∈ c.connectives, l = .and) → (c.holds v = true ↔ ∀ b ∈ c.results v, b = true)) ∧
    ((∀ l ∈ c.connectives, l = .or) → (c.holds v = true ↔ true ∈ c.results v)) := by
  have hl := length_results c v
  have hholds := holds_iff_exists_settles c v
  refine ⟨fun j b => getElem?_results_eq_some_iff, hholds, fun k => holds_append_link c k v,
    fun hls => ?_, fun hls => ?_⟩
  · exact hholds.trans (exists_settles_iff_of_and hl hls)
  · exact hholds.trans (exists_settles_iff_of_or hl hls)

/-- The AND takes in the test before the OR, which alone would have settled the chain. -/
example : (⟨⟨.equal, 1⟩, [⟨.or, ⟨.equal, 2⟩⟩, ⟨.and, ⟨.greater, 1⟩⟩]⟩ : Chain).holds 1 = false := by
  decide

end

end ComparisonChain.Chain
