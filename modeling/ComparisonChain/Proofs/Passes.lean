import ComparisonChain.Proofs.Contents
import ComparisonChain.Proofs.Peeling

/-!
# The passes over a text

Reading an enclosed text is peeling it, reading what is left as a run of
connectors, counting, reading the groups from their spans, and asking for room,
in this order.
-/
namespace ComparisonChain

/-! ## Room -/

namespace Memory

theorem reserve_cases (grants : Nat → Bool) (tests entries : Nat) :
    (entries ≤ inPlace ∨ grants entries) ∧ reserve grants tests entries = .ok () ∨
      ¬(entries ≤ inPlace ∨ grants entries) ∧
        reserve grants tests entries = .error (.allocation tests) := by
  unfold reserve
  split
  · next h => exact .inl ⟨h, rfl⟩
  · next h => exact .inr ⟨h, rfl⟩

theorem reserveColumns_ample (tests connectives : Nat) :
    ample.reserveColumns tests connectives = .ok () := by
  simp only [reserveColumns, reserve, ample, or_true, if_true]
  rfl

/-- Whichever column is refused room, it is the number of tests that is told. -/
theorem reserveColumns_cases (m : Memory) (c : Chain) :
    m.HasRoom c ∧ m.reserveColumns c.size c.connectives.length = .ok () ∨
      ¬m.HasRoom c ∧
        m.reserveColumns c.size c.connectives.length = .error (.allocation c.size) := by
  unfold reserveColumns
  rcases reserve_cases m.comparisons c.size c.size with ⟨hc, h⟩ | ⟨hc, h⟩
  · rcases reserve_cases m.numbers c.size c.size with ⟨hn, h'⟩ | ⟨hn, h'⟩
    · rw [h, h']
      rcases reserve_cases m.connectives c.size c.connectives.length with ⟨hl, h''⟩ | ⟨hl, h''⟩
      · exact .inl ⟨⟨hc, hn, hl⟩, h''⟩
      · exact .inr ⟨fun hroom => hl hroom.connectives, h''⟩
    · rw [h, h']
      exact .inr ⟨fun hroom => hn hroom.numbers, rfl⟩
  · rw [h]
    exact .inr ⟨fun hroom => hc hroom.comparisons, rfl⟩

end Memory

namespace Reading
open Text

section
variable {d : Dialect} {text source : List Char}

theorem enclosed_of_parentheses (h : (trim text).head? = some '(')
    (hl : (trim text).getLast? = some ')') : enclosed text = .ok (trim text) := by
  have hne : (trim text).isEmpty = false := by
    cases ht : trim text with
    | nil => simp [ht] at h
    | cons c cs => rfl
  simp only [enclosed, hne, h, hl, and_self, if_true]
  rfl

theorem enclosed_eq_ok_iff : enclosed text = .ok source ↔
    source = trim text ∧ source.head? = some '(' ∧ source.getLast? = some ')' := by
  constructor
  · intro h
    simp only [enclosed] at h
    split_ifs at h with he hp
    cases h
    exact ⟨rfl, hp⟩
  · intro h
    obtain ⟨hs, hhead, hlast⟩ := h
    subst hs
    exact enclosed_of_parentheses hhead hlast

theorem readIn_of_not_enclosed {f : FormFault} (m : Memory) (h : enclosed text = .error f) :
    d.readIn m text = .error (.form f) := by
  simp only [Dialect.readIn, Dialect.compileIn, h, Logged.outcome_fail]

theorem read_of_not_enclosed {f : FormFault} (h : enclosed text = .error f) :
    d.read text = .error (.form f) :=
  readIn_of_not_enclosed .ample h

theorem enclosed_of_read {c : Chain} (h : d.read text = .ok c) :
    enclosed text = .ok (trim text) := by
  cases he : enclosed text with
  | error f =>
      rw [read_of_not_enclosed he] at h
      cases h
  | ok source => rw [(enclosed_eq_ok_iff.mp he).1]

theorem readIn_of_enclosed (m : Memory) (h : enclosed text = .ok source) :
    d.readIn m text =
      match peel d.limit 0 source with
      | .error f => .error (.form f)
      | .ok (spans, r) =>
          match findFirst? ')' r with
          | some closing => .error (.form (.unmatched closing))
          | none =>
              if spans.isEmpty then .error (.form .noGroup)
              else
                (Flat.connectives d r).bind fun ls =>
                  if ls.length + 1 ≠ spans.length then
                    .error (.form (.connectorCount spans.length ls.length))
                  else
                    (readGroups ⟨source⟩ spans).outcome.bind fun ts =>
                      (m.reserveColumns ts.length ls.length).bind fun _ => assemble ts ls := by
  simp only [Dialect.readIn, Dialect.compileIn, h, Logged.outcome_bind, outcome_cutGroups]
  cases peel d.limit 0 source with
  | error f => rfl
  | ok p =>
      obtain ⟨spans, r⟩ := p
      simp only
      cases findFirst? ')' r with
      | some closing => rfl
      | none =>
          simp only [Except.bind]
          split_ifs with hs
          · rfl
          · simp only [Logged.outcome_bind, outcome_readConnectors]
            cases Flat.connectives d r with
            | error e => rfl
            | ok ls =>
                simp only [Except.bind]
                split_ifs with hl
                · rfl
                · simp only [Logged.outcome_bind, Logged.outcome_ofExcept, Logged.outcome_note,
                    Logged.outcome_pure]
                  cases (readGroups ⟨source⟩ spans).outcome with
                  | error e => rfl
                  | ok ts =>
                      simp only [Except.bind]
                      cases m.reserveColumns ts.length ls.length with
                      | error e => rfl
                      | ok _ => cases assemble ts ls <;> rfl

theorem read_of_enclosed (h : enclosed text = .ok source) :
    d.read text =
      match peel d.limit 0 source with
      | .error f => .error (.form f)
      | .ok (spans, r) =>
          match findFirst? ')' r with
          | some closing => .error (.form (.unmatched closing))
          | none =>
              if spans.isEmpty then .error (.form .noGroup)
              else
                (Flat.connectives d r).bind fun ls =>
                  if ls.length + 1 ≠ spans.length then
                    .error (.form (.connectorCount spans.length ls.length))
                  else (readGroups ⟨source⟩ spans).outcome.bind fun ts => assemble ts ls := by
  have hread := readIn_of_enclosed (d := d) .ample h
  simp only [Memory.reserveColumns_ample] at hread
  exact hread

theorem tests_join {t : Test} {ts : List Test} {ls : List Connective}
    (h : ls.length = ts.length) : (⟨t, List.zipWith Link.mk ls ts⟩ : Chain).tests = t :: ts := by
  rw [Chain.tests, Chain.map_snd_zipWith (fun _ _ => rfl) h]

theorem connectives_join {t : Test} {ts : List Test} {ls : List Connective}
    (h : ls.length = ts.length) :
    (⟨t, List.zipWith Link.mk ls ts⟩ : Chain).connectives = ls :=
  Chain.map_fst_zipWith (fun _ _ => rfl) h

theorem assemble_eq_ok_iff {ts : List Test} {ls : List Connective} {c : Chain} :
    assemble ts ls = .ok c ↔ ts = c.tests.reverse ∧ ls = c.connectives := by
  have hcolumns : assemble ts ls = .ok c ↔
      Chain.ofColumns (ts.reverse.map (·.comparison)) (ts.reverse.map (·.number)) ls = .ok c := by
    rw [assemble]
    split <;> simp_all
  rw [hcolumns, Chain.ofColumns_eq_ok_iff]
  constructor
  · intro h
    obtain ⟨hc, hn, hl⟩ := h
    refine ⟨?_, hl.symm⟩
    rw [Chain.tests_eq_zipWith, hc, hn, List.zipWith_map_left, List.zipWith_map_right]
    simp
  · intro h
    rw [h.1, h.2, List.reverse_reverse]
    exact ⟨rfl, rfl, rfl⟩

/-- Tests that were read from right to left are joined from left to right. -/
theorem assemble_reverse {ts : List Test} {ls : List Connective}
    (h : ls.length + 1 = ts.length) : assemble ts.reverse ls = Flat.join ts ls := by
  cases ts with
  | nil => cases h
  | cons t ts =>
      have hl : ls.length = ts.length := Nat.succ.inj h
      apply assemble_eq_ok_iff.mpr
      rw [tests_join hl, connectives_join hl]
      exact ⟨rfl, rfl⟩

/-- What the passes have found in a text that is read. -/
theorem read_eq_ok_iff_peel {c : Chain} : d.read text = .ok c ↔
    (trim text).head? = some '(' ∧ (trim text).getLast? = some ')' ∧
      ∃ spans r, peel d.limit 0 (trim text) = .ok (spans, r) ∧ ')' ∉ r ∧
        Flat.connectives d r = .ok c.connectives ∧
          (readGroups ⟨trim text⟩ spans).outcome = .ok c.tests.reverse := by
  constructor
  · intro h
    have he := enclosed_of_read h
    obtain ⟨-, hhead, hlast⟩ := enclosed_eq_ok_iff.mp he
    rw [read_of_enclosed he] at h
    split at h
    · cases h
    · next spans r hp =>
        split at h
        · cases h
        · next hr =>
            split_ifs at h
            cases hls : Flat.connectives d r with
            | error e =>
                rw [hls] at h
                cases h
            | ok ls =>
                simp only [hls, Except.bind] at h
                split_ifs at h
                cases hts : (readGroups ⟨trim text⟩ spans).outcome with
                | error e =>
                    rw [hts] at h
                    cases h
                | ok ts =>
                    rw [hts] at h
                    obtain ⟨rfl, rfl⟩ := assemble_eq_ok_iff.mp h
                    exact ⟨hhead, hlast, spans, r, hp, notMem_of_findFirst?_eq_none hr, hls, hts⟩
  · intro h
    obtain ⟨hhead, hlast, spans, r, hp, hr, hls, hts⟩ := h
    have hlength : spans.length = c.size := by
      rw [← length_of_outcome_readGroups hts, List.length_reverse, Chain.size]
    have hsize := c.length_connectives
    have hspans : spans.isEmpty = false := by
      rw [List.isEmpty_eq_false_iff, ← List.length_pos_iff]
      omega
    rw [read_of_enclosed (enclosed_of_parentheses hhead hlast), hp]
    simp only [findFirst?_eq_none hr, hspans, hls, hts, Except.bind, hlength, hsize]
    simpa using assemble_eq_ok_iff.mpr ⟨rfl, rfl⟩

end

end Reading

end ComparisonChain
