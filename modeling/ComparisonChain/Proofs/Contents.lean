import ComparisonChain.Proofs.Connectors
import Mathlib.Data.List.TakeWhile

/-!
# Contents of groups

The fields of a group are found by byte position or by taking the text apart at
its first and last space; `fields_eq` says that both give the same. A group is
read from what its span selects in the source.
-/
namespace ComparisonChain.Reading
open Text

section
variable {group a g b : List Char}

theorem exists_last_of_mem {x : Char} {cs : List Char} (h : x ∈ cs) :
    ∃ a b, cs = a ++ x :: b ∧ x ∉ b := by
  obtain ⟨b, a, hr, hb⟩ := List.eq_append_cons_of_mem (List.mem_reverse.mpr h)
  refine ⟨a.reverse, b.reverse, ?_, fun hm => hb (List.mem_reverse.mp hm)⟩
  rw [← List.reverse_reverse cs, hr]
  simp

/-! ## Fields -/

theorem fields_of_notMem (h : ' ' ∉ group) : fields group = .error (.shape group) := by
  simp only [fields, Buffer.findFirst?, findFirst?_eq_none h]

theorem fields_of_one (ha : ' ' ∉ a) (hb : ' ' ∉ b) :
    fields (a ++ ' ' :: b) = .error (.shape (a ++ ' ' :: b)) := by
  simp only [fields, Buffer.findFirst?, Buffer.findLast?, findFirst?_append_cons ha,
    findLast?_append_cons hb, if_true]

theorem fields_of_two (ha : ' ' ∉ a) (hb : ' ' ∉ b) :
    fields (a ++ ' ' :: (g ++ ' ' :: b)) = .ok (trim g, b) := by
  have hspace : ' '.utf8Size = 1 := rfl
  have hlast : findLast? ' ' (a ++ ' ' :: (g ++ ' ' :: b)) = some (byteSize (a ++ ' ' :: g)) := by
    rw [← findLast?_append_cons hb]
    simp
  have hne : byteSize a ≠ byteSize (a ++ ' ' :: g) := by
    simp only [byteSize_append, byteSize_cons, hspace]
    omega
  have hcomparison : (⟨a ++ ' ' :: (g ++ ' ' :: b)⟩ : Buffer).slice? (byteSize a + 1)
      (byteSize (a ++ ' ' :: g)) = some g :=
    Buffer.slice?_eq_some_iff.mpr ⟨a ++ [' '], ' ' :: b, by simp, by simp [hspace], by simp⟩
  have hnumber : (⟨a ++ ' ' :: (g ++ ' ' :: b)⟩ : Buffer).slice? (byteSize (a ++ ' ' :: g) + 1)
      (⟨a ++ ' ' :: (g ++ ' ' :: b)⟩ : Buffer).size = some b :=
    Buffer.slice?_eq_some_iff.mpr ⟨a ++ ' ' :: g ++ [' '], [], by simp,
      by simp [hspace, Nat.add_assoc], by simp [Buffer.size]⟩
  simp only [fields, Buffer.findFirst?, Buffer.findLast?, findFirst?_append_cons ha, hlast,
    if_neg hne, hcomparison, hnumber]

theorem fields_eq (group : List Char) : fields group = Flat.fields group := by
  by_cases h : ' ' ∈ group
  · obtain ⟨a, r, rfl, ha⟩ := List.eq_append_cons_of_mem h
    have hafter : ((a ++ ' ' :: r).dropWhile (· != ' ')).drop 1 = r := by
      rw [dropWhile_ne_append ha]
      rfl
    by_cases hr : ' ' ∈ r
    · obtain ⟨g, b, rfl, hb⟩ := exists_last_of_mem hr
      have hnumber : ((g ++ ' ' :: b).reverse.takeWhile (· != ' ')).reverse = b := by
        rw [List.reverse_append, List.reverse_cons, List.append_assoc, List.singleton_append,
          takeWhile_ne_append fun h => hb (List.mem_reverse.mp h), List.reverse_reverse]
      have hcomparison : (g ++ ' ' :: b).take ((g ++ ' ' :: b).length - b.length - 1) = g := by
        rw [show (g ++ ' ' :: b).length - b.length - 1 = g.length by simp; omega]
        exact List.take_left
      rw [fields_of_two ha hb]
      simp only [Flat.fields, hafter, hnumber, hcomparison]
      simp
    · rw [fields_of_one ha hr]
      simp only [Flat.fields, hafter]
      simp [hr]
  · have hdrop : group.dropWhile (· != ' ') = [] := by
      refine List.dropWhile_eq_nil_iff.mpr fun c hc => ?_
      simpa using fun he : c = ' ' => h (he ▸ hc)
    rw [fields_of_notMem h]
    simp [Flat.fields, hdrop]

theorem fields_eq_ok_iff {x y : List Char} : fields group = .ok (x, y) ↔
    ∃ a m, group = a ++ ' ' :: (m ++ ' ' :: y) ∧ ' ' ∉ a ∧ ' ' ∉ y ∧ trim m = x := by
  constructor
  · intro h
    by_cases hs : ' ' ∈ group
    · obtain ⟨a, r, rfl, ha⟩ := List.eq_append_cons_of_mem hs
      by_cases hr : ' ' ∈ r
      · obtain ⟨m, b, rfl, hb⟩ := exists_last_of_mem hr
        rw [fields_of_two ha hb] at h
        cases h
        exact ⟨a, m, rfl, ha, hb, rfl⟩
      · rw [fields_of_one ha hr] at h
        cases h
    · rw [fields_of_notMem hs] at h
      cases h
  · intro h
    obtain ⟨a, m, rfl, ha, hb, rfl⟩ := h
    exact fields_of_two ha hb

/-! ## Tests -/

theorem read_comparison_eq_ok_iff {c : Comparison} : Comparison.read g = .ok c ↔ g = c.token := by
  rw [← Comparison.ofToken?_eq_some_iff]
  unfold Comparison.read
  cases Comparison.ofToken? g <;> simp

theorem readNumber_eq_ok_iff {n : Int64} : readNumber g = .ok n ↔ Numeral.read g = .ok n := by
  unfold readNumber
  cases Numeral.read g <;> simp

/-- A group holds a test if it has a comparison and a number between its spaces. -/
theorem testOf_eq_ok_iff {t : Test} : testOf group = .ok t ↔
    Plain group ∧ ∃ a m b, group = a ++ ' ' :: (m ++ ' ' :: b) ∧ ' ' ∉ a ∧ ' ' ∉ b ∧
      trim m = t.comparison.token ∧ Numeral.read b = .ok t.number := by
  have hplain : group.any isParenthesis = false ↔ Plain group := by simp [Plain]
  constructor
  · intro h
    unfold testOf at h
    split at h
    · cases h
    · next hany =>
        refine ⟨hplain.mp (Bool.eq_false_iff.mpr hany), ?_⟩
        cases hf : fields group with
        | error f => simp [hf] at h
        | ok p =>
            obtain ⟨x, b⟩ := p
            obtain ⟨a, m, hgroup, ha, hb, hx⟩ := fields_eq_ok_iff.mp hf
            rw [hf] at h
            cases hc : Comparison.read x with
            | error e => simp [hc, bind, Except.bind] at h
            | ok c =>
                cases hn : readNumber b with
                | error e => simp [hc, hn, bind, Except.bind] at h
                | ok n =>
                    simp only [hc, hn, bind, Except.bind, pure, Except.pure, Except.ok.injEq] at h
                    subst h
                    exact ⟨a, m, b, hgroup, ha, hb, hx.trans (read_comparison_eq_ok_iff.mp hc),
                      readNumber_eq_ok_iff.mp hn⟩
  · intro h
    obtain ⟨hp, a, m, b, hgroup, ha, hb, hm, hn⟩ := h
    have hf := fields_eq_ok_iff.mpr ⟨a, m, hgroup, ha, hb, hm⟩
    unfold testOf
    simp only [hplain.mpr hp, hf, read_comparison_eq_ok_iff.mpr rfl, readNumber_eq_ok_iff.mpr hn]
    rfl

theorem mem_of_mem_trim {c : Char} {cs : List Char} (h : c ∈ trim cs) : c ∈ cs := by
  rw [trim, trimEnd, List.mem_reverse] at h
  exact List.dropWhile_subset _ (List.mem_reverse.mp (List.dropWhile_subset _ h))

theorem testOf_trim (h : Plain g) : testOf (trim g) = Flat.test g := by
  have hany : (trim g).any isParenthesis = false :=
    List.any_eq_false.mpr fun c hc => by simp [h c (mem_of_mem_trim hc)]
  simp only [testOf, hany, Flat.test, fields_eq]
  rfl

/-- A span that selects a text without parentheses is read as that text. -/
theorem outcome_readGroup {i j : Nat} {source : Buffer} (hs : source.slice? i j = some g)
    (hg : Plain g) :
    (readGroup source ⟨i, j⟩).outcome = Flat.test g := by
  simp only [readGroup, hs]
  simp only [Logged.outcome_bind, Logged.outcome_ofExcept, Logged.outcome_note,
    Logged.outcome_pure, testOf_trim hg]
  cases Flat.test g <;> rfl

theorem outcome_readGroups_append (source : Buffer) (ss us : List Span) :
    (readGroups source (ss ++ us)).outcome =
      (readGroups source ss).outcome.bind fun ts =>
        (readGroups source us).outcome.map (ts ++ ·) := by
  induction ss with
  | nil =>
      simp only [List.nil_append, readGroups, Logged.outcome_pure]
      cases (readGroups source us).outcome <;> rfl
  | cons s ss ih =>
      simp only [List.cons_append, readGroups, Logged.outcome_bind, Logged.outcome_pure, ih]
      cases (readGroup source s).outcome with
      | error e => rfl
      | ok t =>
          cases (readGroups source ss).outcome with
          | error e => rfl
          | ok ts => cases (readGroups source us).outcome <;> rfl

theorem outcome_readGroups_singleton (source : Buffer) (s : Span) :
    (readGroups source [s]).outcome = (readGroup source s).outcome.map fun t => [t] := by
  simp only [readGroups, Logged.outcome_bind, Logged.outcome_pure]
  cases (readGroup source s).outcome <;> rfl

theorem outcome_readGroups_concat_eq_ok_iff {source : Buffer} {ss : List Span} {s : Span}
    {ts : List Test} : (readGroups source (ss ++ [s])).outcome = .ok ts ↔
      ∃ us t, (readGroups source ss).outcome = .ok us ∧ (readGroup source s).outcome = .ok t ∧
        us ++ [t] = ts := by
  rw [outcome_readGroups_append, outcome_readGroups_singleton]
  cases (readGroups source ss).outcome with
  | error e => simp [Except.bind]
  | ok us => cases (readGroup source s).outcome <;> simp [Except.bind, Except.map]

theorem length_of_outcome_readGroups {source : Buffer} {ss : List Span} {ts : List Test}
    (h : (readGroups source ss).outcome = .ok ts) : ts.length = ss.length := by
  induction ss generalizing ts with
  | nil =>
      cases h
      rfl
  | cons s ss ih =>
      simp only [readGroups, Logged.outcome_bind, Logged.outcome_pure] at h
      cases ht : (readGroup source s).outcome with
      | error e => simp [ht, Except.bind] at h
      | ok t =>
          cases hts : (readGroups source ss).outcome with
          | error e => simp [ht, hts, Except.bind] at h
          | ok us =>
              simp only [ht, hts, Except.bind, Except.ok.injEq] at h
              rw [← h, List.length_cons, List.length_cons, ih hts]

end

end ComparisonChain.Reading
