import ComparisonChain.Proofs.Layers

/-!
# Nested groups

A text with groups in groups is refused unless it is made of layers all the
same. Its layers then hold more tests than there are outermost groups, so it
passes the count only with connectives outside that belong to the groups
inside: at least as many as there are outermost groups.
-/
namespace ComparisonChain.Reading
open Text

section
variable {w cs run text : List Char} {ts : List Test} {gs : List (List Test)} {d : Dialect}

/-! ## Layers of nested groups -/

theorem Stacked.eq_nil (h : Stacked cs []) : cs = [] := by
  generalize hts : [] = ts at h
  cases h with
  | nil => rfl
  | group => cases hts

theorem length_le_of_layered (h : Layered cs run gs) : gs.length ≤ gs.flatten.length := by
  induction h with
  | nil => exact Nat.le_refl 0
  | char _ _ ih => exact ih
  | group _ _ _ _ ih =>
      simp only [List.flatten_cons, List.length_append, List.length_cons]
      omega

/-- With groups in groups there are more tests than outermost groups. -/
theorem length_lt_of_layered (h : Layered cs run gs) (hn : Nested cs) :
    gs.length < gs.flatten.length := by
  induction h with
  | nil =>
      obtain ⟨a, m, b, hcs, -⟩ := hn
      simp at hcs
  | @char c cs _ _ hc _ ih => exact ih (Nested.of_append (w := [c]) (by simpa using hc.symm) hn)
  | @group own inner rest _ t ts gs hown _ hinner hrest ih =>
      simp only [List.flatten_cons, List.length_append, List.length_cons]
      cases ts with
      | nil =>
          rw [hinner.eq_nil] at hn
          have hlt := ih (hn.of_group hown)
          rw [List.length_nil]
          omega
      | cons u us =>
          have hle := length_le_of_layered hrest
          rw [List.length_cons]
          omega

theorem Layered.append_plain (h : Layered cs run gs) (hw : Plain w) :
    Layered (cs ++ w) (run ++ w) gs := by
  have hplain := layered_append_of_plain hw .nil
  rw [List.append_nil] at hplain
  simpa using h.append hplain

theorem length_lt_of_layered_trim {cs : List Char} (hl : Layered (trim cs) run gs)
    (hn : Nested cs) : gs.length < gs.flatten.length := by
  obtain ⟨u, v, hcs, hu, hv⟩ := exists_trim cs
  have hwhole := layered_append_of_plain (plain_of_allBlank hu)
    (hl.append_plain (plain_of_allBlank hv))
  rw [← hcs] at hwhole
  exact length_lt_of_layered hwhole hn

/-! ## Reading -/

/-- Nested text is refused unless it is made of layers that give a chain. It is
refused in any case where the connectives outside of all groups are fewer than
the outermost groups. -/
theorem read_eq_error_iff_of_nested (hn : Nested text) :
    ((∃ e, d.read text = .error e) ↔ ∀ c, ¬Accepts d (trim text) c) ∧
      ∀ run gs ls, Layered (trim text) run gs → Flat.connectives d run = .ok ls →
        ls.length < gs.length → ∃ e, d.read text = .error e := by
  have hiff : (∃ e, d.read text = .error e) ↔ ∀ c, ¬Accepts d (trim text) c := by
    constructor
    · intro h c hc
      obtain ⟨e, he⟩ := h
      rw [read_eq_ok_iff.mpr hc] at he
      cases he
    · intro h
      cases hr : d.read text with
      | error e => exact ⟨e, rfl⟩
      | ok c => exact absurd (read_eq_ok_iff.mp hr) (h c)
  refine ⟨hiff, ?_⟩
  intro run gs ls hl hls hlt
  apply hiff.mpr
  intro c hc
  obtain ⟨-, -, run', hs, hl', -, hts, -, hls'⟩ := hc
  obtain ⟨rfl, hflatten⟩ := layered_unique hl hl'
  cases hls.symm.trans hls'
  have hcount := length_lt_of_layered_trim hl hn
  have hsize := c.length_connectives
  rw [hflatten, hts, ← Chain.size] at hcount
  omega

theorem nested_of_notMem {a m b : List Char} (hm : ')' ∉ m) :
    Nested (a ++ ['('] ++ m ++ ['('] ++ b) := by
  refine ⟨a, m, b, rfl, fun p hp => ?_⟩
  rw [List.count_eq_zero_of_not_mem fun hc => hm (hp.subset hc)]
  exact Nat.zero_le _

theorem nested_sample : Nested "(a > 1) AND AND (x > 5 (n > 3))".toList :=
  nested_of_notMem (a := "(a > 1) AND AND ".toList) (m := "x > 5 ".toList) (by decide)

/-- A text that is read, one whose outer group has no test, and one whose layers give two tests
to one group, with no connective outside. -/
theorem standard_read_eq_error_iff :
    (Nested "(a > 1) AND AND (x > 5 (n > 3))".toList ∧
      ((∃ e, Dialect.standard.read "(a > 1) AND AND (x > 5 (n > 3))".toList = .error e) ↔
        ∀ c, ¬Accepts Dialect.standard (trim "(a > 1) AND AND (x > 5 (n > 3))".toList) c)) ∧
    (Nested "((x > 5))".toList ∧
      ∀ c, ¬Accepts Dialect.standard (trim "((x > 5))".toList) c) ∧
    Nested "(x > 5 (n > 3))".toList ∧
      Layered (trim "(x > 5 (n > 3))".toList) [] [[⟨.greater, 5⟩, ⟨.greater, 3⟩]] ∧
      ∃ e, Dialect.standard.read "(x > 5 (n > 3))".toList = .error e := by
  have hempty : Nested "((x > 5))".toList := nested_of_notMem (a := []) (m := []) nofun
  have hread : Dialect.standard.read "((x > 5))".toList = .error (.form (.connectorCount 2 0)) := by
    decide +kernel
  have hlayered : Nested "(x > 5 (n > 3))".toList :=
    nested_of_notMem (a := []) (m := "x > 5 ".toList) (by decide)
  have hlayers : Layered (trim "(x > 5 (n > 3))".toList) [] [[⟨.greater, 5⟩, ⟨.greater, 3⟩]] := by
    have htrim : trim "(x > 5 (n > 3))".toList = "(x > 5 (n > 3))".toList := by decide
    have houter : Plain "x > 5 ".toList ∧ Flat.test "x > 5 ".toList = .ok ⟨.greater, 5⟩ :=
      ⟨by simp [Plain, isParenthesis], by decide +kernel⟩
    have hplain : Plain "n > 3".toList := by simp [Plain, isParenthesis]
    have hinner : Stacked "(n > 3)".toList [⟨.greater, 3⟩] :=
      .group hplain (by decide +kernel) .nil .nil
    rw [htrim]
    exact .group houter.1 houter.2 hinner .nil
  exact ⟨⟨nested_sample, (read_eq_error_iff_of_nested nested_sample).1⟩,
    ⟨hempty, (read_eq_error_iff_of_nested hempty).1.mp ⟨_, hread⟩⟩, hlayered, hlayers,
    (read_eq_error_iff_of_nested hlayered).2 _ _ [] hlayers (by decide +kernel) (by decide)⟩

/-- The connective that is missing inside stands outside. -/
theorem standard_read_nested :
    Dialect.standard.check = .ok () ∧ Nested "(a > 1) AND AND (x > 5 (n > 3))".toList ∧
      Dialect.standard.read "(a > 1) AND AND (x > 5 (n > 3))".toList =
        .ok ⟨⟨.greater, 1⟩, [⟨.and, ⟨.greater, 5⟩⟩, ⟨.and, ⟨.greater, 3⟩⟩]⟩ :=
  ⟨Dialect.standard_check, nested_sample, by decide +kernel⟩

end

end ComparisonChain.Reading
