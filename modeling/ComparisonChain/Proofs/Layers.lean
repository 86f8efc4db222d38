import ComparisonChain.Proofs.Flat
import ComparisonChain.Proofs.Groups

/-!
# What is accepted

A span is a position in what was left when its group was cut, and is read in
the source. Both agree as far as the group's first parenthesis, so a group is
read from what stands in front of the groups in it, and only if nothing of its
own stands behind them. `read_eq_ok_iff` turns this into a grammar: it says for
every text, flat or not, whether it is read and as which chain.
-/
namespace ComparisonChain.Reading
open Text

/-- Groups side by side, each with its own text in front of the groups in it;
their tests, in the order in which the groups open. -/
inductive Stacked : List Char → List Test → Prop
  | nil : Stacked [] []
  | group {own inner rest : List Char} {t : Test} {ts us : List Test} :
      Plain own → Flat.test own = .ok t → Stacked inner ts → Stacked rest us →
      Stacked ('(' :: (own ++ (inner ++ ')' :: rest))) (t :: (ts ++ us))

/-- Such groups in a run of other text: the run, and for each outermost group
its test and those of the groups in it. A closing parenthesis without a partner
belongs to the run. -/
inductive Layered : List Char → List Char → List (List Test) → Prop
  | nil : Layered [] [] []
  | char {c : Char} {cs run : List Char} {gs : List (List Test)} :
      c ≠ '(' → Layered cs run gs → Layered (c :: cs) (c :: run) gs
  | group {own inner rest run : List Char} {t : Test} {ts : List Test} {gs : List (List Test)} :
      Plain own → Flat.test own = .ok t → Stacked inner ts → Layered rest run gs →
      Layered ('(' :: (own ++ (inner ++ ')' :: rest))) run ((t :: ts) :: gs)

/-- The text is made of layers within the limit, and the run around them reads
as the chain's connectives. -/
def Accepts (d : Dialect) (source : List Char) (c : Chain) : Prop :=
  source.head? = some '(' ∧ source.getLast? = some ')' ∧
    ∃ run gs, Layered source run gs ∧ ')' ∉ run ∧ gs.flatten = c.tests ∧
      (∀ m ∈ d.limit, c.size ≤ m) ∧ Flat.connectives d run = .ok c.connectives

section
variable {a own cs r run : List Char} {t : Test} {ts : List Test}
variable {spans : List Span} {gs : List (List Test)} {d : Dialect}

/-! ## Layers and what they leave -/

theorem layered_append_of_plain (h : Plain own) (hl : Layered cs run gs) :
    Layered (own ++ cs) (own ++ run) gs := by
  induction own with
  | nil => exact hl
  | cons c own ih =>
      rw [plain_cons] at h
      exact .char (fun hc => by cases hc ▸ h.1) (ih h.2)

theorem Layered.append {cs' run' : List Char} {hs : List (List Test)} (h : Layered cs run gs)
    (h' : Layered cs' run' hs) : Layered (cs ++ cs') (run ++ run') (gs ++ hs) := by
  induction h with
  | nil => exact h'
  | char hc _ ih => exact .char hc ih
  | group hown ht hinner _ ih =>
      have hgroup := Layered.group hown ht hinner ih
      simpa using hgroup

theorem Stacked.layered_append {inner : List Char} (h : Stacked inner ts)
    (hl : Layered cs run gs) :
    ∃ hs, Layered (inner ++ cs) run hs ∧ hs.flatten = ts ++ gs.flatten := by
  induction h with
  | nil => exact ⟨gs, hl, rfl⟩
  | @group own inner rest t ts us hown ht hinner _ _ ih =>
      obtain ⟨hs, hrest, hflatten⟩ := ih
      refine ⟨(t :: ts) :: hs, ?_, by simp [hflatten]⟩
      have hgroup := Layered.group hown ht hinner hrest
      simpa using hgroup

/-- Layers that leave a closing parenthesis first are stacked groups up to it. -/
theorem exists_stacked_of_layered (h : Layered cs (')' :: r) gs) :
    ∃ inner rest us hs, cs = inner ++ ')' :: rest ∧ Stacked inner us ∧ Layered rest r hs ∧
      us ++ hs.flatten = gs.flatten := by
  generalize hrun : ')' :: r = run at h
  induction h with
  | nil => cases hrun
  | char hc hl _ =>
      cases hrun
      exact ⟨[], _, [], _, rfl, .nil, hl, rfl⟩
  | group hown ht hinner _ ih =>
      obtain ⟨inner, rest, us, hs, rfl, hstacked, hl, hflatten⟩ := ih hrun
      refine ⟨_, rest, _, hs, ?_, .group hown ht hinner hstacked, hl, ?_⟩
      · simp
      · simp [hflatten]

theorem Layered.of_cons {c : Char} (h : Layered (c :: cs) (c :: run) gs) (hc : c ≠ '(') :
    Layered cs run gs := by
  cases h with
  | char _ hl => exact hl
  | group => exact absurd rfl hc

/-- The text that layers leave first is where it was, if the text starts with it. -/
theorem exists_of_layered_append (h : Layered (own ++ cs) (own ++ ')' :: r) gs)
    (hown : Plain own) :
    ∃ inner rest us hs, cs = inner ++ ')' :: rest ∧ Stacked inner us ∧ Layered rest r hs ∧
      us ++ hs.flatten = gs.flatten := by
  induction own with
  | nil => exact exists_stacked_of_layered h
  | cons c own ih =>
      rw [plain_cons] at hown
      exact ih (h.of_cons fun hc => by cases hc ▸ hown.1) hown.2

/-! ## What a group is read from -/

theorem plain_of_plain_trim (h : Plain (trim cs)) : Plain cs := by
  obtain ⟨u, v, hcs, hu, hv⟩ := exists_trim cs
  intro c hc
  rw [hcs, List.mem_append, List.mem_append] at hc
  rcases hc with hc | hc | hc
  · exact plain_of_allBlank hu c hc
  · exact h c hc
  · exact plain_of_allBlank hv c hc

theorem exists_of_outcome_readGroup {source : Buffer} {s : Span}
    (h : (readGroup source s).outcome = .ok t) :
    ∃ g, source.slice? s.start s.stop = some g ∧ Plain g ∧ Flat.test g = .ok t := by
  cases hs : source.slice? s.start s.stop with
  | none => simp [readGroup, hs] at h
  | some g =>
      have hplain : Plain g := by
        apply plain_of_plain_trim
        intro c hc
        by_contra hp
        have hany : (trim g).any isParenthesis = true :=
          List.any_eq_true.mpr ⟨c, hc, by simpa using hp⟩
        simp [readGroup, hs, testOf, hany, Except.bind] at h
      rw [outcome_readGroup hs hplain] at h
      exact ⟨g, rfl, hplain, h⟩

/-- The span of a group is taken before its closing parenthesis in what was left.
Text without parentheses at this span in the source is what was left: it stays
in front while the groups behind it are cut. -/
theorem eq_untilClose_of_slice? {g : List Char}
    (hp : peel none (byteSize a + 1) cs = .ok (spans, r)) (hg : Plain g)
    (hs : (⟨a ++ '(' :: cs⟩ : Buffer).slice? (byteSize a + 1)
      (byteSize a + 1 + byteSize (untilClose r)) = some g) :
    g = untilClose r ∧ g <+: cs := by
  have hopen : '('.utf8Size = 1 := rfl
  obtain ⟨p, q, hsource, hstart, hstop⟩ := Buffer.slice?_eq_some_iff.mp hs
  change a ++ '(' :: cs = p ++ g ++ q at hsource
  have hpre : p = a ++ ['('] := by
    apply eq_of_prefix_of_byteSize_eq (List.prefix_append p (g ++ q))
    · rw [← List.append_assoc, ← hsource]
      exact ⟨cs, by simp⟩
    · simp [hstart, hopen]
  have hcs : cs = g ++ q := by
    rw [hpre] at hsource
    simpa using hsource
  subst hcs
  rw [peel_append none _ hg.notMem_open] at hp
  cases hq : peel none (byteSize a + 1 + byteSize g) q with
  | error f =>
      rw [hq] at hp
      cases hp
  | ok left =>
      rw [hq] at hp
      cases hp
      refine ⟨?_, List.prefix_append g q⟩
      apply eq_of_prefix_of_byteSize_eq (List.prefix_append g left.2)
      · exact List.takeWhile_prefix _
      · rw [byteSize_append] at hstop
        omega

/-! ## Peeling and reading layers -/

theorem layered_of_peel (hp : peel none (byteSize a) cs = .ok (spans, r))
    (hg : (readGroups ⟨a ++ cs⟩ spans).outcome = .ok ts.reverse) :
    ∃ gs, Layered cs r gs ∧ gs.flatten = ts := by
  induction cs generalizing a spans r ts with
  | nil =>
      cases hp
      have hts : [] = ts.reverse := Except.ok.inj hg
      exact ⟨[], .nil, by simpa using hts⟩
  | cons c cs ih =>
      have hsize : byteSize (a ++ [c]) = byteSize a + c.utf8Size := by simp
      obtain ⟨spans', r', hcs, hcase⟩ := peel_cons_eq_ok_iff.mp hp
      rcases hcase with ⟨hc, rfl, rfl⟩ | ⟨rfl, hr, _, rfl, rfl⟩
      · rw [← hsize] at hcs
        rw [List.append_cons] at hg
        obtain ⟨gs, hl, hflatten⟩ := ih hcs hg
        exact ⟨gs, .char hc hl, hflatten⟩
      · obtain ⟨us, t, hus, ht, hts⟩ := outcome_readGroups_concat_eq_ok_iff.mp hg
        obtain ⟨g, hslice, hplain, htest⟩ := exists_of_outcome_readGroup ht
        obtain ⟨hown, rest, rfl⟩ := eq_untilClose_of_slice? hcs hplain hslice
        rw [← hsize] at hcs
        rw [List.append_cons, ← List.reverse_reverse us] at hus
        obtain ⟨gs, hl, hflatten⟩ := ih hcs hus
        rw [← untilClose_append_pastClose hr, ← hown] at hl
        obtain ⟨inner, tail, vs, hs, rfl, hstacked, htail, hvs⟩ :=
          exists_of_layered_append hl hplain
        refine ⟨(t :: vs) :: hs, .group hplain htest hstacked htail, ?_⟩
        rw [List.flatten_cons, List.cons_append, hvs, hflatten, ← List.reverse_reverse ts, ← hts]
        simp

theorem peel_of_layered (h : Layered cs r gs) :
    ∃ spans, peel none (byteSize a) cs = .ok (spans, r) ∧
      (readGroups ⟨a ++ cs⟩ spans).outcome = .ok gs.flatten.reverse := by
  induction cs generalizing a r gs with
  | nil =>
      cases h
      exact ⟨[], rfl, rfl⟩
  | cons c cs ih =>
      have hsize : byteSize (a ++ [c]) = byteSize a + c.utf8Size := by simp
      cases h with
      | char hc hl =>
          obtain ⟨spans, hp, hg⟩ := ih (a := a ++ [c]) hl
          rw [hsize] at hp
          rw [← List.append_cons] at hg
          exact ⟨spans, peel_cons_eq_ok_iff.mpr ⟨_, _, hp, .inl ⟨hc, rfl, rfl⟩⟩, hg⟩
      | @group own inner rest _ t ts gs hown ht hinner hrest =>
          have hclose : ')' ≠ '(' := by decide
          obtain ⟨hs, hl, hflatten⟩ := hinner.layered_append (.char hclose hrest)
          obtain ⟨spans, hp, hg⟩ := ih (a := a ++ ['(']) (layered_append_of_plain hown hl)
          rw [hsize] at hp
          rw [← List.append_cons] at hg
          refine ⟨_, peel_cons_eq_ok_iff.mpr ⟨_, _, hp, .inr ⟨rfl, by simp, by simp, rfl, ?_⟩⟩, ?_⟩
          · exact pastClose_append hown.notMem_close r
          · rw [untilClose_append hown.notMem_close]
            refine outcome_readGroups_concat_eq_ok_iff.mpr ⟨_, t, hg, ?_, ?_⟩
            · rw [outcome_readGroup (slice?_group a own _) hown]
              exact ht
            · simp [hflatten]

/-- A text determines what its layers leave and the tests in them. -/
theorem layered_unique {r' : List Char} {hs : List (List Test)} (h : Layered cs r gs)
    (h' : Layered cs r' hs) : r = r' ∧ gs.flatten = hs.flatten := by
  obtain ⟨spans, hp, hts⟩ := peel_of_layered (a := []) h
  obtain ⟨spans', hp', hts'⟩ := peel_of_layered (a := []) h'
  rw [hp] at hp'
  cases hp'
  rw [hts] at hts'
  exact ⟨rfl, List.reverse_injective (Except.ok.inj hts')⟩

/-! ## Reading -/

/-- A text is read as a chain just if it is made of layers that give it. -/
theorem read_eq_ok_iff {text : List Char} {c : Chain} :
    d.read text = .ok c ↔ Accepts d (trim text) c := by
  rw [read_eq_ok_iff_peel]
  constructor
  · intro h
    obtain ⟨hhead, hlast, spans, run, hp, hrun, hls, hts⟩ := h
    obtain ⟨hp, hlimit⟩ := peel_eq_ok_iff.mp hp
    obtain ⟨gs, hl, hgs⟩ := layered_of_peel (a := []) hp hts
    have hlength := length_of_outcome_readGroups hts
    rw [List.length_reverse] at hlength
    exact ⟨hhead, hlast, run, gs, hl, hrun, hgs, fun m hm => hlength.trans_le (hlimit m hm), hls⟩
  · intro h
    obtain ⟨hhead, hlast, run, gs, hl, hrun, hgs, hlimit, hls⟩ := h
    obtain ⟨spans, hp, hts⟩ := peel_of_layered (a := []) hl
    rw [hgs] at hts
    have hlength := length_of_outcome_readGroups hts
    rw [List.length_reverse] at hlength
    exact ⟨hhead, hlast, spans, run,
      peel_eq_ok_iff.mpr ⟨hp, fun m hm => hlength.symm.trans_le (hlimit m hm)⟩, hrun, hls, hts⟩

end

end ComparisonChain.Reading
