import ComparisonChain.Proofs.Layers

/-!
# Reading what was written

The groups of a rendering lie side by side, so reading cuts out each of them and
leaves the run of the tokens between them. Whether the rendering is read as the
chain that was written depends on this run only. It is split into the tokens that
were written if no token is the beginning of another, and also if blanks keep
them apart. Where neither is the case, two tokens run together may start with a
third one that is longer, and another chain is read.
-/
namespace ComparisonChain.Reading
open Text

section
variable {d d₀ : Dialect} {rest run text : List Char} {gs : List (List Test)}

/-! ## The layers of a rendering -/

theorem Group.layered (g : Group) (h : Layered rest run gs) :
    Layered (g.text ++ rest) run ([g.test] :: gs) := by
  have htest : Flat.test g.contents = .ok g.test := by
    rw [← testOf_trim g.plain_contents]
    exact g.testOf_contents
  have hgroup := Layered.group g.plain_contents htest .nil h
  simpa [Group.text] using hgroup

theorem Group.getLast?_text (g : Group) : g.text.getLast? = some ')' := by
  rw [text, List.getLast?_append]
  rfl

theorem Joint.plain_text (h₀ : d₀.check = .ok ()) (j : Joint d₀) : Plain j.text := by
  intro c hc
  simp only [Joint.text, List.mem_append] at hc
  rcases hc with (hc | hc) | hc
  · exact plain_of_allBlank j.before.2 c hc
  · have hparentheses := ((Dialect.token_of_check h₀ j.known).2 c hc).2
    simpa [isParenthesis] using hparentheses
  · exact plain_of_allBlank j.after.2 c hc

namespace Rendering

theorem layered (h₀ : d₀.check = .ok ()) (r : Rendering d₀) :
    Layered r.text r.run (r.chain.tests.map fun t => [t]) := by
  have hrest : ∀ ps : List (Joint d₀ × Group),
      Layered (ps.flatMap fun p => p.1.text ++ p.2.text) ((ps.map (·.1)).flatMap Joint.text)
        (ps.map fun p => [p.2.test]) := by
    intro ps
    induction ps with
    | nil => exact .nil
    | cons p ps ih =>
        have hpair := layered_append_of_plain (p.1.plain_text h₀) (p.2.layered ih)
        simpa using hpair
  have hall := r.first.layered (hrest r.rest)
  simpa [text, run, joints, chain, Chain.tests, Function.comp_def] using hall

theorem plain_run (h₀ : d₀.check = .ok ()) (r : Rendering d₀) : Plain r.run := by
  intro c hc
  obtain ⟨j, _, hj⟩ := List.mem_flatMap.mp hc
  exact j.plain_text h₀ c hj

theorem head?_text (r : Rendering d₀) : r.text.head? = some '(' := by
  simp [text, Group.text]

theorem getLast?_text (r : Rendering d₀) : r.text.getLast? = some ')' := by
  rcases List.eq_nil_or_concat' r.rest with h | ⟨ps, p, h⟩
  · simp [text, h, Group.getLast?_text]
  · simp [text, h, Group.getLast?_text, List.getLast?_append]

theorem trim_text (u v : Blanks) (r : Rendering d₀) : trim (u.1 ++ (r.text ++ v.1)) = r.text := by
  apply trim_padded u.2 _ _ v.2
  · rw [r.head?_text]
    simp [isBlank]
  · rw [r.getLast?_text]
    simp [isBlank]

/-- A rendering is read by what stands outside of its groups, in whatever dialect. -/
theorem read_eq_ok_iff (h₀ : d₀.check = .ok ()) (r : Rendering d₀) (ht : trim text = r.text)
    {c : Chain} : d.read text = .ok c ↔
      r.chain.tests = c.tests ∧ (∀ m ∈ d.limit, c.size ≤ m) ∧
        Flat.connectives d r.run = .ok c.connectives := by
  have hlayers := r.layered h₀
  have hflatten : (r.chain.tests.map fun t => [t]).flatten = r.chain.tests := by
    rw [← List.flatMap_def, List.flatMap_singleton']
  rw [Reading.read_eq_ok_iff, ht]
  constructor
  · intro h
    obtain ⟨-, -, run, gs, hl, -, hts, hlimit, hls⟩ := h
    obtain ⟨hrun, hgs⟩ := layered_unique hlayers hl
    rw [← hrun] at hls
    exact ⟨hflatten.symm.trans (hgs.trans hts), hlimit, hls⟩
  · intro h
    obtain ⟨hts, hlimit, hls⟩ := h
    exact ⟨r.head?_text, r.getLast?_text, r.run, _, hlayers, (r.plain_run h₀).notMem_close,
      hflatten.trans hts, hlimit, hls⟩

end Rendering

/-! ## Tokens of a rendering -/

theorem connectives_joints {js : List (Joint d)} (hd : d.check = .ok ())
    (h : ∀ j ks, j :: ks <:+ js → IsLongest d (j.token, j.connective)
      (j.token ++ (j.after.1 ++ ks.flatMap Joint.text))) :
    Flat.connectives d (js.flatMap Joint.text) = .ok (js.map (·.connective)) := by
  induction js with
  | nil => exact Flat.connectives_of_blank rfl
  | cons j js ih =>
      have htoken := Dialect.token_of_check hd j.known
      have hne : j.token ≠ [] := fun hn => by simp [hn] at htoken
      have hsplit : (j :: js).flatMap Joint.text =
          j.before.1 ++ (j.token ++ (j.after.1 ++ js.flatMap Joint.text)) := by
        simp [Joint.text]
      rw [hsplit, Flat.connectives_append j.before.2 hne (fun c hc => (htoken.2 c hc).1)
        (h j js List.suffix_rfl), Flat.connectives_skip j.after.2,
        ih fun k ks hk => h k ks (hk.trans (List.suffix_cons j js))]
      rfl

/-- What follows a token starts with a blank, unless it is empty or the next token
follows at once. -/
theorem blank_of_head?_after {j : Joint d} {ks : List (Joint d)}
    (h : ∀ k ∈ ks.head?, j.after.1 ++ k.before.1 ≠ []) :
    ∀ c ∈ (j.after.1 ++ ks.flatMap Joint.text).head?, isBlank c = true := by
  intro c hc
  cases ks with
  | nil =>
      rw [List.flatMap_nil, List.append_nil] at hc
      exact j.after.2 c (List.mem_of_mem_head? hc)
  | cons k ks =>
      have hsplit : j.after.1 ++ (k :: ks).flatMap Joint.text =
          (j.after.1 ++ k.before.1) ++ (k.token ++ k.after.1 ++ ks.flatMap Joint.text) := by
        simp [Joint.text]
      rw [hsplit, List.head?_append_of_ne_nil _ (h k rfl)] at hc
      rcases List.mem_append.mp (List.mem_of_mem_head? hc) with hc | hc
      · exact j.after.2 c hc
      · exact k.before.2 c hc

namespace Rendering

/-- Each token is the longest at its place where no other goes on beyond it, or
where none stands directly before another. -/
theorem connectives_run (hd : d.check = .ok ()) (r : Rendering d) (h : d.PrefixFree ∨ r.Spaced) :
    Flat.connectives d r.run = .ok r.chain.connectives := by
  have hchain : r.chain.connectives = r.joints.map (·.connective) := by
    simp [chain, Chain.connectives, joints]
  rw [hchain]
  apply connectives_joints hd
  intro j ks hsuffix
  rcases h with h | h
  · exact isLongest_of_prefixFree (e := (j.token, j.connective)) h j.known
  · apply isLongest_of_boundary (e := (j.token, j.connective)) hd j.known
    apply blank_of_head?_after
    intro k hk
    obtain ⟨ks, rfl⟩ := List.head?_eq_some_iff.mp hk
    exact h j k ((List.prefix_append [j, k] ks).isInfix.trans hsuffix.isInfix)

theorem chain_padded (w : Blanks) (r : Rendering d) : (r.padded w).chain = r.chain := by
  simp [padded, chain, Joint.padded]

theorem joints_padded (w : Blanks) (r : Rendering d) :
    (r.padded w).joints = r.joints.map (·.padded w) := by
  simp [padded, joints]

theorem spaced_spaced (r : Rendering d) : r.spaced.Spaced := by
  intro j k hjk
  have hk : k ∈ r.spaced.joints := hjk.subset (by simp)
  rw [spaced, joints_padded] at hk
  obtain ⟨k, _, rfl⟩ := List.mem_map.mp hk
  simp [Joint.padded, Blanks.space]

theorem run_flush (r : Rendering d) : r.flush.run = r.joints.flatMap (·.token) := by
  rw [run, flush, joints_padded, List.flatMap_map]
  simp [Joint.text, Joint.padded, Blanks.none]

/-! ## Reading -/

/-- However a chain is written, it is read as that chain. -/
theorem read_written (hd : d.check = .ok ()) (r : Rendering d) (u v : Blanks)
    (hlimit : ∀ m ∈ d.limit, r.chain.size ≤ m) (h : d.PrefixFree ∨ r.Spaced) :
    d.read (u.1 ++ (r.text ++ v.1)) = .ok r.chain :=
  (r.read_eq_ok_iff hd (r.trim_text u v)).mpr ⟨rfl, hlimit, r.connectives_run hd h⟩

/-- A dialect in which `ab` and `cdd`, run together, start with the token `abc`. -/
def overlapping : Dialect where
  entries :=
    [("ab".toList, .and), ("abc".toList, .and), ("cdd".toList, .or), ("dd".toList, .and)]
  limit := none
  nodup := by decide

/-- A name and blanks of several bytes, and two numerals that are not decimal. -/
def widelyWritten : Rendering overlapping where
  first :=
    { lead := ⟨['\u2003'], by simp [AllBlank, isBlank]⟩
      name := "größe".toList
      left := .space
      comparison := .greaterEqual
      right := ⟨['\t'], by simp [AllBlank, isBlank]⟩
      numeral := "0x1F".toList
      trail := .none
      number := 31
      begins := ⟨'g', rfl, by decide⟩
      solid := by simp [isParenthesis]
      denotes := by decide }
  rest :=
    [(⟨⟨['\u00a0'], by simp [AllBlank, isBlank]⟩, "ab".toList, .and, .none, by decide⟩,
        { lead := .none
          name := "x".toList
          left := .none
          comparison := .notEqual
          right := .none
          numeral := "-017".toList
          trail := .space
          number := -15
          begins := ⟨'x', rfl, by decide⟩
          solid := by simp [isParenthesis]
          denotes := by decide }),
      (⟨.space, "cdd".toList, .or, .none, by decide⟩, .ofTest ⟨.less, 3⟩)]

theorem overlapping_read_written :
    overlapping.check = .ok () ∧ (∀ m ∈ overlapping.limit, widelyWritten.chain.size ≤ m) ∧
      widelyWritten.Spaced ∧
      overlapping.read " (\u2003größe  >=\t 0x1F)\u00a0ab(x != -017 ) cdd(n < 3)\n".toList =
        .ok ⟨⟨.greaterEqual, 31⟩, [⟨.and, ⟨.notEqual, -15⟩⟩, ⟨.or, ⟨.less, 3⟩⟩]⟩ := by
  have hd : overlapping.check = .ok () := by decide
  have hlimit : ∀ m ∈ overlapping.limit, widelyWritten.chain.size ≤ m := by simp [overlapping]
  have hspaced : widelyWritten.Spaced := by
    intro j k hjk
    cases hjk.eq_of_length rfl
    simp [Blanks.none, Blanks.space]
  have hread := widelyWritten.read_written hd .space ⟨['\n'], by simp [AllBlank, isBlank]⟩ hlimit
    (.inr hspaced)
  exact ⟨hd, hlimit, hspaced, hread⟩

/-- Spaces around tokens may be left out just if the tokens, run together, are read as
their connectives again. -/
theorem read_flush_eq_read_spaced_iff (hd : d.check = .ok ()) (hl : d.limit = none)
    (r : Rendering d) :
    d.read r.spaced.text = .ok r.chain ∧
      (d.read r.flush.text = d.read r.spaced.text ↔
        Flat.connectives d (r.joints.flatMap (·.token)) = .ok r.chain.connectives) ∧
      (d.PrefixFree → d.read r.flush.text = .ok r.chain) := by
  have hiff : ∀ s : Rendering d, s.chain = r.chain →
      (d.read s.text = .ok r.chain ↔ Flat.connectives d s.run = .ok r.chain.connectives) := by
    intro s hs
    have htrim : trim s.text = s.text := by simpa [Blanks.none] using s.trim_text .none .none
    rw [s.read_eq_ok_iff hd htrim, hs, hl]
    simp
  have hspaced := (hiff r.spaced (r.chain_padded _)).mpr
    (r.chain_padded .space ▸ r.spaced.connectives_run hd (.inr r.spaced_spaced))
  have hflush := hiff r.flush (r.chain_padded _)
  refine ⟨hspaced, ?_, fun h => hflush.mpr ?_⟩
  · rw [hspaced, hflush, run_flush]
  · exact r.chain_padded .none ▸ r.flush.connectives_run hd (.inl h)

def standardTokens : Rendering .standard where
  first := .ofTest ⟨.greater, 1⟩
  rest :=
    [(⟨.space, "AND".toList, .and, .none, by decide⟩, .ofTest ⟨.greater, 2⟩),
      (⟨.none, "or".toList, .or, .none, by decide⟩, .ofTest ⟨.greater, 3⟩)]

theorem standard_read_flush : Dialect.standard.check = .ok () ∧ Dialect.standard.limit = none ∧
    Dialect.standard.read "(n > 1)AND(n > 2)or(n > 3)".toList =
      Dialect.standard.read "(n > 1) AND (n > 2) or (n > 3)".toList ∧
    Dialect.standard.read "(n > 1) AND (n > 2) or (n > 3)".toList =
      .ok ⟨⟨.greater, 1⟩, [⟨.and, ⟨.greater, 2⟩⟩, ⟨.or, ⟨.greater, 3⟩⟩]⟩ := by
  have hd := Dialect.standard_check
  obtain ⟨hspaced, -, hflush⟩ := standardTokens.read_flush_eq_read_spaced_iff hd rfl
  have hread := hflush (by decide)
  exact ⟨hd, rfl, hread.trans hspaced.symm, hspaced⟩

def clashingTokens : Rendering overlapping where
  first := .ofTest ⟨.greater, 1⟩
  rest :=
    [(⟨.none, "ab".toList, .and, .none, by decide⟩, .ofTest ⟨.greater, 2⟩),
      (⟨.none, "cdd".toList, .or, .none, by decide⟩, .ofTest ⟨.greater, 3⟩)]

/-- Without spaces the tokens are split elsewhere, and another chain is read. -/
theorem overlapping_read_flush : overlapping.check = .ok () ∧ overlapping.limit = none ∧
    clashingTokens.spaced.text = "(n > 1) ab (n > 2) cdd (n > 3)".toList ∧
    overlapping.read clashingTokens.spaced.text =
      .ok ⟨⟨.greater, 1⟩, [⟨.and, ⟨.greater, 2⟩⟩, ⟨.or, ⟨.greater, 3⟩⟩]⟩ ∧
    clashingTokens.flush.text = "(n > 1)ab(n > 2)cdd(n > 3)".toList ∧
    overlapping.read clashingTokens.flush.text =
      .ok ⟨⟨.greater, 1⟩, [⟨.and, ⟨.greater, 2⟩⟩, ⟨.and, ⟨.greater, 3⟩⟩]⟩ :=
  ⟨by decide, rfl, by decide, by decide +kernel, by decide, by decide +kernel⟩

end Rendering

end

end ComparisonChain.Reading
