import ComparisonChain.Proofs.Balance
import ComparisonChain.Proofs.Flat
import ComparisonChain.Proofs.Literals

/-!
# What reading never meets

Every range that reading asks for lies between characters of its buffer, since
its ends come from a search in that buffer or from the size of one of its first
parts. So the faults kept for ranges that are refused never arise, nor those for
columns that do not fit and for a text without a group: what an error tells is
always to be found in the text, unless there is no room for the chain that was
read. `read_stays_within` collects this.
-/
namespace ComparisonChain
open Text Reading

/-- The ranges that reading asks for in a buffer, whichever that is: to search behind an
opening parenthesis, to cut off a group, blanks or a token, and to take a group's fields. -/
inductive Reading.Asks (d : Dialect) : Buffer → Nat → Nat → Prop
  | search {b : Buffer} {i : Nat} : b.findLast? '(' = some i → Asks d b i b.size
  | group {b : Buffer} {i j : Nat} : nextPair? b = .ok (some (i, j)) → Asks d b i (j + 1)
  | blanks (b : Buffer) : Asks d b 0 b.skipBlanks.1
  | token {b : Buffer} {e : List Char × Connective} : d.longestToken? b.chars = some e →
      Asks d b 0 (byteSize e.1)
  | comparison {b : Buffer} {i j : Nat} : b.findFirst? ' ' = some i → b.findLast? ' ' = some j →
      i ≠ j → Asks d b (i + 1) j
  | number {b : Buffer} {j : Nat} : b.findLast? ' ' = some j → Asks d b (j + 1) b.size

/-- The faults that a text can have; the others would be faults of the reading. -/
def FormFault.isTextual : FormFault → Bool
  | .noGroup | .cutOutOfBounds | .tokenOutOfBounds | .spanOutOfBounds | .fieldOutOfBounds
  | .columns _ => false
  | _ => true

def Error.isTextual : Error → Bool
  | .form f => f.isTextual
  | .unrecognized _ _ => true
  | .allocation _ | .dialect _ => false

/-- Writes tests from place `i` on, each but the first behind the connective at the place
before its own; nothing comes out where there is none at that place. -/
def textFrom? (ls : List Connective) : Nat → List Test → Option (List Char)
  | _, [] => some []
  | i, t :: ts => do
      let joint ← if i = 0 then some [] else ls[i - 1]?.map fun l => [' '] ++ l.name ++ [' ']
      let rest ← textFrom? ls (i + 1) ts
      pure (joint ++ t.text ++ rest)

/-- The canonical text of columns. -/
def textOfColumns? (cs : List Comparison) (ns : List Int64) (ls : List Connective) :
    Option (List Char) :=
  textFrom? ls 0 (List.zipWith Test.mk cs ns)

section
variable {d : Dialect} {text cs run group : List Char} {limit : Option Nat} {n : Nat}
variable {e : Error} {f : FormFault}

namespace Reading

/-! ## Ranges -/

/-- A pair to cut is the last opening parenthesis and a closing one behind it. -/
theorem exists_of_nextPair? {b : Buffer} {i j : Nat} (h : nextPair? b = .ok (some (i, j))) :
    ∃ a r, b.chars = a ++ '(' :: r ∧ ')' ∈ r ∧ i = byteSize a ∧
      j = byteSize a + 1 + byteSize (untilClose r) := by
  obtain ⟨cs⟩ := b
  by_cases ho : '(' ∈ cs
  · obtain ⟨a, r, rfl, hr⟩ := exists_last_of_mem ho
    rw [nextPair?_append_cons hr] at h
    split_ifs at h with hc
    cases h
    exact ⟨a, r, rfl, hc, rfl, rfl⟩
  · rw [nextPair?_of_notMem ho] at h
    split at h <;> cases h

theorem Asks.exists_parts {b : Buffer} {i j : Nat} (h : Asks d b i j) :
    ∃ p x q, b.chars = p ++ x ++ q ∧ byteSize p = i ∧ byteSize (p ++ x) = j := by
  have hspace : ' '.utf8Size = 1 := rfl
  cases h with
  | search h =>
      obtain ⟨a, r, hb, -, rfl⟩ := exists_of_findLast? h
      exact ⟨a, '(' :: r, [], by simpa using hb, rfl, by rw [Buffer.size, hb]⟩
  | group h =>
      obtain ⟨a, r, hb, hr, rfl, rfl⟩ := exists_of_nextPair? h
      obtain ⟨p, q, hp⟩ := Buffer.erase?_eq_some_iff.mp (erase?_group a hr)
      exact ⟨p, _, q, hb.trans hp.1, hp.2.1, hp.2.2.1⟩
  | blanks => exact ⟨[], _, _, b.skipBlanks_append.symm, rfl, rfl⟩
  | token h =>
      obtain ⟨q, hq⟩ := (Dialect.mem_of_longestToken? h).2
      exact ⟨[], _, q, hq.symm, rfl, rfl⟩
  | comparison hfirst hlast hne =>
      obtain ⟨a, r, hb, ha, rfl⟩ := exists_of_findFirst? hfirst
      obtain ⟨a', r', hb', -, rfl⟩ := exists_of_findLast? hlast
      obtain ⟨m, rfl, hr⟩ := exists_of_append_eq ha (hb.symm.trans hb')
      cases m with
      | nil => exact absurd (by rw [List.append_nil]) hne
      | cons c m =>
          obtain ⟨rfl, rfl⟩ := List.cons.inj hr
          exact ⟨a ++ [' '], m, ' ' :: r', by simpa using hb, by simp [hspace], by simp⟩
  | number h =>
      obtain ⟨a, r, hb, -, rfl⟩ := exists_of_findLast? h
      exact ⟨a ++ [' '], r, [], by simpa using hb, by simp [hspace], by simp [Buffer.size, hb]⟩

/-! ## Faults of the passes -/

/-- What runs in turn fails in the first step or behind it. -/
theorem eq_error_of_bind {ε α β : Type} {x : Except ε α} {k : α → Except ε β} {g : ε}
    (h : x.bind k = .error g) : x = .error g ∨ ∃ a, x = .ok a ∧ k a = .error g := by
  cases x with
  | error _ =>
      cases h
      exact .inl rfl
  | ok a => exact .inr ⟨a, rfl, h⟩

theorem isTextual_of_enclosed (h : enclosed text = .error f) : f.isTextual = true := by
  simp only [enclosed] at h
  split_ifs at h <;> cases h <;> rfl

theorem isTextual_of_peel (h : peel limit n cs = .error f) : f.isTextual = true := by
  induction cs generalizing n f with
  | nil => cases h
  | cons c cs ih =>
      rw [peel] at h
      cases hp : peel limit (n + c.utf8Size) cs with
      | error g =>
          rw [hp] at h
          cases h
          exact ih hp
      | ok p =>
          simp only [hp] at h
          split_ifs at h
          · split at h <;> cases h
            rfl
          · cases h
            rfl

theorem isTextual_noConnector (rest : List Char) : (noConnector rest).isTextual = true := by
  unfold noConnector
  split <;> rfl

/-- A run is refused where something is left that starts with no blank and no token. -/
theorem exists_of_connectives_eq_error (h : Flat.connectives d run = .error e) :
    ∃ before left, run = before ++ left ∧ left ≠ [] ∧ (∀ c ∈ left.head?, isBlank c = false) ∧
      headToken? d left = none ∧ e = noConnector left := by
  fun_induction Flat.connectives d run with
  | case1 => cases h
  | case2 run c cs hr hn =>
      cases h
      obtain ⟨u, hrun, -⟩ := exists_trimStart run
      refine ⟨u, c :: cs, hr ▸ hrun, List.cons_ne_nil c cs, fun x hx => ?_, ?_, rfl⟩
      · exact not_blank_of_head?_trimStart (hr ▸ hx)
      · rw [headToken?_eq_longestMatch?, hn]
  | case3 run c cs hr o ho ih =>
      rcases eq_error_of_bind h with hls | ⟨ls, -, h⟩
      · obtain ⟨u, hrun, -⟩ := exists_trimStart run
        obtain ⟨before, left, hdrop, hleft⟩ := ih hls
        refine ⟨u ++ ((c :: cs).take o.1.length ++ before), left, ?_, hleft⟩
        rw [hrun, hr, List.append_assoc, List.append_assoc, ← hdrop, List.take_append_drop]
      · cases h

theorem isTextual_of_connectives (h : Flat.connectives d run = .error e) :
    e.isTextual = true := by
  obtain ⟨-, left, -, -, -, -, rfl⟩ := exists_of_connectives_eq_error h
  exact isTextual_noConnector left

theorem isTextual_of_fields (h : Flat.fields group = .error f) : f.isTextual = true := by
  simp only [Flat.fields] at h
  split at h <;> cases h
  rfl

theorem isTextual_of_readComparison (h : Comparison.read text = .error e) :
    e.isTextual = true := by
  unfold Comparison.read at h
  split at h <;> cases h
  rfl

theorem isTextual_of_readNumber (h : readNumber text = .error e) : e.isTextual = true := by
  rcases Numeral.readNumber_cases text with ⟨k, hk⟩ | ⟨f, hf⟩
  · rw [hk] at h
    cases h
  · rw [hf] at h
    cases h
    rfl

/-- A group is refused for its form, or for its comparison. -/
theorem testOf_eq_error_cases (h : testOf group = .error e) :
    (∃ f, e = .form f ∧ f.isTextual = true) ∨
      ∃ x b, fields group = .ok (x, b) ∧ Comparison.read x = .error e := by
  unfold testOf at h
  split at h
  · cases h
    exact .inl ⟨_, rfl, rfl⟩
  · cases hf : fields group with
    | error f =>
        rw [hf] at h
        cases h
        rw [fields_eq] at hf
        exact .inl ⟨f, rfl, isTextual_of_fields hf⟩
    | ok p =>
        obtain ⟨x, b⟩ := p
        rw [hf] at h
        rcases eq_error_of_bind h with hc | ⟨c, -, h⟩
        · exact .inr ⟨x, b, rfl, hc⟩
        · rcases eq_error_of_bind h with hn | ⟨n, -, h⟩
          · have ht := isTextual_of_readNumber hn
            unfold readNumber at hn
            split at hn <;> cases hn
            exact .inl ⟨_, rfl, ht⟩
          · cases h

theorem isTextual_of_testOf (h : testOf group = .error e) : e.isTextual = true := by
  rcases testOf_eq_error_cases h with ⟨f, rfl, hf⟩ | ⟨x, b, -, hc⟩
  · exact hf
  · exact isTextual_of_readComparison hc

/-- Groups are refused for a span out of bounds, or for what one of the spans selects. -/
theorem exists_of_readGroups_eq_error {source : Buffer} {ss : List Span}
    (h : (readGroups source ss).outcome = .error e) : e = .form .spanOutOfBounds ∨
      ∃ s ∈ ss, ∃ contents, source.slice? s.start s.stop = some contents ∧
        testOf (trim contents) = .error e := by
  induction ss with
  | nil => cases h
  | cons s ss ih =>
      simp only [readGroups, Logged.outcome_bind] at h
      rcases eq_error_of_bind h with ht | ⟨t, -, h⟩
      · unfold readGroup at ht
        split at ht
        · cases ht
          exact .inl rfl
        · next contents hs =>
            simp only [Logged.outcome_bind, Logged.outcome_ofExcept] at ht
            rcases eq_error_of_bind ht with ht | ⟨t, -, ht⟩
            · exact .inr ⟨s, List.mem_cons_self, contents, hs, ht⟩
            · cases ht
      · rcases eq_error_of_bind h with hts | ⟨ts, -, h⟩
        · rcases ih hts with hspan | ⟨u, hu, hfault⟩
          · exact .inl hspan
          · exact .inr ⟨u, List.mem_cons_of_mem s hu, hfault⟩
        · cases h

/-- Tests and connectives that pass the count fit as columns. -/
theorem exists_assemble {ts : List Test} {ls : List Connective} (h : ls.length + 1 = ts.length) :
    ∃ c, assemble ts ls = .ok c := by
  have hlength : ls.length + 1 = ts.reverse.length := by rwa [List.length_reverse]
  have hassemble := assemble_reverse hlength
  rw [List.reverse_reverse] at hassemble
  rw [hassemble]
  cases hts : ts.reverse with
  | nil =>
      rw [List.reverse_eq_nil_iff.mp hts] at h
      cases h
  | cons t us => exact ⟨_, rfl⟩

/-- A chain that is read is given just if there is room for it. -/
theorem readIn_eq_bind (m : Memory) (d : Dialect) (text : List Char) :
    d.readIn m text = (d.read text).bind fun c =>
      (m.reserveColumns c.size c.connectives.length).bind fun _ => .ok c := by
  cases he : enclosed text with
  | error f =>
      rw [readIn_of_not_enclosed m he, read_of_not_enclosed he]
      rfl
  | ok source =>
      rw [readIn_of_enclosed m he, read_of_enclosed he]
      cases peel d.limit 0 source with
      | error f => rfl
      | ok p =>
          obtain ⟨spans, r⟩ := p
          simp only
          cases findFirst? ')' r with
          | some closing => rfl
          | none =>
              simp only
              split_ifs with hempty
              · rfl
              · cases Flat.connectives d r with
                | error e => rfl
                | ok ls =>
                    simp only [Except.bind]
                    split_ifs with hcount
                    · rfl
                    · cases hts : (readGroups ⟨source⟩ spans).outcome with
                      | error e => rfl
                      | ok ts =>
                          have hfit := length_of_outcome_readGroups hts
                          have hlinks : ls.length + 1 = ts.length := by omega
                          obtain ⟨c, hc⟩ := exists_assemble hlinks
                          obtain ⟨rfl, rfl⟩ := assemble_eq_ok_iff.mp hc
                          simp only [hc, List.length_reverse, Chain.size]

theorem readIn_eq_error_iff {m : Memory} : d.readIn m text = .error e ↔
    d.read text = .error e ∨
      ∃ c, d.read text = .ok c ∧ ¬m.HasRoom c ∧ e = .allocation c.size := by
  rw [readIn_eq_bind]
  cases d.read text with
  | error f => simp [Except.bind]
  | ok c =>
      rcases m.reserveColumns_cases c with ⟨hroom, h⟩ | ⟨hroom, h⟩ <;>
        simp [Except.bind, h, hroom, eq_comm]

/-- A text is refused for its ends, for a parenthesis or the limit, for what is left outside
its groups, or for a group. -/
theorem read_eq_error_cases (h : d.read text = .error e) :
    (∃ f, enclosed text = .error f ∧ e = .form f) ∨
    (∃ f, peel d.limit 0 (trim text) = .error f ∧ e = .form f) ∨
    ∃ spans r, peel d.limit 0 (trim text) = .ok (spans, r) ∧
      ((∃ k, e = .form (.unmatched k)) ∨
        ')' ∉ r ∧ (Flat.connectives d r = .error e ∨
          (∃ groups connectors, e = .form (.connectorCount groups connectors)) ∨
          (readGroups ⟨trim text⟩ spans).outcome = .error e)) := by
  cases he : enclosed text with
  | error f =>
      rw [read_of_not_enclosed he] at h
      cases h
      exact .inl ⟨f, rfl, rfl⟩
  | ok source =>
      obtain ⟨rfl, hhead, -⟩ := enclosed_eq_ok_iff.mp he
      rw [read_of_enclosed he] at h
      split at h
      · next f hp =>
          cases h
          exact .inr (.inl ⟨f, hp, rfl⟩)
      · next spans r hp =>
          refine .inr (.inr ⟨spans, r, hp, ?_⟩)
          -- The text starts with a parenthesis, so there is a group.
          have hlength := (count_of_peel hp).1
          have hpos := List.count_pos_iff.mpr (List.mem_of_mem_head? hhead)
          split at h
          · cases h
            exact .inl ⟨_, rfl⟩
          · next hr =>
              refine .inr ⟨notMem_of_findFirst?_eq_none hr, ?_⟩
              split_ifs at h with hempty
              · rw [List.isEmpty_iff.mp hempty, List.length_nil] at hlength
                omega
              · rcases eq_error_of_bind h with hls | ⟨ls, -, h⟩
                · exact .inl hls
                · split_ifs at h with hcount
                  · cases h
                    exact .inr (.inl ⟨_, _, rfl⟩)
                  · rcases eq_error_of_bind h with hts | ⟨ts, hts, h⟩
                    · exact .inr (.inr hts)
                    · have hfit := length_of_outcome_readGroups hts
                      have hlinks : ls.length + 1 = ts.length := by omega
                      obtain ⟨c, hc⟩ := exists_assemble hlinks
                      rw [hc] at h
                      cases h

/-- Only a span may lie out of bounds; every other fault is the text's. -/
theorem isTextual_of_read (h : d.read text = .error e) :
    e.isTextual = true ∨ e = .form .spanOutOfBounds := by
  rcases read_eq_error_cases h with ⟨f, hf, rfl⟩ | ⟨f, hf, rfl⟩ | ⟨spans, r, -, hfault⟩
  · exact .inl (isTextual_of_enclosed hf)
  · exact .inl (isTextual_of_peel hf)
  · rcases hfault with ⟨k, rfl⟩ | ⟨-, hls | ⟨groups, connectors, rfl⟩ | hts⟩
    · exact .inl rfl
    · exact .inl (isTextual_of_connectives hls)
    · exact .inl rfl
    · rcases exists_of_readGroups_eq_error hts with rfl | ⟨s, -, contents, -, ht⟩
      · exact .inr rfl
      · exact .inl (isTextual_of_testOf ht)

theorem isFormError_of_read (h : d.read text = .error e) : e.isFormError = true := by
  rcases isTextual_of_read h with ht | rfl
  · cases e with
    | allocation _ | dialect _ => cases ht
    | _ => rfl
  · rfl

theorem isTextual_of_tests {gs : List (List Char)} (hg : ∀ g ∈ gs, Plain g)
    (h : Flat.tests gs = .error e) : e.isTextual = true := by
  induction gs with
  | nil => cases h
  | cons g gs ih =>
      rw [List.forall_mem_cons] at hg
      rcases eq_error_of_bind h with hts | ⟨ts, -, h⟩
      · exact ih hg.2 hts
      · rcases eq_error_of_bind h with ht | ⟨t, -, h⟩
        · exact isTextual_of_testOf ((testOf_trim hg.1).trans ht)
        · cases h

/-- The spans of a flat text lie in it. -/
theorem read_ne_spanOutOfBounds (h : Flat.Alternating ((trim text).filter isParenthesis)) :
    d.read text ≠ .error (.form .spanOutOfBounds) := by
  intro hread
  cases he : enclosed text with
  | error f =>
      rw [read_of_not_enclosed he] at hread
      cases hread
      cases isTextual_of_enclosed he
  | ok source =>
      obtain ⟨rfl, hhead, hlast⟩ := enclosed_eq_ok_iff.mp he
      obtain ⟨bs, hbs, hplain⟩ := exists_blocks_of_isFlat ⟨hhead, hlast, h⟩
      rw [hbs] at he
      have hcontents : ∀ g ∈ bs.map (·.1), Plain g := by
        intro g hg
        obtain ⟨b, hb, rfl⟩ := List.mem_map.mp hg
        exact (hplain b hb).1
      rw [read_of_blocks hplain he] at hread
      split at hread
      · cases hread
      · rcases eq_error_of_bind hread with hls | ⟨ls, -, hread⟩
        · cases isTextual_of_connectives hls
        · split_ifs at hread with hcount
          · cases hread
          · rcases eq_error_of_bind hread with hts | ⟨ts, -, hread⟩
            · cases isTextual_of_tests hcontents hts
            · cases ts <;> cases hread

/-! ## Numerals -/

/-- Only what is no literal is malformed. -/
theorem ne_malformed_of_unsigned {t u ds : List Char} {base : Nat}
    (h : Numeral.Unsigned (Numeral.sign t).2 base ds) :
    readNumber t ≠ .error (.form (.numeral (.malformed u))) := by
  unfold readNumber Numeral.read
  rw [Numeral.digits?_eq_some_iff.mpr h]
  rcases Numeral.fit_cases (Numeral.sign t).1 (Numeral.ofDigits base ds) t with
    ⟨-, -, hfit⟩ | ⟨-, hfit⟩ | ⟨-, hfit⟩ <;> simp [hfit]

end Reading

/-! ## Writing -/

theorem textFrom?_links (ls : List Connective) (ks : List Link) :
    textFrom? (ls ++ ks.map (·.connective)) (ls.length + 1) (ks.map (·.test)) =
      some (ks.flatMap Link.text) := by
  induction ks generalizing ls with
  | nil => rfl
  | cons k ks ih =>
      have hrest := ih (ls ++ [k.connective])
      rw [List.append_assoc, List.length_append, List.length_singleton] at hrest
      simp only [List.singleton_append] at hrest
      simp [textFrom?, hrest, Link.text]

theorem textOfColumns?_eq (c : Chain) :
    textOfColumns? c.comparisons c.numbers c.connectives = some c.text := by
  have hlinks := textFrom?_links [] c.links
  simp only [List.nil_append, List.length_nil, Nat.zero_add] at hlinks
  rw [textOfColumns?, ← Chain.tests_eq_zipWith, Chain.tests, Chain.connectives]
  simp [textFrom?, hlinks, Chain.text]

/-! ## The outcome -/

/-- Every range that is asked for lies between characters. No reading ends in a fault of its
own: neither a cut nor a token nor a field out of bounds, no text without a group, no columns
that do not fit, and in a flat text no span out of bounds; what is told is the text's fault,
except that there is no room for the chain that was read. A literal is never malformed, and a
chain that was read is written with each connective at its place. -/
theorem read_stays_within (m : Memory) (d : Dialect) (text : List Char) :
    (∀ b i j, Asks d b i j →
      ∃ p x q, b.chars = p ++ x ++ q ∧ byteSize p = i ∧ byteSize (p ++ x) = j) ∧
    d.readIn m text ≠ .error (.form .cutOutOfBounds) ∧
    d.readIn m text ≠ .error (.form .tokenOutOfBounds) ∧
    d.readIn m text ≠ .error (.form .fieldOutOfBounds) ∧
    d.readIn m text ≠ .error (.form .noGroup) ∧
    (∀ f, d.readIn m text ≠ .error (.form (.columns f))) ∧
    (∀ token base ds t, Numeral.Unsigned (Numeral.sign token).2 base ds →
      readNumber token ≠ .error (.form (.numeral (.malformed t)))) ∧
    (Flat.Alternating ((trim text).filter isParenthesis) →
      d.readIn m text ≠ .error (.form .spanOutOfBounds)) ∧
    (∀ e, d.readIn m text = .error e → e.isFormError = true ∨
      ∃ c, d.read text = .ok c ∧ ¬m.HasRoom c ∧ e = .allocation c.size) ∧
    ((∀ c, d.read text = .ok c → m.HasRoom c) →
      ∀ e, d.readIn m text = .error e → e.isFormError = true) ∧
    ∀ c, d.readIn m text = .ok c →
      textOfColumns? c.comparisons c.numbers c.connectives = some c.text := by
  have hread : ∀ f, d.readIn m text = .error (.form f) → d.read text = .error (.form f) := by
    intro f h
    refine (readIn_eq_error_iff.mp h).resolve_right fun hc => ?_
    obtain ⟨c, -, -, he⟩ := hc
    cases he
  have hfaults : ∀ f : FormFault, f.isTextual = false → f ≠ .spanOutOfBounds →
      d.readIn m text ≠ .error (.form f) := by
    intro f hf hne h
    rcases isTextual_of_read (hread f h) with ht | ht
    · exact absurd (ht.symm.trans hf) (by decide)
    · exact hne (Error.form.inj ht)
  have herror : ∀ e, d.readIn m text = .error e → e.isFormError = true ∨
      ∃ c, d.read text = .ok c ∧ ¬m.HasRoom c ∧ e = .allocation c.size := by
    intro e h
    exact (readIn_eq_error_iff.mp h).imp_left isFormError_of_read
  refine ⟨fun b i j => Asks.exists_parts, hfaults _ rfl nofun, hfaults _ rfl nofun,
    hfaults _ rfl nofun, hfaults _ rfl nofun, fun f => hfaults _ rfl nofun,
    fun token base ds t => ne_malformed_of_unsigned,
    fun hflat h => read_ne_spanOutOfBounds hflat (hread _ h), herror, ?_,
    fun c _ => textOfColumns?_eq c⟩
  intro hroom e h
  refine (herror e h).resolve_right fun hc => ?_
  obtain ⟨c, hc, hfull, -⟩ := hc
  exact hfull (hroom c hc)

/-- Room for every column but that of the numbers. -/
def numberless : Memory := { Memory.ample with numbers := fun _ => false }

def fiveGroups : List Char := "(é > 1) AND (é > 2) AND (é > 3) AND (é > 4) OR (é == 0x1F)".toList

/-- Five numbers take room of their own, two do not. -/
theorem numberless_read_stays_within :
    (∃ p x q, "é(n > 1)".toList = p ++ x ++ q ∧ byteSize p = 2 ∧ byteSize (p ++ x) = 9) ∧
    Dialect.standard.readIn numberless fiveGroups ≠ .error (.form .spanOutOfBounds) ∧
    (∃ c, Dialect.standard.read fiveGroups = .ok c ∧ ¬numberless.HasRoom c ∧
      Dialect.standard.readIn numberless fiveGroups = .error (.allocation c.size)) ∧
    (∃ e, Dialect.standard.readIn numberless "(n > 1) XOR (n < 5)".toList = .error e ∧
      e.isFormError = true) ∧
    (∃ c, Dialect.standard.readIn numberless "(n > 1) AND (n < 5)".toList = .ok c ∧
      numberless.HasRoom c ∧
      textOfColumns? c.comparisons c.numbers c.connectives = some c.text) ∧
    readNumber "-0x8000000000000001".toList ≠
      .error (.form (.numeral (.malformed "-0x8000000000000001".toList))) := by
  have hlink : Dialect.standard.readIn numberless "(n > 1) AND (n < 5)".toList =
      .ok ⟨⟨.greater, 1⟩, [⟨.and, ⟨.less, 5⟩⟩]⟩ := by decide +kernel
  have hnone : Dialect.standard.readIn numberless "(n > 1) XOR (n < 5)".toList =
      .error (.unrecognized .connective "XOR".toList) := by decide +kernel
  have hnone' : Dialect.standard.read "(n > 1) XOR (n < 5)".toList =
      .error (.unrecognized .connective "XOR".toList) := by decide +kernel
  have hfive : Dialect.standard.readIn numberless fiveGroups = .error (.allocation 5) := by
    decide +kernel
  have hflat : Flat.Alternating ((trim fiveGroups).filter isParenthesis) := by
    have hp : (trim fiveGroups).filter isParenthesis =
        ['(', ')', '(', ')', '(', ')', '(', ')', '(', ')'] := by decide
    exact hp ▸ .pair (.pair (.pair (.pair (.pair .nil))))
  have hroom : numberless.HasRoom ⟨⟨.greater, 1⟩, [⟨.and, ⟨.less, 5⟩⟩]⟩ :=
    ⟨.inl (by decide), .inl (by decide), .inl (by decide)⟩
  obtain ⟨hasks, -, -, -, -, -, hnumeral, hspan, herror, -, -⟩ :=
    read_stays_within numberless Dialect.standard fiveGroups
  obtain ⟨-, -, -, -, -, -, -, -, -, hform, -⟩ :=
    read_stays_within numberless Dialect.standard "(n > 1) XOR (n < 5)".toList
  obtain ⟨-, -, -, -, -, -, -, -, -, -, hwritten⟩ :=
    read_stays_within numberless Dialect.standard "(n > 1) AND (n < 5)".toList
  refine ⟨hasks ⟨"é(n > 1)".toList⟩ 2 9 (.search (by decide)), hspan hflat, ?_,
    ⟨_, hnone, hform (by rw [hnone']; nofun) _ hnone⟩, ⟨_, hlink, hroom, hwritten _ hlink⟩, ?_⟩
  · obtain ⟨c, hc, hroom, he⟩ := (herror _ hfive).resolve_left nofun
    exact ⟨c, hc, hroom, he ▸ hfive⟩
  · exact hnumeral _ 16 "8000000000000001".toList _
      (.hexadecimal (.inl rfl) nofun (List.all_eq_true.mp (by decide)))

end

end ComparisonChain
