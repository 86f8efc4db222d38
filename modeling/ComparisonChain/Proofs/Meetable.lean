import ComparisonChain.Proofs.Renderings

/-!
# Tokens that reading can meet

Blanks are skipped before a token is looked for, and parentheses are gone by
then. So a token is met in some text just if it starts with a character that is
no blank and has no parenthesis: two groups with such a token between them are
enough, and more is not asked of it. The check asks for more, namely for a
second character and for no blank at all. It lets pass only tokens that can be
met, and refuses some that can be met as well.
-/
namespace ComparisonChain
open Text Reading

/-- It starts with a character that is no blank, and has no parenthesis. -/
def Meetable (token : List Char) : Prop := (∃ c ∈ token.head?, isBlank c = false) ∧ Plain token

/-- Some text is read with a connective in it. -/
def Dialect.Joins (d : Dialect) : Prop := ∃ text c, d.read text = .ok c ∧ c.connectives ≠ []

section
variable {d : Dialect} {text token : List Char} {chain : Chain} {l : Connective}
variable {e : List Char × Connective} {ls : List Connective}

/-! ## What is met -/

/-- The first connective of a text that is read comes from a token that can be met. -/
theorem exists_meetable_of_read (h : d.read text = .ok chain)
    (hl : chain.connectives = l :: ls) :
    ∃ e ∈ d.entries, e.2 = l ∧ Meetable e.1 := by
  obtain ⟨-, -, spans, run, hpeel, hclose, hconnectives, -⟩ := read_eq_ok_iff_peel.mp h
  rw [hl] at hconnectives
  obtain ⟨u, e, r, rfl, -, hel, hlongest, hhead, -⟩ :=
    Flat.exists_of_connectives_cons hconnectives
  have hopen := open_notMem_of_peel hpeel
  refine ⟨e, hlongest.1, hel, hhead, fun x hx => ?_⟩
  have hrun : x ∈ u ++ (e.1 ++ r) := List.mem_append_right u (List.mem_append_left r hx)
  rw [isParenthesis_eq_false_iff]
  exact ⟨fun ho => hopen (ho ▸ hrun), fun hc => hclose (hc ▸ hrun)⟩

/-! ## Texts for a token -/

/-- Two groups with a token between them, and no blank. -/
theorem layered_around (s t : Test) (h : Plain token) :
    Layered (s.text ++ (token ++ t.text)) token [[s], [t]] := by
  have hrest := layered_append_of_plain h ((Group.ofTest t).layered .nil)
  have hall := (Group.ofTest s).layered hrest
  simpa [Group.text_ofTest, Group.test_ofTest] using hall

theorem head?_text_append (s : Test) (rest : List Char) : (s.text ++ rest).head? = some '(' := rfl

theorem getLast?_append_text (t : Test) (front : List Char) :
    (front ++ t.text).getLast? = some ')' := by
  rw [List.getLast?_append, ← Group.text_ofTest, Group.getLast?_text]
  rfl

/-- Any two tests can be joined by an entry whose token can be met. -/
theorem read_around (he : e ∈ d.entries) (hm : Meetable e.1) (hlimit : ∀ m ∈ d.limit, 2 ≤ m)
    (s t : Test) : d.read (s.text ++ (e.1 ++ t.text)) = .ok ⟨s, [⟨e.2, t⟩]⟩ := by
  have hhead := head?_text_append s (e.1 ++ t.text)
  have hlast := getLast?_append_text t (s.text ++ e.1)
  rw [List.append_assoc] at hlast
  have htrim : trim (s.text ++ (e.1 ++ t.text)) = s.text ++ (e.1 ++ t.text) :=
    trim_eq_self (by rw [hhead]; simp [isBlank]) (by rw [hlast]; simp [isBlank])
  rw [read_eq_ok_iff, htrim]
  exact ⟨hhead, hlast, e.1, _, layered_around s t hm.2, hm.2.notMem_close, rfl, hlimit,
    Flat.connectives_self he hm.1⟩

/-! ## The check -/

/-- Of the tokens that can be met those are sound that have two characters and no blank. -/
theorem check_withToken_iff : (Dialect.bare.withToken token l).check = .ok () ↔
    Meetable token ∧ 2 ≤ token.length ∧ ∀ c ∈ token, isBlank c = false := by
  have hentries : (Dialect.bare.withToken token l).entries = [(token, l)] := rfl
  have hlimit : (Dialect.bare.withToken token l).limit = none := rfl
  rw [Dialect.check_eq_ok_iff, hentries, hlimit, List.forall_mem_singleton,
    Dialect.tokenFault?_eq_none_iff]
  constructor
  · intro h
    obtain ⟨-, ⟨hlength, hall⟩, -⟩ := h
    have hpos : 0 < token.length := Nat.lt_of_lt_of_le Nat.two_pos hlength
    obtain ⟨c, cs, hcs⟩ := List.exists_cons_of_length_pos hpos
    refine ⟨⟨⟨c, by rw [hcs]; rfl, (hall c (by simp [hcs])).1⟩, fun x hx => ?_⟩, hlength,
      fun x hx => (hall x hx).1⟩
    exact isParenthesis_eq_false_iff.mpr (hall x hx).2
  · intro h
    obtain ⟨⟨-, hplain⟩, hlength, hblank⟩ := h
    refine ⟨by simp, ⟨hlength, fun c hc => ⟨hblank c hc, ?_⟩⟩, by simp⟩
    exact isParenthesis_eq_false_iff.mp (hplain c hc)

theorem joins_withToken_iff : (Dialect.bare.withToken token l).Joins ↔ Meetable token := by
  constructor
  · intro h
    obtain ⟨text, c, hread, hne⟩ := h
    obtain ⟨l, ls, hl⟩ := List.exists_cons_of_ne_nil hne
    obtain ⟨e, he, -, hm⟩ := exists_meetable_of_read hread hl
    have hentry : e = _ := List.mem_singleton.mp he
    rwa [hentry] at hm
  · intro h
    have hread := read_around (d := Dialect.bare.withToken token l) (e := (token, l))
      List.mem_cons_self h nofun ⟨.greater, 1⟩ ⟨.greater, 2⟩
    exact ⟨_, _, hread, by simp [Chain.connectives]⟩

/-- A dialect of a single token without a limit reads some text with a connective in it just if
the token can be met, and passes the check just if the token has two characters and no blank
besides. So the check tells whether the token can ever be met, unless it can and is a single
character or has a blank behind its first one: such a token is refused all the same. -/
theorem check_withToken_iff_joins_iff (token : List Char) (l : Connective) :
    ((Dialect.bare.withToken token l).Joins ↔ Meetable token) ∧
    ((Dialect.bare.withToken token l).check = .ok () →
      (Dialect.bare.withToken token l).Joins) ∧
    (((Dialect.bare.withToken token l).check = .ok () ↔
        (Dialect.bare.withToken token l).Joins) ↔
      ¬(Meetable token ∧ (token.length = 1 ∨ ∃ c ∈ token.tail, isBlank c = true))) := by
  rw [joins_withToken_iff, check_withToken_iff]
  refine ⟨Iff.rfl, And.left, ?_⟩
  by_cases hm : Meetable token
  · obtain ⟨c, hc, hblank⟩ := hm.1
    obtain ⟨cs, rfl⟩ := List.head?_eq_some_iff.mp hc
    have hlength : 2 ≤ (c :: cs).length ↔ ¬(c :: cs).length = 1 := by
      rw [List.length_cons]
      omega
    have hblanks : (∀ x ∈ c :: cs, isBlank x = false) ↔ ¬∃ x ∈ cs, isBlank x = true := by
      simp [hblank]
    simp only [hm, hlength, hblanks, List.tail_cons, true_and, iff_true, not_or]
  · simp only [hm, false_and, not_false_eq_true]

/-- A token of one character is refused and met. -/
theorem ampersand_joins :
    (Dialect.bare.withToken ['&'] .and).check = .error (.shortToken ['&']) ∧
      (Dialect.bare.withToken ['&'] .and).read "(a > 1)&(b > 2)".toList =
        .ok ⟨⟨.greater, 1⟩, [⟨.and, ⟨.greater, 2⟩⟩]⟩ ∧
      ¬((Dialect.bare.withToken ['&'] .and).check = .ok () ↔
        (Dialect.bare.withToken ['&'] .and).Joins) := by
  have hcheck : (Dialect.bare.withToken ['&'] .and).check = .error (.shortToken ['&']) := rfl
  have hread : (Dialect.bare.withToken ['&'] .and).read "(a > 1)&(b > 2)".toList =
      .ok ⟨⟨.greater, 1⟩, [⟨.and, ⟨.greater, 2⟩⟩]⟩ := by decide +kernel
  refine ⟨hcheck, hread, fun h => ?_⟩
  have hjoins : (Dialect.bare.withToken ['&'] .and).Joins :=
    ⟨_, _, hread, by simp [Chain.connectives]⟩
  rw [hcheck] at h
  cases h.mpr hjoins

end

end ComparisonChain
