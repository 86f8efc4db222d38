import ComparisonChain.Proofs.Connectors

/-!
# Runs as they are read

A run is read in rounds. Each drops blanks and then the longest token that the
rest starts with, so tokens that are not empty are used up within as many rounds
as there are characters, and a last round finds the end or a word that no token
prefixes. `readConnectors_tokenRun` says that what was read, with the blanks
between, is the whole run up to that place.
-/
namespace ComparisonChain.Reading
open Text

/-- One round: nothing is left but blanks, or a token is cut off. An empty token counts as
any other here, and would be cut off again and again. -/
def connectorRound (d : Dialect) (b : Buffer) :
    Except Error (Option (List Char × Connective × Buffer)) :=
  let r := b.skipBlanks.2
  if r.isEmpty then .ok none
  else
    match d.longestToken? r.chars with
    | none => .error (noConnector r.chars)
    | some (token, c) =>
        match r.erase? 0 (byteSize token) with
        | none => .error (.form .tokenOutOfBounds)
        | some (word, rest) => .ok (some (word, c, rest))

/-- What further rounds give, with a connective that was read before them. -/
def afterConnector (word : List Char) (c : Connective) (further : Logged (List Connective)) :
    Logged (List Connective) := do
  Logged.note (.connector word c)
  let cs ← further
  pure (c :: cs)

/-- Reading in a number of rounds, with the buffer that is left at the end; nothing comes
out where it does not end within these. -/
def connectorsWithin (d : Dialect) : Nat → Buffer → Option (Logged (List Connective) × Buffer)
  | 0, _ => none
  | rounds + 1, b =>
      match connectorRound d b with
      | .error e => some (.fail e, b.skipBlanks.2)
      | .ok none => some (pure [], b.skipBlanks.2)
      | .ok (some (word, c, rest)) =>
          (connectorsWithin d rounds rest).map fun p => (afterConnector word c p.1, p.2)

/-- The report of a run: each token with its connective, and at the end all connectives or
the fault of what is left. -/
def runReport (es : List (List Char × Connective)) (left : List Char) :
    Logged (List Connective) :=
  ⟨es.map fun e => .connector e.1 e.2,
    if left.isEmpty then .ok (es.map (·.2)) else .error (noConnector left)⟩

section
variable {d : Dialect} {w r run left cs : List Char} {c : Char} {rounds : Nat}
variable {e : List Char × Connective} {es : List (List Char × Connective)}

/-! ## Rounds -/

theorem skipBlanks_append (hw : AllBlank w) (hr : ∀ c ∈ r.head?, isBlank c = false) :
    (⟨w ++ r⟩ : Buffer).skipBlanks.2 = ⟨r⟩ := by
  simp only [Buffer.skipBlanks, trimStart_append hw, trimStart_eq_self hr]

theorem connectorRound_of_blank (hw : AllBlank w) : connectorRound d ⟨w⟩ = .ok none := by
  simp only [connectorRound, Buffer.skipBlanks, trimStart_eq_nil hw, Buffer.isEmpty,
    List.isEmpty_nil, if_true]

theorem connectorRound_of_stop (hw : AllBlank w) (hc : isBlank c = false)
    (hn : ∀ e ∈ d.entries, ¬e.1 <+: c :: cs) :
    connectorRound d ⟨w ++ c :: cs⟩ = .error (noConnector (c :: cs)) := by
  have hskip := skipBlanks_append (r := c :: cs) hw (by simpa using hc)
  simp only [connectorRound, hskip, Buffer.isEmpty, List.isEmpty_cons, Bool.false_eq_true,
    if_false, longestToken?_eq_none_iff.mpr hn]

theorem connectorRound_of_token (hw : AllBlank w) (hne : e.1 ≠ [])
    (hb : ∀ c ∈ (e.1 ++ r).head?, isBlank c = false) (he : IsLongest d e (e.1 ++ r)) :
    connectorRound d ⟨w ++ e.1 ++ r⟩ = .ok (some (e.1, e.2, ⟨r⟩)) := by
  have hempty : (e.1 ++ r).isEmpty = false := by
    simpa [List.isEmpty_eq_false_iff] using fun h => absurd h hne
  rw [List.append_assoc]
  simp only [connectorRound, skipBlanks_append hw hb, Buffer.isEmpty, hempty,
    Bool.false_eq_true, if_false, longestToken?_eq_some_iff.mpr he,
    erase?_token (List.prefix_append e.1 r), List.drop_left]

theorem headToken?_eq_longestToken? (hd : ∀ e ∈ d.entries, e.1 ≠ []) (text : List Char) :
    headToken? d text = d.longestToken? text := by
  refine Option.ext fun e => ?_
  rw [headToken?_eq_some_iff, longestToken?_eq_some_iff]
  exact ⟨And.right, fun h => ⟨hd e h.1, h⟩⟩

/-- The reader goes on as its first round tells it, where no token is empty. -/
theorem readConnectors_eq_connectorRound (hd : ∀ e ∈ d.entries, e.1 ≠ []) (b : Buffer) :
    readConnectors d b =
      match connectorRound d b with
      | .error f => .fail f
      | .ok none => pure []
      | .ok (some (word, c, rest)) => afterConnector word c (readConnectors d rest) := by
  rw [readConnectors]
  unfold connectorRound
  simp only [← headToken?_eq_longestToken? hd]
  split
  · rfl
  · split
    · next h => simp only [h]
    · next token c h =>
        simp only [h]
        split
        · next he => simp only [he]
        · next word rest he =>
            simp only [he]
            rfl

/-! ## Runs -/

theorem runReport_cons (e : List Char × Connective) (es : List (List Char × Connective))
    (left : List Char) : afterConnector e.1 e.2 (runReport es left) = runReport (e :: es) left := by
  cases left <;> simp [afterConnector, runReport, Logged.note, bind, Logged.bind, pure]

/-- There are no more tokens in a run than characters. -/
theorem TokenRun.length_le (hd : ∀ e ∈ d.entries, e.1 ≠ []) (h : TokenRun d run es left) :
    es.length ≤ run.length := by
  induction h with
  | blank => exact Nat.zero_le _
  | stop => exact Nat.zero_le _
  | token _ _ he _ ih =>
      have hpos := List.length_pos_iff.mpr (hd _ he.1)
      simp only [List.length_cons, List.length_append]
      omega

/-- A run is read to its end within a round for each token and a last one. -/
theorem TokenRun.connectorsWithin_eq (hd : ∀ e ∈ d.entries, e.1 ≠ [])
    (h : TokenRun d run es left) (hr : es.length < rounds) :
    connectorsWithin d rounds ⟨run⟩ = some (runReport es left, ⟨left⟩) := by
  induction h generalizing rounds with
  | @blank w hw =>
      obtain ⟨rounds, rfl⟩ := Nat.exists_eq_add_of_lt hr
      rw [connectorsWithin, connectorRound_of_blank hw]
      have hskip := skipBlanks_append (r := []) hw (by simp)
      rw [List.append_nil] at hskip
      rw [hskip]
      rfl
  | @stop w cs c hw hc hn =>
      obtain ⟨rounds, rfl⟩ := Nat.exists_eq_add_of_lt hr
      rw [connectorsWithin, connectorRound_of_stop hw hc hn]
      simp only [skipBlanks_append (r := c :: cs) hw (by simpa using hc)]
      rfl
  | @token w r left e es hw hb he _ ih =>
      obtain ⟨rounds, rfl⟩ := Nat.exists_eq_add_of_lt hr
      have hrest : es.length < (e :: es).length + rounds := by
        rw [List.length_cons]
        omega
      rw [connectorsWithin, connectorRound_of_token hw (hd e he.1) hb he]
      simp only [ih hrest, Option.map_some, runReport_cons]

theorem exists_tokenRun (hd : ∀ e ∈ d.entries, e.1 ≠ []) (run : List Char) :
    ∃ es left, TokenRun d run es left := by
  induction hn : run.length using Nat.strong_induction_on generalizing run with
  | _ n ih =>
      obtain ⟨w, hsplit, hw⟩ := exists_trimStart run
      have hhead : ∀ c, (trimStart run).head? = some c → isBlank c = false :=
        fun c => not_blank_of_head?_trimStart
      cases hr : trimStart run with
      | nil =>
          rw [hr, List.append_nil] at hsplit
          exact ⟨[], [], .blank (hsplit ▸ hw)⟩
      | cons c cs =>
          rw [hr] at hsplit hhead
          cases he : d.longestToken? (c :: cs) with
          | none =>
              have hstop := TokenRun.stop c hw (hhead c rfl) (longestToken?_eq_none_iff.mp he)
              rw [← hsplit] at hstop
              exact ⟨[], c :: cs, hstop⟩
          | some e =>
              have hlongest := longestToken?_eq_some_iff.mp he
              obtain ⟨r, hcs⟩ := hlongest.2.1
              rw [← hcs] at hsplit hhead hlongest
              have hpos := List.length_pos_iff.mpr (hd e hlongest.1)
              have hlength := congrArg List.length hsplit
              simp only [List.length_append] at hlength
              obtain ⟨es, left, hrest⟩ := ih r.length (by omega) r rfl
              have htoken := TokenRun.token hw hhead hlongest hrest
              rw [List.append_assoc, ← hsplit] at htoken
              exact ⟨e :: es, left, htoken⟩

/-- Rounds that come to an end give what the reader gives. -/
theorem readConnectors_of_connectorsWithin (hd : ∀ e ∈ d.entries, e.1 ≠ []) {b rest : Buffer}
    {report : Logged (List Connective)} (h : connectorsWithin d rounds b = some (report, rest)) :
    readConnectors d b = report := by
  induction rounds generalizing b report with
  | zero => cases h
  | succ rounds ih =>
      rw [connectorsWithin] at h
      rw [readConnectors_eq_connectorRound hd]
      cases hround : connectorRound d b with
      | error f =>
          rw [hround] at h
          cases h
          rfl
      | ok p =>
          rw [hround] at h
          cases p with
          | none =>
              cases h
              rfl
          | some p =>
              obtain ⟨word, c, next⟩ := p
              obtain ⟨⟨further, left⟩, hfurther, hp⟩ := Option.map_eq_some_iff.mp h
              cases hp
              simp only [ih hfurther]

/-- What is left starts with no blank and no token. -/
theorem TokenRun.stuck (h : TokenRun d run es left) (hne : left ≠ []) :
    (∀ c ∈ left.head?, isBlank c = false) ∧ ∀ e ∈ d.entries, ¬e.1 <+: left := by
  induction h with
  | blank => exact absurd rfl hne
  | stop c _ hc hn => exact ⟨by simpa using hc, hn⟩
  | token _ _ _ _ ih => exact ih hne

/-- The first word is up to the first blank, and there is one if the text starts with none. -/
theorem exists_firstWord (hne : left ≠ []) (hb : ∀ c ∈ left.head?, isBlank c = false) :
    ∃ word behind, left = word ++ behind ∧ word ≠ [] ∧ (∀ c ∈ word, isBlank c = false) ∧
      (∀ c ∈ behind.head?, isBlank c = true) ∧
      noConnector left = if word.length = 1 then .form (.dangling word)
        else .unrecognized .connective word := by
  obtain ⟨c, cs, rfl⟩ := List.exists_cons_of_ne_nil hne
  have hc := hb c rfl
  refine ⟨firstWord (c :: cs), _, (firstWord_append_dropWhile _).symm, ?_,
    fun c => not_blank_of_mem_firstWord, fun c => blank_of_head?_dropWhile, rfl⟩
  simp [firstWord, hc]

/-! ## The outcome -/

/-- With no token empty, every run is read to an end, within a round for each character and a
last one. It is blanks and tokens in turn, each token the longest that prefixes all that
follows, and each is reported. The connectives come out if nothing is left. Else the reading
stops where no token prefixes what is left, and its first word dangles if it is a single
character, and is an unknown operator if it is longer. -/
theorem readConnectors_tokenRun (hd : ∀ e ∈ d.entries, e.1 ≠ []) (run : List Char) :
    ∃ es left, TokenRun d run es left ∧
      connectorsWithin d (run.length + 1) ⟨run⟩ = some (readConnectors d ⟨run⟩, ⟨left⟩) ∧
      (readConnectors d ⟨run⟩).events = es.map (fun e => .connector e.1 e.2) ∧
      (left = [] → (readConnectors d ⟨run⟩).outcome = .ok (es.map (·.2))) ∧
      (left ≠ [] → (∀ e ∈ d.entries, ¬e.1 <+: left) ∧
        ∃ word behind, left = word ++ behind ∧ word ≠ [] ∧ (∀ c ∈ word, isBlank c = false) ∧
          (∀ c ∈ behind.head?, isBlank c = true) ∧
          (readConnectors d ⟨run⟩).outcome =
            .error (if word.length = 1 then .form (.dangling word)
              else .unrecognized .connective word)) := by
  obtain ⟨es, left, hrun⟩ := exists_tokenRun hd run
  have hlength := Nat.lt_succ_of_le (hrun.length_le hd)
  have hwithin := hrun.connectorsWithin_eq hd hlength
  have hread := readConnectors_of_connectorsWithin hd hwithin
  refine ⟨es, left, hrun, by rw [hwithin, hread], by rw [hread, runReport], ?_, ?_⟩
  · rintro rfl
    rw [hread]
    rfl
  · intro hne
    obtain ⟨hb, hn⟩ := hrun.stuck hne
    obtain ⟨word, behind, hleft, hword, hwb, hbehind, herror⟩ := exists_firstWord hne hb
    refine ⟨hn, word, behind, hleft, hword, hwb, hbehind, ?_⟩
    have hempty : left.isEmpty = false := List.isEmpty_eq_false_iff.mpr hne
    rw [hread, ← herror]
    simp only [runReport, hempty, Bool.false_eq_true, if_false]

/-- Tokens that no check would pass: one with a blank in it, and one of a single character
that starts it. -/
def spacedTokens : Dialect where
  entries := [("é".toList, .and), ("é b".toList, .or), ("&&".toList, .and)]
  limit := none
  nodup := by decide

theorem spacedTokens_tokenRun : (∀ e ∈ spacedTokens.entries, e.1 ≠ []) ∧
    TokenRun spacedTokens " é b&&é\u2003日 OR".toList
      [("é b".toList, .or), ("&&".toList, .and), ("é".toList, .and)] "日 OR".toList ∧
    (readConnectors spacedTokens ⟨" é b&&é\u2003日 OR".toList⟩).outcome =
      .error (.form (.dangling "日".toList)) := by
  have hd : ∀ e ∈ spacedTokens.entries, e.1 ≠ [] := by decide
  obtain ⟨es, left, hrun, hwithin, hevents, -⟩ :=
    readConnectors_tokenRun hd " é b&&é\u2003日 OR".toList
  have hrounds : (connectorsWithin spacedTokens 13 ⟨" é b&&é\u2003日 OR".toList⟩).map
      (fun p => (p.1.events, p.1.outcome, p.2)) =
        some ([("é b".toList, .or), ("&&".toList, .and), ("é".toList, .and)].map
          (fun e => Event.connector e.1 e.2), .error (.form (.dangling "日".toList)),
          ⟨"日 OR".toList⟩) := by decide
  have hlength : " é b&&é\u2003日 OR".toList.length + 1 = 13 := by decide
  rw [hlength] at hwithin
  rw [hwithin] at hrounds
  simp only [Option.map_some, Option.some.injEq, Prod.mk.injEq, Buffer.mk.injEq] at hrounds
  obtain ⟨hreported, houtcome, rfl⟩ := hrounds
  have hinjective : Function.Injective
      fun e : List Char × Connective => Event.connector e.1 e.2 := by
    intro e o h
    exact Prod.ext (Event.connector.inj h).1 (Event.connector.inj h).2
  have hes := List.map_injective_iff.mpr hinjective (hevents.symm.trans hreported)
  exact ⟨hd, hes ▸ hrun, houtcome⟩

end

end ComparisonChain.Reading
