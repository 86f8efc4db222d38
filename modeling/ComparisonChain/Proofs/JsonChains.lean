import ComparisonChain.Proofs.JsonValues

/-!
# Chains written in JSON

The record that is written for a chain is read as its three columns, and these
make that chain. Whatever record is read, in whatever order and with whatever
other fields, its columns become a chain only if they fit together; so no text
brings in a chain whose columns do not, and every chain that is read can be
written and read again.
-/
namespace ComparisonChain
open Json

namespace Json

section
variable {σ : Type} {member : σ → List Char → Reader σ} {s s' : σ} {w value rest : List Char}

/-! ## Members of a written record -/

theorem membersOn_first (hw : PlainWord w)
    (h : member s w (':' :: (value ++ rest)) = .ok (s', rest)) (room : Nat) :
    membersOn member (room + 1) true s (Chain.jsonMember w value ++ rest) =
      membersOn member room false s' rest := by
  have hsplit : Chain.jsonMember w value ++ rest =
      Chain.jsonWord w ++ (':' :: (value ++ rest)) := by simp [Chain.jsonMember]
  have hkey := key_jsonWord hw (':' :: (value ++ rest))
  have hquote : '"' ≠ '\x7d' := by decide
  rw [jsonWord_append] at hkey
  rw [hsplit, jsonWord_append, membersOn, nextKey, byHead_cons _ (by decide), if_neg hquote,
    if_pos rfl, hkey]
  simp only [Except.map, h]

theorem membersOn_next (hw : PlainWord w)
    (h : member s w (':' :: (value ++ rest)) = .ok (s', rest)) (room : Nat) :
    membersOn member (room + 1) false s (',' :: (Chain.jsonMember w value ++ rest)) =
      membersOn member room false s' rest := by
  have hsplit : Chain.jsonMember w value ++ rest =
      Chain.jsonWord w ++ (':' :: (value ++ rest)) := by simp [Chain.jsonMember]
  have hkey := key_jsonWord hw (':' :: (value ++ rest))
  have hcomma : ',' ≠ '\x7d' := by decide
  rw [hsplit, membersOn, nextKey, byHead_cons _ (by decide), if_neg hcomma, if_neg (by simp),
    if_pos rfl, hkey]
  simp only [Except.map, h]

theorem membersOn_close (room : Nat) (isFirst : Bool) (s : σ) (rest : List Char) :
    membersOn member (room + 1) isFirst s ('\x7d' :: rest) = .ok (s, rest) := by
  rw [membersOn, nextKey, byHead_cons _ (by decide), if_pos rfl]

theorem field_none {α : Type} {reader : Reader α} {set : α → σ} {a : α}
    (h : reader (value ++ rest) = .ok (a, rest)) :
    field none set reader (':' :: (value ++ rest)) = .ok (set a, rest) := by
  have hcolon : colon (':' :: (value ++ rest)) = .ok (value ++ rest) := by
    rw [colon, skipSpace_cons (by decide)]
    rfl
  simp only [field, memberValue, hcolon, bind, Except.bind, h, Except.map]

end

end Json

/-! ## Columns -/

theorem plainWord_token (c : Comparison) : PlainWord c.token := by
  cases c <;> simp [PlainWord, Comparison.token]

theorem plainWord_name (l : Connective) : PlainWord l.name := by
  cases l <;> simp [PlainWord, Connective.name]

theorem head_jsonWord (w : List Char) :
    ∃ c ∈ (Chain.jsonWord w).head?, isSpace c = false ∧ c ≠ ']' :=
  ⟨'"', rfl, by decide, by decide⟩

theorem restores_comparison :
    Restores Comparison.jsonReader fun c => Chain.jsonWord c.token where
  head c := head_jsonWord c.token
  read c x rest _ :=
    alternative_jsonWord (plainWord_token c) (Comparison.ofToken?_eq_some_iff.mpr rfl) (x :: rest)

theorem restores_connective :
    Restores Connective.jsonReader fun l => Chain.jsonWord l.name where
  head l := head_jsonWord l.name
  read l x rest _ :=
    alternative_jsonWord (plainWord_name l) (Connective.ofName?_eq_some_iff.mpr rfl) (x :: rest)

theorem restores_number : Restores Chain.jsonNumber Numeral.decimal where
  head n := by
    obtain ⟨c, cs, hn, hc⟩ := exists_head_decimal n
    refine ⟨c, by rw [hn]; rfl, isSpace_eq_false_of_number hc, ?_⟩
    rintro rfl
    revert hc
    decide
  read n x rest hx := by
    apply jsonNumber_decimal
    rintro c hc
    cases hc
    rcases hx with rfl | rfl <;> decide

namespace Chain

/-- There is a comparison, as many numbers as comparisons, and one connective fewer. -/
def ColumnsFit (cs : List Comparison) (ns : List Int64) (ls : List Connective) : Prop :=
  0 < cs.length ∧ ns.length = cs.length ∧ ls.length + 1 = cs.length

section
variable {cs : List Comparison} {ns : List Int64} {ls : List Connective} {c : Chain}
  {text rest : List Char} {draft : Draft}

theorem columnsFit (c : Chain) : ColumnsFit c.comparisons c.numbers c.connectives := by
  have hcomparisons := c.length_comparisons
  have hnumbers := c.length_numbers
  have hconnectives := c.length_connectives
  refine ⟨?_, ?_, ?_⟩ <;> omega

theorem exists_ofColumns_iff : (∃ c, ofColumns cs ns ls = .ok c) ↔ ColumnsFit cs ns ls := by
  constructor
  · intro h
    obtain ⟨c, hc⟩ := h
    obtain ⟨rfl, rfl, rfl⟩ := columns_of_ofColumns hc
    exact c.columnsFit
  · intro h
    obtain ⟨hpos, hnumbers, hconnectives⟩ := h
    cases cs with
    | nil => cases hpos
    | cons p cs =>
        cases ns with
        | nil => cases hnumbers
        | cons n ns =>
            rw [List.length_cons, Nat.add_right_cancel_iff] at hconnectives
            simp only [ofColumns, hnumbers, hconnectives]
            simp

/-! ## Reading what is written -/

theorem member_comparisons (cs : List Comparison) (ns : Option (List Int64))
    (ls : Option (List Connective)) (rest : List Char) :
    Draft.member ⟨none, ns, ls⟩ Draft.comparisonsKey
        (':' :: (jsonList (cs.map fun p => jsonWord p.token) ++ rest)) =
      .ok (⟨some cs, ns, ls⟩, rest) := by
  rw [Draft.member, if_pos rfl]
  exact field_none (list_jsonList restores_comparison cs rest)

theorem member_numbers (cs : Option (List Comparison)) (ns : List Int64)
    (ls : Option (List Connective)) (rest : List Char) :
    Draft.member ⟨cs, none, ls⟩ Draft.numbersKey
        (':' :: (jsonList (ns.map Numeral.decimal) ++ rest)) =
      .ok (⟨cs, some ns, ls⟩, rest) := by
  rw [Draft.member, if_neg (by decide), if_pos rfl]
  exact field_none (list_jsonList restores_number ns rest)

theorem member_connectives (cs : Option (List Comparison)) (ns : Option (List Int64))
    (ls : List Connective) (rest : List Char) :
    Draft.member ⟨cs, ns, none⟩ Draft.connectivesKey
        (':' :: (jsonList (ls.map fun l => jsonWord l.name) ++ rest)) =
      .ok (⟨cs, ns, some ls⟩, rest) := by
  rw [Draft.member, if_neg (by decide), if_neg (by decide), if_pos rfl]
  exact field_none (list_jsonList restores_connective ls rest)

theorem reader_json (c : Chain) : Draft.reader c.json =
    .ok (⟨some c.comparisons, some c.numbers, some c.connectives⟩, []) := by
  have hkeys : PlainWord Draft.comparisonsKey ∧ PlainWord Draft.numbersKey ∧
      PlainWord Draft.connectivesKey := by
    simp [PlainWord, Draft.comparisonsKey, Draft.numbersKey, Draft.connectivesKey]
  have hbrace : '\x7b' ≠ '[' := by decide
  obtain ⟨fields, hjson, hfields⟩ : ∃ fields, c.json = '\x7b' :: fields ∧ fields =
      jsonMember Draft.comparisonsKey (jsonList (c.comparisons.map fun p => jsonWord p.token)) ++
        ',' :: (jsonMember Draft.numbersKey (jsonList (c.numbers.map Numeral.decimal)) ++
          ',' :: (jsonMember Draft.connectivesKey
            (jsonList (c.connectives.map fun l => jsonWord l.name)) ++ ['\x7d'])) := by
    simp [json, List.intercalate_cons_cons]
  obtain ⟨room, hroom⟩ : ∃ room, fields.length + 1 = room + 4 := by
    refine ⟨fields.length - 3, ?_⟩
    rw [hfields]
    simp only [List.length_append, List.length_cons]
    omega
  rw [hjson, Draft.reader, record, byHead_cons _ (by decide), if_neg hbrace, if_pos rfl,
    Draft.asObject, members, hroom, hfields,
    membersOn_first hkeys.1 (member_comparisons c.comparisons none none _),
    membersOn_next hkeys.2.1 (member_numbers _ c.numbers none _),
    membersOn_next hkeys.2.2 (member_connectives _ _ c.connectives _), membersOn_close]

theorem ofJson_json (c : Chain) : ofJson c.json = .ok c := by
  simp only [ofJson, reader_json, Draft.columns, required, bind, Except.bind, pure, Except.pure,
    Option.getD_some, ofColumns_columns]
  rfl

/-! ## Reading any text -/

/-- The columns of the record decide, whatever its form. -/
theorem ofJson_of_reader (hr : Draft.reader text = .ok (draft, rest))
    (hcolumns : draft.columns = .ok (cs, ns, ls)) :
    ofJson text =
      match ofColumns cs ns ls with
      | .error f => .error (.contents f)
      | .ok chain =>
          match finish rest with
          | .error f => .error (.text f)
          | .ok () => .ok chain := by
  cases hc : ofColumns cs ns ls with
  | error f => simp only [ofJson, hr, hcolumns, hc]
  | ok chain => cases hf : finish rest <;> simp only [ofJson, hr, hcolumns, hc, hf]

theorem exists_reader_of_ofJson (h : ofJson text = .ok c) : ∃ draft rest,
    Draft.reader text = .ok (draft, rest) ∧
      draft.columns = .ok (c.comparisons, c.numbers, c.connectives) ∧ finish rest = .ok () := by
  cases hr : Draft.reader text with
  | error f => simp [ofJson, hr] at h
  | ok p =>
      obtain ⟨draft, rest⟩ := p
      cases hcolumns : draft.columns with
      | error f => simp [ofJson, hr, hcolumns] at h
      | ok columns =>
          obtain ⟨cs, ns, ls⟩ := columns
          rw [ofJson_of_reader hr hcolumns] at h
          cases hc : ofColumns cs ns ls with
          | error f => simp [hc] at h
          | ok chain =>
              cases hfinish : finish rest with
              | error f => simp [hc, hfinish] at h
              | ok u =>
                  simp only [hc, hfinish, Except.ok.injEq] at h
                  subst h
                  obtain ⟨rfl, rfl, rfl⟩ := columns_of_ofColumns hc
                  exact ⟨draft, rest, rfl, hcolumns, hfinish⟩

theorem ofJson_of_not_columnsFit (hr : Draft.reader text = .ok (draft, rest))
    (hcolumns : draft.columns = .ok (cs, ns, ls)) (h : ¬ColumnsFit cs ns ls) :
    ∃ f, ofJson text = .error (.contents f) := by
  rw [ofJson_of_reader hr hcolumns]
  cases hc : ofColumns cs ns ls with
  | error f => exact ⟨f, rfl⟩
  | ok chain => exact absurd (exists_ofColumns_iff.mp ⟨chain, hc⟩) h

/-- Columns that fit together make a chain of them, which is read from its own text. A
chain that is read from some text has the columns of the record in it; they fit together,
make that chain again, and its text is read as it. A record whose columns do not fit
together is refused for that. -/
theorem json_lossless :
    (∀ cs ns ls, ColumnsFit cs ns ls → ∃ c, ofColumns cs ns ls = .ok c ∧
      (c.comparisons = cs ∧ c.numbers = ns ∧ c.connectives = ls) ∧ ofJson c.json = .ok c) ∧
    (∀ text c, ofJson text = .ok c →
      (∃ draft rest, Draft.reader text = .ok (draft, rest) ∧
        draft.columns = .ok (c.comparisons, c.numbers, c.connectives)) ∧
      ColumnsFit c.comparisons c.numbers c.connectives ∧
      ofColumns c.comparisons c.numbers c.connectives = .ok c ∧ ofJson c.json = .ok c) ∧
    ∀ text draft rest cs ns ls, Draft.reader text = .ok (draft, rest) →
      draft.columns = .ok (cs, ns, ls) → ¬ColumnsFit cs ns ls →
        ∃ f, ofJson text = .error (.contents f) := by
  refine ⟨fun cs ns ls hfit => ?_, fun text c h => ?_, fun text draft rest cs ns ls => ?_⟩
  · obtain ⟨c, hc⟩ := exists_ofColumns_iff.mpr hfit
    exact ⟨c, hc, columns_of_ofColumns hc, ofJson_json c⟩
  · obtain ⟨draft, rest, hr, hcolumns, -⟩ := exists_reader_of_ofJson h
    exact ⟨⟨draft, rest, hr, hcolumns⟩, c.columnsFit, ofColumns_columns c, ofJson_json c⟩
  · exact ofJson_of_not_columnsFit

/-- The record that is read has its fields in another order, a field that is unknown and
none for the connectives; the one that is refused has a comparison too many. -/
theorem json_lossless_reordered :
    (ColumnsFit [.less, .notEqual] [Int64.minValue, Int64.maxValue] [.or] ∧
      ∃ c, ofColumns [.less, .notEqual] [Int64.minValue, Int64.maxValue] [.or] = .ok c ∧
        ofJson c.json = .ok c) ∧
    (ofJson "\x7b \"numbers\": [-7], \"note\": [\x7b\x7d], \"comparisons\": [\">=\"]\x7d".toList =
        .ok ⟨⟨.greaterEqual, -7⟩, []⟩ ∧
      ofJson (Chain.json ⟨⟨.greaterEqual, -7⟩, []⟩) = .ok ⟨⟨.greaterEqual, -7⟩, []⟩) ∧
    ∃ f, ofJson "[[\">\", \"<\"], [1], [\"AND\"]]".toList = .error (.contents f) := by
  have hfit : ColumnsFit [.less, .notEqual] [Int64.minValue, Int64.maxValue] [.or] :=
    ⟨by decide, rfl, rfl⟩
  have hread : ofJson
      "\x7b \"numbers\": [-7], \"note\": [\x7b\x7d], \"comparisons\": [\">=\"]\x7d".toList =
        .ok ⟨⟨.greaterEqual, -7⟩, []⟩ := by decide +kernel
  have hrecord : Draft.reader "[[\">\", \"<\"], [1], [\"AND\"]]".toList =
      .ok (⟨some [.greater, .less], some [1], some [.and]⟩, []) := by decide +kernel
  have hbroken : ¬ColumnsFit [.greater, .less] [1] [.and] := fun h => absurd h.2.1 (by decide)
  obtain ⟨hfitting, hany, hrefused⟩ := json_lossless
  obtain ⟨c, hc, -, hback⟩ := hfitting _ _ _ hfit
  exact ⟨⟨hfit, c, hc, hback⟩, ⟨hread, (hany _ _ hread).2.2.2⟩,
    hrefused _ _ _ _ _ _ hrecord rfl hbroken⟩

end

end Chain

end ComparisonChain
