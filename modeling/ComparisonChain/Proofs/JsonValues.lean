import ComparisonChain.Json.Chain
import ComparisonChain.Proofs.Numerals

/-!
# Written JSON values

What is written as a word, a number or a list is read as that again, whatever
comes after it. A number ends only where no digit, point or power follows, so an
item of a list is asked for its reading before a comma and before the closing
bracket only; `list_jsonList` puts the items together.
-/
namespace ComparisonChain.Json
open Numeral Chain

section
variable {α : Type} {c : Char} {cs ds rest w : List Char} {k m : Nat}

theorem skipSpace_cons (hc : isSpace c = false) (cs : List Char) :
    skipSpace (c :: cs) = c :: cs := by
  rw [skipSpace, List.dropWhile_cons, hc, if_neg (by simp)]

theorem byHead_cons (f : Char → List Char → Except Fault α) (hc : isSpace c = false)
    (cs : List Char) : byHead f (c :: cs) = f c cs := by
  rw [byHead, skipSpace_cons hc]

/-! ## Words -/

/-- Characters that stand for themselves in a string. -/
def PlainWord (w : List Char) : Prop := ∀ c ∈ w, c ≠ '"' ∧ c ≠ '\\' ∧ 0x20 ≤ c.toNat

theorem stringBody_append (hw : PlainWord w) (rest : List Char) :
    stringBody (w ++ '"' :: rest) = .ok (w, rest) := by
  induction w with
  | nil => simp [stringBody]
  | cons c w ih =>
      obtain ⟨hquote, hbackslash, hcontrol⟩ := hw c List.mem_cons_self
      have hrest := ih fun x hx => hw x (List.mem_cons_of_mem c hx)
      rw [List.cons_append, stringBody, if_neg hquote, if_neg hbackslash,
        if_neg (Nat.not_lt.mpr hcontrol), hrest]

theorem jsonWord_append (w rest : List Char) :
    jsonWord w ++ rest = '"' :: (w ++ '"' :: rest) := by
  simp [jsonWord]

theorem key_jsonWord (hw : PlainWord w) (rest : List Char) :
    key (jsonWord w ++ rest) = .ok (w, rest) := by
  rw [jsonWord_append, key, byHead_cons _ (by decide), if_pos rfl, stringBody_append hw]

theorem alternative_jsonWord {ofName? : List Char → Option α} {a : α} (hw : PlainWord w)
    (ha : ofName? w = some a) (rest : List Char) :
    alternative ofName? (jsonWord w ++ rest) = .ok (a, rest) := by
  rw [jsonWord_append, alternative, byHead_cons _ (by decide), if_pos rfl, stringBody_append hw]
  simp only [bind, Except.bind, ha]

/-! ## Numbers -/

/-- Nothing follows that would belong to the number. -/
def EndsNumber (rest : List Char) : Prop :=
  ∀ c ∈ rest.head?, c.isDigit = false ∧ c ≠ '.' ∧ c ≠ 'e' ∧ c ≠ 'E'

theorem someDigits_append (hne : ds ≠ []) (hds : ∀ c ∈ ds, c.isDigit = true)
    (hrest : EndsNumber rest) : someDigits (ds ++ rest) = .ok (ds, rest) := by
  have hend : rest.takeWhile Char.isDigit = [] ∧ rest.dropWhile Char.isDigit = rest := by
    cases rest with
    | nil => exact ⟨rfl, rfl⟩
    | cons c rest => simp [(hrest c rfl).1]
  obtain ⟨d, ds', rfl⟩ := List.exists_cons_of_ne_nil hne
  have hd := hds d List.mem_cons_self
  rw [List.cons_append, someDigits, if_pos hd, ← List.cons_append,
    List.takeWhile_append_of_pos hds, List.dropWhile_append_of_pos hds, hend.1, hend.2,
    List.append_nil]

theorem isDigit_of_mem_toDigits : ∀ c ∈ Nat.toDigits 10 m, c.isDigit = true :=
  fun _ hc => Nat.isDigit_of_mem_toDigits (by decide) (by decide) hc

theorem length_toDigits_of_zero (h : (Nat.toDigits 10 m).head? = some '0') :
    (Nat.toDigits 10 m).length = 1 := by
  cases m with
  | zero => rfl
  | succ m => exact absurd h (head?_toDigits (Nat.succ_pos m))

theorem wholePart_toDigits (hrest : EndsNumber rest) :
    wholePart (Nat.toDigits 10 m ++ rest) = .ok (Nat.toDigits 10 m, rest) := by
  have hzero : ¬((Nat.toDigits 10 m).head? = some '0' ∧ (Nat.toDigits 10 m).length ≠ 1) :=
    fun h => h.2 (length_toDigits_of_zero h.1)
  simp only [wholePart, someDigits_append Nat.toDigits_ne_nil isDigit_of_mem_toDigits hrest, bind,
    Except.bind, if_neg hzero]

theorem fractionPart_of_endsNumber (h : EndsNumber rest) :
    fractionPart rest = .ok (none, rest) := by
  unfold fractionPart
  split
  · exact absurd rfl (h '.' rfl).2.1
  · rfl

theorem powerPart_of_endsNumber (h : EndsNumber rest) : powerPart rest = .ok (none, rest) := by
  unfold powerPart
  split
  · next c cs =>
      obtain ⟨-, -, he, hE⟩ := h c rfl
      rw [if_neg (not_or.mpr ⟨he, hE⟩)]
  · rfl

theorem lexeme_of_wholePart (hsign : '-' ∉ cs.head?) (h : wholePart cs = .ok (w, rest))
    (hrest : EndsNumber rest) : lexeme cs = .ok (⟨false, w, none, none⟩, rest) := by
  unfold lexeme
  split
  next negative cs' hcs =>
    split at hcs
    · exact absurd rfl hsign
    · cases hcs
      simp only [h, fractionPart_of_endsNumber hrest, powerPart_of_endsNumber hrest, bind,
        Except.bind]
      rfl

theorem lexeme_minus (h : wholePart cs = .ok (w, rest)) (hrest : EndsNumber rest) :
    lexeme ('-' :: cs) = .ok (⟨true, w, none, none⟩, rest) := by
  simp only [lexeme, h, fractionPart_of_endsNumber hrest, powerPart_of_endsNumber hrest, bind,
    Except.bind]
  rfl

/-- Digits only add to a significand. -/
theorem le_foldl_digits (ds : List Char) (k : Nat) :
    k ≤ ds.foldl (fun n c => n * 10 + digitValue c) k := by
  induction ds generalizing k with
  | nil => exact Nat.le_refl k
  | cons d ds ih =>
      have hle := ih (k * 10 + digitValue d)
      rw [List.foldl_cons]
      omega

theorem absorb_of_lt (h : ds.foldl (fun n c => n * 10 + digitValue c) k < UInt64.size) :
    absorb k ds = (ds.foldl (fun n c => n * 10 + digitValue c) k, 0) := by
  induction ds generalizing k with
  | nil => rfl
  | cons d ds ih =>
      rw [List.foldl_cons] at h ⊢
      have hle := le_foldl_digits ds (k * 10 + digitValue d)
      rw [absorb, if_pos (by omega), ih h]

theorem ofDigits_toDigits (m : Nat) : ofDigits 10 (Nat.toDigits 10 m) = m := by
  rw [ofDigits_ten isDigit_of_mem_toDigits, Nat.ofDigitChars_toDigits (by decide) (by decide)]

theorem absorb_toDigits (h : m < UInt64.size) : absorb 0 (Nat.toDigits 10 m) = (m, 0) := by
  have hvalue := ofDigits_toDigits m
  rw [ofDigits] at hvalue
  rw [absorb_of_lt (by rwa [hvalue]), hvalue]

theorem number_toDigits (h : m < UInt64.size) (hrest : EndsNumber rest) :
    number (Nat.toDigits 10 m ++ rest) = .ok (.integer m, rest) := by
  have hsign : '-' ∉ (Nat.toDigits 10 m ++ rest).head? := by
    intro hm
    rw [List.head?_append_of_ne_nil _ Nat.toDigits_ne_nil] at hm
    cases isDigit_of_mem_toDigits '-' (List.mem_of_mem_head? hm)
  rw [number, lexeme_of_wholePart hsign (wholePart_toDigits hrest) hrest]
  simp [Lexeme.number, absorb_toDigits h, bind, Except.bind, pure, Except.pure]

theorem number_minus (hpos : 0 < m) (h : m ≤ 0x8000000000000000) (hrest : EndsNumber rest) :
    number ('-' :: (Nat.toDigits 10 m ++ rest)) = .ok (.integer (-m), rest) := by
  have hsize : m < UInt64.size := Nat.lt_of_le_of_lt h (by decide)
  rw [number, lexeme_minus (wholePart_toDigits hrest) hrest]
  simp [Lexeme.number, absorb_toDigits hsize, hpos, h, bind, Except.bind, pure, Except.pure]

theorem number_decimal (n : Int64) (hrest : EndsNumber rest) :
    number (decimal n ++ rest) = .ok (.integer n.toInt, rest) := by
  have hlt := n.toInt_lt
  have hle := n.le_toInt
  rcases decimal_cases n with ⟨hn, hd⟩ | ⟨hn, hd⟩
  · rw [hd, List.cons_append, number_minus (by omega) (by omega) hrest,
      show -(n.toInt.natAbs : Int) = n.toInt by omega]
  · have hsize : n.toInt.natAbs < UInt64.size :=
      Nat.lt_trans (by omega : n.toInt.natAbs < 0x8000000000000000) (by decide)
    rw [hd, number_toDigits hsize hrest, show (n.toInt.natAbs : Int) = n.toInt by omega]

theorem exists_head_decimal (n : Int64) : ∃ c cs, decimal n = c :: cs ∧ (c = '-' ∨ c.isDigit) := by
  rcases decimal_cases n with ⟨-, hd⟩ | ⟨-, hd⟩
  · exact ⟨'-', _, hd, .inl rfl⟩
  · obtain ⟨c, cs, hcs⟩ := List.exists_cons_of_ne_nil
      (Nat.toDigits_ne_nil (b := 10) (n := n.toInt.natAbs))
    exact ⟨c, cs, hd.trans hcs, .inr (isDigit_of_mem_toDigits c (hcs ▸ List.mem_cons_self))⟩

theorem isSpace_eq_false_of_number (h : c = '-' ∨ c.isDigit = true) : isSpace c = false := by
  rcases h with rfl | h
  · decide
  · have hbounds := bounds_of_isDigit h
    simp only [isSpace, Bool.or_eq_false_iff, beq_eq_false_iff_ne]
    refine ⟨⟨⟨?_, ?_⟩, ?_⟩, ?_⟩ <;> rintro rfl <;> revert hbounds <;> decide

theorem jsonNumber_decimal (n : Int64) (hrest : EndsNumber rest) :
    jsonNumber (decimal n ++ rest) = .ok (n, rest) := by
  obtain ⟨c, cs, hn, hc⟩ := exists_head_decimal n
  have hnumber := number_decimal n hrest
  have hbounds : Int64.minValue.toInt ≤ n.toInt ∧ n.toInt ≤ Int64.maxValue.toInt :=
    ⟨n.minValue_le_toInt, n.toInt_le⟩
  rw [hn, List.cons_append] at hnumber ⊢
  rw [jsonNumber, integer, byHead_cons _ (isSpace_eq_false_of_number hc), if_pos hc, hnumber]
  simp only [if_pos hbounds, Except.map, Int64.ofInt_toInt]

/-! ## Lists -/

/-- An item is read again from what is written for it, wherever the list goes on
or ends behind it, and cannot be taken for the end of the list. -/
structure Restores (item : Reader α) (write : α → List Char) : Prop where
  head : ∀ a, ∃ c ∈ (write a).head?, isSpace c = false ∧ c ≠ ']'
  read : ∀ a c rest, c = ',' ∨ c = ']' → item (write a ++ c :: rest) = .ok (a, c :: rest)

/-- The items after the first, each with its comma. -/
def furtherItems (write : α → List Char) (as : List α) : List Char :=
  as.flatMap fun a => ',' :: write a

variable {item : Reader α} {write : α → List Char}

theorem nextItem_write (h : Restores item write) (a : α) (rest : List Char) :
    nextItem true (write a ++ rest) = .ok (.item (write a ++ rest)) ∧
      nextItem false (',' :: (write a ++ rest)) = .ok (.item (write a ++ rest)) := by
  obtain ⟨c, hc, hspace, hclose⟩ := h.head a
  obtain ⟨cs, hcs⟩ := List.head?_eq_some_iff.mp hc
  have hcomma : isSpace ',' = false := by decide
  have hne : ',' ≠ ']' := by decide
  simp [nextItem, hcs, byHead_cons _ hspace, byHead_cons _ hcomma, hclose]

theorem nextItem_close (isFirst : Bool) (rest : List Char) :
    nextItem isFirst (']' :: rest) = .ok (.done (']' :: rest)) := by
  rw [nextItem, byHead_cons _ (by decide), if_pos rfl]

theorem endList_close (rest : List Char) : endList (']' :: rest) = .ok rest := by
  rw [endList, byHead_cons _ (by decide), if_pos rfl]

theorem items_close (room : Nat) (isFirst : Bool) (rest : List Char) :
    items item (room + 1) isFirst (']' :: rest) = .ok ([], rest) := by
  simp only [items, nextItem_close, endList_close, Except.map]

/-- What stands behind an item is a comma or the end of the list. -/
theorem exists_furtherItems_append (write : α → List Char) (as : List α) (rest : List Char) :
    ∃ c cs, furtherItems write as ++ ']' :: rest = c :: cs ∧ (c = ',' ∨ c = ']') := by
  cases as with
  | nil => exact ⟨']', rest, rfl, .inr rfl⟩
  | cons a as => exact ⟨',', _, rfl, .inl rfl⟩

theorem items_furtherItems (h : Restores item write) (as : List α) (rest : List Char)
    {room : Nat} (hroom : as.length < room) :
    items item room false (furtherItems write as ++ ']' :: rest) = .ok (as, rest) := by
  induction as generalizing room with
  | nil =>
      obtain ⟨room, rfl⟩ := Nat.exists_eq_succ_of_ne_zero (Nat.ne_zero_of_lt hroom)
      exact items_close room false rest
  | cons a as ih =>
      obtain ⟨room, rfl⟩ := Nat.exists_eq_succ_of_ne_zero (Nat.ne_zero_of_lt hroom)
      have hsplit : furtherItems write (a :: as) ++ ']' :: rest =
          ',' :: (write a ++ (furtherItems write as ++ ']' :: rest)) := by simp [furtherItems]
      obtain ⟨c, cs, hnext, hc⟩ := exists_furtherItems_append write as rest
      have htail := ih (Nat.lt_of_succ_lt_succ hroom)
      rw [hnext] at htail
      rw [hsplit, items, (nextItem_write h a _).2, hnext]
      simp only [h.read a c cs hc, htail, Except.map]

theorem intercalate_cons_map (a : α) (as : List α) :
    [','].intercalate ((a :: as).map write) = write a ++ furtherItems write as := by
  induction as generalizing a with
  | nil => simp [furtherItems]
  | cons b as ih =>
      have hrest := ih b
      rw [List.map_cons] at hrest
      rw [List.map_cons, List.map_cons, List.intercalate_cons_cons, hrest]
      simp [furtherItems]

theorem length_le_furtherItems (write : α → List Char) (as : List α) :
    as.length ≤ (furtherItems write as).length := by
  induction as with
  | nil => exact Nat.le_refl 0
  | cons a as ih =>
      simp only [furtherItems, List.flatMap_cons, List.length_append, List.length_cons] at ih ⊢
      omega

theorem list_jsonList (h : Restores item write) (as : List α) (rest : List Char) :
    list item (jsonList (as.map write) ++ rest) = .ok (as, rest) := by
  have hopen : isSpace '[' = false := by decide
  cases as with
  | nil =>
      simp only [jsonList, List.map_nil, List.intercalate_nil, List.append_nil, List.cons_append,
        List.nil_append, list, byHead_cons _ hopen, if_true, items_close]
  | cons a as =>
      have hsplit : jsonList ((a :: as).map write) ++ rest =
          '[' :: (write a ++ (furtherItems write as ++ ']' :: rest)) := by
        simp only [jsonList, intercalate_cons_map]
        simp
      have hroom : as.length < (write a ++ (furtherItems write as ++ ']' :: rest)).length := by
        have hle := length_le_furtherItems write as
        simp only [List.length_append, List.length_cons]
        omega
      obtain ⟨c, cs, hnext, hc⟩ := exists_furtherItems_append write as rest
      have htail := items_furtherItems h as rest hroom
      rw [hnext] at htail
      rw [hsplit, list, byHead_cons _ hopen, if_pos rfl, items, (nextItem_write h a _).1, hnext]
      simp only [h.read a c cs hc, htail, Except.map]

end

end ComparisonChain.Json
