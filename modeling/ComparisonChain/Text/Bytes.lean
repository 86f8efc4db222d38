/-!
# Byte positions in a text

A text is a list of characters and is addressed by byte in its UTF-8 encoding.
A position is aligned when it falls between two characters; a text is cut at
aligned positions only. `splitAtByte?_eq_some_iff` says which cuts exist, and
the searches return the byte before which a character starts.
-/
namespace ComparisonChain.Text

/-- Length of the UTF-8 encoding. -/
def byteSize : List Char → Nat
  | [] => 0
  | c :: cs => c.utf8Size + byteSize cs

@[simp] theorem byteSize_nil : byteSize [] = 0 := rfl

@[simp] theorem byteSize_cons (c : Char) (cs : List Char) :
    byteSize (c :: cs) = c.utf8Size + byteSize cs := rfl

@[simp] theorem byteSize_append (a b : List Char) :
    byteSize (a ++ b) = byteSize a + byteSize b := by
  induction a with
  | nil => simp
  | cons c cs ih => simp only [List.cons_append, byteSize_cons, ih]; omega

theorem byteSize_eq_zero {cs : List Char} : byteSize cs = 0 ↔ cs = [] := by
  cases cs with
  | nil => simp
  | cons c cs =>
      have := c.utf8Size_pos
      simp only [byteSize_cons, reduceCtorEq, iff_false]
      omega

/-- The text before and after byte `n`; none where `n` is past the end or
inside a character. -/
def splitAtByte? : Nat → List Char → Option (List Char × List Char)
  | 0, cs => some ([], cs)
  | _ + 1, [] => none
  | n + 1, c :: cs =>
      if c.utf8Size ≤ n + 1 then
        (splitAtByte? (n + 1 - c.utf8Size) cs).map fun p => (c :: p.1, p.2)
      else none

theorem eq_append_of_splitAtByte? {n : Nat} {cs : List Char} {p : List Char × List Char}
    (h : splitAtByte? n cs = some p) : cs = p.1 ++ p.2 ∧ byteSize p.1 = n := by
  induction cs generalizing n p with
  | nil =>
      cases n with
      | zero => simp only [splitAtByte?, Option.some.injEq] at h; subst h; simp
      | succ n => simp [splitAtByte?] at h
  | cons c cs ih =>
      cases n with
      | zero => simp only [splitAtByte?, Option.some.injEq] at h; subst h; simp
      | succ n =>
          simp only [splitAtByte?] at h
          split at h
          · next fits =>
              obtain ⟨q, hq, rfl⟩ := Option.map_eq_some_iff.mp h
              obtain ⟨hs, hn⟩ := ih hq
              refine ⟨by simp [← hs], ?_⟩
              simp only [byteSize_cons, hn]
              omega
          · simp at h

theorem splitAtByte?_append (a b : List Char) :
    splitAtByte? (byteSize a) (a ++ b) = some (a, b) := by
  induction a with
  | nil => simp [splitAtByte?]
  | cons c cs ih =>
      have hc := c.utf8Size_pos
      obtain ⟨n, hn⟩ : ∃ n, byteSize (c :: cs) = n + 1 :=
        ⟨c.utf8Size + byteSize cs - 1, by simp only [byteSize_cons]; omega⟩
      have hr : n + 1 - c.utf8Size = byteSize cs := by
        simp only [byteSize_cons] at hn
        omega
      have hf : c.utf8Size ≤ n + 1 := by simp only [byteSize_cons] at hn; omega
      rw [hn, List.cons_append, splitAtByte?, if_pos hf, hr, ih]
      rfl

/-- A text can be cut exactly where some first part of it ends. -/
theorem splitAtByte?_eq_some_iff {n : Nat} {cs : List Char} {p : List Char × List Char} :
    splitAtByte? n cs = some p ↔ cs = p.1 ++ p.2 ∧ byteSize p.1 = n :=
  ⟨eq_append_of_splitAtByte?, fun ⟨hs, hn⟩ => hs ▸ hn ▸ splitAtByte?_append p.1 p.2⟩

/-- Byte position of the first `x`. -/
def findFirst? (x : Char) : List Char → Option Nat
  | [] => none
  | c :: cs => if c = x then some 0 else (findFirst? x cs).map (c.utf8Size + ·)

/-- Byte position of the last `x`. -/
def findLast? (x : Char) : List Char → Option Nat
  | [] => none
  | c :: cs =>
      match findLast? x cs with
      | some n => some (c.utf8Size + n)
      | none => if c = x then some 0 else none

theorem findFirst?_eq_none {x : Char} {cs : List Char} (h : x ∉ cs) : findFirst? x cs = none := by
  induction cs with
  | nil => rfl
  | cons c cs ih =>
      rw [List.mem_cons, not_or] at h
      rw [findFirst?, if_neg (Ne.symm h.1), ih h.2]
      rfl

theorem notMem_of_findFirst?_eq_none {x : Char} {cs : List Char} (h : findFirst? x cs = none) :
    x ∉ cs := by
  induction cs with
  | nil => simp
  | cons c cs ih =>
      rw [findFirst?] at h
      split at h
      · cases h
      · next hc =>
          rw [List.mem_cons, not_or]
          exact ⟨Ne.symm hc, ih (Option.map_eq_none_iff.mp h)⟩

theorem findFirst?_append_cons {x : Char} {a : List Char} (h : x ∉ a) (b : List Char) :
    findFirst? x (a ++ x :: b) = some (byteSize a) := by
  induction a with
  | nil => simp [findFirst?]
  | cons c cs ih =>
      rw [List.mem_cons, not_or] at h
      rw [List.cons_append, findFirst?, if_neg (Ne.symm h.1), ih h.2]
      rfl

theorem exists_of_findFirst? {x : Char} {cs : List Char} {n : Nat} (h : findFirst? x cs = some n) :
    ∃ a b, cs = a ++ x :: b ∧ x ∉ a ∧ byteSize a = n := by
  induction cs generalizing n with
  | nil => cases h
  | cons c cs ih =>
      rw [findFirst?] at h
      split at h
      · next hc =>
          cases h
          exact ⟨[], cs, by rw [hc, List.nil_append], by simp, rfl⟩
      · next hc =>
          obtain ⟨k, hk, rfl⟩ := Option.map_eq_some_iff.mp h
          obtain ⟨a, b, rfl, ha, rfl⟩ := ih hk
          exact ⟨c :: a, b, rfl, by simpa [ha] using Ne.symm hc, rfl⟩

theorem takeWhile_ne_append {x : Char} {a : List Char} (h : x ∉ a) (b : List Char) :
    (a ++ x :: b).takeWhile (· != x) = a := by
  rw [List.takeWhile_append_of_pos]
  · simp
  · intro c hc
    simpa using fun he : c = x => h (he ▸ hc)

theorem dropWhile_ne_append {x : Char} {a : List Char} (h : x ∉ a) (b : List Char) :
    (a ++ x :: b).dropWhile (· != x) = x :: b := by
  rw [List.dropWhile_append_of_pos]
  · simp
  · intro c hc
    simpa using fun he : c = x => h (he ▸ hc)

theorem findLast?_eq_none {x : Char} {cs : List Char} (h : x ∉ cs) : findLast? x cs = none := by
  induction cs with
  | nil => rfl
  | cons c cs ih =>
      rw [List.mem_cons, not_or] at h
      simp only [findLast?, ih h.2, if_neg (Ne.symm h.1)]

theorem findLast?_append_cons {x : Char} {b : List Char} (h : x ∉ b) (a : List Char) :
    findLast? x (a ++ x :: b) = some (byteSize a) := by
  induction a with
  | nil => simp [findLast?, findLast?_eq_none h]
  | cons c cs ih => simp only [List.cons_append, findLast?, ih, byteSize_cons]

theorem notMem_of_findLast?_eq_none {x : Char} {cs : List Char} (h : findLast? x cs = none) :
    x ∉ cs := by
  induction cs with
  | nil => simp
  | cons c cs ih =>
      simp only [findLast?] at h
      split at h
      · cases h
      · next hn =>
          split at h
          · cases h
          · next hc => simpa [ih hn] using Ne.symm hc

theorem exists_of_findLast? {x : Char} {cs : List Char} {n : Nat} (h : findLast? x cs = some n) :
    ∃ a b, cs = a ++ x :: b ∧ x ∉ b ∧ byteSize a = n := by
  induction cs generalizing n with
  | nil => cases h
  | cons c cs ih =>
      simp only [findLast?] at h
      split at h
      · next k hk =>
          cases h
          obtain ⟨a, b, rfl, hb, rfl⟩ := ih hk
          exact ⟨c :: a, b, rfl, hb, rfl⟩
      · next hn =>
          split at h
          · next hc =>
              cases h
              exact ⟨[], cs, by rw [hc, List.nil_append], notMem_of_findLast?_eq_none hn, rfl⟩
          · cases h

end ComparisonChain.Text
