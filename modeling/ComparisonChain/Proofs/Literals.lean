import ComparisonChain.Proofs.Contents
import ComparisonChain.Proofs.Numerals
import Mathlib.Data.List.Induction
import Mathlib.Data.Nat.Digits.Defs

/-!
# What literals denote

A literal spells digits in base 16, 8 or 10 after an optional sign, and denotes
the integer that has these digits, of any size. It is read just if that integer
fits 64 bits; `readNumber_eq_ok_iff_denotes` says so for every text, and that
every other text is at fault. Digits are told here by the characters that
numbers are printed with, and their value by their places.
-/
namespace ComparisonChain.Numeral
open Reading

/-- The characters stand for the digits of a base, letters in either case. -/
def Spells (base : Nat) : List Char → List Nat → Prop :=
  List.Forall₂ fun c d => d < base ∧ (c = Nat.digitChar d ∨ c = (Nat.digitChar d).toUpper)

/-- The unsigned literals and what they denote. Digits are written from the greatest place. -/
inductive Magnitude : List Char → Nat → Prop
  | hexadecimal {x : Char} {cs : List Char} {ds : List Nat} : x = 'x' ∨ x = 'X' → ds ≠ [] →
      Spells 16 cs ds → Magnitude ('0' :: x :: cs) (Nat.ofDigits 16 ds.reverse)
  | octal {cs : List Char} {ds : List Nat} : Spells 8 cs ds →
      Magnitude ('0' :: cs) (Nat.ofDigits 8 ds.reverse)
  | decimal {cs : List Char} {d : Nat} {ds : List Nat} : d ≠ 0 → Spells 10 cs (d :: ds) →
      Magnitude cs (Nat.ofDigits 10 (d :: ds).reverse)

/-- The literals, each with the integer that it denotes. -/
inductive Denotes : List Char → Int → Prop
  | bare {t : List Char} {m : Nat} : Magnitude t m → Denotes t m
  | plus {t : List Char} {m : Nat} : Magnitude t m → Denotes ('+' :: t) m
  | minus {t : List Char} {m : Nat} : Magnitude t m → Denotes ('-' :: t) (-m)

/-- A magnitude under its sign. -/
def signed (negative : Bool) (m : Nat) : Int := if negative then -m else m

section
variable {t cs : List Char} {ds : List Nat} {c : Char} {d m base : Nat} {z : Int}

/-! ## Digits -/

/-- The digits are among the first characters, which can be looked through. -/
theorem forall_of_toNat_lt {p : Char → Prop} (hp : ∀ n < 103, p (Char.ofNat n))
    (hc : c.toNat < 103) : p c := by
  have hfirst := hp c.toNat hc
  rwa [Char.ofNat_toNat] at hfirst

theorem digit_iff : (d < 16 ∧ (c = Nat.digitChar d ∨ c = (Nat.digitChar d).toUpper)) ↔
    isHexDigit c = true ∧ digitValue c = d := by
  constructor
  · intro h
    obtain ⟨hd, hc⟩ := h
    rcases hc with rfl | rfl <;> interval_cases d <;> decide
  · intro h
    obtain ⟨hc, rfl⟩ := h
    have hbounds := bounds_of_isHexDigit hc
    exact forall_of_toNat_lt (p := fun c => isHexDigit c = true → digitValue c < 16 ∧
      (c = Nat.digitChar (digitValue c) ∨ c = (Nat.digitChar (digitValue c)).toUpper))
      (by decide +kernel) (by omega) hc

/-- A class of digits is those below a base, if it is so among the first characters. -/
theorem isDigit_iff_of_first {p : Char → Bool} (hp : ∀ c, p c = true → c.toNat < 103)
    (h : ∀ n < 103, p (Char.ofNat n) = true ↔
      isHexDigit (Char.ofNat n) = true ∧ digitValue (Char.ofNat n) < base) :
    p c = true ↔ isHexDigit c = true ∧ digitValue c < base := by
  by_cases hc : c.toNat < 103
  · exact forall_of_toNat_lt
      (p := fun c => p c = true ↔ isHexDigit c = true ∧ digitValue c < base) h hc
  · refine iff_of_false (fun hpc => hc (hp c hpc)) fun hpc => ?_
    have hbounds := bounds_of_isHexDigit hpc.1
    omega

theorem isDigit_iff : c.isDigit = true ↔ isHexDigit c = true ∧ digitValue c < 10 := by
  refine isDigit_iff_of_first (fun c hc => ?_) (by decide +kernel)
  have hbounds := bounds_of_isDigit hc
  omega

theorem isOctalDigit_iff : isOctalDigit c = true ↔ isHexDigit c = true ∧ digitValue c < 8 := by
  refine isDigit_iff_of_first (fun c hc => ?_) (by decide +kernel)
  have hbounds := bounds_of_isOctalDigit hc
  omega

/-- Spelled digits are hexadecimal ones below the base, with their values. -/
theorem spells_iff (hb : base ≤ 16) : Spells base cs ds ↔
    (∀ c ∈ cs, isHexDigit c = true ∧ digitValue c < base) ∧ cs.map digitValue = ds := by
  induction cs generalizing ds with
  | nil => cases ds <;> simp [Spells]
  | cons c cs ih =>
      cases ds with
      | nil => simp [Spells]
      | cons d ds =>
          have hdigit : (d < base ∧ (c = Nat.digitChar d ∨ c = (Nat.digitChar d).toUpper)) ↔
              (isHexDigit c = true ∧ digitValue c < base) ∧ digitValue c = d := by
            constructor
            · intro h
              obtain ⟨hc, rfl⟩ := digit_iff.mp ⟨by omega, h.2⟩
              exact ⟨⟨hc, h.1⟩, rfl⟩
            · intro h
              obtain ⟨⟨hc, hlt⟩, rfl⟩ := h
              exact ⟨hlt, (digit_iff.mpr ⟨hc, rfl⟩).2⟩
          rw [Spells, List.forall₂_cons, ← Spells, ih, hdigit, List.forall_mem_cons, List.map_cons,
            List.cons.injEq]
          exact and_and_and_comm

theorem ofDigits_eq (base : Nat) (cs : List Char) :
    ofDigits base cs = Nat.ofDigits base (cs.map digitValue).reverse := by
  induction cs using List.reverseRecOn with
  | nil => rfl
  | append_singleton cs c ih =>
      rw [List.map_append, List.reverse_append, List.map_singleton, List.reverse_singleton,
        List.singleton_append, Nat.ofDigits_cons, ← ih, ofDigits, List.foldl_append, ← ofDigits,
        List.foldl_cons, List.foldl_nil, Nat.mul_comm, Nat.add_comm]

/-! ## Literals -/

theorem magnitude_iff :
    Magnitude t m ↔ ∃ base cs, Unsigned t base cs ∧ ofDigits base cs = m := by
  constructor
  · intro h
    cases h with
    | @hexadecimal x cs ds hx hne hs =>
        obtain ⟨hcs, rfl⟩ := (spells_iff (by decide)).mp hs
        refine ⟨16, cs, .hexadecimal hx (by simpa using hne) fun c hc => (hcs c hc).1, ?_⟩
        exact ofDigits_eq 16 cs
    | @octal cs ds hs =>
        obtain ⟨hcs, rfl⟩ := (spells_iff (by decide)).mp hs
        exact ⟨8, cs, .octal fun c hc => isOctalDigit_iff.mpr (hcs c hc), ofDigits_eq 8 cs⟩
    | @decimal _ d ds hd hs =>
        obtain ⟨hcs, hds⟩ := (spells_iff (by decide)).mp hs
        cases t with
        | nil => cases hds
        | cons c cs =>
            refine ⟨10, c :: cs, .decimal ?_ fun x hx => isDigit_iff.mpr (hcs x hx), ?_⟩
            · rintro rfl
              exact hd (List.cons.inj hds).1.symm
            · rw [ofDigits_eq, hds]
  · intro h
    obtain ⟨base, cs, hu, rfl⟩ := h
    rw [ofDigits_eq]
    cases hu with
    | hexadecimal hx hne hcs =>
        refine .hexadecimal hx (by simpa using hne) ((spells_iff (by decide)).mpr ⟨?_, rfl⟩)
        exact fun c hc => ⟨hcs c hc, (digit_iff.mpr ⟨hcs c hc, rfl⟩).1⟩
    | octal hcs =>
        exact .octal ((spells_iff (by decide)).mpr
          ⟨fun c hc => isOctalDigit_iff.mp (hcs c hc), rfl⟩)
    | @decimal c cs hc hcs =>
        have hfirst := isDigit_iff.mp (hcs c List.mem_cons_self)
        refine .decimal (fun hzero => hc ?_) ((spells_iff (by decide)).mpr
          ⟨fun x hx => isDigit_iff.mp (hcs x hx), rfl⟩)
        rcases (digit_iff.mpr ⟨hfirst.1, hzero⟩).2 with hchar | hchar
        · exact hchar.trans (by decide)
        · exact hchar.trans (by decide)

theorem sign_of_magnitude (h : Magnitude t m) : sign t = (false, t) := by
  obtain ⟨base, cs, hu, -⟩ := magnitude_iff.mp h
  exact sign_of_unsigned hu

theorem denotes_iff :
    Denotes t z ↔ ∃ m, Magnitude (sign t).2 m ∧ signed (sign t).1 m = z := by
  constructor
  · intro h
    cases h with
    | @bare _ m hm =>
        rw [sign_of_magnitude hm]
        exact ⟨m, hm, rfl⟩
    | @plus t m hm => exact ⟨m, hm, rfl⟩
    | @minus t m hm => exact ⟨m, hm, rfl⟩
  · intro h
    obtain ⟨m, hm, rfl⟩ := h
    revert hm
    unfold sign
    split
    · exact .minus
    · exact .plus
    · exact .bare

/-- A text denotes the value that its sign and digits give, or nothing. -/
theorem denotes_iff_digits? : Denotes t z ↔ ∃ base cs,
    digits? (sign t).2 = some (base, cs) ∧ signed (sign t).1 (ofDigits base cs) = z := by
  simp only [denotes_iff, magnitude_iff, digits?_eq_some_iff]
  constructor
  · rintro ⟨m, ⟨base, cs, hu, rfl⟩, hz⟩
    exact ⟨base, cs, hu, hz⟩
  · rintro ⟨base, cs, hu, hz⟩
    exact ⟨_, ⟨base, cs, hu, rfl⟩, hz⟩

theorem Denotes.unique {z' : Int} (h : Denotes t z) (h' : Denotes t z') : z = z' := by
  obtain ⟨base, cs, hd, rfl⟩ := denotes_iff_digits?.mp h
  obtain ⟨base', cs', hd', rfl⟩ := denotes_iff_digits?.mp h'
  cases hd.symm.trans hd'
  rfl

/-! ## Reading -/

/-- The limit is one farther below zero than above. -/
theorem fit_cases (negative : Bool) (m : Nat) (t : List Char) :
    (-2 ^ 63 ≤ signed negative m ∧ signed negative m ≤ 2 ^ 63 - 1 ∧
        fit negative m t = .ok (Int64.ofInt (signed negative m))) ∨
      (2 ^ 63 - 1 < signed negative m ∧ fit negative m t = .error (.tooLarge t)) ∨
      (signed negative m < -2 ^ 63 ∧ fit negative m t = .error (.tooSmall t)) := by
  cases negative with
  | false =>
      simp only [signed, fit, Bool.false_eq_true, if_false]
      split
      · exact .inl ⟨by omega, by omega, rfl⟩
      · exact .inr (.inl ⟨by omega, rfl⟩)
  | true =>
      simp only [signed, fit, if_true]
      split
      · exact .inl ⟨by omega, by omega, rfl⟩
      · exact .inr (.inr ⟨by omega, rfl⟩)

/-- What a text denotes decides how it is read, with the fault where it is refused. -/
theorem read_cases (t : List Char) :
    (∃ z n, Denotes t z ∧ -2 ^ 63 ≤ z ∧ z ≤ 2 ^ 63 - 1 ∧ n.toInt = z ∧ read t = .ok n) ∨
      (∃ z, Denotes t z ∧ 2 ^ 63 - 1 < z ∧ read t = .error (.tooLarge t)) ∨
      (∃ z, Denotes t z ∧ z < -2 ^ 63 ∧ read t = .error (.tooSmall t)) ∨
      ((∀ z, ¬Denotes t z) ∧ read t = .error (.malformed t)) := by
  unfold read
  cases hd : digits? (sign t).2 with
  | none =>
      refine .inr (.inr (.inr ⟨fun z hz => ?_, rfl⟩))
      obtain ⟨_, _, hsome, -⟩ := denotes_iff_digits?.mp hz
      rw [hd] at hsome
      cases hsome
  | some p =>
      obtain ⟨base, cs⟩ := p
      have hz : Denotes t (signed (sign t).1 (ofDigits base cs)) :=
        denotes_iff_digits?.mpr ⟨base, cs, hd, rfl⟩
      rcases fit_cases (sign t).1 (ofDigits base cs) t with ⟨hle, hge, h⟩ | ⟨hz', h⟩ | ⟨hz', h⟩
      · refine .inl ⟨_, _, hz, hle, hge, ?_, h⟩
        exact Int64.toInt_ofInt_of_le hle (by omega)
      · exact .inr (.inl ⟨_, hz, hz', h⟩)
      · exact .inr (.inr (.inl ⟨_, hz, hz', h⟩))

theorem read_eq_ok_iff {n : Int64} : read t = .ok n ↔ Denotes t n.toInt := by
  rcases read_cases t with ⟨z, k, hz, -, -, rfl, h⟩ | ⟨z, hz, hlt, h⟩ | ⟨z, hz, hlt, h⟩ | ⟨hno, h⟩
  · rw [h, Except.ok.injEq, ← Int64.toInt_inj]
    exact ⟨fun hk => hk ▸ hz, hz.unique⟩
  · rw [h]
    refine ⟨nofun, fun hn => ?_⟩
    have hle := n.toInt_lt
    rw [hz.unique hn] at hlt
    omega
  · rw [h]
    refine ⟨nofun, fun hn => ?_⟩
    have hge := n.le_toInt
    rw [hz.unique hn] at hlt
    omega
  · rw [h]
    exact ⟨nofun, fun hn => absurd hn (hno _)⟩

theorem readNumber_cases (t : List Char) :
    (∃ n, readNumber t = .ok n) ∨ ∃ f, readNumber t = .error (.form (.numeral f)) := by
  unfold readNumber
  cases read t with
  | ok n => exact .inl ⟨n, rfl⟩
  | error f => exact .inr ⟨f, rfl⟩

/-- A text is read as a number just if it is a literal that denotes an integer of 64 bits,
and then as that integer. Every other text is at fault. -/
theorem readNumber_eq_ok_iff_denotes (t : List Char) :
    (∀ n, readNumber t = .ok n ↔
      ∃ z, Denotes t z ∧ -2 ^ 63 ≤ z ∧ z ≤ 2 ^ 63 - 1 ∧ n.toInt = z) ∧
    ((∃ f, readNumber t = .error (.form (.numeral f))) ↔
      ¬∃ z, Denotes t z ∧ -2 ^ 63 ≤ z ∧ z ≤ 2 ^ 63 - 1) := by
  have hok : ∀ n, readNumber t = .ok n ↔
      ∃ z, Denotes t z ∧ -2 ^ 63 ≤ z ∧ z ≤ 2 ^ 63 - 1 ∧ n.toInt = z := by
    intro n
    rw [readNumber_eq_ok_iff, read_eq_ok_iff]
    constructor
    · intro h
      have hlt := n.toInt_lt
      exact ⟨n.toInt, h, n.le_toInt, by omega, rfl⟩
    · intro h
      obtain ⟨z, hz, -, -, rfl⟩ := h
      exact hz
  refine ⟨hok, ?_⟩
  constructor
  · intro herror hfits
    obtain ⟨f, hf⟩ := herror
    obtain ⟨z, hz, hle, hge⟩ := hfits
    have hn : (Int64.ofInt z).toInt = z := Int64.toInt_ofInt_of_le hle (by omega)
    rw [(hok (Int64.ofInt z)).mpr ⟨z, hz, hle, hge, hn⟩] at hf
    cases hf
  · intro hno
    rcases readNumber_cases t with ⟨n, hn⟩ | hf
    · obtain ⟨z, hz, hle, hge, -⟩ := (hok n).mp hn
      exact absurd ⟨z, hz, hle, hge⟩ hno
    · exact hf

end

end ComparisonChain.Numeral
