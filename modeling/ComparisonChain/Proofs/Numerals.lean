import ComparisonChain.Numeral
import ComparisonChain.Text.Blank
import ComparisonChain.Text.Brackets
import Mathlib.Data.List.Basic
import Mathlib.Tactic.IntervalCases

/-!
# Numerals

The digits of an unsigned literal are found just where the grammar has them. A
numeral is made of signs, digits and letters, so it holds no blank and no
parenthesis; and the decimal literal of a number reads as that number, at both
ends of the range as well.
-/
namespace ComparisonChain.Numeral
open Text

section
variable {t ds : List Char} {base : Nat} {c : Char} {n : Int64}

/-! ## Digits -/

theorem digits?_of_unsigned (h : Unsigned t base ds) : digits? t = some (base, ds) := by
  cases h with
  | @hexadecimal x _ hx hne hds =>
      have hdigits : (!ds.isEmpty && ds.all isHexDigit) = true := by simpa [hne] using hds
      rcases hx with rfl | rfl <;> simp only [digits?, if_true, hdigits]
  | octal hds =>
      have hdigits : ds.all isOctalDigit = true := List.all_eq_true.mpr hds
      simp only [digits?, if_true]
      split
      · cases hds 'x' List.mem_cons_self
      · cases hds 'X' List.mem_cons_self
      · rw [if_pos hdigits]
  | @decimal c cs hc hds =>
      have hdigits : (c :: cs).all Char.isDigit = true := List.all_eq_true.mpr hds
      simp only [digits?, if_neg hc, if_pos hdigits]

theorem digits?_eq_some_iff : digits? t = some (base, ds) ↔ Unsigned t base ds :=
  ⟨Unsigned.of_digits?, digits?_of_unsigned⟩

/-! ## Characters -/

theorem bounds_of_isDigit (h : c.isDigit = true) : 48 ≤ c.toNat ∧ c.toNat ≤ 57 :=
  Char.isDigit_iff_toNat.mp h

theorem bounds_of_isHexDigit (h : isHexDigit c = true) : 48 ≤ c.toNat ∧ c.toNat ≤ 102 := by
  simp only [isHexDigit, Bool.or_eq_true, Bool.and_eq_true, decide_eq_true_eq, Char.le_def,
    UInt32.le_iff_toNat_le] at h
  rcases h with (h | h) | h
  · have hdigit := bounds_of_isDigit h
    omega
  · change 97 ≤ c.toNat ∧ c.toNat ≤ 102 at h
    omega
  · change 65 ≤ c.toNat ∧ c.toNat ≤ 70 at h
    omega

theorem bounds_of_isOctalDigit (h : isOctalDigit c = true) : 48 ≤ c.toNat ∧ c.toNat ≤ 55 := by
  simp only [isOctalDigit, Bool.and_eq_true, decide_eq_true_eq, Char.le_def,
    UInt32.le_iff_toNat_le] at h
  exact h

theorem Unsigned.bounds (h : Unsigned t base ds) : ∀ c ∈ t, 48 ≤ c.toNat ∧ c.toNat ≤ 120 := by
  cases h with
  | @hexadecimal x _ hx _ hds =>
      refine List.forall_mem_cons.mpr ⟨by decide, List.forall_mem_cons.mpr ⟨?_, fun c hc => ?_⟩⟩
      · rcases hx with rfl | rfl <;> decide
      · have hbounds := bounds_of_isHexDigit (hds c hc)
        omega
  | octal hds =>
      refine List.forall_mem_cons.mpr ⟨by decide, fun c hc => ?_⟩
      have hbounds := bounds_of_isOctalDigit (hds c hc)
      omega
  | decimal _ hds =>
      intro c hc
      have hbounds := bounds_of_isDigit (hds c hc)
      omega

theorem sign_cases (t : List Char) :
    t = '-' :: (sign t).2 ∨ t = '+' :: (sign t).2 ∨ t = (sign t).2 := by
  unfold sign
  split
  · exact .inl rfl
  · exact .inr (.inl rfl)
  · exact .inr (.inr rfl)

theorem unsigned_of_read (h : read t = .ok n) : ∃ base ds, Unsigned (sign t).2 base ds := by
  unfold read at h
  split at h
  · cases h
  · next base ds hd => exact ⟨base, ds, digits?_eq_some_iff.mp hd⟩

theorem ne_nil_of_read (h : read t = .ok n) : t ≠ [] := by
  intro ht
  subst ht
  cases h

/-- From the plus sign to the small x there is no blank and no parenthesis. -/
theorem not_blank_of_bounds (h : 43 ≤ c.toNat ∧ c.toNat ≤ 120) :
    isBlank c = false ∧ isParenthesis c = false := by
  constructor
  · simp only [isBlank, Bool.or_eq_false_iff, Bool.and_eq_false_iff, decide_eq_false_iff_not,
      beq_eq_false_iff_ne]
    omega
  · simp only [isParenthesis, Bool.or_eq_false_iff, beq_eq_false_iff_ne]
    constructor <;> rintro rfl <;> revert h <;> decide

theorem not_blank_of_read (h : read t = .ok n) :
    ∀ c ∈ t, isBlank c = false ∧ isParenthesis c = false := by
  obtain ⟨base, ds, hu⟩ := unsigned_of_read h
  have hrest : ∀ c ∈ (sign t).2, isBlank c = false ∧ isParenthesis c = false := by
    intro c hc
    have hbounds := hu.bounds c hc
    exact not_blank_of_bounds (by omega)
  rcases sign_cases t with ht | ht | ht
  · rw [ht]
    exact List.forall_mem_cons.mpr ⟨by decide, hrest⟩
  · rw [ht]
    exact List.forall_mem_cons.mpr ⟨by decide, hrest⟩
  · rw [ht]
    exact hrest

theorem sign_of_unsigned (h : Unsigned t base ds) : sign t = (false, t) := by
  unfold sign
  split
  · have hbounds := h.bounds '-' List.mem_cons_self
    simp at hbounds
  · have hbounds := h.bounds '+' List.mem_cons_self
    simp at hbounds
  · rfl

theorem read_of_unsigned (h : Unsigned t base ds) : read t = fit false (ofDigits base ds) t := by
  simp only [read, sign_of_unsigned h, digits?_of_unsigned h]

theorem read_minus (h : Unsigned t base ds) :
    read ('-' :: t) = fit true (ofDigits base ds) ('-' :: t) := by
  simp only [read, sign, digits?_of_unsigned h]

/-! ## Decimal literals -/

theorem ofDigits_ten (h : ∀ c ∈ ds, c.isDigit = true) :
    ofDigits 10 ds = Nat.ofDigitChars 10 ds 0 := by
  rw [Nat.ofDigitChars_eq_foldl]
  apply List.foldl_ext
  intro k c hc
  have hvalue : digitValue c = c.toNat - 48 := if_pos (h c hc)
  rw [hvalue, Nat.mul_comm]
  rfl

theorem head?_toDigits {m : Nat} (hm : 0 < m) : (Nat.toDigits 10 m).head? ≠ some '0' := by
  induction m using Nat.strong_induction_on with
  | _ m ih =>
      by_cases hlt : m < 10
      · rw [Nat.toDigits_of_lt_base hlt]
        interval_cases m <;> decide
      · rw [Nat.toDigits_of_base_le (by decide) (by omega), List.head?_append]
        have hhead := ih (m / 10) (by omega) (by omega)
        cases hd : (Nat.toDigits 10 (m / 10)).head? with
        | none => exact absurd (List.head?_eq_none_iff.mp hd) Nat.toDigits_ne_nil
        | some c =>
            rw [hd] at hhead
            exact hhead

/-- Zero has no digit but the one that marks an octal literal. -/
theorem exists_unsigned_toDigits (m : Nat) :
    ∃ base ds, Unsigned (Nat.toDigits 10 m) base ds ∧ ofDigits base ds = m := by
  cases m with
  | zero => exact ⟨8, [], .octal (by simp), rfl⟩
  | succ m =>
      have hdigits : ∀ c ∈ Nat.toDigits 10 (m + 1), c.isDigit = true :=
        fun c hc => Nat.isDigit_of_mem_toDigits (by decide) (by decide) hc
      have hvalue : ofDigits 10 (Nat.toDigits 10 (m + 1)) = m + 1 := by
        rw [ofDigits_ten hdigits, Nat.ofDigitChars_toDigits (by decide) (by decide)]
      have hhead := head?_toDigits (Nat.succ_pos m)
      obtain ⟨c, cs, hcs⟩ := List.exists_cons_of_ne_nil
        (Nat.toDigits_ne_nil (b := 10) (n := m + 1))
      rw [hcs] at hdigits hvalue hhead ⊢
      exact ⟨10, c :: cs, .decimal (fun hc => hhead (congrArg some hc)) hdigits, hvalue⟩

/-- A minus sign stands before the digits just if the number is negative. -/
theorem decimal_cases (n : Int64) :
    (n.toInt < 0 ∧ decimal n = '-' :: Nat.toDigits 10 n.toInt.natAbs) ∨
      (0 ≤ n.toInt ∧ decimal n = Nat.toDigits 10 n.toInt.natAbs) := by
  unfold decimal
  split
  · next hneg => exact .inl ⟨Int64.lt_iff_toInt_lt.mp hneg, rfl⟩
  · next hneg =>
      refine .inr ⟨?_, rfl⟩
      by_contra hlt
      exact hneg (Int64.lt_iff_toInt_lt.mpr (by simpa using hlt))

theorem read_decimal (n : Int64) : read (decimal n) = .ok n := by
  obtain ⟨base, ds, hu, hvalue⟩ := exists_unsigned_toDigits n.toInt.natAbs
  have hlt := n.toInt_lt
  have hle := n.le_toInt
  have hofInt := Int64.ofInt_toInt n
  rcases decimal_cases n with ⟨hn, hd⟩ | ⟨hn, hd⟩
  · rw [hd, read_minus hu, hvalue, fit, if_pos rfl, if_pos (by omega)]
    rw [show -(n.toInt.natAbs : Int) = n.toInt by omega, hofInt]
  · rw [hd, read_of_unsigned hu, hvalue, fit, if_neg (by simp), if_pos (by omega)]
    rw [show (n.toInt.natAbs : Int) = n.toInt by omega, hofInt]

end

end ComparisonChain.Numeral
