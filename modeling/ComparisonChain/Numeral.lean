/-!
# Integer literals

A literal is an optional sign and digits in base 16 after `0x`, in base 8 after
a leading zero, and in base 10 otherwise; the zero by itself has no octal digit
left and is the value 0. The whole text is the literal, and its signed value
fits 64 bits.
-/
namespace ComparisonChain.Numeral

inductive Fault where
  | malformed (token : List Char)
  | tooLarge (token : List Char)
  | tooSmall (token : List Char)
  deriving DecidableEq, Repr

def isHexDigit (c : Char) : Bool :=
  c.isDigit || ('a' ≤ c && c ≤ 'f') || ('A' ≤ c && c ≤ 'F')

def isOctalDigit (c : Char) : Bool := '0' ≤ c && c ≤ '7'

/-- Value of a hexadecimal digit, and so of a decimal or octal one. -/
def digitValue (c : Char) : Nat :=
  if c.isDigit then c.toNat - 48
  else if 'a' ≤ c && c ≤ 'f' then c.toNat - 87
  else c.toNat - 55

/-- Value of digits, the most significant first. -/
def ofDigits (base : Nat) (ds : List Char) : Nat :=
  ds.foldl (fun n c => n * base + digitValue c) 0

/-- Whether the literal is negative, and what follows its sign. -/
def sign : List Char → Bool × List Char
  | '-' :: cs => (true, cs)
  | '+' :: cs => (false, cs)
  | cs => (false, cs)

/-- Digits of an unsigned literal with their base. -/
def digits? : List Char → Option (Nat × List Char)
  | [] => none
  | c :: cs =>
      if c = '0' then
        match cs with
        | 'x' :: ds | 'X' :: ds => if !ds.isEmpty && ds.all isHexDigit then some (16, ds) else none
        | ds => if ds.all isOctalDigit then some (8, ds) else none
      else if (c :: cs).all Char.isDigit then some (10, c :: cs)
      else none

/-- The magnitude under its sign, if that fits 64 bits. -/
def fit (negative : Bool) (magnitude : Nat) (token : List Char) : Except Fault Int64 :=
  if negative then
    if magnitude ≤ 0x8000000000000000 then .ok (Int64.ofInt (-magnitude)) else .error (.tooSmall token)
  else if magnitude < 0x8000000000000000 then .ok (Int64.ofInt magnitude)
  else .error (.tooLarge token)

def read (token : List Char) : Except Fault Int64 :=
  match digits? (sign token).2 with
  | none => .error (.malformed token)
  | some (base, ds) => fit (sign token).1 (ofDigits base ds) token

/-- The unsigned literals, each with its base and digits. -/
inductive Unsigned : List Char → Nat → List Char → Prop
  | hexadecimal {x : Char} {ds : List Char} : x = 'x' ∨ x = 'X' → ds ≠ [] →
      (∀ c ∈ ds, isHexDigit c = true) → Unsigned ('0' :: x :: ds) 16 ds
  | octal {ds : List Char} : (∀ c ∈ ds, isOctalDigit c = true) → Unsigned ('0' :: ds) 8 ds
  | decimal {c : Char} {ds : List Char} : c ≠ '0' → (∀ x ∈ c :: ds, x.isDigit = true) →
      Unsigned (c :: ds) 10 (c :: ds)

theorem Unsigned.of_digits? {t ds : List Char} {base : Nat} (h : digits? t = some (base, ds)) :
    Unsigned t base ds := by
  unfold digits? at h
  split at h
  · simp at h
  · next c cs =>
      split at h
      · next hc =>
          subst hc
          split at h
          · split at h
            · next hd =>
                simp only [Option.some.injEq, Prod.mk.injEq] at h
                obtain ⟨rfl, rfl⟩ := h
                simp only [Bool.and_eq_true, Bool.not_eq_true', List.isEmpty_eq_false_iff,
                  List.all_eq_true] at hd
                exact .hexadecimal (Or.inl rfl) hd.1 hd.2
            · simp at h
          · split at h
            · next hd =>
                simp only [Option.some.injEq, Prod.mk.injEq] at h
                obtain ⟨rfl, rfl⟩ := h
                simp only [Bool.and_eq_true, Bool.not_eq_true', List.isEmpty_eq_false_iff,
                  List.all_eq_true] at hd
                exact .hexadecimal (Or.inr rfl) hd.1 hd.2
            · simp at h
          · split at h
            · next hd =>
                simp only [Option.some.injEq, Prod.mk.injEq] at h
                obtain ⟨rfl, rfl⟩ := h
                exact .octal (List.all_eq_true.mp hd)
            · simp at h
      · next hc =>
          split at h
          · next hd =>
              simp only [Option.some.injEq, Prod.mk.injEq] at h
              obtain ⟨rfl, rfl⟩ := h
              exact .decimal hc (List.all_eq_true.mp hd)
          · simp at h

/-- The decimal literal of a number. -/
def decimal (n : Int64) : List Char :=
  if n < 0 then '-' :: Nat.toDigits 10 n.toInt.natAbs else Nat.toDigits 10 n.toInt.natAbs

end ComparisonChain.Numeral
