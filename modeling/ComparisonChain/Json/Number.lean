import ComparisonChain.Json.Basic
import ComparisonChain.Numeral

/-!
# JSON numbers

A number is a sign, a whole part without a superfluous zero, a fraction and a
power of ten. It is an integer when it has neither fraction nor power, is not
`-0`, and fits 64 bits, signed if it is negative; any other number is real. A
real number beyond the largest double is no number at all.
-/
namespace ComparisonChain.Json

structure Lexeme where
  negative : Bool
  whole : List Char
  fraction : Option (List Char)
  power : Option (Bool × List Char)
  deriving DecidableEq, Repr

inductive Number where
  | integer (n : Int)
  | real
  deriving DecidableEq, Repr

/-- The digits at the head of a text, of which there must be one. -/
def someDigits (cs : List Char) : Except Fault (List Char × List Char) :=
  match cs with
  | [] => .error .truncated
  | c :: _ =>
      if c.isDigit then .ok (cs.takeWhile Char.isDigit, cs.dropWhile Char.isDigit)
      else .error .malformed

/-- The digits before the point; a zero stands alone. -/
def wholePart (cs : List Char) : Except Fault (List Char × List Char) := do
  let (ds, rest) ← someDigits cs
  if ds.head? = some '0' ∧ ds.length ≠ 1 then .error .malformed else .ok (ds, rest)

def fractionPart (cs : List Char) : Except Fault (Option (List Char) × List Char) :=
  match cs with
  | '.' :: cs => (someDigits cs).map fun p => (some p.1, p.2)
  | cs => .ok (none, cs)

/-- Whether the power is negative, and its digits. -/
def powerPart (cs : List Char) : Except Fault (Option (Bool × List Char) × List Char) :=
  match cs with
  | c :: cs =>
      if c = 'e' ∨ c = 'E' then
        match cs with
        | '-' :: cs => (someDigits cs).map fun p => (some (true, p.1), p.2)
        | '+' :: cs => (someDigits cs).map fun p => (some (false, p.1), p.2)
        | cs => (someDigits cs).map fun p => (some (false, p.1), p.2)
      else .ok (none, c :: cs)
  | [] => .ok (none, [])

def lexeme (cs : List Char) : Except Fault (Lexeme × List Char) := do
  let (negative, cs) := match cs with
    | '-' :: cs => (true, cs)
    | cs => (false, cs)
  let (whole, cs) ← wholePart cs
  let (fraction, cs) ← fractionPart cs
  let (power, cs) ← powerPart cs
  pure (⟨negative, whole, fraction, power⟩, cs)

/-- Takes digits into a significand while it fits 64 bits, and counts the rest. -/
def absorb (n : Nat) : List Char → Nat × Nat
  | [] => (n, 0)
  | d :: ds =>
      if n * 10 + Numeral.digitValue d < UInt64.size then absorb (n * 10 + Numeral.digitValue d) ds
      else (n, ds.length + 1)

/-- A natural number rounded to 53 binary digits, ties to even. -/
def roundToDouble (n : Nat) : Nat :=
  let unit := Nat.pow 2 (n.log2 - 52)
  let q := n / unit
  let r := n % unit
  if unit < 2 * r ∨ (unit = 2 * r ∧ q % 2 = 1) then (q + 1) * unit else q * unit

/-- Whether a significand times a power of ten, each rounded to a double, is
beyond the largest double. -/
def exceedsDouble (significand : Nat) (exponent : Int) : Bool :=
  significand != 0 && decide (0 ≤ exponent) &&
    (decide (308 < exponent) ||
      decide (Nat.pow 2 1024 ≤ roundToDouble
        (roundToDouble significand * roundToDouble (Nat.pow 10 exponent.toNat))))

/-- The value of a lexeme, as far as integers go. -/
def Lexeme.number (l : Lexeme) : Except Fault Number :=
  let (wholeDigits, dropped) := absorb 0 l.whole
  match l.fraction, l.power, dropped with
  | none, none, 0 =>
      if l.negative then
        if 0 < wholeDigits ∧ wholeDigits ≤ 0x8000000000000000 then .ok (.integer (-wholeDigits))
        else .ok .real
      else .ok (.integer wholeDigits)
  | fraction, power, dropped =>
      let digits := fraction.getD []
      let (significand, ignored) := absorb wholeDigits digits
      let shift : Int := match power with
        | none => 0
        | some (negative, ds) =>
            if negative then -(Numeral.ofDigits 10 ds : Int) else Numeral.ofDigits 10 ds
      if exceedsDouble significand ((dropped : Int) - (digits.length - ignored) + shift) then
        .error .malformed
      else .ok .real

def number : Reader Number := fun cs => do
  let (l, rest) ← lexeme cs
  let n ← l.number
  pure (n, rest)

/-- A number that is skipped has its form checked and no more. -/
def skipNumber (cs : List Char) : Except Fault (List Char) :=
  match lexeme cs with
  | .ok (_, rest) => .ok rest
  | .error _ => .error .malformed

end ComparisonChain.Json
