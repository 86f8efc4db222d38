import ComparisonChain.Text.Blank
import ComparisonChain.Text.Bytes

/-!
# A working text, cut from by byte position

A buffer answers searches with byte positions and takes ranges of bytes. A
range that is out of bounds or splits a character is refused, and a refused
range changes nothing. `erase?_eq_some_iff` gives the cuts that happen: what is
taken out stood between the two parts that are left.
-/
namespace ComparisonChain

/-- Half-open range of bytes. -/
structure Span where
  start : Nat
  stop : Nat
  deriving DecidableEq, Repr

structure Buffer where
  chars : List Char
  deriving DecidableEq, Repr

namespace Buffer
open Text

def size (b : Buffer) : Nat := byteSize b.chars

def isEmpty (b : Buffer) : Bool := b.chars.isEmpty

def findFirst? (b : Buffer) (x : Char) : Option Nat := Text.findFirst? x b.chars

def findLast? (b : Buffer) (x : Char) : Option Nat := Text.findLast? x b.chars

/-- The first `x` at or after the aligned position `start`. -/
def findFrom? (b : Buffer) (x : Char) (start : Nat) : Option Nat :=
  (splitAtByte? start b.chars).bind fun p => (Text.findFirst? x p.2).map (start + ·)

/-- The parts before, inside and after a range. -/
def partition? (b : Buffer) (start stop : Nat) : Option (List Char × List Char × List Char) :=
  if stop < start then none
  else
    (splitAtByte? start b.chars).bind fun p =>
      (splitAtByte? (stop - start) p.2).map fun q => (p.1, q.1, q.2)

def slice? (b : Buffer) (start stop : Nat) : Option (List Char) :=
  (b.partition? start stop).map fun p => p.2.1

/-- Takes a range out: its text, and the buffer that is left. -/
def erase? (b : Buffer) (start stop : Nat) : Option (List Char × Buffer) :=
  (b.partition? start stop).map fun p => (p.2.1, ⟨p.1 ++ p.2.2⟩)

/-- Drops leading blanks: how many bytes they took, and what is left. -/
def skipBlanks (b : Buffer) : Nat × Buffer :=
  (byteSize (b.chars.takeWhile isBlank), ⟨trimStart b.chars⟩)

theorem partition?_eq_some_iff {b : Buffer} {start stop : Nat} {p x q : List Char} :
    b.partition? start stop = some (p, x, q) ↔
      b.chars = p ++ x ++ q ∧ byteSize p = start ∧ byteSize (p ++ x) = stop := by
  simp only [partition?]
  split
  · next h =>
      simp only [reduceCtorEq, false_iff, not_and]
      intro _ hp hx
      rw [byteSize_append] at hx
      omega
  · next h =>
      constructor
      · intro hb
        obtain ⟨⟨a, r⟩, ha, hr⟩ := Option.bind_eq_some_iff.mp hb
        obtain ⟨⟨y, z⟩, hy, he⟩ := Option.map_eq_some_iff.mp hr
        obtain ⟨h1, h2⟩ := splitAtByte?_eq_some_iff.mp ha
        obtain ⟨h3, h4⟩ := splitAtByte?_eq_some_iff.mp hy
        simp only [Prod.mk.injEq] at he
        obtain ⟨rfl, rfl, rfl⟩ := he
        simp only at h1 h2 h3 h4
        refine ⟨by rw [h1, h3, List.append_assoc], h2, ?_⟩
        rw [byteSize_append]
        omega
      · rintro ⟨h1, h2, h3⟩
        rw [byteSize_append] at h3
        have ha : splitAtByte? start b.chars = some (p, x ++ q) :=
          splitAtByte?_eq_some_iff.mpr ⟨by rw [h1, List.append_assoc], h2⟩
        have hx : splitAtByte? (stop - start) (x ++ q) = some (x, q) :=
          splitAtByte?_eq_some_iff.mpr ⟨rfl, by simp only; omega⟩
        rw [ha, Option.bind_some, hx]
        rfl

theorem erase?_eq_some_iff {b r : Buffer} {start stop : Nat} {x : List Char} :
    b.erase? start stop = some (x, r) ↔
      ∃ p q, b.chars = p ++ x ++ q ∧ byteSize p = start ∧ byteSize (p ++ x) = stop ∧
        r.chars = p ++ q := by
  constructor
  · intro h
    obtain ⟨⟨p, y, q⟩, hp, he⟩ := Option.map_eq_some_iff.mp h
    simp only [Prod.mk.injEq] at he
    obtain ⟨rfl, rfl⟩ := he
    obtain ⟨h1, h2, h3⟩ := partition?_eq_some_iff.mp hp
    exact ⟨p, q, h1, h2, h3, rfl⟩
  · rintro ⟨p, q, h1, h2, h3, h4⟩
    rw [erase?, partition?_eq_some_iff.mpr ⟨h1, h2, h3⟩]
    cases r
    simp_all

theorem slice?_eq_some_iff {b : Buffer} {start stop : Nat} {x : List Char} :
    b.slice? start stop = some x ↔
      ∃ p q, b.chars = p ++ x ++ q ∧ byteSize p = start ∧ byteSize (p ++ x) = stop := by
  constructor
  · intro h
    obtain ⟨⟨p, y, q⟩, hp, rfl⟩ := Option.map_eq_some_iff.mp h
    exact ⟨p, q, partition?_eq_some_iff.mp hp⟩
  · rintro ⟨p, q, h⟩
    rw [slice?, partition?_eq_some_iff.mpr h]
    rfl

/-- A cut shortens the buffer by the bytes of its range. -/
theorem size_of_erase? {b r : Buffer} {start stop : Nat} {x : List Char}
    (h : b.erase? start stop = some (x, r)) : r.size + (stop - start) = b.size := by
  obtain ⟨p, q, h1, h2, h3, h4⟩ := erase?_eq_some_iff.mp h
  simp only [size, h1, h4, byteSize_append] at h3 ⊢
  omega

theorem skipBlanks_append (b : Buffer) :
    b.chars.takeWhile isBlank ++ b.skipBlanks.2.chars = b.chars :=
  List.takeWhile_append_dropWhile

theorem size_skipBlanks (b : Buffer) : b.skipBlanks.1 + b.skipBlanks.2.size = b.size := by
  have h := congrArg byteSize b.skipBlanks_append
  rw [byteSize_append] at h
  exact h

theorem le_of_findFrom? {b : Buffer} {x : Char} {start n : Nat}
    (h : b.findFrom? x start = some n) : start ≤ n := by
  obtain ⟨p, _, hn⟩ := Option.bind_eq_some_iff.mp h
  obtain ⟨k, _, rfl⟩ := Option.map_eq_some_iff.mp hn
  omega

theorem findFrom?_append (x : Char) (a b : List Char) :
    (⟨a ++ b⟩ : Buffer).findFrom? x (byteSize a) =
      (Text.findFirst? x b).map (byteSize a + ·) := by
  rw [findFrom?, splitAtByte?_append, Option.bind_some]

/-! ## Commands -/

inductive Command where
  | size
  | isEmpty
  | findFirst (x : Char)
  | findLast (x : Char)
  | findFrom (x : Char) (start : Nat)
  | slice (start stop : Nat)
  | erase (start stop : Nat)
  | skipBlanks
  deriving DecidableEq, Repr

inductive Answer where
  | count (n : Nat)
  | flag (b : Bool)
  | position (n : Option Nat)
  | text (t : Option (List Char))
  deriving DecidableEq, Repr

/-- Only a cut that succeeds and the skipping of blanks change the buffer. -/
def step (b : Buffer) : Command → Answer × Buffer
  | .size => (.count b.size, b)
  | .isEmpty => (.flag b.isEmpty, b)
  | .findFirst x => (.position (b.findFirst? x), b)
  | .findLast x => (.position (b.findLast? x), b)
  | .findFrom x start => (.position (b.findFrom? x start), b)
  | .slice start stop => (.text (b.slice? start stop), b)
  | .erase start stop =>
      match b.erase? start stop with
      | some (x, r) => (.text (some x), r)
      | none => (.text none, b)
  | .skipBlanks => (.count b.skipBlanks.1, b.skipBlanks.2)

/-- Each command's answer, with the buffer after it. -/
def run (b : Buffer) : List Command → List (Answer × Buffer)
  | [] => []
  | c :: cs => b.step c :: run (b.step c).2 cs

end Buffer

end ComparisonChain
