/-!
# Comparisons of two integers

The six comparisons, in their customary order, with their tokens.
-/
namespace ComparisonChain

inductive Comparison where
  | less | lessEqual | greater | greaterEqual | equal | notEqual
  deriving DecidableEq, Repr

namespace Comparison

def all : List Comparison := [.less, .lessEqual, .greater, .greaterEqual, .equal, .notEqual]

def token : Comparison → List Char
  | .less => ['<']
  | .lessEqual => ['<', '=']
  | .greater => ['>']
  | .greaterEqual => ['>', '=']
  | .equal => ['=', '=']
  | .notEqual => ['!', '=']

def ofToken? (t : List Char) : Option Comparison := all.find? fun c => c.token = t

def holds : Comparison → Int64 → Int64 → Bool
  | .less, a, b => a < b
  | .lessEqual, a, b => a ≤ b
  | .greater, a, b => b < a
  | .greaterEqual, a, b => b ≤ a
  | .equal, a, b => a == b
  | .notEqual, a, b => a != b

/-- What a comparison says of two integers. -/
def Relates : Comparison → Int → Int → Prop
  | .less, a, b => a < b
  | .lessEqual, a, b => a ≤ b
  | .greater, a, b => b < a
  | .greaterEqual, a, b => b ≤ a
  | .equal, a, b => a = b
  | .notEqual, a, b => a ≠ b

theorem holds_iff {c : Comparison} {a b : Int64} :
    c.holds a b = true ↔ c.Relates a.toInt b.toInt := by
  cases c with
  | less | greater => simp [holds, Relates, Int64.lt_iff_toInt_lt]
  | lessEqual | greaterEqual => simp [holds, Relates, Int64.le_iff_toInt_le]
  | equal | notEqual => simp [holds, Relates, Int64.toInt_inj]

theorem ofToken?_eq_some_iff {t : List Char} {c : Comparison} :
    ofToken? t = some c ↔ t = c.token := by
  constructor
  · intro h
    rw [ofToken?] at h
    have hc := List.find?_some h
    exact (of_decide_eq_true hc).symm
  · rintro rfl
    cases c <;> decide

end Comparison

end ComparisonChain
