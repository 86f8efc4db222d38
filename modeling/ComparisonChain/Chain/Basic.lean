import ComparisonChain.Comparison
import ComparisonChain.Connective
import ComparisonChain.Numeral

/-!
# Chains of comparisons

A chain compares one unknown with several numbers. It is a first test followed
by links, each a connective and a test, so there is always one test and one
connective fewer than tests. The three columns of a chain are its comparisons,
numbers and connectives in order.

The tests' results are joined strictly from left to right, without precedence
between the connectives. A chain that is absent holds nowhere.

In the canonical text each test is written `(n op number)`, and connectives stand
between tests under their canonical names with a space on either side.
-/
namespace ComparisonChain

/-- Comparison of the unknown with a number. -/
structure Test where
  comparison : Comparison
  number : Int64
  deriving DecidableEq, Repr

structure Link where
  connective : Connective
  test : Test
  deriving DecidableEq, Repr

structure Chain where
  first : Test
  links : List Link
  deriving DecidableEq, Repr

def Test.holds (t : Test) (v : Int64) : Bool := t.comparison.holds v t.number

namespace Chain

def tests (c : Chain) : List Test := c.first :: c.links.map (·.test)

def size (c : Chain) : Nat := c.tests.length

def comparisons (c : Chain) : List Comparison := c.tests.map (·.comparison)

def numbers (c : Chain) : List Int64 := c.tests.map (·.number)

def connectives (c : Chain) : List Connective := c.links.map (·.connective)

theorem length_comparisons (c : Chain) : c.comparisons.length = c.size := by
  simp [comparisons, size]

theorem length_numbers (c : Chain) : c.numbers.length = c.size := by
  simp [numbers, size]

theorem length_connectives (c : Chain) : c.connectives.length + 1 = c.size := by
  simp [connectives, size, tests]

theorem tests_eq_zipWith (c : Chain) : c.tests = List.zipWith Test.mk c.comparisons c.numbers := by
  simp [comparisons, numbers, List.zipWith_map_left, List.zipWith_map_right]

/-! ## Value -/

/-- Each test's result, in order. -/
def results (c : Chain) (v : Int64) : List Bool := c.tests.map (·.holds v)

def holds (c : Chain) (v : Int64) : Bool :=
  c.links.foldl (fun acc k => k.connective.apply acc (k.test.holds v)) (c.first.holds v)

def holdsEach (c : Chain) (vs : List Int64) : List Bool := vs.map c.holds

def holdsIfAny (c : Option Chain) (v : Int64) : Bool := c.any (·.holds v)

/-- A further link applies to the value of all that stands before it. -/
theorem holds_append_link (c : Chain) (k : Link) (v : Int64) :
    (⟨c.first, c.links ++ [k]⟩ : Chain).holds v =
      k.connective.apply (c.holds v) (k.test.holds v) := by
  simp [holds]

end Chain

/-! ## Canonical text -/

def Test.text (t : Test) : List Char :=
  ['(', 'n', ' '] ++ t.comparison.token ++ [' '] ++ Numeral.decimal t.number ++ [')']

def Link.text (k : Link) : List Char :=
  [' '] ++ k.connective.name ++ [' '] ++ k.test.text

def Chain.text (c : Chain) : List Char := c.first.text ++ c.links.flatMap Link.text

end ComparisonChain
