/-!
# Connectives between truth values

Conjunction and disjunction under their canonical names. Which tokens stand for
them in a text is up to the dialect.
-/
namespace ComparisonChain

inductive Connective where
  | and | or
  deriving DecidableEq, Repr

namespace Connective

def all : List Connective := [.and, .or]

def name : Connective → List Char
  | .and => ['A', 'N', 'D']
  | .or => ['O', 'R']

def ofName? (t : List Char) : Option Connective := all.find? fun c => c.name = t

def apply : Connective → Bool → Bool → Bool
  | .and, a, b => a && b
  | .or, a, b => a || b

theorem ofName?_eq_some_iff {t : List Char} {c : Connective} :
    ofName? t = some c ↔ t = c.name := by
  constructor
  · intro h
    rw [ofName?] at h
    have hc := List.find?_some h
    exact (of_decide_eq_true hc).symm
  · rintro rfl
    cases c <;> decide

end Connective

end ComparisonChain
