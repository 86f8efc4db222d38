import ComparisonChain.Chain.Basic
import ComparisonChain.Reading.Connectors
import ComparisonChain.Text.Brackets

/-!
# Ways to write a chain

A chain can be written in many ways. Each group has a name of its own and any
blanks around what matters; each connective is written by one of the dialect's
tokens, with blanks around it or none. Only the spaces that end a group's name
and start its numeral are fixed, and no blank may stand inside of a token.
-/
namespace ComparisonChain

/-- No token is the beginning of another. -/
def Dialect.PrefixFree (d : Dialect) : Prop :=
  ∀ e ∈ d.entries, ∀ o ∈ d.entries, e.1 <+: o.1 → e = o

instance (d : Dialect) : Decidable d.PrefixFree :=
  inferInstanceAs (Decidable (∀ e ∈ d.entries, ∀ o ∈ d.entries, e.1 <+: o.1 → e = o))

namespace Reading
open Text

/-- Some blanks, or none. -/
abbrev Blanks := {w : List Char // AllBlank w}

namespace Blanks

def none : Blanks := ⟨[], by simp [AllBlank]⟩

def space : Blanks := ⟨[' '], by simp [AllBlank, isBlank]⟩

end Blanks

/-- A test written as a group: a name, a comparison and a numeral. -/
structure Group where
  lead : Blanks
  name : List Char
  left : Blanks
  comparison : Comparison
  right : Blanks
  numeral : List Char
  trail : Blanks
  number : Int64
  begins : ∃ c ∈ name.head?, isBlank c = false
  solid : ∀ c ∈ name, c ≠ ' ' ∧ isParenthesis c = false
  denotes : Numeral.read numeral = .ok number

namespace Group

def contents (g : Group) : List Char :=
  g.lead ++ g.name ++ [' '] ++ g.left ++ g.comparison.token ++ g.right ++ [' '] ++ g.numeral ++
    g.trail

def text (g : Group) : List Char := ['('] ++ g.contents ++ [')']

def test (g : Group) : Test := ⟨g.comparison, g.number⟩

end Group

/-- A connective written by one of its tokens. -/
structure Joint (d : Dialect) where
  before : Blanks
  token : List Char
  connective : Connective
  after : Blanks
  known : (token, connective) ∈ d.entries

def Joint.text {d : Dialect} (j : Joint d) : List Char := j.before ++ j.token ++ j.after

/-- The same token with other blanks around it. -/
def Joint.padded {d : Dialect} (w : Blanks) (j : Joint d) : Joint d :=
  { j with before := w, after := w }

/-- A chain written out in a dialect. -/
structure Rendering (d : Dialect) where
  first : Group
  rest : List (Joint d × Group)

namespace Rendering
variable {d : Dialect}

def text (r : Rendering d) : List Char :=
  r.first.text ++ r.rest.flatMap fun p => p.1.text ++ p.2.text

def chain (r : Rendering d) : Chain :=
  ⟨r.first.test, r.rest.map fun p => ⟨p.1.connective, p.2.test⟩⟩

def joints (r : Rendering d) : List (Joint d) := r.rest.map (·.1)

/-- What stands outside of the groups. -/
def run (r : Rendering d) : List Char := r.joints.flatMap Joint.text

/-- Outside of the groups, a blank at least stands between any two tokens. -/
def Spaced (r : Rendering d) : Prop :=
  ∀ j k, [j, k] <:+: r.joints → j.after.1 ++ k.before.1 ≠ []

/-- The same groups and tokens with the same blanks on either side of each token. -/
def padded (w : Blanks) (r : Rendering d) : Rendering d :=
  ⟨r.first, r.rest.map fun p => (p.1.padded w, p.2)⟩

/-- Each token follows its group, and is followed by the next, without a blank. -/
def flush (r : Rendering d) : Rendering d := r.padded .none

def spaced (r : Rendering d) : Rendering d := r.padded .space

end Rendering

end Reading

end ComparisonChain
