import ComparisonChain.Event

/-!
# Connectors

What stands outside the groups is a run of tokens, with blanks between them or
none. The run is read from the left, each time by the longest token that the
rest starts with.

A run can also be told by what it is made of: blanks, then the longest token
that prefixes what follows to the end of the text, and so on. It ends in blanks,
or at the first place where a word stands that no token prefixes.
-/
namespace ComparisonChain.Reading
open Text

/-- A rest that starts with no token: a lone character dangles, and a longer
word is taken for an operator that nobody knows. -/
def noConnector (rest : List Char) : Error :=
  if (firstWord rest).length = 1 then .form (.dangling (firstWord rest))
  else .unrecognized .connective (firstWord rest)

/-- The token at the head of a text. An empty token would never move the
reading on, so it is not one. -/
def headToken? (d : Dialect) (text : List Char) : Option (List Char × Connective) :=
  (d.longestToken? text).filter fun e => !e.1.isEmpty

theorem ne_nil_of_headToken? {d : Dialect} {text : List Char} {e : List Char × Connective}
    (h : headToken? d text = some e) : e.1 ≠ [] := by
  have hf := (Option.filter_eq_some_iff.mp h).2
  simpa using hf

/-- Reads the run to its end. -/
def readConnectors (d : Dialect) (b : Buffer) : Logged (List Connective) :=
  let r := b.skipBlanks.2
  if r.isEmpty then pure []
  else
    match _ht : headToken? d r.chars with
    | none => .fail (noConnector r.chars)
    | some (token, c) =>
        match _he : r.erase? 0 (byteSize token) with
        | none => .fail (.form .tokenOutOfBounds)
        | some (word, rest) => do
            Logged.note (.connector word c)
            let cs ← readConnectors d rest
            pure (c :: cs)
termination_by b.size
decreasing_by
  have hn := mt byteSize_eq_zero.mp (ne_nil_of_headToken? _ht)
  have hs := Buffer.size_of_erase? _he
  have hb := b.size_skipBlanks
  have hr : r.size = b.skipBlanks.2.size := rfl
  simp only at hn
  omega

/-! ## Runs of tokens -/

def AllBlank (cs : List Char) : Prop := ∀ c ∈ cs, isBlank c = true

/-- The entry's token prefixes the text, and every other such token is shorter. -/
def IsLongest (d : Dialect) (e : List Char × Connective) (text : List Char) : Prop :=
  e ∈ d.entries ∧ e.1 <+: text ∧
    ∀ o ∈ d.entries, o.1 <+: text → o ≠ e → byteSize o.1 < byteSize e.1

instance (d : Dialect) (e : List Char × Connective) (text : List Char) :
    Decidable (IsLongest d e text) :=
  inferInstanceAs (Decidable (e ∈ d.entries ∧ e.1 <+: text ∧
    ∀ o ∈ d.entries, o.1 <+: text → o ≠ e → byteSize o.1 < byteSize e.1))

/-- The entries of a run in order, and what is left where it ends. -/
inductive TokenRun (d : Dialect) :
    List Char → List (List Char × Connective) → List Char → Prop
  | blank {w : List Char} : AllBlank w → TokenRun d w [] []
  | stop {w r : List Char} (c : Char) : AllBlank w → isBlank c = false →
      (∀ e ∈ d.entries, ¬ e.1 <+: c :: r) → TokenRun d (w ++ c :: r) [] (c :: r)
  | token {w r left : List Char} {e : List Char × Connective}
      {es : List (List Char × Connective)} :
      AllBlank w → (∀ c, (e.1 ++ r).head? = some c → isBlank c = false) →
      IsLongest d e (e.1 ++ r) →
      TokenRun d r es left → TokenRun d (w ++ e.1 ++ r) (e :: es) left

end ComparisonChain.Reading
