import ComparisonChain.Connective
import ComparisonChain.Text.Blank
import ComparisonChain.Text.Bytes

/-!
# Dialects

A dialect says which tokens stand for the connectives and how many groups a
text may have. Each token has one entry; the order of entries carries no
meaning. A dialect is sound when every token can be met in a text: at least two
characters, none of them a blank or a parenthesis.
-/
namespace ComparisonChain
open Text

structure Dialect where
  entries : List (List Char × Connective)
  limit : Option Nat
  nodup : (entries.map (·.1)).Nodup
  deriving DecidableEq, Repr

inductive DialectFault where
  | noToken
  | shortToken (token : List Char)
  | brokenToken (token : List Char)
  | noGroup
  deriving DecidableEq, Repr

namespace Dialect

/-- No token and no limit. -/
def bare : Dialect := ⟨[], none, by simp⟩

/-- Two signs and two spellings of the name for each connective, and no limit. -/
def standard : Dialect where
  entries :=
    [(['&', '&'], .and), (['A', 'N', 'D'], .and), (['a', 'n', 'd'], .and),
     (['|', '|'], .or), (['O', 'R'], .or), (['o', 'r'], .or)]
  limit := none
  nodup := by decide

/-- Entries with a token's meaning set; a new token comes last. -/
def assign (token : List Char) (c : Connective) :
    List (List Char × Connective) → List (List Char × Connective)
  | [] => [(token, c)]
  | e :: es => if e.1 = token then (token, c) :: es else e :: assign token c es

theorem mem_map_fst_assign {t u : List Char} {c : Connective}
    {es : List (List Char × Connective)} :
    u ∈ (assign t c es).map (·.1) ↔ u = t ∨ u ∈ es.map (·.1) := by
  induction es with
  | nil => simp [assign]
  | cons e es ih =>
      simp only [assign]
      split
      · next h => simp [h]
      · simp only [List.map_cons, List.mem_cons, ih]
        exact or_left_comm

theorem nodup_assign (t : List Char) (c : Connective) {es : List (List Char × Connective)}
    (h : (es.map (·.1)).Nodup) : ((assign t c es).map (·.1)).Nodup := by
  induction es with
  | nil => simp [assign]
  | cons e es ih =>
      rw [List.map_cons, List.nodup_cons] at h
      simp only [assign]
      split
      · next he =>
          rw [List.map_cons, List.nodup_cons]
          exact ⟨he ▸ h.1, h.2⟩
      · next he =>
          rw [List.map_cons, List.nodup_cons, mem_map_fst_assign]
          exact ⟨fun hm => hm.elim he h.1, ih h.2⟩

def withToken (d : Dialect) (token : List Char) (c : Connective) : Dialect :=
  ⟨assign token c d.entries, d.limit, nodup_assign token c d.nodup⟩

def withLimit (d : Dialect) (limit : Nat) : Dialect := { d with limit := some limit }

/-- The connective that a whole token stands for. -/
def connective? (d : Dialect) (token : List Char) : Option Connective :=
  d.entries.lookup token

/-- The entry with the longest token. -/
def longest : List (List Char × Connective) → Option (List Char × Connective)
  | [] => none
  | e :: es =>
      match longest es with
      | none => some e
      | some best => if byteSize best.1 ≤ byteSize e.1 then some e else some best

/-- The longest token that the text starts with. -/
def longestToken? (d : Dialect) (text : List Char) : Option (List Char × Connective) :=
  longest (d.entries.filter fun e => e.1.isPrefixOf text)

theorem mem_of_longest {es : List (List Char × Connective)} {e : List Char × Connective}
    (h : longest es = some e) : e ∈ es := by
  induction es with
  | nil => simp [longest] at h
  | cons a es ih =>
      simp only [longest] at h
      split at h
      · simp only [Option.some.injEq] at h
        exact h ▸ List.mem_cons_self
      · next best hb =>
          split at h
          · simp only [Option.some.injEq] at h
            exact h ▸ List.mem_cons_self
          · simp only [Option.some.injEq] at h
            exact List.mem_cons_of_mem _ (ih (h ▸ hb))

theorem mem_of_longestToken? {d : Dialect} {text : List Char} {e : List Char × Connective}
    (h : d.longestToken? text = some e) : e ∈ d.entries ∧ e.1 <+: text := by
  have hm := List.mem_filter.mp (mem_of_longest h)
  exact ⟨hm.1, List.isPrefixOf_iff_prefix.mp hm.2⟩

/-- What is wrong with a token. -/
def tokenFault? (token : List Char) : Option DialectFault :=
  if token.length < 2 then some (.shortToken token)
  else if token.any fun c => isBlank c || c == '(' || c == ')' then some (.brokenToken token)
  else none

/-- A missing table is told before a token's fault, and that before an empty limit. -/
def check (d : Dialect) : Except DialectFault Unit :=
  if d.entries.isEmpty then .error .noToken
  else
    match d.entries.findSome? fun e => tokenFault? e.1 with
    | some f => .error f
    | none => if d.limit = some 0 then .error .noGroup else .ok ()

theorem standard_check : standard.check = .ok () := rfl

/-- The same tokens with the same meanings, in any order, and the same limit. -/
def agrees (d e : Dialect) : Bool := d.limit == e.limit && d.entries.isPerm e.entries

end Dialect

end ComparisonChain
