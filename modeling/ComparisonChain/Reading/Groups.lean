import ComparisonChain.Event

/-!
# Groups

A group is what stands between a pair of parentheses. Groups are cut out of the
text one by one, the one that opens last first, and the text closes up behind
each. A span is a position in what was left when its group was cut, so the
spans come out from right to left.
-/
namespace ComparisonChain.Reading

/-- The pair to cut next: the last opening parenthesis and the first closing
one after it. A parenthesis without a partner is a fault. -/
def nextPair? (b : Buffer) : Except FormFault (Option (Nat × Nat)) :=
  match b.findLast? '(' with
  | some opening =>
      match b.findFrom? ')' opening with
      | some closing => .ok (some (opening, closing))
      | none => .error (.unclosed opening)
  | none =>
      match b.findFirst? ')' with
      | some closing => .error (.unmatched closing)
      | none => .ok none

theorem le_of_nextPair? {b : Buffer} {i j : Nat} (h : nextPair? b = .ok (some (i, j))) :
    i ≤ j := by
  simp only [nextPair?] at h
  split at h
  · split at h
    · next hc =>
        simp only [Except.ok.injEq, Option.some.injEq, Prod.mk.injEq] at h
        obtain ⟨rfl, rfl⟩ := h
        exact Buffer.le_of_findFrom? hc
    · simp at h
  · split at h <;> simp at h

/-- The limit, once as many groups have been found. -/
def reached? (limit : Option Nat) (found : Nat) : Option Nat := limit.filter (· ≤ found)

/-- Cuts every group: the spans in cutting order, and what stands outside. -/
def cutGroups (limit : Option Nat) (found : Nat) (b : Buffer) : Logged (List Span × Buffer) :=
  match _hp : nextPair? b with
  | .error f => .fail (.form f)
  | .ok none => pure ([], b)
  | .ok (some (opening, closing)) =>
      match reached? limit found with
      | some m => .fail (.form (.tooManyGroups m))
      | none =>
          match _he : b.erase? opening (closing + 1) with
          | none => .fail (.form .cutOutOfBounds)
          | some (_, rest) => do
              let span : Span := ⟨opening + 1, closing⟩
              Logged.note (.cut span rest.chars)
              let (spans, residual) ← cutGroups limit (found + 1) rest
              pure (span :: spans, residual)
termination_by b.size
decreasing_by
  have hle := le_of_nextPair? _hp
  have hs := Buffer.size_of_erase? _he
  omega

end ComparisonChain.Reading
