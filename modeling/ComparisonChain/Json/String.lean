import ComparisonChain.Json.Basic
import ComparisonChain.Numeral
import ComparisonChain.Text.Bytes

/-!
# JSON strings

A string ends at the first quote that no backslash stands before. Its escapes
give one character each, a pair of surrogates together one; controls must be
escaped. A string that is only skipped may hold surrogates in any order.
-/
namespace ComparisonChain.Json

/-- The four hexadecimal digits of an escape. -/
def codeUnit (cs : List Char) : Except Fault (Nat × List Char) :=
  match cs with
  | a :: b :: c :: d :: rest =>
      if [a, b, c, d].all Numeral.isHexDigit then .ok (Numeral.ofDigits 16 [a, b, c, d], rest)
      else .error .malformed
  | _ => if Text.byteSize cs < 4 then .error .truncated else .error .malformed

/-- The character that a letter stands for after a backslash. -/
def letterEscape? (c : Char) : Option Char :=
  if c = '"' ∨ c = '\\' ∨ c = '/' then some c
  else if c = 'b' then some '\x08'
  else if c = 'f' then some '\x0c'
  else if c = 'n' then some '\n'
  else if c = 'r' then some '\r'
  else if c = 't' then some '\t'
  else none

/-- A character that must come next. -/
def exactly (x : Char) : List Char → Except Fault (List Char)
  | [] => .error .truncated
  | c :: cs => if c = x then .ok cs else .error .malformed

def isLeadSurrogate (n : Nat) : Bool := 0xd800 ≤ n && n ≤ 0xdbff

def isTrailSurrogate (n : Nat) : Bool := 0xdc00 ≤ n && n ≤ 0xdfff

/-- The character of a code unit, together with the escape after it where the
unit is a lead surrogate. -/
def unicodeEscape (cs : List Char) : Except Fault (Char × List Char) := do
  let (n, rest) ← codeUnit cs
  if isTrailSurrogate n then .error .malformed
  else if isLeadSurrogate n then do
    let rest ← exactly '\\' rest
    let rest ← exactly 'u' rest
    let (m, rest) ← codeUnit rest
    if isTrailSurrogate m then
      .ok (Char.ofNat (0x10000 + (n - 0xd800) * 0x400 + (m - 0xdc00)), rest)
    else .error .malformed
  else .ok (Char.ofNat n, rest)

/-- What follows a backslash. -/
def escape : List Char → Except Fault (Char × List Char)
  | [] => .error .truncated
  | c :: cs =>
      if c = 'u' then unicodeEscape cs
      else
        match letterEscape? c with
        | some x => .ok (x, cs)
        | none => .error .malformed

theorem length_lt_of_codeUnit {cs : List Char} {n : Nat} {rest : List Char}
    (h : codeUnit cs = .ok (n, rest)) : rest.length < cs.length := by
  unfold codeUnit at h
  split at h
  · split at h
    · simp only [Except.ok.injEq, Prod.mk.injEq] at h
      simp only [← h.2, List.length_cons]
      omega
    · simp at h
  · split at h <;> simp at h

theorem length_lt_of_exactly {x : Char} {cs rest : List Char}
    (h : exactly x cs = .ok rest) : rest.length < cs.length := by
  cases cs with
  | nil => simp [exactly] at h
  | cons c cs =>
      simp only [exactly] at h
      split at h
      · simp only [Except.ok.injEq] at h
        simp [h]
      · simp at h

theorem length_lt_of_unicodeEscape {cs : List Char} {c : Char} {rest : List Char}
    (h : unicodeEscape cs = .ok (c, rest)) : rest.length < cs.length := by
  unfold unicodeEscape at h
  cases hn : codeUnit cs with
  | error f => simp [hn, bind, Except.bind] at h
  | ok p =>
      obtain ⟨n, r⟩ := p
      have h0 := length_lt_of_codeUnit hn
      simp only [hn, bind, Except.bind] at h
      split at h
      · simp at h
      · split at h
        · cases h1 : exactly '\\' r with
          | error f => simp [h1] at h
          | ok r1 =>
              have l1 := length_lt_of_exactly h1
              simp only [h1] at h
              cases h2 : exactly 'u' r1 with
              | error f => simp [h2] at h
              | ok r2 =>
                  have l2 := length_lt_of_exactly h2
                  simp only [h2] at h
                  cases h3 : codeUnit r2 with
                  | error f => simp [h3] at h
                  | ok q =>
                      have l3 := length_lt_of_codeUnit h3
                      simp only [h3] at h
                      split at h
                      · simp only [Except.ok.injEq, Prod.mk.injEq] at h
                        rw [← h.2]
                        omega
                      · simp at h
        · simp only [Except.ok.injEq, Prod.mk.injEq] at h
          rw [← h.2]
          exact h0

theorem length_lt_of_escape {cs : List Char} {c : Char} {rest : List Char}
    (h : escape cs = .ok (c, rest)) : rest.length < cs.length := by
  cases cs with
  | nil => simp [escape] at h
  | cons x cs =>
      simp only [escape] at h
      split at h
      · exact Nat.lt_succ_of_lt (length_lt_of_unicodeEscape h)
      · split at h
        · simp only [Except.ok.injEq, Prod.mk.injEq] at h
          simp [h.2]
        · simp at h

/-- The characters of a string whose opening quote has been read. -/
def stringBody (cs : List Char) : Except Fault (List Char × List Char) :=
  match cs with
  | [] => .error .truncated
  | c :: cs =>
      if c = '"' then .ok ([], cs)
      else if c = '\\' then
        match _h : escape cs with
        | .error f => .error f
        | .ok (x, rest) =>
            match stringBody rest with
            | .error f => .error f
            | .ok (xs, rest) => .ok (x :: xs, rest)
      else if c.toNat < 0x20 then .error .malformed
      else
        match stringBody cs with
        | .error f => .error f
        | .ok (xs, rest) => .ok (c :: xs, rest)
termination_by cs.length
decreasing_by
  · have := length_lt_of_escape _h
    simp only [List.length_cons]
    omega
  · simp

/-- What follows a backslash in a string that is skipped. -/
def skipEscape : List Char → Except Fault (List Char)
  | [] => .error .truncated
  | c :: cs =>
      if c = 'u' then (codeUnit cs).map (·.2)
      else if (letterEscape? c).isSome then .ok cs
      else .error .malformed

theorem length_lt_of_skipEscape {cs rest : List Char} (h : skipEscape cs = .ok rest) :
    rest.length < cs.length := by
  cases cs with
  | nil => simp [skipEscape] at h
  | cons x cs =>
      simp only [skipEscape] at h
      split at h
      · cases hu : codeUnit cs with
        | error f => simp [hu, Except.map] at h
        | ok p =>
            have hl := length_lt_of_codeUnit hu
            simp only [hu, Except.map, Except.ok.injEq] at h
            rw [List.length_cons, ← h]
            omega
      · split at h
        · simp only [Except.ok.injEq] at h
          simp [h]
        · simp at h

def skipString (cs : List Char) : Except Fault (List Char) :=
  match cs with
  | [] => .error .truncated
  | c :: cs =>
      if c = '"' then .ok cs
      else if c = '\\' then
        match _h : skipEscape cs with
        | .error f => .error f
        | .ok rest => skipString rest
      else if c.toNat < 0x20 then .error .malformed
      else skipString cs
termination_by cs.length
decreasing_by
  · have := length_lt_of_skipEscape _h
    simp only [List.length_cons]
    omega
  · simp

end ComparisonChain.Json
