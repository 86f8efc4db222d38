import ComparisonChain.Proofs.TokenRuns
import ComparisonChain.Reading.Chain

/-!
# The order of entries

The entries of a dialect stand in some order, and another order makes the same
dialect. Of two tokens that a text starts with one is longer, so the longest is
the same whichever order the entries are gone through in, and however a tie
would be settled. `compile_eq_of_agrees` carries this to whole texts.
-/
namespace ComparisonChain
open Text Reading

section
variable {d d' : Dialect}

namespace Dialect

theorem agrees_iff :
    d.agrees d' = true ↔ d.limit = d'.limit ∧ d.entries.Perm d'.entries := by
  simp only [agrees, Bool.and_eq_true, beq_iff_eq, List.isPerm_iff]

theorem longestToken?_congr (h : ∀ e, e ∈ d.entries ↔ e ∈ d'.entries) (text : List Char) :
    d'.longestToken? text = d.longestToken? text := by
  refine Option.ext fun e => ?_
  rw [longestToken?_eq_some_iff, longestToken?_eq_some_iff, isLongest_congr h]

end Dialect

namespace Reading

theorem readConnectors_congr (h : ∀ text, d'.longestToken? text = d.longestToken? text)
    (b : Buffer) : readConnectors d' b = readConnectors d b := by
  have hhead : ∀ text, headToken? d' text = headToken? d text := by
    intro text
    rw [headToken?, headToken?, h]
  fun_induction readConnectors d b with
  | case1 b r hr =>
      rw [readConnectors]
      exact if_pos hr
  | case2 b r hr hn =>
      rw [readConnectors, if_neg hr]
      split
      · rfl
      · next ht =>
          rw [hhead, hn] at ht
          cases ht
  | case3 b r hr token c ht he =>
      rw [readConnectors, if_neg hr]
      split
      · next hn =>
          rw [hhead, ht] at hn
          cases hn
      · next ht' =>
          cases (ht.symm.trans ((hhead _).symm.trans ht'))
          split
          · rfl
          · next he' => cases he.symm.trans he'
  | case4 b r hr token c ht word rest he ih =>
      rw [readConnectors, if_neg hr]
      split
      · next hn =>
          rw [hhead, ht] at hn
          cases hn
      · next ht' =>
          cases (ht.symm.trans ((hhead _).symm.trans ht'))
          split
          · next he' => cases he.symm.trans he'
          · next he' =>
              cases he.symm.trans he'
              rw [ih]

theorem connectorsWithin_congr (h : ∀ text, d'.longestToken? text = d.longestToken? text)
    (rounds : Nat) (b : Buffer) : connectorsWithin d' rounds b = connectorsWithin d rounds b := by
  have hround : ∀ b, connectorRound d' b = connectorRound d b := by
    intro b
    simp only [connectorRound, h]
  induction rounds generalizing b with
  | zero => rfl
  | succ rounds ih => simp only [connectorsWithin, hround, ih]

end Reading

theorem compile_congr (hl : d.limit = d'.limit)
    (h : ∀ text, d'.longestToken? text = d.longestToken? text) (text : List Char) :
    d'.compile text = d.compile text := by
  simp only [Dialect.compile, Dialect.compileIn, hl, readConnectors_congr h]

/-- Dialects that agree up to the order of their entries find the same token at the head of a
text: the longest, which is a single one even where ties would count, and none just if none
prefixes the text. So they read every text alike, events and errors included, and in the same
rounds; and one passes the check just if the other does. -/
theorem compile_eq_of_agrees (h : d.agrees d' = true) (text : List Char) :
    (d.longestToken? text = none ↔ ∀ e ∈ d.entries, ¬e.1 <+: text) ∧
    (∀ e, d.longestToken? text = some e ↔ IsLongest d e text) ∧
    (∀ e ∈ d.entries, e.1 <+: text →
      (∀ o ∈ d.entries, o.1 <+: text → byteSize o.1 ≤ byteSize e.1) →
      d.longestToken? text = some e) ∧
    d'.longestToken? text = d.longestToken? text ∧
    d'.compile text = d.compile text ∧
    (d'.check = .ok () ↔ d.check = .ok ()) ∧
    ∀ rounds, connectorsWithin d' rounds ⟨text⟩ = connectorsWithin d rounds ⟨text⟩ := by
  obtain ⟨hl, hperm⟩ := Dialect.agrees_iff.mp h
  have hmem : ∀ e, e ∈ d.entries ↔ e ∈ d'.entries := fun _ => hperm.mem_iff
  have hlongest := Dialect.longestToken?_congr hmem
  refine ⟨longestToken?_eq_none_iff, fun _ => longestToken?_eq_some_iff, ?_, hlongest text,
    compile_congr hl hlongest text, ?_, fun rounds => connectorsWithin_congr hlongest rounds _⟩
  · intro e he hp hmax
    exact longestToken?_eq_some_iff.mpr (isLongest_iff.mpr ⟨he, hp, hmax⟩)
  · have hnil : d'.entries = [] ↔ d.entries = [] :=
      ⟨fun hn => (hn ▸ hperm).eq_nil, fun hn => (hn ▸ hperm).symm.eq_nil⟩
    simp only [Dialect.check_eq_ok_iff, ne_eq, hnil, hmem, hl]

/-- A token that goes on from another one, and an empty one. -/
def nestedTokens : Dialect where
  entries := [([], .or), ("AND".toList, .and), ("ANDALSO".toList, .or)]
  limit := some 2
  nodup := by decide

def nestedTokensReversed : Dialect where
  entries := nestedTokens.entries.reverse
  limit := some 2
  nodup := by decide

theorem nestedTokens_compile_eq : nestedTokens.agrees nestedTokensReversed = true ∧
    nestedTokensReversed.longestToken? "ANDALSO".toList = some ("ANDALSO".toList, .or) ∧
    nestedTokensReversed.read "(n > 1)ANDALSO(n < 5)".toList =
      .ok ⟨⟨.greater, 1⟩, [⟨.or, ⟨.less, 5⟩⟩]⟩ := by
  have h : nestedTokens.agrees nestedTokensReversed = true := by decide
  obtain ⟨-, -, -, htoken, -⟩ := compile_eq_of_agrees h "ANDALSO".toList
  obtain ⟨-, -, -, -, hcompile, -⟩ := compile_eq_of_agrees h "(n > 1)ANDALSO(n < 5)".toList
  refine ⟨h, htoken.trans (by decide), ?_⟩
  rw [Dialect.read, hcompile]
  decide +kernel

end

end ComparisonChain
