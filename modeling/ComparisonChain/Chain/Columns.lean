import ComparisonChain.Chain.Basic

/-!
# Chains from their columns

Three columns make a chain when there is a comparison, as many numbers as
comparisons, and one connective fewer. The first of these that fails is the
fault.
-/
namespace ComparisonChain

inductive ColumnFault where
  | noComparison
  | numbers (comparisons numbers : Nat)
  | connectives (comparisons connectives : Nat)
  deriving DecidableEq, Repr

namespace Chain

def ofColumns (cs : List Comparison) (ns : List Int64) (ls : List Connective) :
    Except ColumnFault Chain :=
  match cs with
  | [] => .error .noComparison
  | c :: cs =>
      if ns.length ≠ cs.length + 1 then .error (.numbers (cs.length + 1) ns.length)
      else if ls.length ≠ cs.length then .error (.connectives (cs.length + 1) ls.length)
      else
        match ns with
        | [] => .error (.numbers (cs.length + 1) 0)
        | n :: ns => .ok ⟨⟨c, n⟩, List.zipWith Link.mk ls (List.zipWith Test.mk cs ns)⟩

theorem ofColumns_columns (c : Chain) :
    ofColumns c.comparisons c.numbers c.connectives = .ok c := by
  obtain ⟨⟨p, n⟩, ks⟩ := c
  simp only [comparisons, numbers, connectives, tests, List.map_cons, List.map_map, ofColumns,
    List.length_cons, List.length_map, ne_eq, not_true_eq_false, if_false]
  congr 2
  cases ks with
  | nil => rfl
  | cons k ks => simp

theorem map_fst_zipWith {α β γ : Type} {f : α → β → γ} {g : γ → α}
    (hg : ∀ a b, g (f a b) = a) {as : List α} {bs : List β} (h : as.length = bs.length) :
    (List.zipWith f as bs).map g = as := by
  induction as generalizing bs with
  | nil => simp
  | cons a as ih =>
      cases bs with
      | nil => simp at h
      | cons b bs => simp [hg, ih (Nat.succ.inj h)]

theorem map_snd_zipWith {α β γ : Type} {f : α → β → γ} {g : γ → β}
    (hg : ∀ a b, g (f a b) = b) {as : List α} {bs : List β} (h : as.length = bs.length) :
    (List.zipWith f as bs).map g = bs := by
  rw [List.zipWith_comm]
  exact map_fst_zipWith (fun b a => hg a b) h.symm

theorem columns_of_ofColumns {cs : List Comparison} {ns : List Int64} {ls : List Connective}
    {c : Chain} (h : ofColumns cs ns ls = .ok c) :
    c.comparisons = cs ∧ c.numbers = ns ∧ c.connectives = ls := by
  cases cs with
  | nil => simp [ofColumns] at h
  | cons p cs =>
      cases ns with
      | nil => simp [ofColumns] at h
      | cons n ns =>
          simp only [ofColumns, List.length_cons, ne_eq, Nat.add_right_cancel_iff] at h
          split at h
          · simp at h
          · next hn =>
              split at h
              · simp at h
              · next hl =>
                  rw [Decidable.not_not] at hn hl
                  cases h
                  have ht : ls.length = (List.zipWith Test.mk cs ns).length := by
                    simp [hn, hl]
                  have h1 := map_snd_zipWith (f := Link.mk) (g := Link.test) (fun _ _ => rfl) ht
                  have h2 := map_fst_zipWith (f := Link.mk) (g := Link.connective)
                    (fun _ _ => rfl) ht
                  have h3 := map_fst_zipWith (f := Test.mk) (g := Test.comparison)
                    (fun _ _ => rfl) hn.symm
                  have h4 := map_snd_zipWith (f := Test.mk) (g := Test.number)
                    (fun _ _ => rfl) hn.symm
                  exact ⟨congrArg (p :: ·) ((congrArg (List.map Test.comparison) h1).trans h3),
                    congrArg (n :: ·) ((congrArg (List.map Test.number) h1).trans h4), h2⟩

/-- A chain comes from its own columns and from no others. -/
theorem ofColumns_eq_ok_iff {cs : List Comparison} {ns : List Int64} {ls : List Connective}
    {c : Chain} :
    ofColumns cs ns ls = .ok c ↔ c.comparisons = cs ∧ c.numbers = ns ∧ c.connectives = ls :=
  ⟨columns_of_ofColumns, fun ⟨h1, h2, h3⟩ => h1 ▸ h2 ▸ h3 ▸ ofColumns_columns c⟩

end Chain

end ComparisonChain
