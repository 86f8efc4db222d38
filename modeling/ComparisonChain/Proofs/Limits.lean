import ComparisonChain.Proofs.Layers

/-!
# Limits on groups

The limit is tested each time a group is found, while the text is still to be
read. It only refuses all the same: a text is read under a limit just if it is
read without one and its chain is no longer than the limit, and then as the same
chain. A text that is refused for its length alone is told the limit.
-/
namespace ComparisonChain
open Text Reading

/-- The same entries, and no limit. -/
def Dialect.unlimited (d : Dialect) : Dialect := { d with limit := none }

namespace Reading

section
variable {d : Dialect} {text cs r : List Char} {spans : List Span} {c : Chain} {m n : Nat}

theorem accepts_withLimit_iff {source : List Char} :
    Accepts (d.withLimit m) source c ↔ Accepts d.unlimited source c ∧ c.size ≤ m := by
  have hconnectives : ∀ run,
      Flat.connectives (d.withLimit m) run = Flat.connectives d.unlimited run :=
    Flat.connectives_congr fun _ => Iff.rfl
  constructor
  · intro h
    obtain ⟨hhead, hlast, run, gs, hl, hrun, hgs, hlimit, hls⟩ := h
    rw [hconnectives] at hls
    exact ⟨⟨hhead, hlast, run, gs, hl, hrun, hgs, nofun, hls⟩, hlimit m rfl⟩
  · intro h
    obtain ⟨⟨hhead, hlast, run, gs, hl, hrun, hgs, -, hls⟩, hm⟩ := h
    rw [← hconnectives] at hls
    refine ⟨hhead, hlast, run, gs, hl, hrun, hgs, fun k hk => ?_, hls⟩
    cases hk
    exact hm

theorem read_withLimit_eq_ok_iff :
    (d.withLimit m).read text = .ok c ↔ d.unlimited.read text = .ok c ∧ c.size ≤ m := by
  rw [read_eq_ok_iff, read_eq_ok_iff, accepts_withLimit_iff]

/-- A limit below the number of groups is met on the way, at the group that is one too many. -/
theorem peel_eq_error_of_lt (h : peel none n cs = .ok (spans, r)) (hm : m < spans.length) :
    peel (some m) n cs = .error (.tooManyGroups m) := by
  induction cs generalizing n spans r with
  | nil =>
      cases h
      cases hm
  | cons c cs ih =>
      obtain ⟨spans', r', hp, ⟨_, rfl, rfl⟩ | ⟨rfl, hr, -, rfl, rfl⟩⟩ := peel_cons_eq_ok_iff.mp h
      · rw [peel, ih hp hm]
      · by_cases hlt : m < spans'.length
        · rw [peel, ih hp hlt]
        · rw [List.length_append, List.length_singleton] at hm
          have hpass : peel (some m) (n + '('.utf8Size) cs = .ok (spans', r') :=
            peel_eq_ok_iff.mpr ⟨hp, fun k hk => by cases hk; omega⟩
          have hreached : reached? (some m) spans'.length = some m :=
            Option.filter_some_pos (by simpa using Nat.le_of_lt_succ hm)
          rw [peel, hpass]
          simp only [if_true, if_pos hr, hreached]

theorem read_withLimit_of_lt (h : d.unlimited.read text = .ok c) (hm : m < c.size) :
    (d.withLimit m).read text = .error (.form (.tooManyGroups m)) := by
  obtain ⟨hhead, hlast, spans, r, hp, -, -, hts⟩ := read_eq_ok_iff_peel.mp h
  have hlength := length_of_outcome_readGroups hts
  rw [List.length_reverse, ← Chain.size] at hlength
  rw [read_of_enclosed (enclosed_of_parentheses hhead hlast), Dialect.withLimit,
    peel_eq_error_of_lt hp (by omega)]

/-- Under a limit just those texts are read that are read without one and have no more tests
than that, as the same chain, and a longer one is refused for its groups. So a higher limit
reads all that a lower one reads. -/
theorem read_withLimit_iff (d : Dialect) (text : List Char) (m : Nat) :
    (∀ c, (d.withLimit m).read text = .ok c ↔ d.unlimited.read text = .ok c ∧ c.size ≤ m) ∧
    (∀ c, d.unlimited.read text = .ok c → m < c.size →
      (d.withLimit m).read text = .error (.form (.tooManyGroups m))) ∧
    ∀ k c, m ≤ k → (d.withLimit m).read text = .ok c → (d.withLimit k).read text = .ok c := by
  refine ⟨fun c => read_withLimit_eq_ok_iff, fun c => read_withLimit_of_lt, fun k c hk h => ?_⟩
  obtain ⟨hread, hm⟩ := read_withLimit_eq_ok_iff.mp h
  exact read_withLimit_eq_ok_iff.mpr ⟨hread, hm.trans hk⟩

end

end Reading

end ComparisonChain
