import ComparisonChain.Proofs.Nesting
import ComparisonChain.Proofs.Separation

/-!
# Joining texts

Two texts that are read can be joined by a token between spaces. The joined text
is made of the layers of both, and the space on either side of the token keeps
the two runs of connectives from being read into each other or into the token.
So the joined text is read as the first chain, the token's connective, and the
second chain; its value applies the connective to the value of all that stands
before it.
-/
namespace ComparisonChain
open Text Reading

section
variable {c e : Chain} {l : Connective}

/-! ## Joined chains -/

/-- A chain, a connective, and another chain after it. -/
def Chain.append (c : Chain) (l : Connective) (e : Chain) : Chain :=
  ⟨c.first, c.links ++ ⟨l, e.first⟩ :: e.links⟩

theorem Chain.tests_append : (c.append l e).tests = c.tests ++ e.tests := by
  simp [append, tests]

theorem Chain.connectives_append :
    (c.append l e).connectives = c.connectives ++ l :: e.connectives := by
  simp [append, connectives]

theorem Chain.comparisons_append :
    (c.append l e).comparisons = c.comparisons ++ e.comparisons := by
  rw [comparisons, tests_append, List.map_append]
  rfl

theorem Chain.numbers_append : (c.append l e).numbers = c.numbers ++ e.numbers := by
  rw [numbers, tests_append, List.map_append]
  rfl

/-- The second chain's links go on from the value of all before them. -/
theorem Chain.holds_append (v : Int64) : (c.append l e).holds v =
    e.links.foldl (fun acc k => k.connective.apply acc (k.test.holds v))
      (l.apply (c.holds v) (e.first.holds v)) := by
  simp [append, holds]

theorem Chain.holds_append_of_size_eq_one (h : e.size = 1) (v : Int64) :
    (c.append l e).holds v = l.apply (c.holds v) (e.holds v) := by
  have hlinks : e.links = [] := by simpa [size, tests] using h
  have hholds : e.holds v = e.first.holds v := by rw [holds, hlinks, List.foldl_nil]
  rw [holds_append, hlinks, hholds, List.foldl_nil]

end

namespace Reading

section
variable {d : Dialect} {a b run run' w token : List Char} {ls ls' : List Connective}
  {l : Connective}

/-! ## Joined runs -/

theorem Flat.connectives_append_allBlank (hd : d.check = .ok ()) (hw : AllBlank w) :
    Flat.connectives d (run ++ w) = Flat.connectives d run := by
  cases w with
  | nil => rw [List.append_nil]
  | cons c w =>
      have hc : isBlank c = true := hw c List.mem_cons_self
      have hrest : Flat.connectives d w = .ok [] :=
        Flat.connectives_eq_nil_iff.mpr fun x hx => hw x (List.mem_cons_of_mem c hx)
      rw [Flat.connectives_append_blank hd hc, hrest]
      cases Flat.connectives d run <;> simp [Except.bind, Except.map]

theorem connectives_of_mem (hd : d.check = .ok ()) (ht : (token, l) ∈ d.entries) :
    Flat.connectives d token = .ok [l] := by
  obtain ⟨hlength, htoken⟩ := Dialect.token_of_check hd ht
  obtain ⟨c, cs, rfl⟩ := List.exists_cons_of_length_pos (Nat.lt_of_lt_of_le Nat.two_pos hlength)
  exact Flat.connectives_self ht ⟨c, rfl, (htoken c List.mem_cons_self).1⟩

/-- Runs on either side of a token that stands between spaces, whatever blanks
there are besides. -/
theorem connectives_join_token {v u : List Char} (hd : d.check = .ok ())
    (ht : (token, l) ∈ d.entries) (hv : AllBlank v) (hu : AllBlank u)
    (h : Flat.connectives d run = .ok ls) (h' : Flat.connectives d run' = .ok ls') :
    Flat.connectives d (run ++ (v ++ ([' '] ++ token ++ [' ']) ++ u ++ run')) =
      .ok (ls ++ l :: ls') := by
  have hsplit : run ++ (v ++ ([' '] ++ token ++ [' ']) ++ u ++ run') =
      run ++ v ++ ' ' :: (token ++ ' ' :: (u ++ run')) := by simp
  rw [← Flat.connectives_append_allBlank hd hv] at h
  rw [← Flat.connectives_skip hu] at h'
  rw [hsplit, Flat.connectives_append_blank_eq_ok_iff hd rfl]
  refine ⟨ls, l :: ls', h, ?_, rfl⟩
  rw [Flat.connectives_append_blank_eq_ok_iff hd rfl]
  exact ⟨[l], ls', connectives_of_mem hd ht, h', rfl⟩

/-! ## Joined texts -/

theorem head?_getLast?_join {m : List Char} (ha : a.head? = some '(')
    (hb : b.getLast? = some ')') :
    (a ++ (m ++ b)).head? = some '(' ∧ (a ++ (m ++ b)).getLast? = some ')' := by
  constructor
  · rw [List.head?_append, ha]
    rfl
  · rw [List.getLast?_append, List.getLast?_append, hb]
    rfl

/-- Trimming the joined text moves the blanks inside of it next to what joins. -/
theorem exists_trim_join {m : List Char} (ha : (trim a).head? = some '(')
    (hb : (trim b).getLast? = some ')') :
    ∃ v u, AllBlank v ∧ AllBlank u ∧
      trim (a ++ (m ++ b)) = trim a ++ (v ++ m ++ u ++ trim b) := by
  obtain ⟨ua, va, hsa, hua, hva⟩ := exists_trim a
  obtain ⟨ub, vb, hsb, hub, hvb⟩ := exists_trim b
  have hsplit : a ++ (m ++ b) =
      ua ++ ((trim a ++ (va ++ m ++ ub ++ trim b)) ++ vb) := by
    conv => lhs; rw [hsa, hsb]
    simp
  obtain ⟨hhead, hlast⟩ := head?_getLast?_join (m := va ++ m ++ ub) ha hb
  refine ⟨va, ub, hva, hub, ?_⟩
  rw [hsplit]
  apply trim_padded hua _ _ hvb
  · rw [hhead]
    simp [isBlank]
  · rw [hlast]
    simp [isBlank]

theorem plain_of_mem (hd : d.check = .ok ()) (ht : (token, l) ∈ d.entries) : Plain token := by
  intro c hc
  simpa [isParenthesis] using ((Dialect.token_of_check hd ht).2 c hc).2

theorem plain_join_token {v u : List Char} (hd : d.check = .ok ()) (ht : (token, l) ∈ d.entries)
    (hv : AllBlank v) (hu : AllBlank u) : Plain (v ++ ([' '] ++ token ++ [' ']) ++ u) := by
  have hspace : Plain [' '] := plain_of_allBlank (by simp [AllBlank, isBlank])
  simp only [plain_append]
  exact ⟨⟨plain_of_allBlank hv, ⟨hspace, plain_of_mem hd ht⟩, hspace⟩, plain_of_allBlank hu⟩

/-- The joined text is read as the two chains joined: their columns one after the
other, with the token's connective between them. If the second has one test, the
connective applies to the value of the first as a whole. -/
theorem read_join {ca cb : Chain} (hd : d.check = .ok ()) (hl : d.limit = none)
    (ha : d.read a = .ok ca) (hb : d.read b = .ok cb) (ht : (token, l) ∈ d.entries) :
    ∃ c, d.read (a ++ ([' '] ++ token ++ [' '] ++ b)) = .ok c ∧
      c.comparisons = ca.comparisons ++ cb.comparisons ∧
      c.numbers = ca.numbers ++ cb.numbers ∧
      c.connectives = ca.connectives ++ [l] ++ cb.connectives ∧
      (cb.size = 1 → ∀ v, c.holds v = l.apply (ca.holds v) (cb.holds v)) := by
  obtain ⟨hhead, -, run, gs, hlayers, hrun, hgs, -, hls⟩ := read_eq_ok_iff.mp ha
  obtain ⟨-, hlast, run', hs, hlayers', hrun', hhs, -, hls'⟩ := read_eq_ok_iff.mp hb
  obtain ⟨v, u, hv, hu, htrim⟩ := exists_trim_join (m := [' '] ++ token ++ [' ']) hhead hlast
  have hgap := plain_join_token hd ht hv hu
  obtain ⟨hhead', hlast'⟩ :=
    head?_getLast?_join (m := v ++ ([' '] ++ token ++ [' ']) ++ u) hhead hlast
  have hread : Accepts d (trim (a ++ ([' '] ++ token ++ [' '] ++ b))) (ca.append l cb) := by
    rw [htrim]
    refine ⟨hhead', hlast', _, _, hlayers.append (layered_append_of_plain hgap hlayers'), ?_, ?_,
      by simp [hl], ?_⟩
    · rw [List.mem_append, List.mem_append, not_or, not_or]
      exact ⟨hrun, hgap.notMem_close, hrun'⟩
    · rw [List.flatten_append, hgs, hhs, Chain.tests_append]
    · rw [Chain.connectives_append]
      exact connectives_join_token hd ht hv hu hls hls'
  refine ⟨ca.append l cb, read_eq_ok_iff.mpr hread, Chain.comparisons_append,
    Chain.numbers_append, ?_, Chain.holds_append_of_size_eq_one⟩
  rw [Chain.connectives_append, List.append_assoc, List.singleton_append]

/-- The first text is accepted in spite of a group in a group, and each text has
blanks of its own towards the other. -/
theorem standard_read_join :
    Dialect.standard.check = .ok () ∧ Dialect.standard.limit = none ∧
      Dialect.standard.read "(a > 1) AND AND (x > 5 (n > 3))\t".toList =
        .ok ⟨⟨.greater, 1⟩, [⟨.and, ⟨.greater, 5⟩⟩, ⟨.and, ⟨.greater, 3⟩⟩]⟩ ∧
      Dialect.standard.read "\u2003(größe <= 0x10)".toList = .ok ⟨⟨.lessEqual, 16⟩, []⟩ ∧
      ("||".toList, .or) ∈ Dialect.standard.entries ∧
      ∃ c, Dialect.standard.read
          "(a > 1) AND AND (x > 5 (n > 3))\t || \u2003(größe <= 0x10)".toList = .ok c ∧
        c.comparisons = [.greater, .greater, .greater, .lessEqual] ∧ c.numbers = [1, 5, 3, 16] ∧
        c.connectives = [.and, .and, .or] ∧
        ∀ v, c.holds v = ((decide (1 < v) && decide (5 < v) && decide (3 < v)) ||
          decide (v ≤ 16)) := by
  have hd := Dialect.standard_check
  have ha : Dialect.standard.read "(a > 1) AND AND (x > 5 (n > 3))\t".toList =
      .ok ⟨⟨.greater, 1⟩, [⟨.and, ⟨.greater, 5⟩⟩, ⟨.and, ⟨.greater, 3⟩⟩]⟩ := by decide +kernel
  have hb : Dialect.standard.read "\u2003(größe <= 0x10)".toList =
      .ok ⟨⟨.lessEqual, 16⟩, []⟩ := by decide +kernel
  have ht : ("||".toList, .or) ∈ Dialect.standard.entries := by decide
  have htext : "(a > 1) AND AND (x > 5 (n > 3))\t".toList ++
      ([' '] ++ "||".toList ++ [' '] ++ "\u2003(größe <= 0x10)".toList) =
        "(a > 1) AND AND (x > 5 (n > 3))\t || \u2003(größe <= 0x10)".toList := by decide
  obtain ⟨c, hc, hcomparisons, hnumbers, hconnectives, hholds⟩ := read_join hd rfl ha hb ht
  rw [htext] at hc
  exact ⟨hd, rfl, ha, hb, ht, c, hc, hcomparisons, hnumbers, hconnectives, hholds rfl⟩

end

end Reading

end ComparisonChain
