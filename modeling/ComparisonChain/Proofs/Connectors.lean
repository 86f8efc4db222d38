import ComparisonChain.Reading.Flat
import ComparisonChain.Reading.Rendering
import Mathlib.Data.List.Nodup
import Mathlib.Data.List.TakeWhile
import Mathlib.Data.Nat.Basic

/-!
# Runs of connectors

The reader takes, at the head of a text, the entry whose token is the longest
that prefixes the text. Two tokens that prefix one text and have the same size
are the same token, so there is one such entry at most, and the order of the
entries plays no part. `outcome_readConnectors` says that reading a run from a
buffer is reading it from its characters.
-/
namespace ComparisonChain
open Text Reading

section
variable {d : Dialect} {text : List Char} {e o : List Char × Connective}

namespace Dialect

theorem exists_longest {es : List (List Char × Connective)} (h : es ≠ []) :
    ∃ e, longest es = some e := by
  cases es with
  | nil => exact absurd rfl h
  | cons a es =>
      rw [longest]
      split
      · exact ⟨_, rfl⟩
      · split <;> exact ⟨_, rfl⟩

theorem byteSize_le_of_longest {es : List (List Char × Connective)} (h : longest es = some e)
    (ho : o ∈ es) : byteSize o.1 ≤ byteSize e.1 := by
  induction es generalizing e with
  | nil => cases ho
  | cons a es ih =>
      by_cases hes : es = []
      · subst hes
        cases h
        exact List.mem_singleton.mp ho ▸ le_rfl
      · obtain ⟨best, hb⟩ := exists_longest hes
        simp only [longest, hb] at h
        rcases List.mem_cons.mp ho with rfl | ho
        · split at h <;> cases h
          · exact le_rfl
          · omega
        · have hbest := ih hb ho
          split at h <;> cases h
          · omega
          · exact hbest

/-- Entries with one token are one entry. -/
theorem eq_of_fst_eq (he : e ∈ d.entries) (ho : o ∈ d.entries) (h : e.1 = o.1) : e = o :=
  List.inj_on_of_nodup_map d.nodup he ho h

theorem check_eq_ok_iff : d.check = .ok () ↔
    d.entries ≠ [] ∧ (∀ e ∈ d.entries, tokenFault? e.1 = none) ∧ d.limit ≠ some 0 := by
  unfold check
  split
  · next h => simp [List.isEmpty_iff.mp h]
  · next h =>
      have hne : d.entries ≠ [] := by simpa using h
      split
      · next f hf =>
          obtain ⟨e, he, hfault⟩ := List.exists_of_findSome?_eq_some hf
          refine ⟨nofun, fun h => ?_⟩
          rw [h.2.1 e he] at hfault
          cases hfault
      · next hf =>
          have hfaults := List.findSome?_eq_none_iff.mp hf
          split_ifs with hl
          · simp [hl]
          · exact iff_of_true rfl ⟨hne, hfaults, hl⟩

theorem tokenFault?_eq_none_iff {token : List Char} : tokenFault? token = none ↔
    2 ≤ token.length ∧ ∀ c ∈ token, isBlank c = false ∧ c ≠ '(' ∧ c ≠ ')' := by
  unfold tokenFault?
  split_ifs with hshort hbroken
  · simp only [false_iff, not_and]
    omega
  · simp only [false_iff, not_and]
    intro _ hall
    obtain ⟨c, hc, hbad⟩ := List.any_eq_true.mp hbroken
    simp [hall c hc] at hbad
  · have hlength : 2 ≤ token.length := by omega
    refine iff_of_true rfl ⟨hlength, fun c hc => ?_⟩
    have hany := List.any_eq_false.mp (Bool.eq_false_iff.mpr hbroken) c hc
    simpa [not_or, and_assoc] using hany

/-- A token that passed the check has two characters, no blank and no parenthesis. -/
theorem token_of_check (h : d.check = .ok ()) (he : e ∈ d.entries) :
    2 ≤ e.1.length ∧ ∀ c ∈ e.1, isBlank c = false ∧ c ≠ '(' ∧ c ≠ ')' :=
  tokenFault?_eq_none_iff.mp ((check_eq_ok_iff.mp h).2.1 e he)

end Dialect

namespace Reading

theorem eq_of_prefix_of_byteSize_eq {a b cs : List Char} (ha : a <+: cs) (hb : b <+: cs)
    (h : byteSize a = byteSize b) : a = b := by
  obtain ⟨p, rfl⟩ := ha
  obtain ⟨q, hq⟩ := hb
  have hs := splitAtByte?_append b q
  rw [hq, ← h, splitAtByte?_append] at hs
  exact congrArg Prod.fst (Option.some.inj hs)

theorem IsLongest.unique (he : IsLongest d e text) (ho : IsLongest d o text) : e = o := by
  by_contra hne
  have h1 := he.2.2 o ho.1 ho.2.1 (Ne.symm hne)
  have h2 := ho.2.2 e he.1 he.2.1 hne
  omega

/-- A prefix of the same size would be the same token and hence the same entry, so no
other entry comes up to the longest. -/
theorem isLongest_iff : IsLongest d e text ↔ e ∈ d.entries ∧ e.1 <+: text ∧
    ∀ o ∈ d.entries, o.1 <+: text → byteSize o.1 ≤ byteSize e.1 := by
  constructor
  · intro h
    refine ⟨h.1, h.2.1, fun o ho hop => ?_⟩
    by_cases hne : o = e
    · exact hne ▸ le_rfl
    · exact le_of_lt (h.2.2 o ho hop hne)
  · intro h
    obtain ⟨he, hp, hmax⟩ := h
    refine ⟨he, hp, fun o ho hop hne => lt_of_le_of_ne (hmax o ho hop) fun heq => hne ?_⟩
    exact Dialect.eq_of_fst_eq ho he (eq_of_prefix_of_byteSize_eq hop hp heq)

theorem isLongest_congr {d' : Dialect} (h : ∀ e, e ∈ d.entries ↔ e ∈ d'.entries) :
    IsLongest d e text ↔ IsLongest d' e text := by
  simp only [IsLongest, h]

/-- The reader's choice is the longest token, whichever way it goes through the
entries. -/
theorem longestToken?_eq_some_iff : d.longestToken? text = some e ↔ IsLongest d e text := by
  constructor
  · intro h
    obtain ⟨hm, hp⟩ := Dialect.mem_of_longestToken? h
    refine isLongest_iff.mpr ⟨hm, hp, fun o ho hop => ?_⟩
    exact Dialect.byteSize_le_of_longest h
      (List.mem_filter.mpr ⟨ho, List.isPrefixOf_iff_prefix.mpr hop⟩)
  · intro h
    have hmem : e ∈ d.entries.filter fun o => o.1.isPrefixOf text :=
      List.mem_filter.mpr ⟨h.1, List.isPrefixOf_iff_prefix.mpr h.2.1⟩
    obtain ⟨o, ho⟩ := Dialect.exists_longest (List.ne_nil_of_mem hmem)
    obtain ⟨hm, hp⟩ := Dialect.mem_of_longestToken? ho
    have hle := Dialect.byteSize_le_of_longest ho hmem
    have heq : o = e := by
      by_contra hne
      have := h.2.2 o hm hp hne
      omega
    rw [Dialect.longestToken?, ho, heq]

theorem longestToken?_eq_none_iff :
    d.longestToken? text = none ↔ ∀ e ∈ d.entries, ¬e.1 <+: text := by
  constructor
  · intro h e he hp
    have hmem : e ∈ d.entries.filter fun o => o.1.isPrefixOf text :=
      List.mem_filter.mpr ⟨he, List.isPrefixOf_iff_prefix.mpr hp⟩
    obtain ⟨o, ho⟩ := Dialect.exists_longest (List.ne_nil_of_mem hmem)
    rw [Dialect.longestToken?, ho] at h
    cases h
  · intro h
    by_contra hne
    obtain ⟨e, he⟩ := Option.ne_none_iff_exists'.mp hne
    obtain ⟨hm, hp⟩ := Dialect.mem_of_longestToken? he
    exact h e hm hp

theorem headToken?_eq_some_iff : headToken? d text = some e ↔ e.1 ≠ [] ∧ IsLongest d e text := by
  simp only [headToken?, Option.filter_eq_some_iff, longestToken?_eq_some_iff,
    Bool.not_eq_true', List.isEmpty_eq_false_iff]
  exact And.comm

theorem Flat.longestMatch?_eq_some_iff :
    Flat.longestMatch? d text = some e ↔ e.1 ≠ [] ∧ IsLongest d e text := by
  constructor
  · intro h
    have he := List.find?_some h
    exact of_decide_eq_true he
  · intro h
    cases hf : Flat.longestMatch? d text with
    | none =>
        have hn := List.find?_eq_none.mp hf e h.2.1
        exact absurd (decide_eq_true h) hn
    | some o =>
        have ho := List.find?_some hf
        rw [IsLongest.unique (of_decide_eq_true ho).2 h.2]

theorem headToken?_eq_longestMatch? : headToken? d text = Flat.longestMatch? d text :=
  Option.ext fun _ => headToken?_eq_some_iff.trans Flat.longestMatch?_eq_some_iff.symm

/-- Of the tokens that prefix a text, only those that go on beyond the one at hand
keep it from being the longest. -/
theorem isLongest_of_longer {r : List Char} (he : e ∈ d.entries)
    (h : ∀ o ∈ d.entries, e.1 <+: o.1 → o.1 <+: e.1 ++ r → o = e) : IsLongest d e (e.1 ++ r) := by
  refine ⟨he, List.prefix_append _ _, fun o ho hp hne => ?_⟩
  rcases List.prefix_or_prefix_of_prefix hp (List.prefix_append e.1 r) with hoe | heo
  · obtain ⟨q, hq⟩ := hoe
    have hqne : q ≠ [] := by
      intro hnil
      rw [hnil, List.append_nil] at hq
      exact hne (Dialect.eq_of_fst_eq ho he hq)
    have hpos := mt byteSize_eq_zero.mp hqne
    rw [← hq, byteSize_append]
    omega
  · exact absurd (h o ho heo hp) hne

theorem isLongest_of_prefixFree {r : List Char} (hd : d.PrefixFree) (he : e ∈ d.entries) :
    IsLongest d e (e.1 ++ r) :=
  isLongest_of_longer he fun o ho heo _ => (hd e he o ho heo).symm

theorem not_blank_of_token (hd : d.check = .ok ()) (he : e ∈ d.entries) :
    ∀ c ∈ e.1, isBlank c = false :=
  fun c hc => ((Dialect.token_of_check hd he).2 c hc).1

/-- A sound token does not go on into a blank. -/
theorem prefix_append_blank_iff {c : Char} {cs r : List Char} (hd : d.check = .ok ())
    (he : e ∈ d.entries) (hc : isBlank c = true) : e.1 <+: cs ++ c :: r ↔ e.1 <+: cs := by
  refine ⟨fun hp => ?_, fun hp => hp.trans (List.prefix_append _ _)⟩
  rcases List.prefix_or_prefix_of_prefix hp (List.prefix_append cs (c :: r)) with h | h
  · exact h
  · obtain ⟨q, hq⟩ := h
    cases q with
    | nil =>
        rw [List.append_nil] at hq
        exact hq ▸ List.prefix_rfl
    | cons x q =>
        rw [← hq, List.prefix_append_right_inj, List.cons_prefix_cons] at hp
        have hx := not_blank_of_token hd he x (hq ▸ by simp)
        rw [hp.1, hc] at hx
        cases hx

theorem isLongest_append_blank_iff {c : Char} {cs r : List Char} (hd : d.check = .ok ())
    (hc : isBlank c = true) : IsLongest d e (cs ++ c :: r) ↔ IsLongest d e cs := by
  unfold IsLongest
  refine and_congr_right fun he => and_congr (prefix_append_blank_iff hd he hc) ?_
  exact forall₂_congr fun o ho => by rw [prefix_append_blank_iff hd ho hc]

/-- A token by itself is longer than any other that prefixes it. -/
theorem isLongest_self (he : e ∈ d.entries) : IsLongest d e e.1 := by
  have hlongest := isLongest_of_longer (r := []) he fun o ho heo hoe => by
    rw [List.append_nil] at hoe
    exact Dialect.eq_of_fst_eq ho he (heo.eq_of_length_le hoe.length_le).symm
  rwa [List.append_nil] at hlongest

/-- A sound token before a blank or at the end is the longest at its place. -/
theorem isLongest_of_boundary {r : List Char} (hd : d.check = .ok ()) (he : e ∈ d.entries)
    (hr : ∀ c ∈ r.head?, isBlank c = true) : IsLongest d e (e.1 ++ r) := by
  cases r with
  | nil =>
      rw [List.append_nil]
      exact isLongest_self he
  | cons c r => exact (isLongest_append_blank_iff hd (hr c rfl)).mpr (isLongest_self he)

/-! ## Reading a run -/

variable {run : List Char} {c : Char} {cs : List Char}

theorem Flat.connectives_of_blank (h : trimStart run = []) : Flat.connectives d run = .ok [] := by
  rw [Flat.connectives]
  split
  · rfl
  · next hr => exact absurd (h.symm.trans hr) (by simp)

theorem Flat.connectives_of_stop (h : trimStart run = c :: cs)
    (hn : Flat.longestMatch? d (c :: cs) = none) :
    Flat.connectives d run = .error (noConnector (c :: cs)) := by
  rw [Flat.connectives]
  split
  · next hr => exact absurd (h.symm.trans hr) (by simp)
  · next hr =>
      cases h.symm.trans hr
      split
      · rfl
      · next ht => exact absurd (hn.symm.trans ht) (by simp)

theorem Flat.connectives_of_token (h : trimStart run = c :: cs)
    (he : Flat.longestMatch? d (c :: cs) = some e) :
    Flat.connectives d run =
      (Flat.connectives d ((c :: cs).drop e.1.length)).map (e.2 :: ·) := by
  rw [Flat.connectives]
  split
  · next hr => exact absurd (h.symm.trans hr) (by simp)
  · next hr =>
      cases h.symm.trans hr
      split
      · next ht => exact absurd (he.symm.trans ht) (by simp)
      · next ht =>
          cases he.symm.trans ht
          rfl

/-- A run is read by the entries that there are, in whatever order. -/
theorem Flat.connectives_congr {d' : Dialect} (h : ∀ e, e ∈ d.entries ↔ e ∈ d'.entries)
    (run : List Char) : Flat.connectives d run = Flat.connectives d' run := by
  have hmatch : ∀ text, Flat.longestMatch? d text = Flat.longestMatch? d' text := by
    intro text
    apply Option.ext
    intro e
    rw [Flat.longestMatch?_eq_some_iff, Flat.longestMatch?_eq_some_iff, isLongest_congr h]
  fun_induction Flat.connectives d run with
  | case1 run hr => rw [Flat.connectives_of_blank hr]
  | case2 run c cs hr ht => rw [Flat.connectives_of_stop hr ((hmatch _).symm.trans ht)]
  | case3 run c cs hr e ht ih =>
      rw [Flat.connectives_of_token hr ((hmatch _).symm.trans ht), ih]

theorem Flat.connectives_eq_nil_iff : Flat.connectives d run = .ok [] ↔ AllBlank run := by
  constructor
  · intro h
    have hnil : trimStart run = [] := by
      by_contra hne
      obtain ⟨c, cs, hr⟩ := List.exists_cons_of_ne_nil hne
      cases he : Flat.longestMatch? d (c :: cs) with
      | none =>
          rw [Flat.connectives_of_stop hr he] at h
          cases h
      | some e =>
          rw [Flat.connectives_of_token hr he] at h
          cases hc : Flat.connectives d ((c :: cs).drop e.1.length) <;> simp [hc, Except.map] at h
    exact List.dropWhile_eq_nil_iff.mp hnil
  · exact fun h => Flat.connectives_of_blank (trimStart_eq_nil h)

/-- A token by itself reads as its connective, whatever other tokens there are. -/
theorem Flat.connectives_self (he : e ∈ d.entries) (hb : ∃ c ∈ e.1.head?, isBlank c = false) :
    Flat.connectives d e.1 = .ok [e.2] := by
  obtain ⟨c, hc, hblank⟩ := hb
  obtain ⟨cs, hcs⟩ := List.head?_eq_some_iff.mp hc
  have hstart : trimStart e.1 = c :: cs := by
    rw [hcs]
    exact trimStart_eq_self (by simpa using hblank)
  have hmatch : Flat.longestMatch? d (c :: cs) = some e :=
    Flat.longestMatch?_eq_some_iff.mpr ⟨by simp [hcs], hcs ▸ isLongest_self he⟩
  rw [Flat.connectives_of_token hstart hmatch, ← hcs, List.drop_length,
    Flat.connectives_of_blank rfl]
  rfl

/-- Blanks, and then a token that is the longest at its place. -/
theorem Flat.connectives_append {u r : List Char} (hu : AllBlank u) (hne : e.1 ≠ [])
    (hb : ∀ c ∈ e.1, isBlank c = false) (he : IsLongest d e (e.1 ++ r)) :
    Flat.connectives d (u ++ (e.1 ++ r)) = (Flat.connectives d r).map (e.2 :: ·) := by
  obtain ⟨c, t, hc⟩ := List.exists_cons_of_ne_nil hne
  have hstart : trimStart (u ++ (e.1 ++ r)) = c :: (t ++ r) := by
    rw [trimStart_append hu, trimStart, hc, List.cons_append, List.dropWhile_cons,
      hb c (hc ▸ List.mem_cons_self), if_neg (by simp)]
  have hmatch : Flat.longestMatch? d (c :: (t ++ r)) = some e :=
    Flat.longestMatch?_eq_some_iff.mpr ⟨hne, by rwa [← List.cons_append, ← hc]⟩
  rw [Flat.connectives_of_token hstart hmatch, ← List.cons_append, ← hc, List.drop_left]

theorem Flat.connectives_skip {u : List Char} (hu : AllBlank u) (r : List Char) :
    Flat.connectives d (u ++ r) = Flat.connectives d r := by
  have hstart : trimStart (u ++ r) = trimStart r := trimStart_append hu r
  cases hr : trimStart r with
  | nil => rw [Flat.connectives_of_blank hr, Flat.connectives_of_blank (hstart.trans hr)]
  | cons c cs =>
      cases he : Flat.longestMatch? d (c :: cs) with
      | none => rw [Flat.connectives_of_stop hr he, Flat.connectives_of_stop (hstart.trans hr) he]
      | some e =>
          rw [Flat.connectives_of_token hr he, Flat.connectives_of_token (hstart.trans hr) he]

theorem noConnector_append_blank (hc : isBlank c = true) (cs r : List Char) :
    noConnector (cs ++ c :: r) = noConnector cs := by
  have hword : firstWord (cs ++ c :: r) = firstWord cs := by
    unfold firstWord
    rw [List.takeWhile_append]
    split
    · next hall =>
        have hself := (List.takeWhile_prefix fun x => !isBlank x).eq_of_length hall
        rw [List.takeWhile_cons_of_neg (by simp [hc]), List.append_nil, hself]
    · rfl
  unfold noConnector
  rw [hword]

/-- A blank parts a run: what stands before it is read as if it stood alone. -/
theorem Flat.connectives_append_blank (hd : d.check = .ok ()) (hc : isBlank c = true)
    (w r : List Char) :
    Flat.connectives d (w ++ c :: r) =
      (Flat.connectives d w).bind fun ls => (Flat.connectives d r).map (ls ++ ·) := by
  induction hn : w.length using Nat.strong_induction_on generalizing w with
  | _ n ih =>
      cases hw : trimStart w with
      | nil =>
          have hblank : AllBlank (w ++ [c]) := by
            have hall := List.dropWhile_eq_nil_iff.mp hw
            simpa [AllBlank, or_imp, forall_and, hc] using hall
          rw [Flat.connectives_of_blank hw, List.append_cons, Flat.connectives_skip hblank]
          cases Flat.connectives d r <;> rfl
      | cons x xs =>
          have hstart : trimStart (w ++ c :: r) = x :: (xs ++ c :: r) := by
            rw [trimStart] at hw
            rw [trimStart, List.dropWhile_append, hw]
            rfl
          have hmatch : Flat.longestMatch? d (x :: (xs ++ c :: r)) =
              Flat.longestMatch? d (x :: xs) := by
            apply Option.ext
            intro e
            rw [Flat.longestMatch?_eq_some_iff, Flat.longestMatch?_eq_some_iff,
              ← List.cons_append, isLongest_append_blank_iff hd hc]
          cases he : Flat.longestMatch? d (x :: xs) with
          | none =>
              rw [Flat.connectives_of_stop hw he,
                Flat.connectives_of_stop hstart (hmatch.trans he), ← List.cons_append,
                noConnector_append_blank hc]
              rfl
          | some e =>
              have hlongest := Flat.longestMatch?_eq_some_iff.mp he
              have hle := hlongest.2.2.1.length_le
              have hpos := List.length_pos_iff.mpr hlongest.1
              have hdrop : (x :: (xs ++ c :: r)).drop e.1.length =
                  (x :: xs).drop e.1.length ++ c :: r := by
                rw [← List.cons_append, List.drop_append_of_le_length hle]
              have hsize := (List.dropWhile_suffix (l := w) isBlank).length_le
              rw [show w.dropWhile isBlank = x :: xs from hw] at hsize
              rw [Flat.connectives_of_token hw he,
                Flat.connectives_of_token hstart (hmatch.trans he), hdrop,
                ih _ (by rw [List.length_drop]; omega) _ rfl]
              cases Flat.connectives d ((x :: xs).drop e.1.length) with
              | error f => rfl
              | ok ls => cases Flat.connectives d r <;> rfl

theorem Flat.connectives_append_blank_eq_ok_iff {w r : List Char} {ls : List Connective}
    (hd : d.check = .ok ()) (hc : isBlank c = true) :
    Flat.connectives d (w ++ c :: r) = .ok ls ↔ ∃ as bs, Flat.connectives d w = .ok as ∧
      Flat.connectives d r = .ok bs ∧ as ++ bs = ls := by
  rw [Flat.connectives_append_blank hd hc]
  cases Flat.connectives d w with
  | error f => simp [Except.bind]
  | ok as =>
      cases Flat.connectives d r with
      | error f => simp [Except.bind, Except.map]
      | ok bs => simp [Except.bind, Except.map]

/-- The first connective of a run, with its token and the blanks before it. -/
theorem Flat.exists_of_connectives_cons {l : Connective} {ls : List Connective}
    (h : Flat.connectives d run = .ok (l :: ls)) :
    ∃ u e r, run = u ++ (e.1 ++ r) ∧ AllBlank u ∧ e.2 = l ∧ IsLongest d e (e.1 ++ r) ∧
      (∃ c ∈ e.1.head?, isBlank c = false) ∧ Flat.connectives d r = .ok ls := by
  cases hr : trimStart run with
  | nil =>
      rw [Flat.connectives_of_blank hr] at h
      cases h
  | cons c cs =>
      cases he : Flat.longestMatch? d (c :: cs) with
      | none =>
          rw [Flat.connectives_of_stop hr he] at h
          cases h
      | some e =>
          rw [Flat.connectives_of_token hr he] at h
          obtain ⟨hne, hlongest⟩ := Flat.longestMatch?_eq_some_iff.mp he
          obtain ⟨r, hcs⟩ := hlongest.2.1
          have hhead : c ∈ e.1.head? := by
            rw [← List.head?_append_of_ne_nil _ hne, hcs]
            rfl
          have hblank : isBlank c = false := not_blank_of_head?_trimStart (by rw [hr]; rfl)
          rw [← hcs] at h hlongest
          rw [List.drop_left] at h
          obtain ⟨u, hsplit, hu⟩ := exists_trimStart run
          rw [hr, ← hcs] at hsplit
          refine ⟨u, e, r, hsplit, hu, ?_⟩
          cases hls : Flat.connectives d r with
          | error f => simp [hls, Except.map] at h
          | ok ls' =>
              simp only [hls, Except.map, Except.ok.injEq, List.cons.injEq] at h
              exact ⟨h.1, hlongest, ⟨c, hhead, hblank⟩, congrArg _ h.2⟩

/-- A token at the head of a buffer is cut off whole. -/
theorem erase?_token {t : List Char} (h : t <+: cs) :
    (⟨cs⟩ : Buffer).erase? 0 (byteSize t) = some (t, ⟨cs.drop t.length⟩) := by
  obtain ⟨r, rfl⟩ := h
  refine Buffer.erase?_eq_some_iff.mpr ⟨[], r, rfl, rfl, rfl, ?_⟩
  simp

theorem exists_cons_of_not_isEmpty {b : Buffer} (h : ¬b.skipBlanks.2.isEmpty = true) :
    ∃ c cs, trimStart b.chars = c :: cs :=
  List.exists_cons_of_ne_nil fun hn => h (by simp [Buffer.isEmpty, Buffer.skipBlanks, hn])

theorem outcome_readConnectors (d : Dialect) (b : Buffer) :
    (readConnectors d b).outcome = Flat.connectives d b.chars := by
  fun_induction readConnectors d b with
  | case1 b r hr =>
      have h : trimStart b.chars = [] := by simpa [r, Buffer.isEmpty, Buffer.skipBlanks] using hr
      rw [Flat.connectives_of_blank h]
      rfl
  | case2 b r hr hn =>
      obtain ⟨c, cs, h⟩ := exists_cons_of_not_isEmpty hr
      rw [Flat.connectives_of_stop h (headToken?_eq_longestMatch? (d := d) ▸ h ▸ hn)]
      exact congrArg (fun rest => Except.error (noConnector rest)) h
  | case3 b r hr token c ht he =>
      have hp := (headToken?_eq_some_iff.mp ht).2.2.1
      rw [show r = ⟨r.chars⟩ from rfl, erase?_token hp] at he
      cases he
  | case4 b r hr token c ht word rest he ih =>
      obtain ⟨c', cs, h⟩ := exists_cons_of_not_isEmpty hr
      have hp := (headToken?_eq_some_iff.mp ht).2.2.1
      rw [show r = ⟨r.chars⟩ from rfl, erase?_token hp] at he
      cases he
      have hh : r.chars = c' :: cs := h
      rw [Flat.connectives_of_token h (hh ▸ headToken?_eq_longestMatch? (d := d) ▸ ht)]
      simp only [hh] at ih
      simp only [Logged.outcome_bind, Logged.outcome_note, Logged.outcome_pure, hh, ih]
      cases Flat.connectives d ((c' :: cs).drop token.length) <;> rfl

end Reading

end

end ComparisonChain
