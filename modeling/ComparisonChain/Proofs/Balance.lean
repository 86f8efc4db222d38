import ComparisonChain.Proofs.Contents
import ComparisonChain.Proofs.Matching
import ComparisonChain.Proofs.Peeling
import Mathlib.Logic.Function.Iterate

/-!
# Cutting decides balance

Each round of cutting takes one opening parenthesis away, with the closing one
that is its partner, so the loop ends after a round for each and a last one. It
comes through just if the text is balanced, and leaves the outer text then; it
stops at an opening parenthesis without a partner if there is one, and else at a
closing one. `cutGroups_decides_balance` says all this of every text.
-/
namespace ComparisonChain.Reading
open Text

/-- One round of cutting: a span and what its group leaves, or nothing more to cut. -/
def cutRound (limit : Option Nat) (found : Nat) (b : Buffer) :
    Except FormFault (Option (Span × Buffer)) :=
  match nextPair? b with
  | .error f => .error f
  | .ok none => .ok none
  | .ok (some (opening, closing)) =>
      match reached? limit found with
      | some m => .error (.tooManyGroups m)
      | none =>
          match b.erase? opening (closing + 1) with
          | none => .error .cutOutOfBounds
          | some (_, rest) => .ok (some (⟨opening + 1, closing⟩, rest))

/-- What further rounds give, with a span that was cut before them. -/
def precededBy (span : Span) (rest : Buffer) (further : Logged (List Span × Buffer)) :
    Logged (List Span × Buffer) := do
  Logged.note (.cut span rest.chars)
  let (spans, residual) ← further
  pure (span :: spans, residual)

/-- Cutting in a number of rounds; nothing comes out where it does not end within these. -/
def cutWithin (limit : Option Nat) : Nat → Nat → Buffer → Option (Logged (List Span × Buffer))
  | 0, _, _ => none
  | rounds + 1, found, b =>
      match cutRound limit found b with
      | .error f => some (.fail (.form f))
      | .ok none => some (pure ([], b))
      | .ok (some (span, rest)) =>
          (cutWithin limit rounds (found + 1) rest).map (precededBy span rest)

section
variable {a b m r t cs : List Char} {limit : Option Nat} {found rounds n d : Nat}
variable {span : Span} {spans : List Span}

/-! ## Rounds -/

theorem cutGroups_eq_cutRound (limit : Option Nat) (found : Nat) (b : Buffer) :
    cutGroups limit found b =
      match cutRound limit found b with
      | .error f => .fail (.form f)
      | .ok none => pure ([], b)
      | .ok (some (span, rest)) =>
          precededBy span rest (cutGroups limit (found + 1) rest) := by
  rw [cutGroups]
  unfold cutRound
  split
  · next h => simp only [h]
  · next h => simp only [h]
  · next opening closing h =>
      simp only [h]
      cases reached? limit found with
      | some m => rfl
      | none =>
          simp only
          split
          · next he => simp only [he]
          · next he =>
              simp only [he]
              rfl

/-- A round takes an opening parenthesis away. -/
theorem count_lt_of_cutRound {b rest : Buffer}
    (h : cutRound limit found b = .ok (some (span, rest))) :
    rest.chars.count '(' < b.chars.count '(' := by
  obtain ⟨cs⟩ := b
  unfold cutRound at h
  by_cases ho : '(' ∈ cs
  · obtain ⟨a, r, rfl, hr⟩ := exists_last_of_mem ho
    rw [nextPair?_append_cons hr] at h
    by_cases hc : ')' ∈ r
    · simp only [if_pos hc] at h
      cases hl : reached? limit found with
      | some m => simp [hl] at h
      | none =>
          simp only [hl, erase?_group a hc, Except.ok.injEq, Option.some.injEq,
            Prod.mk.injEq] at h
          obtain ⟨-, rfl⟩ := h
          have hpast : '(' ∉ pastClose r :=
            fun hm => hr (List.dropWhile_subset _ (List.mem_of_mem_drop hm))
          simp only [List.count_append, count_cons_open, List.count_eq_zero_of_not_mem hpast]
          omega
    · simp [if_neg hc] at h
  · rw [nextPair?_of_notMem ho] at h
    cases hf : findFirst? ')' cs <;> simp [hf] at h

/-- The loop ends within a round for each opening parenthesis, and a last one. -/
theorem cutWithin_eq_cutGroups {b : Buffer} (h : b.chars.count '(' < rounds) :
    cutWithin limit rounds found b = some (cutGroups limit found b) := by
  induction rounds generalizing found b with
  | zero => cases h
  | succ rounds ih =>
      rw [cutWithin, cutGroups_eq_cutRound]
      cases hround : cutRound limit found b with
      | error f => rfl
      | ok p =>
          cases p with
          | none => rfl
          | some p =>
              obtain ⟨span, rest⟩ := p
              have hlt := count_lt_of_cutRound hround
              simp only [ih (b := rest) (by omega), Option.map_some]

/-! ## What peeling leaves -/

theorem pastClose_cons_of_ne {c : Char} (h : c ≠ ')') (r : List Char) :
    pastClose (c :: r) = pastClose r := by
  rw [pastClose, List.dropWhile_cons_of_pos (by simpa using h)]
  rfl

theorem count_pastClose (h : ')' ∈ r) : (pastClose r).count ')' + 1 = r.count ')' := by
  obtain ⟨own, r, rfl, hown⟩ := List.eq_append_cons_of_mem h
  rw [pastClose_append hown, (count_append_close own r).2, List.count_eq_zero_of_not_mem hown,
    Nat.zero_add]

/-- Each opening parenthesis makes a span and takes a closing one away. -/
theorem count_of_peel (h : peel limit n cs = .ok (spans, r)) :
    spans.length = cs.count '(' ∧ r.count ')' + cs.count '(' = cs.count ')' := by
  induction cs generalizing n spans r with
  | nil =>
      cases h
      simp
  | cons c cs ih =>
      obtain ⟨spans', r', hp, ⟨hc, rfl, rfl⟩ | ⟨rfl, hr, _, rfl, rfl⟩⟩ := peel_cons_eq_ok_iff.mp h
      · obtain ⟨hlength, hcount⟩ := ih hp
        rcases parenthesis_cases c with rfl | rfl | hother
        · exact absurd rfl hc
        · simp only [count_cons_close]
          omega
        · simp only [count_cons_other hother]
          exact ⟨hlength, hcount⟩
      · obtain ⟨hlength, hcount⟩ := ih hp
        have hpast := count_pastClose hr
        simp only [count_cons_open, List.length_append, List.length_singleton]
        omega

/-- Behind as many closing parentheses as a first part has too many, it leaves its outer text. -/
theorem exists_of_peel_closes (hm : Closes d m) (h : peel limit n (m ++ t) = .ok (spans, r)) :
    ∃ us r', peel limit (n + byteSize m) t = .ok (us, r') ∧
      pastClose^[d] r = outerFrom d m ++ r' := by
  induction hm generalizing n spans r with
  | nil => exact ⟨spans, r, h, rfl⟩
  | @opening d cs _ ih =>
      obtain ⟨spans', r', hp, ⟨hc, _⟩ | ⟨_, _, _, _, rfl⟩⟩ := peel_cons_eq_ok_iff.mp h
      · exact absurd rfl hc
      · obtain ⟨us, r'', ht, hleft⟩ := ih hp
        rw [Nat.add_assoc, ← byteSize_cons] at ht
        exact ⟨us, r'', ht, hleft⟩
  | @closing d cs _ ih =>
      obtain ⟨spans', r', hp, ⟨_, _, rfl⟩ | ⟨hc, _⟩⟩ := peel_cons_eq_ok_iff.mp h
      · obtain ⟨us, r'', ht, hleft⟩ := ih hp
        rw [Nat.add_assoc, ← byteSize_cons] at ht
        exact ⟨us, r'', ht, hleft⟩
      · cases hc
  | @other d c cs hc _ ih =>
      have hne := isParenthesis_eq_false_iff.mp hc
      obtain ⟨spans', r', hp, ⟨_, _, rfl⟩ | ⟨ho, _⟩⟩ := peel_cons_eq_ok_iff.mp h
      · obtain ⟨us, r'', ht, hleft⟩ := ih hp
        rw [Nat.add_assoc, ← byteSize_cons] at ht
        refine ⟨us, r'', ht, ?_⟩
        rw [outerFrom_other hc]
        cases d with
        | zero =>
            rw [if_pos rfl]
            exact congrArg (c :: ·) hleft
        | succ d =>
            rw [if_neg (Nat.succ_ne_zero d), Function.iterate_succ_apply,
              pastClose_cons_of_ne hne.2, ← Function.iterate_succ_apply]
            exact hleft
      · exact absurd ho hne.1

theorem exists_of_peel_balanced (hm : Balanced m) (h : peel limit n (m ++ t) = .ok (spans, r)) :
    ∃ us r', peel limit (n + byteSize m) t = .ok (us, r') ∧ r = outer m ++ r' :=
  exists_of_peel_closes (balanced_iff_closes.mp hm) h

/-- A closing parenthesis stays where it is until a group takes it. -/
theorem exists_of_peel_close (h : peel limit n (')' :: t) = .ok (spans, r)) :
    ∃ r', peel limit (n + 1) t = .ok (spans, r') ∧ r = ')' :: r' := by
  obtain ⟨_, r', hp, ⟨_, rfl, rfl⟩ | ⟨hc, _⟩⟩ := peel_cons_eq_ok_iff.mp h
  · exact ⟨r', hp, rfl⟩
  · cases hc

theorem peel_of_balanced (hcs : Balanced cs) (h : peel limit n cs = .ok (spans, r)) :
    r = outer cs := by
  rw [← List.append_nil cs] at h
  obtain ⟨us, r', hnil, rfl⟩ := exists_of_peel_balanced hcs h
  cases hnil
  exact List.append_nil _

/-! ## Groups -/

/-- What is left before the first closing parenthesis is the outer text up to the partner. -/
theorem exists_group_of_peel (h : peel limit n cs = .ok (spans, r)) (hr : ')' ∈ r) :
    ∃ m b, cs = m ++ ')' :: b ∧ Balanced m ∧ untilClose r = outer m := by
  have hcount := (count_of_peel h).2
  have hpos := List.count_pos_iff.mpr hr
  have hlt : cs.count '(' < cs.count ')' := by omega
  obtain ⟨m, b, rfl, hm⟩ := exists_balanced_before hlt
  obtain ⟨us, r', hb, rfl⟩ := exists_of_peel_balanced hm h
  obtain ⟨r'', -, rfl⟩ := exists_of_peel_close hb
  exact ⟨m, b, rfl, hm, untilClose_append (close_notMem_outer m) r''⟩

/-- The span of a group in a text that starts at byte `n`: from behind the opening parenthesis,
and as long as the outer text up to its partner. -/
def IsGroup (n : Nat) (cs : List Char) (span : Span) : Prop :=
  ∃ a m b, cs = a ++ '(' :: (m ++ ')' :: b) ∧ Balanced m ∧ span.start = n + byteSize a + 1 ∧
    span.stop = span.start + byteSize (outer m)

theorem IsGroup.cons {c : Char} (h : IsGroup (n + c.utf8Size) cs span) :
    IsGroup n (c :: cs) span := by
  obtain ⟨a, m, b, rfl, hm, hstart, hstop⟩ := h
  refine ⟨c :: a, m, b, rfl, hm, ?_, hstop⟩
  rw [hstart, byteSize_cons, Nat.add_assoc n]

/-- A group without groups in it ends at its closing parenthesis. -/
theorem IsGroup.bounds (h : IsGroup 0 cs span) :
    ∃ a m b, cs = a ++ '(' :: (m ++ ')' :: b) ∧ Balanced m ∧ span.start = byteSize a + 1 ∧
      span.stop = span.start + byteSize (outer m) ∧
      ('(' ∉ m → span.stop = byteSize (a ++ '(' :: m)) := by
  obtain ⟨a, m, b, hcs, hm, hstart, hstop⟩ := h
  rw [Nat.zero_add] at hstart
  refine ⟨a, m, b, hcs, hm, hstart, hstop, fun ho => ?_⟩
  have hopen : '('.utf8Size = 1 := rfl
  rw [hstop, hstart, outer_of_plain (hm.plain ho), byteSize_append, byteSize_cons, hopen,
    Nat.add_assoc]

theorem isGroup_of_peel (h : peel limit n cs = .ok (spans, r)) :
    (∀ span ∈ spans, IsGroup n cs span) ∧ spans.Pairwise fun x y => y.start < x.start := by
  induction cs generalizing n spans r with
  | nil =>
      cases h
      exact ⟨nofun, .nil⟩
  | cons c cs ih =>
      obtain ⟨spans', r', hp, ⟨hc, rfl, rfl⟩ | ⟨rfl, hr, _, rfl, rfl⟩⟩ := peel_cons_eq_ok_iff.mp h
      · exact ⟨fun span hspan => ((ih hp).1 span hspan).cons, (ih hp).2⟩
      · obtain ⟨m, b, rfl, hm, huntil⟩ := exists_group_of_peel hp hr
        obtain ⟨hgroups, hpairwise⟩ := ih hp
        constructor
        · intro span hspan
          rcases List.mem_append.mp hspan with hspan | hspan
          · exact (hgroups span hspan).cons
          · rw [List.mem_singleton.mp hspan, huntil]
            exact ⟨[], m, b, rfl, hm, rfl, rfl⟩
        · refine List.pairwise_append.mpr ⟨hpairwise, List.pairwise_singleton _ _, ?_⟩
          intro x hx y hy
          obtain ⟨a, -, -, -, -, hstart, -⟩ := hgroups x hx
          rw [List.mem_singleton.mp hy, hstart]
          have hopen : '('.utf8Size = 1 := rfl
          simp only
          omega

/-! ## Parentheses without a partner -/

theorem exists_peel_of_append (h : peel limit n (a ++ cs) = .ok (spans, r)) :
    ∃ us r', peel limit (n + byteSize a) cs = .ok (us, r') := by
  induction a generalizing n spans r with
  | nil => exact ⟨spans, r, h⟩
  | cons c a ih =>
      obtain ⟨_, _, hp, _⟩ := peel_cons_eq_ok_iff.mp h
      rw [byteSize_cons, ← Nat.add_assoc]
      exact ih hp

theorem allClosed_of_peel (h : peel limit n cs = .ok (spans, r)) : AllClosed cs := by
  rw [allClosed_iff]
  rintro a rest rfl
  obtain ⟨us, r', hp⟩ := exists_peel_of_append h
  obtain ⟨_, _, hrest, ⟨hc, _⟩ | ⟨_, hr, _⟩⟩ := peel_cons_eq_ok_iff.mp hp
  · exact absurd rfl hc
  · obtain ⟨m, b, hsplit, hm, -⟩ := exists_group_of_peel hrest hr
    exact ⟨m, b, hsplit, hm⟩

/-- Where peeling leaves no closing parenthesis, each had a partner. -/
theorem balanced_of_peel (h : peel limit n cs = .ok (spans, r)) (hr : ')' ∉ r) : Balanced cs := by
  have hcount := (count_of_peel h).2
  have hzero := List.count_eq_zero_of_not_mem hr
  exact balanced_of_suffixes (fun q hq => ((allClosed_of_peel h).lastPart hq).count_le) (by omega)

/-- Peeling fails at an opening parenthesis that has no partner, and at its place in the text. -/
theorem exists_of_peel_eq_error {f : FormFault} (h : peel none n cs = .error f) :
    ∃ a rest, cs = a ++ '(' :: rest ∧ f = .unclosed (n + byteSize a) ∧
      ¬∃ m b, rest = m ++ ')' :: b ∧ Balanced m := by
  induction cs generalizing n with
  | nil => cases h
  | cons c cs ih =>
      rw [peel] at h
      cases hp : peel none (n + c.utf8Size) cs with
      | error g =>
          rw [hp] at h
          cases h
          obtain ⟨a, rest, rfl, rfl, hno⟩ := ih hp
          refine ⟨c :: a, rest, rfl, ?_, hno⟩
          rw [byteSize_cons, Nat.add_assoc]
      | ok p =>
          obtain ⟨spans, r⟩ := p
          simp only [hp, reached?, Option.filter_none] at h
          split_ifs at h with hc hr
          cases h
          subst hc
          refine ⟨[], cs, rfl, rfl, ?_⟩
          rintro ⟨m, b, rfl, hm⟩
          obtain ⟨us, r', hb, rfl⟩ := exists_of_peel_balanced hm hp
          obtain ⟨r'', -, rfl⟩ := exists_of_peel_close hb
          exact hr (by simp)

/-! ## The outcome -/

theorem outcome_cutGroups_cases (s : List Char) :
    (Balanced s ∧ ∃ spans, peel none 0 s = .ok (spans, outer s) ∧
        (cutGroups none 0 ⟨s⟩).outcome = .ok (spans, ⟨outer s⟩)) ∨
      (¬AllClosed s ∧ ∃ k, (cutGroups none 0 ⟨s⟩).outcome = .error (.form (.unclosed k))) ∨
      (AllClosed s ∧ ¬AllOpened s ∧
        ∃ k, (cutGroups none 0 ⟨s⟩).outcome = .error (.form (.unmatched k))) := by
  rw [outcome_cutGroups]
  cases hp : peel none 0 s with
  | error f =>
      obtain ⟨a, rest, rfl, rfl, hno⟩ := exists_of_peel_eq_error hp
      exact .inr (.inl ⟨fun hall => hno (allClosed_iff.mp hall a rest rfl), _, rfl⟩)
  | ok p =>
      obtain ⟨spans, r⟩ := p
      have hclosed := allClosed_of_peel hp
      cases hf : findFirst? ')' r with
      | some k =>
          refine .inr (.inr ⟨hclosed, fun hopened => ?_, k, by simp only [hf]⟩)
          have hbalanced := balanced_iff_partners.mpr ⟨hclosed, hopened⟩
          rw [peel_of_balanced hbalanced hp, findFirst?_eq_none (close_notMem_outer s)] at hf
          cases hf
      | none =>
          have hbalanced := balanced_of_peel hp (notMem_of_findFirst?_eq_none hf)
          obtain rfl := peel_of_balanced hbalanced hp
          exact .inl ⟨hbalanced, spans, rfl, by simp only [hf]⟩

/-- Without a limit the loop ends within a round for each opening parenthesis and one more. It
comes through just if the text is balanced, with a span for each opening parenthesis from right
to left, and with the outer text left over. It stops at an opening parenthesis just if one has
no partner, and at a closing one just if only closing ones have none. -/
theorem cutGroups_decides_balance (s : List Char) :
    cutWithin none (s.count '(' + 1) 0 ⟨s⟩ = some (cutGroups none 0 ⟨s⟩) ∧
    (Balanced s ↔ ∃ spans, (cutGroups none 0 ⟨s⟩).outcome = .ok (spans, ⟨outer s⟩) ∧
      spans.length = s.count '(' ∧ (spans.Pairwise fun x y => y.start < x.start) ∧
      ∀ span ∈ spans, ∃ a m b, s = a ++ '(' :: (m ++ ')' :: b) ∧ Balanced m ∧
        span.start = byteSize a + 1 ∧ span.stop = span.start + byteSize (outer m) ∧
        ('(' ∉ m → span.stop = byteSize (a ++ '(' :: m))) ∧
    (¬AllClosed s ↔ ∃ k, (cutGroups none 0 ⟨s⟩).outcome = .error (.form (.unclosed k))) ∧
    (AllClosed s ∧ ¬AllOpened s ↔
      ∃ k, (cutGroups none 0 ⟨s⟩).outcome = .error (.form (.unmatched k))) := by
  refine ⟨cutWithin_eq_cutGroups (Nat.lt_succ_self _), ?_⟩
  rcases outcome_cutGroups_cases s with ⟨hb, spans, hp, h⟩ | ⟨hc, k, h⟩ | ⟨hc, ho, k, h⟩
  · obtain ⟨hclosed, hopened⟩ := balanced_iff_partners.mp hb
    obtain ⟨hgroups, hpairwise⟩ := isGroup_of_peel hp
    have hspans := fun span hspan => (hgroups span hspan).bounds
    rw [h]
    refine ⟨⟨fun _ => ⟨spans, rfl, (count_of_peel hp).1, hpairwise, hspans⟩, fun _ => hb⟩, ?_, ?_⟩
    · simp [hclosed]
    · simp [hopened]
  · have hb : ¬Balanced s := fun hb => hc hb.allClosed
    simp [h, hb, hc]
  · have hb : ¬Balanced s := fun hb => ho hb.allOpened
    simp [h, hb, hc, ho]

end

end ComparisonChain.Reading
