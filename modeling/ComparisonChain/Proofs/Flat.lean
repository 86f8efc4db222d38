import ComparisonChain.Proofs.Passes

/-!
# Flat texts

A flat text is a row of blocks, each a group and the gap after it. Peeling such
a row finds the groups from right to left, and leaves the gaps from left to
right; the spans select the groups' contents in the row, wherever characters of
several bytes stand. So the passes over a shrinking buffer come to what one
pass over contents and gaps gives, fault for fault.
-/
namespace ComparisonChain.Reading
open Text

/-- A group with given contents, and the gap after it. -/
def block (b : List Char × List Char) : List Char := '(' :: b.1 ++ ')' :: b.2

def blocks (bs : List (List Char × List Char)) : List Char := bs.flatMap block

/-- Spans of the groups in a row of blocks that starts at byte `n`. -/
def blockSpans : Nat → List (List Char × List Char) → List Span
  | _, [] => []
  | n, b :: bs => ⟨n + 1, n + 1 + byteSize b.1⟩ :: blockSpans (n + byteSize (block b)) bs

def PlainBlocks (bs : List (List Char × List Char)) : Prop := ∀ b ∈ bs, Plain b.1 ∧ Plain b.2

section
variable {a g w cs ps : List Char} {b : List Char × List Char}
variable {bs : List (List Char × List Char)}

theorem length_blockSpans (bs : List (List Char × List Char)) (n : Nat) :
    (blockSpans n bs).length = bs.length := by
  induction bs generalizing n with
  | nil => rfl
  | cons b bs ih => rw [blockSpans, List.length_cons, ih, List.length_cons]

theorem exists_blocks_of_alternating (h : Flat.Alternating ps) (hs : cs.filter isParenthesis = ps) :
    ∃ w bs, cs = w ++ blocks bs ∧ Plain w ∧ PlainBlocks bs := by
  induction h generalizing cs with
  | nil =>
      refine ⟨cs, [], by simp [blocks], fun c hc => ?_, fun b hb => by cases hb⟩
      simpa using List.filter_eq_nil_iff.mp hs c hc
  | @pair ps _ ih =>
      obtain ⟨w, s, rfl, hw, _, hs⟩ := List.filter_eq_cons_iff.mp hs
      obtain ⟨g, s, rfl, hg, _, hs⟩ := List.filter_eq_cons_iff.mp hs
      obtain ⟨v, bs, rfl, hv, hbs⟩ := ih hs
      refine ⟨w, (g, v) :: bs, by simp [blocks, block], fun c hc => by simpa using hw c hc, ?_⟩
      intro b hb
      rcases List.mem_cons.mp hb with hb | hb
      · rw [hb]
        exact ⟨fun c hc => by simpa using hg c hc, hv⟩
      · exact hbs b hb

/-- A flat text is a row of blocks. -/
theorem exists_blocks_of_isFlat (h : Flat.IsFlat cs) : ∃ bs, cs = blocks bs ∧ PlainBlocks bs := by
  obtain ⟨w, bs, rfl, hw, hbs⟩ := exists_blocks_of_alternating h.2.2 rfl
  cases w with
  | nil => exact ⟨bs, rfl, hbs⟩
  | cons c w =>
      have hc : c = '(' := by simpa using h.1
      exact absurd List.mem_cons_self (hc ▸ hw.notMem_open)

theorem blocks_cons (b : List Char × List Char) (bs : List (List Char × List Char)) :
    blocks (b :: bs) = '(' :: (b.1 ++ ')' :: (b.2 ++ blocks bs)) := by
  simp [blocks, block]

theorem byteSize_block (b : List Char × List Char) :
    byteSize (block b) = byteSize b.1 + byteSize b.2 + 2 := by
  have hopen : '('.utf8Size = 1 := rfl
  have hclose : ')'.utf8Size = 1 := rfl
  simp only [block, List.cons_append, byteSize_cons, byteSize_append, hopen, hclose]
  omega

/-! ## Pieces -/

theorem takeWhile_gap (h : '(' ∉ w) (bs : List (List Char × List Char)) :
    (w ++ blocks bs).takeWhile (· != '(') = w := by
  cases bs with
  | nil =>
      rw [blocks, List.flatMap_nil, List.append_nil, List.takeWhile_eq_self_iff]
      exact fun c hc => by simpa using fun he : c = '(' => h (he ▸ hc)
  | cons b bs => rw [blocks_cons, takeWhile_ne_append h]

theorem dropWhile_gap (h : '(' ∉ w) (bs : List (List Char × List Char)) :
    (w ++ blocks bs).dropWhile (· != '(') = blocks bs := by
  have hsplit := List.takeWhile_append_dropWhile (p := (· != '(')) (l := w ++ blocks bs)
  rw [takeWhile_gap h] at hsplit
  exact List.append_cancel_left hsplit

theorem pieces_blocks (h : PlainBlocks bs) :
    Flat.pieces (blocks bs) = ⟨bs.map (·.1), bs.map (·.2)⟩ := by
  induction bs with
  | nil => simp [blocks, Flat.pieces]
  | cons b bs ih =>
      obtain ⟨hg, hw⟩ := h b List.mem_cons_self
      rw [blocks_cons, Flat.pieces, if_pos rfl]
      simp only [takeWhile_ne_append hg.notMem_close, dropWhile_ne_append hg.notMem_close,
        List.drop_one, List.tail_cons, takeWhile_gap hw.notMem_open,
        dropWhile_gap hw.notMem_open, ih fun b hb => h b (List.mem_cons_of_mem _ hb)]
      rfl

/-! ## Peeling -/

theorem peel_append (limit : Option Nat) (n : Nat) (h : '(' ∉ w) (cs : List Char) :
    peel limit n (w ++ cs) =
      (peel limit (n + byteSize w) cs).map fun p => (p.1, w ++ p.2) := by
  induction w generalizing n with
  | nil =>
      simp only [List.nil_append, byteSize_nil, Nat.add_zero]
      cases peel limit n cs <;> rfl
  | cons c w ih =>
      rw [List.mem_cons, not_or] at h
      rw [List.cons_append, peel, ih _ h.2, byteSize_cons, ← Nat.add_assoc]
      cases peel limit (n + c.utf8Size + byteSize w) cs with
      | error f => rfl
      | ok p => simp only [Except.map, if_neg (Ne.symm h.1), List.cons_append]

/-- A group without parentheses is peeled as it stands. -/
theorem peel_group (limit : Option Nat) (n : Nat) (h : Plain g) (cs : List Char) :
    peel limit n ('(' :: (g ++ ')' :: cs)) =
      match peel limit (n + byteSize g + 2) cs with
      | .error f => .error f
      | .ok (spans, r) =>
          match reached? limit spans.length with
          | some m => .error (.tooManyGroups m)
          | none => .ok (spans ++ [⟨n + 1, n + 1 + byteSize g⟩], r) := by
  have hopen : '('.utf8Size = 1 := rfl
  have hclose : ')'.utf8Size = 1 := rfl
  have hsize : n + '('.utf8Size + byteSize g + ')'.utf8Size = n + byteSize g + 2 := by omega
  rw [peel, peel_append limit _ h.notMem_open, peel, hsize]
  cases peel limit (n + byteSize g + 2) cs with
  | error f => rfl
  | ok p =>
      have hne : ')' ≠ '(' := by decide
      have hr : ')' ∈ g ++ ')' :: p.2 := by simp
      cases hl : reached? limit p.1.length <;>
        simp only [Except.map, if_neg hne, if_true, if_pos hr, hl,
          untilClose_append h.notMem_close, pastClose_append h.notMem_close]

theorem peel_blocks (limit : Option Nat) (n : Nat) (h : PlainBlocks bs) :
    peel limit n (blocks bs) =
      match limit.filter (· < bs.length) with
      | some m => .error (.tooManyGroups m)
      | none => .ok ((blockSpans n bs).reverse, (bs.map (·.2)).flatten) := by
  induction bs generalizing n with
  | nil => cases limit <;> rfl
  | cons b bs ih =>
      obtain ⟨hg, hw⟩ := h b List.mem_cons_self
      have hn : n + byteSize b.1 + 2 + byteSize b.2 = n + byteSize (block b) := by
        rw [byteSize_block]
        omega
      rw [blocks_cons, peel_group limit n hg, peel_append limit _ hw.notMem_open, hn,
        ih _ fun b hb => h b (List.mem_cons_of_mem _ hb)]
      cases limit with
      | none => simp [reached?, Except.map, blockSpans]
      | some m =>
          simp only [Option.filter_some, List.length_cons]
          -- the row is refused in its tail, or at this group, or not at all
          rcases lt_trichotomy m bs.length with hm | hm | hm
          · have htail : decide (m < bs.length) = true := decide_eq_true hm
            have hrow : decide (m < bs.length + 1) = true := decide_eq_true (by omega)
            simp only [htail, hrow, if_true, Except.map]
          · have htail : decide (m < bs.length) = false := decide_eq_false (by omega)
            have hrow : decide (m < bs.length + 1) = true := decide_eq_true (by omega)
            have hgroup : decide (m ≤ bs.length) = true := decide_eq_true (by omega)
            simp only [htail, hrow, hgroup, Bool.false_eq_true, if_false, if_true, Except.map,
              reached?, Option.filter_some, List.length_reverse, length_blockSpans]
          · have htail : decide (m < bs.length) = false := decide_eq_false (by omega)
            have hrow : decide (m < bs.length + 1) = false := decide_eq_false (by omega)
            have hgroup : decide (m ≤ bs.length) = false := decide_eq_false (by omega)
            simp only [htail, hrow, hgroup, Bool.false_eq_true, if_false, Except.map, reached?,
              Option.filter_some, List.length_reverse, length_blockSpans, blockSpans,
              List.reverse_cons, List.map_cons, List.flatten_cons]

/-! ## Groups -/

theorem slice?_group (a g cs : List Char) :
    (⟨a ++ '(' :: (g ++ cs)⟩ : Buffer).slice? (byteSize a + 1)
      (byteSize a + 1 + byteSize g) = some g := by
  have hopen : '('.utf8Size = 1 := rfl
  refine Buffer.slice?_eq_some_iff.mpr ⟨a ++ ['('], cs, ?_, ?_, ?_⟩
  · simp
  · simp [hopen]
  · simp only [byteSize_append, byteSize_cons, byteSize_nil, hopen, Nat.add_zero]

theorem outcome_readGroups_blocks (a : List Char) (h : PlainBlocks bs) :
    (readGroups ⟨a ++ blocks bs⟩ (blockSpans (byteSize a) bs).reverse).outcome =
      (Flat.tests (bs.map (·.1))).map List.reverse := by
  induction bs generalizing a with
  | nil => rfl
  | cons b bs ih =>
      have hb := h b List.mem_cons_self
      have hsource : a ++ blocks (b :: bs) = a ++ block b ++ blocks bs := by
        simp [blocks]
      have hslice := slice?_group a b.1 (')' :: (b.2 ++ blocks bs))
      rw [← blocks_cons] at hslice
      rw [blockSpans, List.reverse_cons, outcome_readGroups_append, outcome_readGroups_singleton,
        outcome_readGroup hslice hb.1, hsource, ← byteSize_append,
        ih _ fun b hb => h b (List.mem_cons_of_mem _ hb)]
      simp only [List.map_cons, Flat.tests]
      cases Flat.tests (bs.map (·.1)) with
      | error e => rfl
      | ok ts =>
          cases ht : Flat.test b.1 <;> simp [Except.map, Except.bind, bind, pure, Except.pure]

/-! ## Reading -/

theorem length_of_tests {gs : List (List Char)} {ts : List Test} (h : Flat.tests gs = .ok ts) :
    ts.length = gs.length := by
  induction gs generalizing ts with
  | nil =>
      cases h
      rfl
  | cons g gs ih =>
      rw [Flat.tests] at h
      cases hts : Flat.tests gs with
      | error e => simp [hts, bind, Except.bind] at h
      | ok us =>
          cases ht : Flat.test g with
          | error e => simp [hts, ht, bind, Except.bind] at h
          | ok t =>
              simp only [hts, ht, bind, Except.bind, pure, Except.pure, Except.ok.injEq] at h
              rw [← h, List.length_cons, List.length_cons, ih hts]

theorem close_notMem_gaps (h : PlainBlocks bs) : ')' ∉ (bs.map (·.2)).flatten := by
  intro hc
  obtain ⟨w, hw, hc⟩ := List.mem_flatten.mp hc
  obtain ⟨b, hb, rfl⟩ := List.mem_map.mp hw
  exact (h b hb).2.notMem_close hc

/-- A row of blocks is refused for its length, then for its connectors, then for
their number, and then for its rightmost group that holds no test. -/
theorem read_of_blocks {d : Dialect} {text : List Char} (h : PlainBlocks bs)
    (he : enclosed text = .ok (blocks bs)) :
    d.read text =
      match d.limit.filter (· < bs.length) with
      | some m => .error (.form (.tooManyGroups m))
      | none =>
          (Flat.connectives d (bs.map (·.2)).flatten).bind fun ls =>
            if ls.length + 1 ≠ bs.length then
              .error (.form (.connectorCount bs.length ls.length))
            else (Flat.tests (bs.map (·.1))).bind fun ts => Flat.join ts ls := by
  have hne : bs ≠ [] := by
    intro hbs
    rw [hbs] at he
    cases (enclosed_eq_ok_iff.mp he).2.1
  have hspans : (blockSpans 0 bs).reverse.isEmpty = false := by
    rw [List.isEmpty_eq_false_iff, ← List.length_pos_iff, List.length_reverse, length_blockSpans]
    exact List.length_pos_iff.mpr hne
  have hgroups := outcome_readGroups_blocks [] h
  rw [read_of_enclosed he, peel_blocks _ _ h]
  cases d.limit.filter (· < bs.length) with
  | some m => rfl
  | none =>
      simp only [findFirst?_eq_none (close_notMem_gaps h), hspans, Bool.false_eq_true, if_false,
        List.length_reverse, length_blockSpans]
      cases Flat.connectives d (bs.map (·.2)).flatten with
      | error e => rfl
      | ok ls =>
          simp only [Except.bind]
          split_ifs with hl
          · rfl
          · rw [List.nil_append, byteSize_nil] at hgroups
            rw [hgroups]
            cases hts : Flat.tests (bs.map (·.1)) with
            | error e => rfl
            | ok ts =>
                have hlength := length_of_tests hts
                rw [List.length_map] at hlength
                simp only [Except.map]
                exact assemble_reverse (by omega)

/-- An accepted row of blocks gives its connectives and tests in order. -/
theorem columns_of_read_blocks {d : Dialect} {text : List Char} {c : Chain} (h : PlainBlocks bs)
    (hs : trim text = blocks bs) (hr : d.read text = .ok c) :
    Flat.connectives d (bs.map (·.2)).flatten = .ok c.connectives ∧
      Flat.tests (bs.map (·.1)) = .ok c.tests := by
  obtain ⟨-, -, spans, r, hp, -, hls, hts⟩ := read_eq_ok_iff_peel.mp hr
  have hgroups := outcome_readGroups_blocks [] h
  rw [List.nil_append, byteSize_nil] at hgroups
  rw [hs, peel_blocks _ _ h] at hp
  split at hp
  · cases hp
  · cases hp
    refine ⟨hls, ?_⟩
    rw [hs, hgroups] at hts
    cases hu : Flat.tests (bs.map (·.1)) with
    | error e =>
        rw [hu] at hts
        cases hts
    | ok us =>
        rw [hu] at hts
        rw [List.reverse_injective (Except.ok.inj hts)]

/-- Reading a flat text by the passes is reading it in one pass over the contents
of its groups and the gaps between them. -/
theorem read_eq_flat_read {d : Dialect} {text : List Char} (h : Flat.IsFlat (trim text)) :
    d.read text = Flat.read d (trim text) := by
  obtain ⟨bs, hs, hbs⟩ := exists_blocks_of_isFlat h
  have he := enclosed_of_parentheses h.1 h.2.1
  rw [hs] at he
  rw [read_of_blocks hbs he, hs, Flat.read, pieces_blocks hbs]
  simp only [List.length_map]
  cases d.limit.filter (· < bs.length) with
  | some m => rfl
  | none =>
      simp only [bind]

theorem standard_read_eq_flat_read :
    Flat.IsFlat (trim " (größe >= 1)\u2003AND(größe < 9) or (größe == 12)".toList) ∧
      Dialect.standard.read " (größe >= 1)\u2003AND(größe < 9) or (größe == 12)".toList =
        Flat.read Dialect.standard
          (trim " (größe >= 1)\u2003AND(größe < 9) or (größe == 12)".toList) := by
  have hp : (trim " (größe >= 1)\u2003AND(größe < 9) or (größe == 12)".toList).filter
      isParenthesis = ['(', ')', '(', ')', '(', ')'] := by decide
  have hflat : Flat.IsFlat (trim " (größe >= 1)\u2003AND(größe < 9) or (größe == 12)".toList) :=
    ⟨by decide, by decide, hp ▸ .pair (.pair (.pair .nil))⟩
  exact ⟨hflat, read_eq_flat_read hflat⟩

end

end ComparisonChain.Reading
