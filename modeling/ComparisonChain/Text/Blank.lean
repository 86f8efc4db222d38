/-!
# Blanks

The blanks are the characters with the Unicode property White_Space. Texts are
trimmed, skipped and split into words at blanks.
-/
namespace ComparisonChain.Text

/-- White_Space: the ASCII controls U+0009 to U+000D and the space, NEL, the
no-break space, the spaces of general punctuation and two line separators. -/
def isBlank (c : Char) : Bool :=
  let n := c.toNat
  (9 ≤ n && n ≤ 13) || n == 0x20 || n == 0x85 || n == 0xa0 || n == 0x1680 ||
    (0x2000 ≤ n && n ≤ 0x200a) || n == 0x2028 || n == 0x2029 || n == 0x202f ||
    n == 0x205f || n == 0x3000

/-- The text from its first character that is no blank. -/
def trimStart (cs : List Char) : List Char := cs.dropWhile isBlank

/-- The text up to its last character that is no blank. -/
def trimEnd (cs : List Char) : List Char := (cs.reverse.dropWhile isBlank).reverse

def trim (cs : List Char) : List Char := trimEnd (trimStart cs)

theorem trimStart_append {u : List Char} (h : ∀ c ∈ u, isBlank c = true) (cs : List Char) :
    trimStart (u ++ cs) = trimStart cs :=
  List.dropWhile_append_of_pos h

theorem trimEnd_append {v : List Char} (h : ∀ c ∈ v, isBlank c = true) (cs : List Char) :
    trimEnd (cs ++ v) = trimEnd cs := by
  rw [trimEnd, List.reverse_append, List.dropWhile_append_of_pos]
  · rfl
  · exact fun c hc => h c (List.mem_reverse.mp hc)

theorem trimStart_eq_nil {u : List Char} (h : ∀ c ∈ u, isBlank c = true) : trimStart u = [] := by
  have hu := trimStart_append h []
  rwa [List.append_nil] at hu

theorem trimStart_eq_self {cs : List Char} (h : ∀ c ∈ cs.head?, isBlank c = false) :
    trimStart cs = cs := by
  cases cs with
  | nil => rfl
  | cons c cs => rw [trimStart, List.dropWhile_cons, h c rfl, if_neg (by simp)]

theorem trimEnd_eq_self {cs : List Char} (h : ∀ c ∈ cs.getLast?, isBlank c = false) :
    trimEnd cs = cs := by
  have hr : trimStart cs.reverse = cs.reverse := by
    apply trimStart_eq_self
    rwa [List.head?_reverse]
  rw [trimStart] at hr
  rw [trimEnd, hr, List.reverse_reverse]

theorem trim_eq_self {cs : List Char} (hh : ∀ c ∈ cs.head?, isBlank c = false)
    (hl : ∀ c ∈ cs.getLast?, isBlank c = false) : trim cs = cs := by
  rw [trim, trimStart_eq_self hh, trimEnd_eq_self hl]

/-- Only the blanks around a text are trimmed if it neither starts nor ends with one. -/
theorem trim_padded {u t v : List Char} (hu : ∀ c ∈ u, isBlank c = true)
    (hh : ∀ c ∈ t.head?, isBlank c = false) (hl : ∀ c ∈ t.getLast?, isBlank c = false)
    (hv : ∀ c ∈ v, isBlank c = true) : trim (u ++ (t ++ v)) = t := by
  rw [trim, trimStart_append hu]
  cases t with
  | nil => rw [List.nil_append, trimStart_eq_nil hv]; rfl
  | cons c t =>
      have hstart : trimStart (c :: t ++ v) = c :: t ++ v := trimStart_eq_self hh
      rw [hstart, trimEnd_append hv, trimEnd_eq_self hl]

theorem trim_between {u t v : List Char} (hu : ∀ c ∈ u, isBlank c = true)
    (ht : ∀ c ∈ t, isBlank c = false) (hv : ∀ c ∈ v, isBlank c = true) :
    trim (u ++ (t ++ v)) = t :=
  trim_padded hu (fun c hc => ht c (List.mem_of_mem_head? hc))
    (fun c hc => ht c (List.mem_of_mem_getLast? hc)) hv

theorem exists_trimStart (cs : List Char) :
    ∃ u, cs = u ++ trimStart cs ∧ ∀ c ∈ u, isBlank c = true :=
  ⟨cs.takeWhile isBlank, List.takeWhile_append_dropWhile.symm,
    fun c hc => (List.all_eq_true.mp List.all_takeWhile) c hc⟩

theorem not_blank_of_head?_trimStart {c : Char} {cs : List Char}
    (h : c ∈ (trimStart cs).head?) : isBlank c = false := by
  have hnot := List.head?_dropWhile_not isBlank cs
  rw [show cs.dropWhile isBlank = trimStart cs from rfl, h] at hnot
  simpa using hnot

/-- A text is its trimmed text between blanks. -/
theorem exists_trim (cs : List Char) : ∃ u v, cs = u ++ (trim cs ++ v) ∧
    (∀ c ∈ u, isBlank c = true) ∧ (∀ c ∈ v, isBlank c = true) := by
  refine ⟨cs.takeWhile isBlank, ((trimStart cs).reverse.takeWhile isBlank).reverse, ?_, ?_, ?_⟩
  · have hend := List.takeWhile_append_dropWhile (p := isBlank) (l := (trimStart cs).reverse)
    have hstart := List.takeWhile_append_dropWhile (p := isBlank) (l := cs)
    rw [trim, trimEnd, ← List.reverse_append, hend, List.reverse_reverse]
    exact hstart.symm
  · exact fun c hc => (List.all_eq_true.mp List.all_takeWhile) c hc
  · exact fun c hc => (List.all_eq_true.mp List.all_takeWhile) c (List.mem_reverse.mp hc)

/-- The text before its first blank. -/
def firstWord (cs : List Char) : List Char := cs.takeWhile fun c => !isBlank c

theorem not_blank_of_mem_firstWord {c : Char} {cs : List Char} (h : c ∈ firstWord cs) :
    isBlank c = false := by
  simpa using List.all_eq_true.mp List.all_takeWhile c h

theorem blank_of_head?_dropWhile {c : Char} {cs : List Char}
    (h : c ∈ (cs.dropWhile fun c => !isBlank c).head?) : isBlank c = true := by
  have hnot := List.head?_dropWhile_not (fun c => !isBlank c) cs
  rw [h] at hnot
  simpa using hnot

theorem firstWord_append_dropWhile (cs : List Char) :
    firstWord cs ++ cs.dropWhile (fun c => !isBlank c) = cs :=
  List.takeWhile_append_dropWhile

end ComparisonChain.Text
