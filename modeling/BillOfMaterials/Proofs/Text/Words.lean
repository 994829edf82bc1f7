import BillOfMaterials.Text.Blank

/-! # Words at a break

    Everything about `words` follows from three equations: a blank between two
    texts separates their words, a text of blanks has none, and a text without
    a blank is one word. -/

namespace BillOfMaterials.Text

/-! ## Pieces -/

theorem pieces_append_sep {sep : Char → Bool} {c : Char} (h : sep c = true)
    (a b : List Char) : pieces sep (a ++ c :: b) = pieces sep a ++ pieces sep b := by
  induction a with
  | nil => simp [pieces_cons_of_sep h]
  | cons d a ih =>
    by_cases hd : sep d = true
    · simp [pieces_cons_of_sep hd, ih]
    · have hd' : sep d = false := by simpa using hd
      obtain ⟨p, ps, hp⟩ := List.exists_cons_of_ne_nil (pieces_ne_nil sep a)
      simp [pieces_cons_of_not_sep hd', ih, hp]

/-- A text without a separator in front lengthens the first piece. -/
theorem pieces_append_of_no_sep {sep : Char → Bool} {a : List Char} (h : ∀ c ∈ a, sep c = false)
    (s : List Char) : pieces sep (a ++ s) = (pieces sep s).modifyHead (a ++ ·) := by
  induction a with
  | nil => exact (congrFun List.modifyHead_id _).symm
  | cons c a ih =>
    have hc : sep c = false := h c (by simp)
    rw [List.cons_append, pieces_cons_of_not_sep hc, ih fun d hd => h d (by simp [hd])]
    simp [List.modifyHead_modifyHead, Function.comp_def]

theorem pieces_of_no_sep {sep : Char → Bool} {s : List Char} (h : ∀ c ∈ s, sep c = false) :
    pieces sep s = [s] := by
  simpa using pieces_append_of_no_sep h []

/-- No piece holds a separator. -/
theorem not_sep_of_mem_pieces {sep : Char → Bool} {s : List Char} :
    ∀ piece ∈ pieces sep s, ∀ c ∈ piece, sep c = false := by
  induction s with
  | nil => simp
  | cons d s ih =>
    by_cases hd : sep d = true
    · simpa [pieces_cons_of_sep hd] using ih
    · have hd' : sep d = false := by simpa using hd
      obtain ⟨p, ps, hp⟩ := List.exists_cons_of_ne_nil (pieces_ne_nil sep s)
      rw [hp] at ih
      simp only [List.mem_cons, forall_eq_or_imp] at ih
      simpa [pieces_cons_of_not_sep hd', hp, hd'] using ih

/-! ## Searching -/

/-- A mark is found where its first character first occurs. -/
theorem cutAt_mark_append {first : Char} {before : List Char} (h : ∀ c ∈ before, c ≠ first)
    (more after : List Char) :
    cutAt (first :: more) (before ++ (first :: more ++ after)) = some (before, after) := by
  induction before with
  | nil => simp [cutAt]
  | cons c before ih =>
    have hc : c ≠ first := h c List.mem_cons_self
    have hrest := ih fun d hd => h d (List.mem_cons_of_mem c hd)
    simp only [List.cons_append] at hrest
    simp [cutAt, hc.symm, hrest]

theorem cutAt_append {mark : Char} {before : List Char} (h : ∀ c ∈ before, c ≠ mark)
    (after : List Char) : cutAt [mark] (before ++ mark :: after) = some (before, after) :=
  cutAt_mark_append h [] after

theorem cutAt_eq_none {first : Char} {s : List Char} (h : ∀ c ∈ s, c ≠ first) (more : List Char) :
    cutAt (first :: more) s = none := by
  induction s with
  | nil => simp [cutAt]
  | cons c s ih =>
    have hc : c ≠ first := h c List.mem_cons_self
    simp [cutAt, hc.symm, ih fun d hd => h d (List.mem_cons_of_mem c hd)]

/-- What is cut at a mark makes up the text with the mark. -/
theorem append_of_cutAt {mark s before after : List Char}
    (h : cutAt mark s = some (before, after)) : before ++ (mark ++ after) = s := by
  induction s generalizing before with
  | nil =>
    rw [cutAt] at h
    split at h
    · next hmark =>
      cases h
      simpa using hmark
    · cases h
  | cons c s ih =>
    rw [cutAt] at h
    split at h
    · next hprefix =>
      obtain ⟨rest, hrest⟩ := List.isPrefixOf_iff_prefix.1 hprefix
      cases h
      rw [← hrest]
      simp
    · obtain ⟨⟨front, back⟩, hcut, hpair⟩ := Option.map_eq_some_iff.1 h
      cases hpair
      simp [ih hcut]

/-! ## Trimming -/

/-- The text begins with no blank. -/
def beginsWord (s : List Char) : Bool := s.head?.all fun c => !isBlank c

theorem beginsWord_append {w : List Char} (hne : w ≠ []) (hw : ∀ c ∈ w, isBlank c = false)
    (s : List Char) : beginsWord (w ++ s) = true := by
  obtain ⟨c, w, rfl⟩ := List.exists_cons_of_ne_nil hne
  simpa [beginsWord] using hw c List.mem_cons_self

theorem dropWhile_isBlank_append {gap s : List Char} (hgap : isAllBlank gap = true)
    (hs : beginsWord s = true) : (gap ++ s).dropWhile isBlank = s := by
  rw [List.dropWhile_append_of_pos (List.all_eq_true.1 hgap)]
  cases s with
  | nil => rfl
  | cons c s =>
    have hc : isBlank c = false := by simpa [beginsWord] using hs
    rw [List.dropWhile_cons_of_neg (by simp [hc])]

/-- Blanks around a word are trimmed. -/
theorem trim_append {w : List Char} (hne : w ≠ []) (hw : ∀ c ∈ w, isBlank c = false)
    {front back : List Char} (hfront : isAllBlank front = true) (hback : isAllBlank back = true) :
    trim (front ++ (w ++ back)) = w := by
  have hstart : beginsWord (w ++ back) = true := beginsWord_append hne hw back
  have hend : beginsWord w.reverse = true := by
    simpa using beginsWord_append (w := w.reverse) (by simpa using hne) (by simpa using hw) []
  have hblank : isAllBlank back.reverse = true := by rwa [isAllBlank, List.all_reverse]
  rw [trim, dropWhile_isBlank_append hfront hstart, List.reverse_append,
    dropWhile_isBlank_append hblank hend, List.reverse_reverse]

/-! ## Words -/

@[simp] theorem words_nil : words [] = [] := by
  simp [words]

theorem words_append_blank {c : Char} (h : isBlank c = true) (a b : List Char) :
    words (a ++ c :: b) = words a ++ words b := by
  simp [words, pieces_append_sep h]

/-- A non-empty text without a blank is one word. -/
theorem words_of_no_blank {s : List Char} (hne : s ≠ []) (h : ∀ c ∈ s, isBlank c = false) :
    words s = [s] := by
  simp [words, pieces_of_no_sep h, hne]

/-- A text that begins with no blank begins with its first word. -/
theorem exists_words_cons {c : Char} (hc : isBlank c = false) (s : List Char) :
    ∃ word ws, words (c :: s) = (c :: word) :: ws := by
  obtain ⟨piece, rest, hpieces⟩ := List.exists_cons_of_ne_nil (pieces_ne_nil isBlank s)
  refine ⟨piece, rest.filter (!·.isEmpty), ?_⟩
  simp [words, pieces_cons_of_not_sep hc, hpieces]

end BillOfMaterials.Text
