import BillOfMaterials.Proofs.Text.Words

/-! # Lines and words as relations

    What lines and words of a text are, said without an algorithm that cuts it.

    * `HasWords s ws`: the words of `s` are `ws`, in order; `hasWords_iff` says that
      just the function `words` finds them.
    * `HasLines s lines`: a line ends in a line feed or in a carriage return and a line
      feed; every text has lines (`exists_lines`). -/

namespace BillOfMaterials.Text

/-! ## Words -/

/-- The words of a text: not empty, without blanks, and with blanks between them. -/
inductive HasWords : List Char → List (List Char) → Prop where
  | nil {gap : List Char} : isAllBlank gap → HasWords gap []
  | last {gap word : List Char} : isAllBlank gap → word ≠ [] → (∀ c ∈ word, isBlank c = false) →
      HasWords (gap ++ word) [word]
  | cons {gap word rest : List Char} {blank : Char} {ws : List (List Char)} : isAllBlank gap →
      word ≠ [] → (∀ c ∈ word, isBlank c = false) → isBlank blank → HasWords rest ws →
      HasWords (gap ++ (word ++ blank :: rest)) (word :: ws)

theorem words_of_isAllBlank {gap : List Char} (h : isAllBlank gap) : words gap = [] := by
  induction gap with
  | nil => exact words_nil
  | cons c gap ih =>
    obtain ⟨hc, hgap⟩ := Bool.and_eq_true_iff.1 h
    have hsplit := words_append_blank hc [] gap
    rwa [List.nil_append, words_nil, List.nil_append, ih hgap] at hsplit

/-- Blanks in front of a text belong to none of its words. -/
theorem words_isAllBlank_append {gap : List Char} (h : isAllBlank gap) (s : List Char) :
    words (gap ++ s) = words s := by
  induction gap with
  | nil => rfl
  | cons c gap ih =>
    obtain ⟨hc, hgap⟩ := Bool.and_eq_true_iff.1 h
    have hsplit := words_append_blank hc [] (gap ++ s)
    rwa [List.nil_append, words_nil, List.nil_append, ih hgap] at hsplit

/-- A blank in front of a text makes no difference. -/
theorem HasWords.blank {c : Char} (hc : isBlank c) {s : List Char} {ws : List (List Char)}
    (h : HasWords s ws) : HasWords (c :: s) ws := by
  have hlonger : ∀ {gap : List Char}, isAllBlank gap → isAllBlank (c :: gap) :=
    fun hgap => Bool.and_eq_true_iff.2 ⟨hc, hgap⟩
  cases h with
  | nil hgap => exact .nil (hlonger hgap)
  | last hgap hne hword => exact .last (hlonger hgap) hne hword
  | cons hgap hne hword hblank hrest => exact .cons (hlonger hgap) hne hword hblank hrest

section character

variable {c : Char} (hc : isBlank c = false)
include hc

theorem not_isBlank_of_mem_singleton : ∀ d ∈ [c], isBlank d = false := by simpa using hc

theorem HasWords.single : HasWords [c] [[c]] :=
  @HasWords.last [] [c] rfl (List.cons_ne_nil c []) (not_isBlank_of_mem_singleton hc)

/-- A character in front of a blank is a word. -/
theorem HasWords.alone {blank : Char} {s : List Char} {ws : List (List Char)}
    (hblank : isBlank blank) (h : HasWords s ws) : HasWords (c :: blank :: s) ([c] :: ws) :=
  @HasWords.cons [] [c] s blank ws rfl (List.cons_ne_nil c []) (not_isBlank_of_mem_singleton hc)
    hblank h

/-- A character that is no blank begins the first word, or it is a word of its own. -/
theorem HasWords.exists_cons {s : List Char} {ws : List (List Char)} (h : HasWords s ws) :
    ∃ ws', HasWords (c :: s) ws' := by
  have hlonger : ∀ {word : List Char}, (∀ d ∈ word, isBlank d = false) →
      ∀ d ∈ c :: word, isBlank d = false := by
    intro word hword
    simpa [hc] using hword
  cases h with
  | nil hgap =>
    cases s with
    | nil => exact ⟨_, .single hc⟩
    | cons blank s =>
      obtain ⟨hblank, hgap⟩ := Bool.and_eq_true_iff.1 hgap
      exact ⟨_, .alone hc hblank (.nil hgap)⟩
  | @last gap word hgap hne hword =>
    cases gap with
    | nil => exact ⟨_, @HasWords.last [] _ rfl (List.cons_ne_nil c word) (hlonger hword)⟩
    | cons blank gap =>
      obtain ⟨hblank, hgap⟩ := Bool.and_eq_true_iff.1 hgap
      exact ⟨_, .alone hc hblank (.last hgap hne hword)⟩
  | @cons gap word rest blank ws hgap hne hword hblank hrest =>
    cases gap with
    | nil =>
      exact ⟨_, @HasWords.cons [] _ _ _ _ rfl (List.cons_ne_nil c word) (hlonger hword) hblank
        hrest⟩
    | cons first gap =>
      obtain ⟨hfirst, hgap⟩ := Bool.and_eq_true_iff.1 hgap
      exact ⟨_, .alone hc hfirst (.cons hgap hne hword hblank hrest)⟩

end character

theorem HasWords.words_eq {s : List Char} {ws : List (List Char)} (h : HasWords s ws) :
    words s = ws := by
  induction h with
  | nil hgap => exact words_of_isAllBlank hgap
  | last hgap hne hword => rw [words_isAllBlank_append hgap, words_of_no_blank hne hword]
  | cons hgap hne hword hblank _ ih =>
    rw [words_isAllBlank_append hgap, words_append_blank hblank, words_of_no_blank hne hword, ih]
    rfl

theorem exists_words (s : List Char) : ∃ ws, HasWords s ws := by
  induction s with
  | nil => exact ⟨[], .nil rfl⟩
  | cons c s ih =>
    obtain ⟨ws, hws⟩ := ih
    cases hc : isBlank c with
    | true => exact ⟨ws, hws.blank hc⟩
    | false => exact hws.exists_cons hc

theorem hasWords_iff {s : List Char} {ws : List (List Char)} : HasWords s ws ↔ words s = ws := by
  constructor
  · exact HasWords.words_eq
  · rintro rfl
    obtain ⟨ws, hws⟩ := exists_words s
    rwa [hws.words_eq]

/-! ## Lines -/

/-- The lines of a text.  The last one may be without an end if it is not empty. -/
inductive HasLines : List Char → List (List Char) → Prop where
  | nil : HasLines [] []
  | last {line : List Char} : line ≠ [] → '\n' ∉ line → HasLines line [line]
  | lineFeed {line rest : List Char} {lines : List (List Char)} : '\n' ∉ line →
      line.getLast? ≠ some '\r' → HasLines rest lines →
      HasLines (line ++ '\n' :: rest) (line :: lines)
  | carriageReturn {line rest : List Char} {lines : List (List Char)} : '\n' ∉ line →
      HasLines rest lines → HasLines (line ++ '\r' :: '\n' :: rest) (line :: lines)

theorem exists_lines (s : List Char) : ∃ lines, HasLines s lines := by
  induction s with
  | nil => exact ⟨[], .nil⟩
  | cons c s ih =>
    obtain ⟨lines, hlines⟩ := ih
    by_cases hc : c = '\n'
    · subst hc
      exact ⟨_, @HasLines.lineFeed [] _ _ List.not_mem_nil (by simp) hlines⟩
    have hlonger : ∀ {line : List Char}, '\n' ∉ line → '\n' ∉ c :: line := by
      intro line hline hmem
      rcases List.mem_cons.1 hmem with heq | hmem
      · exact hc heq.symm
      · exact hline hmem
    cases hlines with
    | nil => exact ⟨_, .last (List.cons_ne_nil c []) (hlonger List.not_mem_nil)⟩
    | last _ hline => exact ⟨_, .last (List.cons_ne_nil c _) (hlonger hline)⟩
    | @lineFeed line rest lines hline hend hrest =>
      -- A carriage return can become the end of the line only where the line was empty.
      by_cases hreturn : (c :: line).getLast? = some '\r'
      · cases line with
        | nil =>
          obtain rfl : c = '\r' := by simpa using hreturn
          exact ⟨_, @HasLines.carriageReturn [] _ _ List.not_mem_nil hrest⟩
        | cons d line => exact absurd (by simpa using hreturn) hend
      · exact ⟨_, .lineFeed (hlonger hline) hreturn hrest⟩
    | carriageReturn hline hrest => exact ⟨_, .carriageReturn (hlonger hline) hrest⟩

end BillOfMaterials.Text
