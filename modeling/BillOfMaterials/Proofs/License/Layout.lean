import BillOfMaterials.License.Extraction
import BillOfMaterials.License.Token
import BillOfMaterials.Proofs.Text.Words
import BillOfMaterials.Text.Case

/-! # How an expression is laid out as text

    A list of words can be written in many ways: blanks of any kind and number
    may stand between two words, a parenthesis needs none around it, and an
    operator has a capital and a small spelling.

    * `Identifier` is a word that names a license or an exception.
    * `Layout ts s` says that the text `s` is one way to write the words `ts`.
    * `layout_iff`: a text lays out just the words that scanning finds in it.
    * `isIdentifier_of_mem_scan`: what scanning takes for an identifier is one. -/

namespace BillOfMaterials.License

open Text

/-! ## Identifiers -/

def isParenthesis (c : Char) : Bool := c = '(' || c = ')'

/-- What a word other than a parenthesis is made of. -/
def isWordChar (c : Char) : Bool := !isBlank c && !isParenthesis c

theorem isWordChar_iff {c : Char} :
    isWordChar c = true ↔ isBlank c = false ∧ isParenthesis c = false := by
  simp [isWordChar]

theorem isWordChar_eq_false_iff {c : Char} :
    isWordChar c = false ↔ isBlank c = true ∨ isParenthesis c = true := by
  cases hb : isBlank c <;> simp [isWordChar, hb]

/-- A word that names a license or an exception: not empty, without blanks and
    parentheses, and no operator. -/
def IsIdentifier (text : String) : Prop :=
  text.toList ≠ [] ∧ text.toList.all isWordChar = true ∧ text ∉ operatorWords

instance (text : String) : Decidable (IsIdentifier text) :=
  inferInstanceAs (Decidable (_ ∧ _ ∧ _))

structure Identifier where
  text : String
  isIdentifier : IsIdentifier text

theorem isBlank_of_isIdentifier {text : String} (hid : IsIdentifier text) :
    ∀ c ∈ text.toList, isBlank c = false :=
  fun c hc => (isWordChar_iff.1 (List.all_eq_true.1 hid.2.1 c hc)).1

theorem ne_space_of_isIdentifier {text : String} (hid : IsIdentifier text) :
    ∀ c ∈ text.toList, c ≠ ' ' := by
  rintro c hc rfl
  exact absurd (isBlank_of_isIdentifier hid ' ' hc) (by decide)

/-! ## Scanning -/

theorem spaceOut_of_not_parenthesis {c : Char} (h : isParenthesis c = false) :
    spaceOut c = [c] := by
  simp [isParenthesis] at h
  simp [spaceOut, h]

theorem spaceOut_of_parenthesis {c : Char} (h : isParenthesis c = true) :
    spaceOut c = [' ', c, ' '] := by
  simp only [isParenthesis] at h
  simp [spaceOut, h]

theorem isBlank_of_isParenthesis {c : Char} (h : isParenthesis c = true) : isBlank c = false := by
  simp only [isParenthesis, Bool.or_eq_true, decide_eq_true_eq] at h
  rcases h with rfl | rfl <;> decide

theorem isParenthesis_of_isBlank {c : Char} (h : isBlank c = true) : isParenthesis c = false := by
  cases hp : isParenthesis c with
  | false => rfl
  | true => simp [isBlank_of_isParenthesis hp] at h

@[simp] theorem scan_nil : Token.scan [] = [] := by
  simp [Token.scan]

theorem scan_append_blank {c : Char} (h : isBlank c = true) (a b : List Char) :
    Token.scan (a ++ c :: b) = Token.scan a ++ Token.scan b := by
  simp [Token.scan, spaceOut_of_not_parenthesis (isParenthesis_of_isBlank h),
    words_append_blank h]

/-- A parenthesis is a word of its own wherever it stands. -/
theorem scan_append_parenthesis {c : Char} (h : isParenthesis c = true) (a b : List Char) :
    Token.scan (a ++ c :: b) = Token.scan a ++ Token.ofWord [c] :: Token.scan b := by
  -- The parenthesis is spaced out, so a blank stands on either side of it.
  have hblank := isBlank_of_isParenthesis h
  have hword : words [c] = [[c]] := words_of_no_blank (by simp) (by simpa using hblank)
  have hright : ∀ r, words (c :: ' ' :: r) = [c] :: words r := fun r => by
    simpa [hword] using words_append_blank (by decide : isBlank ' ' = true) [c] r
  simp only [Token.scan, List.flatMap_append, List.flatMap_cons, spaceOut_of_parenthesis h,
    List.cons_append, List.nil_append]
  rw [words_append_blank (by decide), hright]
  simp

theorem flatMap_spaceOut {w : List Char} (h : ∀ c ∈ w, isParenthesis c = false) :
    w.flatMap spaceOut = w := by
  induction w with
  | nil => rfl
  | cons c w ih =>
    have hw := ih fun d hd => h d (by simp [hd])
    simp [spaceOut_of_not_parenthesis (h c (by simp)), hw]

/-- A text without blanks and parentheses is one word. -/
theorem scan_word {w : List Char} (hne : w ≠ []) (h : w.all isWordChar = true) :
    Token.scan w = [Token.ofWord w] := by
  have hchars : ∀ c ∈ w, isBlank c = false ∧ isParenthesis c = false :=
    fun c hc => isWordChar_iff.1 (List.all_eq_true.1 h c hc)
  have hwords : words w = [w] := words_of_no_blank hne fun c hc => (hchars c hc).1
  rw [Token.scan, flatMap_spaceOut fun c hc => (hchars c hc).2, hwords]
  rfl

@[simp] theorem ofWord_openGroup : Token.ofWord ['('] = .openGroup := rfl

@[simp] theorem ofWord_closeGroup : Token.ofWord [')'] = .closeGroup := rfl

theorem ofWord_identifier {text : String} (h : IsIdentifier text) :
    Token.ofWord text.toList = .identifier text := by
  obtain ⟨-, hchars, hoperator⟩ := h
  simp only [operatorWords, List.mem_cons, List.not_mem_nil, or_false, not_or] at hoperator
  unfold Token.ofWord
  rw [String.ofList_toList]
  split <;> simp_all [isWordChar, isParenthesis]

/-! ## Words inside a text -/

/-- Between two blanks a word is read as it stands. -/
theorem scan_append_word {w : List Char} (hne : w ≠ []) (h : w.all isWordChar = true)
    (a b : List Char) :
    Token.scan (a ++ ' ' :: (w ++ ' ' :: b)) = Token.scan a ++ Token.ofWord w :: Token.scan b := by
  rw [scan_append_blank (by decide), scan_append_blank (by decide), scan_word hne h]
  rfl

theorem scan_operator (p : Polarity) (a b : List Char) :
    Token.scan (a ++ ' ' :: (p.operator.toList ++ ' ' :: b)) =
      Token.scan a ++ .operator p :: Token.scan b := by
  cases p <;> exact scan_append_word (by decide) (by decide) a b

theorem scan_with (a b : List Char) :
    Token.scan (a ++ (withSeparator.toList ++ b)) = Token.scan a ++ .exception :: Token.scan b :=
  scan_append_word (w := "WITH".toList) (by decide) (by decide) a b

theorem scan_identifier (name : Identifier) :
    Token.scan name.text.toList = [.identifier name.text] := by
  obtain ⟨hne, hchars, -⟩ := name.isIdentifier
  rw [scan_word hne hchars, ofWord_identifier name.isIdentifier]

theorem scan_group (s : List Char) :
    Token.scan ('(' :: s ++ [')']) = .openGroup :: Token.scan s ++ [.closeGroup] := by
  have hopen := scan_append_parenthesis (by decide : isParenthesis '(' = true) [] (s ++ [')'])
  have hclose := scan_append_parenthesis (by decide : isParenthesis ')' = true) s []
  rw [hclose] at hopen
  simpa using hopen

/-! ## Layouts -/

/-- The ways to write one word. -/
inductive Spells : Token → List Char → Prop where
  | openGroup : Spells .openGroup ['(']
  | closeGroup : Spells .closeGroup [')']
  | capitalOperator (p : Polarity) : Spells (.operator p) p.operator.toList
  | smallOperator (p : Polarity) : Spells (.operator p) (lowered p.operator).toList
  | capitalWith : Spells .exception "WITH".toList
  | smallWith : Spells .exception "with".toList
  | identifier (name : Identifier) : Spells (.identifier name.text) name.text.toList

/-- Parentheses need no blanks around them. -/
def Token.isGroup : Token → Bool
  | .openGroup | .closeGroup => true
  | _ => false

/-- A word that is no parenthesis ends at a blank, at a parenthesis or at the
    end of the text. -/
def endsBefore (rest : List Char) : Bool := rest.head?.all fun c => !isWordChar c

/-- `Layout ts s` says that `s` writes the words `ts` in order, with blanks
    before each word and at the end.  The blanks may be missing except between
    two words of which neither is a parenthesis. -/
inductive Layout : List Token → List Char → Prop where
  | done {gap : List Char} : isAllBlank gap = true → Layout [] gap
  | word {gap w rest : List Char} {t : Token} {ts : List Token} :
      isAllBlank gap = true → Spells t w → (t.isGroup = false → endsBefore rest = true) →
      Layout ts rest → Layout (t :: ts) (gap ++ w ++ rest)

theorem scan_append_of_isAllBlank {gap : List Char} (h : isAllBlank gap = true) (s : List Char) :
    Token.scan (gap ++ s) = Token.scan s := by
  induction gap with
  | nil => rfl
  | cons c gap ih =>
    simp only [isAllBlank, List.all_cons, Bool.and_eq_true] at h
    have hcons := scan_append_blank h.1 [] (gap ++ s)
    simp only [List.nil_append, scan_nil] at hcons
    rw [List.cons_append, hcons, ih h.2]

/-- A word that is no parenthesis is read up to where it may end. -/
theorem scan_word_append {w rest : List Char} (hne : w ≠ []) (h : w.all isWordChar = true)
    (hend : endsBefore rest = true) :
    Token.scan (w ++ rest) = Token.ofWord w :: Token.scan rest := by
  cases rest with
  | nil => simp [scan_word hne h]
  | cons c rest =>
    have hc : isWordChar c = false := by simpa [endsBefore] using hend
    rcases isWordChar_eq_false_iff.1 hc with hc | hc
    · have hrest := scan_append_blank hc [] rest
      simp only [List.nil_append, scan_nil] at hrest
      rw [scan_append_blank hc, scan_word hne h, hrest]
      rfl
    · have hrest := scan_append_parenthesis hc [] rest
      simp only [List.nil_append, scan_nil] at hrest
      rw [scan_append_parenthesis hc, scan_word hne h, hrest]
      rfl

theorem scan_spells_append {t : Token} {w rest : List Char} (hw : Spells t w)
    (hend : t.isGroup = false → endsBefore rest = true) :
    Token.scan (w ++ rest) = t :: Token.scan rest := by
  cases hw with
  | openGroup => exact scan_append_parenthesis (by decide) [] rest
  | closeGroup => exact scan_append_parenthesis (by decide) [] rest
  | capitalOperator p => cases p <;> exact scan_word_append (by decide) (by decide) (hend rfl)
  | smallOperator p => cases p <;> exact scan_word_append (by decide) (by decide) (hend rfl)
  | capitalWith => exact scan_word_append (by decide) (by decide) (hend rfl)
  | smallWith => exact scan_word_append (by decide) (by decide) (hend rfl)
  | identifier name =>
    rw [scan_word_append name.isIdentifier.1 name.isIdentifier.2.1 (hend rfl),
      ofWord_identifier name.isIdentifier]

/-- Scanning undoes every layout. -/
theorem scan_of_layout {ts : List Token} {s : List Char} (h : Layout ts s) :
    Token.scan s = ts := by
  induction h with
  | done hgap => simpa using scan_append_of_isAllBlank hgap []
  | word hgap hw hend _ ih =>
    rw [List.append_assoc, scan_append_of_isAllBlank hgap, scan_spells_append hw hend, ih]

/-! ## Every text is a layout -/

theorem spells_parenthesis {c : Char} (h : isParenthesis c = true) :
    Spells (Token.ofWord [c]) [c] ∧ (Token.ofWord [c]).isGroup = true := by
  simp only [isParenthesis, Bool.or_eq_true, decide_eq_true_eq] at h
  rcases h with rfl | rfl
  · exact ⟨.openGroup, rfl⟩
  · exact ⟨.closeGroup, rfl⟩

theorem spells_ofWord {w : List Char} (hne : w ≠ []) (h : w.all isWordChar = true) :
    Spells (Token.ofWord w) w := by
  by_cases hoperator : String.ofList w ∈ operatorWords
  · have hw : w = (String.ofList w).toList := by simp
    simp only [operatorWords, List.mem_cons, List.not_mem_nil, or_false] at hoperator
    rcases hoperator with ho | ho | ho | ho | ho | ho <;> rw [ho] at hw <;> subst hw
    · exact .smallOperator .all
    · exact .smallOperator .any
    · exact .smallWith
    · exact .capitalOperator .all
    · exact .capitalOperator .any
    · exact .capitalWith
  · have hid : IsIdentifier (String.ofList w) := ⟨by simpa using hne, by simpa using h, hoperator⟩
    have hword := ofWord_identifier hid
    have hspells := Spells.identifier ⟨String.ofList w, hid⟩
    rw [String.toList_ofList] at hword hspells
    rw [hword]
    exact hspells

/-- The longest beginning of a text whose characters are of one kind. -/
theorem exists_span (p : Char → Bool) (s : List Char) :
    ∃ a b, s = a ++ b ∧ a.all p = true ∧ (b.head?.all fun c => !p c) = true := by
  refine ⟨s.takeWhile p, s.dropWhile p, List.takeWhile_append_dropWhile.symm,
    List.all_takeWhile, ?_⟩
  have hhead := List.head?_dropWhile_not p s
  cases hd : (s.dropWhile p).head? with
  | none => rfl
  | some c =>
    rw [hd] at hhead
    simpa using hhead

/-- Every text lays out the words that are found in it. -/
theorem layout_scan (s : List Char) : Layout (Token.scan s) s := by
  obtain ⟨gap, rest, hs, hgap, hhead⟩ := exists_span isBlank s
  match rest with
  | [] =>
    rw [hs, scan_append_of_isAllBlank hgap]
    simpa using Layout.done hgap
  | c :: rest =>
    have hlength : rest.length < s.length := by
      rw [hs, List.length_append, List.length_cons]
      omega
    have hc : isBlank c = false := by simpa using hhead
    by_cases hp : isParenthesis c = true
    · -- A parenthesis is a word whatever follows it.
      have ih := layout_scan rest
      obtain ⟨hspells, hgroup⟩ := spells_parenthesis hp
      have hword : Token.scan (c :: rest) = Token.ofWord [c] :: Token.scan rest :=
        scan_append_parenthesis hp [] rest
      rw [hs, scan_append_of_isAllBlank hgap, hword]
      simpa using Layout.word hgap hspells (by simp [hgroup]) ih
    · -- Any other word goes on to the next blank or parenthesis.
      have hp : isParenthesis c = false := by simpa using hp
      obtain ⟨w, after, hrest, hw, hend⟩ := exists_span isWordChar rest
      have hchars : (c :: w).all isWordChar = true := by
        rw [List.all_cons, isWordChar_iff.2 ⟨hc, hp⟩, hw]
        rfl
      have hlength' : after.length < s.length := by
        rw [hrest, List.length_append] at hlength
        omega
      have ih := layout_scan after
      have hword := scan_word_append (by simp) hchars hend
      rw [hs, scan_append_of_isAllBlank hgap, hrest, ← List.cons_append, hword]
      simpa using Layout.word hgap (spells_ofWord (by simp) hchars) (fun _ => hend) ih
termination_by s.length

/-- **Words.** A text lays out the words `ts` just when they are what scanning
    finds in it. -/
theorem layout_iff {ts : List Token} {s : List Char} : Layout ts s ↔ Token.scan s = ts :=
  ⟨scan_of_layout, fun h => h ▸ layout_scan s⟩

theorem isIdentifier_of_mem_layout {ts : List Token} {s : List Char} (h : Layout ts s)
    {text : String} (ht : .identifier text ∈ ts) : IsIdentifier text := by
  induction h with
  | done => cases ht
  | word _ hw _ _ ih =>
    rcases List.mem_cons.1 ht with rfl | ht
    · cases hw with
      | identifier name => exact name.isIdentifier
    · exact ih ht

/-- What is read as an identifier is one. -/
theorem isIdentifier_of_mem_scan {s : List Char} {text : String}
    (h : .identifier text ∈ Token.scan s) : IsIdentifier text :=
  isIdentifier_of_mem_layout (layout_scan s) h

end BillOfMaterials.License
