import Mathlib.Data.List.Basic
import BillOfMaterials.Proofs.License.Alternation
import BillOfMaterials.Proofs.License.Leaves

/-! # Extraction agrees with reading

    Extraction scans a text for operators and builds no tree.  Where operands and
    operators take turns, and no identifier begins with an operator word, it cuts
    the text just at its words and so finds what the tree names.

    * `Layout.blankGroups`: with its parentheses blanked, a text lays out the same
      words without them.
    * `Clause` is a license with its exception; `exists_clauses` cuts words that
      take turns into clauses.
    * `exists_kept` and `kept_last` say what extraction cuts from a layout.
    * `collect_clause` says what it collects from that.
    * `extract_agrees`: what is extracted is what the tree names. -/

namespace BillOfMaterials.License

open Text

/-! ## Words without parentheses -/

theorem blankGroups_of_no_parenthesis {s : List Char} (h : ∀ c ∈ s, isParenthesis c = false) :
    blankGroups s = s := by
  have hkept : ∀ c ∈ s, (if c = '(' || c = ')' then ' ' else c) = id c := by
    intro c hc
    have hother := h c hc
    simp only [isParenthesis] at hother
    simp [hother]
  rw [blankGroups, List.map_congr_left hkept, List.map_id]

theorem isAllBlank_append {a b : List Char} (ha : isAllBlank a = true) (hb : isAllBlank b = true) :
    isAllBlank (a ++ b) = true := by
  rw [isAllBlank, List.all_append, Bool.and_eq_true]
  exact ⟨ha, hb⟩

theorem blankGroups_of_isAllBlank {gap : List Char} (h : isAllBlank gap = true) :
    blankGroups gap = gap :=
  blankGroups_of_no_parenthesis fun _ hc => isParenthesis_of_isBlank (List.all_eq_true.1 h _ hc)

theorem isAllBlank_blankGroups_of_isGroup {t : Token} {w : List Char} (h : Spells t w)
    (ht : t.isGroup = true) : isAllBlank (blankGroups w) = true := by
  cases h with
  | openGroup | closeGroup => decide
  | _ => cases ht

/-- More blanks in front. -/
theorem Layout.append {ts : List Token} {gap s : List Char} (hgap : isAllBlank gap = true)
    (h : Layout ts s) : Layout ts (gap ++ s) := by
  cases h with
  | done hend => exact .done (isAllBlank_append hgap hend)
  | word hfirst hw hend hrest =>
    rw [List.append_assoc, ← List.append_assoc, ← List.append_assoc]
    exact .word (isAllBlank_append hgap hfirst) hw hend hrest

/-- A word that is no parenthesis is made of word characters. -/
theorem Spells.isWord {t : Token} {w : List Char} (h : Spells t w) (ht : t.isGroup = false) :
    w ≠ [] ∧ w.all isWordChar = true := by
  cases h with
  | openGroup | closeGroup => cases ht
  | capitalOperator p | smallOperator p => cases p <;> exact ⟨by decide, by decide⟩
  | capitalWith | smallWith => exact ⟨by decide, by decide⟩
  | identifier name => exact ⟨name.isIdentifier.1, name.isIdentifier.2.1⟩

theorem endsBefore_blankGroups {s : List Char} (h : endsBefore s = true) :
    endsBefore (blankGroups s) = true := by
  cases s with
  | nil => rfl
  | cons c s =>
    have hc : isWordChar c = false := by simpa [endsBefore] using h
    rcases isWordChar_eq_false_iff.1 hc with hblank | hparenthesis
    · have hgap : isAllBlank [c] = true := by simpa [isAllBlank] using hblank
      have hcons : blankGroups (c :: s) = blankGroups [c] ++ blankGroups s := rfl
      rw [hcons, blankGroups_of_isAllBlank hgap]
      exact h
    · simp only [isParenthesis] at hparenthesis
      simp only [blankGroups, List.map_cons, hparenthesis]
      rfl

/-- With its parentheses blanked, a text lays out the same words without them. -/
theorem Layout.blankGroups {ts : List Token} {s : List Char} (h : Layout ts s) :
    Layout (ts.filter (!·.isGroup)) (License.blankGroups s) := by
  induction h with
  | done hgap =>
    rw [blankGroups_of_isAllBlank hgap]
    exact .done hgap
  | @word gap w rest t ts hgap hw hend _ ih =>
    have hsplit : License.blankGroups (gap ++ w ++ rest) =
        gap ++ License.blankGroups w ++ License.blankGroups rest := by
      rw [License.blankGroups, List.map_append, List.map_append]
      exact congrArg (· ++ _ ++ _) (blankGroups_of_isAllBlank hgap)
    rw [hsplit]
    cases ht : t.isGroup with
    | true =>
      -- The parenthesis becomes one more blank in front of the next word.
      rw [List.filter_cons_of_neg (by simp [ht])]
      exact ih.append (isAllBlank_append hgap (isAllBlank_blankGroups_of_isGroup hw ht))
    | false =>
      have hword : License.blankGroups w = w := by
        apply blankGroups_of_no_parenthesis
        intro c hc
        exact (isWordChar_iff.1 (List.all_eq_true.1 (hw.isWord ht).2 c hc)).2
      rw [List.filter_cons_of_pos (by simp [ht]), hword]
      exact .word hgap hw (fun _ => endsBefore_blankGroups (hend ht)) ih

/-! ## Clauses -/

/-- A license and the exception to it. -/
structure Clause where
  license : String
  exception? : Option String

namespace Clause

def words (clause : Clause) : List Token :=
  .identifier clause.license ::
    match clause.exception? with
    | some exception => [.exception, .identifier exception]
    | none => []

/-- The text of the clause's leaf. -/
def text (clause : Clause) : String :=
  match clause.exception? with
  | some exception => clause.license ++ withSeparator ++ exception
  | none => clause.license

/-- Clauses with an operator before each. -/
def furtherWords (rest : List (Polarity × Clause)) : List Token :=
  rest.flatMap fun (p, clause) => .operator p :: clause.words

end Clause

/-- Further words add the texts of further clauses. -/
def Adds (clauses : List Clause) (ts : List Token) : Prop :=
  ∀ texts, leafTexts texts ts = (clauses.map Clause.text).reverse ++ texts

mutual

/-- Words that take turns are clauses with operators between them, whatever
    parentheses stand around these. -/
theorem exists_clauses : ∀ {ts : List Token}, operandNext ts = true →
    ∃ (first : Clause) (rest : List (Polarity × Clause)),
      ts.filter (!·.isGroup) = first.words ++ Clause.furtherWords rest ∧
        Adds (first :: rest.map Prod.snd) ts
  | ts, h => by
    unfold operandNext at h
    split at h
    · next license exception rest =>
      obtain ⟨further, hwords, hadds⟩ := exists_furtherClauses h
      refine ⟨⟨license, some exception⟩, further, by simpa [Clause.words, Token.isGroup], ?_⟩
      intro texts
      simp [leafTexts, hadds _, Clause.text]
    · next license rest hnot =>
      obtain ⟨further, hwords, hadds⟩ := exists_furtherClauses h
      refine ⟨⟨license, none⟩, further, by simpa [Clause.words, Token.isGroup], ?_⟩
      intro texts
      simp [leafTexts, hadds _, Clause.text]
    · next rest =>
      obtain ⟨first, further, hwords, hadds⟩ := exists_clauses h
      refine ⟨first, further, by simpa [Token.isGroup], ?_⟩
      intro texts
      simp [leafTexts, hadds _]
    · cases h

theorem exists_furtherClauses : ∀ {ts : List Token}, operatorNext ts = true →
    ∃ rest : List (Polarity × Clause),
      ts.filter (!·.isGroup) = Clause.furtherWords rest ∧ Adds (rest.map Prod.snd) ts
  | ts, h => by
    unfold operatorNext at h
    split at h
    · exact ⟨[], rfl, fun texts => by simp [leafTexts]⟩
    · next p rest =>
      obtain ⟨first, further, hwords, hadds⟩ := exists_clauses h
      refine ⟨(p, first) :: further, by simpa [Clause.furtherWords, Token.isGroup] using hwords, ?_⟩
      intro texts
      simp [leafTexts, hadds _]
    · next rest =>
      obtain ⟨further, hwords, hadds⟩ := exists_furtherClauses h
      refine ⟨further, by simpa [Token.isGroup], ?_⟩
      intro texts
      simp [leafTexts, hadds _]
    · cases h

end

/-! ## Cutting at operators -/

/-- No operator word begins the text. -/
def IsPlain (text : String) : Prop := ∀ word ∈ operatorWords, ¬ word.toList <+: text.toList

instance (text : String) : Decidable (IsPlain text) :=
  inferInstanceAs (Decidable (∀ word ∈ operatorWords, _))

/-- An operator word is found whatever follows it. -/
theorem operatorAt_append {word : String} (h : word ∈ operatorWords) (rest : List Char) :
    operatorAt (word.toList ++ rest) = some (word, rest) := by
  simp only [operatorWords, List.mem_cons, List.not_mem_nil, or_false] at h
  rcases h with rfl | rfl | rfl | rfl | rfl | rfl <;> rfl

theorem isWordChar_of_mem_operator {word : String} (h : word ∈ operatorWords) :
    ∀ c ∈ word.toList, isWordChar c = true := by
  have hall : ∀ word ∈ operatorWords, word.toList.all isWordChar = true := by decide
  exact List.all_eq_true.1 (hall word h)

theorem ne_nil_of_mem_operator {word : String} (h : word ∈ operatorWords) : word.toList ≠ [] := by
  have hall : ∀ word ∈ operatorWords, word.toList ≠ [] := by decide
  exact hall word h

theorem isBlank_of_mem_operator {word : String} (h : word ∈ operatorWords) :
    ∀ c ∈ word.toList, isBlank c = false :=
  fun c hc => (isWordChar_iff.1 (isWordChar_of_mem_operator h c hc)).1

/-- No operator word goes on after the end of a word. -/
theorem not_prefix_append {text : String} (hplain : IsPlain text) {rest : List Char}
    (hend : endsBefore rest = true) {word : String} (hword : word ∈ operatorWords) :
    ¬ word.toList <+: text.toList ++ rest := by
  intro hprefix
  have htext : text.toList <+: text.toList ++ rest := List.prefix_append _ _
  rcases List.prefix_or_prefix_of_prefix hprefix htext with hshort | ⟨more, hlong⟩
  · exact hplain word hword hshort
  · rw [← hlong, List.prefix_append_right_inj] at hprefix
    cases more with
    | nil =>
      rw [List.append_nil] at hlong
      exact hplain word hword (hlong ▸ List.prefix_refl _)
    | cons c more =>
      -- The operator's next character would stand where the word ends.
      have hc : isWordChar c = true := isWordChar_of_mem_operator hword c (by simp [← hlong])
      obtain ⟨after, rfl⟩ := hprefix
      simp [endsBefore, hc] at hend

theorem operatorAt_of_isPlain {text : String} (hplain : IsPlain text) {rest : List Char}
    (hend : endsBefore rest = true) : operatorAt (text.toList ++ rest) = none := by
  rw [operatorAt, List.findSome?_eq_none_iff]
  intro word hword
  have hnot := not_prefix_append hplain hend hword
  rw [← List.isPrefixOf_iff_prefix] at hnot
  rw [if_neg hnot]

theorem cutAtOperators_cons_of_not_blank {c : Char} (h : isBlank c = false) (before s : List Char) :
    cutAtOperators before (c :: s) = cutAtOperators (c :: before) s := by
  rw [cutAtOperators.eq_def]
  exact if_neg (by simp [h])

theorem cutAtOperators_cons_of_none {c : Char} {s : List Char}
    (hnone : operatorAt (s.dropWhile isBlank) = none) (before : List Char) :
    cutAtOperators before (c :: s) = cutAtOperators (c :: before) s := by
  rw [cutAtOperators.eq_def]
  dsimp only
  split
  · split
    · next hsome => simp [hnone] at hsome
    · rfl
  · rfl

theorem cutAtOperators_cons_of_some {c : Char} (hc : isBlank c = true) {s after : List Char}
    {word : String} (hsome : operatorAt (s.dropWhile isBlank) = some (word, after))
    (before : List Char) :
    cutAtOperators before (c :: s) =
      String.ofList before.reverse :: word :: cutAtOperators [] after := by
  rw [cutAtOperators.eq_def]
  dsimp only
  rw [if_pos hc]
  split
  · next hother =>
    rw [hsome] at hother
    cases hother
    rfl
  · next hnone => simp [hsome] at hnone

/-- Blanks in front of anything but an operator are taken in. -/
theorem cutAtOperators_blanks {gap s : List Char} (hgap : isAllBlank gap = true)
    (hs : beginsWord s = true) (hnone : operatorAt s = none) (before : List Char) :
    cutAtOperators before (gap ++ s) = cutAtOperators (gap.reverse ++ before) s := by
  induction gap generalizing before with
  | nil => rfl
  | cons c gap ih =>
    have hrest : isAllBlank gap = true := by
      rw [isAllBlank, List.all_cons, Bool.and_eq_true] at hgap
      exact hgap.2
    have hskip : operatorAt ((gap ++ s).dropWhile isBlank) = none := by
      rw [dropWhile_isBlank_append hrest hs, hnone]
    rw [List.cons_append, cutAtOperators_cons_of_none hskip, ih hrest]
    simp

/-- The characters of a word are taken in. -/
theorem cutAtOperators_word {w : List Char} (hw : ∀ c ∈ w, isBlank c = false)
    (before s : List Char) :
    cutAtOperators before (w ++ s) = cutAtOperators (w.reverse ++ before) s := by
  induction w generalizing before with
  | nil => rfl
  | cons c w ih =>
    have hrest := ih fun d hd => hw d (by simp [hd])
    rw [List.cons_append, cutAtOperators_cons_of_not_blank (hw c (by simp)), hrest]
    simp

/-- An operator after a blank is cut out. -/
theorem cutAtOperators_operator {gap : List Char} (hne : gap ≠ []) (hgap : isAllBlank gap = true)
    {word : String} (hword : word ∈ operatorWords) (before rest : List Char) :
    cutAtOperators before (gap ++ (word.toList ++ rest)) =
      String.ofList before.reverse :: word :: cutAtOperators [] rest := by
  obtain ⟨c, gap, rfl⟩ := List.exists_cons_of_ne_nil hne
  rw [isAllBlank, List.all_cons, Bool.and_eq_true] at hgap
  have hstart : beginsWord (word.toList ++ rest) = true :=
    beginsWord_append (ne_nil_of_mem_operator hword) (isBlank_of_mem_operator hword) rest
  have hfound : operatorAt ((gap ++ (word.toList ++ rest)).dropWhile isBlank) = some (word, rest) := by
    rw [dropWhile_isBlank_append hgap.2 hstart, operatorAt_append hword]
  exact cutAtOperators_cons_of_some hgap.1 hfound before

/-! ## What is cut from a layout -/

/-- A text between operators, trimmed; a blank one is none. -/
def trimmed? (text : String) : Option String :=
  if (trim text.toList).isEmpty then none else some (String.ofList (trim text.toList))

/-- What is kept of the texts that operators cut off. -/
def kept (texts : List String) : List String := texts.filterMap trimmed?

theorem kept_cons {text word : String} (h : trimmed? text = some word) (texts : List String) :
    kept (text :: texts) = word :: kept texts := List.filterMap_cons_some h

theorem operands_eq (expression : String) :
    operands expression = kept (cutAtOperators [] (blankGroups expression.toList)) := rfl

theorem trimmed?_append {text : String} (hid : IsIdentifier text) {front back : List Char}
    (hfront : isAllBlank front = true) (hback : isAllBlank back = true) :
    trimmed? (String.ofList (front ++ (text.toList ++ back))) = some text := by
  have htrim : trim (front ++ (text.toList ++ back)) = text.toList :=
    trim_append hid.1 (isBlank_of_isIdentifier hid) hfront hback
  simp [trimmed?, htrim, hid.1]

theorem trimmed?_operator {word : String} (h : word ∈ operatorWords) :
    trimmed? word = some word := by
  have hall : ∀ word ∈ operatorWords, trimmed? word = some word := by decide
  exact hall word h

/-- Words as they are laid out without parentheses, no identifier of which begins with
    an operator word. -/
structure PlainLayout (ts : List Token) (s : List Char) : Prop where
  layout : Layout ts s
  isPlain : ∀ name, .identifier name ∈ ts → IsPlain name

/-- What a word asks of the text after it. -/
def Token.wanted? : Token → Option Extraction.Wanted
  | .operator _ => some .license
  | .exception => some .exception
  | _ => none

theorem exists_operator_of_spells {t : Token} {wanted : Extraction.Wanted} {w : List Char}
    (ht : t.wanted? = some wanted) (h : Spells t w) :
    ∃ word ∈ operatorWords, w = word.toList ∧ Extraction.Wanted.after word = wanted := by
  cases h with
  | openGroup | closeGroup | identifier => cases ht
  | capitalOperator p =>
    obtain rfl : .license = wanted := Option.some.inj ht
    refine ⟨p.operator, ?_, rfl, ?_⟩ <;> cases p <;> decide
  | smallOperator p =>
    obtain rfl : .license = wanted := Option.some.inj ht
    refine ⟨lowered p.operator, ?_, rfl, ?_⟩ <;> cases p <;> decide
  | capitalWith =>
    obtain rfl : .exception = wanted := Option.some.inj ht
    exact ⟨"WITH", by decide, rfl, by decide⟩
  | smallWith =>
    obtain rfl : .exception = wanted := Option.some.inj ht
    exact ⟨"with", by decide, rfl, by decide⟩

theorem eq_of_spells_identifier {name : String} {w : List Char}
    (h : Spells (.identifier name) w) : w = name.toList := by
  cases h
  rfl

/-- Up to the end of its word, nothing is cut from a layout. -/
theorem cutAtOperators_identifier {name : String} {gap rest : List Char} (hid : IsIdentifier name)
    (hplain : IsPlain name) (hgap : isAllBlank gap = true) (hend : endsBefore rest = true) :
    cutAtOperators [] (gap ++ name.toList ++ rest) =
      cutAtOperators (name.toList.reverse ++ gap.reverse) rest := by
  have hblank := isBlank_of_isIdentifier hid
  rw [List.append_assoc, cutAtOperators_blanks hgap (beginsWord_append hid.1 hblank rest)
    (operatorAt_of_isPlain hplain hend), cutAtOperators_word hblank, List.append_nil]

theorem cutAtOperators_nil (before : List Char) :
    cutAtOperators before [] = [String.ofList before.reverse] := by
  rw [cutAtOperators.eq_def]

/-- The last identifier is all that is kept of the text from it on. -/
theorem kept_last {name : String} {s : List Char} (h : PlainLayout [.identifier name] s) :
    kept (cutAtOperators [] s) = [name] := by
  have hid := isIdentifier_of_mem_layout h.layout List.mem_cons_self
  have hplain := h.isPlain name List.mem_cons_self
  cases h.layout with
  | @word gap w rest _ _ hgap hw hend hrest =>
    obtain rfl := eq_of_spells_identifier hw
    have hback : isAllBlank rest = true := by
      cases hrest
      assumption
    have hdone := cutAtOperators_blanks (s := []) hback rfl (by decide)
      (name.toList.reverse ++ gap.reverse)
    have hread : (rest.reverse ++ (name.toList.reverse ++ gap.reverse)).reverse =
        gap ++ (name.toList ++ rest) := by simp
    rw [List.append_nil, cutAtOperators_nil, hread] at hdone
    rw [cutAtOperators_identifier hid hplain hgap (hend rfl), hdone,
      kept_cons (trimmed?_append hid hgap hback)]
    rfl

/-- An identifier in front of an operator is kept, then the operator and what is kept
    of the text after it. -/
theorem exists_kept {name : String} {t : Token} {ts : List Token} {s : List Char}
    {wanted : Extraction.Wanted} (ht : t.wanted? = some wanted)
    (h : PlainLayout (.identifier name :: t :: ts) s) :
    ∃ word ∈ operatorWords, ∃ rest, Extraction.Wanted.after word = wanted ∧ PlainLayout ts rest ∧
      kept (cutAtOperators [] s) = name :: word :: kept (cutAtOperators [] rest) := by
  have hid := isIdentifier_of_mem_layout h.layout List.mem_cons_self
  have hplain := h.isPlain name List.mem_cons_self
  have hgroup : t.isGroup = false := by
    cases t with
    | openGroup | closeGroup => cases ht
    | _ => rfl
  cases h.layout with
  | @word gap w after _ _ hgap hw hend hafter =>
    obtain rfl := eq_of_spells_identifier hw
    have hcut := cutAtOperators_identifier hid hplain hgap (hend rfl)
    cases hafter with
    | @word gap' w' rest _ _ hgap' hw' hend' hrest =>
      obtain ⟨word, hword, rfl, hwanted⟩ := exists_operator_of_spells ht hw'
      -- The identifier ends before the operator, so there is a blank between them.
      have hne : gap' ≠ [] := by
        rintro rfl
        obtain ⟨c, more, hcons⟩ := List.exists_cons_of_ne_nil (ne_nil_of_mem_operator hword)
        have hc := isWordChar_of_mem_operator hword c (by simp [hcons])
        simpa [endsBefore, hcons, hc] using hend rfl
      have hplain' : ∀ name, .identifier name ∈ ts → IsPlain name :=
        fun name hname => h.isPlain name (List.mem_cons_of_mem _ (List.mem_cons_of_mem _ hname))
      have hread : (name.toList.reverse ++ gap.reverse).reverse = gap ++ (name.toList ++ []) := by
        simp
      refine ⟨word, hword, rest, hwanted, ⟨hrest, hplain'⟩, ?_⟩
      rw [hcut, List.append_assoc, cutAtOperators_operator hne hgap' hword, hread,
        kept_cons (trimmed?_append hid hgap rfl), kept_cons (trimmed?_operator hword)]

/-! ## What is collected -/

/-- What is extracted where clauses name it. -/
def Extraction.ofClauses (clauses : List Clause) : Extraction where
  valid := true
  licenses := sortedSet (clauses.map fun clause =>
    String.ofList (stripOrLater clause.license.toList).1)
  exceptions := sortedSet (clauses.filterMap Clause.exception?)

open Extraction

theorem collect_operator {word : String} {wanted : Wanted} (hword : word ∈ operatorWords)
    (hwanted : Wanted.after word = wanted) (texts : List String) :
    collect .nothing (word :: texts) = collect wanted texts := by
  simp [collect, hword, hwanted]

theorem collect_license {name : String} (hid : IsIdentifier name) {wanted : Wanted}
    (hwanted : wanted ≠ .exception) (texts : List String) :
    collect wanted (name :: texts) =
      { collect .nothing texts with
        licenses := insertSorted (String.ofList (stripOrLater name.toList).1)
          (collect .nothing texts).licenses } := by
  simp [collect, hid.2.2, hwanted]

theorem collect_exception {name : String} (hid : IsIdentifier name) (texts : List String) :
    collect .exception (name :: texts) =
      { collect .nothing texts with
        exceptions := insertSorted name (collect .nothing texts).exceptions } := by
  simp [collect, hid.2.2]

/-- What follows an identifier is collected as `clauses`, wherever they are laid out. -/
def Collects (further : List Token) (clauses : List Clause) : Prop :=
  ∀ name s, PlainLayout (.identifier name :: further) s → ∃ texts,
    kept (cutAtOperators [] s) = name :: texts ∧ collect .nothing texts = ofClauses clauses

theorem collect_clause {further : List Token} {clauses : List Clause}
    (h : Collects further clauses) {clause : Clause} {s : List Char}
    (hs : PlainLayout (clause.words ++ further) s) {wanted : Wanted}
    (hwanted : wanted ≠ .exception) :
    collect wanted (kept (cutAtOperators [] s)) = ofClauses (clause :: clauses) := by
  obtain ⟨license, exception?⟩ := clause
  have hlicense : IsIdentifier license := isIdentifier_of_mem_layout hs.layout List.mem_cons_self
  cases exception? with
  | none =>
    obtain ⟨texts, htexts, hrest⟩ := h license s hs
    rw [htexts, collect_license hlicense hwanted, hrest]
    rfl
  | some exception =>
    obtain ⟨word, hword, after, hafter, hlayout, htexts⟩ := exists_kept rfl hs
    have hexception : IsIdentifier exception :=
      isIdentifier_of_mem_layout hlayout.layout List.mem_cons_self
    obtain ⟨texts, htexts', hrest⟩ := h exception after hlayout
    rw [htexts, collect_license hlicense hwanted, collect_operator hword hafter, htexts',
      collect_exception hexception, hrest]
    rfl

theorem collects_furtherWords (rest : List (Polarity × Clause)) :
    Collects (Clause.furtherWords rest) (rest.map Prod.snd) := by
  induction rest with
  | nil =>
    -- The identifier is the last word, so it is all that is kept.
    intro name s hs
    exact ⟨[], kept_last hs, rfl⟩
  | cons next rest ih =>
    intro name s hs
    obtain ⟨word, hword, after, hafter, hlayout, htexts⟩ := exists_kept rfl hs
    refine ⟨_, htexts, ?_⟩
    rw [collect_operator hword hafter]
    exact collect_clause ih hlayout (by decide)

/-- A clause's license and exception are told apart in its leaf. -/
theorem ofText_text {clause : Clause} (h : IsIdentifier clause.license) :
    (LeafParts.ofText clause.text).id = String.ofList (stripOrLater clause.license.toList).1 ∧
      (LeafParts.ofText clause.text).exception? = clause.exception? := by
  obtain ⟨license, exception?⟩ := clause
  have hspace : ∀ c ∈ license.toList, c ≠ ' ' := ne_space_of_isIdentifier h
  cases exception? with
  | none =>
    have hcut : cutAt withSeparator.toList license.toList = none :=
      cutAt_eq_none hspace "WITH ".toList
    simp [Clause.text, LeafParts.ofText, hcut]
  | some exception =>
    have hcut : cutAt withSeparator.toList
        (license.toList ++ (withSeparator.toList ++ exception.toList)) =
          some (license.toList, exception.toList) :=
      cutAt_mark_append hspace "WITH ".toList exception.toList
    simp [Clause.text, LeafParts.ofText, hcut]

/-! ## Extraction and reading -/

/-- What a text names, for clauses that begin and end it. -/
theorem extract_of_clauses {text : String} {ts : List Token} (hlayout : Layout ts text.toList)
    (hplain : ∀ name, .identifier name ∈ ts → IsPlain name) {first : Clause}
    {rest : List (Polarity × Clause)}
    (hwords : ts.filter (!·.isGroup) = first.words ++ Clause.furtherWords rest) :
    extract text = ofClauses (first :: rest.map Prod.snd) := by
  have hblanked : PlainLayout (first.words ++ Clause.furtherWords rest)
      (blankGroups text.toList) := by
    rw [← hwords]
    exact ⟨hlayout.blankGroups, fun name hname => hplain name (List.mem_of_mem_filter hname)⟩
  rw [extract, operands_eq]
  exact collect_clause (collects_furtherWords rest) hblanked (by decide)

theorem mem_words_of_mem_clauses {clause first : Clause} {rest : List (Polarity × Clause)}
    (h : clause ∈ first :: rest.map Prod.snd) :
    .identifier clause.license ∈ first.words ++ Clause.furtherWords rest := by
  rcases List.mem_cons.1 h with rfl | h
  · exact List.mem_append_left _ List.mem_cons_self
  · obtain ⟨⟨p, clause⟩, hrest, rfl⟩ := List.mem_map.1 h
    refine List.mem_append_right _ (List.mem_flatMap.2 ⟨_, hrest, ?_⟩)
    simp [Clause.words]

/-- A tree whose leaves are clauses names what they name. -/
theorem ofClauses_eq {clauses : List Clause} {tree : License}
    (hleaves : tree.leaves = clauses.map Clause.text)
    (hids : ∀ clause ∈ clauses, IsIdentifier clause.license) :
    ofClauses clauses =
      { valid := true, licenses := tree.licenseIds, exceptions := tree.exceptionIds } := by
  have hlicenses : clauses.map (fun clause =>
      String.ofList (stripOrLater clause.license.toList).1) =
        tree.leaves.map fun text => (LeafParts.ofText text).id := by
    rw [hleaves, List.map_map]
    exact List.map_congr_left fun clause h => (ofText_text (hids clause h)).1.symm
  have hexceptions : clauses.filterMap Clause.exception? =
      tree.leaves.filterMap fun text => (LeafParts.ofText text).exception? := by
    rw [hleaves, List.filterMap_map]
    exact List.filterMap_congr fun clause h => (ofText_text (hids clause h)).2.symm
  rw [ofClauses, hlicenses, hexceptions]
  rfl

/-- **Extraction agrees with reading.** From a text that the grammar derives, in any
    layout, extraction takes just what the tree names, if no identifier begins with an
    operator word. -/
theorem extract_agrees (e : Expr) (text : String) (hlayout : Layout e.words text.toList)
    (hplain : ∀ name, .identifier name ∈ e.words → IsPlain name) :
    ∃ tree, parse text = some tree ∧
      extract text =
        { valid := true, licenses := tree.licenseIds, exceptions := tree.exceptionIds } := by
  have hnext : operandNext (e.words ++ []) = true := e.operandNext_words rfl
  rw [List.append_nil] at hnext
  obtain ⟨first, rest, hwords, hadds⟩ := exists_clauses hnext
  have hscan := scan_of_layout hlayout
  have hparse : parse text = some e.tree := parse_of_scan hscan
  -- Both sides are told from the clauses: the leaves by reading, the rest by cutting.
  have hleaves : e.tree.leaves = (first :: rest.map Prod.snd).map Clause.text := by
    have hread := leaves_of_parse hparse
    rw [hscan, hadds [], List.append_nil] at hread
    exact List.reverse_inj.1 hread
  have hids : ∀ clause ∈ first :: rest.map Prod.snd, IsIdentifier clause.license := by
    intro clause hclause
    have hmem := mem_words_of_mem_clauses hclause
    rw [← hwords] at hmem
    exact isIdentifier_of_mem_layout hlayout (List.mem_of_mem_filter hmem)
  refine ⟨e.tree, hparse, ?_⟩
  rw [extract_of_clauses hlayout hplain hwords, ofClauses_eq hleaves hids]

/-- Extraction and reading agree on a text with blanks of several kinds. -/
theorem extract_agrees_blanks :
    let a : Identifier := ⟨"a+", by decide⟩
    let b : Identifier := ⟨"b", by decide⟩
    let c : Identifier := ⟨"c", by decide⟩
    let x : Identifier := ⟨"x+", by decide⟩
    let both : Expr := .chain (.chain (.license a none) [.license b (some x)]) []
    let e : Expr := .chain (.chain (.group both) []) [.chain (.license c none) []]
    let text := "(a+ AND\tb\u00a0with\u2003x+ )OR c"
    Layout e.words text.toList ∧ (∀ name, .identifier name ∈ e.words → IsPlain name) ∧
      (∃ tree, parse text = some tree ∧ extract text =
        { valid := true, licenses := tree.licenseIds, exceptions := tree.exceptionIds }) ∧
      extract text = { valid := true, licenses := ["a", "b", "c"], exceptions := ["x+"] } := by
  intro a b c x both e text
  have hlayout : Layout e.words text.toList := layout_iff.2 (by decide)
  have hplain : ∀ name, .identifier name ∈ e.words → IsPlain name := by
    intro name hname
    have hnames : name = "a+" ∨ name = "b" ∨ name = "x+" ∨ name = "c" := by
      simpa [e, both, a, b, c, x, Expr.words, Term.words, Term.furtherWords, Factor.words,
        Factor.furtherWords] using hname
    rcases hnames with rfl | rfl | rfl | rfl <;> decide
  exact ⟨hlayout, hplain, extract_agrees e text hlayout hplain, by decide +kernel⟩

end BillOfMaterials.License
