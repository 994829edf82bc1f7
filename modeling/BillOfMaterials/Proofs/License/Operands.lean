import BillOfMaterials.Proofs.License.Extraction

/-! # What is collected from any text

    Extraction keeps only what the next text is wanted for.  That is told by the text
    right before it, so all that is collected is told by neighbours.

    * `solid_cutAtOperators` and `solid_kept`: cutting and trimming lose nothing but
      blanks.
    * `wantedAfter` is what texts want after them, and `placed` are the operands with what
      they were wanted for; `mem_placed` tells these from the texts.
    * `collect_valid_iff`, `collect_exceptions` and `collect_licenses` say what is collected.
    * `extract_neighbours` puts this together for every text. -/

namespace BillOfMaterials.License

open Text Extraction

/-! ## Nothing is lost -/

/-- A text without its blanks. -/
def solid (s : List Char) : List Char := s.filter fun c => !isBlank c

theorem solid_append (a b : List Char) : solid (a ++ b) = solid a ++ solid b :=
  List.filter_append ..

theorem solid_dropWhile (s : List Char) : solid (s.dropWhile isBlank) = solid s := by
  induction s with
  | nil => rfl
  | cons c s ih =>
    by_cases hc : isBlank c = true
    · rw [List.dropWhile_cons_of_pos hc, ih]
      simp [solid, hc]
    · rw [List.dropWhile_cons_of_neg hc]

theorem solid_reverse (s : List Char) : solid s.reverse = (solid s).reverse :=
  List.filter_reverse ..

theorem solid_trim (s : List Char) : solid (trim s) = solid s := by
  rw [trim, solid_reverse, solid_dropWhile, solid_reverse, solid_dropWhile, List.reverse_reverse]

theorem append_of_operatorAt {s rest : List Char} {word : String}
    (h : operatorAt s = some (word, rest)) : word.toList ++ rest = s := by
  obtain ⟨w, -, hfound⟩ := List.exists_of_findSome?_eq_some h
  split at hfound
  · next hbegins =>
    cases hfound
    rw [← String.length_toList]
    exact List.prefix_iff_eq_append.1 (List.isPrefixOf_iff_prefix.1 hbegins)
  · cases hfound

-- Along the scan: an operator takes its own characters and the blanks before it, any other
-- character moves over to what stands before the next cut.
theorem solid_cutAtOperators (before s : List Char) :
    (cutAtOperators before s).flatMap (fun text => solid text.toList) =
      solid before.reverse ++ solid s := by
  fun_induction cutAtOperators before s with
  | case1 before => simp [solid]
  | case2 before c rest hc word after hfound ih =>
    have hblank : solid (c :: rest) = solid rest := by simp [solid, hc]
    have hrest : solid rest = solid word.toList ++ solid after := by
      rw [← solid_dropWhile, ← append_of_operatorAt hfound, solid_append]
    rw [List.flatMap_cons, List.flatMap_cons, ih, String.toList_ofList, hblank, hrest]
    rfl
  | case3 before c rest hc hnone ih =>
    rw [ih, List.reverse_cons, solid_append, List.append_assoc, ← solid_append]
    rfl
  | case4 before c rest hc ih =>
    rw [ih, List.reverse_cons, solid_append, List.append_assoc, ← solid_append]
    rfl

theorem solid_trimmed? (text : String) :
    (trimmed? text).elim [] (fun token => solid token.toList) = solid text.toList := by
  rw [← solid_trim, trimmed?]
  split
  · next hempty => simp [List.isEmpty_iff.1 hempty, solid]
  · simp

/-- What is cut and trimmed away are blanks. -/
theorem solid_kept (texts : List String) :
    (kept texts).flatMap (fun token => solid token.toList) =
      texts.flatMap (fun text => solid text.toList) := by
  induction texts with
  | nil => rfl
  | cons text texts ih =>
    rw [List.flatMap_cons, ← ih, ← solid_trimmed?]
    cases htext : trimmed? text with
    | none => simp [kept, htext]
    | some token => rw [kept_cons htext, List.flatMap_cons]; rfl

theorem solid_blankGroups (s : List Char) :
    solid (blankGroups s) = s.filter fun c => !isBlank c && !isParenthesis c := by
  induction s with
  | nil => rfl
  | cons c s ih =>
    have hcons : blankGroups (c :: s) =
        (if isParenthesis c then ' ' else c) :: blankGroups s := rfl
    rw [hcons]
    cases hc : isParenthesis c with
    | true =>
      have hspace : solid (' ' :: blankGroups s) = solid (blankGroups s) := rfl
      rw [if_pos rfl, hspace, ih, List.filter_cons_of_neg (by simp [hc])]
    | false =>
      rw [if_neg Bool.false_ne_true, List.filter_cons, ← ih]
      simp [solid, List.filter_cons, hc]

/-- What is cut from an expression. -/
theorem solid_cut (expression : String) :
    solid ((cutAtOperators [] (blankGroups expression.toList)).flatMap String.toList) =
      expression.toList.filter fun c => !isBlank c && !isParenthesis c := by
  rw [← solid_blankGroups, solid, List.filter_flatMap]
  exact solid_cutAtOperators [] _

theorem solid_operands (expression : String) :
    solid ((operands expression).flatMap String.toList) =
      expression.toList.filter fun c => !isBlank c && !isParenthesis c := by
  rw [← solid_cut, solid, solid, List.filter_flatMap, List.filter_flatMap]
  exact solid_kept _

/-! ## Neighbours -/

/-- What is wanted after texts: the last of them tells, if there is one. -/
def wantedAfter (wanted : Wanted) (before : List String) : Wanted :=
  match before.getLast? with
  | none => wanted
  | some last => if last ∈ operatorWords then .after last else .nothing

/-- The operands among texts, each with what it is wanted for. -/
def placed (wanted : Wanted) : List String → List (Wanted × String)
  | [] => []
  | text :: rest =>
    if text ∈ operatorWords then placed (.after text) rest
    else (wanted, text) :: placed .nothing rest

/-- The texts begin with an operand. -/
def BeginsOperand (texts : List String) : Prop := ∃ x rest, texts = x :: rest ∧ x ∉ operatorWords

/-- The texts end in an operator that takes an exception. -/
def EndsInWith (texts : List String) : Prop :=
  texts.getLast? = some "with" ∨ texts.getLast? = some "WITH"

/-- The license that a text names: the text without an or-later mark at its end. -/
def Names (text license : String) : Prop :=
  text = license ++ "+" ∨ text = license ∧ text.toList.getLast? ≠ some '+'

theorem wantedAfter_cons (wanted : Wanted) (text : String) (before : List String) :
    wantedAfter wanted (text :: before) =
      wantedAfter (if text ∈ operatorWords then .after text else .nothing) before := by
  cases before with
  | nil => rfl
  | cons next before => rfl

theorem after_ne_nothing (word : String) : Wanted.after word ≠ .nothing := by
  unfold Wanted.after
  split <;> decide

theorem wantedAfter_eq_exception_iff {before : List String} :
    wantedAfter .nothing before = .exception ↔ EndsInWith before := by
  unfold wantedAfter EndsInWith
  cases before.getLast? with
  | none => simp
  | some last =>
    by_cases hlast : last ∈ operatorWords
    · simp [hlast, Wanted.after, or_iff_not_imp_left]
    · have hwith : last ≠ "with" ∧ last ≠ "WITH" := by
        constructor <;> rintro rfl <;> exact hlast (by decide)
      simp [hlast, hwith]

theorem names_iff {text license : String} :
    String.ofList (stripOrLater text.toList).1 = license ↔ Names text license := by
  have hmarked : text = license ++ "+" ↔ text.toList = license.toList ++ ['+'] := by
    rw [← String.toList_inj, String.toList_append]
    rfl
  rw [Names, hmarked, stripOrLater]
  split
  · next hplus =>
    obtain ⟨front, hfront⟩ := List.getLast?_eq_some_iff.1 hplus
    simp [hfront, ← String.toList_inj]
  · next hplus =>
    have hnot : text.toList ≠ license.toList ++ ['+'] := by
      intro heq
      simp [heq] at hplus
    simp [hplus, hnot]

/-! ## Places in a row -/

section places

variable {α : Type} {first : α} {rest : List α}

/-- A place in a row is its first one or one in the rest. -/
theorem exists_place_cons {x : α} {P : List α → List α → Prop} :
    (∃ before after, first :: rest = before ++ x :: after ∧ P before after) ↔
      (first = x ∧ P [] rest) ∨
        ∃ before after, rest = before ++ x :: after ∧ P (first :: before) after := by
  constructor
  · rintro ⟨before, after, heq, h⟩
    cases before with
    | nil =>
      cases heq
      exact .inl ⟨rfl, h⟩
    | cons _ before =>
      cases heq
      exact .inr ⟨before, after, rfl, h⟩
  · rintro (⟨rfl, h⟩ | ⟨before, after, rfl, h⟩)
    · exact ⟨[], rest, rfl, h⟩
    · exact ⟨first :: before, after, rfl, h⟩

theorem forall_place_cons {P : α → List α → Prop} :
    (∀ before x after, first :: rest = before ++ x :: after → P x after) ↔
      P first rest ∧ ∀ before x after, rest = before ++ x :: after → P x after := by
  constructor
  · intro h
    refine ⟨h [] first rest rfl, ?_⟩
    rintro before x after rfl
    exact h (first :: before) x after rfl
  · rintro ⟨hfirst, hrest⟩ before x after heq
    cases before with
    | nil =>
      cases heq
      exact hfirst
    | cons _ before =>
      cases heq
      exact hrest before x after rfl

end places

/-! ## Collecting -/

theorem mem_placed {wanted w : Wanted} {x : String} {texts : List String} :
    (w, x) ∈ placed wanted texts ↔ ∃ before after, texts = before ++ x :: after ∧
      x ∉ operatorWords ∧ w = wantedAfter wanted before := by
  induction texts generalizing wanted with
  | nil => simp [placed]
  | cons text texts ih =>
    rw [exists_place_cons]
    simp only [wantedAfter_cons]
    by_cases htext : text ∈ operatorWords
    · have hfirst : ¬ (text = x ∧ x ∉ operatorWords ∧ w = wantedAfter wanted []) := by
        rintro ⟨rfl, hx, -⟩
        exact hx htext
      simp only [placed, if_pos htext, ih, hfirst, false_or]
    · simp only [placed, if_neg htext, List.mem_cons, ih]
      refine or_congr_left ?_
      constructor
      · rintro ⟨⟩
        exact ⟨rfl, htext, rfl⟩
      · rintro ⟨rfl, -, rfl⟩
        rfl

theorem collect_valid_iff {wanted : Wanted} {texts : List String} :
    (collect wanted texts).valid = true ↔ (wanted ≠ .nothing → BeginsOperand texts) ∧
      ∀ before word after, texts = before ++ word :: after → word ∈ operatorWords →
        BeginsOperand after := by
  -- The verdict is the same for all that is wanted but for the first text, so it goes by
  -- the first place and the others.
  induction texts generalizing wanted with
  | nil => simp [collect, BeginsOperand]
  | cons text texts ih =>
    rw [forall_place_cons]
    by_cases htext : text ∈ operatorWords
    · have hbegins : ¬ BeginsOperand (text :: texts) := by
        rintro ⟨x, rest, heq, hx⟩
        cases heq
        exact hx htext
      simp [collect, htext, ih, hbegins, after_ne_nothing]
    · have hbegins : BeginsOperand (text :: texts) := ⟨text, texts, rfl, htext⟩
      have hvalid : (collect wanted (text :: texts)).valid = (collect .nothing texts).valid := by
        rw [collect, if_neg htext]
        dsimp only
        split <;> rfl
      simp [hvalid, ih, htext, hbegins]

theorem collect_exceptions (wanted : Wanted) (texts : List String) :
    (collect wanted texts).exceptions =
      sortedSet (((placed wanted texts).filter (·.1 = .exception)).map Prod.snd) := by
  induction texts generalizing wanted with
  | nil => rfl
  | cons text texts ih =>
    by_cases htext : text ∈ operatorWords
    · simp [collect, placed, htext, ih]
    · by_cases hwanted : wanted = .exception
      · simp [collect, placed, htext, ih, hwanted, sortedSet]
      · simp [collect, placed, htext, ih, hwanted]

theorem collect_licenses (wanted : Wanted) (texts : List String) :
    (collect wanted texts).licenses =
      sortedSet (((placed wanted texts).filter (·.1 ≠ .exception)).map fun place =>
        String.ofList (stripOrLater place.2.toList).1) := by
  induction texts generalizing wanted with
  | nil => rfl
  | cons text texts ih =>
    by_cases htext : text ∈ operatorWords
    · simp [collect, placed, htext, ih]
    · by_cases hwanted : wanted = .exception
      · simp [collect, placed, htext, ih, hwanted]
      · simp [collect, placed, htext, ih, hwanted, sortedSet]

theorem pairwise_insertSorted {name : String} {names : List String}
    (h : names.Pairwise (· < ·)) : (insertSorted name names).Pairwise (· < ·) := by
  induction names with
  | nil => simp [insertSorted]
  | cons first rest ih =>
    obtain ⟨hfirst, hrest⟩ := List.pairwise_cons.1 h
    rw [insertSorted]
    split
    · next hbefore =>
      refine List.pairwise_cons.2 ⟨?_, h⟩
      intro other hother
      rcases List.mem_cons.1 hother with rfl | hother
      · exact hbefore
      · exact String.lt_trans hbefore (hfirst other hother)
    · split
      · exact h
      · next hnot hne =>
        refine List.pairwise_cons.2 ⟨?_, ih hrest⟩
        intro other hother
        rcases mem_insertSorted.1 hother with rfl | hother
        · exact Std.lt_of_le_of_ne (String.not_lt.1 hnot) (Ne.symm hne)
        · exact hfirst other hother

/-- A set lists its names once, in ascending order. -/
theorem pairwise_sortedSet (names : List String) : (sortedSet names).Pairwise (· < ·) := by
  induction names with
  | nil => exact .nil
  | cons first rest ih => exact pairwise_insertSorted ih

/-- **Neighbours.** An expression is valid just when each operator among its operands has
    an operand right after it.  The exceptions are the operands right after a `with`; the
    licenses are the others, without or-later marks.  Each is listed once.  Nothing of the
    expression is lost but blanks and parentheses. -/
theorem extract_neighbours (expression : String) :
    ((extract expression).valid = true ↔
      ∀ before word after, operands expression = before ++ word :: after →
        word ∈ operatorWords → BeginsOperand after) ∧
    (∀ text, text ∈ (extract expression).exceptions ↔
      ∃ before after, operands expression = before ++ text :: after ∧
        text ∉ operatorWords ∧ EndsInWith before) ∧
    (∀ license, license ∈ (extract expression).licenses ↔
      ∃ text before after, operands expression = before ++ text :: after ∧
        text ∉ operatorWords ∧ ¬ EndsInWith before ∧ Names text license) ∧
    (extract expression).exceptions.Pairwise (· < ·) ∧
    (extract expression).licenses.Pairwise (· < ·) ∧
    solid ((cutAtOperators [] (blankGroups expression.toList)).flatMap String.toList) =
      expression.toList.filter (fun c => !isBlank c && !isParenthesis c) ∧
    solid ((operands expression).flatMap String.toList) =
      expression.toList.filter fun c => !isBlank c && !isParenthesis c := by
  refine ⟨?_, ?_, ?_, ?_, ?_, solid_cut expression, solid_operands expression⟩
  · simp [extract, collect_valid_iff]
  · intro text
    rw [extract, collect_exceptions, mem_sortedSet]
    simp [mem_placed, ← wantedAfter_eq_exception_iff, @eq_comm _ Wanted.exception]
  · intro license
    rw [extract, collect_licenses, mem_sortedSet]
    simp [mem_placed, ← wantedAfter_eq_exception_iff, names_iff, and_assoc]
  · rw [extract, collect_exceptions]
    exact pairwise_sortedSet _
  · rw [extract, collect_licenses]
    exact pairwise_sortedSet _

/-- Operators in a row, the first at the beginning, and one that begins a longer word. -/
example : extract "or and b++ with x+ android" =
    { valid := false, licenses := ["b+", "roid"], exceptions := ["x+"] } := by
  decide +kernel

end BillOfMaterials.License
