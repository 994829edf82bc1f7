import BillOfMaterials.Proofs.License.Layout
import BillOfMaterials.Proofs.License.Reading
import BillOfMaterials.License.Input

/-! # When a license list exposes its members

    A collection is read as one text, so a member that lacks an operand can take
    one from a member that has too many.  A member stands alone if it takes
    nothing from around it; then it can still have too many operands, but
    nobody is there to take them.

    * `StandsAlone`: read alone, a member gives one tree or more.
    * `exists_reads_chain`: members that stand alone give one tree together
      just when each of them gives one.
    * `parse_combined_iff`: a collection of members that stand alone is read
      just when every member is. -/

namespace BillOfMaterials

open License License.Stacks

/-! ## Chains of readings -/

namespace License.Stacks

/-- Joining takes one tree away. -/
theorem exists_joinTop {left right : List License} (hl : left ≠ []) (hr : right ≠ [])
    (p : Polarity) : ∃ joined, joinTop p (right ++ left) = some joined ∧
      joined.length + 1 = right.length + left.length := by
  match right, left with
  | [r], l :: left => exact ⟨_, rfl, by simp; omega⟩
  | r :: r' :: right, left => exact ⟨_, rfl, by simp; omega⟩

/-- Each further operand may add more than one tree.  One tree is left just when
    each operand adds one. -/
theorem Reads.exists_chain {α : Type} {p : Polarity} {words : α → List Token}
    {trees : α → List License} {rest : List α} {ts : List Token} {left : List License}
    (hleft : Reads (ReleasedBy p) ts left) (hne : left ≠ [])
    (h : ∀ x ∈ rest, Reads (Tighter p) (words x) (trees x) ∧ trees x ≠ []) :
    ∃ joined, Reads (ReleasedBy p) (ts ++ rest.flatMap fun x => .operator p :: words x) joined ∧
      (joined.length = 1 ↔ left.length = 1 ∧ ∀ x ∈ rest, (trees x).length = 1) := by
  induction rest generalizing ts left with
  | nil => exact ⟨left, by simpa using hleft, by simp⟩
  | cons x rest ih =>
    obtain ⟨hright, hright_ne⟩ := h x (by simp)
    obtain ⟨both, hboth, hlength⟩ := exists_joinTop hne hright_ne p
    -- Neither side is empty, so one joined tree means one tree on each side.
    have hl := List.length_pos_iff.2 hne
    have hr := List.length_pos_iff.2 hright_ne
    have hboth_ne : both ≠ [] := List.ne_nil_of_length_pos (by omega)
    obtain ⟨joined, hreads, hjoined⟩ :=
      ih (hleft.operator hright hboth) hboth_ne fun y hy => h y (by simp [hy])
    refine ⟨joined, by simpa using hreads, hjoined.trans ?_⟩
    simp only [List.mem_cons, forall_eq_or_imp, ← and_assoc]
    exact and_congr_left fun _ => by omega

/-- A chain of operands of which each adds one tree or more leaves one tree just
    when each operand adds one. -/
theorem exists_reads_chain {α : Type} {p : Polarity} {words : α → List Token}
    {trees : α → List License} {first : α} {rest : List α}
    (h : ∀ x ∈ first :: rest, Reads (Tighter p) (words x) (trees x) ∧ trees x ≠ []) :
    ∃ joined, Reads (ReleasedBy p)
        (words first ++ rest.flatMap fun x => .operator p :: words x) joined ∧
      (joined.length = 1 ↔ ∀ x ∈ first :: rest, (trees x).length = 1) := by
  obtain ⟨hfirst, hfirst_ne⟩ := h first (by simp)
  have hrest : ∀ x ∈ rest, Reads (Tighter p) (words x) (trees x) ∧ trees x ≠ [] :=
    fun x hx => h x (by simp [hx])
  obtain ⟨joined, hreads, hjoined⟩ :=
    (hfirst.mono fun _ => Tighter.releasedBy).exists_chain hfirst_ne hrest
  exact ⟨joined, hreads, by simpa using hjoined⟩

end License.Stacks

/-! ## Members -/

namespace LicenseInput

/-- The words of a declaration. -/
def words (input : LicenseInput) : List Token := Token.scan input.flatten.toList

theorem words_flattenElements (p : Polarity) (first : LicenseInput) (rest : List LicenseInput) :
    Token.scan (flattenElements p (first :: rest)).toList =
      (.openGroup :: first.words ++ [.closeGroup]) ++
        rest.flatMap fun x => .operator p :: (.openGroup :: x.words ++ [.closeGroup]) := by
  induction rest generalizing first with
  | nil => simpa [flattenElements, words] using scan_group first.flatten.toList
  | cons next rest ih =>
    have hgroup := scan_group first.flatten.toList
    have hnext := scan_operator p ('(' :: first.flatten.toList ++ [')'])
      (flattenElements p (next :: rest)).toList
    rw [ih, hgroup] at hnext
    simpa [flattenElements, words] using hnext

theorem words_combined (p : Polarity) (elements : List LicenseInput) :
    (combined p elements).words =
      .openGroup :: Token.scan (flattenElements p elements).toList ++ [.closeGroup] := by
  simpa [words, flatten] using scan_group (flattenElements p elements).toList

/-- A blank text and an empty collection have no tree, so every declaration is
    read as its flattened text. -/
theorem parse_eq_some_iff {input : LicenseInput} {tree : License} :
    input.parse = some tree ↔ treesOf input.words = some [tree] := by
  rw [← ofTokens_eq_some_iff]
  cases input with
  | expression text =>
    by_cases hblank : Text.isAllBlank text.toList = true
    · have hscan := scan_append_of_isAllBlank hblank []
      rw [List.append_nil, scan_nil] at hscan
      simp [parse, toExpression, hblank, words, flatten, hscan, ofTokens, Stacks.empty, finish,
        releaseAll]
    · simp [parse, toExpression, hblank, words, flatten, License.parse]
  | combined p elements =>
    cases elements with
    | nil =>
      have hnone : ofTokens (combined p []).words = none := by
        rw [words_combined]
        simp [flattenElements]
        rfl
      simp [parse, toExpression, hnone]
    | cons => simp [parse, toExpression, words, License.parse]

/-! ## Members that stand alone -/

/-- Read on its own, the member takes no operand and no parenthesis from around
    it and gives one tree or more. -/
def StandsAlone (input : LicenseInput) : Prop :=
  ∃ trees, treesOf input.words = some trees ∧ trees ≠ []

theorem standsAlone_of_parse {input : LicenseInput} (h : input.parse.isSome = true) :
    input.StandsAlone := by
  obtain ⟨tree, htree⟩ := Option.isSome_iff_exists.1 h
  exact ⟨[tree], parse_eq_some_iff.1 htree, by simp⟩

/-- A member that stands alone is read just when it gives one tree. -/
theorem parse_isSome_iff {input : LicenseInput} {trees : List License}
    (h : treesOf input.words = some trees) : input.parse.isSome = true ↔ trees.length = 1 := by
  rw [Option.isSome_iff_exists]
  constructor
  · rintro ⟨tree, htree⟩
    rw [parse_eq_some_iff, h] at htree
    simp only [Option.some.injEq] at htree
    simp [htree]
  · intro hlength
    obtain ⟨tree, rfl⟩ := List.length_eq_one_iff.1 hlength
    exact ⟨tree, parse_eq_some_iff.2 h⟩

/-- Members that stand alone do not help each other. -/
theorem parse_combined_isSome_iff {p : Polarity} {elements : List LicenseInput}
    (hne : elements ≠ []) (h : ∀ x ∈ elements, x.StandsAlone) :
    (combined p elements).parse.isSome = true ↔ ∀ x ∈ elements, x.parse.isSome = true := by
  match elements with
  | [] => exact absurd rfl hne
  | first :: rest =>
    -- The trees that a member gives on its own.
    let trees (x : LicenseInput) : List License := (treesOf x.words).getD []
    have htrees : ∀ x ∈ first :: rest, treesOf x.words = some (trees x) ∧ trees x ≠ [] := by
      intro x hx
      obtain ⟨left, hleft, hleft_ne⟩ := h x hx
      simpa [trees, hleft] using hleft_ne
    obtain ⟨joined, hreads, hjoined⟩ := exists_reads_chain (p := p) fun x hx =>
      ⟨reads_group (htrees x hx).1 (Tighter p), (htrees x hx).2⟩
    rw [← words_flattenElements] at hreads
    have hwhole : treesOf (combined p (first :: rest)).words = some joined := by
      rw [words_combined]
      exact (reads_group hreads.treesOf_eq (Tighter p)).treesOf_eq
    rw [parse_isSome_iff hwhole, hjoined]
    exact forall₂_congr fun x hx => (parse_isSome_iff (htrees x hx).1).symm

/-- **Members of a collection.** A collection is read and all its members stand
    alone just when it has members and each of them is read on its own. -/
theorem parse_combined_iff (p : Polarity) (elements : List LicenseInput) :
    ((combined p elements).parse.isSome = true ∧ ∀ x ∈ elements, x.StandsAlone) ↔
      elements ≠ [] ∧ ∀ x ∈ elements, x.parse.isSome = true := by
  constructor
  · rintro ⟨hparse, halone⟩
    have hne : elements ≠ [] := by
      rintro rfl
      simp [parse, toExpression] at hparse
    exact ⟨hne, (parse_combined_isSome_iff hne halone).1 hparse⟩
  · rintro ⟨hne, hmembers⟩
    have halone : ∀ x ∈ elements, x.StandsAlone := fun x hx => standsAlone_of_parse (hmembers x hx)
    exact ⟨(parse_combined_isSome_iff hne halone).2 hmembers, halone⟩

/-- Two members that are not read: the second operand of the first is joined
    with the other by the operator that stands before nothing. -/
theorem parse_blank_member :
    (anyOf ["a b", ""]).parse.isSome = true ∧ (expression "a b").parse = none ∧
      (expression "").parse = none := by
  refine ⟨?_, ?_, ?_⟩ <;> rfl

end LicenseInput

end BillOfMaterials
