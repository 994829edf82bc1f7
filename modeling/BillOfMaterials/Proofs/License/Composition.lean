import BillOfMaterials.Proofs.License.Members

/-! # What a license list means

    A collection is read as one text, yet its tree is made from the trees of
    its elements: each element stands in parentheses, so its words leave the
    same trees as alone, and the container's operator only ever joins whole
    elements.

    * `meaning?` is the tree of a declaration whose texts are read separately.
    * `Readable`: every text is read on its own and no collection is empty.
    * `parse_combined`: a collection of elements that are read joins their
      trees from the left.
    * `parse_meaning`: reading the flattened text of a readable declaration
      gives its meaning. -/

namespace BillOfMaterials.LicenseInput

open License License.Stacks

/-! ## Meaning -/

/-- The tree of a collection from the trees of its elements: they are joined
    from the left, and a lone tree stands for itself. -/
def joined? (p : Polarity) : List License → Option License
  | [] => none
  | first :: rest => some (rest.foldl (join p) first)

mutual

/-- The tree that a declaration means: each text is read separately, and a
    collection joins the trees of its elements. -/
def meaning? : LicenseInput → Option License
  | .expression text => License.parse text
  | .combined p elements => (meanings? elements).bind (joined? p)

/-- The trees that several declarations mean; none unless each has one. -/
def meanings? : List LicenseInput → Option (List License)
  | [] => some []
  | element :: rest =>
    (meaning? element).bind fun tree => (meanings? rest).map (tree :: ·)

end

/-- No collection is empty and every text is read on its own. -/
inductive Readable : LicenseInput → Prop where
  | expression {text : String} : (License.parse text).isSome = true → Readable (.expression text)
  | combined {p : Polarity} {elements : List LicenseInput} : elements ≠ [] →
      (∀ x ∈ elements, Readable x) → Readable (.combined p elements)

theorem exists_meanings? {elements : List LicenseInput}
    (h : ∀ x ∈ elements, ∃ tree, x.meaning? = some tree) :
    ∃ trees, meanings? elements = some trees ∧ trees.length = elements.length := by
  induction elements with
  | nil => exact ⟨[], by simp [meanings?], rfl⟩
  | cons x rest ih =>
    obtain ⟨tree, htree⟩ := h x (by simp)
    obtain ⟨trees, htrees, hlength⟩ := ih fun y hy => h y (by simp [hy])
    refine ⟨tree :: trees, ?_, by simp [hlength]⟩
    simp [meanings?, htree, htrees]

/-- Readable declarations have a meaning. -/
theorem Readable.exists_meaning? {input : LicenseInput} (h : input.Readable) :
    ∃ tree, input.meaning? = some tree := by
  induction h with
  | expression hparse =>
    obtain ⟨tree, htree⟩ := Option.isSome_iff_exists.1 hparse
    exact ⟨tree, by simpa [meaning?] using htree⟩
  | @combined p elements hne _ ih =>
    obtain ⟨trees, htrees, hlength⟩ := exists_meanings? ih
    cases trees with
    | nil =>
      -- Only an empty collection leaves nothing to join.
      exact absurd (List.eq_nil_of_length_eq_zero hlength.symm) hne
    | cons first rest =>
      refine ⟨rest.foldl (join p) first, ?_⟩
      simp [meaning?, htrees, joined?]

/-! ## Reading -/

/-- A declaration of one text is read as this text. -/
theorem parse_expression (text : String) : (expression text).parse = License.parse text := by
  apply Option.ext
  intro tree
  rw [parse_eq_some_iff, ← ofTokens_eq_some_iff]
  rfl

/-- **Elements.** When each element of a collection is read on its own, the
    collection is read as their trees, joined from the left. -/
theorem parse_combined {p : Polarity} {first : LicenseInput × License}
    {rest : List (LicenseInput × License)}
    (h : ∀ element ∈ first :: rest, element.1.parse = some element.2) :
    (combined p ((first :: rest).map Prod.fst)).parse =
      some ((rest.map Prod.snd).foldl (join p) first.2) := by
  -- Each element is a group, so it may stand between operators of any class.
  have hchain : Reads (ReleasedBy p) _ [(rest.map Prod.snd).foldl (join p) first.2] :=
    reads_chain fun element helement =>
      reads_group (parse_eq_some_iff.1 (h element helement)) (Tighter p)
  rw [parse_eq_some_iff, words_combined, List.map_cons, words_flattenElements, List.flatMap_map]
  exact (reads_group hchain.treesOf_eq (Tighter p)).treesOf_eq

mutual

/-- A declaration is read as the tree that it means. -/
theorem parse_of_meaning? : ∀ (input : LicenseInput) {tree : License},
    input.meaning? = some tree → input.parse = some tree
  | .expression text, tree, h => by
    rw [parse_expression]
    simpa [meaning?] using h
  | .combined p elements, tree, h => by
    rw [meaning?] at h
    obtain ⟨trees, htrees, hjoined⟩ := Option.bind_eq_some_iff.1 h
    obtain ⟨read, helements, rfl, hread⟩ := exists_read_of_meanings? elements htrees
    match read with
    | [] => simp [joined?] at hjoined
    | first :: rest =>
      obtain rfl : (rest.map Prod.snd).foldl (join p) first.2 = tree := by
        simpa [joined?] using hjoined
      rw [← helements]
      exact parse_combined hread

/-- Each of several elements is read as the tree that it means. -/
theorem exists_read_of_meanings? : ∀ (elements : List LicenseInput) {trees : List License},
    meanings? elements = some trees → ∃ read : List (LicenseInput × License),
      read.map Prod.fst = elements ∧ read.map Prod.snd = trees ∧
        ∀ element ∈ read, element.1.parse = some element.2
  | [], trees, h => by
    obtain rfl : [] = trees := by simpa [meanings?] using h
    exact ⟨[], rfl, rfl, by simp⟩
  | x :: xs, trees, h => by
    rw [meanings?] at h
    obtain ⟨tree, htree, hrest⟩ := Option.bind_eq_some_iff.1 h
    obtain ⟨others, hothers, rfl⟩ := Option.map_eq_some_iff.1 hrest
    have hx := parse_of_meaning? x htree
    obtain ⟨read, hfst, hsnd, hread⟩ := exists_read_of_meanings? xs hothers
    refine ⟨(x, tree) :: read, by simp [hfst], by simp [hsnd], ?_⟩
    simpa [hx] using hread

end

/-- **Composition.** A readable declaration is read as what it means: a list as
    the choice among its elements' own trees and a tuple as all of them, however
    deep they nest.  A collection of one element is read as this element. -/
theorem parse_meaning (input : LicenseInput) (h : input.Readable) :
    ∃ tree, input.meaning? = some tree ∧ input.parse = some tree ∧
      ∀ p, (combined p [input]).parse = some tree := by
  obtain ⟨tree, htree⟩ := h.exists_meaning?
  have hparse := parse_of_meaning? input htree
  refine ⟨tree, htree, hparse, ?_⟩
  intro p
  have hsingle : ∀ element ∈ [(input, tree)], element.1.parse = some element.2 := by
    simpa using hparse
  simpa using parse_combined (p := p) hsingle

/-- A tuple inside a list.  One text has its operator in front, which no grammar
    derives, and still the operator joins nothing outside of its element. -/
theorem parse_meaning_nested :
    let input : LicenseInput := .combined .any
      [.combined .all [.expression "OR a b", .expression "c and d"], .expression "e WITH x",
        .combined .all [.expression "f or g"]]
    input.Readable ∧ input.parse = some (.set .any
      [.set .all [.set .any [.leaf "a", .leaf "b"], .leaf "c", .leaf "d"], .leaf "e WITH x",
        .leaf "f", .leaf "g"]) := by
  intro input
  have htuple : (LicenseInput.combined .all
      [.expression "OR a b", .expression "c and d"]).Readable :=
    .combined (by simp) (by simpa using ⟨.expression rfl, .expression rfl⟩)
  have hsingle : (LicenseInput.combined .all [.expression "f or g"]).Readable :=
    .combined (by simp) (by simpa using .expression rfl)
  have h : input.Readable :=
    .combined (by simp) (by simpa using ⟨htuple, .expression rfl, hsingle⟩)
  obtain ⟨tree, hmeaning, hparse, -⟩ := parse_meaning input h
  have htree : input.meaning? = some (.set .any
      [.set .all [.set .any [.leaf "a", .leaf "b"], .leaf "c", .leaf "d"], .leaf "e WITH x",
        .leaf "f", .leaf "g"]) := rfl
  rw [hmeaning] at htree
  exact ⟨h, hparse.trans htree⟩

end BillOfMaterials.LicenseInput
