import BillOfMaterials.Proofs.License.Reading

/-! # The leaves of a tree that is read

    Joining trees keeps their leaves in order, so neither the operators nor the
    parentheses of an expression matter for the leaves: they are the identifiers
    in the order in which they are read, each with the exceptions that are glued
    to it.

    * `leafTexts` is what words do to the texts of the leaves so far.
    * `leafTexts_runs`: reading words does just that to the trees on the stack.
    * `leaves_of_parse` tells the leaves of a tree that is read. -/

namespace BillOfMaterials.License

open Stacks

/-! ## Leaves and joining -/

theorem leavesOf_eq (trees : List License) : leavesOf trees = trees.flatMap leaves := by
  induction trees with
  | nil => simp [leavesOf]
  | cons tree trees ih => simp [leavesOf, ih]

theorem flatMap_leaves_operandsFor (p : Polarity) (tree : License) :
    (operandsFor p tree).flatMap leaves = tree.leaves := by
  cases tree with
  | leaf text => simp
  | set q parts =>
    by_cases h : q = p
    · subst h
      simp [leaves, leavesOf_eq]
    · simp [operandsFor_ne h]

theorem leaves_join (p : Polarity) (left right : License) :
    (join p left right).leaves = left.leaves ++ right.leaves := by
  simp [join, leaves, leavesOf_eq, flatMap_leaves_operandsFor]

/-! ## Leaves on the stack -/

/-- The texts of the leaves on a stack of trees, newest first. -/
def newestLeaves (trees : List License) : List String := trees.flatMap fun tree => tree.leaves.reverse

theorem newestLeaves_joinTop {p : Polarity} {trees joined : List License}
    (h : joinTop p trees = some joined) : newestLeaves joined = newestLeaves trees := by
  obtain ⟨right, left, rest, rfl, rfl⟩ := joinTop_eq_some h
  simp [newestLeaves, leaves_join]

theorem newestLeaves_joinTops {ops : List Polarity} {trees left : List License}
    (h : joinTops ops trees = some left) : newestLeaves left = newestLeaves trees :=
  joinTops_keeps (I := fun stack => newestLeaves stack = newestLeaves trees)
    (fun heq hj => (newestLeaves_joinTop hj).trans heq) rfl h

/-! ## Leaves and words -/

/-- The texts of the leaves, newest first, after further words.  An identifier is a
    leaf of its own, unless it follows `WITH`. -/
def leafTexts : List String → List Token → List String
  | texts, [] => texts
  | text :: texts, .exception :: .identifier exception :: rest =>
    leafTexts ((text ++ withSeparator ++ exception) :: texts) rest
  | texts, .identifier text :: rest => leafTexts (text :: texts) rest
  | texts, _ :: rest => leafTexts texts rest

theorem leafTexts_runs {ts : List Token} {s s' : Stacks} (h : Runs ts s s') :
    newestLeaves s'.trees = leafTexts (newestLeaves s.trees) ts := by
  induction h with
  | done => simp [leafTexts]
  | identifier _ ih => rw [ih]; simp [leafTexts, newestLeaves, leaves]
  | openGroup _ ih => rw [ih]; simp [leafTexts]
  | closeGroup hj _ ih => rw [ih, newestLeaves_joinTops hj]; simp [leafTexts]
  | operator _ _ hj _ ih => rw [ih, newestLeaves_joinTops hj]; simp [leafTexts]
  | glue _ ih => rw [ih]; simp [leafTexts, newestLeaves, leaves]

/-- **Leaves.** The leaves of a tree that is read are the identifiers of the text in
    order, each with its exceptions. -/
theorem leaves_of_parse {text : String} {tree : License} (h : parse text = some tree) :
    tree.leaves.reverse = leafTexts [] (Token.scan text.toList) := by
  obtain ⟨trees, ops, hrun, hj⟩ := treesOf_eq_some_iff.1 (ofTokens_eq_some_iff.1 h)
  have hleft := newestLeaves_joinTops hj
  have hread := leafTexts_runs hrun
  rw [← hleft] at hread
  simpa [newestLeaves, Stacks.empty] using hread

end BillOfMaterials.License
