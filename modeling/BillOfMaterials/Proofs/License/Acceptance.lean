import BillOfMaterials.Proofs.License.Composition
import BillOfMaterials.Proofs.License.Leaves
import BillOfMaterials.Proofs.License.RoundTrip

/-! # What a tree keeps of the words

    Many words are read that no grammar derives, such as `AND a b` or `() a`.  Still
    the tree is as good as that of a derivation: it is normal, each identifier of the
    text is in it once and in its place, and each operator has joined two trees.

    * `normal_iff_read`: the trees that are read are just the normal ones.
    * `names` takes a leaf's text apart; `names_leafTexts`: from the leaves, the
      identifiers of the words come back.
    * `Stacks.joins` are the joins made and still to be made; `joins_of_runs`: reading
      adds one for each operator.
    * `words_of_parse`: a tree has the identifiers of its text in order, and one leaf
      more than the text has operators. -/

namespace BillOfMaterials.License

open Stacks Text

/-! ## Normal trees -/

/-- **Normal form.** The trees that are read, from a text or from a declaration, are
    just the normal ones, and joining keeps trees normal. -/
theorem normal_iff_read :
    (∀ tree : License, Normal tree ↔ ∃ text, parse text = some tree) ∧
      (∀ tree : License, Normal tree ↔ ∃ input : LicenseInput, input.parse = some tree) ∧
      ∀ (p : Polarity) (left right : License), Normal left → Normal right →
        Normal (join p left right) := by
  have hread : ∀ tree : License, Normal tree → parse tree.render = some tree :=
    fun tree h => ofTokens_eq_some_iff.2 h.treesOf_render
  refine ⟨fun tree => ⟨fun h => ?_, ?_⟩, fun tree => ⟨fun h => ?_, ?_⟩, ?_⟩
  · exact ⟨tree.render, hread tree h⟩
  · rintro ⟨text, htree⟩
    exact normal_of_parse htree
  · exact ⟨.expression tree.render, (LicenseInput.parse_expression _).trans (hread tree h)⟩
  · rintro ⟨input, htree⟩
    exact LicenseInput.normal_of_parse htree
  · intro p left right hl hr
    exact hl.join hr p

/-- An operator without an operand after it and a leaf with two exceptions, from a
    text and from a list. -/
theorem normal_iff_read_misplaced :
    let clause : License := .leaf "c WITH e WITH f"
    let choice : License := .set .any [.leaf "a", .leaf "b"]
    Normal (.set .all [choice, clause]) ∧ Normal (.set .any [.leaf "a", .leaf "b", clause]) ∧
      Normal (join .any choice choice) := by
  intro clause choice
  have htext : parse "() (a b or) c WITH e with f AND" = some (.set .all [choice, clause]) := rfl
  have hlist : (LicenseInput.anyOf ["OR a b", "c WITH e with f"]).parse =
      some (.set .any [.leaf "a", .leaf "b", clause]) := rfl
  have hchoice : parse "a or b" = some choice := rfl
  have hnormal : Normal choice := (normal_iff_read.1 choice).2 ⟨_, hchoice⟩
  exact ⟨(normal_iff_read.1 _).2 ⟨_, htext⟩, (normal_iff_read.2.1 _).2 ⟨_, hlist⟩,
    normal_iff_read.2.2 .any choice choice hnormal hnormal⟩

/-! ## The identifiers in a leaf -/

/-- What stands between the occurrences of `WITH` in a leaf's text. -/
def names (text : List Char) : List String :=
  match _found : cutAt withSeparator.toList text with
  | none => [String.ofList text]
  | some (name, rest) => String.ofList name :: names rest
  termination_by text.length
  decreasing_by
    have hlength := congrArg List.length (append_of_cutAt _found)
    simp only [List.length_append, withSeparator, String.length_toList] at hlength
    have : " WITH ".length = 6 := rfl
    omega

theorem names_of_none {text : List Char} (h : cutAt withSeparator.toList text = none) :
    names text = [String.ofList text] := by
  rw [names]
  split
  · rfl
  · next hsome => simp [h] at hsome

theorem names_of_some {text name rest : List Char}
    (h : cutAt withSeparator.toList text = some (name, rest)) :
    names text = String.ofList name :: names rest := by
  rw [names]
  split
  · next hnone => simp [h] at hnone
  · next hsome =>
    rw [h] at hsome
    cases hsome
    rfl

theorem glued_append (front text : String) (exceptions : List String) :
    glued (front ++ text) exceptions = front ++ glued text exceptions := by
  induction exceptions generalizing text with
  | nil => rfl
  | cons e exceptions ih =>
    have hrest := ih (text ++ withSeparator ++ e)
    simpa [glued, String.append_assoc] using hrest

/-- Gluing is undone: an identifier has no blank, so the first blank of the text begins
    the first separator. -/
theorem names_glued (name : Identifier) (exceptions : List Identifier) :
    names (glued name.text (exceptions.map Identifier.text)).toList =
      (name :: exceptions).map Identifier.text := by
  have hspace := ne_space_of_isIdentifier name.isIdentifier
  induction exceptions generalizing name with
  | nil =>
    have hcut : cutAt withSeparator.toList name.text.toList = none :=
      cutAt_eq_none hspace "WITH ".toList
    simp [glued, names_of_none hcut]
  | cons e exceptions ih =>
    have hrest := ih e (ne_space_of_isIdentifier e.isIdentifier)
    have htext : glued name.text ((e :: exceptions).map Identifier.text) =
        name.text ++ withSeparator ++ glued e.text (exceptions.map Identifier.text) :=
      glued_append (name.text ++ withSeparator) e.text _
    have hcut : cutAt withSeparator.toList (name.text.toList ++ (withSeparator.toList ++
        (glued e.text (exceptions.map Identifier.text)).toList)) = some (name.text.toList, _) :=
      cutAt_mark_append hspace "WITH ".toList _
    rw [htext, String.toList_append, String.toList_append, List.append_assoc, names_of_some hcut,
      hrest]
    simp

/-- One more exception is one more identifier. -/
theorem names_attach {text : String} (h : Normal (.leaf text)) (exception : Identifier) :
    names (text ++ withSeparator ++ exception.text).toList =
      names text.toList ++ [exception.text] := by
  cases h with
  | leaf name exceptions =>
    have htext : glued name.text ((exceptions ++ [exception]).map Identifier.text) =
        glued name.text (exceptions.map Identifier.text) ++ withSeparator ++ exception.text := by
      simp [glued]
    rw [← htext, names_glued, names_glued]
    simp

/-! ## Identifiers -/

/-- The text of an identifier. -/
def Token.identifier? : Token → Option String
  | .identifier text => some text
  | _ => none

@[simp] theorem identifier?_identifier (text : String) :
    (Token.identifier text).identifier? = some text := rfl

@[simp] theorem identifier?_exception : Token.exception.identifier? = none := rfl

/-- What is taken apart are the leaves so far and then the identifiers in the order of
    the words, glued or not. -/
theorem names_leafTexts {texts : List String} {ts : List Token}
    (htexts : ∀ text ∈ texts, Normal (.leaf text))
    (hids : ∀ name, .identifier name ∈ ts → IsIdentifier name) :
    ((leafTexts texts ts).reverse.flatMap fun text => names text.toList) =
      (texts.reverse.flatMap fun text => names text.toList) ++
        ts.filterMap Token.identifier? := by
  fun_induction leafTexts texts ts with
  | case1 texts => simp
  | case2 text texts exception rest ih =>
    have hexception : IsIdentifier exception := hids exception (by simp)
    obtain ⟨htext, hothers⟩ := List.forall_mem_cons.1 htexts
    have hattach := names_attach htext ⟨exception, hexception⟩
    have hglued := htext.attach ⟨exception, hexception⟩
    rw [ih (List.forall_mem_cons.2 ⟨hglued, hothers⟩) fun name h => hids name (by simp [h]),
      List.reverse_cons, List.flatMap_append, List.flatMap_singleton, hattach]
    simp [List.filterMap_cons]
  | case3 texts name rest ih =>
    have hname : IsIdentifier name := hids name (by simp)
    have hsingle : names name.toList = [name] := names_glued ⟨name, hname⟩ []
    have hleaf : Normal (.leaf name) := .leaf ⟨name, hname⟩ []
    rw [ih (List.forall_mem_cons.2 ⟨hleaf, htexts⟩) fun name h => hids name (by simp [h])]
    simp [hsingle]
  | case4 texts t rest _ hother ih =>
    have hnone : t.identifier? = none := by
      cases t with
      | identifier name => exact absurd rfl (hother name)
      | _ => rfl
    rw [ih htexts fun name h => hids name (by simp [h]), List.filterMap_cons_none hnone]

/-! ## Operators -/

def Token.isOperator : Token → Bool
  | .operator _ => true
  | _ => false

namespace Stacks

/-- How many operators wait. -/
def operators (waiting : List Waiting) : Nat := waiting.countP (· ≠ .group)

@[simp] theorem operators_group (waiting : List Waiting) :
    operators (.group :: waiting) = operators waiting := by
  simp [operators]

@[simp] theorem operators_operator (p : Polarity) (waiting : List Waiting) :
    operators (.operator p :: waiting) = operators waiting + 1 := by
  simp [operators]

@[simp] theorem operators_append (ops : List Polarity) (waiting : List Waiting) :
    operators (ops.map .operator ++ waiting) = ops.length + operators waiting := by
  induction ops with
  | nil => simp
  | cons p ops ih =>
    rw [List.map_cons, List.cons_append, operators_operator, ih, List.length_cons]
    omega

/-- The joins in the trees on a stack, in which all leaves but one of each tree were
    joined, and those that the waiting operators will make. -/
def joins (s : Stacks) : Int :=
  (newestLeaves s.trees).length - s.trees.length + operators s.waiting

/-- A new leaf is joined with nothing. -/
@[simp] theorem joins_leaf (text : String) (trees : List License) (waiting : List Waiting) :
    joins { trees := .leaf text :: trees, waiting } = joins { trees, waiting } := by
  have hleaves : newestLeaves (.leaf text :: trees) = text :: newestLeaves trees := by
    simp [newestLeaves, leaves]
  simp only [joins, hleaves, List.length_cons]
  omega

@[simp] theorem joins_group (trees : List License) (waiting : List Waiting) :
    joins { trees, waiting := .group :: waiting } = joins { trees, waiting } := by
  simp [joins]

@[simp] theorem joins_operator (p : Polarity) (trees : List License) (waiting : List Waiting) :
    joins { trees, waiting := .operator p :: waiting } = joins { trees, waiting } + 1 := by
  simp only [joins, operators_operator]
  omega

/-- Released operators make the joins that they waited for. -/
theorem joins_release {ops : List Polarity} {trees left : List License}
    (hj : joinTops ops trees = some left) (waiting : List Waiting) :
    joins { trees := left, waiting } =
      joins { trees, waiting := ops.map .operator ++ waiting } := by
  have hleaves := newestLeaves_joinTops hj
  have hlength := length_joinTops hj
  simp only [joins, hleaves, operators_append]
  omega

end Stacks

/-- Each operator is one join, now or when it is released. -/
theorem joins_of_runs {ts : List Token} {s s' : Stacks} (h : Runs ts s s') :
    s'.joins = s.joins + ts.countP Token.isOperator := by
  induction h with
  | done => simp
  | identifier _ ih => simpa [Token.isOperator] using ih
  | openGroup _ ih => simpa [Token.isOperator] using ih
  | closeGroup hj _ ih =>
    rw [ih, ← joins_release hj, joins_group]
    simp [Token.isOperator]
  | operator _ _ hj _ ih =>
    rw [ih, joins_operator, joins_release hj, List.countP_cons_of_pos rfl]
    omega
  | glue _ ih => simpa [Token.isOperator] using ih

/-- The tree that is left has one leaf more than there were operators. -/
theorem length_leaves_of_parse {text : String} {tree : License} (h : parse text = some tree) :
    tree.leaves.length = (Token.scan text.toList).countP Token.isOperator + 1 := by
  obtain ⟨trees, ops, hrun, hj⟩ := treesOf_eq_some_iff.1 (ofTokens_eq_some_iff.1 h)
  have hjoins := joins_of_runs hrun
  have hstart : joins Stacks.empty = 0 := rfl
  -- The end of the text releases what waits.
  have hend : joins { trees := [tree], waiting := [] } = tree.leaves.length - 1 := by
    simp [joins, newestLeaves, operators]
  rw [joins_release hj, List.append_nil] at hend
  omega

/-- **Words.** No identifier of a text that is read is lost, repeated or moved: taken
    apart, the leaves from left to right are the text's identifiers in order.  Every
    `AND` and every `OR` has joined two trees, so there is one leaf more than these. -/
theorem words_of_parse {text : String} {tree : License} (h : parse text = some tree) :
    (tree.leaves.flatMap fun leaf => names leaf.toList) =
        (Token.scan text.toList).filterMap Token.identifier? ∧
      tree.leaves.length = (Token.scan text.toList).countP Token.isOperator + 1 := by
  have hids : ∀ name, .identifier name ∈ Token.scan text.toList → IsIdentifier name :=
    fun _ => isIdentifier_of_mem_scan
  have hread := names_leafTexts (List.forall_mem_nil _) hids
  rw [← leaves_of_parse h] at hread
  exact ⟨by simpa using hread, length_leaves_of_parse h⟩

/-- Operators before and after all of their operands, an empty group, and exceptions
    that follow a group and one another. -/
theorem words_of_parse_misplaced :
    let text := "OR (c) with d () WITH e a (b and)"
    let tree : License := .set .any [.leaf "c WITH d WITH e", .set .all [.leaf "a", .leaf "b"]]
    parse text = some tree ∧
      (tree.leaves.flatMap fun leaf => names leaf.toList) = ["c", "d", "e", "a", "b"] ∧
      tree.leaves.length = 3 := by
  intro text tree
  have h : parse "OR (c) with d () WITH e a (b and)" = some tree := rfl
  exact ⟨h, words_of_parse h⟩

end BillOfMaterials.License
