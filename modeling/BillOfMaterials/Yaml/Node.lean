import BillOfMaterials.Yaml.Tree

/-! # Nodes of a document

    * `Node` is a scalar, a sequence or a mapping, with its tag.  An alias is
      the node that it stands for.
    * `resolve` puts nodes in the place of aliases.
    * `Node.ofText?` reads a text that holds at most one document. -/

namespace BillOfMaterials.Yaml

inductive Node where
  | scalar (tag? : Option Tag) (plain : Bool) (text : String)
  | sequence (tag? : Option Tag) (items : List Node)
  | mapping (tag? : Option Tag) (entries : List (Node × Node))

/-! ## Aliases -/

/-- Counts down how many aliases may still be followed, or fails. -/
abbrev Resolve := StateT Nat Option

/-- The scalar or collection that a tree stands for.  An alias stands for the
    tree with its number that begins last. -/
def follow (anchors : List (Nat × Tree)) : Tree → Resolve Tree
  | .alias number => do
    match ← get, anchors.findRev? (·.1 == number) with
    | left + 1, some (_, target) =>
      set left
      return target
    | _, _ => failure
  | .anchored _ tree => return tree
  | tree => return tree

/-- The node of a tree in which collections are nested at most `depth` deep.  A
    tree with an alias for itself, or for one around it, has no end. -/
def resolve (anchors : List (Nat × Tree)) (depth : Nat) (tree : Tree) : Resolve Node := do
  match ← follow anchors tree, depth with
  | .scalar tag? plain text, _ => return .scalar tag? plain text
  | .sequence tag? items, depth + 1 => return .sequence tag? (← items.mapM (resolve anchors depth))
  | .mapping tag? entries, depth + 1 =>
    return .mapping tag? (← entries.mapM fun (key, value) =>
      return (← resolve anchors depth key, ← resolve anchors depth value))
  | _, _ => failure

/-- How deep collections may be nested. -/
def maxDepth : Nat := 128

/-- How many aliases may be followed for each mark of a tree. -/
def maxAliases : Nat := 100

namespace Node

/-- The node of a tree, if its aliases come to an end. -/
def ofTree? (tree : Tree) : Option Node :=
  (resolve tree.anchors maxDepth tree).run' (maxAliases * tree.size)

/-- The node of a text. -/
def ofText? (text : String) : Option Node := do ofTree? (← Tree.ofText? text)

end Node

end BillOfMaterials.Yaml
