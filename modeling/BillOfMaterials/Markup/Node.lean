import BillOfMaterials.Markup.Basic

/-! # Markup as a tree

    Reports in HTML and XML are built as trees and written by one function, so
    that no text can be taken for markup.

    * `Inline` is what stands on a line: text and elements.
    * `Node` is a line or a block, whose contents stand on lines of their own.
    * `Node.render` writes a node at a depth. -/

namespace BillOfMaterials.Markup

/-- An attribute's name and value. -/
abbrev Attribute := String × String

/-! ## Within a line -/

inductive Inline where
  | text (content : String)
  /-- An element without an end, as in `<meta>`. -/
  | void (name : String) (attributes : List Attribute)
  /-- An element that ends itself, as in `<br/>`. -/
  | empty (name : String) (attributes : List Attribute)
  | element (name : String) (attributes : List Attribute) (contents : List Inline)
  deriving Repr

/-- A name with its attributes, as in a tag. -/
def tagText (name : String) (attributes : List Attribute) : String :=
  name ++ String.join (attributes.map fun (name, value) =>
    " " ++ name ++ "=\"" ++ escape value ++ "\"")

def startTag (name : String) (attributes : List Attribute) : String :=
  "<" ++ tagText name attributes ++ ">"

def endTag (name : String) : String := "</" ++ name ++ ">"

mutual

def Inline.render : Inline → String
  | .text content => escape content
  | .void name attributes => startTag name attributes
  | .empty name attributes => "<" ++ tagText name attributes ++ "/>"
  | .element name attributes contents =>
    startTag name attributes ++ Inline.renderAll contents ++ endTag name

def Inline.renderAll : List Inline → String
  | [] => ""
  | first :: rest => Inline.render first ++ Inline.renderAll rest

end

/-! ## Lines and blocks -/

inductive Node where
  | line (contents : Inline)
  /-- Start tag, contents and end tag on lines of their own. -/
  | block (name : String) (attributes : List Attribute) (contents : List Node)
  deriving Repr

mutual

/-- The lines of a node at a depth. -/
def Node.render (depth : Nat) : Node → String
  | .line contents => Markup.line depth contents.render
  | .block name attributes contents =>
    Markup.line depth (startTag name attributes) ++ Node.renderAll (depth + 1) contents ++
      Markup.line depth (endTag name)

def Node.renderAll (depth : Nat) : List Node → String
  | [] => ""
  | first :: rest => Node.render depth first ++ Node.renderAll depth rest

end

namespace Node

/-- An element that holds text alone. -/
def text (name content : String) (attributes : List Attribute := []) : Node :=
  .line (.element name attributes [.text content])

/-- An element that only refers to another resource. -/
def resource (name uri : String) : Node := .line (.empty name [(resourceAttribute, uri)])

end Node

end BillOfMaterials.Markup
