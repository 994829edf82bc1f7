import BillOfMaterials.Text.Blank

/-! # Paths

    A path is text; it names a place through the components between its
    slashes.

    * `Path.components` are these.  Repeated and trailing slashes and inner `.`
      name nothing; a leading slash, a leading `.` and every `..` do.
    * `Path.join` and `Path.parent?` work on the text and keep it as it is.
    * `Path.sameAs` and `Path.endsWith` compare by component. -/

namespace BillOfMaterials

open Text

structure Path where
  text : String
  deriving DecidableEq, Repr, Inhabited

namespace Path

/-! ## Components -/

inductive Component where
  /-- The leading slash. -/
  | root
  /-- A leading `.`. -/
  | current
  /-- A `..`. -/
  | up
  /-- Any other name. -/
  | normal (name : List Char)
  deriving DecidableEq, Repr

/-- A piece between slashes that names nothing. -/
def isVoid (piece : List Char) : Bool := piece.isEmpty || piece == ['.']

/-- The leading slash or `.` of a path, and what follows it. -/
def splitLead : List Char → List Char × List Char
  | '/' :: rest => (['/'], rest)
  | ['.'] => (['.'], [])
  | '.' :: '/' :: rest => (['.'], '/' :: rest)
  | text => ([], text)

def leadComponents : List Char → List Component
  | ['/'] => [.root]
  | ['.'] => [.current]
  | _ => []

def Component.ofPiece (piece : List Char) : Component :=
  if piece = ['.', '.'] then .up else .normal piece

/-- The pieces between slashes after the lead. -/
def bodyPieces (body : List Char) : List (List Char) := pieces (· == '/') body

def components (path : Path) : List Component :=
  let (lead, body) := splitLead path.text.toList
  leadComponents lead ++ ((bodyPieces body).filter (!isVoid ·)).map .ofPiece

/-- Whether two paths have the same components. -/
def sameAs (p q : Path) : Bool := p.components == q.components

/-- Whether the last components of `path` are those of `ending`. -/
def endsWith (path ending : Path) : Bool := ending.components.isSuffixOf path.components

/-- The last component, if it is a normal one. -/
def fileName? (path : Path) : Option String :=
  match path.components.getLast? with
  | some (.normal name) => some (String.ofList name)
  | _ => none

/-! ## Text -/

def isAbsolute (path : Path) : Bool := path.text.toList.head? == some '/'

/-- The place that `path` names from inside `base`.  An absolute path stays as
    it is; else one slash is put between the two, unless there is one already. -/
def join (base path : Path) : Path :=
  if path.isAbsolute then path
  else if base.text.isEmpty || base.text.toList.getLast? == some '/' then
    ⟨base.text ++ path.text⟩
  else ⟨base.text ++ "/" ++ path.text⟩

/-- The path without its last component; none for the root and the empty path.
    The text before that component stays as it is, less any slashes and `.` at
    its end. -/
def parent? (path : Path) : Option Path :=
  let (lead, body) := splitLead path.text.toList
  match (bodyPieces body).reverse.dropWhile isVoid with
  | _ :: before =>
    let kept := (before.dropWhile isVoid).reverse
    some ⟨String.ofList (lead ++ ['/'].intercalate kept)⟩
  | [] => if lead = ['.'] then some ⟨""⟩ else none

end Path

end BillOfMaterials
