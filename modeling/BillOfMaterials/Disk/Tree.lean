import BillOfMaterials.Disk.Basic
import BillOfMaterials.Text.Sorted

/-! # A disk in memory

    A tree of directories, files and symbolic links, with the path rules of
    Unix systems.

    * `FileNode` is what stands at a place, a place being a list of names from the
      root.
    * `FileTree.resolve` walks along a path and follows links.
    * `FileTree.disk` are the operations, each a change of the tree. -/

namespace BillOfMaterials

open Text

/-! ## Nodes -/

/-- What a file holds. -/
inductive FileContent where
  | bytes (held : List UInt8)
  /-- A number of zero bytes. -/
  | zeros (count : Nat)

namespace FileContent

def size : FileContent → Nat
  | .bytes held => held.length
  | .zeros count => count

def toBytes : FileContent → List UInt8
  | .bytes held => held
  | .zeros count => List.replicate count 0

end FileContent

inductive FileNode where
  | file (content : FileContent)
  | directory (entries : List (String × FileNode))
  | link (target : String)

instance : Inhabited FileNode := ⟨.directory []⟩

namespace FileNode

def isDirectory : FileNode → Bool
  | .directory _ => true
  | _ => false

def isLink : FileNode → Bool
  | .link _ => true
  | _ => false

def entries : FileNode → List (String × FileNode)
  | .directory entries => entries
  | _ => []

/-- The node of a name in a directory. -/
def child? (node : FileNode) (name : String) : Option FileNode :=
  (node.entries.find? (·.1 = name)).map (·.2)

/-- The node at a place below another. -/
def get? (node : FileNode) : List String → Option FileNode
  | [] => some node
  | name :: rest =>
    match node.child? name with
    | some child => get? child rest
    | none => none

/-- Puts a node under a name, in the place of the one that is there. -/
def putEntry (name : String) (node : FileNode) : List (String × FileNode) → List (String × FileNode)
  | [] => [(name, node)]
  | entry :: rest =>
    if entry.1 = name then (name, node) :: rest else entry :: putEntry name node rest

/-- Puts a node at a place; directories above it are made where they lack. -/
def put (node : FileNode) (old : FileNode) : List String → FileNode
  | [] => node
  | name :: rest =>
    .directory (putEntry name (put node ((old.child? name).getD (.directory [])) rest) old.entries)

mutual

/-- What stands below a node: each place with a slash after a directory and an
    at sign after a link. -/
def listing (before : String) : FileNode → List String
  | .directory entries => listEntries before entries
  | _ => []

def listEntries (before : String) : List (String × FileNode) → List String
  | [] => []
  | (name, node) :: rest =>
    let path := before ++ name
    let mark := match node with
      | .directory _ => "/"
      | .link _ => "@"
      | .file _ => ""
    (path ++ mark) :: listing (path ++ "/") node ++ listEntries before rest

end

end FileNode

/-! ## Trees -/

structure FileTree where
  root : FileNode
  /-- The place from which relative paths start. -/
  workingDirectory : List String

namespace FileTree

/-- A tree with an empty working directory. -/
def empty : FileTree :=
  let place := ["work", "run"]
  { root := FileNode.put (.directory []) (.directory []) place, workingDirectory := place }

/-- One step along a path. -/
inductive Step where
  /-- No step; only from a directory there is one. -/
  | stay
  | up
  | down (name : String)
  deriving DecidableEq

def Step.ofPiece (piece : List Char) : Step :=
  if Path.isVoid piece then .stay
  else if piece = ['.', '.'] then .up
  else .down (String.ofList piece)

def steps (text : List Char) : List Step := (pieces (· == '/') text).map .ofPiece

def startOf (tree : FileTree) (text : List Char) : List String :=
  if text.head? = some '/' then [] else tree.workingDirectory

/-- How many links may be followed on one way. -/
def maxLinks : Nat := 40

/-- The largest length of a name in bytes. -/
def maxName : Nat := 255

/-- The largest length of a path in bytes. -/
def maxPath : Nat := 4095

/-- The place that steps lead to from a directory; the last step may lead to
    nothing.  Links on the way are followed, at the end only if wanted. -/
def walk (tree : FileTree) (follow : Bool) (links : Nat) (here : List String) :
    List Step → Except SystemError (List String)
  | [] => .ok here
  | .stay :: rest => walk tree follow links here rest
  | .up :: rest => walk tree follow links here.dropLast rest
  | .down name :: rest =>
    let place := here ++ [name]
    if maxName < name.utf8ByteSize then .error .nameTooLong
    else
      match tree.root.get? place with
      | none => if rest.isEmpty then .ok place else .error .notFound
      | some (.directory _) => walk tree follow links place rest
      | some (.file _) => if rest.isEmpty then .ok place else .error .notDirectory
      | some (.link target) =>
        if rest.isEmpty && !follow then .ok place
        else
          match links with
          | 0 => .error .tooManyLinks
          | links + 1 =>
            let start := if target.toList.head? = some '/' then [] else here
            walk tree follow links start (steps target.toList ++ rest)
  termination_by steps => (links, steps.length)

/-- The place that steps along a path lead to, where there may be nothing yet. -/
def placeOf (tree : FileTree) (follow : Bool) (path : Path) (steps : List Step) :
    Except SystemError (List String) :=
  let text := path.text.toList
  if text.isEmpty then .error .notFound
  else if text.contains '\x00' then .error .invalidPath
  else if maxPath < path.text.utf8ByteSize then .error .nameTooLong
  else walk tree follow maxLinks (tree.startOf text) steps

/-- What stands at a path.  A path with a slash at its end names a directory. -/
def resolve (tree : FileTree) (follow : Bool) (path : Path) : Except SystemError FileNode := do
  match tree.root.get? (← tree.placeOf follow path (steps path.text.toList)) with
  | some node => .ok node
  | none => .error .notFound

/-- The steps of a path up to its last name; slashes after it do not count. -/
def stepsToName (text : List Char) : List Step :=
  ((steps text).reverse.dropWhile (· = .stay)).reverse

/-- The place of a path's last name, where there may be nothing yet. -/
def namedPlace (tree : FileTree) (follow : Bool) (path : Path) :
    Except SystemError (List String) :=
  tree.placeOf follow path (stepsToName path.text.toList)

def isDirectory (tree : FileTree) (path : Path) : Bool :=
  match tree.resolve true path with
  | .ok node => node.isDirectory
  | .error _ => false

/-! ## Changes -/

def put (tree : FileTree) (node : FileNode) (place : List String) : FileTree :=
  { tree with root := FileNode.put node tree.root place }

/-- Whether the last component of a path is `.` or `..`, so that it cannot name
    anything new. -/
def endsInDots (text : List Char) : Bool :=
  match ((pieces (· == '/') text).filter (!·.isEmpty)).getLast? with
  | some last => last = ['.'] || last = ['.', '.']
  | none => true

/-- Makes one directory, where there is nothing yet. -/
def makeDirectory (tree : FileTree) (path : Path) : Except SystemError FileTree := do
  if endsInDots path.text.toList then
    let _ ← tree.resolve true path
    .error .exists
  else
    let place ← tree.namedPlace false path
    match tree.root.get? place with
    | some _ => .error .exists
    | none => .ok (tree.put (.directory []) place)

/-- Makes or replaces a file.  A path with a slash at its end names none. -/
def write (tree : FileTree) (path : Path) (content : FileContent) :
    Except SystemError FileTree := do
  let text := path.text.toList
  if !text.isEmpty && endsInDots text then
    let _ ← tree.resolve true path
    .error .isDirectory
  else
    let isName := text.getLast? != some '/'
    let place ← tree.namedPlace isName path
    match tree.root.get? place with
    | some (.directory _) => .error .isDirectory
    | _ => if isName then .ok (tree.put (.file content) place) else .error .isDirectory

/-! ## The disk -/

def status (tree : FileTree) (path : Path) : Except SystemError Status := do
  match ← tree.resolve false path with
  | .link _ => return .link
  | .file content => return .file content.size
  | .directory _ => return .other

def read (tree : FileTree) (path : Path) : Except SystemError (List UInt8) := do
  match ← tree.resolve true path with
  | .file content => return content.toBytes
  | _ => .error .isDirectory

/-- Makes a change if it is possible. -/
def change (f : FileTree → Except SystemError FileTree) :
    StateM FileTree (Except SystemError Unit) := fun tree =>
  match f tree with
  | .ok next => (.ok (), next)
  | .error error => (.error error, tree)

/-- The operations on a disk, each a change of the tree. -/
def disk : Disk (StateM FileTree) where
  pathExists path := fun tree => (((tree.resolve true path).toOption).isSome, tree)
  isDirectory path := fun tree => (tree.isDirectory path, tree)
  status path := fun tree => (tree.status path, tree)
  read path := fun tree => (tree.read path, tree)
  makeDirectory path := change fun tree => tree.makeDirectory path
  write path text := change fun tree => tree.write path (.bytes (encodeUtf8 text))

/-- What manifests and files hold. -/
def reader (tree : FileTree) : Reader where
  manifest path := ((disk.loadManifest path).run tree).1
  asset path := ((disk.readAsset path).run tree).1

/-! ## Set-up and view -/

/-- Puts a node at a path, where possible, and makes the directories above it.
    Only a link is put in the place of a link. -/
def plant (tree : FileTree) (path : Path) (node : FileNode) : FileTree :=
  let ready := match path.parent? with
    | some parent => ((disk.makeDirectories parent).run tree).2
    | none => tree
  match ready.namedPlace (!node.isLink) path with
  | .ok place => ready.put node place
  | .error _ => ready

/-- Makes sure that a directory is at a path, where possible. -/
def plantDirectory (tree : FileTree) (path : Path) : FileTree :=
  ((disk.makeDirectories path).run tree).2

/-- Everything below the working directory, in order. -/
def listing (tree : FileTree) : List String :=
  match tree.root.get? tree.workingDirectory with
  | some node => sortedSet (node.listing "")
  | none => []

end FileTree

end BillOfMaterials
