import BillOfMaterials.Package.Name
import BillOfMaterials.Path

/-! # Packages

    A package as the build hands it over: what it is called, where its sources
    come from, which licenses it declares and which file lists the hashes of
    its sources.

    * `Install` tells packages of the target from those of the build host.
    * `Vcs` is how a package's sources are fetched.
    * `Package.reportedVersion` is the version that a report gives. -/

namespace BillOfMaterials

/-! ## Kinds -/

/-- Where a package's output is installed. -/
inductive Install where
  | target
  | host
  deriving DecidableEq, Repr, Inhabited

namespace Install

def name : Install → String
  | .target => "target"
  | .host => "host"

def all : List Install := [.target, .host]

/-- The kind with exactly this name. -/
def ofName? (text : String) : Option Install := all.find? (·.name = text)

end Install

/-- How a package's sources are fetched.  A package of kind `none` has no
    sources of its own and is left out of every report. -/
inductive Vcs where
  | brz
  | bzr
  | cvs
  | git
  | hg
  | localSources
  | none
  | perforce
  | rsync
  | scp
  | svn
  | url
  deriving DecidableEq, Repr

namespace Vcs

instance : Inhabited Vcs := ⟨.url⟩

def name : Vcs → String
  | .brz => "brz"
  | .bzr => "bzr"
  | .cvs => "cvs"
  | .git => "git"
  | .hg => "hg"
  | .localSources => "local"
  | .none => "none"
  | .perforce => "perforce"
  | .rsync => "rsync"
  | .scp => "scp"
  | .svn => "svn"
  | .url => "url"

def all : List Vcs :=
  [.brz, .bzr, .cvs, .git, .hg, .localSources, .none, .perforce, .rsync, .scp, .svn, .url]

/-- The kind with exactly this name. -/
def ofName? (text : String) : Option Vcs := all.find? (·.name = text)

end Vcs

/-! ## Packages -/

structure Package where
  name : PackageName
  version? : Option String := none
  revision? : Option String := none
  /-- Where the sources are fetched from. -/
  site? : Option String := none
  install : Install := .target
  vcs : Vcs := .url
  /-- License expressions, verbatim. -/
  licenses : List String := []
  /-- The manifest of the sources' hashes. -/
  hashFile? : Option Path := none
  deriving DecidableEq

/-- The text, unless it is empty. -/
def nonEmpty? (text? : Option String) : Option String :=
  text?.filter (!·.isEmpty)

/-- The version, else the revision, else nothing; an empty one counts as absent. -/
def Package.reportedVersion (package : Package) : String :=
  ((nonEmpty? package.version?).or (nonEmpty? package.revision?)).getD ""

end BillOfMaterials
