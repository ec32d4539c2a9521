import Stencil.Dictionary
import Stencil.DiskFault
import Stencil.Path

/-!
# Trees of files

A directory holds files and directories under names, and a file holds bytes, unless it cannot be
read. A disk answers for every path what lies there, and lists the files of a directory. The tree of
the working directory gives such a disk; what lies outside of that tree is not known, and counts as
directories without entries.

## Main definitions

* `Stencil.Content`, `Stencil.Content.text`: what a file holds.
* `Stencil.FileTree`: a file or a directory.
* `Stencil.FileTree.makeDirectory`, `Stencil.FileTree.writeFile`: a tree with one more directory or
  file.
* `Stencil.FileTree.files`: the files of a tree, depth first, with the names that lead to them.
* `Stencil.Disk`, `Stencil.Disk.directory?`, `Stencil.Disk.readText`.
* `Stencil.FileTree.disk`: the paths that start in a tree.
-/

namespace Stencil

/-- The bytes of a file, or why they cannot be read. -/
abbrev Content := Except DiskFault ByteArray

/-- The text of a file, or why there is none. -/
def Content.text (content : Content) : Except DiskFault String :=
  match content with
  | .error fault => .error fault
  | .ok bytes =>
    match String.fromUTF8? bytes with
    | some text => .ok text
    | none => .error .notText

/-- A file or a directory. -/
inductive FileTree where
  | file (content : Content)
  | directory (entries : List (String × FileTree))

namespace FileTree

/-! ### Building -/

/-- The directory without entries. -/
def emptyDirectory : FileTree := directory []

/-- The file that holds a text. -/
def ofText (text : String) : FileTree := file (.ok text.toUTF8)

/-- The entries of a directory; a file has none. -/
def entries : FileTree → List (String × FileTree)
  | file _ => []
  | directory es => es

/-- The tree with what lies at the end of a list of names changed. The names lead through
directories: one that is missing is made, and a file on the way gives place to one. -/
def modify (change : FileTree → FileTree) : List String → FileTree → FileTree
  | [], t => change t
  | name :: names, t =>
    let child := (Dictionary.find? name t.entries).getD emptyDirectory
    directory (Dictionary.insert name (modify change names child) t.entries)

/-- The tree with a directory at the end of a list of names; one that is there keeps its entries. -/
def makeDirectory (names : List String) (t : FileTree) : FileTree :=
  modify (fun old => directory old.entries) names t

/-- The tree with a file at the end of a list of names. -/
def writeFile (names : List String) (bytes : ByteArray) (t : FileTree) : FileTree :=
  modify (fun _ => file (.ok bytes)) names t

/-! ### Walking -/

/-- The files below a list of trees, each with the names that lead to it; the name of the tree is
the first of them. -/
abbrev Listing := List (List String × Content)

/-- The files of a listing, below one more name. -/
def Listing.below (name : String) (files : Listing) : Listing :=
  files.map fun f => (name :: f.1, f.2)

mutual

/-- The files of a tree, depth first, each with the names that lead to it. The entries of a
directory are taken in ascending order of their names. -/
def files : FileTree → Listing
  | file content => [([], content)]
  | directory entries =>
    (Dictionary.ofList (entryFiles entries)).flatMap fun e => Listing.below e.1 e.2

/-- The files of every entry of a directory. -/
def entryFiles : List (String × FileTree) → List (String × Listing)
  | [] => []
  | (name, tree) :: entries => (name, tree.files) :: entryFiles entries

end

end FileTree

/-! ### Disks -/

/-- What lies at the end of each path, and the files of a tree as they are listed when it is walked
through. -/
structure Disk where
  lookup : String → Except DiskFault FileTree
  walk : FileTree → FileTree.Listing

namespace Disk

/-- The entries of the directory at a path, if there is one. -/
def directory? (disk : Disk) (path : String) : Option FileTree :=
  match disk.lookup path with
  | .ok (.directory entries) => some (.directory entries)
  | _ => none

/-- The text of the file at a path. -/
def readText (disk : Disk) (path : String) : Except DiskFault String :=
  match disk.lookup path with
  | .error fault => .error fault
  | .ok (.directory _) => .error .isADirectory
  | .ok (.file content) => content.text

end Disk

namespace FileTree

/-- What lies at the end of the names of a path, from a tree inside other trees on, the innermost
first. Every name is looked up in a directory, also the empty name and `.`, which stay there; `..`
leads out of it, and stays in the outermost tree. -/
def locate (t : FileTree) (outer : List FileTree) : List String → Except DiskFault FileTree
  | [] => .ok t
  | name :: names =>
    match t with
    | file _ => .error .notADirectory
    | directory entries =>
      if name = "" ∨ name = "." then locate t outer names
      else if name = ".." then
        match outer with
        | [] => locate t [] names
        | parent :: outer => locate parent outer names
      else if Path.isLongName name then .error .nameTooLong
      else match Dictionary.find? name entries with
        | none => .error .notFound
        | some child => locate child (t :: outer) names

/-- The disk whose working directory is the tree, with an empty directory around it and an empty
root. A path that is too long leads nowhere, whatever its names are. -/
def disk (t : FileTree) : Disk where
  lookup path :=
    if Path.isTooLong path then .error .nameTooLong
    else match Text.split '/' path with
      | [""] => .error .notFound
      | "" :: names => locate emptyDirectory [] names
      | names => locate t [emptyDirectory] names
  walk := files

end FileTree

end Stencil
