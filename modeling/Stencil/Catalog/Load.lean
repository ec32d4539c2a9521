import Stencil.FileTree
import Stencil.Path
import Stencil.Catalog
import Stencil.Settings

/-!
# Loading templates

Sources are inserted one after the other, and the first one with a fault ends the loading; the
sources before it stay published. The result is the catalog in any case, and beside it the number
of sources or the fault.

The template files of a directory are the files at any depth with a given extension whose content is
text, in the order in which the disk lists them. A file that cannot be read is a fault at its place;
what lies in a directory whose path is too long is passed over. Configuring a catalog loads assets,
then a directory, and sets the default layout when both have succeeded.

## Main definitions

* `Stencil.Catalog.insertEach`, `Stencil.Catalog.insertAll`: loading a list of sources.
* `Stencil.FileTree.Listing.templateSources`: the template files of a directory, by name.
* `Stencil.Catalog.loadDirectory`, `Stencil.Catalog.configure`.
-/

namespace Stencil

/-- The source of a template, or the fault of reading it. -/
abbrev Source := Except Fault String

namespace FileTree

/-- The path of a file below a directory. -/
def pathBelow (directory : String) (names : List String) : String :=
  names.foldl Path.join directory

/-- The source in a file of a directory, or the fault of a file that cannot be read. There is none
if the file holds no text, or if the path of the directory is already too long. -/
def source? (directory path : String) (content : Content) : Option Source :=
  if Path.isTooLong path then
    if Path.isTooLong directory then none
    else some (.error (.unreadable path .nameTooLong))
  else
    match content.text with
    | .ok text => some (.ok text)
    | .error .notText => none
    | .error fault => some (.error (.unreadable path fault))

/-- The name and source of a file below a directory, if it is a template file. -/
def templateSource? (directory extension : String) (file : List String × Content) :
    Option (String × Source) :=
  let path := pathBelow directory file.1
  if Path.extension? path = some extension then
    (Path.templateName? directory path).bind fun name =>
      (source? (pathBelow directory file.1.dropLast) path file.2).map fun source => (name, source)
  else none

/-- The names and sources of the template files of a directory, given the files below it. -/
def Listing.templateSources (directory extension : String) (files : Listing) :
    List (String × Source) :=
  files.filterMap (templateSource? directory extension)

end FileTree

namespace Catalog

/-- Inserts sources by name, up to the first one with a fault. -/
def insertEach (r : Catalog) : List (String × Source) → Catalog × Except Fault Nat
  | [] => (r, .ok 0)
  | (name, source) :: sources =>
    match source.bind (r.insert name) with
    | .error fault => (r, .error fault)
    | .ok (r', _) =>
      let loaded := insertEach r' sources
      (loaded.1, loaded.2.map (· + 1))

/-- Inserts the sources of assets, up to the first one with a fault. -/
def insertAll (r : Catalog) (assets : List (String × String)) : Catalog × Except Fault Nat :=
  r.insertEach (assets.map fun a => (a.1, .ok a.2))

/-- Inserts the template files of a directory. -/
def loadDirectory (r : Catalog) (disk : Disk) (directory extension : String) :
    Catalog × Except Fault Nat :=
  match disk.directory? directory with
  | none => (r, .error (.directoryNotFound directory))
  | some tree => r.insertEach ((disk.walk tree).templateSources directory extension)

/-- Inserts the template files of a directory, if one is given. -/
def loadDirectory? (r : Catalog) (disk : Disk) (directory : Option String) (extension : String) :
    Catalog × Except Fault Nat :=
  match directory with
  | none => (r, .ok 0)
  | some directory => r.loadDirectory disk directory extension

/-- Sets the default layout, if one is given. -/
def setLayout? (r : Catalog) (layout : Option String) : Catalog :=
  match layout with
  | none => r
  | some layout => r.setDefaultLayout (some layout)

/-- Loads what the settings name: assets, then the files of a directory. The default layout is set
when all of them are loaded. -/
def configure (r : Catalog) (disk : Disk) (settings : Settings) : Catalog × Except Fault Nat :=
  let (r, assets) := r.insertAll (settings.assets.getD [])
  match assets with
  | .error fault => (r, .error fault)
  | .ok assetCount =>
    let (r, files) := r.loadDirectory? disk settings.directory settings.extension
    match files with
    | .error fault => (r, .error fault)
    | .ok fileCount => (r.setLayout? settings.layout, .ok (assetCount + fileCount))

end Catalog

end Stencil
