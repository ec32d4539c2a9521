/-!
# Settings of a catalog

Settings say where templates come from and which layout pages have by default.

## Main definitions

* `Stencil.Settings` and its `with…` functions.
* `Stencil.Settings.bareExtension`: an extension without the dots in front of it.
-/

namespace Stencil

/-- Where templates come from, and how they are rendered by default. -/
structure Settings where
  /-- Sources by name. -/
  assets : Option (List (String × String)) := none
  /-- A directory of template files. -/
  directory : Option String := none
  /-- The extension of template files. -/
  extension : String := "html"
  /-- The layout of pages that ask for none. -/
  layout : Option String := none
  deriving DecidableEq, Repr

namespace Settings

/-- The settings of a catalog without templates. -/
def default : Settings := {}

/-- An extension without the dots in front of it. -/
def bareExtension (extension : String) : String :=
  String.ofList (extension.toList.dropWhile (· == '.'))

/-- Settings with sources by name. -/
def withAssets (s : Settings) (assets : List (String × String)) : Settings :=
  { s with assets := some assets }

/-- Settings with a directory of template files. -/
def withDirectory (s : Settings) (directory : String) : Settings :=
  { s with directory := some directory }

/-- Settings for files with an extension, which may be given with dots in front. -/
def withExtension (s : Settings) (extension : String) : Settings :=
  { s with extension := bareExtension extension }

/-- Settings with a default layout. -/
def withLayout (s : Settings) (layout : String) : Settings :=
  { s with layout := some layout }

end Settings

end Stencil
