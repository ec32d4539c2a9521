import Stencil.Text.Split

/-!
# Reports

A report names what could not be done and below it the causes, the outermost first. A single cause
stands by itself; several ones are numbered from zero. Causes are indented, with all their lines.

## Main definitions

* `Stencil.CommandLine.Report`, `Stencil.CommandLine.Report.text`.
-/

namespace Stencil.CommandLine

/-- What could not be done, and why. -/
structure Report where
  failure : String
  causes : List String
  deriving DecidableEq, Repr

namespace Report

/-- Spaces. -/
def spaces (n : Nat) : String :=
  String.ofList (List.replicate n ' ')

/-- A text with some text in front of its first line and some in front of every further one. -/
def indented (first further : String) (text : String) : String :=
  first ++ String.intercalate ("\n" ++ further) (Text.split '\n' text)

/-- The number of a cause, to the right of five columns. -/
def label (n : Nat) : String :=
  let digits := toString n
  spaces (5 - digits.length) ++ digits ++ ": "

/-- The causes with their numbers, from a number on. -/
def numbered : Nat → List String → List String
  | _, [] => []
  | n, cause :: causes => indented (label n) (spaces 7) cause :: numbered (n + 1) causes

/-- The causes, one below the other. -/
def causeLines : List String → List String
  | [cause] => [indented (spaces 4) (spaces 4) cause]
  | causes => numbered 0 causes

/-- The text of a report. -/
def text (r : Report) : String :=
  let causes := match r.causes with
    | [] => ""
    | causes => "\n\nCaused by:\n" ++ String.intercalate "\n" (causeLines causes)
  "Error: " ++ r.failure ++ causes ++ "\n"

end Report

end Stencil.CommandLine
