import Stencil.DiskFault
import Stencil.Text.Quoted
import Stencil.Text.Trim
import Stencil.Token
import Stencil.Value

/-!
# Faults

Everything that can go wrong with a template, from its tags to the file it is loaded from, is a
`Stencil.Fault`. A fault records its cause; the wording of all messages is in `Fault.message` and
the functions it uses.

## Main definitions

* `Stencil.Expectation`, `Stencil.Found`, `Stencil.StatementFault`: faults of statements.
* `Stencil.BracketFault`: faults of the braces of blocks.
* `Stencil.Offence`: why a datum is no value.
* `Stencil.Fault`, `Stencil.Fault.message`: all faults and their messages.
* `Stencil.Fault.rootCause`, `Stencil.Fault.inTemplate`: the fault below the names of templates, and
  a fault with one more name.
* `Stencil.Fault.chain`: the messages of a fault and of the faults below it.
-/

namespace Stencil

/-! ### Faults of statements -/

/-- What an unfinished statement needs next. -/
inductive Expectation where
  | condition
  | conditionEnd
  | ifBody
  | elseIfBody
  | elseBody
  | loopVariable
  | loopIn
  | loopCollection
  | loopCollectionEnd
  | loopBody
  deriving DecidableEq, Repr

/-- How a message names what is needed. -/
def Expectation.describe : Expectation → String
  | condition => "condition"
  | conditionEnd => "`)` after condition"
  | ifBody => "`" ++ openBrace ++ "` after `if` condition"
  | elseIfBody => "`" ++ openBrace ++ "` after `else if` condition"
  | elseBody => "`" ++ openBrace ++ "` or `if` after `else`"
  | loopVariable => "loop variable"
  | loopIn => "`in` after loop variable"
  | loopCollection => "loop collection"
  | loopCollectionEnd => "`)` after loop collection"
  | loopBody => "`" ++ openBrace ++ "` after `for` header"

/-- What an unfinished statement met instead. -/
inductive Found where
  | token (t : Token)
  | text (s : String)
  | expression (path : String)
  | endOfTemplate
  deriving DecidableEq, Repr

/-- How a message names what was met. -/
def Found.describe : Found → String
  | token t => t.describe
  | text s => "text " ++ Text.quoted s
  | expression path => "expression `" ++ Text.trim path ++ "`"
  | endOfTemplate => "end of template"

/-- Statements that are not well formed or stand at the wrong place. -/
inductive StatementFault where
  /-- A statement is not continued as it has to be. -/
  | expected (what : Expectation) (found : Found)
  /-- A token that starts no statement. -/
  | unexpected (t : Token)
  /-- A token that cannot follow `else`. -/
  | unexpectedAfterElse (t : Token)
  /-- An `else` that does not follow the end of a block. -/
  | strayElse
  | elseAfterLoop
  | elseIfAfterLoop
  | elseIfAfterElse (condition : String)
  | duplicateElse
  | elseWithoutBranch
  | elseWithoutIf
  | elseIfWithoutIf
  /-- A conditional without branches has no body to add to. -/
  | noBranch
  /-- Text and expressions have no body to add to. -/
  | cannotNest
  /-- There is no block to add to at the given depth. -/
  | noOpenBlock
  deriving DecidableEq, Repr

/-- The message of a fault of a statement. -/
def StatementFault.message : StatementFault → String
  | expected what found => "expected " ++ what.describe ++ ", found " ++ found.describe
  | unexpected t =>
    "unexpected " ++ t.describe ++ ", expected `if`, `for` or `" ++ closeBrace ++ "`"
  | unexpectedAfterElse t => "unexpected " ++ t.describe ++ " after `else`"
  | strayElse => "`else` must directly follow the `" ++ closeBrace ++ "` of an `if` block"
  | elseAfterLoop => "`else` after a `for` loop"
  | elseIfAfterLoop => "`else if` after a `for` loop"
  | elseIfAfterElse condition => "`else if " ++ condition ++ "` after `else`"
  | duplicateElse => "duplicate `else`"
  | elseWithoutBranch => "`else` on a conditional without branches"
  | elseWithoutIf => "`else` without a matching `if`"
  | elseIfWithoutIf => "`else if` without a matching `if`"
  | noBranch => "conditional has no branch"
  | cannotNest => "cannot nest content inside text or expression"
  | noOpenBlock => "no open block at this depth"

/-! ### Faults of braces -/

/-- Braces that do not match. -/
inductive BracketFault where
  /-- A closing brace outside all blocks. -/
  | strayClose
  /-- This many blocks are open at the end of the template. -/
  | neverClosed (count : Nat)
  | negativeDepth (depth : Int)
  deriving DecidableEq, Repr

/-- The message of a fault of the braces. -/
def BracketFault.message : BracketFault → String
  | strayClose => "`" ++ closeBrace ++ "` without an open block"
  | neverClosed count => toString count ++ " block(s) never closed with `" ++ closeBrace ++ "`"
  | negativeDepth depth => "negative depth " ++ toString depth

/-! ### Data that are no values -/

/-- Why a datum is no value. -/
inductive Offence where
  /-- Integers of 128 bits are not values. -/
  | wideInteger (signed : Bool)
  /-- A map key of a sort that has no text for a name. -/
  | keyKind (kind : Kind)
  /-- A value of a map without a key before it. -/
  | missingKey
  /-- The datum itself reports a failure. -/
  | reported (text : String)
  deriving DecidableEq, Repr

/-- The message of an offence. -/
def Offence.message : Offence → String
  | wideInteger signed => if signed then "i128 is not supported" else "u128 is not supported"
  | keyKind kind => "map key must be a string, got " ++ kind.name
  | missingKey => "missing key for map value"
  | reported text => text

/-! ### All faults -/

/-- What can go wrong when templates are loaded, parsed or rendered. -/
inductive Fault where
  /-- The source ends inside a tag. -/
  | unclosedTag
  | statement (cause : StatementFault)
  | brackets (cause : BracketFault)
  /-- A path leads to no value. -/
  | variableNotFound (path : String)
  /-- A condition leads to a value that is no boolean. -/
  | typeMismatch (path : String) (found : Kind)
  /-- The collection of a loop leads to a value that is no list. -/
  | notACollection (path : String) (found : Kind)
  | templateNotFound (name : String)
  /-- The context is no value. -/
  | serialize (offence : Offence)
  /-- The context is a value, but neither a map nor null. -/
  | invalidContext (found : Kind)
  /-- There is no directory to load templates from. -/
  | directoryNotFound (path : String)
  /-- A template file cannot be read. -/
  | unreadable (path : String) (cause : DiskFault)
  /-- A fault of the template with this name. -/
  | template (name : String) (source : Fault)
  deriving DecidableEq, Repr

namespace Fault

/-- The message of a directory that is not there, without its path. -/
def directoryNotFoundReason : String := "template directory not found"

/-- The message of a fault. -/
def message : Fault → String
  | unclosedTag => "Unclosed tag: input ended inside `<%` or `<%=`"
  | statement cause => "Syntax error: " ++ cause.message
  | brackets cause => "Invalid brackets: " ++ cause.message
  | variableNotFound path => "Variable not found: " ++ path
  | typeMismatch path found =>
    "Type mismatch: `" ++ path ++ "` resolved to " ++ found.name ++ ", expected a boolean"
  | notACollection path found =>
    "Not a collection: `" ++ path ++ "` resolved to " ++ found.name ++ ", expected a list"
  | templateNotFound name => "Template not found: " ++ name
  | serialize offence => "Serialize error: " ++ offence.message
  | invalidContext found => "Invalid context: context must serialize to a map, got " ++ found.name
  | directoryNotFound path => "IO error on " ++ path ++ ": " ++ directoryNotFoundReason
  | unreadable path cause => "IO error on " ++ path ++ ": " ++ cause.message
  | template name source => "Template `" ++ name ++ "`: " ++ source.message

/-- The fault as one of the template with the given name. -/
def inTemplate (fault : Fault) (name : String) : Fault :=
  template name fault

/-- The fault below all names of templates. -/
def rootCause : Fault → Fault
  | template _ source => source.rootCause
  | fault => fault

/-- The message of a fault, followed by those of the faults it comes from. -/
def chain : Fault → List String
  | template name source => (template name source).message :: source.chain
  | directoryNotFound path => [(directoryNotFound path).message, directoryNotFoundReason]
  | unreadable path cause => [(unreadable path cause).message, cause.message]
  | fault => [fault.message]

@[simp] theorem rootCause_inTemplate (fault : Fault) (name : String) :
    (fault.inTemplate name).rootCause = fault.rootCause := rfl

end Fault

end Stencil
