/-!
# Arguments of the command line

The command takes a directory, the name of a template, and optionally a context file, and it has the
options `--layout`, with a value, `--help` and `--version`, the last two also as `-h` and `-V`. The
arguments are read from left to right; the first one that is wrong, or asks for help or the version,
decides. After `--` there are no more options.

## Main definitions

* `Stencil.CommandLine.Request`: what is to be rendered.
* `Stencil.CommandLine.Usage`: what else the arguments may ask for.
* `Stencil.CommandLine.parse`: the meaning of a list of arguments.
-/

namespace Stencil.CommandLine

/-- What is to be rendered. -/
structure Request where
  directory : String
  name : String
  contextFile : Option String
  layout : Option String
  deriving DecidableEq, Repr

/-- Arguments that do not lead to a rendering. -/
inductive Usage where
  | help
  | version
  /-- The arguments are wrong. -/
  | wrong
  deriving DecidableEq, Repr

/-- The arguments that have been read. -/
structure Arguments where
  /-- The arguments that are no options, in order. -/
  positional : List String
  layout : Option String
  deriving DecidableEq, Repr

namespace Arguments

/-- No arguments. -/
def none : Arguments := ⟨[], .none⟩

/-- One more argument that is no option. There are at most three, and of these only the second one,
a name, may be empty. -/
def addPositional (a : Arguments) (arg : String) : Except Usage Arguments :=
  match a.positional with
  | [] => if arg = "" then .error .wrong else .ok { a with positional := [arg] }
  | [directory] => .ok { a with positional := [directory, arg] }
  | [directory, name] =>
    if arg = "" then .error .wrong else .ok { a with positional := [directory, name, arg] }
  | _ => .error .wrong

/-- The layout, which may be given once. -/
def setLayout (a : Arguments) (layout : String) : Except Usage Arguments :=
  match a.layout with
  | .none => .ok { a with layout := some layout }
  | some _ => .error .wrong

/-- The request of all arguments. -/
def request (a : Arguments) : Except Usage Request :=
  match a.positional with
  | [directory, name] => .ok ⟨directory, name, .none, a.layout⟩
  | [directory, name, contextFile] => .ok ⟨directory, name, some contextFile, a.layout⟩
  | _ => .error .wrong

end Arguments

/-- Whether an argument can be the value of an option: one that starts with a hyphen cannot, unless
it is a hyphen alone. -/
def isValue (arg : String) : Bool :=
  match arg.toList with
  | '-' :: _ :: _ => false
  | _ => true

/-- What follows `--layout=` in an argument that starts with it. -/
def attachedLayout? (arg : List Char) : Option String :=
  let option := "--layout=".toList
  if arg.take option.length = option then some (String.ofList (arg.drop option.length))
  else none

/-- The arguments after a list of further ones. -/
def read (a : Arguments) : List String → Except Usage Arguments
  | [] => .ok a
  | arg :: args =>
    match arg.toList with
    | ['-', '-'] => args.foldlM Arguments.addPositional a
    | '-' :: '-' :: _ =>
      if arg = "--help" then .error .help
      else if arg = "--version" then .error .version
      else if arg = "--layout" then
        match args with
        | [] => .error .wrong
        | value :: args =>
          if isValue value then do
            let a ← a.setLayout value
            read a args
          else .error .wrong
      else match attachedLayout? arg.toList with
        | some value => do
          let a ← a.setLayout value
          read a args
        | none => .error .wrong
    | '-' :: c :: _ =>
      if c = 'h' then .error .help
      else if c = 'V' then .error .version
      else .error .wrong
    | _ => do
      let a ← a.addPositional arg
      read a args

/-- The meaning of a list of arguments. -/
def parse (args : List String) : Except Usage Request := do
  let a ← read .none args
  a.request

end Stencil.CommandLine
