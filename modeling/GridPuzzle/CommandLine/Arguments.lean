/-!
# Arguments of the command line

A level file may be chosen by an option and a program file by an argument of its own, each at most
once. Arguments are read from left to right: a request for help ends the reading where it stands,
and so does the first argument that does not fit. After two dashes every argument is a file.
-/

namespace GridPuzzle

/-- The files that are chosen. -/
structure Arguments where
  level : Option String := none
  program : Option String := none
  deriving DecidableEq, Repr

/-- What the command line asks for. -/
inductive Invocation
  | help
  | play (files : Arguments)
  deriving DecidableEq, Repr

/-- What an argument is by its form. -/
inductive ArgumentForm
  /-- The end of the options. -/
  | endOfOptions
  /-- An option by its name, perhaps with a value after an equals sign. -/
  | long (name : String) (value : Option String)
  /-- An option by its letter, perhaps with a value right behind it. -/
  | short (letter : Char) (value : Option String)
  /-- A file name; a single dash is one too. -/
  | file (name : String)
  deriving DecidableEq, Repr

namespace ArgumentForm

/-- The text after an equals sign, if there is one. -/
def valueOf : List Char → Option String
  | [] => none
  | _ :: value => some (String.ofList value)

/-- The form of an argument. -/
def ofText (argument : String) : ArgumentForm :=
  match argument.toList with
  | ['-', '-'] => endOfOptions
  | '-' :: '-' :: cs =>
    long (String.ofList (cs.takeWhile (· != '='))) (valueOf (cs.dropWhile (· != '=')))
  | ['-', c] => short c none
  | '-' :: c :: '=' :: value => short c (some (String.ofList value))
  | '-' :: c :: value => short c (some (String.ofList value))
  | _ => file argument

end ArgumentForm

namespace Arguments

/-- Choose a level file, unless the name is empty or one has been chosen already. -/
def chooseLevel (a : Arguments) (name : String) : Option Arguments :=
  if name = "" ∨ a.level.isSome then none else some { a with level := some name }

/-- Choose a program file, unless the name is empty or one has been chosen already. -/
def chooseProgram (a : Arguments) (name : String) : Option Arguments :=
  if name = "" ∨ a.program.isSome then none else some { a with program := some name }

/-- Read arguments of which each is a program file. -/
def readFiles (a : Arguments) : List String → Option Invocation
  | [] => some (.play a)
  | name :: rest =>
    match a.chooseProgram name with
    | some a => readFiles a rest
    | none => none

mutual

/-- Read arguments, with the files chosen so far. -/
def read (a : Arguments) : List String → Option Invocation
  | [] => some (.play a)
  | argument :: rest =>
    match ArgumentForm.ofText argument with
    | .endOfOptions => readFiles a rest
    | .long "level" (some name) | .short 'l' (some name) =>
      match a.chooseLevel name with
      | some a => read a rest
      | none => none
    | .long "level" none | .short 'l' none => readLevel a rest
    | .long "help" none | .short 'h' _ => some .help
    | .file name =>
      match a.chooseProgram name with
      | some a => read a rest
      | none => none
    | _ => none

/-- Read arguments of which the first is a level file, which cannot look like an option. -/
def readLevel (a : Arguments) : List String → Option Invocation
  | [] => none
  | argument :: rest =>
    match ArgumentForm.ofText argument with
    | .file name =>
      match a.chooseLevel name with
      | some a => read a rest
      | none => none
    | _ => none

end

/-- What some arguments ask for, unless they do not fit. -/
def ofList (arguments : List String) : Option Invocation := read {} arguments

end Arguments

end GridPuzzle
