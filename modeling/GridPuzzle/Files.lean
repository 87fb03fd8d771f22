import GridPuzzle.Text.Decimal
import GridPuzzle.Text.Quoted

/-!
# Reading text files

A file tree holds files and directories below a working directory. A path is followed name by name;
where a name is missing, or stands below something that is no directory, it leads nowhere. The
contents of a file are a text only when they are valid UTF-8.
-/

namespace GridPuzzle

/-- Why a file cannot be read as a text. -/
inductive ReadFault
  | notFound
  | notDirectory
  | isDirectory
  | nameTooLong
  | nameWithNull
  | invalidText
  deriving DecidableEq, Repr

namespace ReadFault

/-- The number that the operating system gives to a fault, unless it is not the system's. -/
def code? : ReadFault → Option Nat
  | notFound => some 2
  | notDirectory => some 20
  | isDirectory => some 21
  | nameTooLong => some 36
  | nameWithNull => none
  | invalidText => none

/-- The name of a fault's kind. -/
def kind : ReadFault → String
  | notFound => "NotFound"
  | notDirectory => "NotADirectory"
  | isDirectory => "IsADirectory"
  | nameTooLong => "InvalidFilename"
  | nameWithNull => "InvalidInput"
  | invalidText => "InvalidData"

/-- The wording of a fault, without its number. -/
def words : ReadFault → String
  | notFound => "No such file or directory"
  | notDirectory => "Not a directory"
  | isDirectory => "Is a directory"
  | nameTooLong => "File name too long"
  | nameWithNull => "file name contained an unexpected NUL byte"
  | invalidText => "stream did not contain valid UTF-8"

/-- The wording of a fault, with its number. -/
def message (f : ReadFault) : String :=
  match f.code? with
  | some code => f.words ++ " (os error " ++ Text.natural code ++ ")"
  | none => f.words

/-- The written form of a fault, with the names of the fields. -/
def labelled (f : ReadFault) : String :=
  let rest := "kind: " ++ f.kind ++ ", message: " ++ Text.quoted f.words ++ " \x7d"
  match f.code? with
  | some code => "Os \x7b code: " ++ Text.natural code ++ ", " ++ rest
  | none => "Error \x7b " ++ rest

end ReadFault

/-- What a path leads to. -/
inductive FileNode
  | file (bytes : ByteArray)
  | directory

/-- Files and directories by the names that lead to them from the working directory. The name `/`
at the beginning stands for the root of all files, and `..` for what lies above. -/
structure FileTree where
  entries : List (List String × FileNode)

namespace FileTree

/-- The names of a path; empty ones stay where they are, like a single dot. -/
def names (path : String) : List String :=
  match path.splitOn "/" with
  | "" :: rest@(_ :: _) => "/" :: rest
  | names => names

/-- The names above some names. -/
def above (names : List String) : List String :=
  if names = ["/"] then
    names
  else if names.all (· == "..") then
    ".." :: names
  else
    names.dropLast

/-- What stands in the tree under some names. Whatever leads to an entry is a directory. -/
def node? (t : FileTree) (names : List String) : Option FileNode :=
  match t.entries.find? fun e => e.1 == names with
  | some e => some e.2
  | none =>
    if names.all (· == "..") || names == ["/"] || t.entries.any fun e => names.isPrefixOf e.1 then
      some .directory
    else
      none

/-- How many bytes a single name may have. -/
def nameLimit : Nat := 255

/-- How many bytes a path may have. -/
def pathLimit : Nat := 4095

/-- Follow names from a place in the tree to the bytes of a file. -/
def follow (t : FileTree) (here : List String) : List String → Except ReadFault ByteArray
  | [] =>
    match t.node? here with
    | none => .error .notFound
    | some .directory => .error .isDirectory
    | some (.file bytes) => .ok bytes
  | name :: rest =>
    match t.node? here with
    | none => .error .notFound
    | some (.file _) => .error .notDirectory
    | some .directory =>
      if name = "" ∨ name = "." then follow t here rest
      else if name = ".." then follow t (above here) rest
      else if name.utf8ByteSize > nameLimit then .error .nameTooLong
      else follow t (here ++ [name]) rest

/-- The bytes of the file under a path. -/
def bytes (t : FileTree) (path : String) : Except ReadFault ByteArray :=
  if path.toList.contains '\x00' then
    .error .nameWithNull
  else if path.utf8ByteSize > pathLimit then
    .error .nameTooLong
  else
    match names path with
    | "/" :: rest => t.follow ["/"] rest
    | names => t.follow [] names

end FileTree

/-- The text of some bytes, which are its UTF-8 form. -/
def textOfBytes (bytes : ByteArray) : Except ReadFault String :=
  match String.fromUTF8? bytes with
  | some text => .ok text
  | none => .error .invalidText

/-- The text of the file under a path. -/
def FileTree.text (t : FileTree) (path : String) : Except ReadFault String :=
  (t.bytes path).bind textOfBytes

end GridPuzzle
