import GridPuzzle.Json.Lexeme

/-!
# JSON trees

The tree of a text shows the values that the text holds up to the place where its syntax breaks.
The break is a part of the tree: it stands in the innermost value that is not complete, and every
value around it carries the fault that skimming would report. The tree is built from the lexemes
with the open values on a stack, so no depth of nesting is too much.
-/

namespace GridPuzzle.Json

/-- Why no value stands where one is due. -/
inductive Break
  /-- The text ends. -/
  | cut
  /-- Something that starts no value. -/
  | stray
  | word (cut : Bool)
  | number (cut : Bool)
  deriving DecidableEq, Repr

/-- How a list ends. -/
inductive ListEnd
  | closed
  /-- By the end of the text, where a comma or the closing bracket is due. -/
  | cut
  /-- By the end of the text after a comma. -/
  | cutAfterComma
  /-- By the closing bracket after a comma. -/
  | closedAfterComma
  /-- By something else than a comma or the closing bracket. -/
  | stray
  /-- Its last item is not complete. -/
  | inside (skimmed : Fault)
  deriving DecidableEq, Repr

/-- How an object ends. -/
inductive ObjectEnd
  | closed
  /-- By the end of the text, where a comma or the closing brace is due. -/
  | cut
  /-- By the end of the text after a comma. -/
  | cutAfterComma
  /-- By the closing brace after a comma. -/
  | closedAfterComma
  /-- By something else than a comma or the closing brace. -/
  | stray
  /-- By something that is not a string where a key is due. -/
  | badKey
  /-- After a key, or inside it: no colon follows, because the text ends or otherwise. -/
  | atKey (key : RawText) (cut : Bool)
  /-- Its last value is not complete. -/
  | inside (skimmed : Fault)
  deriving DecidableEq, Repr

/-- The values of a text, up to its break. -/
inductive Tree
  | null
  | truth (b : Bool)
  | number (n : Number)
  | text (t : RawText)
  | list (items : List Tree) (ending : ListEnd)
  | object (members : List (RawText × Tree)) (ending : ObjectEnd)
  | broken (why : Break)
  deriving Repr

/-- The fault of a missing value. -/
def Break.fault : Break → Fault
  | .cut => .cutValue
  | .stray => .expectedValue
  | .word true => .cutValue
  | .word false => .expectedWord
  | .number true => .cutValue
  | .number false => .invalidNumber

/-- The fault of a missing value that is only skimmed. -/
def Break.skimmed : Break → Fault
  | .number _ => .invalidNumber
  | why => why.fault

/-- The fault of a string's end. -/
def TextEnd.fault? : TextEnd → Option Fault
  | .closed => none
  | .cut => some .cutText
  | .badEscape => some .invalidEscape
  | .badWord => some .invalidEscape
  | .control => some .controlCharacter

/-- The fault of a missing colon. -/
def colonFault (cut : Bool) : Fault := if cut then .cutObject else .expectedColon

/-- The fault of a list's end when the list is only skimmed. -/
def ListEnd.skimmed? : ListEnd → Option Fault
  | .closed => none
  | .cut => some .cutList
  | .cutAfterComma => some .cutValue
  | .closedAfterComma => some .expectedValue
  | .stray => some .expectedListSeparator
  | .inside f => some f

/-- The fault of an object's end when the object is only skimmed. -/
def ObjectEnd.skimmed? : ObjectEnd → Option Fault
  | .closed => none
  | .cut => some .cutObject
  | .cutAfterComma => some .cutObject
  | .closedAfterComma => some .keyNotText
  | .stray => some .expectedObjectSeparator
  | .badKey => some .keyNotText
  | .atKey k isCut => some (k.ending.fault?.getD (colonFault isCut))
  | .inside f => some f

/-- The fault that skimming over a value meets: its syntax alone is looked at. -/
def Tree.skimmed? : Tree → Option Fault
  | .null => none
  | .truth _ => none
  | .number _ => none
  | .text t => t.ending.fault?
  | .list _ ending => ending.skimmed?
  | .object _ ending => ending.skimmed?
  | .broken why => some why.skimmed

/-- A value that is still open, with what it holds so far in reverse. -/
inductive Frame
  | list (items : List Tree)
  /-- The key belongs to the value that is being read. -/
  | object (members : List (RawText × Tree)) (key : RawText)
  deriving Repr

/-- What is due next. -/
inductive Due
  /-- A value. -/
  | value
  /-- The first item of a list, or its end. -/
  | firstItem
  /-- Another item of a list. -/
  | item (items : List Tree)
  /-- What follows a value. -/
  | after (t : Tree)
  /-- The first key of an object, or its end. -/
  | firstKey
  /-- Another key of an object. -/
  | key (members : List (RawText × Tree))
  /-- The colon after a key. -/
  | colon (members : List (RawText × Tree)) (key : RawText)
  deriving Repr

/-- A text as one value. -/
structure Document where
  tree : Tree
  /-- Whether something follows the value. -/
  trailing : Bool
  deriving Repr

/-- Close the open values around an incomplete one. -/
def wrap : List Frame → Tree → Tree
  | [], t => t
  | .list items :: stack, t =>
    wrap stack (.list (t :: items).reverse (.inside (t.skimmed?.getD .cutList)))
  | .object members key :: stack, t =>
    wrap stack (.object ((key, t) :: members).reverse (.inside (t.skimmed?.getD .cutObject)))

/-- The document of a text that ends inside some open values. -/
def brokenOff (stack : List Frame) (t : Tree) : Document := ⟨wrap stack t, false⟩

/-- The document of a text that ends where something is due. -/
def Due.atEnd (stack : List Frame) : Due → Document
  | .value => brokenOff stack (.broken .cut)
  | .firstItem => brokenOff stack (.list [] .cut)
  | .item items => brokenOff stack (.list items.reverse .cutAfterComma)
  | .after t =>
    match stack with
    | [] => ⟨t, false⟩
    | .list items :: stack => brokenOff stack (.list (t :: items).reverse .cut)
    | .object members k :: stack => brokenOff stack (.object ((k, t) :: members).reverse .cut)
  | .firstKey => brokenOff stack (.object [] .cut)
  | .key members => brokenOff stack (.object members.reverse .cutAfterComma)
  | .colon members k => brokenOff stack (.object members.reverse (.atKey k true))

/-- What a lexeme does: it leads to something else being due, or the text is done with. -/
inductive Turn
  | due (stack : List Frame) (next : Due)
  | done (d : Document)
  deriving Repr

/-- A lexeme where a value is due. -/
def startValue (stack : List Frame) : Lexeme → Turn
  | .null => .due stack (.after .null)
  | .truth b => .due stack (.after (.truth b))
  | .number n => .due stack (.after (.number n))
  | .text t =>
    if t.ending = .closed then .due stack (.after (.text t)) else .done (brokenOff stack (.text t))
  | .openList => .due stack .firstItem
  | .openObject => .due stack .firstKey
  | .brokenWord cut => .done (brokenOff stack (.broken (.word cut)))
  | .brokenNumber cut => .done (brokenOff stack (.broken (.number cut)))
  | _ => .done (brokenOff stack (.broken .stray))

/-- A lexeme where a key is due. -/
def startKey (stack : List Frame) (members : List (RawText × Tree)) : Lexeme → Turn
  | .text t =>
    if t.ending = .closed then
      .due stack (.colon members t)
    else
      .done (brokenOff stack (.object members.reverse (.atKey t false)))
  | _ => .done (brokenOff stack (.object members.reverse .badKey))

/-- A lexeme after a value inside an open one. -/
def continueValue (stack : List Frame) (t : Tree) : Lexeme → Turn
  | l =>
    match stack with
    | [] => .done ⟨t, true⟩
    | .list items :: stack =>
      match l with
      | .comma => .due stack (.item (t :: items))
      | .closeList => .due stack (.after (.list (t :: items).reverse .closed))
      | _ => .done (brokenOff stack (.list (t :: items).reverse .stray))
    | .object members key :: stack =>
      match l with
      | .comma => .due stack (.key ((key, t) :: members))
      | .closeObject => .due stack (.after (.object ((key, t) :: members).reverse .closed))
      | _ => .done (brokenOff stack (.object ((key, t) :: members).reverse .stray))

/-- What one lexeme does where something is due. -/
def Due.turn (stack : List Frame) : Due → Lexeme → Turn
  | .value, l => startValue stack l
  | .firstItem, .closeList => .due stack (.after (.list [] .closed))
  | .firstItem, l => startValue (.list [] :: stack) l
  | .item items, .closeList => .done (brokenOff stack (.list items.reverse .closedAfterComma))
  | .item items, l => startValue (.list items :: stack) l
  | .after t, l => continueValue stack t l
  | .firstKey, .closeObject => .due stack (.after (.object [] .closed))
  | .firstKey, l => startKey stack [] l
  | .key members, .closeObject =>
    .done (brokenOff stack (.object members.reverse .closedAfterComma))
  | .key members, l => startKey stack members l
  | .colon members k, .colon => .due (.object members k :: stack) .value
  | .colon members k, _ => .done (brokenOff stack (.object members.reverse (.atKey k false)))

/-- Build the document of some lexemes where something is due. -/
def build (stack : List Frame) (due : Due) : List Lexeme → Document
  | [] => due.atEnd stack
  | l :: ls =>
    match due.turn stack l with
    | .due stack due => build stack due ls
    | .done d => d

/-- The document of a text. -/
def Document.ofText (text : String) : Document := build [] .value (Lexeme.ofText text)

end GridPuzzle.Json
