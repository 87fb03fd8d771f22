import GridPuzzle.Json.Tree

/-!
# Reading values from JSON trees

A reader takes a value of the wanted form from a tree or reports the first fault in the order of
the text. A record is read from an object, whose members may come in any order and each once, or
from a list of its fields in their order, which may stop before fields that have a usual value.
-/

namespace GridPuzzle.Json

/-- Whether a unit of 16 bits is the first half of a surrogate pair. -/
def isLeading (n : Nat) : Bool := 0xD800 ≤ n && n ≤ 0xDBFF

/-- Whether a unit of 16 bits is the second half of a surrogate pair. -/
def isTrailing (n : Nat) : Bool := 0xDC00 ≤ n && n ≤ 0xDFFF

/-- The character of a surrogate pair. -/
def pairedChar (leading trailing : Nat) : Char :=
  Char.ofNat (0x10000 + (leading - 0xD800) * 0x400 + (trailing - 0xDC00))

/-- The fault of a first half that comes last in a string. -/
def loneFault : TextEnd → Fault
  | .cut => .cutText
  | .badWord => .invalidEscape
  | _ => .endOfSurrogate

/-- The characters of some pieces; those so far are given in reverse. -/
def decodePieces (ending : TextEnd) (done : List Char) : List Piece → Except Fault (List Char)
  | [] =>
    match ending.fault? with
    | none => .ok done.reverse
    | some f => .error f
  | .char c :: rest => decodePieces ending (c :: done) rest
  | .word n :: rest =>
    if isTrailing n then
      .error .loneSurrogate
    else if isLeading n then
      match rest with
      | .word m :: rest =>
        if isTrailing m then
          decodePieces ending (pairedChar n m :: done) rest
        else
          .error .loneSurrogate
      | .char _ :: _ => .error .endOfSurrogate
      | [] => .error (loneFault ending)
    else
      decodePieces ending (Char.ofNat n :: done) rest

/-- The string that is written. -/
def RawText.read (t : RawText) : Except Fault String :=
  (decodePieces t.ending [] t.pieces).map String.ofList

namespace Tree

/-- What a message says a tree is, or the fault that is met while looking at it. -/
def found : Tree → Except Fault Found
  | .null => .ok .null
  | .truth b => .ok (.truth b)
  | .number n =>
    n.value.map fun
      | .integer i => .integer i
      | .float negative magnitude => .float negative magnitude
  | .text t => t.read.map .text
  | .list _ _ => .ok .list
  | .object _ _ => .ok .object
  | .broken why => .error why.fault

/-- The fault of a tree that does not have the wanted form. -/
def mismatch {α : Type} (wanted : String) (t : Tree) : Except Fault α :=
  match t.found with
  | .ok found => .error (.wrongType found wanted)
  | .error f => .error f

/-- Read an integer between two bounds. -/
def readInteger (wanted : String) (least greatest : Int) (t : Tree) : Except Fault Int :=
  match t with
  | .number n =>
    match n.integer? with
    | some i => if least ≤ i ∧ i ≤ greatest then .ok i else .error (.wrongInteger i wanted)
    | none => t.mismatch wanted
  | _ => t.mismatch wanted

/-- Read a signed word of 32 bits. -/
def readInt32 (t : Tree) : Except Fault Int32 :=
  (t.readInteger "i32" Int32.minValue.toInt Int32.maxValue.toInt).map Int32.ofInt

/-- Read an unsigned word of 64 bits. -/
def readUInt64 (t : Tree) : Except Fault UInt64 :=
  (t.readInteger "u64" 0 (UInt64.size - 1)).map fun i => UInt64.ofNat i.toNat

/-- Read a string. -/
def readText (t : Tree) : Except Fault String :=
  match t with
  | .text raw => raw.read
  | _ => t.mismatch "a string"

/-- The fault of a list's end. -/
def listFault? : ListEnd → Option Fault
  | .closed => none
  | .cut => some .cutList
  | .cutAfterComma => some .cutValue
  | .closedAfterComma => some .trailingComma
  | .stray => some .expectedListSeparator
  | .inside f => some f

/-- Succeed unless there is a fault. -/
def guarded {α : Type} (fault? : Option Fault) (a : α) : Except Fault α :=
  match fault? with
  | none => .ok a
  | some f => .error f

/-- Read the items of a list, in order; those so far are given in reverse. -/
def readItems {α : Type} (read : Tree → Except Fault α) (ending : ListEnd) (done : List α) :
    List Tree → Except Fault (List α)
  | [] => guarded (listFault? ending) done.reverse
  | t :: rest =>
    match read t with
    | .ok a => readItems read ending (a :: done) rest
    | .error f => .error f

/-- Read a list. -/
def readList {α : Type} (read : Tree → Except Fault α) (t : Tree) : Except Fault (List α) :=
  match t with
  | .list items ending => readItems read ending [] items
  | _ => t.mismatch "a sequence"

end Tree

/-- One field of a record that is being read into a draft. -/
structure Field (σ : Type) where
  name : String
  /-- Whether a list may stop before this field. -/
  optional : Bool
  /-- Whether the draft holds the field already. -/
  isRead : σ → Bool
  /-- Read the field into the draft. -/
  read : Tree → σ → Except Fault σ

/-- How a record is read. -/
structure Record (σ α : Type) where
  /-- The name of the record in messages. -/
  title : String
  fields : List (Field σ)
  /-- Whether a member with an unknown key is a fault; otherwise it is skimmed. -/
  strict : Bool
  /-- The draft that holds nothing. -/
  empty : σ
  /-- Complete a draft, or report the first field that is missing. -/
  complete : σ → Except Fault α

namespace Record

variable {σ α : Type} (r : Record σ α)

/-- The fields of a record as a message wants them in a list. -/
def wantedLength : String :=
  r.title ++ " with " ++ Text.natural r.fields.length ++ " elements"

/-- The field with a key, or nothing for a key that may be skimmed. -/
def fieldOf (draft : σ) (key : String) : Except Fault (Option (Field σ)) :=
  match r.fields.find? fun f => f.name == key with
  | some f => if f.isRead draft then .error (.duplicateField key) else .ok (some f)
  | none =>
    if r.strict then .error (.unknownField key (r.fields.map Field.name)) else .ok none

/-- The fault of an object's end, after its members. -/
def objectFault? (draft : σ) : ObjectEnd → Option Fault
  | .closed => none
  | .cut => some .cutObject
  | .cutAfterComma => some .cutValue
  | .closedAfterComma => some .trailingComma
  | .stray => some .expectedObjectSeparator
  | .badKey => some .keyNotText
  | .atKey k isCut =>
    match k.read with
    | .error f => some f
    | .ok key =>
      match r.fieldOf draft key with
      | .error f => some f
      | .ok _ => some (colonFault isCut)
  | .inside f => some f

/-- Read the members of an object into a draft, in order. -/
def readMembers (ending : ObjectEnd) (draft : σ) : List (RawText × Tree) → Except Fault σ
  | [] => Tree.guarded (r.objectFault? draft ending) draft
  | (k, t) :: rest =>
    match k.read with
    | .error f => .error f
    | .ok key =>
      match r.fieldOf draft key with
      | .error f => .error f
      | .ok none =>
        match t.skimmed? with
        | none => readMembers ending draft rest
        | some f => .error f
      | .ok (some field) =>
        match field.read t draft with
        | .ok draft => readMembers ending draft rest
        | .error f => .error f

/-- The fault of a list after the last field. -/
def surplusFault? (ending : ListEnd) : List Tree → Option Fault
  | _ :: _ => some .trailingCharacters
  | [] =>
    match ending with
    | .closed => none
    | .closedAfterComma => some .trailingComma
    | .cut => some .cutList
    | .cutAfterComma => some .trailingCharacters
    | .stray => some .trailingCharacters
    | .inside f => some f

/-- Read the items of a list into the fields of a draft, in order; `index` counts the fields. -/
def readFields (ending : ListEnd) (index : Nat) :
    List (Field σ) → σ → List Tree → Except Fault σ
  | [], draft, items => Tree.guarded (surplusFault? ending items) draft
  | field :: fields, draft, t :: rest =>
    match field.read t draft with
    | .ok draft => readFields ending (index + 1) fields draft rest
    | .error f => .error f
  | field :: fields, draft, [] =>
    match Tree.listFault? ending with
    | some f => .error f
    | none =>
      if field.optional then
        readFields ending (index + 1) fields draft []
      else
        .error (.wrongLength index r.wantedLength)

/-- Read a record from a tree. -/
def read (t : Tree) : Except Fault α :=
  match t with
  | .object members ending => (r.readMembers ending r.empty members).bind r.complete
  | .list items ending => (r.readFields ending 0 r.fields r.empty items).bind r.complete
  | _ => t.mismatch r.title

end Record

/-- A required field that is kept in a part of the draft. -/
def Field.required {σ α : Type} (name : String) (get : σ → Option α) (put : α → σ → σ)
    (read : Tree → Except Fault α) : Field σ :=
  ⟨name, false, fun draft => (get draft).isSome, fun t draft => (read t).map (put · draft)⟩

/-- A field that may be missing, kept in a part of the draft. -/
def Field.usual {σ α : Type} (name : String) (get : σ → Option α) (put : α → σ → σ)
    (read : Tree → Except Fault α) : Field σ :=
  { Field.required name get put read with optional := true }

/-- The part of a draft, or the fault of its absence. -/
def need {α : Type} (name : String) : Option α → Except Fault α
  | some a => .ok a
  | none => .error (.missingField name)

/-- A record of two required fields. -/
def pairRecord {α β γ : Type} (title first second : String) (readFirst : Tree → Except Fault α)
    (readSecond : Tree → Except Fault β) (make : α → β → γ) : Record (Option α × Option β) γ where
  title := title
  fields := [
    .required first Prod.fst (fun a d => (some a, d.2)) readFirst,
    .required second Prod.snd (fun b d => (d.1, some b)) readSecond]
  strict := false
  empty := (none, none)
  complete := fun d => (need first d.1).bind fun a => (need second d.2).bind fun b => .ok (make a b)

/-- The value of a text: read from its document, which nothing may follow. -/
def readDocument {α : Type} (read : Tree → Except Fault α) (text : String) : Except Fault α :=
  let d := Document.ofText text
  (read d.tree).bind fun a => if d.trailing then .error .trailingCharacters else .ok a

end GridPuzzle.Json
