import SeriesQuery.Json.Node
import SeriesQuery.Text.Quoted

/-!
# Reading typed content

A reader takes a node and gives typed content or a fault. It meets the parts of the node in the
order of the text and reports the first fault: the text is malformed, or the content is not what is
wanted. A text may not open more than 127 containers within each other, except in values that
nobody asked for, which are only passed over.

Content comes from a text or from a value that has been read before. The two differ in the limit
on open containers and in what they say of an array with too many elements.
-/

namespace SeriesQuery.Json

/-- What a node turned out to be. -/
inductive Found where
  | null
  | bool (value : Bool)
  | number (value : Number)
  | string (value : String)
  | sequence
  | map
  deriving DecidableEq, Repr

/-- A record is written as an object, or as an array of its fields in order. -/
structure RecordShape where
  title : String
  fields : List String
  /-- The fields that must be present, which are the first ones. -/
  required : List String
  deriving DecidableEq, Repr

inductive Wanted where
  | string
  | bool
  | sequence
  | record (shape : RecordShape)
  deriving DecidableEq, Repr

/-- Why a document cannot be read; `ε` is what may be wrong with the typed content itself. -/
inductive Fault (ε : Type) where
  | malformed
  | wrongType (found : Found) (wanted : Wanted)
  | missingField (name : String)
  | duplicateField (name : String)
  | tooFewElements (count : Nat) (shape : RecordShape)
  | tooManyElements (count : Nat)
  | content (cause : ε)
  deriving DecidableEq, Repr

namespace Found

def text : Found → String
  | .null => "null"
  | .bool true => "boolean \x60true\x60"
  | .bool false => "boolean \x60false\x60"
  | .number (.integer n) => "integer \x60" ++ toString n ++ "\x60"
  | .number (.double x) => "floating point \x60" ++ String.ofList x.chars ++ "\x60"
  | .string s => "string " ++ Text.quoted s
  | .sequence => "sequence"
  | .map => "map"

end Found

def Wanted.text : Wanted → String
  | .string => "a string"
  | .bool => "a boolean"
  | .sequence => "a sequence"
  | .record shape => "struct " ++ shape.title

/-- The message of a fault in the content; a malformed text has no wording of its own. -/
def Fault.message {ε : Type} (causeMessage : ε → String) : Fault ε → String
  | .malformed => ""
  | .wrongType found wanted => "invalid type: " ++ found.text ++ ", expected " ++ wanted.text
  | .missingField name => "missing field \x60" ++ name ++ "\x60"
  | .duplicateField name => "duplicate field \x60" ++ name ++ "\x60"
  | .tooFewElements count shape =>
    "invalid length " ++ toString count ++ ", expected struct " ++ shape.title ++ " with " ++
      toString shape.fields.length ++ " elements"
  | .tooManyElements count =>
    "invalid length " ++ toString count ++ ", expected fewer elements in array"
  | .content cause => causeMessage cause

/-- Where content comes from. -/
inductive Origin where
  /-- A text in which `room` more containers may be opened at this place. -/
  | text (room : Nat)
  | value
  deriving DecidableEq, Repr

def Origin.start : Origin := .text 127

def Origin.inside? : Origin → Option Origin
  | .text 0 => none
  | .text (room + 1) => some (.text room)
  | .value => some .value

section

variable {ε α σ : Type}

def Origin.enter (origin : Origin) : Except (Fault ε) Origin :=
  match origin.inside? with
  | some inside => .ok inside
  | none => .error .malformed

namespace Node

/-- What is found where something else is wanted. -/
def found? : Node → Option Found
  | .null => some .null
  | .bool b => some (.bool b)
  | .number n => n.map .number
  | .string s => s.map .string
  | .array _ _ => some .sequence
  | .object _ _ => some .map
  | .broken => none

def mismatch (node : Node) (wanted : Wanted) : Fault ε :=
  match node.found? with
  | some found => .wrongType found wanted
  | none => .malformed

def readString : Node → Except (Fault ε) String
  | .string (some s) => .ok s
  | node => .error (node.mismatch .string)

def readBool : Node → Except (Fault ε) Bool
  | .bool b => .ok b
  | node => .error (node.mismatch .bool)

/-- Null stands for absence. -/
def readOption (read : Node → Except (Fault ε) α) : Node → Except (Fault ε) (Option α)
  | .null => .ok none
  | node => (read node).map some

def readItems (read : Node → Except (Fault ε) α) (closed : Bool) :
    List Node → Except (Fault ε) (List α)
  | [] => if closed then .ok [] else .error .malformed
  | item :: items => do
    let a ← read item
    let as ← readItems read closed items
    return a :: as

def readList (origin : Origin) (read : Origin → Node → Except (Fault ε) α) :
    Node → Except (Fault ε) (List α)
  | .array items closed => do readItems (read (← origin.enter)) closed items
  | node => .error (node.mismatch .sequence)

/-- A value that nobody asked for. -/
def skip (node : Node) : Except (Fault ε) Unit :=
  if node.isWhole then .ok () else .error .malformed

mutual

/-- The value of a node, with the fields of its objects sorted. -/
def readValue (origin : Origin) : Node → Except (Fault ε) Value
  | .null => .ok .null
  | .bool b => .ok (.bool b)
  | .number (some n) => .ok (.number n)
  | .string (some s) => .ok (.string s)
  | .array items true => do
    return .array (← readValues (← origin.enter) items)
  | .object fields true => do
    return .object (sortFields (← readFields (← origin.enter) fields))
  | _ => .error .malformed

def readValues (origin : Origin) : List Node → Except (Fault ε) (List Value)
  | [] => .ok []
  | item :: items => do
    let value ← readValue origin item
    let values ← readValues origin items
    return value :: values

def readFields (origin : Origin) : List (Option String × Node) →
    Except (Fault ε) (List (String × Value))
  | [] => .ok []
  | (some key, node) :: fields => do
    let value ← readValue origin node
    let rest ← readFields origin fields
    return (key, value) :: rest
  | (none, _) :: _ => .error .malformed

end

end Node

structure RecordReader (ε σ : Type) where
  shape : RecordShape
  set : Origin → String → σ → Node → Except (Fault ε) σ

namespace RecordReader

variable (reader : RecordReader ε σ)

/-- Reads the fields of an object in their order, with the names of those already seen. -/
def readFields (origin : Origin) (closed : Bool) :
    List (Option String × Node) → List String → σ → Except (Fault ε) σ
  | [], seen, record =>
    if closed then
      match reader.shape.required.find? (· ∉ seen) with
      | some name => .error (.missingField name)
      | none => .ok record
    else .error .malformed
  | (none, _) :: _, _, _ => .error .malformed
  | (some key, node) :: fields, seen, record =>
    if key ∈ reader.shape.fields then
      if key ∈ seen then .error (.duplicateField key)
      else do
        let record ← reader.set origin key record node
        readFields origin closed fields (key :: seen) record
    else do
      node.skip
      readFields origin closed fields seen record

/-- Reads the elements of an array into the fields with the given names. -/
def readElements (origin : Origin) : List String → List Node → σ → Except (Fault ε) σ
  | name :: names, item :: items, record => do
    let record ← reader.set origin name record item
    readElements origin names items record
  | _, _, record => .ok record

/-- Whether an array of a given length can stand for the record. -/
def checkLength (origin : Origin) (closed : Bool) (count : Nat) : Except (Fault ε) Unit :=
  if count ≤ reader.shape.fields.length then
    if closed then
      if count < reader.shape.required.length then .error (.tooFewElements count reader.shape)
      else .ok ()
    else .error .malformed
  else
    match origin with
    | .text _ => .error .malformed
    | .value => .error (.tooManyElements count)

def read (origin : Origin) (initial : σ) : Node → Except (Fault ε) σ
  | .object fields closed => do readFields reader (← origin.enter) closed fields [] initial
  | .array items closed => do
    let record ← readElements reader (← origin.enter) reader.shape.fields items initial
    checkLength reader origin closed items.length
    return record
  | node => .error (node.mismatch (.record reader.shape))

end RecordReader

/-- Reads a text that holds one document. -/
def readText (read : Origin → Node → Except (Fault ε) α) (text : String) : Except (Fault ε) α := do
  let document := Document.ofText text
  let a ← read .start document.root
  if document.sound then return a else .error .malformed

/-- Reads content from a value; the fields of its objects are met in the order of their keys. -/
def readFrom (read : Origin → Node → Except (Fault ε) α) (value : Value) : Except (Fault ε) α :=
  read .value (Node.ofValue value.sorted)

/-- The value written in a text, if the text is well formed. -/
def Value.ofText? (text : String) : Option Value :=
  match readText (ε := Empty) Node.readValue text with
  | .ok value => some value
  | .error _ => none

end

end SeriesQuery.Json
