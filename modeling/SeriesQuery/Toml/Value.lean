/-!
# TOML values and tables

A table remembers how it came to be, because that decides what may still be added to it: by a
header, as part of a longer header, as part of a dotted key, or inline. Only strings, integers and
booleans are ever asked for by value; of floats and dates it is enough to know that they are there.
A number is looked at only when somebody reads it, so a value may hold one that stands for nothing.
-/

namespace SeriesQuery.Toml

inductive TableForm where
  | header
  | implied
  | dotted
  | inline
  deriving DecidableEq, Repr

inductive Value where
  | string (value : String)
  | integer (value : Int)
  | float
  /-- A number that has no value: it is too large, has no digits, or has letters among them. -/
  | unreadable
  | bool (value : Bool)
  | date
  /-- An array, and whether it is made of tables with headers. -/
  | array (items : List Value) (ofTables : Bool)
  | table (form : TableForm) (fields : List (String × Value))
  deriving Repr, Inhabited

namespace Value

def string? : Value → Option String
  | .string s => some s
  | _ => none

def bool? : Value → Option Bool
  | .bool b => some b
  | _ => none

/-- A natural number that fits a 64-bit word. -/
def natural? : Value → Option Nat
  | .integer n => if 0 ≤ n ∧ n.toNat < UInt64.size then some n.toNat else none
  | _ => none

mutual

/-- Whether every number in a value can be read. -/
def isReadable : Value → Bool
  | .unreadable => false
  | .array items _ => areReadable items
  | .table _ fields => fieldsAreReadable fields
  | _ => true

def areReadable : List Value → Bool
  | [] => true
  | item :: items => item.isReadable && areReadable items

def fieldsAreReadable : List (String × Value) → Bool
  | [] => true
  | (_, value) :: fields => value.isReadable && fieldsAreReadable fields

end

end Value

structure Table where
  form : TableForm
  fields : List (String × Value)
  deriving Repr

def Table.value (t : Table) : Value := .table t.form t.fields

namespace Table

def replace (key : String) (value : Value) : List (String × Value) → List (String × Value)
  | [] => [(key, value)]
  | (k, v) :: rest => if k = key then (key, value) :: rest else (k, v) :: replace key value rest

/-- Changes the table at the end of a path, creating what is not there yet. The path may lead
through the last table of an array, but not into inline tables; a dotted key may not lead into
tables that have a header of their own. -/
def change (dotted : Bool) (act : Table → Option Table) : List String → Table → Option Table
  | [], t => act t
  | key :: path, t =>
    match t.fields.lookup key with
    | none => do
      let inner ← change dotted act path ⟨if dotted then .dotted else .implied, []⟩
      return { t with fields := t.fields ++ [(key, inner.value)] }
    | some (.table form fields) =>
      if form = .inline ∨ (dotted ∧ form = .header) then none
      else do
        let inner ← change dotted act path ⟨form, fields⟩
        return { t with fields := replace key inner.value t.fields }
    | some (.array items true) =>
      match items.getLast? with
      | some (.table form fields) => do
        let inner ← change dotted act path ⟨form, fields⟩
        let items := items.dropLast ++ [inner.value]
        return { t with fields := replace key (.array items true) t.fields }
      | _ => none
    | some _ => none

/-- Adds a value under a dotted key. Tables that a dotted key leads to take only dotted keys, and
no other tables do. -/
def assign (path : List String) (key : String) (value : Value) : Table → Option Table :=
  change true (fun t =>
    if (t.form == .dotted) = path.isEmpty then none
    else
      match t.fields.lookup key with
      | some _ => none
      | none => some { t with fields := t.fields ++ [(key, value)] }) path

/-- Opens a table by its header; one that a longer header has implied may still be opened. -/
def openTable (path : List String) (key : String) : Table → Option Table :=
  change false (fun t =>
    match t.fields.lookup key with
    | none => some { t with fields := t.fields ++ [(key, .table .header [])] }
    | some (.table .implied fields) =>
      some { t with fields := replace key (.table .header fields) t.fields }
    | some _ => none) path

def openItem (path : List String) (key : String) : Table → Option Table :=
  change false (fun t =>
    match t.fields.lookup key with
    | none => some { t with fields := t.fields ++ [(key, .array [.table .header []] true)] }
    | some (.array items true) =>
      some { t with fields := replace key (.array (items ++ [.table .header []]) true) t.fields }
    | some _ => none) path

/-- Adds a value under a dotted key of the table that a header has opened. -/
def assignIn (header path : List String) (key : String) (value : Value) : Table → Option Table :=
  change false (assign path key value) header

end Table

end SeriesQuery.Toml
