import SeriesQuery.Double.Text

/-!
# JSON values

A number is an integer or a double. The fields of an object keep the order in which they were
given; `Value.sorted` puts them in the order of their keys, where the last of several fields with
one key stands for all of them.
-/

namespace SeriesQuery.Json

inductive Number where
  | integer (value : Int)
  | double (value : Double)
  deriving DecidableEq, Repr

inductive Value where
  | null
  | bool (value : Bool)
  | number (value : Number)
  | string (value : String)
  | array (items : List Value)
  | object (fields : List (String × Value))
  deriving Repr, Inhabited

/-- Puts a field into a list that is sorted by key, in place of a field with the same key. -/
def insertField {α : Type} (key : String) (value : α) : List (String × α) → List (String × α)
  | [] => [(key, value)]
  | (k, v) :: rest =>
    if key = k then (key, value) :: rest
    else if key < k then (key, value) :: (k, v) :: rest
    else (k, v) :: insertField key value rest

def sortFields {α : Type} (fields : List (String × α)) : List (String × α) :=
  fields.foldl (fun sorted (key, value) => insertField key value sorted) []

namespace Value

mutual

/-- The same value with the fields of every object sorted. -/
def sorted : Value → Value
  | .array items => .array (sortedItems items)
  | .object fields => .object (sortFields (sortedFields fields))
  | value => value

def sortedItems : List Value → List Value
  | [] => []
  | item :: items => item.sorted :: sortedItems items

def sortedFields : List (String × Value) → List (String × Value)
  | [] => []
  | (key, value) :: fields => (key, value.sorted) :: sortedFields fields

end

def field? (key : String) : Value → Option Value
  | .object fields => fields.lookup key
  | _ => none

end Value

end SeriesQuery.Json
