/-!
# The most recently used entries

A bounded list of entries, the most recently used first. Looking an entry up moves it to the front;
putting a new one in drops the last when the list is full.
-/

namespace SeriesQuery.Cache

structure Recent (κ ν : Type) where
  capacity : Nat
  entries : List (κ × ν)
  deriving DecidableEq, Repr

namespace Recent

variable {κ ν : Type} [DecidableEq κ]

def empty (capacity : Nat) : Recent κ ν := ⟨capacity, []⟩

def size (r : Recent κ ν) : Nat := r.entries.length

def keys (r : Recent κ ν) : List κ := r.entries.map Prod.fst

/-- The entries without the one of a given key. -/
def without (key : κ) (entries : List (κ × ν)) : List (κ × ν) :=
  entries.filter fun entry => entry.1 ≠ key

/-- The value of a key, and the list with its entry moved to the front. -/
def touch? (r : Recent κ ν) (key : κ) : Option (ν × Recent κ ν) :=
  (r.entries.find? fun entry => entry.1 = key).map fun entry =>
    (entry.2, { r with entries := entry :: without key r.entries })

/-- Puts an entry in front, and gives back the one that it displaces: the one with its key, or else
the last one when the list is full. -/
def push (r : Recent κ ν) (key : κ) (value : ν) : Recent κ ν × Option (κ × ν) :=
  let entries := (key, value) :: without key r.entries
  ({ r with entries := entries.take r.capacity },
    (r.entries.find? fun entry => entry.1 = key).or entries[r.capacity]?)

end Recent

end SeriesQuery.Cache
