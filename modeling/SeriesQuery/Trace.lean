/-!
# Traces

What a computation reports on its way. `Traced` pairs a result with the events reported before it,
in order.
-/

namespace SeriesQuery

inductive Event where
  | cacheHit (key : String)
  | rawQuery
  /-- The start of a statement. -/
  | statement (table : String)
  | timeColumn (isNamed : Bool)
  | valueColumn (parts : Nat)
  | datasetUnset (table placeholder : String)
  | conditions (count : Nat)
  | group (parts : Nat)
  | compiled (columns bytes : Nat)
  deriving DecidableEq, Repr

inductive Level where
  | trace
  | debug
  | warn
  deriving DecidableEq, Repr

def Level.text : Level → String
  | .trace => "TRACE"
  | .debug => "DEBUG"
  | .warn => "WARN"

inductive FieldValue where
  | text (value : String)
  | count (value : Nat)
  | flag (value : Bool)
  deriving DecidableEq, Repr

namespace Event

def level : Event → Level
  | .cacheHit _ => .trace
  | .rawQuery => .debug
  | .statement _ => .debug
  | .timeColumn _ => .trace
  | .valueColumn _ => .trace
  | .datasetUnset _ _ => .warn
  | .conditions _ => .trace
  | .group _ => .trace
  | .compiled _ _ => .debug

/-- Whether the event opens a span, within which the events after it lie. -/
def isSpan : Event → Bool
  | .statement _ => true
  | _ => false

/-- The message of an event, or the name of a span. -/
def title : Event → String
  | .cacheHit _ => "compile cache hit"
  | .rawQuery => "raw query, skipping compilation"
  | .statement _ => "build_query"
  | .timeColumn _ => "time column"
  | .valueColumn _ => "value column"
  | .datasetUnset _ _ => "dataset is unset, emitting placeholder"
  | .conditions _ => "where clause"
  | .group _ => "group clause"
  | .compiled _ _ => "compiled query"

def fields : Event → List (String × FieldValue)
  | .cacheHit key => [("key", .text key)]
  | .rawQuery => []
  | .statement table => [("table", .text table)]
  | .timeColumn isNamed => [("alias", .flag isNamed)]
  | .valueColumn parts => [("parts", .count parts)]
  | .datasetUnset table placeholder =>
    [("table", .text table), ("placeholder", .text placeholder)]
  | .conditions count => [("conditions", .count count)]
  | .group parts => [("parts", .count parts)]
  | .compiled columns bytes => [("columns", .count columns), ("bytes", .count bytes)]

end Event

@[ext]
structure Traced (α : Type) where
  value : α
  events : List Event
  deriving DecidableEq, Repr

namespace Traced

instance : Monad Traced where
  pure a := ⟨a, []⟩
  bind x f :=
    let y := f x.value
    ⟨y.value, x.events ++ y.events⟩

instance : LawfulMonad Traced := LawfulMonad.mk' Traced
  (fun _ => Traced.ext rfl (List.append_nil _))
  (fun _ _ => Traced.ext rfl (List.nil_append _))
  (fun _ _ _ => Traced.ext rfl (List.append_assoc _ _ _))

def emit (event : Event) : Traced Unit := ⟨(), [event]⟩

/-- Reports an event where a condition holds. -/
def emitIf (condition : Bool) (event : Event) : Traced Unit :=
  if condition then emit event else pure ()

variable {α β : Type}

@[simp] theorem value_pure (a : α) : (pure a : Traced α).value = a := rfl

@[simp] theorem events_pure (a : α) : (pure a : Traced α).events = [] := rfl

@[simp] theorem value_bind (x : Traced α) (f : α → Traced β) :
    (x >>= f).value = (f x.value).value := rfl

@[simp] theorem events_bind (x : Traced α) (f : α → Traced β) :
    (x >>= f).events = x.events ++ (f x.value).events := rfl

@[simp] theorem events_emit (event : Event) : (emit event).events = [event] := rfl

@[simp] theorem events_emitIf (condition : Bool) (event : Event) :
    (emitIf condition event).events = if condition then [event] else [] := by
  cases condition <;> rfl

section

/-! A computation that may fail reports what it met up to the failure. -/

variable {ε : Type}

theorem value_run_bind (x : ExceptT ε Traced α) (f : α → ExceptT ε Traced β) :
    (x >>= f).run.value = x.run.value.bind fun a => (f a).run.value := by
  rw [ExceptT.run_bind, value_bind]
  cases x.run.value <;> rfl

theorem events_run_bind (x : ExceptT ε Traced α) (f : α → ExceptT ε Traced β) :
    (x >>= f).run.events =
      x.run.events ++ (match x.run.value with
        | .ok a => (f a).run.events
        | .error _ => []) := by
  rw [ExceptT.run_bind, events_bind]
  cases x.run.value <;> rfl

@[simp] theorem value_run_lift (x : Traced α) :
    (liftM x : ExceptT ε Traced α).run.value = .ok x.value := rfl

@[simp] theorem events_run_lift (x : Traced α) :
    (liftM x : ExceptT ε Traced α).run.events = x.events := List.append_nil _

end

end Traced

end SeriesQuery
