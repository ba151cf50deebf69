import SeriesQuery.Sql.Stream

/-!
# The texts of scripts

The text that a script writes is put together from its tokens alone, without a stream. A stream
that is built by the script, on top of whatever it held before, has this text behind its own.
-/

namespace SeriesQuery.Sql

/-- The items in order, each but the first with the separator in front of it. -/
def listed (separator : String) : List String → String
  | [] => ""
  | item :: items => item ++ String.join (items.map fun next => separator ++ next)

theorem intercalate_cons (separator item : String) (items : List String) :
    separator.intercalate (item :: items) =
      item ++ String.join (items.map fun next => separator ++ next) := by
  induction items generalizing item with
  | nil => simp
  | cons next items ih => simp [String.intercalate_cons_cons, ih, String.append_assoc]

theorem intercalate_eq_listed (separator : String) (items : List String) :
    separator.intercalate items = listed separator items := by
  cases items with
  | nil => exact String.intercalate_nil
  | cons item items => exact intercalate_cons separator item items

namespace Step

mutual

def text : Step → String
  | .push t => t.text
  | .append script => scriptText script
  | .join items separator => listed (scriptText separator) (scriptTexts items)

def scriptText : List Step → String
  | [] => ""
  | step :: steps => step.text ++ scriptText steps

def scriptTexts : List (List Step) → List String
  | [] => []
  | item :: items => scriptText item :: scriptTexts items

end

end Step

namespace Stream

theorem text_join_eq_listed (s : Stream) (items : List Stream) (separator : Stream) :
    (s.join items separator).text = s.text ++ listed separator.text (items.map text) := by
  rw [text_join, intercalate_eq_listed]

theorem toString_eq_text (s : Stream) : toString s = s.text := by
  have hfold : ∀ (out : String) (ts : List Token),
      ts.foldl (fun out t => out ++ t.text) out = out ++ (of ts).text := by
    intro out ts
    induction ts generalizing out with
    | nil => exact String.append_empty.symm
    | cons t ts ih => rw [List.foldl_cons, ih, text_of_cons, String.append_assoc]
  exact (hfold "" s.tokens).trans String.empty_append

mutual

/-- One step writes its text behind the text that is there. -/
theorem text_take (s : Stream) (step : Step) : (s.take step).text = s.text ++ step.text := by
  match step with
  | .push t => rw [take, text_push, Step.text]
  | .append script => rw [take, text_append, text_run empty script, text_empty, Step.text,
      String.empty_append]
  | .join items separator =>
    rw [take, text_join_eq_listed, text_run empty separator, map_text_runEach items, text_empty,
      String.empty_append, Step.text]

theorem text_run (s : Stream) (script : List Step) :
    (s.run script).text = s.text ++ Step.scriptText script := by
  match script with
  | [] => rw [run, Step.scriptText, String.append_empty]
  | step :: steps =>
    rw [run, text_run (s.take step) steps, text_take s step, Step.scriptText, String.append_assoc]

theorem map_text_runEach (items : List (List Step)) :
    (runEach items).map text = Step.scriptTexts items := by
  match items with
  | [] => rfl
  | item :: items =>
    rw [runEach, List.map_cons, text_run empty item, text_empty, String.empty_append,
      map_text_runEach items, Step.scriptTexts]

end

end Stream

/-- Whatever script builds a stream, nested to any depth, its text is the text of the script behind
the text that the stream had before, however the text is asked for. A token, a stream and a list
with separators each add their own text, a list one separator between each two of its items, be
they empty or not. -/
theorem scripts_write_their_texts (s : Stream) :
    (∀ script, (s.run script).text = s.text ++ Step.scriptText script ∧
      toString (s.run script) = s.text ++ Step.scriptText script) ∧
    (∀ t, (s.push t).text = s.text ++ t.text) ∧
    ((s.push .space).text = s.text ++ " " ∧ (s.push .newline).text = s.text ++ "\n" ∧
      (s.push .comma).text = s.text ++ "," ∧ (s.push .openParen).text = s.text ++ "(" ∧
      (s.push .closeParen).text = s.text ++ ")" ∧
      (∀ levels, (s.push (.indent levels)).text = s.text ++ indentation levels) ∧
      ∀ sql, (s.push (.fragment sql)).text = s.text ++ sql) ∧
    (∀ other : Stream, (s ++ other).text = s.text ++ other.text) ∧
    (∀ (items : List Stream) (separator : Stream),
      (s.join items separator).text = s.text ++ listed separator.text (items.map Stream.text)) ∧
    toString s = s.text := by
  refine ⟨fun script => ⟨s.text_run script, ?_⟩, s.text_push, ?_, s.text_append,
    s.text_join_eq_listed, s.toString_eq_text⟩
  · rw [Stream.toString_eq_text, Stream.text_run]
  · exact ⟨s.text_push _, s.text_push _, s.text_push _, s.text_push _, s.text_push _,
      fun _ => s.text_push _, fun _ => s.text_push _⟩

example : (Stream.of [.comma]).run
    [.join [[], [.append [.push .space]], []] [.join [[.push .dot], [.push .dot]] [.push .minus]]] =
    Stream.of [.comma, .dot, .minus, .dot, .space, .dot, .minus, .dot] := by rfl

end SeriesQuery.Sql
