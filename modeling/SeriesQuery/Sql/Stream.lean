import SeriesQuery.Sql.Token

/-!
# Token streams

Every clause is built as a stream of tokens. The text of a stream is the text of its tokens one
after the other, so the text of a composite stream is made of the texts of its parts:
`text_append` for two streams in a row and `text_join` for a separated list.
-/

namespace SeriesQuery.Sql

structure Stream where
  tokens : List Token
  deriving DecidableEq, Repr

namespace Stream

def empty : Stream := ⟨[]⟩

def of (tokens : List Token) : Stream := ⟨tokens⟩

def push (s : Stream) (t : Token) : Stream := ⟨s.tokens ++ [t]⟩

def append (s other : Stream) : Stream := ⟨s.tokens ++ other.tokens⟩

instance : Append Stream := ⟨append⟩

/-- The items in order with the separator between consecutive ones, never before the first or
after the last. -/
def separated (separator : Stream) : List Stream → Stream
  | [] => empty
  | [item] => item
  | item :: items => item ++ separator ++ separated separator items

def join (s : Stream) (items : List Stream) (separator : Stream) : Stream :=
  s ++ separated separator items

def text (s : Stream) : String := String.join (s.tokens.map Token.text)

instance : ToString Stream := ⟨fun s => s.tokens.foldl (fun out t => out ++ t.text) ""⟩

@[simp] theorem tokens_append (s other : Stream) :
    (s ++ other).tokens = s.tokens ++ other.tokens := rfl

@[simp] theorem text_empty : empty.text = "" := rfl

@[simp] theorem text_of_nil : (of []).text = "" := rfl

@[simp] theorem text_of_cons (t : Token) (ts : List Token) :
    (of (t :: ts)).text = t.text ++ (of ts).text := by
  simp [text, of]

@[simp] theorem text_append (s other : Stream) : (s ++ other).text = s.text ++ other.text := by
  simp [text]

@[simp] theorem text_push (s : Stream) (t : Token) : (s.push t).text = s.text ++ t.text := by
  simp [text, push]

theorem text_separated (separator : Stream) (items : List Stream) :
    (separated separator items).text = separator.text.intercalate (items.map text) := by
  fun_induction separated with
  | case1 => simp
  | case2 item => simp
  | case3 item items h ih =>
    cases items with
    | nil => exact absurd rfl h
    | cons next rest => simp [ih, String.append_assoc]

theorem text_join (s : Stream) (items : List Stream) (separator : Stream) :
    (s.join items separator).text = s.text ++ separator.text.intercalate (items.map text) := by
  simp [join, text_separated]

end Stream

/-- A step of a script that builds a stream. -/
inductive Step where
  | push (t : Token)
  | append (script : List Step)
  | join (items : List (List Step)) (separator : List Step)

namespace Stream

mutual

def run (s : Stream) : List Step → Stream
  | [] => s
  | step :: steps => run (take s step) steps

def take (s : Stream) : Step → Stream
  | .push t => s.push t
  | .append script => s ++ run empty script
  | .join items separator => s.join (runEach items) (run empty separator)

def runEach : List (List Step) → List Stream
  | [] => []
  | item :: items => run empty item :: runEach items

end

end Stream

end SeriesQuery.Sql
