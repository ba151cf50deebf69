/-!
# References to environment variables

A text may refer to variables as `${name}`, where the name ends at the first closing brace, or as
`$name`, where it is the longest run of ASCII letters, digits and underscores. A dollar sign that
starts neither, or a run that begins with two underscores, stands for itself. A template is a text
cut into references and plain characters; expanding it puts each value in the place of its
reference and looks at no value again.
-/

namespace SeriesQuery.Config

abbrev Environment := String → Option String

inductive Segment where
  | plain (c : Char)
  | reference (name : List Char)
  /-- A brace that is never closed, with everything after it. -/
  | unclosed
  deriving DecidableEq, Repr

inductive ExpandFault where
  | missingVariable (name : String)
  | unterminated (text : String)
  deriving DecidableEq, Repr

def ExpandFault.message : ExpandFault → String
  | .missingVariable name => "Missing environment variable: " ++ name
  | .unterminated text => "Unterminated variable reference in: " ++ text

namespace Template

def isNameChar (c : Char) : Bool := c.isAlphanum || c == '_'

/-- Where the characters read so far leave off; names are in reverse. -/
inductive Scan where
  | outside
  | dollar
  | name (letters : List Char)
  | brace (letters : List Char)
  deriving DecidableEq, Repr

/-- A run of name characters after a dollar sign. -/
def ofName : List Char → List Segment
  | '_' :: '_' :: rest => ('$' :: '_' :: '_' :: rest).map .plain
  | name => [.reference name]

/-- What a character does outside of names. -/
def stepOutside (c : Char) : List Segment × Scan :=
  if c = '$' then ([], .dollar) else ([.plain c], .outside)

def step : Scan → Char → List Segment × Scan
  | .outside, c => stepOutside c
  | .dollar, c =>
    if c = '\x7b' then ([], .brace [])
    else if isNameChar c then ([], .name [c])
    else
      let (segments, next) := stepOutside c
      (.plain '$' :: segments, next)
  | .name letters, c =>
    if isNameChar c then ([], .name (c :: letters))
    else
      let (segments, next) := stepOutside c
      (ofName letters.reverse ++ segments, next)
  | .brace letters, c =>
    if c = '\x7d' then ([.reference letters.reverse], .outside) else ([], .brace (c :: letters))

def finish : Scan → List Segment
  | .outside => []
  | .dollar => [.plain '$']
  | .name letters => ofName letters.reverse
  | .brace _ => [.unclosed]

def run : Scan → List Char → List Segment
  | scan, [] => finish scan
  | scan, c :: cs =>
    let (segments, next) := step scan c
    segments ++ run next cs

def ofText (text : String) : List Segment := run .outside text.toList

def references (text : String) : List String :=
  (ofText text).filterMap fun
    | .reference name => some (String.ofList name)
    | _ => none

/-- The characters that a segment stands for; `text` is the whole text, for the message. -/
def expandSegment (env : Environment) (text : String) : Segment → Except ExpandFault (List Char)
  | .plain c => .ok [c]
  | .reference name =>
    match env (String.ofList name) with
    | some value => .ok value.toList
    | none => .error (.missingVariable (String.ofList name))
  | .unclosed => .error (.unterminated text)

def expandSegments (env : Environment) (text : String) :
    List Segment → Except ExpandFault (List Char)
  | [] => .ok []
  | segment :: segments => do
    let chars ← expandSegment env text segment
    let rest ← expandSegments env text segments
    return chars ++ rest

end Template

/-- The text with every reference replaced by the value of its variable. -/
def expand (env : Environment) (text : String) : Except ExpandFault String := do
  return String.ofList (← Template.expandSegments env text (Template.ofText text))

end SeriesQuery.Config
