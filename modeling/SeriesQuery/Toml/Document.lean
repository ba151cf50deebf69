import SeriesQuery.Toml.Quoted

/-!
# TOML documents

A document is read line by line into one table. It may start with a byte order mark, and its lines
end with a line feed or with a carriage return and a line feed. It may open at most 80 arrays and
inline tables within each other, and a dotted key has at most 80 parts.
-/

namespace SeriesQuery.Toml

/-- Whether every carriage return stands before a line feed. -/
def lineBreaksAreWhole : List Char → Bool
  | [] => true
  | '\r' :: '\n' :: cs => lineBreaksAreWhole cs
  | c :: cs => c != '\r' && lineBreaksAreWhole cs

def dropBlanks (cs : List Char) : List Char := cs.dropWhile isBlank

def isCommentChar (c : Char) : Bool := Quoted.isAllowed c || c == '\r'

def dropComment : List Char → Option (List Char)
  | [] => some []
  | c :: cs =>
    if c = '\n' then some cs else if isCommentChar c then dropComment cs else none

def endLine (cs : List Char) : Option (List Char) :=
  match dropBlanks cs with
  | [] => some []
  | c :: cs => if c = '\n' then some cs else if c = '#' then dropComment cs else none

def dropFiller (inComment : Bool) : List Char → Option (List Char)
  | [] => some []
  | c :: cs =>
    if inComment then
      if c = '\n' then dropFiller false cs
      else if isCommentChar c then dropFiller true cs
      else none
    else if isBlank c ∨ c = '\n' then dropFiller false cs
    else if c = '#' then dropFiller true cs
    else some (c :: cs)

def isBareKeyChar (c : Char) : Bool := c.isAlphanum || c == '_' || c == '-'

def readKeyPart (cs : List Char) : Option (String × List Char) :=
  match cs with
  | '"' :: _ | '\'' :: _ => (Quoted.readLine cs).map fun (key, rest) => (String.ofList key, rest)
  | cs =>
    let key := cs.takeWhile isBareKeyChar
    if key.isEmpty then none else some (String.ofList key, cs.dropWhile isBareKeyChar)

/-- Reads a dotted key of at most so many parts: the parts before the last one, the last one, and
what follows the key and its blanks. -/
def readKeyParts : Nat → List Char → Option (List String × String × List Char)
  | 0, _ => none
  | room + 1, cs => do
    let (part, rest) ← readKeyPart cs
    match dropBlanks rest with
    | '.' :: rest =>
      let (path, key, rest) ← readKeyParts room (dropBlanks rest)
      return (part :: path, key, rest)
    | rest => return ([], part, rest)

/-- The number of parts that a dotted key may have. -/
def maxKeyParts : Nat := 80

def readKey (cs : List Char) : Option (List String × String × List Char) :=
  readKeyParts maxKeyParts cs

/-- The number of containers that may be open at once. -/
def maxDepth : Nat := 80

mutual

/-- Reads a value; `room` is the number of containers that may still be opened. -/
def readValue : Nat → Nat → List Char → Option (Value × List Char)
  | 0, _, _ => none
  | fuel + 1, room, cs =>
    match cs with
    | '"' :: _ | '\'' :: _ =>
      (Quoted.read cs).map fun (text, rest) => (.string (String.ofList text), rest)
    | '[' :: cs =>
      if room = 0 then none
      else do
        let (items, rest) ← readItems fuel (room - 1) (← dropFiller false cs)
        return (.array items false, rest)
    | '\x7b' :: cs =>
      if room = 0 then none
      else do
        let (table, rest) ← readInline fuel (room - 1) ⟨.inline, []⟩ (← dropFiller false cs)
        return (table.value, rest)
    | cs => Scalar.read cs

def readItems : Nat → Nat → List Char → Option (List Value × List Char)
  | 0, _, _ => none
  | _ + 1, _, ']' :: cs => some ([], cs)
  | fuel + 1, room, cs => do
    let (item, rest) ← readValue fuel room cs
    match ← dropFiller false rest with
    | ',' :: rest =>
      let (items, rest) ← readItems fuel room (← dropFiller false rest)
      return (item :: items, rest)
    | ']' :: rest => return ([item], rest)
    | _ => none

/-- Reads the fields of an inline table up to the closing brace. Lines may end anywhere but within
a key. -/
def readInline : Nat → Nat → Table → List Char → Option (Table × List Char)
  | 0, _, _, _ => none
  | _ + 1, _, table, '\x7d' :: cs => some (table, cs)
  | fuel + 1, room, table, cs => do
    let (path, key, rest) ← readKey cs
    match ← dropFiller false rest with
    | '=' :: rest =>
      let (value, rest) ← readValue fuel room (← dropFiller false rest)
      let table ← table.assign path key value
      match ← dropFiller false rest with
      | ',' :: rest => readInline fuel room table (← dropFiller false rest)
      | '\x7d' :: rest => return (table, rest)
      | _ => none
    | _ => none

end

/-- Reads the lines of a document, with the header that is in force. -/
def readLines : Nat → List String → Table → List Char → Option Table
  | 0, _, _, _ => none
  | fuel + 1, header, table, cs => do
    match ← dropFiller false cs with
    | [] => return table
    | '[' :: '[' :: cs =>
      let (path, key, rest) ← readKey (dropBlanks cs)
      match rest with
      | ']' :: ']' :: rest =>
        readLines fuel (path ++ [key]) (← table.openItem path key) (← endLine rest)
      | _ => none
    | '[' :: cs =>
      let (path, key, rest) ← readKey (dropBlanks cs)
      match rest with
      | ']' :: rest =>
        readLines fuel (path ++ [key]) (← table.openTable path key) (← endLine rest)
      | _ => none
    | cs =>
      let (path, key, rest) ← readKey cs
      match rest with
      | '=' :: rest =>
        let (value, rest) ← readValue fuel maxDepth (dropBlanks rest)
        readLines fuel header (← table.assignIn header path key value) (← endLine rest)
      | _ => none

def dropByteOrderMark : List Char → List Char
  | '\ufeff' :: cs => cs
  | cs => cs

/-- The table of a document, if the document is well formed. Every step consumes a character or
opens or closes a container, so the fuel suffices. -/
def ofText? (text : String) : Option Table :=
  let cs := dropByteOrderMark text.toList
  if lineBreaksAreWhole cs then readLines (4 * cs.length + 8) [] ⟨.header, []⟩ cs else none

end SeriesQuery.Toml
