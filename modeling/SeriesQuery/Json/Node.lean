import SeriesQuery.Json.Token

/-!
# Documents as far as they go

A reader that takes a text from left to right may find fault with the content of a document before
it comes to the place where the text is malformed. A `Node` therefore stands for a malformed text
as well: it holds what comes before the first token that does not fit, an array or object cut short
there is not closed, and a value that is missing altogether is `broken`.
-/

namespace SeriesQuery.Json

inductive Node where
  | null
  | bool (value : Bool)
  | number (value : Option Number)
  | string (value : Option String)
  | array (items : List Node) (closed : Bool)
  | object (fields : List (Option String × Node)) (closed : Bool)
  | broken
  deriving Repr, Inhabited

/-- The root of a document, and whether the text holds this one value and nothing else. -/
structure Document where
  root : Node
  sound : Bool
  deriving Repr

namespace Node

/-- A container that is still open, the latest item or field first. -/
inductive Frame where
  | array (items : List Node)
  | object (fields : List (Option String × Node))
  /-- An object with a field whose value is still to come. -/
  | member (fields : List (Option String × Node)) (key : Option String)

/-- The root of a document that ends within the open containers, the innermost first. -/
def cut (last : Option Node) : List Frame → Node
  | [] => last.getD .broken
  | .array items :: stack => cut (some (.array (last.toList ++ items).reverse false)) stack
  | .object fields :: stack => cut (some (.object fields.reverse false)) stack
  | .member fields key :: stack =>
    cut (some (.object ((key, last.getD .broken) :: fields).reverse false)) stack

/-- What may follow in a document, with the containers open there. -/
inductive Builder where
  | value (stack : List Frame)
  /-- Just after an opening bracket or brace. -/
  | opened (stack : List Frame)
  /-- Just after an item or a field. -/
  | after (stack : List Frame)
  | nextKey (stack : List Frame)
  | colon (stack : List Frame)
  | done (root : Node)
  | failed (root : Node)

namespace Builder

def fail (stack : List Frame) : Builder := .failed (cut none stack)

/-- Puts a complete value in its place. -/
def put (node : Node) : List Frame → Builder
  | [] => .done node
  | .array items :: stack => .after (.array (node :: items) :: stack)
  | .member fields key :: stack => .after (.object ((key, node) :: fields) :: stack)
  | .object fields :: stack => fail (.object fields :: stack)

def takeValue (stack : List Frame) : Token → Builder
  | .null => put .null stack
  | .bool b => put (.bool b) stack
  | .number n => put (.number n) stack
  | .string s => put (.string s) stack
  | .openBracket => .opened (.array [] :: stack)
  | .openBrace => .opened (.object [] :: stack)
  | _ => fail stack

def takeKey (stack : List Frame) (token : Token) : Builder :=
  match stack, token with
  | .object fields :: stack, .string key => .colon (.member fields key :: stack)
  | stack, _ => fail stack

def step (builder : Builder) (token : Token) : Builder :=
  match builder with
  | .value stack => takeValue stack token
  | .opened stack =>
    match stack, token with
    | .array items :: stack, .closeBracket => put (.array items.reverse true) stack
    | .object fields :: stack, .closeBrace => put (.object fields.reverse true) stack
    | .array items :: stack, token => takeValue (.array items :: stack) token
    | stack, token => takeKey stack token
  | .after stack =>
    match stack, token with
    | .array items :: stack, .comma => .value (.array items :: stack)
    | .array items :: stack, .closeBracket => put (.array items.reverse true) stack
    | .object fields :: stack, .comma => .nextKey (.object fields :: stack)
    | .object fields :: stack, .closeBrace => put (.object fields.reverse true) stack
    | stack, _ => fail stack
  | .nextKey stack => takeKey stack token
  | .colon stack => if token = .colon then .value stack else fail stack
  | .done root => .failed root
  | .failed root => .failed root

def document : Builder → Document
  | .done root => ⟨root, true⟩
  | .failed root => ⟨root, false⟩
  | .value stack | .opened stack | .after stack | .nextKey stack | .colon stack =>
    ⟨cut none stack, false⟩

end Builder

end Node

def Document.ofTokens (tokens : List Token) : Document :=
  (tokens.foldl Node.Builder.step (.value [])).document

def Document.ofText (text : String) : Document := ofTokens (Token.scan text)

namespace Node

mutual

def isWhole : Node → Bool
  | .array items closed => areWhole items && closed
  | .object fields closed => fieldsAreWhole fields && closed
  | .broken => false
  | _ => true

def areWhole : List Node → Bool
  | [] => true
  | item :: items => item.isWhole && areWhole items

def fieldsAreWhole : List (Option String × Node) → Bool
  | [] => true
  | (_, node) :: fields => node.isWhole && fieldsAreWhole fields

end

mutual

def ofValue : Value → Node
  | .null => .null
  | .bool b => .bool b
  | .number n => .number (some n)
  | .string s => .string (some s)
  | .array items => .array (ofItems items) true
  | .object fields => .object (ofFields fields) true

def ofItems : List Value → List Node
  | [] => []
  | item :: items => ofValue item :: ofItems items

def ofFields : List (String × Value) → List (Option String × Node)
  | [] => []
  | (key, value) :: fields => (some key, ofValue value) :: ofFields fields

end

end Node

end SeriesQuery.Json
