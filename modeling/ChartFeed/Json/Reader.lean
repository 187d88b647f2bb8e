import ChartFeed.Json.Token

/-!
# Reading JSON text

The reader is a machine over tokens with a stack of the containers that are open, so it too is a
recursion on its input alone.

* `Reading` is what the reader expects next, inside which containers;
* `Json.read` gives the value as written: objects may repeat a key;
* `Json.parse` resolves repeated keys;
* `Json.readObject` asks for an object, and tells a value of another kind apart from bad text.

Containers nest at most `depthLimit` deep.
-/

set_option autoImplicit false

namespace ChartFeed.Json

/-- How many containers may be open at once. -/
def depthLimit : Nat := 127

/-- An open container with what it holds so far, the last one first. -/
inductive Frame where
  | array (done : List Json)
  /-- The fields so far, and the key whose value is being read. -/
  | object (done : List (String × Json)) (key : String)

/-- What has to come next. -/
inductive Expecting where
  | value
  /-- A value or the end of an array that was just opened. -/
  | firstItem
  /-- A key of an object with these fields; right after the opening brace also its end. -/
  | key (done : List (String × Json)) (first : Bool)
  | colon (done : List (String × Json)) (key : String)
  /-- A comma or the end of the innermost container. -/
  | separator
  /-- Nothing: the value is complete. -/
  | nothing (result : Json)

/-- A state of the reader: the open containers, innermost first, and what has to come next. -/
structure Reading where
  /-- The open containers around the next token. -/
  stack : List Frame
  /-- What has to come next. -/
  expecting : Expecting

namespace Reading

/-- A value is complete; it goes into the innermost container. -/
def supply (stack : List Frame) (v : Json) : Reading :=
  match stack with
  | [] => ⟨[], .nothing v⟩
  | .array done :: rest => ⟨.array (v :: done) :: rest, .separator⟩
  | .object done key :: rest => ⟨.object ((key, v) :: done) key :: rest, .separator⟩

/-- A container may be opened only below the depth limit. -/
def ifShallow (stack : List Frame) (next : Reading) : Except Fault Reading :=
  if stack.length < depthLimit then .ok next else .error .malformed

/-- The transition where a value has to come. -/
def readValue (stack : List Frame) (token : Token) : Except Fault Reading :=
  match token with
  | .openBracket => ifShallow stack ⟨.array [] :: stack, .firstItem⟩
  | .openBrace => ifShallow stack ⟨stack, .key [] true⟩
  | .word none => .ok (supply stack .null)
  | .word (some b) => .ok (supply stack (.bool b))
  | .number n => .ok (supply stack (.num n))
  | .string s => .ok (supply stack (.str s))
  | .broken _ why => .error why
  | .closeBracket | .closeBrace | .comma | .colon => .error .malformed

/-- One transition. -/
def step (state : Reading) (token : Token) : Except Fault Reading :=
  match state.expecting, token with
  | .value, token => readValue state.stack token
  | .firstItem, .closeBracket => .ok (supply (state.stack.drop 1) (.arr []))
  | .firstItem, token => readValue state.stack token
  | .key done true, .closeBrace => .ok (supply state.stack (.obj done.reverse))
  | .key done _, .string key => .ok ⟨state.stack, .colon done key⟩
  | .key _ _, .broken true why => .error why
  | .colon done key, .colon => .ok ⟨.object done key :: state.stack, .value⟩
  | .separator, .comma =>
    match state.stack with
    | .object done _ :: rest => .ok ⟨rest, .key done false⟩
    | stack => .ok ⟨stack, .value⟩
  | .separator, .closeBracket =>
    match state.stack with
    | .array done :: rest => .ok (supply rest (.arr done.reverse))
    | _ => .error .malformed
  | .separator, .closeBrace =>
    match state.stack with
    | .object done _ :: rest => .ok (supply rest (.obj done.reverse))
    | _ => .error .malformed
  | _, _ => .error .malformed

/-- Reads tokens to their end. -/
def run (state : Reading) : List Token → Except Fault Json
  | [] =>
    match state.expecting with
    | .nothing v => .ok v
    | _ => .error .truncated
  | token :: rest =>
    match state.step token with
    | .ok next => next.run rest
    | .error why => .error why

end Reading

/-- The value that tokens spell. -/
def ofTokens (tokens : List Token) : Except Fault Json := Reading.run ⟨[], .value⟩ tokens

/-- The value of a text, with the fields of objects as they are written. -/
def read (s : String) : Except Fault Json := ofTokens (Token.scan s.toList)

/-- The value of a text; a repeated key keeps its first position and its last value. -/
def parse (s : String) : Except Fault Json := (read s).map merged

/-- The fields of an object as they are written.  A value of another kind is told from its first
token on. -/
def readObject (s : String) : Except Fault (List (String × Json)) :=
  match Token.scan s.toList with
  | .openBracket :: _ | .word _ :: _ | .number _ :: _ | .string _ :: _ => .error .mismatched
  | tokens =>
    match ofTokens tokens with
    | .ok (.obj fields) => .ok fields
    | .ok _ => .error .mismatched
    | .error why => .error why

end ChartFeed.Json
