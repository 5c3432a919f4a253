import BranchingStory.Json.Token

/-!
# Reading documents

The tokens of a document drive a machine with a stack of open containers. A container is complete
when it is closed; one that is nested too deep, or an object with a key that is no text, becomes
unreadable as a whole. Reading succeeds when the tokens end right behind one complete document.
-/

namespace BranchingStory.Json

/-- An open container with what it holds so far, newest first. -/
inductive Frame where
  | array (items : List Json)
  /-- The key read last still waits for its value. -/
  | object (fields : List (Option String × Json)) (key : Option String)

/-- What may come next in the innermost open container, or at the start of a document. -/
inductive Expect where
  | value
  | valueOrClose
  | key
  | keyOrClose
  | colon
  | commaOrClose
  deriving DecidableEq, Repr

/-- The machine that reads a document. -/
inductive Machine where
  /-- Containers are open, the innermost first, or nothing has been read yet. -/
  | reading (frames : List Frame) (expect : Expect)
  /-- The document is complete. -/
  | done (j : Json)

/-- The fields of an object in order, if every key is text. -/
def keyedFields? : List (Option String × Json) → Option (List (String × Json))
  | [] => some []
  | (some key, j) :: rest => (keyedFields? rest).map ((key, j) :: ·)
  | (none, _) :: _ => none

/-- The document that a container is when it closes. -/
def Frame.close : Frame → Json
  | .array items => .array items.reverse
  | .object fields _ =>
    match keyedFields? fields.reverse with
    | some fields => .object fields
    | none => .unreadable

/-- A complete document takes its place in the innermost open container. -/
def place (j : Json) : List Frame → Machine
  | [] => .done j
  | .array items :: rest => .reading (.array (j :: items) :: rest) .commaOrClose
  | .object fields key :: rest => .reading (.object ((key, j) :: fields) none :: rest) .commaOrClose

/-- The innermost container closes; it counts as readable within the depth allowed. -/
def closeTop (frame : Frame) (rest : List Frame) : Machine :=
  place (if (rest.drop (maxDepth - 1)).isEmpty then frame.close else .unreadable) rest

/-- A token starts or is a document. -/
def startValue? (frames : List Frame) : Token → Option Machine
  | .null => some (place .null frames)
  | .bool b => some (place (.bool b) frames)
  | .number n => some (place ((n.map .number).getD .unreadable) frames)
  | .string s => some (place ((s.map .string).getD .unreadable) frames)
  | .openArray => some (.reading (.array [] :: frames) .valueOrClose)
  | .openObject => some (.reading (.object [] none :: frames) .keyOrClose)
  | _ => none

/-- A string token is the key of the field that follows. -/
def startField? (frames : List Frame) (token : Token) : Option Machine :=
  match frames, token with
  | .object fields _ :: rest, .string key => some (.reading (.object fields key :: rest) .colon)
  | _, _ => none

/-- The closing token fits the innermost container. -/
def closeWith? (frames : List Frame) (token : Token) : Option Machine :=
  match frames, token with
  | .array items :: rest, .closeArray => some (closeTop (.array items) rest)
  | .object fields key :: rest, .closeObject => some (closeTop (.object fields key) rest)
  | _, _ => none

/-- What follows a comma in the innermost container. -/
def afterComma : List Frame → Expect
  | .object _ _ :: _ => .key
  | _ => .value

/-- One token moves the machine. -/
def Machine.step? (machine : Machine) (token : Token) : Option Machine :=
  match machine with
  | .done _ => none
  | .reading frames expect =>
    match expect with
    | .value => startValue? frames token
    | .valueOrClose => (closeWith? frames token).orElse fun _ => startValue? frames token
    | .key => startField? frames token
    | .keyOrClose => (closeWith? frames token).orElse fun _ => startField? frames token
    | .colon => if token = .colon then some (.reading frames .value) else none
    | .commaOrClose =>
      if token = .comma then some (.reading frames (afterComma frames))
      else closeWith? frames token

/-- The machine after a list of tokens. -/
def Machine.run? (machine : Machine) : List Token → Option Machine
  | [] => some machine
  | token :: rest =>
    match machine.step? token with
    | some next => next.run? rest
    | none => none

/-- The document that a list of tokens is. -/
def ofTokens? (tokens : List Token) : Option Json :=
  match (Machine.reading [] .value).run? tokens with
  | some (.done j) => some j
  | _ => none

/-- The document that a text is. -/
def parse? (text : String) : Option Json := (tokens? text.toList).bind ofTokens?

end BranchingStory.Json
