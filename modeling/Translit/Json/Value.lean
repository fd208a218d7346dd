import Translit.Json.Token
import Translit.Text.Utf8

/-!
# JSON values

* `Value`: the values, with numbers by their spelling and members in the order written;
* `Frame`, `Reading`: the reader's stack of open arrays and objects, so that depth costs nothing;
* `Value.ofTokens?`, `Value.ofBytes?`: the value that a document holds.
-/

namespace Translit.Json

/-- A JSON value. A string that denotes no text is kept as `none`: it may stand where nobody looks
at it. -/
inductive Value
  | null
  | bool (b : Bool)
  | number (spelling : List Char)
  | string (text? : Option (List Char))
  | array (elements : List Value)
  | object (members : List (Option (List Char) × Value))
  deriving Repr

namespace Value

/-- A text as a value. -/
def text (cs : List Char) : Value := .string (some cs)

/-- A natural number as a value. -/
def nat (n : Nat) : Value := .number (Nat.toDigits 10 n)

end Value

/-- The members of an object, each with its key. -/
abbrev Members := List (Option (List Char) × Value)

/-- An array or an object that is still open: what it holds so far, last first, and in an object
the key whose value is being read. -/
inductive Frame
  | array (done : List Value)
  | object (done : Members) (key : Option (List Char))
  deriving Repr

/-- What a reader expects next, above the frames that are open around it. -/
inductive Reading
  /-- A value must come. -/
  | value (stack : List Frame)
  /-- An array has just been opened: a value or its end. -/
  | arrayStart (stack : List Frame)
  /-- An object has just been opened: a key or its end. -/
  | objectStart (stack : List Frame)
  /-- A key must come, after the members `done`. -/
  | member (done : Members) (stack : List Frame)
  /-- The colon after `key` must come. -/
  | colon (done : Members) (key : Option (List Char)) (stack : List Frame)
  /-- The value `v` is complete. -/
  | complete (v : Value) (stack : List Frame)
  deriving Repr

/-- The first token of a value. -/
def Reading.begin? (stack : List Frame) : Token → Option Reading
  | .null => some (.complete .null stack)
  | .bool b => some (.complete (.bool b) stack)
  | .number spelling => some (.complete (.number spelling) stack)
  | .string text? => some (.complete (.string text?) stack)
  | .openArray => some (.arrayStart stack)
  | .openObject => some (.objectStart stack)
  | _ => none

/-- The token after a complete value. -/
def Reading.next? (v : Value) : List Frame → Token → Option Reading
  | .array done :: stack, .comma => some (.value (.array (v :: done) :: stack))
  | .array done :: stack, .closeArray => some (.complete (.array (v :: done).reverse) stack)
  | .object done key :: stack, .comma => some (.member ((key, v) :: done) stack)
  | .object done key :: stack, .closeObject =>
    some (.complete (.object ((key, v) :: done).reverse) stack)
  | _, _ => none

/-- One more token. -/
def Reading.step : Reading → Token → Option Reading
  | .value stack, t => begin? stack t
  | .arrayStart stack, .closeArray => some (.complete (.array []) stack)
  | .arrayStart stack, t => begin? (.array [] :: stack) t
  | .objectStart stack, .closeObject => some (.complete (.object []) stack)
  | .objectStart stack, .string key => some (.colon [] key stack)
  | .objectStart _, _ => none
  | .member done stack, .string key => some (.colon done key stack)
  | .member .., _ => none
  | .colon done key stack, .colon => some (.value (.object done key :: stack))
  | .colon .., _ => none
  | .complete v stack, t => next? v stack t

/-- The value at the end of a document: it is complete and nothing is open around it. -/
def Reading.result? : Reading → Option Value
  | .complete v [] => some v
  | _ => none

namespace Value

/-- The value of a document given by its tokens. -/
def ofTokens? (ts : List Token) : Option Value := do
  (← ts.foldlM Reading.step (.value [])).result?

/-- The value of a document given by its characters, `none` for a byte that belongs to none. -/
def ofChars? (cs : List (Option Char)) : Option Value := Token.ofChars? cs >>= ofTokens?

/-- The value of a document given by its bytes. -/
def ofBytes? (bs : Text.Utf8.Bytes) : Option Value := ofChars? (Text.Utf8.decode bs)

end Value

end Translit.Json
