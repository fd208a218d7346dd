import Translit.Toml.Scalar

/-!
# TOML documents

* `value`: a value of any kind, arrays and inline tables to a limited depth;
* `Statement`, `statement`: the lines of a document;
* `Document.add`, `parse?`: the table that a document builds up.
-/

namespace Translit.Toml

open Reader

/-! ## Values -/

/-- An array. A comma may follow the last element. -/
def arrayOf (element : Reader Value) : Reader Value := do
  discard (char '[')
  let elements ← optional (separated (spacing *> element <* spacing) ',')
  if elements.isSome then discard (optional (char ','))
  spacing
  discard (char ']')
  return .array (elements.getD [])

/-- A key and its value. -/
def entryOf (element : Reader Value) : Reader ((List Key × Key) × Value) := do
  let key ← dottedKey
  discard (char '=')
  let value ← blanks *> element <* blanks
  return (key, value)

/-- A table in braces, on one line. -/
def inlineTableOf (element : Reader Value) : Reader Value := do
  discard (char '\x7b')
  let entries ← optional (separated (entryOf element) ',')
  blanks
  discard (char '\x7d')
  let add (entries : Entries) (entry : (List Key × Key) × Value) : Option Entries :=
    assign entry.1.1 entry.1.2 entry.2 entries
  match (entries.getD []).foldlM add [] with
  | some entries => return .table .inline entries
  | none => failure

/-- A value with at most `depth` arrays and inline tables around its innermost parts. -/
def valueWithin : Nat → Reader Value
  | 0 => scalar
  | depth + 1 =>
    scalar <|> arrayOf (valueWithin depth) <|> inlineTableOf (valueWithin depth)

/-- A value. -/
def value : Reader Value := valueWithin (depthLimit - 1)

/-! ## Statements -/

/-- A line of a document. A header names the way to a table and the table's own key. -/
inductive Statement
  | blank
  | entry (path : List Key) (key : Key) (value : Value)
  | table (path : List Key) (key : Key)
  | element (path : List Key) (key : Key)
  deriving Repr

/-- A line without its end. -/
def statement : Reader Statement := do
  blanks
  let s ←
    (do
      let (path, key) ← spelled "[[" *> dottedKey <* spelled "]]"
      return .element path key) <|>
    (do
      let (path, key) ← char '[' *> dottedKey <* char ']'
      return .table path key) <|>
    (do
      let ((path, key), value) ← entryOf value
      return .entry path key value) <|>
    pure .blank
  blanks
  discard (optional comment)
  return s

/-- The lines of a document. A byte order mark in front of them is passed over. -/
def statements : Reader (List Statement) := do
  discard (optional (char '\ufeff'))
  let lines ← many (statement <* lineEnd)
  let last ← statement
  return lines ++ [last]

/-! ## The table of a document -/

/-- A document as far as it has been read: its table, and the way to the table of the last
header. -/
structure Document where
  entries : Entries := []
  path : List Key := []
  deriving Repr

/-- The document with one more line. -/
def Document.add (d : Document) : Statement → Option Document
  | .blank => some d
  | .entry path key value => do
    return { d with entries := ← descend (assign path key value) d.path d.entries }
  | .table path key => do
    return ⟨← descend (openTable key) path d.entries, path ++ [key]⟩
  | .element path key => do
    return ⟨← descend (appendTable key) path d.entries, path ++ [key]⟩

/-- The table that a document describes. -/
def parse? (cs : List Char) : Option Value := do
  let lines ← statements.all? cs
  let d ← lines.foldlM Document.add {}
  return .table .header d.entries

end Translit.Toml
