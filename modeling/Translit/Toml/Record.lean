import Translit.Toml.Value

/-!
# Records in TOML

* `Value.record?`: the values of named fields, from a table or in order from an array;
* `Value.text?`, `Value.flag?`, `Value.elements?`: what a field may hold;
* `Value.variant?`: one of several names, alone or as the only key of a table.
-/

namespace Translit.Toml.Value

/-- The values of the fields `names`, each `none` if it is left out. A table may have other keys
besides, and an array more elements. -/
def record? (names : List Key) : Value → Option (List (Option Value))
  | .table _ entries => some (names.map fun name => entries.lookup name)
  | .array vs | .tables vs => some ((List.range names.length).map (vs[·]?))
  | _ => none

/-- The text of a string. -/
def text? : Value → Option (List Char)
  | .string text => some text
  | _ => none

/-- The truth of a boolean. -/
def flag? : Value → Option Bool
  | .boolean b => some b
  | _ => none

/-- The elements of an array, each read by `read?`. -/
def elements? {α : Type} (read? : Value → Option α) : Value → Option (List α)
  | .array vs | .tables vs => vs.mapM read?
  | _ => none

/-- A field that may be left out. -/
def optional? {α : Type} (read? : Value → Option α) : Option Value → Option (Option α)
  | none => some none
  | some v => (read? v).map some

/-- An array or a table without elements. -/
def isEmpty : Value → Bool
  | .array vs | .tables vs => vs.isEmpty
  | .table _ entries => entries.isEmpty
  | _ => false

/-- A name, written as a string or as the only key of a table whose value is empty. -/
def variant? : Value → Option Key
  | .string text => some text
  | .table _ [(key, v)] => if v.isEmpty then some key else none
  | _ => none

end Translit.Toml.Value
