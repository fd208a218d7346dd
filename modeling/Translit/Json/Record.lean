import Translit.Json.Value

/-!
# Records in JSON

A record with named fields may be written as an object, in any order and with other members in
between, or as an array of its fields in their order.

* `Value.record?`: the values of the fields, `none` for a field that is left out;
* `Value.text?`, `Value.elements?`, `Value.optional?`: what a field may hold.
-/

namespace Translit.Json.Value

/-- The values that the members of an object give to the fields `names`. Every key must be a text,
and none of `names` may occur twice; members with other keys are passed over. -/
def fieldsOfMembers? (names : List (List Char)) (members : Members) :
    Option (List (Option Value)) := do
  let named ← members.mapM fun m => m.1.map (·, m.2)
  names.mapM fun name =>
    match named.filter (·.1 == name) with
    | [] => some none
    | [m] => some (some m.2)
    | _ => none

/-- The values of the fields `names`, each `none` if it is left out. An array gives them in order
and may stop early, but has no more elements than there are fields. -/
def record? (names : List (List Char)) : Value → Option (List (Option Value))
  | .object members => fieldsOfMembers? names members
  | .array vs =>
    if vs.length ≤ names.length then
      some (vs.map some ++ List.replicate (names.length - vs.length) none)
    else none
  | _ => none

/-- The text of a string. -/
def text? : Value → Option (List Char)
  | .string text? => text?
  | _ => none

/-- The elements of an array, each read by `read?`. -/
def elements? {α : Type} (read? : Value → Option α) : Value → Option (List α)
  | .array vs => vs.mapM read?
  | _ => none

/-- A field that may be left out or `null`. -/
def optional? {α : Type} (read? : Value → Option α) : Option Value → Option (Option α)
  | none => some none
  | some .null => some none
  | some v => (read? v).map some

end Translit.Json.Value
