import Translit.Json.Value
import Translit.Proofs.Json.Lexing
import Translit.Proofs.Text.Utf8

/-!
# Reading values back

A value has one list of tokens, and many spellings of it. From each of them it is read back.

* `Value.tokens`: the tokens of a value;
* `read_value`: the reader completes the value, whatever is open around it;
* `delimited_value`: no number runs on into what follows it;
* `Value.Written`, `ofBytes?_of_written`: the spellings of a value, and the value they hold.
-/

namespace Translit.Json

mutual

/-- The tokens of a value. -/
def Value.tokens : Value → List Token
  | .null => [.null]
  | .bool b => [.bool b]
  | .number spelling => [.number spelling]
  | .string text? => [.string text?]
  | .array [] => [.openArray, .closeArray]
  | .array (v :: vs) => .openArray :: (v.tokens ++ elementTokens vs)
  | .object [] => [.openObject, .closeObject]
  | .object ((key, v) :: ms) =>
    .openObject :: .string key :: .colon :: (v.tokens ++ memberTokens ms)

/-- The tokens of the elements after the first, and the end of the array. -/
def elementTokens : List Value → List Token
  | [] => [.closeArray]
  | v :: vs => .comma :: (v.tokens ++ elementTokens vs)

/-- The tokens of the members after the first, and the end of the object. -/
def memberTokens : List (Option (List Char) × Value) → List Token
  | [] => [.closeObject]
  | (key, v) :: ms => .comma :: .string key :: .colon :: (v.tokens ++ memberTokens ms)

end

/-! ## The reader of values -/

/-- An array that has just been opened takes the first token of a value as any place does. -/
theorem foldlM_arrayStart (v : Value) (stack : List Frame) :
    v.tokens.foldlM Reading.step (.arrayStart stack) =
      v.tokens.foldlM Reading.step (.value (.array [] :: stack)) := by
  cases v with
  | array vs => cases vs <;> rfl
  | object ms => rcases ms with _ | ⟨⟨_, _⟩, _⟩ <;> rfl
  | _ => rfl

mutual

/-- A value is completed, and what is open around it stays as it is. -/
theorem read_value (v : Value) (stack : List Frame) :
    v.tokens.foldlM Reading.step (.value stack) = some (.complete v stack) :=
  match v with
  | .null | .bool _ | .number _ | .string _ | .array [] | .object [] => rfl
  | .array (v :: vs) => by
    change (v.tokens ++ elementTokens vs).foldlM Reading.step (.arrayStart stack) = _
    rw [List.foldlM_append, foldlM_arrayStart, read_value v]
    exact read_elements vs v [] stack
  | .object ((key, v) :: ms) => by
    change (v.tokens ++ memberTokens ms).foldlM Reading.step (.value (.object [] key :: stack)) = _
    rw [List.foldlM_append, read_value v]
    exact read_members ms v [] key stack

theorem read_elements (vs : List Value) (v : Value) (done : List Value) (stack : List Frame) :
    (elementTokens vs).foldlM Reading.step (.complete v (.array done :: stack)) =
      some (.complete (.array ((v :: done).reverse ++ vs)) stack) :=
  match vs with
  | [] => by
    rw [List.append_nil]
    rfl
  | w :: vs => by
    change (w.tokens ++ elementTokens vs).foldlM Reading.step
      (.value (.array (v :: done) :: stack)) = _
    rw [List.foldlM_append, read_value w, List.append_cons, ← List.reverse_cons]
    exact read_elements vs w (v :: done) stack

theorem read_members (ms : Members) (v : Value) (done : Members) (key : Option (List Char))
    (stack : List Frame) :
    (memberTokens ms).foldlM Reading.step (.complete v (.object done key :: stack)) =
      some (.complete (.object (((key, v) :: done).reverse ++ ms)) stack) :=
  match ms with
  | [] => by
    rw [List.append_nil]
    rfl
  | (key', w) :: ms => by
    change (w.tokens ++ memberTokens ms).foldlM Reading.step
      (.value (.object ((key, v) :: done) key' :: stack)) = _
    rw [List.foldlM_append, read_value w, List.append_cons, ← List.reverse_cons]
    exact read_members ms w ((key, v) :: done) key' stack

end

/-- A value is read from its tokens. -/
theorem ofTokens?_tokens (v : Value) : Value.ofTokens? v.tokens = some v := by
  rw [Value.ofTokens?, read_value]
  rfl

/-! ## Where numbers end -/

theorem delimited_cons {t : Token} {ts : List Token} (h : ∀ cs, t ≠ .number cs)
    (hts : Token.Delimited ts) : Token.Delimited (t :: ts) :=
  ⟨fun cs heq => absurd heq (h cs), hts⟩

theorem mark_elementTokens (vs : List Value) (rest : List Token) :
    ∀ next ∈ (elementTokens vs ++ rest).head?, next.mark?.isSome := by
  cases vs <;> rintro next ⟨⟩ <;> rfl

theorem mark_memberTokens (ms : Members) (rest : List Token) :
    ∀ next ∈ (memberTokens ms ++ rest).head?, next.mark?.isSome := by
  rcases ms with _ | ⟨⟨_, _⟩, _⟩ <;> rintro next ⟨⟩ <;> rfl

mutual

/-- A value that a mark follows, or nothing. -/
theorem delimited_value {rest : List Token} (v : Value)
    (hmark : ∀ next ∈ rest.head?, next.mark?.isSome) (hrest : Token.Delimited rest) :
    Token.Delimited (v.tokens ++ rest) :=
  match v with
  | .null | .bool _ | .string _ => delimited_cons nofun hrest
  | .number _ => ⟨fun _ _ => hmark, hrest⟩
  | .array [] | .object [] => delimited_cons nofun (delimited_cons nofun hrest)
  | .array (v :: vs) => by
    rw [Value.tokens, List.cons_append, List.append_assoc]
    exact delimited_cons nofun
      (delimited_value v (mark_elementTokens vs rest) (delimited_elements vs hrest))
  | .object ((key, v) :: ms) => by
    rw [Value.tokens, List.cons_append, List.cons_append, List.cons_append, List.append_assoc]
    exact delimited_cons nofun (delimited_cons nofun (delimited_cons nofun
      (delimited_value v (mark_memberTokens ms rest) (delimited_members ms hrest))))

theorem delimited_elements {rest : List Token} (vs : List Value) (hrest : Token.Delimited rest) :
    Token.Delimited (elementTokens vs ++ rest) :=
  match vs with
  | [] => delimited_cons nofun hrest
  | v :: vs => by
    rw [elementTokens, List.cons_append, List.append_assoc]
    exact delimited_cons nofun
      (delimited_value v (mark_elementTokens vs rest) (delimited_elements vs hrest))

theorem delimited_members {rest : List Token} (ms : Members) (hrest : Token.Delimited rest) :
    Token.Delimited (memberTokens ms ++ rest) :=
  match ms with
  | [] => delimited_cons nofun hrest
  | (key, v) :: ms => by
    rw [memberTokens, List.cons_append, List.cons_append, List.cons_append, List.append_assoc]
    exact delimited_cons nofun (delimited_cons nofun (delimited_cons nofun
      (delimited_value v (mark_memberTokens ms rest) (delimited_members ms hrest))))

end

/-! ## Spellings of a value -/

/-- The text is a spelling of the value, with white space around its tokens or none. -/
def Value.Written (v : Value) (cs : List Char) : Prop := Token.Written v.tokens cs

/-- A value is read from each of its spellings. -/
theorem ofBytes?_of_written {v : Value} {cs : List Char} (h : v.Written cs) :
    Value.ofBytes? (Text.Utf8.encode cs) = some v := by
  have hdelimited : Token.Delimited v.tokens := by
    rw [← List.append_nil v.tokens]
    exact delimited_value v (by rintro next ⟨⟩) trivial
  rw [Value.ofBytes?, Value.ofChars?, Text.Utf8.decode_encode, ofChars?_of_written h hdelimited]
  exact ofTokens?_tokens v

end Translit.Json
