import Mathlib.Data.List.Forall2
import Mathlib.Data.List.Perm.Basic
import Mathlib.Tactic.Common
import Translit.Json.Record
import Translit.Proofs.Json.Printing

/-!
# Reading records back

A record may be written as an object, with its keys in any order and unknown keys in between, or as
an array of its fields. Each way gives the same fields.

* `given`: the members that an object must have to give some fields;
* `Value.Gives`, `record?_of_gives`: the ways in which a record is written, and its fields;
* `OptionalField`, `IsArray`, `IsText`: what a field may hold;
* `Recovers`, `Writes`: a reader finds again what is written, and everything can be written.
-/

namespace Translit.Json

/-- The members that give the fields to the names. A field that is left out has none. -/
def given : List (List Char) → List (Option Value) → List (List Char × Value)
  | name :: names, some v :: fields => (name, v) :: given names fields
  | _ :: names, none :: fields => given names fields
  | _, _ => []

/-- The value gives the fields to the names: an object in which they stand in any order, with
members of other names in between, or an array that may leave out fields at its end. -/
inductive Value.Gives (names : List (List Char)) (fields : List (Option Value)) : Value → Prop
  | object {named unknown : List (List Char × Value)}
      (order : named.Perm (given names fields ++ unknown)) (other : ∀ m ∈ unknown, m.1 ∉ names) :
      Gives names fields (.object (named.map fun m => (some m.1, m.2)))
  | array {vs : List Value} {omitted : Nat}
      (order : fields = vs.map some ++ List.replicate omitted none) : Gives names fields (.array vs)

theorem Value.Gives.all {names : List (List Char)} {fields : List (Option Value)} {vs : List Value}
    (h : fields = vs.map some) : Value.Gives names fields (.array vs) := by
  have horder : fields = vs.map some ++ List.replicate 0 none := by
    rw [h, List.replicate_zero, List.append_nil]
  exact .array horder

/-- A field that holds an optional content: a field without content is left out or `null`. -/
inductive OptionalField {α : Type} (R : α → Value → Prop) : Option α → Option Value → Prop
  | omitted : OptionalField R none none
  | null : OptionalField R none (some .null)
  | held {x : α} {v : Value} (h : R x v) : OptionalField R (some x) (some v)

/-- An array that holds the entries one by one. -/
def IsArray {α : Type} (R : α → Value → Prop) (xs : List α) (v : Value) : Prop :=
  ∃ vs, v = .array vs ∧ List.Forall₂ R xs vs

/-- A string that holds the text. -/
def IsText (cs : List Char) (v : Value) : Prop := v = .text cs

/-- A reader of values finds again what is written in them. -/
def Recovers {α : Type} (read? : Value → Option α) (R : α → Value → Prop) : Prop :=
  ∀ x v, R x v → read? v = some x

namespace Value

theorem mapM_eq_some_of_forall₂ {α β : Type} {f : α → Option β} {xs : List α} {ys : List β}
    (h : List.Forall₂ (fun x y => f x = some y) xs ys) : xs.mapM f = some ys := by
  induction h with
  | nil => rfl
  | cons hx _ ih =>
    rw [List.mapM_cons, hx, ih]
    rfl

/-! ## The fields of an object -/

variable {name : List Char} {names : List (List Char)} {field : Option Value}
  {fields : List (Option Value)} {named unknown : List (List Char × Value)} {v : Value}

/-- The member that gives a field, if it is not left out. -/
def memberOf (name : List Char) (field : Option Value) : List (List Char × Value) :=
  (field.map (name, ·)).toList

theorem given_cons (name : List Char) (names : List (List Char)) (field : Option Value)
    (fields : List (Option Value)) :
    given (name :: names) (field :: fields) = memberOf name field ++ given names fields := by
  cases field <;> rfl

theorem given_map_some {vs : List Value} (hlength : names.length = vs.length) :
    given names (vs.map some) = names.zip vs := by
  induction names generalizing vs with
  | nil => simp [given]
  | cons name names ih =>
    cases vs with
    | nil => cases hlength
    | cons v vs =>
      rw [List.map_cons, given, ih (Nat.succ.inj hlength)]
      rfl

/-- An object with a member for each field that is not left out, in order. -/
theorem Gives.given (names : List (List Char)) (fields : List (Option Value)) :
    Gives names fields (.object ((given names fields).map fun m => (some m.1, m.2))) := by
  have horder : (Json.given names fields).Perm (Json.given names fields ++ []) := by
    rw [List.append_nil]
  exact .object horder nofun

/-- An object with a member for each field, in order. -/
theorem Gives.inOrder {vs : List Value} (hlength : names.length = vs.length) :
    Gives names (vs.map some) (.object ((names.zip vs).map fun m => (some m.1, m.2))) := by
  rw [← given_map_some hlength]
  exact .given names _

theorem filter_memberOf (name : List Char) (field : Option Value) :
    (memberOf name field).filter (·.1 == name) = memberOf name field := by
  cases field <;> simp [memberOf]

theorem filter_memberOf_of_ne {other : List Char} (h : other ≠ name) (field : Option Value) :
    (memberOf other field).filter (·.1 == name) = [] := by
  cases field <;> simp [memberOf, h]

theorem filter_given_of_not_mem (h : name ∉ names) (fields : List (Option Value)) :
    (given names fields).filter (·.1 == name) = [] := by
  induction names generalizing fields with
  | nil => simp [given]
  | cons first names ih =>
    obtain ⟨hfirst, hrest⟩ := not_or.1 (List.mem_cons.not.1 h)
    cases fields with
    | nil => simp [given]
    | cons field fields =>
      rw [given_cons, List.filter_append, filter_memberOf_of_ne (Ne.symm hfirst), ih hrest,
        List.nil_append]

/-- What is found under a name that stands once. -/
theorem filter_given (hnodup : names.Nodup) (h : (name, field) ∈ names.zip fields) :
    (given names fields).filter (·.1 == name) = memberOf name field := by
  induction names generalizing fields with
  | nil => cases h
  | cons first names ih =>
    obtain ⟨hfirst, hnodup⟩ := List.nodup_cons.1 hnodup
    cases fields with
    | nil => cases h
    | cons field' fields =>
      rw [given_cons, List.filter_append]
      obtain heq | hrest := List.mem_cons.1 h
      · obtain ⟨rfl, rfl⟩ := Prod.mk.inj heq
        rw [filter_memberOf, filter_given_of_not_mem hfirst, List.append_nil]
      · have hne : first ≠ name := fun heq => hfirst (heq ▸ (List.of_mem_zip hrest).1)
        rw [filter_memberOf_of_ne hne, List.nil_append, ih hnodup hrest]

/-- Members of other names, and the order of the members, do not matter. -/
theorem filter_named (hnodup : names.Nodup) (horder : named.Perm (given names fields ++ unknown))
    (hunknown : ∀ m ∈ unknown, m.1 ∉ names) (h : (name, field) ∈ names.zip fields) :
    named.filter (·.1 == name) = memberOf name field := by
  have hother : unknown.filter (·.1 == name) = [] := by
    refine List.filter_eq_nil_iff.2 fun m hm heq => hunknown m hm ?_
    rw [beq_iff_eq.1 heq]
    exact (List.of_mem_zip h).1
  -- a permutation of at most one member is that member
  have hperm := horder.filter (·.1 == name)
  rw [List.filter_append, hother, List.append_nil, filter_given hnodup h] at hperm
  cases field with
  | none => exact List.perm_nil.1 hperm
  | some v => exact List.perm_singleton.1 hperm

theorem fieldsOfMembers?_of_perm (hnodup : names.Nodup) (hlength : names.length = fields.length)
    (horder : named.Perm (given names fields ++ unknown))
    (hunknown : ∀ m ∈ unknown, m.1 ∉ names) :
    fieldsOfMembers? names (named.map fun m => (some m.1, m.2)) = some fields := by
  have hkeys : (named.map fun m => (some m.1, m.2)).mapM
      (fun m : Option (List Char) × Value => m.1.map (·, m.2)) = some named :=
    mapM_eq_some_of_forall₂ (by
      rw [List.forall₂_map_left_iff, List.forall₂_same]
      exact fun _ _ => rfl)
  rw [fieldsOfMembers?, hkeys, Option.bind_eq_bind, Option.bind_some]
  refine mapM_eq_some_of_forall₂ (List.forall₂_iff_zip.2 ⟨hlength, fun {name field} h => ?_⟩)
  rw [filter_named hnodup horder hunknown h]
  cases field <;> rfl

/-- The fields are read, whichever way the record is written. -/
theorem record?_of_gives (hnodup : names.Nodup) (hlength : names.length = fields.length)
    (h : v.Gives names fields) : v.record? names = some fields := by
  cases h with
  | object horder hunknown => exact fieldsOfMembers?_of_perm hnodup hlength horder hunknown
  | @array vs omitted horder =>
    have hsum : names.length = vs.length + omitted := by
      rw [hlength, horder, List.length_append, List.length_map, List.length_replicate]
    rw [record?, if_pos (by omega), horder, hsum, Nat.add_sub_cancel_left]

/-! ## What a field holds -/

variable {α : Type} {R : α → Value → Prop} {read? : Value → Option α} {x? : Option α}

theorem recovers_text? : Recovers text? IsText := by
  rintro cs v rfl
  rfl

theorem recovers_elements? (h : Recovers read? R) : Recovers (elements? read?) (IsArray R) := by
  rintro xs v ⟨vs, rfl, hvs⟩
  exact mapM_eq_some_of_forall₂ (hvs.flip.imp fun _ _ => h _ _)

/-- A content is read from an optional field, where `null` is no content. -/
theorem optional?_of_recovers (hread : Recovers read? R) (hnull : read? .null = none)
    (h : OptionalField R x? field) : optional? read? field = some x? := by
  cases h with
  | omitted => rfl
  | null => rfl
  | @held x v h =>
    have hx := hread x v h
    cases v with
    | null =>
      rw [hnull] at hx
      cases hx
    | _ =>
      rw [optional?, hx]
      · rfl
      · nofun

end Value

/-! ## Fields that can be printed -/

section Fields

variable {α : Type} {R : α → Value → Prop} {make : α → Value}

/-- An optional content as a value, `null` if there is none. -/
def optionalValue (make : α → Value) (x? : Option α) : Value := (x?.map make).getD .null

/-- Every content can be written, without numbers that are none. -/
def Writes (make : α → Value) (R : α → Value → Prop) : Prop :=
  ∀ x, R x (make x) ∧ Token.Numeric (make x).tokens

theorem writes_text : Writes Value.text IsText :=
  fun cs => ⟨rfl, fun w hw => by simp [Value.text, Value.tokens] at hw⟩

theorem Writes.array (h : Writes make R) : Writes (fun xs => .array (xs.map make)) (IsArray R) := by
  intro xs
  refine ⟨⟨_, rfl, ?_⟩, numeric_array ?_⟩
  · rw [List.forall₂_map_right_iff, List.forall₂_same]
    exact fun x _ => (h x).1
  · intro v hv
    obtain ⟨x, -, rfl⟩ := List.mem_map.1 hv
    exact (h x).2

theorem Writes.optional (h : Writes make R) (x? : Option α) :
    OptionalField R x? (some (optionalValue make x?)) ∧
      Token.Numeric (optionalValue make x?).tokens := by
  cases x? with
  | none => exact ⟨.null, fun w hw => by simp [optionalValue, Value.tokens] at hw⟩
  | some x => exact ⟨.held (h x).1, (h x).2⟩

end Fields

end Translit.Json
