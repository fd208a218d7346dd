import Mathlib.Tactic.Common
import Translit.Tool.Invocation

/-!
# How a command line is read

The words of a command line are read one after the other, and what a word is does not depend on the
options before it. So what is read of the words behind an added option is what would have been read
without it, but for that option.

* `Part`, `Spec.role`: what a word is; `Spec.readFrom?_cons`: what comes of it;
* `Spec.readFrom?_append_dashes`: operands added behind two dashes;
* `Options.SameBut`, `Spec.readFrom?_sameBut`: options that differ in what some names are given;
* `Options.Within`, `Spec.within_of_readFrom?`: what is given stays given;
* `Options.Spares`, `Spec.readFrom?_of_spares`: options that the words behind them do not give
  again.
-/

namespace Translit.Tool

/-! ## Options -/

namespace Options

variable {o o' r r' : Options} {name value other : String} {names : List String}

theorem addValue?_eq_some : o.addValue? name value = some r ↔
    o.value? name = none ∧ r = { o with values := o.values ++ [(name, value)] } := by
  unfold addValue?
  cases h : o.value? name <;> simp [eq_comm]

theorem addFlag?_eq_some : o.addFlag? name = some r ↔
    o.flag name = false ∧ r = { o with flags := o.flags ++ [name] } := by
  unfold addFlag?
  cases h : o.flag name <;> simp [eq_comm]

theorem value?_of_addValue? (h : o.addValue? name value = some r) :
    r.value? other = if other = name then some value else o.value? other := by
  obtain ⟨hnew, rfl⟩ := addValue?_eq_some.1 h
  unfold value? at hnew ⊢
  rw [List.lookup_append]
  by_cases hother : other = name
  · subst hother
    simp [hnew]
  · have hne : (other == name) = false := by simpa using hother
    simp [List.lookup_cons, hne, hother]

theorem flag_of_addValue? (h : o.addValue? name value = some r) : r.flag other = o.flag other := by
  obtain ⟨-, rfl⟩ := addValue?_eq_some.1 h
  rfl

theorem flag_of_addFlag? (h : o.addFlag? name = some r) :
    r.flag other = (o.flag other || other == name) := by
  obtain ⟨-, rfl⟩ := addFlag?_eq_some.1 h
  unfold flag
  rw [Bool.eq_iff_iff]
  simp

theorem value?_of_addFlag? (h : o.addFlag? name = some r) : r.value? other = o.value? other := by
  obtain ⟨-, rfl⟩ := addFlag?_eq_some.1 h
  rfl

/-- The same operands, and the same options but for some names. -/
structure SameBut (names : List String) (o o' : Options) : Prop where
  operands : o'.operands = o.operands
  value? : ∀ name, name ∉ names → o'.value? name = o.value? name
  flag : ∀ name, name ∉ names → o'.flag name = o.flag name

namespace SameBut

theorem addOperands (h : SameBut names o o') (words : List String) :
    SameBut names (o.addOperands words) (o'.addOperands words) where
  operands := by
    show o'.operands ++ words = o.operands ++ words
    rw [h.operands]
  value? := h.value?
  flag := h.flag

theorem addValue? (h : SameBut names o o') (hr : o.addValue? name value = some r)
    (hr' : o'.addValue? name value = some r') : SameBut names r r' where
  operands := by
    rw [(addValue?_eq_some.1 hr).2, (addValue?_eq_some.1 hr').2]
    exact h.operands
  value? other hother := by
    rw [value?_of_addValue? hr, value?_of_addValue? hr', h.value? other hother]
  flag other hother := by
    rw [flag_of_addValue? hr, flag_of_addValue? hr', h.flag other hother]

theorem addFlag? (h : SameBut names o o') (hr : o.addFlag? name = some r)
    (hr' : o'.addFlag? name = some r') : SameBut names r r' where
  operands := by
    rw [(addFlag?_eq_some.1 hr).2, (addFlag?_eq_some.1 hr').2]
    exact h.operands
  value? other hother := by
    rw [value?_of_addFlag? hr, value?_of_addFlag? hr', h.value? other hother]
  flag other hother := by
    rw [flag_of_addFlag? hr, flag_of_addFlag? hr', h.flag other hother]

theorem of_addValue? (hname : name ∈ names) (h : o.addValue? name value = some r) :
    SameBut names o r where
  operands := by rw [(addValue?_eq_some.1 h).2]
  value? other hother := by
    rw [value?_of_addValue? h, if_neg]
    rintro rfl
    exact hother hname
  flag other _ := flag_of_addValue? h

theorem of_addFlag? (hname : name ∈ names) (h : o.addFlag? name = some r) :
    SameBut names o r where
  operands := by rw [(addFlag?_eq_some.1 h).2]
  value? other _ := value?_of_addFlag? h
  flag other hother := by
    have hne : (other == name) = false := by
      rw [beq_eq_false_iff_ne]
      rintro rfl
      exact hother hname
    rw [flag_of_addFlag? h, hne, Bool.or_false]

end SameBut

/-- What the first options are given, the second are given too. -/
structure Within (o r : Options) : Prop where
  flag : ∀ name, o.flag name = true → r.flag name = true
  value? : ∀ name, (o.value? name).isSome = true → (r.value? name).isSome = true

namespace Within

theorem refl (o : Options) : o.Within o := ⟨fun _ h => h, fun _ h => h⟩

theorem trans (h : o.Within o') (h' : o'.Within r) : o.Within r where
  flag name hname := h'.flag name (h.flag name hname)
  value? name hname := h'.value? name (h.value? name hname)

theorem addOperands (o : Options) (words : List String) : o.Within (o.addOperands words) :=
  ⟨fun _ h => h, fun _ h => h⟩

theorem of_addValue? (h : o.addValue? name value = some r) : o.Within r where
  flag other hother := by rwa [flag_of_addValue? h]
  value? other hother := by
    rw [value?_of_addValue? h]
    split
    · rfl
    · exact hother

theorem of_addFlag? (h : o.addFlag? name = some r) : o.Within r where
  flag other hother := by rw [flag_of_addFlag? h, hother, Bool.true_or]
  value? other hother := by rwa [value?_of_addFlag? h]

end Within

/-- What the options `o'` are given besides those of `o`, the options `r` are not. -/
structure Spares (o o' r : Options) : Prop where
  flag : ∀ name, o'.flag name = true → o.flag name = true ∨ r.flag name = false
  value? : ∀ name, (o'.value? name).isSome = true →
    (o.value? name).isSome = true ∨ r.value? name = none

namespace Spares

variable {r₁ : Options}

/-- A value that is new to some options is new to those that are spared. -/
theorem addValue? (h : Spares o o' r) (hr : o.addValue? name value = some r₁)
    (hwithin : r₁.Within r) : ∃ r₁', o'.addValue? name value = some r₁' ∧ Spares r₁ r₁' r := by
  have hnew : o'.value? name = none := by
    rw [← Option.not_isSome_iff_eq_none]
    intro hgiven
    rcases h.value? name hgiven with hgiven | hnone
    · rw [(addValue?_eq_some.1 hr).1] at hgiven
      cases hgiven
    · have hsome := hwithin.value? name (by rw [value?_of_addValue? hr, if_pos rfl]; rfl)
      rw [hnone] at hsome
      cases hsome
  have hadd : o'.addValue? name value = some { o' with values := o'.values ++ [(name, value)] } :=
    addValue?_eq_some.2 ⟨hnew, rfl⟩
  refine ⟨_, hadd, ?_, ?_⟩
  · intro other hother
    rw [flag_of_addValue? hadd] at hother
    rw [flag_of_addValue? hr]
    exact h.flag other hother
  · intro other hother
    rw [value?_of_addValue? hadd] at hother
    rw [value?_of_addValue? hr]
    by_cases hname : other = name
    · exact .inl (by rw [if_pos hname]; rfl)
    · rw [if_neg hname] at hother ⊢
      exact h.value? other hother

/-- So is an option without a value. -/
theorem addFlag? (h : Spares o o' r) (hr : o.addFlag? name = some r₁) (hwithin : r₁.Within r) :
    ∃ r₁', o'.addFlag? name = some r₁' ∧ Spares r₁ r₁' r := by
  have hnew : o'.flag name = false := by
    rw [← Bool.not_eq_true]
    intro hgiven
    rcases h.flag name hgiven with hgiven | hnone
    · rw [(addFlag?_eq_some.1 hr).1] at hgiven
      cases hgiven
    · have hsome := hwithin.flag name (by rw [flag_of_addFlag? hr]; simp)
      rw [hnone] at hsome
      cases hsome
  have hadd := addFlag?_eq_some.2 ⟨hnew, rfl⟩
  refine ⟨_, hadd, ?_, ?_⟩
  · intro other hother
    rw [flag_of_addFlag? hadd, Bool.or_eq_true] at hother
    rw [flag_of_addFlag? hr, Bool.or_eq_true]
    rcases hother with hother | hname
    · rcases h.flag other hother with hgiven | hnone
      · exact .inl (.inl hgiven)
      · exact .inr hnone
    · exact .inl (.inr hname)
  · intro other hother
    rw [value?_of_addFlag? hadd] at hother
    rw [value?_of_addFlag? hr]
    exact h.value? other hother

end Spares

end Options

/-! ## Words -/

/-- What a word gives to the options. -/
inductive Part
  | misplaced
  | operand (word : String)
  | option (name : String)
  | value (name value : String)
  | flag (name : String)

/-- What a word is: the first operand where none is expected, two dashes, or a part. -/
inductive Role
  | stop
  | dashes
  | part (p : Part)

/-- The options with one more part, and the option that then lacks its value. -/
def Options.add? (o : Options) : Part → Option (Options × Option String)
  | .misplaced => none
  | .operand word => some (o.addOperands [word], none)
  | .option name => some (o, some name)
  | .value name value => (o.addValue? name value).map (·, none)
  | .flag name => (o.addFlag? name).map (·, none)

/-- What is done with the options after one more part. -/
theorem Options.add?_bind {β : Type} (o : Options) (p : Part)
    (f : Options × Option String → Option β) :
    (o.add? p).bind f =
      match p with
      | .misplaced => none
      | .operand word => f (o.addOperands [word], none)
      | .option name => f (o, some name)
      | .value name value => (o.addValue? name value).bind fun r => f (r, none)
      | .flag name => (o.addFlag? name).bind fun r => f (r, none) := by
  cases p with
  | value | flag => exact Option.bind_map ..
  | _ => rfl

theorem Options.SameBut.add? {o o' r r' : Options} {names : List String} {p : Part}
    {lacks? lacks?' : Option String} (h : SameBut names o o') (hr : o.add? p = some (r, lacks?))
    (hr' : o'.add? p = some (r', lacks?')) : SameBut names r r' ∧ lacks?' = lacks? := by
  cases p with
  | misplaced => cases hr
  | operand word =>
    cases hr
    cases hr'
    exact ⟨h.addOperands [word], rfl⟩
  | option name =>
    cases hr
    cases hr'
    exact ⟨h, rfl⟩
  | value name value =>
    simp only [Options.add?, Option.map_eq_some_iff, Prod.mk.injEq] at hr hr'
    obtain ⟨_, hadd, rfl, rfl⟩ := hr
    obtain ⟨_, hadd', rfl, rfl⟩ := hr'
    exact ⟨h.addValue? hadd hadd', rfl⟩
  | flag name =>
    simp only [Options.add?, Option.map_eq_some_iff, Prod.mk.injEq] at hr hr'
    obtain ⟨_, hadd, rfl, rfl⟩ := hr
    obtain ⟨_, hadd', rfl, rfl⟩ := hr'
    exact ⟨h.addFlag? hadd hadd', rfl⟩

theorem Options.Within.of_add? {o r : Options} {p : Part} {lacks? : Option String}
    (h : o.add? p = some (r, lacks?)) : o.Within r := by
  cases p with
  | misplaced => cases h
  | operand word =>
    cases h
    exact .addOperands o [word]
  | option name =>
    cases h
    exact .refl o
  | value name value =>
    simp only [Options.add?, Option.map_eq_some_iff, Prod.mk.injEq] at h
    obtain ⟨_, hadd, rfl, -⟩ := h
    exact .of_addValue? hadd
  | flag name =>
    simp only [Options.add?, Option.map_eq_some_iff, Prod.mk.injEq] at h
    obtain ⟨_, hadd, rfl, -⟩ := h
    exact .of_addFlag? hadd

theorem Options.Spares.add? {o o' r r₁ : Options} {p : Part} {lacks? : Option String}
    (h : o.Spares o' r) (hr : o.add? p = some (r₁, lacks?)) (hwithin : r₁.Within r) :
    ∃ r₁', o'.add? p = some (r₁', lacks?) ∧ r₁.Spares r₁' r := by
  cases p with
  | misplaced => cases hr
  | operand word =>
    cases hr
    exact ⟨_, rfl, h.flag, h.value?⟩
  | option name =>
    cases hr
    exact ⟨_, rfl, h⟩
  | value name value =>
    simp only [Options.add?, Option.map_eq_some_iff, Prod.mk.injEq] at hr ⊢
    obtain ⟨_, hadd, rfl, rfl⟩ := hr
    obtain ⟨r₁', hadd', hspares⟩ := h.addValue? hadd hwithin
    exact ⟨r₁', ⟨r₁', hadd', rfl, rfl⟩, hspares⟩
  | flag name =>
    simp only [Options.add?, Option.map_eq_some_iff, Prod.mk.injEq] at hr ⊢
    obtain ⟨_, hadd, rfl, rfl⟩ := hr
    obtain ⟨r₁', hadd', hspares⟩ := h.addFlag? hadd hwithin
    exact ⟨r₁', ⟨r₁', hadd', rfl, rfl⟩, hspares⟩

namespace Spec

variable {s : Spec} {o o' r r' : Options} {lacks? : Option String} {word : String}
  {words rest rest' more : List String} {names : List String}

/-- What a word is, where the option `lacks?` lacks its value. -/
def role (s : Spec) (lacks? : Option String) (word : String) : Role :=
  match lacks? with
  | some name => .part (if isValue word then .value name word else .misplaced)
  | none =>
    match Word.ofString word with
    | .operand => if s.operands = 0 then .stop else .part (.operand word)
    | .dashes => .dashes
    | option =>
      match s.valued? option, s.flag? option with
      | some (name, some value), _ => .part (.value name value)
      | some (name, none), _ => .part (.option name)
      | none, some name => .part (.flag name)
      | none, none => .part .misplaced

/-- **What comes of a word.** -/
theorem readFrom?_cons (s : Spec) (o : Options) (lacks? : Option String) (word : String)
    (words : List String) :
    s.readFrom? o lacks? (word :: words) =
      match s.role lacks? word with
      | .stop => some (o, word :: words)
      | .dashes => some (o.addOperands words, [])
      | .part p => (o.add? p).bind fun r => s.readFrom? r.1 r.2 words := by
  cases lacks? with
  | some name =>
    rw [readFrom?, role]
    by_cases hv : isValue word <;>
      simp [hv, Options.add?_bind]
  | none =>
    rw [readFrom?, role]
    cases hw : Word.ofString word with
    | operand => by_cases hs : s.operands = 0 <;> simp [hs, Options.add?_bind]
    | dashes => simp
    | long name value? =>
      rcases hv : s.valued? (.long name value?) with _ | ⟨n, _ | v⟩ <;>
        cases hf : s.flag? (.long name value?) <;>
          simp [hv, hf, Options.add?_bind]
    | short letter value? =>
      rcases hv : s.valued? (.short letter value?) with _ | ⟨n, _ | v⟩ <;>
        cases hf : s.flag? (.short letter value?) <;>
          simp [hv, hf, Options.add?_bind]

theorem readFrom?_nil :
    s.readFrom? o lacks? [] = some (r, rest) ↔ lacks? = none ∧ o = r ∧ rest = [] := by
  cases lacks? <;> simp [readFrom?, eq_comm]

theorem ofString_eq_dashes : Word.ofString word = .dashes ↔ word = "--" := by
  constructor
  · intro h
    unfold Word.ofString at h
    split at h
    · rename_i hlist
      rw [← String.ofList_toList (s := word), hlist]
    · split at h <;> cases h
    · cases h
    · cases h
  · rintro rfl
    decide

theorem role_dashes (s : Spec) : s.role none "--" = .dashes := by
  rw [role, ofString_eq_dashes.2 rfl]

theorem eq_of_role_eq_dashes (h : s.role lacks? word = .dashes) : word = "--" := by
  rw [← ofString_eq_dashes]
  cases lacks? with
  | some name => cases h
  | none =>
    rw [role] at h
    split at h
    · split at h <;> cases h
    · assumption
    · split at h <;> cases h

/-! ## Words behind other words -/

/-- Where the words are not read to their end, more words behind them are not read either. -/
theorem readFrom?_append (h : s.readFrom? o lacks? words = some (r, rest)) (hrest : rest ≠ []) :
    s.readFrom? o lacks? (words ++ more) = some (r, rest ++ more) := by
  induction words generalizing o lacks? with
  | nil => exact absurd (readFrom?_nil.1 h).2.2 hrest
  | cons word words ih =>
    rw [readFrom?_cons] at h
    rw [List.cons_append, readFrom?_cons]
    cases hrole : s.role lacks? word with
    | stop =>
      simp only [hrole, Option.some.injEq, Prod.mk.injEq] at h ⊢
      exact ⟨h.1, by rw [← h.2]; rfl⟩
    | dashes =>
      simp only [hrole, Option.some.injEq, Prod.mk.injEq] at h
      exact absurd h.2.symm hrest
    | part p =>
      simp only [hrole, Option.bind_eq_some_iff] at h ⊢
      obtain ⟨next, hnext, h⟩ := h
      exact ⟨next, hnext, ih h⟩

/-- **Two dashes.** What stands behind them is added to the operands. -/
theorem readFrom?_append_dashes (h : s.readFrom? o lacks? words = some (r, []))
    (hwords : "--" ∉ words) :
    s.readFrom? o lacks? (words ++ "--" :: more) = some (r.addOperands more, []) := by
  induction words generalizing o lacks? with
  | nil =>
    obtain ⟨rfl, rfl, -⟩ := readFrom?_nil.1 h
    rw [List.nil_append, readFrom?_cons, role_dashes]
  | cons word words ih =>
    rw [readFrom?_cons] at h
    rw [List.cons_append, readFrom?_cons]
    cases hrole : s.role lacks? word with
    | stop => simp [hrole] at h
    | dashes =>
      rw [eq_of_role_eq_dashes hrole] at hwords
      exact absurd List.mem_cons_self hwords
    | part p =>
      simp only [hrole, Option.bind_eq_some_iff] at h ⊢
      obtain ⟨next, hnext, h⟩ := h
      exact ⟨next, hnext, ih h fun hmem => hwords (List.mem_cons_of_mem _ hmem)⟩

/-- **Two readings of the same words**, behind options that differ in what some names are given. -/
theorem readFrom?_sameBut (ho : o.SameBut names o')
    (h : s.readFrom? o lacks? words = some (r, rest))
    (h' : s.readFrom? o' lacks? words = some (r', rest')) : r.SameBut names r' ∧ rest' = rest := by
  induction words generalizing o o' lacks? with
  | nil =>
    obtain ⟨-, rfl, rfl⟩ := readFrom?_nil.1 h
    obtain ⟨-, rfl, rfl⟩ := readFrom?_nil.1 h'
    exact ⟨ho, rfl⟩
  | cons word words ih =>
    rw [readFrom?_cons] at h h'
    cases hrole : s.role lacks? word with
    | stop =>
      simp only [hrole, Option.some.injEq, Prod.mk.injEq] at h h'
      obtain ⟨rfl, rfl⟩ := h
      obtain ⟨rfl, rfl⟩ := h'
      exact ⟨ho, rfl⟩
    | dashes =>
      simp only [hrole, Option.some.injEq, Prod.mk.injEq] at h h'
      obtain ⟨rfl, rfl⟩ := h
      obtain ⟨rfl, rfl⟩ := h'
      exact ⟨ho.addOperands words, rfl⟩
    | part p =>
      simp only [hrole, Option.bind_eq_some_iff] at h h'
      obtain ⟨⟨o₁, lacks₁?⟩, hnext, h⟩ := h
      obtain ⟨⟨o₁', lacks₁?'⟩, hnext', h'⟩ := h'
      obtain ⟨ho₁, rfl⟩ := ho.add? hnext hnext'
      exact ih ho₁ h h'

/-- What is given before the words is given behind them. -/
theorem within_of_readFrom? (h : s.readFrom? o lacks? words = some (r, rest)) : o.Within r := by
  induction words generalizing o lacks? with
  | nil =>
    obtain ⟨-, rfl, -⟩ := readFrom?_nil.1 h
    exact .refl o
  | cons word words ih =>
    rw [readFrom?_cons] at h
    cases hrole : s.role lacks? word with
    | stop =>
      simp only [hrole, Option.some.injEq, Prod.mk.injEq] at h
      obtain ⟨rfl, -⟩ := h
      exact .refl o
    | dashes =>
      simp only [hrole, Option.some.injEq, Prod.mk.injEq] at h
      obtain ⟨rfl, -⟩ := h
      exact .addOperands o words
    | part p =>
      simp only [hrole, Option.bind_eq_some_iff] at h
      obtain ⟨⟨o₁, lacks₁?⟩, hnext, h⟩ := h
      exact (Options.Within.of_add? hnext).trans (ih h)

/-- **The same words behind more options** are read too, unless they give one of them again. -/
theorem readFrom?_of_spares (ho : o.Spares o' r)
    (h : s.readFrom? o lacks? words = some (r, rest)) :
    ∃ r', s.readFrom? o' lacks? words = some (r', rest) := by
  induction words generalizing o o' lacks? with
  | nil =>
    obtain ⟨rfl, rfl, rfl⟩ := readFrom?_nil.1 h
    exact ⟨o', rfl⟩
  | cons word words ih =>
    rw [readFrom?_cons] at h ⊢
    cases hrole : s.role lacks? word with
    | stop =>
      simp only [hrole, Option.some.injEq, Prod.mk.injEq] at h
      obtain ⟨-, rfl⟩ := h
      exact ⟨o', rfl⟩
    | dashes =>
      simp only [hrole, Option.some.injEq, Prod.mk.injEq] at h
      obtain ⟨-, rfl⟩ := h
      exact ⟨o'.addOperands words, rfl⟩
    | part p =>
      simp only [hrole, Option.bind_eq_some_iff] at h ⊢
      obtain ⟨⟨o₁, lacks₁?⟩, hnext, h⟩ := h
      obtain ⟨o₁', hnext', ho₁⟩ := ho.add? hnext (within_of_readFrom? h)
      obtain ⟨r', h'⟩ := ih ho₁ h
      exact ⟨r', _, hnext', h'⟩

end Spec

end Translit.Tool
