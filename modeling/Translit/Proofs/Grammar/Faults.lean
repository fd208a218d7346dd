import Translit.Proofs.Grammar.Meaning

/-!
# What is wrong with a grammar document

All faults of a document are listed here in the order in which one meets them. A document is refused
for the first one, for its letter classes only if there is none, and is read otherwise.

* `ConditionEntry.faults`, `RuleEntry.faults`, `PatternEntry.faults`, `Document.faults`: all faults;
* `Document.Sound`: a document without faults;
* `toCondition_eq_error`, `toRule_eq_error`, `readRules?_eq_error`, `toPattern_eq_error`,
  `readPatterns_eq_error`: an entry is refused for its first fault;
* `decode_verdict`: when a document is read, why it is refused, and what it describes.
-/

namespace Translit.Grammar

open Unicode (foldCase)

/-- The names of the two sides. -/
def sideNames : List (List Char) := ["prefix".toList, "suffix".toList]

/-- The names of the scopes that need no value. -/
def classNames : List (List Char) := ["vowel".toList, "consonant".toList, "punctuation".toList]

/-- The name of the scope that needs a value. -/
def exactName : List Char := "exact".toList

/-- The names as they may be written, with an exclamation mark or without. -/
def spellings (names : List (List Char)) : List (List Char) := names ++ names.map ('!' :: ·)

/-! ## All faults -/

/-- The side of a condition is neither of the two. -/
def ConditionEntry.sideFaults (find : List Char) (e : ConditionEntry) : List Error :=
  if e.kind ∈ sideNames then [] else [.unknownSide find e.kind]

/-- The scope of a condition, if it has one, is unknown or lacks its value. -/
def ConditionEntry.scopeFaults (find : List Char) (e : ConditionEntry) : List Error :=
  match e.scope? with
  | none => []
  | some raw =>
    if raw ∈ spellings classNames then []
    else if raw ∈ spellings [exactName] then
      if e.value?.isSome then [] else [.missingExactValue find]
    else [.unknownScope find raw]

/-- The faults of a condition of the pattern `find`. -/
def ConditionEntry.faults (find : List Char) (e : ConditionEntry) : List Error :=
  e.sideFaults find ++ e.scopeFaults find

/-- The faults of a rule of the pattern `find`. -/
def RuleEntry.faults (find : List Char) (e : RuleEntry) : List Error :=
  e.conditions.flatMap (ConditionEntry.faults find)

/-- The faults of the pattern at `index`. -/
def PatternEntry.faults (index : Nat) (e : PatternEntry) : List Error :=
  (if e.find = [] then [.emptyFind index] else []) ++
    (e.rules?.getD []).flatMap (RuleEntry.faults e.find)

/-- The faults of the patterns of a document. -/
def Document.faults (d : Document) : List Error :=
  d.patterns.zipIdx.flatMap fun e => e.1.faults e.2

/-! ## Documents without faults -/

/-- The condition has a side and, if it has a scope, a scope that is known, with its value if it
needs one. -/
structure ConditionEntry.Sound (e : ConditionEntry) : Prop where
  side : e.kind ∈ sideNames
  scope : ∀ raw, e.scope? = some raw →
    raw ∈ spellings classNames ∨ raw ∈ spellings [exactName] ∧ ∃ value, e.value? = some value

/-- Every pattern finds something, every condition is sound, and no letter of either class is
the fold of both a vowel and a consonant. -/
structure Document.Sound (d : Document) : Prop where
  find : ∀ e ∈ d.patterns, e.find ≠ []
  conditions : ∀ e ∈ d.patterns, ∀ r ∈ e.rules?.getD [], ∀ c ∈ r.conditions, c.Sound
  classes : DisjointFolds d.vowel d.consonant

variable {e : ConditionEntry} {find raw : List Char} {d : Document} {err : Error}

theorem ConditionEntry.faults_eq_nil : e.faults find = [] ↔ e.Sound := by
  have hside : e.sideFaults find = [] ↔ e.kind ∈ sideNames := by
    unfold sideFaults
    split <;> simp [*]
  have hscope : e.scopeFaults find = [] ↔ ∀ raw, e.scope? = some raw →
      raw ∈ spellings classNames ∨
        raw ∈ spellings [exactName] ∧ ∃ value, e.value? = some value := by
    unfold scopeFaults
    cases e.scope? with
    | none => simp
    | some raw =>
      simp only [Option.some.injEq, forall_eq', ← Option.isSome_iff_exists]
      split
      · simp [*]
      · split
        · cases e.value? <;> simp [*]
        · simp [*]
  rw [faults, List.append_eq_nil_iff, hside, hscope]
  exact ⟨fun h => ⟨h.1, h.2⟩, fun h => ⟨h.side, h.scope⟩⟩

theorem PatternEntry.faults_eq_nil {e : PatternEntry} {index : Nat} : e.faults index = [] ↔
    e.find ≠ [] ∧ ∀ r ∈ e.rules?.getD [], ∀ c ∈ r.conditions, c.Sound := by
  rw [faults, List.append_eq_nil_iff]
  simp only [List.flatMap_eq_nil_iff, RuleEntry.faults, ConditionEntry.faults_eq_nil]
  by_cases hfind : e.find = [] <;> simp [hfind]

/-- **A document is sound if it has no fault and its classes have no letter in common.** -/
theorem Document.sound_iff : d.Sound ↔ d.faults = [] ∧ DisjointFolds d.vowel d.consonant := by
  have hfaults : d.faults = [] ↔ ∀ e ∈ d.patterns,
      e.find ≠ [] ∧ ∀ r ∈ e.rules?.getD [], ∀ c ∈ r.conditions, c.Sound := by
    rw [faults, List.flatMap_eq_nil_iff]
    simp only [PatternEntry.faults_eq_nil]
    conv_rhs => rw [← List.zipIdx_map_fst 0 d.patterns]
    rw [List.forall_mem_map]
  rw [hfaults]
  exact ⟨fun h => ⟨fun e he => ⟨h.find e he, h.conditions e he⟩, h.classes⟩,
    fun h => ⟨fun e he => (h.1 e he).1, fun e he => (h.1 e he).2, h.2⟩⟩

/-! ## An entry is refused for its first fault -/

theorem mem_sideNames {kind : List Char} : kind ∈ sideNames ↔ ∃ side : Side, kind = side.name := by
  constructor
  · intro h
    rcases List.mem_cons.1 h with h | h
    · exact ⟨.before, h⟩
    · exact ⟨.after, List.mem_singleton.1 h⟩
  · rintro ⟨side, rfl⟩
    cases side <;> decide

theorem sideOf?_eq_none {kind : List Char} : sideOf? kind = none ↔ kind ∉ sideNames := by
  rw [mem_sideNames, ← not_iff_not, not_not, ← ne_eq, Option.ne_none_iff_exists']
  exact exists_congr fun _ => sideOf?_eq_some

/-- What is left of a text without its exclamation mark is a name exactly if the text spells one. -/
theorem splitNegation_mem {names : List (List Char)} (h : ∀ name ∈ names, name.head? ≠ some '!') :
    (splitNegation raw).2 ∈ names ↔ raw ∈ spellings names := by
  unfold splitNegation spellings
  rw [List.mem_append, List.mem_map]
  split
  · rename_i name
    have hnot : '!' :: name ∉ names := fun hmem => h _ hmem rfl
    simp [hnot]
  · rename_i hplain
    have hnot : ¬ ∃ name ∈ names, '!' :: name = raw := fun ⟨name, _, he⟩ => hplain name he.symm
    simp [hnot]

section Scopes

variable {name : List Char} {value? : Option (List Char)}

theorem scopeOf_of_mem (h : name ∈ classNames) :
    ∃ scope, scopeOf find raw name value? = .ok scope := by
  rcases List.mem_cons.1 h with rfl | h
  · exact ⟨.vowel, rfl⟩
  · rcases List.mem_cons.1 h with rfl | h
    · exact ⟨.consonant, rfl⟩
    · obtain rfl := List.mem_singleton.1 h
      exact ⟨.punctuation, rfl⟩

theorem scopeOf_of_not_mem (hclass : name ∉ classNames) (hexact : name ≠ exactName) :
    scopeOf find raw name value? = .error (.unknownScope find raw) := by
  simp only [classNames, List.mem_cons, List.not_mem_nil, or_false, not_or] at hclass
  obtain ⟨hvowel, hconsonant, hpunctuation⟩ := hclass
  unfold scopeOf
  rw [if_neg hvowel, if_neg hconsonant, if_neg hpunctuation]
  exact if_neg hexact

end Scopes

theorem scopeOf_eq_error (hraw : e.scope? = some raw) :
    scopeOf find raw (splitNegation raw).2 e.value? = .error err ↔
      (e.scopeFaults find).head? = some err := by
  have hclass : (splitNegation raw).2 ∈ classNames ↔ raw ∈ spellings classNames :=
    splitNegation_mem (by decide)
  have hexact : (splitNegation raw).2 ∈ [exactName] ↔ raw ∈ spellings [exactName] :=
    splitNegation_mem (by decide)
  rw [List.mem_singleton] at hexact
  simp only [ConditionEntry.scopeFaults, hraw, ← hclass, ← hexact]
  split
  · rename_i hmem
    obtain ⟨scope, hscope⟩ := scopeOf_of_mem hmem
    rw [hscope]
    exact ⟨fun h => (by cases h), fun h => (by cases h)⟩
  · rename_i hnot
    split
    · rename_i hname
      rw [hname]
      cases e.value? with
      | none => exact ⟨fun h => (by cases h; rfl), fun h => (by cases h; rfl)⟩
      | some value => exact ⟨fun h => (by cases h), fun h => (by cases h)⟩
    · rename_i hname
      rw [scopeOf_of_not_mem hnot hname]
      exact ⟨fun h => (by cases h; rfl), fun h => (by cases h; rfl)⟩

theorem toCondition_eq_error :
    e.toCondition find = .error err ↔ (e.faults find).head? = some err := by
  unfold ConditionEntry.faults ConditionEntry.sideFaults
  cases hside : sideOf? e.kind with
  | none =>
    rw [if_neg (sideOf?_eq_none.1 hside)]
    simp [ConditionEntry.toCondition, hside]
  | some side =>
    have hkind := sideOf?_eq_some.1 hside
    rw [if_pos (mem_sideNames.2 ⟨side, hkind⟩), List.nil_append]
    cases hraw : e.scope? with
    | none => simp [ConditionEntry.toCondition, ConditionEntry.scopeFaults, hside, hraw]
    | some raw => rw [toCondition_of_scope hkind hraw, map_eq_error, scopeOf_eq_error hraw]

theorem toRule_eq_error {e : RuleEntry} :
    e.toRule find = .error err ↔ (e.faults find).head? = some err := by
  rw [toRule_eq, map_eq_error]
  exact mapM_eq_error fun _ _ => toCondition_eq_error

theorem readRules?_eq_error {entries? : Option (List RuleEntry)} :
    readRules? find entries? = .error err ↔
      ((entries?.getD []).flatMap (RuleEntry.faults find)).head? = some err := by
  by_cases hnil : entries?.getD [] = []
  · rw [readRules?_of_nil hnil, hnil]
    exact ⟨fun h => (by cases h), fun h => (by cases h)⟩
  · rw [readRules?_of_ne_nil hnil, map_eq_error]
    exact mapM_eq_error fun _ _ => toRule_eq_error

theorem toPattern_eq_error {e : PatternEntry} {index : Nat} :
    e.toPattern index = .error err ↔ (e.faults index).head? = some err := by
  unfold PatternEntry.faults
  by_cases hfind : e.find = []
  · rw [toPattern_of_empty hfind, if_pos hfind]
    simp
  · rw [toPattern_of_nonempty hfind, map_eq_error, if_neg hfind, List.nil_append]
    exact readRules?_eq_error

/-- **The patterns of a document are refused for the first fault of all.** -/
theorem readPatterns_eq_error : d.readPatterns = .error err ↔ d.faults.head? = some err :=
  mapM_eq_error fun _ _ => toPattern_eq_error

theorem faults_eq_nil_of_readPatterns {ps : List Pattern} (h : d.readPatterns = .ok ps) :
    d.faults = [] := by
  cases hfaults : d.faults with
  | nil => rfl
  | cons err rest =>
    have hfirst : d.faults.head? = some err := by
      rw [hfaults]
      rfl
    have hrefused := readPatterns_eq_error.2 hfirst
    rw [h] at hrefused
    cases hrefused

/-! ## The verdict on a document -/

/-- The first thing wrong with the document: its first fault or, if there is none, a letter that is
the fold of both a vowel and a consonant. -/
def Document.Refuses (d : Document) (err : Error) : Prop :=
  d.faults.head? = some err ∨ d.faults = [] ∧ ∃ l, err = .overlappingClasses l ∧
    (∃ v ∈ d.vowel, foldCase v = l) ∧ ∃ k ∈ d.consonant, foldCase k = l

/-- The grammar is the one that the document describes, pattern by pattern. -/
structure Document.Means (d : Document) (g : Grammar) : Prop where
  patterns : List.Forall₂ PatternEntry.Means d.patterns g.patterns
  vowels : g.vowels = .ofText d.vowel
  consonants : g.consonants = .ofText d.consonant
  caseSensitive : g.caseSensitive = .ofText d.caseSensitive

theorem toGrammar_eq_error (h : d.toGrammar = .error err) : d.Refuses err := by
  have hread : d.toGrammar =
      d.readPatterns.bind (build d.vowel d.consonant d.caseSensitive) := rfl
  rw [hread] at h
  cases hps : d.readPatterns with
  | error err' =>
    rw [hps] at h
    cases h
    exact .inl (readPatterns_eq_error.1 hps)
  | ok ps =>
    rw [hps] at h
    exact .inr ⟨faults_eq_nil_of_readPatterns hps, exists_common_of_build h⟩

theorem Document.Refuses.not_sound (h : d.Refuses err) : ¬ d.Sound := by
  intro hsound
  obtain ⟨hfaults, hdisjoint⟩ := Document.sound_iff.1 hsound
  rcases h with hfirst | ⟨-, l, -, ⟨v, hv, hvl⟩, k, hk, hkl⟩
  · rw [hfaults] at hfirst
    cases hfirst
  · exact hdisjoint v hv k hk (hvl.trans hkl.symm)

/-- **The verdict on a document.** It is read exactly if it is sound; it is refused for the first
thing that is wrong with it; and what is read is the grammar that it describes, in which no pattern
has an empty list of rules. -/
theorem decode_verdict {bytes : Text.Utf8.Bytes} (h : Document.ofBytes? bytes = some d) :
    ((∃ g, decode bytes = .ok g) ↔ d.Sound) ∧
    (∀ err, decode bytes = .error err → d.Refuses err) ∧
    ∀ g, decode bytes = .ok g → d.Means g ∧ ∀ p ∈ g.patterns, p.rules? ≠ some [] := by
  have hdecode : decode bytes = d.toGrammar := by
    rw [decode, h]
  rw [hdecode]
  refine ⟨⟨?_, fun hsound => ?_⟩, fun err => toGrammar_eq_error, fun g hg => ?_⟩
  · rintro ⟨g, hg⟩
    obtain ⟨hfind, hmeans, hdisjoint, -⟩ := toGrammar_eq_ok.1 hg
    have hread := readPatterns_eq_ok.2 ⟨hfind, hmeans⟩
    exact Document.sound_iff.2 ⟨faults_eq_nil_of_readPatterns hread, hdisjoint⟩
  · cases hd : d.toGrammar with
    | error err => exact absurd hsound (toGrammar_eq_error hd).not_sound
    | ok g => exact ⟨g, rfl⟩
  · obtain ⟨-, hpatterns, -, hvowels, hconsonants, hcaseSensitive⟩ := toGrammar_eq_ok.1 hg
    exact ⟨⟨hpatterns, hvowels, hconsonants, hcaseSensitive⟩, all_rules_ne_of_means hpatterns⟩

/-- A document with a scope that is negated twice in its first pattern, and nothing to find in its
second. -/
def twiceNegated : Document where
  vowel := ['a']
  consonant := ['k']
  caseSensitive := []
  patterns := [
    ⟨['k'], ['K'], some [⟨[⟨"prefix".toList, none, none⟩,
      ⟨"suffix".toList, some "!!vowel".toList, none⟩], ['x']⟩]⟩,
    ⟨[], ['y'], none⟩]

/-- The file that holds it. -/
def twiceNegatedFile : Text.Utf8.Bytes := Text.Utf8.encode
  r#"["a","k","",[["k","K",[[[["prefix"],["suffix","!!vowel"]],"x"]]],["","y"]]]"#.toList

/-- A document with a condition that compares a text, and one that asks nothing. Its second pattern
has an empty list of rules. -/
def onceNegated : Document where
  vowel := ['a']
  consonant := ['k']
  caseSensitive := []
  patterns := [
    ⟨['k'], ['K'], some [⟨[⟨"prefix".toList, none, some ['z']⟩,
      ⟨"suffix".toList, some "!exact".toList, some ['a']⟩], ['x']⟩]⟩,
    ⟨['g'], ['G'], some []⟩]

/-- The file that holds it. -/
def onceNegatedFile : Text.Utf8.Bytes := Text.Utf8.encode
  (r#"["a","k","",[["k","K",[[[["prefix",null,"z"],["suffix","!exact","a"]],"x"]]],"#.toList ++
    r#"["g","G",[]]]]"#.toList)

/-- The first document is refused for its first fault. The second is read, its second pattern
without rules. -/
theorem negations_decode_verdict :
    (Document.ofBytes? twiceNegatedFile = some twiceNegated ∧
      decode twiceNegatedFile = .error (.unknownScope ['k'] "!!vowel".toList) ∧
      twiceNegated.Refuses (.unknownScope ['k'] "!!vowel".toList)) ∧
    Document.ofBytes? onceNegatedFile = some onceNegated ∧ onceNegated.Sound ∧
      ∃ g, decode onceNegatedFile = .ok g ∧ onceNegated.Means g ∧
        (∀ p ∈ g.patterns, p.rules? ≠ some []) ∧
        g.patterns.map (·.rules?.isSome) = [true, false] := by
  have htwice : Document.ofBytes? twiceNegatedFile = some twiceNegated := by decide +kernel
  have honce : Document.ofBytes? onceNegatedFile = some onceNegated := by decide +kernel
  have herror : decode twiceNegatedFile = .error (.unknownScope ['k'] "!!vowel".toList) := by
    decide +kernel
  have hruled : (decode onceNegatedFile).map (fun g => g.patterns.map (·.rules?.isSome)) =
      .ok [true, false] := by decide +kernel
  obtain ⟨g, hg, hruled⟩ := map_eq_ok.1 hruled
  obtain ⟨hread, -, hmeans⟩ := decode_verdict honce
  obtain ⟨hmeans, hrules⟩ := hmeans g hg
  exact ⟨⟨htwice, herror, (decode_verdict htwice).2.1 _ herror⟩, honce, hread.1 ⟨g, hg⟩, g, hg,
    hmeans, hrules, hruled⟩

end Translit.Grammar
