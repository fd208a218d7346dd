import Mathlib.Data.List.Induction
import Mathlib.Tactic.Common
import Translit.Proofs.Session.Steps

/-!
# What a session fixes

The documents, the settings and the transliterator of a session are written once. What they are at
any point of a run can be said from what was done and told before.

* `Session.after`, `Session.history`: the state after a run, and what was done and told;
* `Session.Keeps`: nothing that has been fixed changes;
* `Session.closedForm`, `Session.Reaches`: the state after a run;
* `Session.Shuts`: what comes too late for what;
* `write_once`: all of this for every run.
-/

namespace Translit.Session

variable {s s' : Session} {x : Settings} {g : Grammar} {a : Step} {as : List Step} {α : Type}

/-! ## Runs -/

/-- The state after a sequence of steps. -/
def after (s : Session) (as : List Step) : Session := as.foldl (fun s a => (s.step a).2) s

/-- What was done in a sequence of steps, and what was told. -/
def history (s : Session) (as : List Step) : List (Step × Except Error Answer) := as.zip (s.run as)

theorem after_concat (s : Session) (as : List Step) (a : Step) :
    s.after (as ++ [a]) = ((s.after as).step a).2 := by
  simp [after]

theorem history_cons (s : Session) (a : Step) (as : List Step) :
    s.history (a :: as) = (a, (s.step a).1) :: (s.step a).2.history as := rfl

theorem history_concat (s : Session) (as : List Step) (a : Step) :
    s.history (as ++ [a]) = s.history as ++ [(a, ((s.after as).step a).1)] := by
  induction as generalizing s with
  | nil => rfl
  | cons b as ih => rw [List.cons_append, history_cons, history_cons, ih]; rfl

theorem fst_mem_of_mem_history {e : Step × Except Error Answer} (h : e ∈ s.history as) :
    e.1 ∈ as :=
  (List.of_mem_zip h).1

/-! ## The state after a run -/

/-- What has been fixed in `s` is the same in `s'`. -/
structure Keeps (s s' : Session) : Prop where
  settingsDocument : ∀ d, s.settingsDocument? = some d → s'.settingsDocument? = some d
  settings : ∀ x, s.settings? = some x → s'.settings? = some x
  grammarDocument : ∀ d, s.grammarDocument? = some d → s'.grammarDocument? = some d
  global : ∀ t, s.global? = some t → s'.global? = some t

theorem Keeps.refl (s : Session) : s.Keeps s :=
  ⟨fun _ h => h, fun _ h => h, fun _ h => h, fun _ h => h⟩

theorem Keeps.trans {s'' : Session} (h : s.Keeps s') (h' : s'.Keeps s'') : s.Keeps s'' where
  settingsDocument d hd := h'.settingsDocument d (h.settingsDocument d hd)
  settings x hx := h'.settings x (h.settings x hx)
  grammarDocument d hd := h'.grammarDocument d (h.grammarDocument d hd)
  global t ht := h'.global t (h.global t ht)

/-- A step changes nothing that has been fixed. -/
theorem Moves.keeps {r : Except Error Answer} (h : s.Ready x g) (hm : Moves s x g a r s') :
    s.Keeps s' := by
  cases hm with
  | settingsInstalled parse unused empty =>
    exact { Keeps.refl s with settingsDocument := fun d hd => by simp [empty] at hd }
  | grammarInstalled decode unused empty =>
    exact { Keeps.refl s with grammarDocument := fun d hd => by simp [empty] at hd }
  | used noSettings noGrammar =>
    refine { Keeps.refl s with settings := fun y hy => ?_, global := fun t ht => ?_ }
    · have hy' := h.settings?.resolve_left (by simp [hy])
      show (if a.usesSettings then some x else s.settings?) = some y
      rw [← hy, hy', ite_self]
    · have ht' := (h.global?.resolve_left (by simp [ht])).2
      show (if a.usesGlobal then some (.ofGrammar g x.policy) else s.global?) = some t
      rw [← ht, ht', ite_self]

/-- The settings document of the first installation of a run that succeeded. -/
def installedSettings? (as : List Step) : Option (List Char) :=
  (history {} as).findSome? Step.settingsInstalled?

/-- The grammar document of the first installation of a run that succeeded. -/
def installedGrammar? (as : List Step) : Option (List Char) :=
  (history {} as).findSome? Step.grammarInstalled?

theorem installedSettings?_concat (as : List Step) (a : Step) :
    installedSettings? (as ++ [a]) =
      (installedSettings? as).or (Step.settingsInstalled? (a, ((after {} as).step a).1)) := by
  rw [installedSettings?, history_concat, List.findSome?_append, List.findSome?_singleton]
  rfl

theorem installedGrammar?_concat (as : List Step) (a : Step) :
    installedGrammar? (as ++ [a]) =
      (installedGrammar? as).or (Step.grammarInstalled? (a, ((after {} as).step a).1)) := by
  rw [installedGrammar?, history_concat, List.findSome?_append, List.findSome?_singleton]
  rfl

/-- A step of the run needed the settings. -/
def usedSettings (as : List Step) : Bool := as.any (·.usesSettings)

/-- A step of the run needed the transliterator of the session. -/
def usedGlobal (as : List Step) : Bool := as.any (·.usesGlobal)

theorem usedSettings_concat (as : List Step) (a : Step) :
    usedSettings (as ++ [a]) = (usedSettings as || a.usesSettings) := by
  simp [usedSettings]

theorem usedGlobal_concat (as : List Step) (a : Step) :
    usedGlobal (as ++ [a]) = (usedGlobal as || a.usesGlobal) := by
  simp [usedGlobal]

theorem usedSettings_of_usedGlobal (h : usedGlobal as = true) : usedSettings as = true := by
  obtain ⟨a, ha, hu⟩ := List.any_eq_true.1 h
  exact List.any_eq_true.2 ⟨a, ha, Step.usesSettings_of_usesGlobal hu⟩

/-- The state after a run, said from what was done and told: the installed documents, the settings
`x` if a step has used them, and the transliterator of `g` under their policy if a step has used
that. -/
def closedForm (as : List Step) (x : Settings) (g : Grammar) : Session where
  settingsDocument? := installedSettings? as
  settings? := if usedSettings as then some x else none
  grammarDocument? := installedGrammar? as
  global? := if usedGlobal as then some (.ofGrammar g x.policy) else none

/-- What one more step fixes is fixed from there on. -/
theorem fixed_concat (used uses : Bool) (v : α) :
    (if uses then some v else if used then some v else none) =
      if used || uses then some v else none := by
  cases uses <;> cases used <;> rfl

/-- A run comes to its closed form, with the settings and the grammar of the installed documents,
or of those that hold where none is installed. -/
structure Reaches (as : List Step) (x : Settings) (g : Grammar) : Prop where
  settings :
    Settings.parse ((installedSettings? as).getD Settings.defaultDocument.toList) = .ok x
  grammar : grammarOf ((installedGrammar? as).map Text.Utf8.encode) = .ok g
  state : after {} as = closedForm as x g

theorem Reaches.ready (h : Reaches as x g) : (after {} as).Ready x g := by
  rw [h.state]
  refine ⟨h.settings, h.grammar, ?_, ?_⟩
  · show (if _ then _ else _) = none ∨ (if _ then _ else _) = some x
    split
    · exact .inr rfl
    · exact .inl rfl
  · show (if _ then _ else _) = none ∨ (if _ then _ else _) = some x ∧ (if _ then _ else _) = _
    by_cases hu : usedGlobal as = true
    · rw [if_pos hu, if_pos (usedSettings_of_usedGlobal hu)]
      exact .inr ⟨rfl, rfl⟩
    · rw [if_neg hu]
      exact .inl rfl

theorem exists_parse_defaultDocument :
    ∃ x, Settings.parse Settings.defaultDocument.toList = .ok x := by
  have hx : (Settings.parse Settings.defaultDocument.toList).isOk = true := by
    -- the characters as a list: to decode them from the string again and again takes long
    rw [Settings.defaultDocument, String.toList_ofList]
    decide +kernel
  cases hp : Settings.parse Settings.defaultDocument.toList with
  | error e => rw [hp] at hx; cases hx
  | ok x => exact ⟨x, rfl⟩

theorem exists_embedded : ∃ g, Grammar.embedded = .ok g := by
  have hg : Grammar.embedded.isOk = true := by decide +kernel
  cases he : Grammar.embedded with
  | error e => rw [he] at hg; cases hg
  | ok g => exact ⟨g, rfl⟩

/-- Before the first step nothing is fixed, and what holds where no document is installed can be
had. -/
theorem exists_reaches_nil : ∃ x g, Reaches [] x g := by
  obtain ⟨x, hx⟩ := exists_parse_defaultDocument
  obtain ⟨g, hg⟩ := exists_embedded
  have hsettings : installedSettings? [] = none := rfl
  have hgrammar : installedGrammar? [] = none := rfl
  refine ⟨x, g, ?_, ?_, ?_⟩
  · rw [hsettings, Option.getD_none]
    exact hx
  · rw [hgrammar, Option.map_none]
    exact hg
  · rfl

/-- One more step comes to the closed form again, with other settings or another grammar only if it
installs a document. -/
theorem Reaches.concat (h : Reaches as x g) (a : Step) : ∃ x' g', Reaches (as ++ [a]) x' g' := by
  have hstate := after_concat {} as a
  have hsettings := installedSettings?_concat as a
  have hgrammar := installedGrammar?_concat as a
  have hmoves := step_moves h.ready a
  generalize (after {} as).step a = result at hstate hsettings hgrammar hmoves
  obtain ⟨r, s'⟩ := result
  rw [h.state] at hmoves
  cases hmoves with
  | @settingsInstalled document y parse unused empty =>
    have hempty : installedSettings? as = none := empty
    have hunused : usedSettings as = false := by
      simpa [closedForm] using unused
    have hunbuilt : usedGlobal as = false := by
      rw [← Bool.not_eq_true]
      intro hu
      rw [usedSettings_of_usedGlobal hu] at hunused
      cases hunused
    have hdocument : installedSettings? (as ++ [.installSettings document]) = some document := by
      rw [hsettings, hempty]
      rfl
    have hsame : installedGrammar? (as ++ [.installSettings document]) = installedGrammar? as := by
      rw [hgrammar]
      exact Option.or_none
    refine ⟨y, g, ?_, ?_, ?_⟩
    · rw [hdocument]
      exact parse
    · rw [hsame]
      exact h.grammar
    · rw [hstate]
      simp [closedForm, hdocument, hsame, usedSettings_concat, usedGlobal_concat, hunused,
        hunbuilt, Step.usesSettings, Step.usesGlobal]
  | @grammarInstalled document? g' decode unused empty =>
    have hempty : installedGrammar? as = none := empty
    have hunbuilt : usedGlobal as = false := by
      simpa [closedForm] using unused
    have hdocument : installedGrammar? (as ++ [.installGrammar document?]) =
        some (document?.getD Grammar.phonetic.layout) := by
      rw [hgrammar, hempty]
      rfl
    have hsame : installedSettings? (as ++ [.installGrammar document?]) =
        installedSettings? as := by
      rw [hsettings]
      exact Option.or_none
    refine ⟨x, g', ?_, ?_, ?_⟩
    · rw [hsame]
      exact h.settings
    · rw [hdocument]
      exact decode
    · rw [hstate]
      simp [closedForm, hdocument, hsame, usedSettings_concat, usedGlobal_concat, hunbuilt,
        Step.usesSettings, Step.usesGlobal]
  | used noSettings noGrammar =>
    rw [noSettings, Option.or_none] at hsettings
    rw [noGrammar, Option.or_none] at hgrammar
    refine ⟨x, g, ?_, ?_, ?_⟩
    · rw [hsettings]
      exact h.settings
    · rw [hgrammar]
      exact h.grammar
    · rw [hstate, closedForm, closedForm, hsettings, hgrammar, usedSettings_concat,
        usedGlobal_concat, fixed_concat, fixed_concat]

theorem exists_reaches (as : List Step) : ∃ x g, Reaches as x g := by
  induction as using List.reverseRecOn with
  | nil => exact exists_reaches_nil
  | append_singleton as a ih =>
    obtain ⟨x, g, h⟩ := ih
    exact h.concat a

theorem keeps_after (as more : List Step) : (after {} as).Keeps (after {} (as ++ more)) := by
  induction more using List.reverseRecOn with
  | nil =>
    rw [List.append_nil]
    exact .refl _
  | append_singleton more a ih =>
    obtain ⟨x, g, h⟩ := exists_reaches (as ++ more)
    rw [← List.append_assoc, after_concat]
    exact ih.trans ((step_moves h.ready a).keeps h.ready)

/-- Where `e` has been done and told first, `l` installs no document that it comes too late for. -/
structure Shuts (e l : Step × Except Error Answer) : Prop where
  settings : e.1.usesSettings = true ∨ Step.settingsInstalled? e ≠ none →
    Step.settingsInstalled? l = none
  grammar : e.1.usesGlobal = true ∨ Step.grammarInstalled? e ≠ none →
    Step.grammarInstalled? l = none

/-- What was done and told in a run shuts what the next step may install. -/
theorem Reaches.shuts (h : Reaches as x g) (a : Step) {e : Step × Except Error Answer}
    (he : e ∈ history {} as) : Shuts e (a, ((after {} as).step a).1) := by
  have hmoves := step_moves h.ready a
  generalize (after {} as).step a = result at hmoves
  obtain ⟨r, s'⟩ := result
  rw [h.state] at hmoves
  cases hmoves with
  | @settingsInstalled document y parse unused empty =>
    refine ⟨fun hfirst => ?_, fun _ => rfl⟩
    exfalso
    rcases hfirst with hu | hi
    · have : usedSettings as = true := List.any_eq_true.2 ⟨e.1, fst_mem_of_mem_history he, hu⟩
      simp [closedForm, this] at unused
    · exact hi (List.findSome?_eq_none_iff.1 empty e he)
  | @grammarInstalled document? g' decode unused empty =>
    refine ⟨fun _ => rfl, fun hfirst => ?_⟩
    exfalso
    rcases hfirst with hu | hi
    · have : usedGlobal as = true := List.any_eq_true.2 ⟨e.1, fst_mem_of_mem_history he, hu⟩
      simp [closedForm, this] at unused
    · exact hi (List.findSome?_eq_none_iff.1 empty e he)
  | used noSettings noGrammar => exact ⟨fun _ => noSettings, fun _ => noGrammar⟩

theorem pairwise_shuts (as : List Step) : (history {} as).Pairwise Shuts := by
  induction as using List.reverseRecOn with
  | nil => exact .nil
  | append_singleton as a ih =>
    obtain ⟨x, g, h⟩ := exists_reaches as
    rw [history_concat, List.pairwise_append]
    refine ⟨ih, List.pairwise_singleton _ _, fun e he l hl => ?_⟩
    rw [List.mem_singleton.1 hl]
    exact h.shuts a he

/-- **A session writes each of its parts once.** After any run the state is the closed form for
the settings and the grammar of the first documents that were installed, or of those that hold
without; the settings and the transliterator can always be had, and are these; a transliterator is
there only with the settings, and under their policy; no document is installed after one of its
kind or after a step that used what it is for; and what is there stays whatever comes next. -/
theorem write_once (as : List Step) :
    (∃ x g,
      Settings.parse ((installedSettings? as).getD Settings.defaultDocument.toList) = .ok x ∧
      grammarOf ((installedGrammar? as).map Text.Utf8.encode) = .ok g ∧
      after {} as = closedForm as x g ∧
      (Session.settings.run.run (after {} as)).1 = .ok x ∧
      (global.run.run (after {} as)).1 = .ok (.ofGrammar g x.policy)) ∧
    (∀ t ∈ (after {} as).global?, ∃ x ∈ (after {} as).settings?, t.policy = x.policy) ∧
    (history {} as).Pairwise Shuts ∧
    ∀ more, (after {} as).Keeps (after {} (as ++ more)) := by
  obtain ⟨x, g, h⟩ := exists_reaches as
  refine ⟨⟨x, g, h.settings, h.grammar, h.state, ?_, ?_⟩, fun t ht => ?_, pairwise_shuts as,
    keeps_after as⟩
  · rw [settings_run h.ready]
  · rw [global_run h.ready]
  · obtain ⟨hx, hg⟩ := h.ready.global?.resolve_left (by simp [Option.mem_def.1 ht])
    have htg : t = .ofGrammar g x.policy := Option.some.inj (ht.symm.trans hg)
    refine ⟨x, hx, ?_⟩
    rw [htg]
    rfl

/-- A run that installs settings after a step that failed for want of a grammar, and then fixes
them with the transliterator although the mode has no name. -/
def strictRun : List Step :=
  [.convertWith (.document (some [])) "k".toList,
    .installSettings
      "rules.exact_out_of_range = \"strict\"\nengine.default_mode = \"orva\"".toList,
    .convert "k".toList "none".toList]

/-- The transliterator of that run is under the policy that was installed. -/
theorem strictRun_write_once : ∃ t ∈ (after {} strictRun).global?, t.policy = .strict := by
  have hglobal : (after {} strictRun).global?.isSome = true := by
    rw [strictRun, String.toList_ofList, String.toList_ofList, String.toList_ofList]
    decide +kernel
  have hstrict : (after {} strictRun).settings?.map (·.policy) = some .strict := by
    rw [strictRun, String.toList_ofList, String.toList_ofList, String.toList_ofList]
    decide +kernel
  obtain ⟨t, ht⟩ := Option.isSome_iff_exists.1 hglobal
  obtain ⟨x, hx, hpolicy⟩ := (write_once strictRun).2.1 t ht
  refine ⟨t, ht, ?_⟩
  rw [Option.mem_def.1 hx] at hstrict
  rw [hpolicy]
  exact Option.some.inj hstrict

end Translit.Session
