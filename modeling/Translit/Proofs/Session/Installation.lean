import Mathlib.Tactic.Common
import Translit.Proofs.Grammar.Layout
import Translit.Proofs.Session.WriteOnce

/-!
# Installing documents

A document that cannot be read is refused for that, early or late; one that can be read is refused
only where it comes too late. A step that is refused, finds no grammar or needs nothing of the
session leaves it as it was, so the other steps are told what they are told without it.

* `Session.Told`: what the installation of a document is told;
* `Session.settings_free_iff`, `Session.global_free_iff`: what a run leaves free;
* `Session.Idle`, `Session.Idle.step_snd`: the steps that leave a session as it was;
* `Session.run_append`: what is told in two runs, one after the other;
* `installed_in_time`: all of this at every point of every run;
* `Session.run_installEmbedded`: the embedded grammar, installed as a document.
-/

namespace Translit

/-- What is wrong with a settings document is never that it comes too late. -/
theorem Settings.parse_error {document : List Char} {e : Settings.Error}
    (h : Settings.parse document = .error e) : e = .malformed ∨ ∃ name, e = .unknownMode name := by
  unfold Settings.parse at h
  split at h
  · cases h
    exact .inl rfl
  · split at h
    · cases h
    · cases h
      exact .inr ⟨_, rfl⟩

namespace Session

variable {s s' : Session} {x : Settings} {g : Grammar} {a : Step} {as more : List Step}

/-! ## What an installation is told -/

section Told

variable {ε α : Type} {read : Except ε α} {early : Prop} {unreadable : ε → Error} {tooLate : Error}

/-- What the installation of a document is told, where `read` is what the document comes to. -/
structure Told (read : Except ε α) (early : Prop) (unreadable : ε → Error) (tooLate : Error)
    (told : Except Error Answer) : Prop where
  /-- It succeeds with a document that can be read and does not come too late. -/
  done_iff : told = .ok .done ↔ (∃ x, read = .ok x) ∧ early
  /-- One that cannot be read is refused for that, early or late. -/
  unreadable : ∀ e, read = .error e → told = .error (unreadable e)
  /-- Another one is refused for coming too late. -/
  tooLate : ∀ x, read = .ok x → ¬ early → told = .error tooLate

theorem told_of_attempt [Decidable early] {told : Except Error Answer × Session}
    (h : told = attempt read early unreadable tooLate s s') :
    Told read early unreadable tooLate told.1 := by
  subst h
  cases read with
  | error e => exact ⟨by simp [attempt], by simp [attempt], by simp⟩
  | ok x =>
    by_cases he : early
    · exact ⟨by simp [attempt, he], by simp, fun _ _ hlate => absurd he hlate⟩
    · exact ⟨by simp [attempt, he], by simp, fun _ _ _ => by simp [attempt, he]⟩

end Told

/-- Settings can still be installed after a run that has installed none and needed none. -/
theorem settings_free_iff (as : List Step) :
    (after {} as).settings? = none ∧ (after {} as).settingsDocument? = none ↔
      installedSettings? as = none ∧ usedSettings as = false := by
  obtain ⟨x, g, h⟩ := exists_reaches as
  rw [h.state, closedForm]
  cases usedSettings as <;> simp

/-- A grammar can still be installed after a run that has installed none and needed no
transliterator of the session. -/
theorem global_free_iff (as : List Step) :
    (after {} as).global? = none ∧ (after {} as).grammarDocument? = none ↔
      installedGrammar? as = none ∧ usedGlobal as = false := by
  obtain ⟨x, g, h⟩ := exists_reaches as
  rw [h.state, closedForm]
  cases usedGlobal as <;> simp

/-! ## Steps that leave a session as it was -/

/-- The step is refused in the state `s`, finds no grammar, or needs nothing of the session. -/
inductive Idle (s : Session) : Step → Prop
  | settingsRefused {document : List Char} {e : Error}
      (refused : (s.step (.installSettings document)).1 = .error e) :
      Idle s (.installSettings document)
  | grammarRefused {document? : Option (List Char)} {e : Error}
      (refused : (s.step (.installGrammar document?)).1 = .error e) :
      Idle s (.installGrammar document?)
  | noGrammar {origin : Origin} {text : List Char} {e : Error}
      (missing : origin.load = .error e) : Idle s (.convertWith origin text)
  | noGrammarForDefaultMode {origin : Origin} {text : List Char} {e : Error}
      (missing : origin.load = .error e) : Idle s (.convertInDefaultMode origin text)
  | underPolicy {policy : Policy} {origin : Origin} {text : List Char} :
      Idle s (.convertUnder policy origin text)

theorem attempt_refused {ε α : Type} {read : Except ε α} {early : Prop} [Decidable early]
    {unreadable : ε → Error} {tooLate e : Error} {told : Except Error Answer × Session}
    (h : told = attempt read early unreadable tooLate s s') (refused : told.1 = .error e) :
    told.2 = s := by
  rcases attempt_cases h with ⟨_, h⟩ | ⟨_, -, -, h⟩
  · rw [h]
  · rw [h] at refused
    cases refused

theorem Idle.step_snd (h : Idle s a) : (s.step a).2 = s := by
  cases h with
  | settingsRefused refused => exact attempt_refused (step_installSettings s _) refused
  | grammarRefused refused => exact attempt_refused (step_installGrammar s _) refused
  | noGrammar missing =>
    rw [step, perform, missing, bind_error (load_run _ _)]
  | noGrammarForDefaultMode missing =>
    rw [step, perform, missing, bind_error (load_run _ _)]
  | @underPolicy policy origin text =>
    rw [step, perform]
    cases origin.load <;> rfl

/-! ## Runs with and without a step -/

theorem run_cons (s : Session) (a : Step) (as : List Step) :
    s.run (a :: as) = (s.step a).1 :: (s.step a).2.run as := rfl

theorem length_run (s : Session) (as : List Step) : (s.run as).length = as.length := by
  induction as generalizing s with
  | nil => rfl
  | cons a as ih => rw [run_cons, List.length_cons, List.length_cons, ih]

theorem run_append (s : Session) (as more : List Step) :
    s.run (as ++ more) = s.run as ++ (s.after as).run more := by
  induction as generalizing s with
  | nil => rfl
  | cons a as ih =>
    rw [List.cons_append, run_cons, run_cons, ih, List.cons_append]
    rfl

/-- **A step that leaves the session as it was** changes nothing that the other steps are told,
whether it is taken or left out. -/
theorem Idle.run_eraseIdx (h : Idle (s.after as) a) (more : List Step) :
    (s.run (as ++ a :: more)).eraseIdx as.length = s.run (as ++ more) := by
  rw [run_append, run_cons, h.step_snd, ← length_run s as,
    List.eraseIdx_append_of_length_le (Nat.le_refl _), Nat.sub_self, List.eraseIdx_cons_zero,
    ← run_append]

/-- **A document is installed in time or not at all.** At any point of any run settings are
installed exactly if their document can be read, none have been installed and no step has needed
any; a document with a fault is refused for the fault at any time, and one without for coming too
late. The same holds of grammars and the transliterator of the session. What is refused leaves the
session as it was, and so does a step that finds no grammar or that has a policy of its own: with
or without such a step, the others are told the same. -/
theorem installed_in_time (as : List Step) :
    (∀ document, Told (Settings.parse document)
      (installedSettings? as = none ∧ usedSettings as = false)
      .settings (.settings .alreadyInitialized)
      ((after {} as).step (.installSettings document)).1) ∧
    (∀ document e, Settings.parse document = .error e →
      e = .malformed ∨ ∃ name, e = .unknownMode name) ∧
    (∀ document?, Told (Grammar.decode (Text.Utf8.encode (document?.getD Grammar.phonetic.layout)))
      (installedGrammar? as = none ∧ usedGlobal as = false)
      (.transliterator ∘ .grammar) (.transliterator .alreadyInitialized)
      ((after {} as).step (.installGrammar document?)).1) ∧
    ∀ a, Idle (after {} as) a → ((after {} as).step a).2 = after {} as ∧
      ∀ more, (run {} (as ++ a :: more)).eraseIdx as.length = run {} (as ++ more) := by
  refine ⟨fun document => ?_, fun _ _ => Settings.parse_error, fun document? => ?_,
    fun a h => ⟨h.step_snd, h.run_eraseIdx⟩⟩
  · have htold := told_of_attempt (step_installSettings (after {} as) document)
    rwa [settings_free_iff] at htold
  · have htold := told_of_attempt (step_installGrammar (after {} as) document?)
    rwa [global_free_iff] at htold

/-- A run that fixes the settings although the mode has no name. -/
def lateRun : List Step := [.convert "k".toList "none".toList]

/-- After it the settings that hold anyway come too late, and an empty document is refused for not
being one; what is told next is what would have been told without the attempt. -/
theorem lateRun_installed_in_time :
    ((after {} lateRun).step (.installSettings [])).1 = .error (.settings .malformed) ∧
    Idle (after {} lateRun) (.installSettings Settings.defaultDocument.toList) ∧
    (run {} (lateRun ++ [.installSettings Settings.defaultDocument.toList, .readSettings])).eraseIdx
        1 = run {} (lateRun ++ [.readSettings]) := by
  obtain ⟨htold, -, -, hidle⟩ := installed_in_time lateRun
  obtain ⟨x, hx⟩ := exists_parse_defaultDocument
  have hused : usedSettings lateRun = true := rfl
  have hlate : Idle (after {} lateRun) (.installSettings Settings.defaultDocument.toList) :=
    .settingsRefused ((htold _).tooLate x hx (by simp [hused]))
  refine ⟨(htold []).unreadable .malformed (by decide), hlate, ?_⟩
  exact (hidle _ hlate).2 [.readSettings]

/-! ## The embedded grammar as a document -/

/-- The session with the embedded grammar installed. -/
def withEmbedded (s : Session) : Session :=
  { s with grammarDocument? := some Grammar.phonetic.layout }

/-- The document holds the grammar that is used without one. -/
theorem grammarOf_phonetic :
    grammarOf (some (Text.Utf8.encode Grammar.phonetic.layout)) = grammarOf none :=
  Grammar.decode_phonetic

theorem Ready.withEmbedded (h : s.Ready x g) (hempty : s.grammarDocument? = none) :
    s.withEmbedded.Ready x g where
  settings := h.settings
  grammar := by
    have hgrammar := h.grammar
    rw [hempty] at hgrammar
    exact grammarOf_phonetic.trans hgrammar
  settings? := h.settings?
  global? := h.global?

/-- A step that is to install no grammar is told the same with the embedded one installed as with
none, and fixes the same. -/
theorem step_withEmbedded (h : s.Ready x g) (hempty : s.grammarDocument? = none)
    (ha : ∀ document?, a ≠ .installGrammar document?) :
    s.withEmbedded.step a = ((s.step a).1, (s.step a).2.withEmbedded) ∧
      (s.step a).2.grammarDocument? = none := by
  have hused (hs : ∀ r, Step.settingsInstalled? (a, r) = none)
      (hg : ∀ r, Step.grammarInstalled? (a, r) = none) :
      s.withEmbedded.step a = ((s.step a).1, (s.step a).2.withEmbedded) ∧
        (s.step a).2.grammarDocument? = none := by
    obtain ⟨htold, hstate⟩ := step_used (h.withEmbedded hempty) h hs hg
    rw [(step_used h h hs hg).2]
    exact ⟨Prod.ext htold hstate, hempty⟩
  cases a with
  | installGrammar document? => exact absurd rfl (ha document?)
  | installSettings document =>
    refine ⟨?_, ?_⟩
    · rw [step_installSettings s, attempt_map withEmbedded]
      exact step_installSettings s.withEmbedded document
    · rcases attempt_cases (step_installSettings s document) with ⟨e, htold⟩ | ⟨y, -, -, htold⟩
      · rw [htold]
        exact hempty
      · rw [htold]
        exact hempty
  | _ => exact hused (fun _ => rfl) fun _ => rfl

theorem run_withEmbedded (hempty : (after {} as).grammarDocument? = none)
    (hmore : ∀ a ∈ more, ∀ document?, a ≠ .installGrammar document?) :
    (after {} as).withEmbedded.run more = (after {} as).run more := by
  induction more generalizing as with
  | nil => rfl
  | cons a more ih =>
    obtain ⟨x, g, h⟩ := exists_reaches as
    obtain ⟨hstep, hempty'⟩ := step_withEmbedded h.ready hempty (hmore a List.mem_cons_self)
    rw [← after_concat] at hstep hempty'
    rw [run_cons, run_cons, hstep, ih hempty' fun b hb => hmore b (List.mem_cons_of_mem _ hb),
      after_concat]

/-- **Installing the embedded grammar changes nothing.** Where a grammar can still be installed the
embedded one is, and the steps after it are told what they would have been told anyway, as long as
they are to install no grammar themselves. -/
theorem run_installEmbedded (hfree : installedGrammar? as = none ∧ usedGlobal as = false)
    (hmore : ∀ a ∈ more, ∀ document?, a ≠ .installGrammar document?) :
    run {} (as ++ .installGrammar none :: more) =
      run {} as ++ .ok .done :: (after {} as).run more := by
  obtain ⟨g, hg⟩ := exists_embedded
  have hearly := (global_free_iff as).2 hfree
  have hread : Grammar.decode (Text.Utf8.encode Grammar.phonetic.layout) = .ok g :=
    Grammar.decode_phonetic.trans hg
  have hstep : (after {} as).step (.installGrammar none) =
      (.ok .done, (after {} as).withEmbedded) := by
    rw [step_installGrammar, Option.getD_none, hread]
    exact if_pos hearly
  rw [run_append, run_cons, hstep, run_withEmbedded hearly.2 hmore]

end Session

end Translit
