import Translit.Session

/-!
# Steps of a session

What a computation does is said for states that have fixed nothing but what they would fix. All
that a step can do is then one of three moves.

* `Step.usesSettings`, `Step.usesGlobal`, `Step.settingsInstalled?`, `Step.grammarInstalled?`: what
  a step needs and what it installs;
* `Session.Ready`: the settings and the grammar that a state has or would fix;
* `Session.settings_run`, `Session.global_run`: they can be had, and are fixed then;
* `Session.attempt`: what comes of a document that is to be installed;
* `Session.Moves`, `Session.step_moves`: everything that a step can do.
-/

namespace Translit

/-- The step needs the settings. With a grammar of its own it needs them once it has that. -/
def Step.usesSettings : Step → Bool
  | .readSettings | .convert .. | .describe => true
  | .convertWith origin _ | .convertInDefaultMode origin _ => origin.load.isOk
  | .installSettings _ | .installGrammar _ | .convertUnder .. => false

/-- The step needs the transliterator of the session. -/
def Step.usesGlobal : Step → Bool
  | .convert .. | .describe => true
  | _ => false

theorem Step.usesSettings_of_usesGlobal {a : Step} (h : a.usesGlobal = true) :
    a.usesSettings = true := by
  cases a <;> first | rfl | cases h

/-- The settings document that a step installed, if it was told so. -/
def Step.settingsInstalled? : Step × Except Session.Error Answer → Option (List Char)
  | (.installSettings document, .ok _) => some document
  | _ => none

/-- The grammar document that a step installed, if it was told so. -/
def Step.grammarInstalled? : Step × Except Session.Error Answer → Option (List Char)
  | (.installGrammar document?, .ok _) => some (document?.getD Grammar.phonetic.layout)
  | _ => none

namespace Session

variable {s s' : Session} {x : Settings} {g : Grammar} {a : Step} {α β : Type}

/-! ## Computations -/

theorem bind_ok {m : Action α} {f : α → Action β} {r : α} (h : m.run.run s = (.ok r, s')) :
    (m >>= f).run.run s = (f r).run.run s' := by
  change (m.run >>= ExceptT.bindCont f).run s = _
  rw [StateT.run_bind, h]
  rfl

theorem bind_error {m : Action α} {f : α → Action β} {e : Error}
    (h : m.run.run s = (.error e, s')) : (m >>= f).run.run s = (.error e, s') := by
  change (m.run >>= ExceptT.bindCont f).run s = _
  rw [StateT.run_bind, h]
  rfl

theorem get_run (s : Session) : (get : Action Session).run.run s = (.ok s, s) := rfl

/-- A state, the settings that it has or would fix, and the grammar that its transliterator has or
would have. -/
structure Ready (s : Session) (x : Settings) (g : Grammar) : Prop where
  /-- The settings are those of the document. -/
  settings : Settings.parse (s.settingsDocument?.getD Settings.defaultDocument.toList) = .ok x
  /-- The grammar is that of the document. -/
  grammar : grammarOf (s.grammarDocument?.map Text.Utf8.encode) = .ok g
  /-- No other settings are fixed. -/
  settings? : s.settings? = none ∨ s.settings? = some x
  /-- No other transliterator is fixed, and none without the settings. -/
  global? : s.global? = none ∨
    s.settings? = some x ∧ s.global? = some (.ofGrammar g x.policy)

/-- The settings can be had, and are fixed then. -/
theorem settings_run (h : s.Ready x g) :
    Session.settings.run.run s = (.ok x, { s with settings? := some x }) := by
  unfold Session.settings
  rw [bind_ok (get_run s)]
  rcases h.settings? with hs | hs
  · rw [hs]
    show (ofSettings (Settings.parse _) >>= _).run.run s = _
    rw [h.settings]
    rfl
  · have hfixed : { s with settings? := some x } = s := by rw [← hs]
    rw [hs, hfixed]
    rfl

theorem transliterator_run (h : s.Ready x g) (g' : Grammar) :
    (transliterator g').run.run s =
      (.ok (.ofGrammar g' x.policy), { s with settings? := some x }) :=
  bind_ok (settings_run h)

/-- The transliterator can be had, and is fixed then together with the settings. -/
theorem global_run (h : s.Ready x g) :
    global.run.run s = (.ok (.ofGrammar g x.policy),
      { s with settings? := some x, global? := some (.ofGrammar g x.policy) }) := by
  unfold global
  rw [bind_ok (get_run s)]
  rcases h.global? with ht | ⟨hs, ht⟩
  · rw [ht]
    show (get >>= fun s => ofGrammar (grammarOf _) >>= _).run.run s = _
    rw [bind_ok (get_run s), h.grammar,
      bind_ok (show (ofGrammar (.ok g)).run.run s = (.ok g, s) from rfl),
      bind_ok (transliterator_run h g)]
    rfl
  · have hfixed : { s with settings? := some x, global? := some (.ofGrammar g x.policy) } = s := by
      rw [← hs, ← ht]
    rw [ht, hfixed]
    rfl

/-! ## Steps -/

/-- Everything that a step can do in a state that is ready: install a document where nothing has
been fixed yet, or fix what it needs. -/
inductive Moves (s : Session) (x : Settings) (g : Grammar) :
    Step → Except Error Answer → Session → Prop
  | settingsInstalled {document : List Char} {y : Settings}
      (parse : Settings.parse document = .ok y) (unused : s.settings? = none)
      (empty : s.settingsDocument? = none) :
      Moves s x g (.installSettings document) (.ok .done)
        { s with settingsDocument? := some document }
  | grammarInstalled {document? : Option (List Char)} {g' : Grammar}
      (decode :
        Grammar.decode (Text.Utf8.encode (document?.getD Grammar.phonetic.layout)) = .ok g')
      (unused : s.global? = none) (empty : s.grammarDocument? = none) :
      Moves s x g (.installGrammar document?) (.ok .done)
        { s with grammarDocument? := some (document?.getD Grammar.phonetic.layout) }
  | used {a : Step} {r : Except Error Answer}
      (noSettings : Step.settingsInstalled? (a, r) = none)
      (noGrammar : Step.grammarInstalled? (a, r) = none) :
      Moves s x g a r
        { s with
          settings? := if a.usesSettings then some x else s.settings?
          global? := if a.usesGlobal then some (.ofGrammar g x.policy) else s.global? }

/-- A step that installs nothing and uses nothing has moved nothing. -/
theorem Moves.refused (hs : a.usesSettings = false) (e : Error) : Moves s x g a (.error e) s := by
  have hg : a.usesGlobal = false := by
    rw [← Bool.not_eq_true]
    intro hu
    rw [Step.usesSettings_of_usesGlobal hu] at hs
    cases hs
  have hmoves : Moves s x g a (.error e) _ := .used (by cases a <;> rfl) (by cases a <;> rfl)
  rw [hs, hg] at hmoves
  exact hmoves

section Attempt

variable {ε : Type} {read : Except ε α} {early : Prop} {unreadable : ε → Error} {tooLate : Error}
  {told : Except Error Answer × Session}

/-- What comes of a document that is to be installed, where `read` is what it says and `s'` is the
state with it. It is refused for what is wrong with it, and a good one for coming too late. -/
def attempt (read : Except ε α) (early : Prop) [Decidable early] (unreadable : ε → Error)
    (tooLate : Error) (s s' : Session) : Except Error Answer × Session :=
  match read with
  | .error e => (.error (unreadable e), s)
  | .ok _ => if early then (.ok .done, s') else (.error tooLate, s)

theorem attempt_cases [Decidable early] (h : told = attempt read early unreadable tooLate s s') :
    (∃ e, told = (.error e, s)) ∨ ∃ r, read = .ok r ∧ early ∧ told = (.ok .done, s') := by
  subst h
  cases read with
  | error e => exact .inl ⟨_, rfl⟩
  | ok r =>
    by_cases he : early
    · exact .inr ⟨r, rfl, he, if_pos he⟩
    · exact .inl ⟨_, if_neg he⟩

/-- The same attempt in a session that is changed where it does not look. -/
theorem attempt_map [Decidable early] (f : Session → Session) :
    ((attempt read early unreadable tooLate s s').1,
      f (attempt read early unreadable tooLate s s').2) =
      attempt read early unreadable tooLate (f s) (f s') := by
  cases read with
  | error e => rfl
  | ok r =>
    by_cases he : early
    · simp only [attempt, if_pos he]
    · simp only [attempt, if_neg he]

end Attempt

theorem step_installSettings (s : Session) (document : List Char) :
    s.step (.installSettings document) =
      attempt (Settings.parse document) (s.settings? = none ∧ s.settingsDocument? = none)
        .settings (.settings .alreadyInitialized) s
        { s with settingsDocument? := some document } := by
  have hstep : s.step (.installSettings document) =
      (installSettings document >>= fun _ => pure Answer.done).run.run s := rfl
  rw [hstep]
  obtain ⟨document?, settings?, grammarDocument?, global?⟩ := s
  unfold installSettings
  cases Settings.parse document with
  | error e => rfl
  | ok x => cases settings? <;> cases document? <;> rfl

theorem step_installGrammar (s : Session) (document? : Option (List Char)) :
    s.step (.installGrammar document?) =
      attempt (Grammar.decode (Text.Utf8.encode (document?.getD Grammar.phonetic.layout)))
        (s.global? = none ∧ s.grammarDocument? = none) (.transliterator ∘ .grammar)
        (.transliterator .alreadyInitialized) s
        { s with grammarDocument? := some (document?.getD Grammar.phonetic.layout) } := by
  have hstep : s.step (.installGrammar document?) =
      (installGrammar document? >>= fun _ => pure Answer.done).run.run s := rfl
  rw [hstep]
  obtain ⟨settingsDocument?, settings?, installed?, global?⟩ := s
  unfold installGrammar
  cases hd : Grammar.decode (Text.Utf8.encode (document?.getD Grammar.phonetic.layout)) with
  | error e =>
    simp only [hd]
    rfl
  | ok g =>
    simp only [hd]
    cases global? <;> cases installed? <;> rfl

theorem moves_installSettings (s : Session) (x : Settings) (g : Grammar) (document : List Char) :
    Moves s x g (.installSettings document) (s.step (.installSettings document)).1
      (s.step (.installSettings document)).2 := by
  rcases attempt_cases (step_installSettings s document) with ⟨e, h⟩ | ⟨y, hp, hfree, h⟩
  · rw [h]
    exact .refused rfl e
  · rw [h]
    exact .settingsInstalled hp hfree.1 hfree.2

theorem moves_installGrammar (s : Session) (x : Settings) (g : Grammar)
    (document? : Option (List Char)) :
    Moves s x g (.installGrammar document?) (s.step (.installGrammar document?)).1
      (s.step (.installGrammar document?)).2 := by
  rcases attempt_cases (step_installGrammar s document?) with ⟨e, h⟩ | ⟨g', hd, hfree, h⟩
  · rw [h]
    exact .refused rfl e
  · rw [h]
    exact .grammarInstalled hd hfree.1 hfree.2

/-- Fixing the settings leaves a state ready. -/
theorem Ready.fixed (h : s.Ready x g) : Ready { s with settings? := some x } x g where
  settings := h.settings
  grammar := h.grammar
  settings? := .inr rfl
  global? := h.global?.imp_right fun ht => ⟨rfl, ht.2⟩

theorem Origin.load_cases (origin : Origin) :
    (∃ g, origin.load = .ok g ∧ origin.load.isOk = true) ∨
      ∃ e, origin.load = .error e ∧ origin.load.isOk = false := by
  cases origin.load with
  | error e => exact .inr ⟨e, rfl, rfl⟩
  | ok g => exact .inl ⟨g, rfl, rfl⟩

theorem load_run (s : Session) (r : Except Error α) :
    (ExceptT.mk (pure r) : Action α).run.run s = (r, s) := rfl

/-- A step that installs nothing fixes what it uses, and is told the same in every state that has or
would fix these settings and this grammar. -/
theorem step_used (h : s.Ready x g) (h' : s'.Ready x g)
    (hs : ∀ r, Step.settingsInstalled? (a, r) = none)
    (hg : ∀ r, Step.grammarInstalled? (a, r) = none) :
    (s.step a).1 = (s'.step a).1 ∧ (s.step a).2 = { s with
      settings? := if a.usesSettings then some x else s.settings?
      global? := if a.usesGlobal then some (.ofGrammar g x.policy) else s.global? } := by
  unfold step
  cases a with
  | installSettings document => exact absurd (hs (.ok .done)) (by simp [Step.settingsInstalled?])
  | installGrammar document? => exact absurd (hg (.ok .done)) (by simp [Step.grammarInstalled?])
  | readSettings =>
    rw [perform, bind_ok (settings_run h), bind_ok (settings_run h')]
    exact ⟨rfl, rfl⟩
  | convert text mode =>
    rw [perform, bind_ok (global_run h), bind_ok (global_run h')]
    cases (Transliterator.ofGrammar g x.policy).transliterateNamed text mode <;> exact ⟨rfl, rfl⟩
  | describe =>
    rw [perform, bind_ok (global_run h), bind_ok (global_run h')]
    exact ⟨rfl, rfl⟩
  | convertWith origin text =>
    rw [perform]
    rcases origin.load_cases with ⟨g', ho, hu⟩ | ⟨e, ho, hu⟩
    · rw [ho, show Step.usesSettings (.convertWith origin text) = true from hu,
        bind_ok (load_run _ _), bind_ok (load_run _ _), bind_ok (transliterator_run h g'),
        bind_ok (transliterator_run h' g')]
      exact ⟨rfl, rfl⟩
    · rw [ho, show Step.usesSettings (.convertWith origin text) = false from hu,
        bind_error (load_run _ _), bind_error (load_run _ _)]
      exact ⟨rfl, rfl⟩
  | convertInDefaultMode origin text =>
    rw [perform]
    rcases origin.load_cases with ⟨g', ho, hu⟩ | ⟨e, ho, hu⟩
    · rw [ho, show Step.usesSettings (.convertInDefaultMode origin text) = true from hu,
        bind_ok (load_run _ _), bind_ok (load_run _ _), bind_ok (transliterator_run h g'),
        bind_ok (transliterator_run h' g'), bind_ok (settings_run h.fixed),
        bind_ok (settings_run h'.fixed)]
      cases (Transliterator.ofGrammar g' x.policy).transliterate text x.mode <;> exact ⟨rfl, rfl⟩
    · rw [ho, show Step.usesSettings (.convertInDefaultMode origin text) = false from hu,
        bind_error (load_run _ _), bind_error (load_run _ _)]
      exact ⟨rfl, rfl⟩
  | convertUnder policy origin text =>
    rw [perform]
    cases origin.load <;> exact ⟨rfl, rfl⟩

/-- **Everything that a step can do.** -/
theorem step_moves (h : s.Ready x g) (a : Step) : Moves s x g a (s.step a).1 (s.step a).2 := by
  have hused (hs : ∀ r, Step.settingsInstalled? (a, r) = none)
      (hg : ∀ r, Step.grammarInstalled? (a, r) = none) :
      Moves s x g a (s.step a).1 (s.step a).2 := by
    rw [(step_used h h hs hg).2]
    exact .used (hs _) (hg _)
  cases a with
  | installSettings document => exact moves_installSettings s x g document
  | installGrammar document? => exact moves_installGrammar s x g document?
  | _ => exact hused (fun _ => rfl) fun _ => rfl

end Session

end Translit
