import Translit.Proofs.Tool.LineByLine

/-!
# How a corpus is judged

Each case of a corpus that belongs to the category asked for is skipped, or comes out as expected,
or fails, and a report accounts for all of them. So it depends on these cases alone, and corpora can
be judged one after the other.

* `Case.InCategory`, `Case.Passes`, `Case.Fails`: the cases that are judged, and what comes of them;
* `Report.Accounts`: a report that accounts for some cases;
* `Report.Accounts.judge`, `accounts_run`: one case more, and all cases of a corpus;
* `Report.Accounts.total_eq`, `Report.Accounts.isSuccess_iff`, `Report.Accounts.append`: what
  follows for a report;
* `run_of_accuracy`: the command that judges a corpus;
* `accuracy_accounts`: all this for every corpus.
-/

namespace Translit

variable {t : Transliterator} {category? : Option (List Char)} {c : Case} {cases cases' : List Case}
  {r r' : Report}

/-! ## What comes of a case -/

/-- The case belongs to the category, if one is asked for. -/
def Case.InCategory (category? : Option (List Char)) (c : Case) : Prop :=
  ∀ category ∈ category?, c.category? = some category

instance (category? : Option (List Char)) : DecidablePred (Case.InCategory category?) :=
  fun _ => inferInstanceAs (Decidable (∀ _ ∈ _, _))

/-- The case is not skipped and comes out as expected. -/
def Case.Passes (t : Transliterator) (c : Case) : Prop :=
  c.skip = false ∧ t.convert c.input = c.expected

instance (t : Transliterator) : DecidablePred (Case.Passes t) :=
  fun _ => inferInstanceAs (Decidable (_ ∧ _))

/-- The case is not skipped and comes out differently. -/
def Case.Fails (t : Transliterator) (c : Case) : Prop :=
  c.skip = false ∧ t.convert c.input ≠ c.expected

instance (t : Transliterator) : DecidablePred (Case.Fails t) :=
  fun _ => inferInstanceAs (Decidable (_ ∧ _))

/-- What is reported of a case that fails. -/
def Case.failure (t : Transliterator) (c : Case) : Failure :=
  ⟨c.input, c.expected, t.convert c.input⟩

theorem inCategory_none (c : Case) : c.InCategory none := nofun

theorem inCategory_some {category : List Char} :
    c.InCategory (some category) ↔ c.category? = some category := by
  simp [Case.InCategory]

theorem selects_eq (category? : Option (List Char)) (c : Case) :
    Corpus.selects category? c = decide (c.InCategory category?) := by
  cases category? with
  | none => simp [Corpus.selects, inCategory_none]
  | some category => simp [Corpus.selects, inCategory_some, beq_eq_decide]

/-! ## Reports -/

/-- The report accounts for the cases: how many are skipped, how many of the others come out as
expected, and which ones do not, in their order and with what came out. -/
structure Report.Accounts (t : Transliterator) (cases : List Case) (r : Report) : Prop where
  skipped : r.skipped = cases.countP (·.skip)
  passed : r.passed = cases.countP (·.Passes t)
  failures : r.failures = (cases.filter (·.Fails t)).map (·.failure t)

/-- Two reports as one, the cases of the first before those of the second. -/
def Report.append (r r' : Report) : Report where
  passed := r.passed + r'.passed
  skipped := r.skipped + r'.skipped
  failures := r.failures ++ r'.failures

namespace Report.Accounts

theorem nil (t : Transliterator) : Accounts t [] {} := ⟨rfl, rfl, rfl⟩

theorem unique (h : r.Accounts t cases) (h' : r'.Accounts t cases) : r = r' := by
  cases r
  cases r'
  simp only [Report.mk.injEq]
  exact ⟨h.passed.trans h'.passed.symm, h.skipped.trans h'.skipped.symm,
    h.failures.trans h'.failures.symm⟩

theorem append (h : r.Accounts t cases) (h' : r'.Accounts t cases') :
    (r.append r').Accounts t (cases ++ cases') where
  skipped := by rw [List.countP_append, ← h.skipped, ← h'.skipped]; rfl
  passed := by rw [List.countP_append, ← h.passed, ← h'.passed]; rfl
  failures := by rw [List.filter_append, List.map_append, ← h.failures, ← h'.failures]; rfl

/-- **One case more** is skipped, or passes, or fails. -/
theorem judge (h : r.Accounts t cases) (c : Case) :
    (Corpus.judge t r c).Accounts t (cases ++ [c]) := by
  obtain ⟨hskipped, hpassed, hfailures⟩ := h
  unfold Corpus.judge
  by_cases hskip : c.skip = true
  · rw [if_pos hskip]
    constructor <;> simp [hskipped, hpassed, hfailures, Case.Passes, Case.Fails, hskip]
  · rw [if_neg hskip]
    rw [Bool.not_eq_true] at hskip
    by_cases hexpected : t.convert c.input = c.expected
    · rw [if_pos hexpected]
      constructor <;>
        simp [hskipped, hpassed, hfailures, Case.Passes, Case.Fails, hskip, hexpected]
    · rw [if_neg hexpected]
      constructor <;>
        simp [hskipped, hpassed, hfailures, Case.Passes, Case.Fails, Case.failure, hskip, hexpected]

/-- **No case is left out and none is counted twice.** -/
theorem total_eq (h : r.Accounts t cases) : r.total = cases.length := by
  unfold Report.total
  rw [h.skipped, h.passed, h.failures, List.length_map, ← List.countP_eq_length_filter]
  clear h
  induction cases with
  | nil => rfl
  | cons c cases ih =>
    simp only [List.countP_cons, List.length_cons]
    by_cases hskip : c.skip = true
    · simp [Case.Passes, Case.Fails, hskip] at ih ⊢
      omega
    · by_cases hexpected : t.convert c.input = c.expected
      · simp [Case.Passes, Case.Fails, hskip, hexpected] at ih ⊢
        omega
      · simp [Case.Passes, Case.Fails, hskip, hexpected] at ih ⊢
        omega

theorem isSuccess_iff (h : r.Accounts t cases) : r.isSuccess = true ↔
    ∀ c ∈ cases, c.skip = false → t.convert c.input = c.expected := by
  unfold Report.isSuccess
  rw [h.failures, List.isEmpty_iff, List.map_eq_nil_iff, List.filter_eq_nil_iff]
  refine forall₂_congr fun c _ => ?_
  rw [decide_eq_true_iff, Case.Fails, not_and, not_not]

end Report.Accounts

/-- **All cases of a corpus** that belong to the category are judged, and no others. -/
theorem accounts_run (t : Transliterator) (corpus : Corpus) (category? : Option (List Char)) :
    (Corpus.run t corpus category?).Accounts t (corpus.filter (·.InCategory category?)) := by
  induction corpus using List.reverseRecOn with
  | nil => exact .nil t
  | append_singleton corpus c ih =>
    rw [Corpus.run, List.foldl_append, List.foldl_cons, List.foldl_nil, ← Corpus.run,
      List.filter_append, selects_eq]
    by_cases hc : c.InCategory category?
    · rw [List.filter_cons_of_pos (by simpa using hc), List.filter_nil, if_pos (by simpa using hc)]
      exact ih.judge c
    · rw [List.filter_cons_of_neg (by simpa using hc), List.filter_nil, if_neg (by simpa using hc),
        List.append_nil]
      exact ih

/-- A category may be picked out of a corpus beforehand. -/
theorem run_some (t : Transliterator) (corpus : Corpus) (category : List Char) :
    Corpus.run t corpus (some category) =
      Corpus.run t (corpus.filter fun c => c.category? = some category) none := by
  have hsome := accounts_run t corpus (some category)
  have hnone := accounts_run t (corpus.filter fun c => c.category? = some category) none
  simp only [inCategory_some] at hsome
  simp only [inCategory_none, decide_true, List.filter_true] at hnone
  exact hsome.unique hnone

/-- Corpora may be judged one after the other. -/
theorem run_append (t : Transliterator) (corpus corpus' : Corpus)
    (category? : Option (List Char)) :
    Corpus.run t (corpus ++ corpus') category? =
      (Corpus.run t corpus category?).append (Corpus.run t corpus' category?) := by
  have hwhole := accounts_run t (corpus ++ corpus') category?
  rw [List.filter_append] at hwhole
  exact hwhole.unique ((accounts_run t corpus category?).append (accounts_run t corpus' category?))

namespace Tool

open Text.Utf8 (encode)

variable {w : World} {arguments : List String} {i : Invocation} {x : Settings} {g : Grammar}
  {corpus : Corpus} {file : String} {grammar? name? : Option String} {verbose : Bool}

/-- **The command** fails over a corpus exactly if a case fails. -/
theorem run_of_accuracy (harguments : Invocation.ofArguments? arguments = some i)
    (hcommand : i.command = .accuracy file grammar? name? verbose)
    (hsettings : InForce w.files i.settings? x)
    (hgrammar : (Grammar.Source.choose grammar?).load w.files = .ok g)
    (hcorpus : Corpus.load w.files file = .ok corpus) :
    (run w arguments).code =
      if (Corpus.run (.ofGrammar g x.policy) corpus (name?.map String.toList)).isSuccess then 0
      else 1 := by
  have hrun : i.command.run w x = .ok {
      code := if (Corpus.run (.ofGrammar g x.policy) corpus
        (name?.map String.toList)).isSuccess then 0 else 1
      stdout := accuracyReport
        (Corpus.run (.ofGrammar g x.policy) corpus (name?.map String.toList)) verbose } := by
    simp only [hcommand, Command.run, openEngine_ok hgrammar, hcorpus, Run.ok_bind]
    rfl
  exact (Invocation.run_of_command harguments hsettings hrun).1

/-- **Every corpus is judged case by case.** The cases of the category asked for are skipped, or
come out as expected, or are reported in their order with what came out; a case without a category
belongs to none. All of these are counted once, and the corpus is a success exactly if none fails.
So a category may be picked out beforehand, and corpora may be judged one after the other. The
command for it comes to its end with status 0 exactly on a success. -/
theorem accuracy_accounts (corpus : Corpus) :
    (∀ (t : Transliterator) (category? : Option (List Char)),
      (Corpus.run t corpus category?).Accounts t (corpus.filter (·.InCategory category?)) ∧
      (Corpus.run t corpus category?).total = (corpus.filter (·.InCategory category?)).length ∧
      ((Corpus.run t corpus category?).isSuccess = true ↔
        ∀ c ∈ corpus, c.InCategory category? → c.skip = false →
          t.convert c.input = c.expected) ∧
      (∀ category, Corpus.run t corpus (some category) =
        Corpus.run t (corpus.filter fun c => c.category? = some category) none) ∧
      ∀ corpus', Corpus.run t (corpus ++ corpus') category? =
        (Corpus.run t corpus category?).append (Corpus.run t corpus' category?)) ∧
    (∀ c : Case, c.category? = none → ∀ category, ¬ c.InCategory (some category)) ∧
    ∀ (w : World) (arguments : List String) (i : Invocation) (file : String)
      (grammar? name? : Option String) (verbose : Bool) (x : Settings) (g : Grammar),
      Invocation.ofArguments? arguments = some i →
      i.command = .accuracy file grammar? name? verbose →
      InForce w.files i.settings? x →
      (Grammar.Source.choose grammar?).load w.files = .ok g →
      Corpus.load w.files file = .ok corpus →
      (run w arguments).code =
        if (Corpus.run (.ofGrammar g x.policy) corpus (name?.map String.toList)).isSuccess then 0
        else 1 := by
  refine ⟨?_, ?_, ?_⟩
  · intro t category?
    have haccounts := accounts_run t corpus category?
    refine ⟨haccounts, haccounts.total_eq, ?_, run_some t corpus, ?_⟩
    · rw [haccounts.isSuccess_iff]
      simp only [List.mem_filter, decide_eq_true_eq, and_imp]
    · intro corpus'
      exact run_append t corpus corpus' category?
  · intro c hnone category hcategory
    rw [inCategory_some, hnone] at hcategory
    cases hcategory
  · intro w arguments i file grammar? name? verbose x g harguments hcommand hsettings hgrammar
      hcorpus
    exact run_of_accuracy harguments hcommand hsettings hgrammar hcorpus

/-- A file with a corpus, beside one with the grammar `positional`. The second case comes out
differently, and the third one would. -/
def shelved : World where
  files := mixedEnds.files ++ [("c.toml", encode (
    "[[cases]]\ninput = \"ak\"\nexpected = \"ax\"\ncategory = \"word\"\n" ++
    "[[cases]]\ninput = \"Ka\"\nexpected = \"ka\"\n" ++
    "[[cases]]\ninput = \"kk\"\nexpected = \"x\"\ncategory = \"word\"\nskip = true\n").toList)]

/-- The cases of that corpus. -/
def shelvedCases : Corpus := [
  ⟨"ak".toList, "ax".toList, some "word".toList, false⟩,
  ⟨"Ka".toList, "ka".toList, none, false⟩,
  ⟨"kk".toList, "x".toList, some "word".toList, true⟩]

/-- The corpus fails over its second case, and does not where that is not asked for. -/
theorem shelved_accuracy_accounts :
    (run shelved ["accuracy", "--grammar", "g.json", "c.toml"]).code = 1 ∧
    (run shelved ["accuracy", "--grammar", "g.json", "--category", "word", "c.toml"]).code = 0 ∧
    ¬ Case.InCategory (some "word".toList) ⟨"Ka".toList, "ka".toList, none, false⟩ := by
  obtain ⟨-, hnone, hcommand⟩ := accuracy_accounts shelvedCases
  obtain ⟨x, hx⟩ := Session.exists_parse_defaultDocument
  have hgrammar : (Grammar.Source.choose (some "g.json")).load shelved.files = .ok positional := by
    decide +kernel
  have hcorpus : Corpus.load shelved.files "c.toml" = .ok shelvedCases := by decide +kernel
  refine ⟨?_, ?_, ?_⟩
  · have harguments : Invocation.ofArguments? ["accuracy", "--grammar", "g.json", "c.toml"] =
        some { command := .accuracy "c.toml" (some "g.json") none false } := by
      decide +kernel
    rw [hcommand shelved _ _ _ _ _ _ x positional harguments rfl (inForce_none.2 hx) hgrammar
      hcorpus]
    cases x.policy <;> decide +kernel
  · have harguments : Invocation.ofArguments?
        ["accuracy", "--grammar", "g.json", "--category", "word", "c.toml"] =
          some { command := .accuracy "c.toml" (some "g.json") (some "word") false } := by
      decide +kernel
    rw [hcommand shelved _ _ _ _ _ _ x positional harguments rfl (inForce_none.2 hx) hgrammar
      hcorpus]
    cases x.policy <;> decide +kernel
  · exact hnone _ rfl _

end Tool

end Translit
