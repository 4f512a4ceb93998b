import DartUnion.Command.Footprint
import DartUnion.Proofs.InPlace
import DartUnion.Proofs.OutputFile

/-!
# What a failed input does to the output file

A run that writes to a file delivers its text before it says that an input failed. When the only
input fails there are no results, so the text is empty; it is written all the same. So an output
file that was there is emptied, and one that was not is made, unless it cannot be written.

* `Job.Fails t path job`: the input of the job fails, with the reasons that there are.

Results:
* `countsAsFailure_iff`: **an input counts as a failure for these reasons only.**
* `run_eq_writeFile`: such a run writes the empty text.
* `run_of_failed_input`: **exactly when the output file is left as it was.**
-/

namespace DartUnion.Command

open Files Files.Tree

/-- The union that a job finds in the text of an input, before its names are checked. -/
def Job.Finds (text : String) (d : Declaration) : Job → Prop
  | .dart job =>
    if job.fromModel then Declaration.ofJson text = .ok d
    else Source.union? (Source.stripComments text.toList) = some d
  | .model _ => Source.union? (Source.stripComments text.toList) = some d

/-- The input of a job fails: it cannot be read, or it is no model, or names clash in its union, or
there is no case to generate code for. -/
inductive Job.Fails (t : Tree) (path : String) : Job → Prop
  | unreadable {job : Job} {fault : FileFault} : t.read path = .error fault → Fails t path job
  | badModel {job : DartJob} {text : String} {report : Json.Report} : job.fromModel = true →
      t.read path = .ok text → Declaration.ofJson text = .error report → Fails t path (.dart job)
  | clash {job : Job} {text : String} {d : Declaration} {failure : Failure} :
      t.read path = .ok text → job.Finds text d → d.check = .error failure → Fails t path job
  | noCase {job : DartJob} {text : String} {d : Declaration} :
      t.read path = .ok text → (Job.dart job).Finds text d → d.variants = [] →
        Fails t path (.dart job)

/-- What becomes of the input of a job counts as a failure. -/
def Job.countsAsFailure (t : Tree) (path : String) : Job → Bool
  | .dart job => (codeOutcome t job path).isFailure
  | .model _ => (modelOutcome t path).isFailure

variable {t : Tree} {path : String} {d : Declaration}

/-! ## Reasons -/

/-- A failed check never says that there is no union. -/
theorem ne_noUnion_of_check {failure : Failure} (h : d.check = .error failure) :
    failure ≠ .noUnion := by
  unfold Declaration.check at h
  split at h
  · rintro rfl
    cases h
  · cases h

/-- A failure counts, unless it is that there is no union. -/
theorem isFailure_ofExcept_error {α : Type} {failure : Failure} (h : failure ≠ .noUnion)
    (fault : Failure → InputFault) :
    (Outcome.ofExcept fault (.error failure : Except Failure α)).isFailure = true := by
  cases failure with
  | noUnion => exact absurd rfl h
  | clash union offence => rfl
  | emptyUnion union => rfl

/-- Code is refused when names clash or there is no case. -/
theorem isFailure_ofExcept_code (options : Output.Options) :
    (Outcome.ofExcept .refused (d.check.bind fun _ => d.code options)).isFailure = true ↔
      (∃ failure, d.check = .error failure) ∨ d.variants = [] := by
  cases hcheck : d.check with
  | error failure =>
    exact iff_of_true (isFailure_ofExcept_error (ne_noUnion_of_check hcheck) _)
      (.inl ⟨failure, rfl⟩)
  | ok passed =>
    have hcode : (Except.ok passed : Except Failure Unit).bind (fun _ => d.code options) =
        d.code options := rfl
    rw [hcode, Declaration.code]
    constructor
    · intro h
      right
      split at h
      · next hempty => exact List.isEmpty_iff.1 hempty
      · cases h
    · rintro (⟨failure, hf⟩ | hempty)
      · cases hf
      · rw [hempty]
        rfl

theorem ofSource_of_union? {text : String}
    (h : Source.union? (Source.stripComments text.toList) = some d) :
    Declaration.ofSource text = d.check.map fun _ => d := by
  rw [Declaration.ofSource, h]

theorem ofSource_of_no_union {text : String}
    (h : Source.union? (Source.stripComments text.toList) = none) :
    Declaration.ofSource text = .error .noUnion := by
  rw [Declaration.ofSource, h]

/-- Code for a union that was read is refused when names clash or there is no case. -/
theorem isFailure_ofExcept_convert (options : Output.Options) (text : String) :
    (Outcome.ofExcept .refused (convert options text)).isFailure = true ↔
      ∃ d, Source.union? (Source.stripComments text.toList) = some d ∧
        ((∃ failure, d.check = .error failure) ∨ d.variants = []) := by
  unfold convert
  cases hunion : Source.union? (Source.stripComments text.toList) with
  | none =>
    rw [ofSource_of_no_union hunion]
    refine iff_of_false (fun h => by cases h) ?_
    rintro ⟨d, hd, -⟩
    cases hd
  | some d =>
    have hbind : ((d.check.map fun _ => d).bind fun d => d.code options) =
        d.check.bind fun _ => d.code options := by
      cases d.check <;> rfl
    rw [ofSource_of_union? hunion, hbind, isFailure_ofExcept_code]
    constructor
    · intro h
      exact ⟨d, rfl, h⟩
    · rintro ⟨e, he, h⟩
      obtain rfl := Option.some.inj he
      exact h

/-- The model of a union that was read is refused when names clash. -/
theorem isFailure_ofExcept_ofSource (path text : String) :
    (Outcome.ofExcept (.unparsed path) (Declaration.ofSource text)).isFailure = true ↔
      ∃ d, Source.union? (Source.stripComments text.toList) = some d ∧
        ∃ failure, d.check = .error failure := by
  cases hunion : Source.union? (Source.stripComments text.toList) with
  | none =>
    rw [ofSource_of_no_union hunion]
    refine iff_of_false (fun h => by cases h) ?_
    rintro ⟨d, hd, -⟩
    cases hd
  | some d =>
    rw [ofSource_of_union? hunion]
    cases hcheck : d.check with
    | error failure =>
      exact iff_of_true (isFailure_ofExcept_error (ne_noUnion_of_check hcheck) _)
        ⟨d, rfl, failure, hcheck⟩
    | ok passed =>
      refine iff_of_false (fun h => by cases h) ?_
      rintro ⟨e, he, failure, hf⟩
      obtain rfl := Option.some.inj he
      rw [hcheck] at hf
      cases hf

/-- What becomes of the text of an input counts as a failure when it is no model, when names clash
or when there is no case. -/
theorem isFailure_outcomeOf (job : DartJob) (text : String) :
    (job.outcomeOf text).isFailure = true ↔
      (job.fromModel = true ∧ ∃ report, Declaration.ofJson text = .error report) ∨
        ∃ d, (Job.dart job).Finds text d ∧
          ((∃ failure, d.check = .error failure) ∨ d.variants = []) := by
  unfold DartJob.outcomeOf Job.Finds
  cases hm : job.fromModel with
  | false =>
    simp only [hm, Bool.false_eq_true, if_false, false_and, false_or]
    exact isFailure_ofExcept_convert job.options text
  | true =>
    simp only [hm, if_true, true_and]
    cases hjson : Declaration.ofJson text with
    | error report =>
      exact iff_of_true rfl (.inl ⟨report, rfl⟩)
    | ok d =>
      simp only [codeOfModel]
      rw [isFailure_ofExcept_code]
      constructor
      · intro h
        exact .inr ⟨d, rfl, h⟩
      · rintro (⟨report, hr⟩ | ⟨e, he, h⟩)
        · cases hr
        · obtain rfl := Except.ok.inj he
          exact h

/-- An input that is read fails to give code for the reasons that its text holds. -/
theorem fails_dart_iff {job : DartJob} {text : String} (hread : t.read path = .ok text) :
    (Job.dart job).Fails t path ↔
      (job.fromModel = true ∧ ∃ report, Declaration.ofJson text = .error report) ∨
        ∃ d, (Job.dart job).Finds text d ∧
          ((∃ failure, d.check = .error failure) ∨ d.variants = []) := by
  have htext : ∀ {other}, t.read path = .ok other → other = text := by
    intro other h
    exact Except.ok.inj (h.symm.trans hread)
  constructor
  · intro h
    cases h with
    | unreadable h => cases hread.symm.trans h
    | badModel hm h hreport =>
      obtain rfl := htext h
      exact .inl ⟨hm, _, hreport⟩
    | clash h hd hf =>
      obtain rfl := htext h
      exact .inr ⟨_, hd, .inl ⟨_, hf⟩⟩
    | noCase h hd hempty =>
      obtain rfl := htext h
      exact .inr ⟨_, hd, .inr hempty⟩
  · rintro (⟨hm, report, hreport⟩ | ⟨d, hd, ⟨failure, hf⟩ | hempty⟩)
    · exact .badModel hm hread hreport
    · exact .clash hread hd hf
    · exact .noCase hread hd hempty

/-- An input that is read fails to give a model only when names clash. -/
theorem fails_model_iff {job : ModelJob} {text : String} (hread : t.read path = .ok text) :
    (Job.model job).Fails t path ↔
      ∃ d, Source.union? (Source.stripComments text.toList) = some d ∧
        ∃ failure, d.check = .error failure := by
  constructor
  · intro h
    cases h with
    | unreadable h => cases hread.symm.trans h
    | clash h hd hf =>
      obtain rfl := Except.ok.inj (h.symm.trans hread)
      exact ⟨_, hd, _, hf⟩
  · rintro ⟨d, hd, failure, hf⟩
    exact .clash hread hd hf

/-- **An input counts as a failure for these reasons only.** -/
theorem countsAsFailure_iff {job : Job} :
    job.countsAsFailure t path = true ↔ job.Fails t path := by
  cases hread : t.read path with
  | error fault =>
    refine iff_of_true ?_ (.unreadable hread)
    cases job with
    | dart job =>
      unfold Job.countsAsFailure codeOutcome
      rw [hread]
      rfl
    | model job =>
      unfold Job.countsAsFailure modelOutcome
      rw [hread]
      rfl
  | ok text =>
    cases job with
    | dart job =>
      rw [fails_dart_iff hread, ← isFailure_outcomeOf]
      unfold Job.countsAsFailure codeOutcome
      rw [hread]
    | model job =>
      rw [fails_model_iff hread, ← isFailure_ofExcept_ofSource path]
      unfold Job.countsAsFailure modelOutcome
      rw [hread]

/-! ## Runs -/

/-- An input that counts as a failure has no result. -/
theorem result?_of_isFailure {α : Type} {o : Outcome α} (h : o.isFailure = true) :
    o.result? = none := by
  cases o with
  | done result => cases h
  | noUnion => rfl
  | failed fault => rfl

/-- When the only input fails there are no results and one failure. -/
theorem results_of_isFailure {α : Type} {o : Outcome α} (h : o.isFailure = true) (path : String) :
    Outcomes.results [(path, o)] = [] ∧ Outcomes.failures [(path, o)] = 1 := by
  constructor
  · exact Outcomes.results_cons_of_none (result?_of_isFailure h) []
  · unfold Outcomes.failures
    rw [List.countP_singleton, h]
    rfl

variable {job : Job} {out : String}

/-- **The empty text is written** when the only input fails, and the failure of writing it comes
first. -/
theorem run_eq_writeFile (hc : job.isCompatible = true) (ho : job.out = some out)
    (hs : resolve t job.inputs = .ok [path]) (hf : job.Fails t path) :
    (job.run t).tree = (writeFile t out "").1 ∧
      (job.run t).failure = (writeFile t out "").2.or (some (.inputsFailed 1)) := by
  have hcounts := countsAsFailure_iff.2 hf
  have hsources : sources t job.inputs (some out) = .ok [path] := by
    unfold sources
    rw [hs]
    rfl
  cases job with
  | dart job =>
    have hplace : job.inPlace = false := by
      rw [Job.isCompatible] at hc
      rw [Job.out] at ho
      rw [ho] at hc
      simpa using hc
    obtain ⟨hresults, hfailures⟩ := results_of_isFailure hcounts path
    rw [Job.out] at ho
    rw [Job.inputs] at hsources
    simp only [Job.run, DartJob.run, ho, hsources, hplace, List.map_cons, List.map_nil,
      Bool.false_eq_true, if_false, hresults, deliver, hfailures]
    exact ⟨rfl, rfl⟩
  | model job =>
    obtain ⟨hresults, hfailures⟩ := results_of_isFailure hcounts path
    rw [Job.out] at ho
    rw [Job.inputs] at hsources
    simp only [Job.run, ModelJob.run, ho, hsources, List.map_cons, List.map_nil, hresults, deliver,
      hfailures]
    exact ⟨rfl, rfl⟩

/-- What writing fails with is not that an input failed. -/
theorem ne_inputsFailed_of_writeFile {failure : RunFailure} {text : String}
    (h : (writeFile t out text).2 = some failure) (number : Nat) :
    failure ≠ .inputsFailed number := by
  unfold writeFile at h
  split at h
  · next made fault hp =>
    obtain rfl := Option.some.inj h
    unfold prepare at hp
    split at hp
    · cases hp
    · obtain ⟨-, hfault⟩ := Prod.mk.inj hp
      obtain ⟨fault, -, rfl⟩ := Option.map_eq_some_iff.1 hfault
      rintro he
      cases he
  · split at h
    · cases h
    · obtain rfl := Option.some.inj h
      intro he
      cases he

/-- **Exactly when the output file is left as it was**: the run of a command line with a single
input, which fails, fails; and the file stays as it is if writing to it is what failed, and
otherwise only if it was there and empty. -/
theorem run_of_failed_input {words : List String} {i : Invocation}
    (h : Invocation.ofWords words = .ok i) (hn : i.job.noOp = false) (ho : i.job.out = some out)
    (hs : resolve t i.job.inputs = .ok [path]) (hf : i.job.Fails t path) :
    (i.run t).failure ≠ none ∧
      ((i.run t).tree.file? out = t.file? out ↔
        (i.run t).failure ≠ some (.inputsFailed 1) ∨ t.file? out = some (.text "")) := by
  have hrun : i.run t = i.job.run t := by
    unfold Invocation.run
    rw [hn, if_neg Bool.false_ne_true]
  obtain ⟨htree, hfailure⟩ := run_eq_writeFile (isCompatible_of_ofWords h) ho hs hf
  rw [hrun, htree, hfailure]
  cases hw : (writeFile t out "").2 with
  | none =>
    rw [Option.none_or, file?_writeFile hw]
    refine ⟨Option.some_ne_none _, ?_⟩
    constructor
    · intro hsame
      exact .inr hsame.symm
    · rintro (hne | hempty)
      · exact absurd rfl hne
      · exact hempty.symm
  | some failure =>
    obtain ⟨hbefore, hafter⟩ := file?_of_writeFile_failed hw
    rw [Option.some_or, hbefore, hafter]
    refine ⟨Option.some_ne_none _, iff_of_true rfl (.inl fun he => ?_)⟩
    exact ne_inputsFailed_of_writeFile hw 1 (Option.some.inj he)

/-- A union without cases, and an output file below what is no directory. -/
theorem run_of_failed_input_below_file : ∃ i t,
    Invocation.ofWords ["dart", "-i", "a.dart", "-o", "a.dart/b.dart"] = .ok i ∧
      i.job.Fails t "a.dart" ∧
      (i.run t).failure = some (.notCreated "a.dart" .alreadyThere) ∧
      (i.run t).tree.file? "a.dart/b.dart" = t.file? "a.dart/b.dart" := by
  obtain ⟨t, ht⟩ : ∃ t : Tree, t = ⟨[(["a.dart"], .file (.text "class A \x7b\x7d"))]⟩ := ⟨_, rfl⟩
  have hwords : Invocation.ofWords ["dart", "-i", "a.dart", "-o", "a.dart/b.dart"] =
      .ok ⟨0, .dart { inputs := ["a.dart"], out := some "a.dart/b.dart" }⟩ := rfl
  have hread : t.read "a.dart" = .ok "class A \x7b\x7d" := by
    rw [ht]
    exact eq_ok_of_toOption (by decide +kernel)
  have hunion : Source.union? (Source.stripComments "class A \x7b\x7d".toList) =
      some ⟨"A", []⟩ := by
    decide +kernel
  have hfails : Job.Fails t "a.dart"
      (.dart { inputs := ["a.dart"], out := some "a.dart/b.dart" }) :=
    .noCase hread hunion rfl
  have hfailure : (Invocation.run ⟨0, .dart { inputs := ["a.dart"], out := some "a.dart/b.dart" }⟩
      t).failure = some (.notCreated "a.dart" .alreadyThere) := by
    rw [ht]
    decide +kernel
  refine ⟨_, t, hwords, hfails, hfailure, ?_⟩
  refine (run_of_failed_input hwords rfl rfl rfl hfails).2.2 (.inl ?_)
  rw [hfailure]
  decide

/-- **A failed input empties the output file**, and makes it when it is not there. -/
theorem run_empties_output : ∃ i j t,
    Invocation.ofWords ["dart", "-i", "a.dart", "-o", "b.dart"] = .ok i ∧
      Invocation.ofWords ["model", "-i", "c.dart", "-o", "c.json"] = .ok j ∧
      i.job.Fails t "a.dart" ∧ j.job.Fails t "c.dart" ∧
      t.file? "b.dart" = some (.text "old") ∧
      (i.run t).tree.file? "b.dart" = some (.text "") ∧
      t.file? "c.json" = none ∧
      (j.run t).tree.file? "c.json" = some (.text "") := by
  obtain ⟨t, ht⟩ : ∃ t : Tree, t = ⟨[(["a.dart"], .file (.text "class A \x7b\x7d")),
    (["b.dart"], .file (.text "old"))]⟩ := ⟨_, rfl⟩
  have hread : t.read "a.dart" = .ok "class A \x7b\x7d" := by
    rw [ht]
    exact eq_ok_of_toOption (by decide +kernel)
  have hunion : Source.union? (Source.stripComments "class A \x7b\x7d".toList) =
      some ⟨"A", []⟩ := by
    decide +kernel
  obtain ⟨fault, hmissing⟩ : ∃ fault, t.read "c.dart" = .error fault := by
    rw [ht]
    exact exists_error_of_toOption (by decide +kernel)
  refine ⟨⟨0, .dart { inputs := ["a.dart"], out := some "b.dart" }⟩,
    ⟨0, .model { inputs := ["c.dart"], out := some "c.json" }⟩, t, rfl, rfl,
    .noCase hread hunion rfl, .unreadable hmissing, ?_⟩
  rw [ht]
  decide +kernel

end DartUnion.Command
