import DartUnion.Proofs.CommandWords
import DartUnion.Proofs.JsonModel
import DartUnion.Proofs.OutputFile
import DartUnion.Proofs.PrintedOutput
import DartUnion.Proofs.ReadDeclaration

/-!
# Through a model file

The model of a source text can be written to a file, and code can be generated from that file instead
of the source. A model comes back from its text, and the names of a model that was read from a source
have been checked before, so the second check refuses nothing: both ways convert the same model.

Writing a file may make directories, and changes one place beside that. So other files are read as
before (`Extends`, `read_of_write`), the source among them unless the model was written over it.

* `Extends t u`: whatever was in the one tree is in the other.
* `single t path o`: what a run that prints leaves behind one input, by what becomes of that.

Results:
* `read_writeFile`, `read_writeFile_other`: what is read after a file was written.
* `codeOutcome_source`, `codeOutcome_model`: the source and its model have the same outcome.
* `run_through_model`: **code from a model file is code from its source**, with the same failure.
-/

namespace DartUnion

namespace Files.Tree

variable {t u v : Tree} {path text source : String} {place : Place}

/-! ## Trees that extend others -/

/-- Whatever was in the one tree is in the other. -/
def Extends (t u : Tree) : Prop :=
  ∀ place node, t.node? place = some node → u.node? place = some node

theorem Extends.refl (t : Tree) : Extends t t := fun _ _ h => h

theorem Extends.trans (h : Extends t u) (h' : Extends u v) : Extends t v :=
  fun place node hnode => h' place node (h place node hnode)

theorem Extends.grows (h : Extends t u) : Grows t u := by
  refine ⟨fun place hthere => ?_, fun place hd => ?_⟩
  · obtain ⟨node, hnode⟩ := Option.isSome_iff_exists.1 hthere
    rw [h place node hnode]
    rfl
  · rw [isDirectoryAt, beq_iff_eq] at hd ⊢
    exact h place _ hd

/-- Paths go on leading where they led when a tree grows. -/
theorem Grows.locate (h : Grows t u) (hl : t.locate path = .ok place) :
    u.locate path = .ok place := by
  obtain ⟨hc, hwords⟩ := locate_eq_ok hl
  exact bind_eq_ok_iff.2 ⟨(), hc, h.foldlM hwords⟩

theorem Extends.read (h : Extends t u) (hread : t.read path = .ok source) :
    u.read path = .ok source := by
  obtain ⟨place, hlocate, hnode⟩ := read_eq_ok_iff.1 hread
  exact read_eq_ok_iff.2 ⟨place, h.grows.locate hlocate, h place _ hnode⟩

/-- A new directory takes the place of nothing. -/
theorem extends_makeDirectory (h : t.makeDirectory path = .ok u) : Extends t u := by
  obtain ⟨front, -, -, hfree, rfl⟩ := makeDirectory_eq_ok h
  have hd : t.isDirectoryAt (front ++ [(split path).last]) = false := by
    rw [isDirectoryAt, hfree]
    rfl
  intro other node hnode
  rw [node?_put _ _ _ _ (isImplied_of_not_directory hd), if_neg]
  · exact hnode
  · rintro rfl
    rw [hfree] at hnode
    cases hnode

theorem extends_ensureDirectory (t : Tree) (path : String) :
    Extends t (t.ensureDirectory path).1 := by
  unfold ensureDirectory
  split
  · next hmade => exact extends_makeDirectory hmade
  · exact Extends.refl t

/-- **Making directories changes nothing that is there**, even when some cannot be made. -/
theorem extends_makeEach (t : Tree) (paths : List String) : Extends t (t.makeEach paths).1 := by
  induction paths with
  | nil => exact Extends.refl t
  | cons path paths ih =>
    unfold makeEach
    split
    · exact Extends.refl t
    · split
      · split
        · next made hmade =>
          rw [hmade] at ih
          exact ih.trans (extends_ensureDirectory made path)
        · next hmade =>
          rw [hmade] at ih
          exact ih
      · exact extends_ensureDirectory t path

/-! ## Reading after writing -/

/-- **A file that was not written to is read as before.** -/
theorem read_of_write {other : String} (h : t.write path text = .ok u)
    (hread : t.read other = .ok source) (hne : u.locate path ≠ u.locate other) :
    u.read other = .ok source := by
  obtain ⟨written, hwritten, hd, rfl⟩ := locate_write h
  obtain ⟨place, hlocate, hnode⟩ := read_eq_ok_iff.1 hread
  have hlocate' := (grows_put hd (.file (.text text))).locate hlocate
  refine read_eq_ok_iff.2 ⟨place, hlocate', ?_⟩
  rw [node?_put _ _ _ _ (isImplied_of_not_directory hd), if_neg]
  · exact hnode
  · rintro rfl
    exact hne (hwritten.trans hlocate'.symm)

/-- Where something can be written, anything can be. -/
theorem exists_write (h : t.write path text = .ok u) (other : String) :
    ∃ v, t.write path other = .ok v := by
  obtain ⟨front, hfront, hslash, hdots, hsize, hd, -⟩ := write_to h
  exact ⟨_, write_front hfront hslash hdots hsize hd other⟩

end Files.Tree

namespace Command

open Files Files.Tree

variable {t : Tree} {path text source : String} {d : Declaration} {options : Output.Options}

theorem extends_prepare (t : Tree) (path : String) : Extends t (prepare t path).1 := by
  unfold prepare
  split
  · exact Extends.refl t
  · exact extends_makeEach t _

/-- Where something can be written with its directories, anything can be. -/
theorem exists_writeFile (h : (writeFile t path text).2 = none) (other : String) :
    ∃ u, writeFile t path other = (u, none) := by
  obtain ⟨made, hmade, hwrite⟩ := writeFile_iff.1 (Prod.ext rfl h)
  obtain ⟨u, hu⟩ := exists_write hwrite other
  exact ⟨u, writeFile_iff.2 ⟨made, hmade, hu⟩⟩

/-- **What was written is read.** -/
theorem read_writeFile {u : Tree} (h : writeFile t path text = (u, none)) :
    u.read path = .ok text := by
  have hfile := file?_writeFile (congrArg Prod.snd h)
  rw [h] at hfile
  exact read_eq_ok_iff.2 (file?_eq_some_iff.1 hfile)

/-- **Other files are read as before**, whatever directories were made. -/
theorem read_writeFile_other {u : Tree} (h : writeFile t path text = (u, none)) {other : String}
    (hread : t.read other = .ok source) (hne : u.locate path ≠ u.locate other) :
    u.read other = .ok source := by
  obtain ⟨made, hmade, hwrite⟩ := writeFile_iff.1 h
  have hextends := extends_prepare t path
  rw [hmade] at hextends
  exact read_of_write hwrite (hextends.read hread) hne

/-! ## Outcomes -/

/-- A source that was read has the outcome of its model. -/
theorem codeOutcome_source (hread : t.read path = .ok source)
    (hd : Declaration.ofSource source = .ok d) :
    codeOutcome t { inputs := [path], options := options } path =
      .ofExcept .refused (d.code options) := by
  unfold codeOutcome
  rw [hread]
  change Outcome.ofExcept .refused (convert options source) = _
  rw [convert, hd]
  rfl

/-- **The text of a checked model has the outcome of that model.** -/
theorem codeOutcome_model (hread : t.read path = .ok d.toJson) (hcheck : d.check = .ok ()) :
    codeOutcome t { inputs := [path], fromModel := true, options := options } path =
      .ofExcept .refused (d.code options) := by
  unfold codeOutcome DartJob.outcomeOf
  rw [hread]
  simp only [if_true, ofJson_toJson, codeOfModel, hcheck]
  rfl

/-! ## Runs over one input -/

/-- What a run that prints leaves behind its only input, by what becomes of that. -/
def single (t : Tree) (path : String) (o : Outcome String) : Result where
  tree := t
  output := o.result?.getD ""
  messages := (o.report? path).toList
  failure := failureOf (if o.isFailure then 1 else 0)

/-- A literal input is told by its path, and nothing else is. -/
theorem sources_single (hg : isGlob path = false) (t : Tree) (out : Option String) :
    sources t [path] out = .ok [path] := by
  have hone : [path].map (resolveOne t) = [[path]].map .ok := by
    rw [List.map_singleton, resolveOne, hg]
    rfl
  unfold sources
  rw [resolve_eq_ok hone]
  exact if_neg (by simp)

theorem run_dart_single {job : DartJob} (hi : job.inputs = [path]) (hg : isGlob path = false)
    (hp : (Job.dart job).prints = true) (t : Tree) :
    job.run t = single t path (codeOutcome t job path) := by
  rw [Job.prints, Bool.and_eq_true, Option.isNone_iff_eq_none, Bool.not_eq_true'] at hp
  unfold DartJob.run
  rw [hi, sources_single hg, hp.1, hp.2]
  simp only [Bool.false_eq_true, if_false, List.map_cons, List.map_nil]
  cases codeOutcome t job path <;> rfl

/-- A model of its own is written as it is, and what may fail is the writing. -/
theorem run_model_single {m : String} (hg : isGlob path = false)
    (hread : t.read path = .ok source) (hd : Declaration.ofSource source = .ok d) :
    ModelJob.run { inputs := [path], out := some m } t =
      { tree := (writeFile t m d.toJson).1, failure := (writeFile t m d.toJson).2 } := by
  have houtcome : modelOutcome t path = .done d := by
    unfold modelOutcome
    rw [hread]
    change Outcome.ofExcept _ (Declaration.ofSource source) = _
    rw [hd]
    rfl
  unfold ModelJob.run
  simp only [sources_single hg, List.map_cons, List.map_nil, houtcome]
  change Result.mk (writeFile t m d.toJson).1 "" [] ((writeFile t m d.toJson).2.or none) = _
  rw [Option.or_none]

/-! ## Both ways -/

variable {f m : String} {flags : List CodeFlag} {i j k : Invocation}

/-- The model of a source is written to a file. -/
theorem run_modelWords (hi : Invocation.ofWords ["model", "-i", f, "-o", m] = .ok i)
    (hf : isGlob f = false) (hread : t.read f = .ok source)
    (hd : Declaration.ofSource source = .ok d) :
    i.run t = { tree := (writeFile t m d.toJson).1, failure := (writeFile t m d.toJson).2 } := by
  unfold Invocation.run
  rw [job_of_modelWords hi]
  exact run_model_single hf hread hd

/-- Code is generated from a source. -/
theorem run_sourceWords
    (hk : Invocation.ofWords (["dart", "-i", f] ++ flags.flatMap CodeFlag.words) = .ok k)
    (hf : isGlob f = false) (hread : t.read f = .ok source)
    (hd : Declaration.ofSource source = .ok d) :
    k.run t = single t f (.ofExcept .refused (d.code (codeOptions flags))) := by
  unfold Invocation.run
  rw [job_of_sourceWords hk, ← codeOutcome_source hread hd]
  exact run_dart_single rfl hf rfl t

/-- Code is generated from the model of a source. -/
theorem run_modelFileWords
    (hj : Invocation.ofWords (["dart", "--from-model", "-i", m] ++ flags.flatMap CodeFlag.words) =
      .ok j)
    (hm : isGlob m = false) (hread : t.read m = .ok d.toJson)
    (hd : Declaration.ofSource source = .ok d) :
    j.run t = single t m (.ofExcept .refused (d.code (codeOptions flags))) := by
  unfold Invocation.run
  rw [job_of_modelFileWords hj, ← codeOutcome_model hread (eq_of_ofSource hd).2]
  exact run_dart_single rfl hm rfl t

/-- **Code from a model file is code from its source.** A source text that has a union is dumped to
a model file, and code is generated from that file and from the source, with the same flags. The
output is the same, and so is the failure, if the model has no case to generate code for. What is
said about the input differs in its path only. The source may be read before the model is written,
or after it unless the model is now in its place. -/
theorem run_through_model
    (hi : Invocation.ofWords ["model", "-i", f, "-o", m] = .ok i)
    (hj : Invocation.ofWords (["dart", "--from-model", "-i", m] ++ flags.flatMap CodeFlag.words) =
      .ok j)
    (hk : Invocation.ofWords (["dart", "-i", f] ++ flags.flatMap CodeFlag.words) = .ok k)
    (hf : isGlob f = false) (hm : isGlob m = false) (hread : t.read f = .ok source)
    (hd : Declaration.ofSource source = .ok d) (hw : (writeFile t m text).2 = none) :
    (i.run t).failure = none ∧
      (j.run (i.run t).tree).output = (k.run t).output ∧
      (j.run (i.run t).tree).failure = (k.run t).failure ∧
      (∃ o : Outcome String, (k.run t).messages = (o.report? f).toList ∧
        (j.run (i.run t).tree).messages = (o.report? m).toList) ∧
      ((i.run t).tree.locate m ≠ (i.run t).tree.locate f →
        (k.run (i.run t).tree).output = (k.run t).output ∧
          (k.run (i.run t).tree).failure = (k.run t).failure ∧
          (k.run (i.run t).tree).messages = (k.run t).messages) := by
  obtain ⟨u, hu⟩ := exists_writeFile hw d.toJson
  rw [run_modelWords hi hf hread hd, hu, run_modelFileWords hj hm (read_writeFile hu) hd,
    run_sourceWords hk hf hread hd]
  refine ⟨rfl, rfl, rfl, ⟨_, rfl, rfl⟩, fun hne => ?_⟩
  rw [run_sourceWords hk hf (read_writeFile_other hu hread hne) hd]
  exact ⟨rfl, rfl, rfl⟩

/-- A model file in a directory that is made for it, and flags in both spellings. -/
theorem run_through_model_new_directory : ∃ i j k t code,
    Invocation.ofWords ["model", "-i", "a.dart", "-o", "out/a.json"] = .ok i ∧
      Invocation.ofWords ["dart", "--from-model", "-i", "out/a.json", "--no-import",
        "--fallback=throw", "--helper-suffix", "X"] = .ok j ∧
      Invocation.ofWords ["dart", "-i", "a.dart", "--no-import", "--fallback=throw",
        "--helper-suffix", "X"] = .ok k ∧
      t = ⟨[(["a.dart"], .file (.text "class A \x7b factory A.b() = B; \x7d"))]⟩ ∧
      Declaration.code ⟨"A", [⟨"B", "b", []⟩]⟩
        { equatableImport := false, fallback := .throwError, helperSuffix := "X" } = .ok code ∧
      (j.run (i.run t).tree).output = code ∧ (j.run (i.run t).tree).failure = none ∧
      (k.run (i.run t).tree).output = code := by
  obtain ⟨t, ht⟩ : ∃ t : Tree,
      t = ⟨[(["a.dart"], .file (.text "class A \x7b factory A.b() = B; \x7d"))]⟩ := ⟨_, rfl⟩
  have hsource : Declaration.ofSource "class A \x7b factory A.b() = B; \x7d" =
      .ok ⟨"A", [⟨"B", "b", []⟩]⟩ := eq_ok_of_toOption (by decide +kernel)
  have hread : t.read "a.dart" = .ok "class A \x7b factory A.b() = B; \x7d" := by
    rw [ht]
    exact eq_ok_of_toOption (by decide +kernel)
  have hwritable : (writeFile t "out/a.json" "").2 = none := by
    rw [ht]
    decide +kernel
  obtain ⟨i, hi⟩ : ∃ i, Invocation.ofWords ["model", "-i", "a.dart", "-o", "out/a.json"] = .ok i :=
    ⟨_, rfl⟩
  obtain ⟨j, hj⟩ : ∃ j, Invocation.ofWords (["dart", "--from-model", "-i", "out/a.json"] ++
      [CodeFlag.noImport, .fallback .throwError true, .helperSuffix "X" false].flatMap
        CodeFlag.words) = .ok j := ⟨_, rfl⟩
  obtain ⟨k, hk⟩ : ∃ k, Invocation.ofWords (["dart", "-i", "a.dart"] ++
      [CodeFlag.noImport, .fallback .throwError true, .helperSuffix "X" false].flatMap
        CodeFlag.words) = .ok k := ⟨_, rfl⟩
  obtain ⟨code, hcode⟩ : ∃ code, Declaration.code ⟨"A", [⟨"B", "b", []⟩]⟩
      { equatableImport := false, fallback := .throwError, helperSuffix := "X" } = .ok code :=
    ⟨_, rfl⟩
  have hrun : k.run t = single t "a.dart" (.done code) := by
    rw [run_sourceWords hk rfl hread hsource]
    exact congrArg (fun x => single t "a.dart" (.ofExcept .refused x)) hcode
  obtain ⟨-, houtput, hfailure, -, hlater⟩ :=
    run_through_model hi hj hk rfl rfl hread hsource hwritable
  rw [hrun] at houtput hfailure hlater
  have hother : (i.run t).tree.locate "out/a.json" ≠ (i.run t).tree.locate "a.dart" := by
    rw [run_modelWords hi rfl hread hsource, ht]
    exact fun h => absurd (congrArg Except.toOption h) (by decide +kernel)
  exact ⟨i, j, k, t, code, hi, hj, hk, ht, hcode, houtput, hfailure, (hlater hother).1⟩

end Command

end DartUnion
