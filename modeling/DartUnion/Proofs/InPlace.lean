import DartUnion.Command.Run
import DartUnion.Proofs.Following

/-!
# Replacing inputs in place

A run that replaces its inputs reads and converts all of them in the tree it finds, and then writes
one result after the other. No write changes where a path leads (`SameShape`), and two paths to one
file have the same result for it. So what a run does is told by the tree it started from: files that
some input names and that convert hold their code in the end (`Rewrites`), and nothing else changes.

* `Replaced.next`: what writing one result does.
* `Replaced.foldl`: **what writing all results does**, whatever their order.
* `isCompatible_of_ofWords`: a command line for replacing inputs neither names an output file nor
  reads models.
* `run_inPlace`: **the run of such a command line**, with the failure that it reports.
-/

namespace DartUnion.Command

open Files Files.Tree

/-! ## Command lines -/

/-- A setting that was not given has no values. -/
theorem values_of_not_has {g : Given} {s : Setting} (h : g.has s = false) : g.values s = [] := by
  unfold Given.values
  rw [List.flatMap_eq_nil_iff]
  intro entry hentry
  refine if_neg fun hs => ?_
  have hall := List.any_eq_false.1 h entry hentry
  rw [hs] at hall
  exact hall (beq_self_eq_true s)

/-- Replacing inputs is compatible with the rest of the job. -/
def Job.isCompatible : Job → Bool
  | .dart job => !job.inPlace || job.out.isNone && !job.fromModel
  | .model _ => true

/-- Settings that do not contradict each other describe a compatible job. -/
theorem isCompatible_job {g : Given} (h : g.isContradictory = false) (kind : Kind) :
    (g.job kind).isCompatible = true := by
  cases kind with
  | model => rfl
  | dart =>
    rw [Given.isContradictory, Bool.and_eq_false_iff, Bool.or_eq_false_iff] at h
    rcases h with h | ⟨hout, hmodel⟩
    · simp only [Given.job, Job.isCompatible, h, Bool.not_false, Bool.true_or]
    · simp only [Given.job, Job.isCompatible, values_of_not_has hout, hmodel, List.head?_nil,
        Option.isNone_none, Bool.not_false, Bool.and_self, Bool.or_true]

theorem isCompatible_of_ofCommand {outer : Given} {kind : Kind} {words : List String}
    {i : Invocation} (h : Invocation.ofCommand outer kind words = .ok i) :
    i.job.isCompatible = true := by
  obtain ⟨inner, -, hinner⟩ := bind_eq_ok_iff.1 h
  split at hinner
  · cases hinner
  · next hc =>
    split at hinner
    · cases hinner
    · obtain rfl := Except.ok.inj hinner
      exact isCompatible_job (Bool.eq_false_iff.2 hc) kind

/-- **A command line that is accepted is compatible.** -/
theorem isCompatible_of_ofWords {words : List String} {i : Invocation}
    (h : Invocation.ofWords words = .ok i) : i.job.isCompatible = true := by
  unfold Invocation.ofWords at h
  generalize ([] : Given) = outer at h
  induction words generalizing outer with
  | nil => cases h
  | cons text words ih =>
    unfold Invocation.readFrom at h
    split at h
    · exact isCompatible_of_ofCommand h
    · split at h
      · cases h
      · split at h
        · split at h
          · cases h
          · cases h
        · split at h
          · obtain ⟨r, -, hr⟩ := bind_eq_ok_iff.1 h
            exact ih r.given hr
          · cases h

/-! ## Inputs -/

variable {t : Tree} {options : Output.Options} {job : DartJob} {ps : List String} {r : Replacing}
  {path code : String} {place : Place}

/-- One of the paths leads to the place, and the file there converts to the code. -/
def Rewrites (t : Tree) (options : Output.Options) (ps : List String) (place : Place)
    (code : String) : Prop :=
  ∃ path ∈ ps, ∃ text, t.locate path = .ok place ∧ t.node? place = some (.file (.text text)) ∧
    convert options text = .ok code

/-- The path cannot be read, or there is more to say about its file than that it has no union. -/
def fails (t : Tree) (options : Output.Options) (path : String) : Bool :=
  match t.read path with
  | .error _ => true
  | .ok text =>
    match convert options text with
    | .ok _ | .error .noUnion => false
    | .error _ => true

/-- The content of a file says what it is rewritten to. -/
theorem Rewrites.unique {qs : List String} {other : String} (h : Rewrites t options ps place code)
    (h' : Rewrites t options qs place other) : code = other := by
  obtain ⟨-, -, text, -, hnode, hcode⟩ := h
  obtain ⟨-, -, text', -, hnode', hcode'⟩ := h'
  rw [hnode] at hnode'
  obtain rfl : text = text' := Content.text.inj (Node.file.inj (Option.some.inj hnode'))
  rw [hcode] at hcode'
  exact Except.ok.inj hcode'

theorem rewrites_append : Rewrites t options (ps ++ [path]) place code ↔
    Rewrites t options ps place code ∨ Rewrites t options [path] place code := by
  constructor
  · rintro ⟨q, hq, hrest⟩
    rcases List.mem_append.1 hq with hq | hq
    · exact .inl ⟨q, hq, hrest⟩
    · exact .inr ⟨q, hq, hrest⟩
  · rintro (⟨q, hq, hrest⟩ | ⟨q, hq, hrest⟩)
    · exact ⟨q, List.mem_append_left [path] hq, hrest⟩
    · exact ⟨q, List.mem_append_right ps hq, hrest⟩

/-- An input has a result when it rewrites a file; otherwise the outcome says whether it fails. -/
theorem codeOutcome_cases (hm : job.fromModel = false) (t : Tree) (path : String) :
    (∃ place code, t.locate path = .ok place ∧ Rewrites t job.options [path] place code ∧
        codeOutcome t job path = .done code ∧ fails t job.options path = false) ∨
      (∀ place code, ¬ Rewrites t job.options [path] place code) ∧
        (codeOutcome t job path).result? = none ∧
        (codeOutcome t job path).isFailure = fails t job.options path := by
  unfold codeOutcome fails
  cases hread : t.read path with
  | error fault =>
    refine .inr ⟨?_, rfl, rfl⟩
    rintro place code ⟨q, hq, text, hlocate, hnode, -⟩
    rw [List.mem_singleton.1 hq] at hlocate
    rw [read_eq_ok_iff.2 ⟨place, hlocate, hnode⟩] at hread
    cases hread
  | ok text =>
    obtain ⟨place, hlocate, hnode⟩ := read_eq_ok_iff.1 hread
    have hnone : ∀ failure, convert job.options text = .error failure →
        ∀ other code, ¬ Rewrites t job.options [path] other code := by
      rintro failure hconvert other code ⟨q, hq, text', hlocate', hnode', hcode⟩
      rw [List.mem_singleton.1 hq, hlocate] at hlocate'
      obtain rfl : place = other := Except.ok.inj hlocate'
      rw [hnode] at hnode'
      obtain rfl : text = text' := Content.text.inj (Node.file.inj (Option.some.inj hnode'))
      rw [hconvert] at hcode
      cases hcode
    simp only [DartJob.outcomeOf, hm, Bool.false_eq_true, if_false]
    cases hconvert : convert job.options text with
    | ok code =>
      exact .inl ⟨place, code, hlocate, ⟨path, List.mem_singleton_self path, text, hlocate, hnode,
        hconvert⟩, rfl, rfl⟩
    | error failure =>
      refine .inr ⟨hnone failure hconvert, ?_, ?_⟩
      · cases failure <;> rfl
      · cases failure <;> rfl

/-! ## Replacing -/

/-- How far the replacing has come behind the paths, told by the tree that it started from. -/
structure Replaced (t : Tree) (options : Output.Options) (ps : List String) (r : Replacing) :
    Prop where
  shape : SameShape t r.tree
  written : ∀ place code, Rewrites t options ps place code →
    r.tree.node? place = some (.file (.text code))
  kept : ∀ place, (∀ code, ¬ Rewrites t options ps place code) → r.tree.node? place = t.node? place
  failures : r.failures = ps.countP (fails t options)

/-- An input without a result leaves the tree alone. -/
theorem next_of_result?_eq_none {o : Outcome String} (h : o.result? = none) (r : Replacing)
    (path : String) : (r.next (path, o)).tree = r.tree ∧
      (r.next (path, o)).failures = r.failures + (if o.isFailure then 1 else 0) := by
  cases o with
  | done code => cases h
  | noUnion => exact ⟨rfl, rfl⟩
  | failed fault => exact ⟨rfl, rfl⟩

/-- A result is written where the path leads. -/
theorem next_of_done (h : r.tree.locate path = .ok place) (hd : r.tree.isDirectoryAt place = false)
    (code : String) : (r.next (path, .done code)).tree = r.tree.put place (.file (.text code)) ∧
      (r.next (path, .done code)).failures = r.failures := by
  unfold Replacing.next
  simp only [write_file h hd]
  exact ⟨rfl, rfl⟩

/-- **What writing one result does.** -/
theorem Replaced.next (hm : job.fromModel = false) (h : Replaced t job.options ps r)
    (path : String) :
    Replaced t job.options (ps ++ [path]) (r.next (path, codeOutcome t job path)) := by
  have hcount : (ps ++ [path]).countP (fails t job.options) =
      ps.countP (fails t job.options) + (if fails t job.options path then 1 else 0) := by
    rw [List.countP_append, List.countP_singleton]
  rcases codeOutcome_cases hm t path with ⟨place, code, hlocate, hrewrites, ho, hfails⟩ |
    ⟨hnone, hresult, hfails⟩
  · obtain ⟨-, -, text, -, hnode, -⟩ := id hrewrites
    have hd : r.tree.isDirectoryAt place = false := by
      rw [h.shape.directories, isDirectoryAt, hnode]
      rfl
    have hlocate' := hlocate
    rw [← h.shape.locate_eq] at hlocate'
    obtain ⟨htree, hcounted⟩ := next_of_done hlocate' hd code
    have hput := fun other =>
      node?_put r.tree place other (.file (.text code)) (isImplied_of_not_directory hd)
    rw [ho]
    refine ⟨?_, fun other code' hc => ?_, fun other hc => ?_, ?_⟩
    · rw [htree]
      exact h.shape.put hnode
    · rw [htree, hput]
      by_cases hother : other = place
      · rw [if_pos hother]
        -- whatever path led here before, the file converted to the same code
        rw [hother] at hc
        rw [hc.unique hrewrites]
      · rw [if_neg hother]
        rcases rewrites_append.1 hc with hc | ⟨q, hq, text', hlocate', -⟩
        · exact h.written other code' hc
        · rw [List.mem_singleton.1 hq, hlocate] at hlocate'
          exact absurd (Except.ok.inj hlocate').symm hother
    · have hother : other ≠ place := by
        rintro rfl
        exact hc code (rewrites_append.2 (.inr hrewrites))
      rw [htree, hput, if_neg hother]
      exact h.kept other fun code' hc' => hc code' (rewrites_append.2 (.inl hc'))
    · rw [hcounted, h.failures, hcount, hfails]
      rfl
  · obtain ⟨htree, hcounted⟩ := next_of_result?_eq_none hresult r path
    refine ⟨?_, fun other code hc => ?_, fun other hc => ?_, ?_⟩
    · rw [htree]
      exact h.shape
    · rw [htree]
      rcases rewrites_append.1 hc with hc | hc
      · exact h.written other code hc
      · exact absurd hc (hnone other code)
    · rw [htree]
      exact h.kept other fun code hc' => hc code (rewrites_append.2 (.inl hc'))
    · rw [hcounted, h.failures, hcount, hfails]

/-- **What writing all results does.** -/
theorem Replaced.foldl (hm : job.fromModel = false) (h : Replaced t job.options ps r)
    (qs : List String) : Replaced t job.options (ps ++ qs)
      ((qs.map fun path => (path, codeOutcome t job path)).foldl Replacing.next r) := by
  induction qs generalizing ps r with
  | nil => rwa [List.append_nil]
  | cons q qs ih =>
    have hrest := ih (h.next hm q)
    rwa [List.append_assoc] at hrest

/-- Nothing is replaced at first. -/
theorem replaced_nil (t : Tree) (options : Output.Options) :
    Replaced t options [] { tree := t } := by
  refine ⟨SameShape.refl t, ?_, fun _ _ => rfl, rfl⟩
  rintro place code ⟨q, hq, -⟩
  cases hq

/-! ## Runs -/

/-- When one of the inputs cannot be told, none is. -/
theorem resolve_eq_error {names : List String} {name : String} (hname : name ∈ names)
    {fault : ResolveFault} (h : resolveOne t name = .error fault) :
    ∃ first, resolve t names = .error first := by
  unfold resolve
  induction names with
  | nil => cases hname
  | cons other names ih =>
    rw [List.mapM_cons]
    cases hother : resolveOne t other with
    | error first => exact ⟨first, rfl⟩
    | ok paths =>
      rcases List.mem_cons.1 hname with rfl | hname
      · rw [h] at hother
        cases hother
      · obtain ⟨first, hfirst⟩ := ih hname
        cases hrest : names.mapM (resolveOne t) with
        | error first => exact ⟨first, rfl⟩
        | ok rest =>
          rw [hrest] at hfirst
          cases hfirst

/-- The paths of all inputs, in order. -/
theorem resolve_eq_ok {names : List String} {pss : List (List String)}
    (h : names.map (resolveOne t) = pss.map .ok) : resolve t names = .ok pss.flatten := by
  have hmap : names.mapM (resolveOne t) = .ok pss := by
    induction names generalizing pss with
    | nil =>
      obtain rfl := List.map_eq_nil_iff.1 h.symm
      rfl
    | cons name names ih =>
      cases pss with
      | nil => cases h
      | cons ps pss =>
        obtain ⟨hname, hrest⟩ := List.cons.inj h
        rw [List.mapM_cons, hname, ih hrest]
        rfl
  unfold resolve
  rw [hmap]
  rfl

/-- A run that replaces its inputs fails with the number of those that failed. -/
theorem failureOf_message (number : Nat) :
    (failureOf number ≠ none ↔ 0 < number) ∧ ∀ failure, failureOf number = some failure →
      failure.message = toString number ++ " input(s) failed" := by
  unfold failureOf
  by_cases hn : number = 0
  · rw [if_pos hn]
    refine ⟨iff_of_false (fun h => h rfl) (by omega), fun failure hf => ?_⟩
    cases hf
  · rw [if_neg hn]
    refine ⟨iff_of_true (Option.some_ne_none _) (by omega), fun failure hf => ?_⟩
    rw [← Option.some.inj hf]
    rfl

/-- **The run of a command line that replaces its inputs.** When some input cannot be told, the run
fails and the tree is as before. Otherwise the files that are named and convert are rewritten, all
other places are as before, and the run fails exactly when some input does, with the number of those
that do. -/
theorem run_inPlace {words : List String} {i : Invocation} (h : Invocation.ofWords words = .ok i)
    (hj : i.job = .dart job) (hp : job.inPlace = true) (hn : job.noOp = false) (t : Tree) :
    (∀ name ∈ job.inputs, ∀ fault, resolveOne t name = .error fault →
      (i.run t).tree = t ∧ ∃ first, (i.run t).failure = some (.unresolved first)) ∧
    ∀ pss : List (List String), job.inputs.map (resolveOne t) = pss.map .ok →
      (∀ place code, Rewrites t job.options pss.flatten place code →
        (i.run t).tree.node? place = some (.file (.text code))) ∧
      (∀ place, (∀ code, ¬ Rewrites t job.options pss.flatten place code) →
        (i.run t).tree.node? place = t.node? place) ∧
      ((i.run t).failure ≠ none ↔ ∃ path ∈ pss.flatten, fails t job.options path = true) ∧
      ∀ failure, (i.run t).failure = some failure → failure.message =
        toString (pss.flatten.countP (fails t job.options)) ++ " input(s) failed" := by
  have hcompatible := isCompatible_of_ofWords h
  rw [hj, Job.isCompatible, hp, Bool.not_true, Bool.false_or, Bool.and_eq_true,
    Option.isNone_iff_eq_none, Bool.not_eq_true'] at hcompatible
  obtain ⟨hout, hm⟩ := hcompatible
  have hrun : i.run t = job.run t := by
    unfold Invocation.run
    rw [hj, Job.noOp, hn]
    rfl
  rw [hrun]
  unfold DartJob.run sources
  refine ⟨fun name hname fault hfault => ?_, fun pss hpss => ?_⟩
  · obtain ⟨first, hfirst⟩ := resolve_eq_error hname hfault
    rw [hfirst]
    exact ⟨rfl, first, rfl⟩
  · rw [resolve_eq_ok hpss, hout]
    simp only [Option.isSome_none, Bool.false_and, Bool.false_eq_true, if_false, hp, if_true]
    have hreplaced := (replaced_nil t job.options).foldl hm pss.flatten
    rw [List.nil_append] at hreplaced
    obtain ⟨hfails, hmessage⟩ := failureOf_message (pss.flatten.countP (fails t job.options))
    unfold replaceInputs
    simp only [hreplaced.failures]
    exact ⟨hreplaced.written, hreplaced.kept, hfails.trans List.countP_pos_iff, hmessage⟩

/-- One file that is named twice, and another one that is missing. -/
theorem run_inPlace_twice : ∃ i t code,
    Invocation.ofWords ["dart", "--in-place", "-i", "./a.dart", "*.dart", "b.dart"] = .ok i ∧
      t = ⟨[(["a.dart"], .file (.text "class A \x7b factory A.b() = B; \x7d"))]⟩ ∧
      convert {} "class A \x7b factory A.b() = B; \x7d" = .ok code ∧
      (i.run t).tree.node? ["a.dart"] = some (.file (.text code)) ∧
      (i.run t).failure.map RunFailure.message = some "1 input(s) failed" := by
  have hok : ∀ {α β : Type} {x : Except α β} {b : β}, x.toOption = some b → x = .ok b := by
    intro α β x b hx
    cases x with
    | error a => cases hx
    | ok c => exact congrArg Except.ok (Option.some.inj hx)
  obtain ⟨t, ht⟩ : ∃ t : Tree,
      t = ⟨[(["a.dart"], .file (.text "class A \x7b factory A.b() = B; \x7d"))]⟩ := ⟨_, rfl⟩
  obtain ⟨code, hcode⟩ : ∃ code, convert {} "class A \x7b factory A.b() = B; \x7d" = .ok code := by
    have hsource : Declaration.ofSource "class A \x7b factory A.b() = B; \x7d" =
        .ok ⟨"A", [⟨"B", "b", []⟩]⟩ := hok (by decide +kernel)
    unfold convert
    rw [hsource]
    exact ⟨_, rfl⟩
  have hresolved : ["./a.dart", "*.dart", "b.dart"].map (resolveOne t) =
      [["./a.dart"], ["a.dart"], ["b.dart"]].map .ok := by
    rw [ht]
    simp only [List.map_cons, List.map_nil]
    rw [hok (by decide +kernel : (resolveOne _ "./a.dart").toOption = some ["./a.dart"]),
      hok (by decide +kernel : (resolveOne _ "*.dart").toOption = some ["a.dart"]),
      hok (by decide +kernel : (resolveOne _ "b.dart").toOption = some ["b.dart"])]
  have hwords : Invocation.ofWords ["dart", "--in-place", "-i", "./a.dart", "*.dart", "b.dart"] =
      .ok ⟨0, .dart { inputs := ["./a.dart", "*.dart", "b.dart"], inPlace := true }⟩ := rfl
  obtain ⟨-, hrun⟩ := run_inPlace hwords rfl rfl rfl t
  obtain ⟨hwritten, -, hfails, hmessage⟩ := hrun _ hresolved
  have hlocate : t.locate "./a.dart" = .ok ["a.dart"] := by
    rw [ht]
    exact hok (by decide +kernel)
  have hcount : [["./a.dart"], ["a.dart"], ["b.dart"]].flatten.countP (fails t {}) = 1 := by
    rw [ht]
    decide +kernel
  refine ⟨_, t, code, hwords, ht, hcode, hwritten _ code ⟨"./a.dart", List.mem_cons_self, _, hlocate,
    ?_, hcode⟩, ?_⟩
  · rw [ht]
    rfl
  · have hsome : ∃ path ∈ [["./a.dart"], ["a.dart"], ["b.dart"]].flatten, fails t {} path = true :=
      List.countP_pos_iff.1 (by rw [hcount]; decide)
    obtain ⟨failure, hfailure⟩ := Option.ne_none_iff_exists'.1 (hfails.2 hsome)
    have hnumber := hmessage failure hfailure
    rw [hcount] at hnumber
    rw [hfailure, Option.map_some, hnumber]
    rfl

end DartUnion.Command
