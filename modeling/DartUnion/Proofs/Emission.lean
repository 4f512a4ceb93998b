import DartUnion.Output.Code
import Mathlib.Data.List.Infix

/-!
# Unions written into one buffer

`Codegen::emit` writes the code of a union piece by piece into a buffer that may hold the code of
others already. No piece reads the buffer, and each is put behind what is there: a text that depends
on the union and the options alone. So the buffer holds the codes of the unions one behind the other,
and a union without cases leaves no trace.

* `Writes w ls`: whatever the buffer holds, `w` puts the lines behind it.
* `emitEach`: unions written one after the other, with what the buffer holds after each.

Results:
* `writes_putSealed`, `writes_putExtension`, `writes_putClass`: what each section writes are its lines.
* `run_putUnion`: a union without cases fails and leaves the buffer, any other puts its code behind it.
* `emit_eq`: what a buffer holds in the end is the code behind what it held.
* `emitEach_eq`: **the buffer after each union holds the codes of those with cases, in order.**
-/

namespace DartUnion.Output

/-! ## What a piece writes -/

/-- Whatever the buffer holds, the text is put behind it. -/
def Appends (w : Writer) (text : String) : Prop :=
  ∀ buffer, w.run buffer = ((), buffer ++ text)

/-- Whatever the buffer holds, the lines are put behind it. -/
def Writes (w : Writer) (ls : List Line) : Prop := Appends w (render ls)

theorem render_nil : render [] = "" := rfl

theorem render_cons (l : Line) (ls : List Line) : render (l :: ls) = l.render ++ render ls := by
  rw [render, render, List.map_cons, String.join_cons]

section

variable {v w : Writer} {s t : String}

theorem appends_nothing : Appends (pure ()) "" := by
  intro buffer
  rw [String.append_empty]
  rfl

theorem appends_put (text : String) : Appends (put text) text := fun _ => rfl

/-- Of two pieces the second is put behind the first. -/
theorem Appends.seq (hv : Appends v s) (hw : Appends w t) : Appends (v >>= fun _ => w) (s ++ t) := by
  intro buffer
  rw [StateT.run_bind, hv buffer]
  show w.run (buffer ++ s) = _
  rw [hw (buffer ++ s), String.append_assoc]

/-- A loop puts what each round writes one behind the other. -/
theorem appends_forM {α : Type} {f : α → Writer} {g : α → String} (xs : List α)
    (h : ∀ x, Appends (f x) (g x)) : Appends (xs.forM f) (String.join (xs.map g)) := by
  induction xs with
  | nil => exact appends_nothing
  | cons x xs ih =>
    rw [List.map_cons, String.join_cons]
    exact (h x).seq ih

theorem appends_putLine (depth : Nat) (text : String) :
    Appends (putLine depth text) (Line.render ⟨depth, text⟩) := by
  have hspaces : Appends ((List.replicate depth "  ").forM put)
      (String.join (List.replicate depth "  ")) := by
    have := appends_forM (List.replicate depth "  ") appends_put
    rwa [List.map_id'] at this
  have := hspaces.seq ((appends_put text).seq (appends_put "\n"))
  rwa [← String.append_assoc] at this

end

/-! ## What sections write -/

section

variable {v w : Writer} {ls ms : List Line}

theorem writes_nothing : Writes (pure ()) [] := appends_nothing

theorem Writes.seq (hv : Writes v ls) (hw : Writes w ms) :
    Writes (v >>= fun _ => w) (ls ++ ms) := by
  unfold Writes
  rw [render_append]
  exact Appends.seq hv hw

theorem writes_putLine (depth : Nat) (text : String) : Writes (putLine depth text) [⟨depth, text⟩] := by
  unfold Writes
  rw [render_cons, render_nil, String.append_empty]
  exact appends_putLine depth text

theorem writes_putBlank : Writes putBlank [.blank] := appends_put "\n"

/-- A line in front of others. -/
theorem Writes.line (hw : Writes w ls) (depth : Nat) (text : String) :
    Writes (putLine depth text >>= fun _ => w) (⟨depth, text⟩ :: ls) :=
  (writes_putLine depth text).seq hw

/-- An empty line in front of others. -/
theorem Writes.blank (hw : Writes w ls) : Writes (putBlank >>= fun _ => w) (.blank :: ls) :=
  writes_putBlank.seq hw

theorem writes_forM {α : Type} {f : α → Writer} {g : α → List Line} {xs : List α}
    (h : ∀ x ∈ xs, Writes (f x) (g x)) : Writes (xs.forM f) (xs.flatMap g) := by
  induction xs with
  | nil => exact writes_nothing
  | cons x xs ih =>
    rw [List.flatMap_cons]
    exact (h x List.mem_cons_self).seq (ih fun y hy => h y (List.mem_cons_of_mem x hy))

/-- A loop over what gives a line each. -/
theorem writes_forM_line {α : Type} (depth : α → Nat) (text : α → String) (xs : List α) :
    Writes (xs.forM fun x => putLine (depth x) (text x)) (xs.map fun x => ⟨depth x, text x⟩) := by
  rw [List.map_eq_flatMap]
  exact writes_forM fun x _ => writes_putLine (depth x) (text x)

end

section

variable (o : Options) (d : Declaration)

theorem writes_putImport : Writes (putImport o) (importLines o) := by
  unfold putImport importLines
  split
  · exact writes_putBlank.line 0 _
  · exact writes_nothing

/-- The end of a `switch` and of its method. -/
theorem writes_closing :
    Writes (do putLine 2 "\x7d;"; putLine 1 "\x7d") [⟨2, "\x7d;"⟩, ⟨1, "\x7d"⟩] :=
  (writes_putLine 1 "\x7d").line 2 _

/-- The arms of the look-up, which the unit cases are searched for first. -/
theorem writes_lookUpArms : Writes
    (d.unitVariants.forM fun v => (lookUpArm? d.name v).toList.forM fun a => putLine 3 a.text)
    ((d.variants.filterMap (lookUpArm? d.name)).map fun a => ⟨3, a.text⟩) := by
  rw [filterMap_lookUpArm?, List.map_map, List.map_eq_flatMap]
  refine writes_forM fun v hv => ?_
  rw [lookUpArm?, if_pos (List.mem_filter.1 hv).2]
  exact writes_forM_line (fun _ => 3) Arm.text [_]

theorem writes_putLookUp : Writes (putLookUp o d) (lookUpLines o d) := by
  have harms := (writes_lookUpArms d).seq (writes_closing.line 3 (Arm.mk .wildcard (fallbackBody o d)).text)
  unfold putLookUp lookUpLines lookUpArms
  split
  · rw [List.map_append, List.append_assoc, List.append_assoc]
    exact ((harms.line 2 _).line 1 _).blank
  · exact writes_nothing

theorem writes_putText : Writes (putText d) (textLines d) := by
  have harms := (writes_forM_line (fun _ => 3) (fun v => (textArm "value" v).text) d.variants).seq
    writes_closing
  unfold putText textLines textArms
  rw [List.map_map, List.append_assoc]
  exact ((harms.line 2 _).line 1 _).line 1 _

theorem writes_putSealed : Writes (putSealed o d) (sealedLines o d) := by
  have htext := ((writes_putText d).seq (writes_putLine 0 "\x7d")).blank
  have hbody := (writes_forM_line (fun _ => 1) (redirect d.name) d.variants).seq
    ((writes_putLookUp o d).seq htext)
  unfold putSealed sealedLines
  simp only [List.append_assoc]
  exact (hbody.blank.line 1 _).line 0 _

end

/-- A loop that writes an empty line in front of every round but the first. -/
theorem writes_separated {α : Type} {f : α → Writer} {g : α → List Line}
    (h : ∀ x, Writes (f x) (g x)) (xs : List α) :
    Writes (xs.zipIdx.forM fun x => do (if x.2 = 0 then pure () else putBlank); f x.1)
      ([Line.blank].intercalate (xs.map g)) := by
  have hlater : ∀ (xs : List α) (k : Nat),
      Writes ((xs.zipIdx (k + 1)).forM fun x => do (if x.2 = 0 then pure () else putBlank); f x.1)
        (xs.flatMap fun x => .blank :: g x) := by
    intro xs
    induction xs with
    | nil => exact fun _ => writes_nothing
    | cons x xs ih =>
      intro k
      rw [List.zipIdx_cons, List.flatMap_cons]
      exact (h x).blank.seq (ih (k + 1))
  have hlines : ∀ (m : List Line) (ms : List (List Line)),
      [Line.blank].intercalate (m :: ms) = m ++ ms.flatMap (Line.blank :: ·) := by
    intro m ms
    induction ms generalizing m with
    | nil => rw [List.intercalate_singleton, List.flatMap_nil, List.append_nil]
    | cons n ms ih =>
      rw [List.intercalate_cons_cons, ih, List.flatMap_cons]
      simp only [List.append_assoc, List.cons_append, List.nil_append]
  cases xs with
  | nil => exact writes_nothing
  | cons x xs =>
    rw [List.zipIdx_cons, List.map_cons, hlines, List.flatMap_map]
    exact (writes_nothing.seq (h x)).seq (hlater xs 0)

section

variable (o : Options) (d : Declaration)

theorem writes_putExtension : Writes (putExtension o d) (extensionLines o d) := by
  have hhelper : ∀ f : Family, Writes
      ((f.method d.variants (bindingName d)).lines.forM fun l => putLine (l.depth + 1) l.text)
      ((f.method d.variants (bindingName d)).lines.map Line.deeper) := fun f =>
    writes_forM_line (fun l : Line => l.depth + 1) Line.text (f.method d.variants (bindingName d)).lines
  have hhelpers := (writes_separated hhelper Family.all).seq (writes_putLine 0 "\x7d")
  unfold putExtension extensionLines helperLines
  rw [List.append_assoc]
  exact hhelpers.line 0 _

theorem writes_putClass (union : String) (v : Variant) :
    Writes (putClass union v) (.blank :: classLines union v) := by
  have hlines := writes_forM_line Line.depth Line.text (classLines union v)
  rw [List.map_id'] at hlines
  exact hlines.blank

/-! ## Whole unions -/

/-- **A union without cases** fails and leaves the buffer as it is; the code of any other is put
behind what the buffer holds. -/
theorem run_putUnion (buffer : String) : (putUnion o d).run.run buffer =
    if d.variants = [] then (.error (.emptyUnion d.name), buffer)
    else (.ok (), buffer ++ render (codeLines o d)) := by
  unfold putUnion
  by_cases hd : d.variants = []
  · rw [hd, List.isEmpty_nil, if_pos rfl, if_pos rfl]
    rfl
  · have hcode : Writes (do
        putImport o; putSealed o d; putBlank; putExtension o d; d.variants.forM (putClass d.name))
        (codeLines o d) := by
      unfold codeLines
      simp only [List.append_assoc]
      exact (writes_putImport o).seq ((writes_putSealed o d).seq
        (((writes_putExtension o d).seq (writes_forM fun v _ => writes_putClass d.name v)).blank))
    rw [List.isEmpty_eq_false_iff.2 hd, if_neg Bool.false_ne_true, if_neg hd, ExceptT.run_lift]
    show (Except.ok <$> _ : StateM String _).run buffer = _
    rw [StateT.run_map, hcode buffer]
    rfl

/-- A union has code when it has cases. -/
theorem toOption_code : (d.code o).toOption =
    if d.variants = [] then none else some (render (codeLines o d)) := by
  unfold Declaration.code
  by_cases hd : d.variants = []
  · rw [hd]
    rfl
  · rw [List.isEmpty_eq_false_iff.2 hd, if_neg Bool.false_ne_true, if_neg hd]
    rfl

/-- What the buffer holds in the end is the code behind what it held. -/
theorem emit_eq (buffer : String) : emit o buffer d = (d.code o).map (buffer ++ ·) := by
  unfold emit Declaration.code
  rw [run_putUnion]
  by_cases hd : d.variants = []
  · rw [hd]
    rfl
  · rw [List.isEmpty_eq_false_iff.2 hd, if_neg Bool.false_ne_true, if_neg hd]
    rfl

end

/-! ## Unions one after the other -/

/-- Unions written into one buffer, one after the other: how each went, and what the buffer held
then. -/
def emitEach (o : Options) (buffer : String) : List Declaration → List (Except Failure Unit × String)
  | [] => []
  | d :: ds =>
    let step := (putUnion o d).run.run buffer
    step :: emitEach o step.2 ds

/-- The codes of the unions that have one, one behind the other. -/
def codes (o : Options) (ds : List Declaration) : String :=
  String.join (ds.filterMap fun d => (d.code o).toOption)

section

variable {o : Options} {d : Declaration} {ds : List Declaration} {buffer : String}

theorem codes_nil : codes o [] = "" := rfl

theorem codes_cons_of_empty (hd : d.variants = []) : codes o (d :: ds) = codes o ds := by
  rw [codes, List.filterMap_cons_none (by rw [toOption_code, if_pos hd])]
  rfl

theorem codes_cons_of_nonempty (hd : d.variants ≠ []) :
    codes o (d :: ds) = render (codeLines o d) ++ codes o ds := by
  rw [codes, List.filterMap_cons_some (by rw [toOption_code, if_neg hd]), String.join_cons]
  rfl

theorem emitEach_cons_of_empty (hd : d.variants = []) : emitEach o buffer (d :: ds) =
    (.error (.emptyUnion d.name), buffer) :: emitEach o buffer ds := by
  rw [emitEach, run_putUnion, if_pos hd]

theorem emitEach_cons_of_nonempty (hd : d.variants ≠ []) : emitEach o buffer (d :: ds) =
    (.ok (), buffer ++ render (codeLines o d)) :: emitEach o (buffer ++ render (codeLines o d)) ds := by
  rw [emitEach, run_putUnion, if_neg hd]

/-- A union fails exactly when it has no cases. -/
theorem results_emitEach : (emitEach o buffer ds).map Prod.fst =
    ds.map fun d => if d.variants = [] then .error (.emptyUnion d.name) else .ok () := by
  induction ds generalizing buffer with
  | nil => rfl
  | cons d ds ih =>
    by_cases hd : d.variants = []
    · rw [emitEach_cons_of_empty hd, List.map_cons, List.map_cons, ih, if_pos hd]
    · rw [emitEach_cons_of_nonempty hd, List.map_cons, List.map_cons, ih, if_neg hd]

/-- After each step the codes so far stand behind what the buffer held at first. -/
theorem buffers_emitEach : (emitEach o buffer ds).map Prod.snd =
    ds.inits.tail.map fun done => buffer ++ codes o done := by
  induction ds generalizing buffer with
  | nil => rfl
  | cons d ds ih =>
    have hinits : (d :: ds).inits.tail = [d] :: ds.inits.tail.map (d :: ·) := by
      cases ds with
      | nil => rfl
      | cons e es => rfl
    rw [hinits, List.map_cons, List.map_map]
    by_cases hd : d.variants = []
    · rw [emitEach_cons_of_empty hd, List.map_cons, ih, codes_cons_of_empty hd, codes_nil,
        String.append_empty]
      refine congrArg _ (List.map_congr_left fun done _ => ?_)
      rw [Function.comp_apply, codes_cons_of_empty hd]
    · rw [emitEach_cons_of_nonempty hd, List.map_cons, ih, codes_cons_of_nonempty hd, codes_nil,
        String.append_empty]
      refine congrArg _ (List.map_congr_left fun done _ => ?_)
      rw [Function.comp_apply, codes_cons_of_nonempty hd, String.append_assoc]

/-- The steps that do not fail are those of the unions with cases alone. -/
theorem filter_emitEach : (emitEach o buffer ds).filter (·.1.isOk) =
    emitEach o buffer (ds.filter fun d => d.variants ≠ []) := by
  induction ds generalizing buffer with
  | nil => rfl
  | cons d ds ih =>
    by_cases hd : d.variants = []
    · rw [emitEach_cons_of_empty hd, List.filter_cons_of_neg (by exact Bool.false_ne_true), ih,
        List.filter_cons_of_neg (by simpa using hd)]
    · rw [emitEach_cons_of_nonempty hd, List.filter_cons_of_pos rfl, ih,
        List.filter_cons_of_pos (by simpa using hd), emitEach_cons_of_nonempty hd]

end

/-- **Unions written one after the other.** A union fails exactly when it has no cases, by its name.
After each step the buffer holds what it held at first and behind it the codes of the unions so far
that have cases, and these are the ones that have a code. What the others leave is as if the unions
that fail were not there. -/
theorem emitEach_eq (o : Options) (buffer : String) (ds : List Declaration) :
    (emitEach o buffer ds).map Prod.fst =
      ds.map (fun d => if d.variants = [] then .error (.emptyUnion d.name) else .ok ()) ∧
    (emitEach o buffer ds).map Prod.snd = ds.inits.tail.map (fun done => buffer ++ codes o done) ∧
    (∀ d : Declaration, (∃ text, d.code o = .ok text) ↔ d.variants ≠ []) ∧
    (emitEach o buffer ds).filter (·.1.isOk) =
      emitEach o buffer (ds.filter fun d => d.variants ≠ []) := by
  refine ⟨results_emitEach, buffers_emitEach, fun d => ?_, filter_emitEach⟩
  unfold Declaration.code
  by_cases hd : d.variants = []
  · rw [hd]
    exact iff_of_false (fun ⟨_, h⟩ => by cases h) fun h => h rfl
  · rw [List.isEmpty_eq_false_iff.2 hd, if_neg Bool.false_ne_true]
    exact iff_of_true ⟨_, rfl⟩ hd

end DartUnion.Output
