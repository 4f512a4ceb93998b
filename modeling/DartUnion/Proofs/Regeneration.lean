import DartUnion.Proofs.GeneratedText
import DartUnion.Proofs.Recovery

/-!
# Generated code reads back as its union

The factories of the sealed class are the only statements of the generated code that redirect
anywhere, and they stand in the order of the variants. So reading the code gives the union back,
with the parameters of each variant group by group and without defaults.

* `writtenAs_redirect`: a generated factory writes its regrouped variant.
* `yields_redirects`: the factories yield the regrouped variants.
* `union?_code`: **the union of generated code is the regrouped declaration.**
* `ofSource_code`: **generated code reads back.**
-/

namespace DartUnion

open Text Dart Source Output

namespace Output

/-! ## Factories -/

theorem wellFormed_regrouped {v : Variant} (hv : v.WellFormed IsCarriedDefault) :
    v.regrouped.WellFormed IsDefaultText := by
  refine ⟨hv.typeName, hv.label, fun p hp => ?_⟩
  obtain ⟨q, hq, rfl⟩ := List.mem_map.1 hp
  have hwell := hv.parameters q ((perm_inGroup v.parameters).mem_iff.1 hq)
  exact ⟨hwell.name, hwell.type, fun d hd => by cases hd⟩

/-- **A generated factory writes its regrouped variant.** -/
theorem writtenAs_redirect (union : String) (v : Variant) {gap : List Char} (hg : IsGap gap) :
    ∃ s, v.regrouped.WrittenAs union (gap ++ s) ∧ (redirect union v).toList = s ++ [';'] := by
  have hspace : IsSpace " ".toList := by decide
  have hhead := @HeadWritten.mk union v.label " ".toList [] [] [] hspace isGap_nil isGap_nil isGap_nil
  have hredirection := @RedirectionWritten.mk v.typeName [] " ".toList [] [] .absent hspace.1 .absent
    isGap_nil
  have hwritten := @Variant.WrittenAs.mk union v.regrouped gap _ _ _ " ".toList _ hg
    (.present (.mk hspace)) hhead (listWritten_parameterList v.parameters) hspace.1 hredirection
  rw [List.append_assoc] at hwritten
  refine ⟨_, hwritten, ?_⟩
  unfold redirect
  simp only [String.toList_append, List.append_assoc, List.cons_append, List.nil_append,
    List.append_nil]
  rfl

theorem opening_gap {gap : List Char} (hg : IsGap gap) : Opening (oneLine gap) := by
  have hempty : Opening [] := ⟨trivial, rfl⟩
  exact hempty.gap (isGap_oneLine hg)

/-- The factories yield the regrouped variants. -/
theorem yields_redirects {union : String} (hu : identifier.accepts union.toList = true)
    {vs : List Variant} (hv : ∀ v ∈ vs, v.WellFormed IsCarriedDefault) {front : List Char}
    (hf : IsGap front) (depth : Nat) :
    '/' ∉ linesText (vs.map fun v => ⟨depth, redirect union v⟩) ∧ ∃ back, IsGap back ∧
      Yields front (linesText (vs.map fun v => ⟨depth, redirect union v⟩))
        (vs.map Variant.regrouped) back := by
  induction vs generalizing front with
  | nil => exact ⟨List.not_mem_nil, front, hf, fun _ => rfl⟩
  | cons v vs ih =>
    have hwell := wellFormed_regrouped (hv v List.mem_cons_self)
    obtain ⟨gap, hg, hline⟩ := toList_render ⟨depth, redirect union v⟩
    obtain ⟨s, hs, htext⟩ := writtenAs_redirect union v hg
    have hend : IsGap ['\n'] := by decide
    obtain ⟨hslash, back, hback, hrest⟩ := ih (fun w hw => hv w (List.mem_cons_of_mem v hw)) hend
    have hyields := yields_written hu hwell (opening_gap hf) (hf.not_mem rfl) hs
    have hchars : linesText ((v :: vs).map fun v => ⟨depth, redirect union v⟩) =
        gap ++ s ++ [';'] ++ ['\n'] ++ linesText (vs.map fun v => ⟨depth, redirect union v⟩) := by
      rw [List.map_cons, linesText_cons, hline]
      show gap ++ ((redirect union v).toList ++ ['\n']) ++ _ = _
      rw [htext]
      simp only [List.append_assoc]
    rw [hchars]
    refine ⟨?_, back, hback, (hyields.append (yields_open [] ['\n'])).append hrest⟩
    simp only [List.mem_append, not_or]
    have hplain := plain_variant hu hwell hs
    exact ⟨⟨⟨⟨fun hc => (hplain _ (List.mem_append_left _ hc)).2 rfl,
      fun hc => (hplain _ (List.mem_append_right _ hc)).2 rfl⟩, by decide⟩, by decide⟩, hslash⟩

/-! ## The header -/

/-- The import in front, if it is there, leaves a gap open. -/
theorem yields_import (o : Options) :
    ∃ back, IsGap back ∧ Yields [] (linesText (importLines o)) [] back := by
  unfold importLines
  split
  · have hchars : linesText [⟨0, "import 'package:equatable/equatable.dart';"⟩, .blank] =
        "import 'package:equatable/equatable.dart'".toList ++ [';'] ++ "\n\n".toList := by
      decide +kernel
    have hclosed : Yields [] ("import 'package:equatable/equatable.dart'".toList ++ [';']) [] [] :=
      yields_silent (by decide) (silent_of_not_mem (by decide))
    rw [hchars]
    exact ⟨"\n\n".toList, by decide, hclosed.append (yields_open [] _)⟩
  · exact ⟨[], isGap_nil, fun _ => rfl⟩

/-- The head of the sealed class. -/
def headLines (union : String) : List Line :=
  [⟨0, "sealed class " ++ union ++ " extends Equatable \x7b"⟩] ++
    [⟨1, "const " ++ union ++ "()" ++ ";"⟩] ++ [.blank]

/-- The head of the sealed class leaves a gap open. -/
theorem yields_head {union : String} (hu : identifier.accepts union.toList = true)
    {front : List Char} (hf : IsGap front) :
    '/' ∉ linesText (headLines union) ∧
      ∃ back, IsGap back ∧ Yields front (linesText (headLines union)) [] back := by
  have hname := calm_of_accepts hu
  have hheader : Calm ("sealed class " ++ union ++ " extends Equatable \x7b").toList :=
    calm_additive.text (calm_additive.text (by decide) hname) (by decide)
  have hconstructor : Calm ("const " ++ union ++ "()").toList :=
    calm_additive.text (calm_additive.text (by decide) hname) (by decide)
  have hlines : ∀ l ∈ [(⟨0, "sealed class " ++ union ++ " extends Equatable \x7b"⟩ : Line)],
      Calm l.text.toList := by
    intro l hl
    rw [List.mem_singleton.1 hl]
    exact hheader
  obtain ⟨hslash, hyields⟩ := yields_closed_line (fun l hl => (hlines l hl).1) hconstructor.1 1
  have hblank : linesText [Line.blank] = ['\n'] := by decide +kernel
  refine ⟨?_, ['\n'] ++ ['\n'], by decide, ?_⟩
  · rw [headLines, linesText_append, hblank, List.mem_append, not_or]
    exact ⟨hslash, by decide⟩
  · rw [headLines, linesText_append, hblank]
    refine (hyields front (calm_of_isGap hf) fun gap hg => silent_of_not_mem ?_).append
      (yields_open ['\n'] ['\n'])
    have hopen := calm_additive.lines (fun _ => calm_of_isGap) hlines
    exact (calm_additive.append (calm_of_isGap hf) (calm_additive.append hopen
      (calm_additive.append (calm_of_isGap hg) hconstructor))).2

theorem passes_import (o : Options) : Passes 'c' none (linesText (importLines o)) := by
  unfold importLines
  split
  · have hchars : linesText [⟨0, "import 'package:equatable/equatable.dart';"⟩, .blank] =
        "import 'p".toList ++ 'a' :: 'c' :: "kage:equatable/equatable.dart';\n\n".toList := by
      decide +kernel
    rw [hchars]
    refine passes_append (passes_of_not_mem (by decide) _) ⟨fun h => absurd h (by decide), ?_⟩
    refine ⟨fun _ => ?_, passes_of_not_mem (by decide) _⟩
    rw [noWordChar, Option.any_some, isWordChar_of_isAlphanum rfl]
    rfl
  · trivial

/-- The name of the sealed class is found behind the import. -/
theorem findUnionName?_code {union : String} (hu : unionName.accepts union.toList = true)
    (o : Options) (s : List Char) :
    findUnionName? none (linesText (importLines o) ++ (linesText (headLines union) ++ s)) =
      some union.toList := by
  obtain ⟨gap, hg, hline⟩ := toList_render ⟨0, "sealed class " ++ union ++ " extends Equatable \x7b"⟩
  have hchars : ∃ t, linesText (importLines o) ++ (linesText (headLines union) ++ s) =
      linesText (importLines o) ++ gap ++ "sealed ".toList ++
        ("class".toList ++ (" ".toList ++ (union.toList ++ ' ' :: t))) := by
    rw [headLines, List.append_assoc, linesText_append, linesText_cons, hline]
    simp only [String.toList_append, List.append_assoc]
    exact ⟨_, rfl⟩
  have hpasses : Passes 'c' none (linesText (importLines o) ++ gap ++ "sealed ".toList) :=
    passes_append (passes_append (passes_import o) (passes_of_not_mem (hg.not_mem rfl) _))
      (passes_of_not_mem (by decide) _)
  have hlast : noWordChar ((linesText (importLines o) ++ gap ++ "sealed ".toList).getLast?.or none) =
      true := by
    have hblank : isBlank ' ' = true := by decide
    rw [getLast?_append_of_ne_nil _ (by decide), Option.or_none]
    show noWordChar (some ' ') = true
    rw [noWordChar, Option.any_some, isWordChar_of_isBlank hblank]
    rfl
  obtain ⟨t, ht⟩ := hchars
  rw [ht, findUnionName?_passes hpasses]
  refine findUnionName?_header hlast (by decide) hu fun c hc => ?_
  obtain rfl : ' ' = c := Option.some.inj hc
  rfl

/-! ## The code -/

/-- What follows the factories of the sealed class. -/
def restLines (o : Options) (d : Declaration) : List Line :=
  lookUpLines o d ++ ([.blank] ++ (textLines d ++ ([⟨0, "\x7d"⟩, .blank] ++
    (extensionLines o d ++ d.variants.flatMap fun v => .blank :: classLines d.name v))))

theorem codeLines_eq (o : Options) (d : Declaration) :
    codeLines o d = importLines o ++ (headLines d.name ++
      ((d.variants.map fun v => ⟨1, redirect d.name v⟩) ++ restLines o d)) := by
  have hconstructor : "const " ++ d.name ++ "();" = "const " ++ d.name ++ "()" ++ ";" :=
    append_semicolon _ "()"
  unfold codeLines sealedLines restLines headLines
  rw [hconstructor]
  simp only [List.append_assoc, List.cons_append, List.nil_append]

/-- Nothing but the factories yields variants. -/
theorem idle_rest {d : Declaration} (hd : d.WellFormed IsCarriedDefault) {o : Options}
    (ho : Plain o.helperSuffix.toList) : Idle (restLines o d) :=
  (idle_lookUp hd o).append <| (idle_of_calm (by decide)).append <| (idle_text hd).append <|
    (idle_of_calm (by decide)).append <| (idle_extension hd ho).append <|
      idle_flatMap fun _ hv => idle_class hd hv

/-- Only the import holds a slash, and no comment starts there. -/
theorem unmarked_code (o : Options) {s : List Char} (hs : '/' ∉ s) :
    Unmarked (linesText (importLines o) ++ s) := by
  unfold importLines
  split
  · have hchars : linesText [⟨0, "import 'package:equatable/equatable.dart';"⟩, .blank] =
        "import 'package:equatable".toList ++ '/' :: 'e' :: "quatable.dart';\n\n".toList := by
      decide +kernel
    rw [hchars, List.append_assoc, List.cons_append, List.cons_append]
    refine unmarked_of_single (by decide) ?_ (by decide)
    rw [← List.cons_append, List.mem_append, not_or]
    exact ⟨by decide, hs⟩
  · exact unmarked_of_not_mem hs

/-- **The union of generated code is the regrouped declaration.** -/
theorem union?_code {d : Declaration} (hd : d.WellFormed IsCarriedDefault) {o : Options}
    (ho : Plain o.helperSuffix.toList) :
    union? (stripComments (linesText (codeLines o d))) = some d.regrouped := by
  have hu := identifier_of_unionName hd.name
  obtain ⟨import', himport, hyields₁⟩ := yields_import o
  obtain ⟨hslash₂, head, hhead, hyields₂⟩ := yields_head hu himport
  obtain ⟨hslash₃, factories, hfactories, hyields₃⟩ := yields_redirects hu hd.variants hhead 1
  obtain ⟨hslash₄, hsilent⟩ := idle_rest hd ho
  obtain ⟨rest, hrest, hyields₄⟩ := hsilent factories (calm_of_isGap hfactories)
  have hall := hyields₁.append (hyields₂.append (hyields₃.append hyields₄))
  have hvariants : variants (linesText (codeLines o d)) = d.variants.map Variant.regrouped := by
    have hopen : variantsBehind rest [] = [] := variantsBehind_open fun hc => by
      rw [List.append_nil] at hc
      exact (hrest.1 _ hc).1 rfl
    have := hall []
    rw [hopen] at this
    rw [variants_eq, codeLines_eq, linesText_append, linesText_append, linesText_append]
    simpa only [List.append_nil, List.nil_append] using this
  have hunmarked : Unmarked (linesText (codeLines o d)) := by
    rw [codeLines_eq, linesText_append]
    refine unmarked_code o ?_
    rw [linesText_append, linesText_append, List.mem_append, List.mem_append, not_or, not_or]
    exact ⟨hslash₂, hslash₃, hslash₄⟩
  rw [stripComments_of_unmarked hunmarked, union?, hvariants, codeLines_eq, linesText_append,
    linesText_append, findUnionName?_code hd.name, Option.map_some, String.ofList_toList]
  rfl

end Output

/-- **Generated code reads back** as the union that it was generated for, with the parameters of each
variant group by group and without their defaults. -/
theorem ofSource_code {d : Declaration} (hd : d.WellFormed IsCarriedDefault)
    (hne : d.variants ≠ []) (hc : d.check = .ok ()) {o : Options}
    (ho : Plain o.helperSuffix.toList) :
    ∃ text, d.code o = .ok text ∧ Declaration.ofSource text = .ok d.regrouped := by
  have hempty : d.variants.isEmpty = false := List.isEmpty_eq_false_iff.2 hne
  refine ⟨render (codeLines o d), ?_, ?_⟩
  · rw [Declaration.code, hempty]
    rfl
  · have hunion := union?_code hd ho
    rw [linesText] at hunion
    rw [Declaration.ofSource, hunion]
    show d.regrouped.check.map (fun _ => d.regrouped) = .ok d.regrouped
    rw [check_regrouped hc]
    rfl

/-- A named parameter in front of a plain one, a default with an arrow and a line end, and a case
without parameters. -/
theorem ofSource_code_closure :
    ∃ text, Declaration.code ⟨"U", [⟨"_A", "a", [⟨"f", "F", some "() =>\n g('=')", .named⟩,
        ⟨"x", "(int, T?)", none, .positional⟩, ⟨"y", "T", none, .requiredNamed⟩]⟩,
        ⟨"B", "factory", []⟩]⟩ ⟨true, true, .firstVariant, " = "⟩ = .ok text ∧
      Declaration.ofSource text = .ok ⟨"U", [⟨"_A", "a", [⟨"x", "(int, T?)", none, .positional⟩,
        ⟨"f", "F", none, .named⟩, ⟨"y", "T", none, .requiredNamed⟩]⟩, ⟨"B", "factory", []⟩]⟩ :=
  ofSource_code (by decide +kernel) (by decide) rfl (by decide)

end DartUnion
