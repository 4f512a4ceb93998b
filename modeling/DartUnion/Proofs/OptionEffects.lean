import DartUnion.Proofs.Emission
import DartUnion.Proofs.LookUp

/-!
# What an option changes

Generated code is one text, and options say whether some of it is there and how some of it reads.
Where they have a say the text is cut: in front of it, behind the factories of the sealed class, and
in the name of the extension. What stands between the cuts is made from the union alone, empty lines
included. So two texts that are generated for the same union with different options differ at the
cuts and nowhere else.

* `factoryLines`, `textFormLines`, `extensionRest`: the parts that no option changes.
* `lookUpStart`, `lastArm`, `lookUpEnd`: the look-up by label, cut around its last arm.

Results:
* `render_lookUpLines`: the text of the look-up, cut around its last arm.
* `code_eq_parts`: **the code of a union, cut where options have a say.**
* `code_of_changed_option`: **each option changes its own part of the code and no other.**
-/

namespace DartUnion.Output

/-! ## The parts of the code -/

section

variable (d : Declaration)

/-- The sealed class, up to the last of its redirecting factories. -/
def factoryLines : List Line :=
  [⟨0, "sealed class " ++ d.name ++ " extends Equatable \x7b"⟩,
    ⟨1, "const " ++ d.name ++ "();"⟩,
    .blank] ++
  d.variants.map fun v => ⟨1, redirect d.name v⟩

/-- The look-up by label, up to the last arm for a label. -/
def lookUpStart : List Line :=
  [.blank, lookUpOpening d.name, stringSwitchOpening] ++
    d.unitVariants.map fun v => ⟨3, (Arm.mk (.literal v.label) (construction d.name v)).text⟩

/-- What the look-up evaluates to for a string that is no label of a unit case. -/
def unmatched (f : Fallback) : String := fallbackBody { fallback := f } d

/-- The arm of the look-up that takes what is left. -/
def lastArm (f : Fallback) : String := "      _ => " ++ unmatched d f ++ ",\n"

/-- The end of the look-up. -/
def lookUpEnd : List Line := [⟨2, "\x7d;"⟩, methodClosing]

/-- The look-up by label, with an empty line in front. -/
def lookUpText (f : Fallback) : String :=
  render (lookUpStart d) ++ lastArm d f ++ render lookUpEnd

/-- The rest of the sealed class, with empty lines around it. -/
def textFormLines : List Line := [.blank] ++ textLines d ++ [⟨0, "\x7d"⟩, .blank]

/-- What stands behind the line that opens the extension. -/
def extensionRest : List Line :=
  helperLines d ++ [⟨0, "\x7d"⟩] ++ d.variants.flatMap fun v => .blank :: classLines d.name v

/-- The code between the look-up and the end of the extension's name. -/
def middleText : String := render (textFormLines d) ++ ("extension " ++ d.name)

/-- The code behind the extension's name. -/
def backText : String := " on " ++ d.name ++ " \x7b\n" ++ render (extensionRest d)

end

/-- The import in front of the code, with an empty line behind it. -/
def importText : String := "import 'package:equatable/equatable.dart';\n\n"

/-! ## The code, cut into its parts -/

theorem render_importLines (o : Options) :
    render (importLines o) = if o.equatableImport then importText else "" := by
  unfold importLines
  split
  · decide +kernel
  · rfl

/-- **The text of the look-up**, cut around its last arm. -/
theorem render_lookUpLines (o : Options) (d : Declaration) :
    render (lookUpLines o d) = if o.fromString then lookUpText d o.fallback else "" := by
  by_cases ho : o.fromString = true
  · have hlast : render [⟨3, (Arm.mk .wildcard (fallbackBody o d)).text⟩] = lastArm d o.fallback := by
      have hbody : unmatched d o.fallback = fallbackBody o d := rfl
      have hspaces : String.join (List.replicate 3 "  ") ++ "_" ++ " => " = "      _ => " := by
        decide +kernel
      rw [render_cons, render_nil, String.append_empty, Line.render, Arm.text, Pattern.text, lastArm,
        hbody, ← hspaces]
      simp only [String.append_assoc]
      rfl
    have hlines : lookUpLines o d = lookUpStart d ++
        [⟨3, (Arm.mk .wildcard (fallbackBody o d)).text⟩] ++ lookUpEnd := by
      rw [lookUpLines_eq ho]
      simp [lookUpStart, lookUpEnd]
    rw [if_pos ho, hlines, render_append, render_append, hlast, lookUpText]
  · rw [if_neg ho, lookUpLines, if_neg ho, render_nil]

/-- **The code of a union, cut where options have a say.** What stands between the cuts does not
depend on them. -/
theorem code_eq_parts {d : Declaration} (hd : d.variants ≠ []) (o : Options) :
    d.code o = .ok ((if o.equatableImport then importText else "") ++ render (factoryLines d) ++
      (if o.fromString then lookUpText d o.fallback else "") ++ middleText d ++ o.helperSuffix ++
      backText d) := by
  have hextension : render [⟨0, "extension " ++ d.name ++ o.helperSuffix ++ " on " ++ d.name ++
      " \x7b"⟩] = "extension " ++ d.name ++ o.helperSuffix ++ (" on " ++ d.name ++ " \x7b\n") := by
    have hend : " \x7b" ++ "\n" = " \x7b\n" := by decide
    have hspaces : String.join (List.replicate 0 "  ") = "" := rfl
    rw [render_cons, render_nil, String.append_empty, Line.render, hspaces, ← hend]
    simp only [String.append_assoc, String.empty_append]
  have hlines : codeLines o d = importLines o ++ (factoryLines d ++ (lookUpLines o d ++
      (textFormLines d ++ ([⟨0, "extension " ++ d.name ++ o.helperSuffix ++ " on " ++ d.name ++
        " \x7b"⟩] ++ extensionRest d)))) := by
    simp [codeLines, sealedLines, extensionLines, factoryLines, textFormLines, extensionRest]
  rw [Declaration.code, List.isEmpty_eq_false_iff.2 hd, if_neg Bool.false_ne_true, hlines]
  simp only [render_append, render_importLines, render_lookUpLines, hextension]
  simp only [middleText, backText, String.append_assoc]

/-! ## One option changed -/

/-- **Each option changes its own part of the code and no other**, whatever the other options are.
The import is put in front of the code with an empty line behind it. The look-up is put in as a
whole, the same text for each way to treat a string that is no label. Without a look-up that way
means nothing; with one it decides the last arm of its `switch`. The end of the extension's name is
put in as it is. -/
theorem code_of_changed_option (d : Declaration) (hd : d.variants ≠ []) :
    (∀ o : Options, ∃ text, d.code { o with equatableImport := false } = .ok text ∧
      d.code { o with equatableImport := true } =
        .ok ("import 'package:equatable/equatable.dart';\n\n" ++ text)) ∧
    (∀ o : Options, ∃ front back, d.code { o with fromString := false } = .ok (front ++ back) ∧
      d.code { o with fromString := true } = .ok (front ++ lookUpText d o.fallback ++ back)) ∧
    (∀ (o : Options) (f : Fallback), d.code { o with fromString := false, fallback := f } =
      d.code { o with fromString := false }) ∧
    (∀ o : Options, ∃ front back, ∀ f : Fallback,
      d.code { o with fromString := true, fallback := f } =
        .ok (front ++ render (lookUpStart d) ++ ("      _ => " ++ unmatched d f ++ ",\n") ++
          render lookUpEnd ++ back)) ∧
    ∀ o : Options, ∃ front back, ∀ suffix : String,
      d.code { o with helperSuffix := suffix } = .ok (front ++ suffix ++ back) := by
  have hcode := code_eq_parts hd
  refine ⟨fun o => ?_, fun o => ?_, fun o f => ?_, fun o => ?_, fun o => ?_⟩
  · refine ⟨_, hcode _, ?_⟩
    rw [hcode]
    simp only [importText, if_true, Bool.false_eq_true, if_false, String.empty_append,
      String.append_assoc]
  · refine ⟨(if o.equatableImport then importText else "") ++ render (factoryLines d),
      middleText d ++ o.helperSuffix ++ backText d, ?_, ?_⟩
    · rw [hcode]
      simp only [Bool.false_eq_true, if_false, String.empty_append, String.append_assoc]
    · rw [hcode]
      simp only [if_true, String.append_assoc]
  · rw [hcode, hcode]
    simp only [Bool.false_eq_true, if_false]
  · refine ⟨(if o.equatableImport then importText else "") ++ render (factoryLines d),
      middleText d ++ o.helperSuffix ++ backText d, fun f => ?_⟩
    rw [hcode]
    simp only [if_true, lookUpText, lastArm, String.append_assoc]
  · refine ⟨(if o.equatableImport then importText else "") ++ render (factoryLines d) ++
      (if o.fromString then lookUpText d o.fallback else "") ++ middleText d, backText d,
      fun suffix => ?_⟩
    rw [hcode]

/-- A label that reads like the last arm, and an extension's name that ends like its line. -/
theorem code_of_changed_option_arrow : ∃ d : Declaration,
    d = ⟨"U", [⟨"B", "b", [⟨"x", "int", none, .positional⟩]⟩, ⟨"A", "_ => 'a',", []⟩]⟩ ∧
    d.variants ≠ [] ∧ unmatched d .firstVariant = "U.b()" ∧
    (∃ front back, ∀ f : Fallback, d.code { fallback := f } =
      .ok (front ++ render (lookUpStart d) ++ ("      _ => " ++ unmatched d f ++ ",\n") ++
        render lookUpEnd ++ back)) ∧
    ∃ front back, d.code { helperSuffix := "" } = .ok (front ++ back) ∧
      d.code { helperSuffix := " on U \x7b" } = .ok (front ++ " on U \x7b" ++ back) := by
  obtain ⟨-, -, -, hlast, hsuffix⟩ := code_of_changed_option
    ⟨"U", [⟨"B", "b", [⟨"x", "int", none, .positional⟩]⟩, ⟨"A", "_ => 'a',", []⟩]⟩ (by decide)
  obtain ⟨front, back, hcode⟩ := hsuffix {}
  have hempty := hcode ""
  rw [String.append_empty] at hempty
  exact ⟨_, rfl, by decide, by decide, hlast {}, front, back, hempty, hcode _⟩

end DartUnion.Output
