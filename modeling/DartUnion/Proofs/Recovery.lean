import DartUnion.Proofs.Statements

/-!
# Declarations are recovered from their written forms

However a declaration is laid out, reading the text gives it back. The header gives the name, each
factory yields its variant behind the semicolon of the one before it, and what stands behind the
last semicolon counts for nothing. So only the check of the names is left, and it decides between
the declaration and the failure.

* `variantsBehind_factories`: factories in a row yield their variants in a row.
* `union?_writtenAs`: **the union of a written declaration is the declaration.**
* `ofSource_writtenAs`: reading adds the check of the names and nothing else.
-/

namespace DartUnion

open Text Dart Source

namespace Source

/-- Factories in a row yield their variants in a row. -/
theorem variantsBehind_factories {union : String} (hu : identifier.accepts union.toList = true)
    {vs : List Variant} (hv : ∀ v ∈ vs, v.WellFormed IsDefaultText) {body : List Char}
    (h : FactoriesWritten union vs body) {front back : List Char} (hf : Opening (oneLine front))
    (hm : ';' ∉ front) (hb : ';' ∉ back) : variantsBehind front (body ++ back) = vs := by
  induction h generalizing front with
  | nil hg =>
    refine variantsBehind_open ?_
    rw [List.mem_append, List.mem_append, not_or, not_or]
    exact ⟨hm, hg.not_mem rfl, hb⟩
  | @cons v vs s t h _ ih =>
    have hyields := yields_written hu (hv v List.mem_cons_self) hf hm h
    have hempty : Opening (oneLine []) := ⟨trivial, rfl⟩
    have hrest := ih (fun w hw => hv w (List.mem_cons_of_mem v hw)) hempty List.not_mem_nil
    rw [List.append_assoc, List.cons_append, List.append_cons, hyields, hrest]
    rfl

/-- No slash stands among written factories. -/
theorem FactoriesWritten.not_mem {union : String} (hu : identifier.accepts union.toList = true)
    {vs : List Variant} (hv : ∀ v ∈ vs, v.WellFormed IsDefaultText) {body : List Char}
    (h : FactoriesWritten union vs body) : '/' ∉ body := by
  induction h with
  | nil hg => exact hg.not_mem rfl
  | @cons v vs s t h _ ih =>
    rw [List.mem_append, List.mem_cons, not_or, not_or]
    exact ⟨fun hc => (plain_variant hu (hv v List.mem_cons_self) h _ hc).2 rfl, by decide,
      ih fun w hw => hv w (List.mem_cons_of_mem v hw)⟩

/-- The brace of a class belongs to no word. -/
theorem noWordChar_brace : noWordChar (some '{') = true := by decide +kernel

/-- The header of a class, up to its opening brace. -/
theorem opening_header {name : String} (hn : unionName.accepts name.toList = true)
    {front space gap : List Char} (hf : IsGap front) (hs : IsSpace space) (hg : IsGap gap) :
    Opening (front ++ ("class".toList ++ (space ++ (name.toList ++ (gap ++ ['{']))))) := by
  refine ⟨?_, ?_⟩
  · exact passes_append (passes_of_not_mem (hf.not_mem rfl) _) <|
      passes_append (passes_of_not_mem (by decide) _) <|
      passes_append (passes_of_not_mem (hs.1.not_mem rfl) _) <|
      passes_append (passes_unionName rfl hn _) <|
      passes_append (passes_of_not_mem (hg.not_mem rfl) _) (passes_of_not_mem (by decide) _)
  · rw [← List.append_assoc, ← List.append_assoc, ← List.append_assoc, ← List.append_assoc,
      getLast?_append_of_ne_nil _ (List.cons_ne_nil '{' [])]
    exact noWordChar_brace

/-- The name of a class is found in its header. -/
theorem findUnionName?_class {name : String} (hn : unionName.accepts name.toList = true)
    {front space gap : List Char} (hf : IsGap front) (hs : IsSpace space) (hg : IsGap gap)
    (s : List Char) :
    findUnionName? none (front ++ ("class".toList ++ (space ++ (name.toList ++ (gap ++ '{' :: s))))) =
      some name.toList := by
  rw [findUnionName?_passes (passes_of_not_mem (hf.not_mem rfl) none), Option.or_none]
  refine findUnionName?_header ?_ hs hn fun c hc => ?_
  · cases h : front.getLast? with
    | none => rfl
    | some c =>
      rw [noWordChar, Option.any_some, isWordChar_of_isBlank (hf c (List.mem_of_getLast? h))]
      rfl
  · have := next_of_gap hg (c := '{') rfl hc
    simp only [identifier, Bool.or_eq_false_iff] at this
    exact this.1.1

/-- **The union of a written declaration is the declaration.** -/
theorem union?_writtenAs {d : Declaration} (hd : d.WellFormed IsDefaultText) {s : List Char}
    (h : d.WrittenAs s) : union? (stripComments s) = some d := by
  obtain @⟨front, space, gap, body, back, hf, hs, hg, hb, hk⟩ := h
  have hu := identifier_of_unionName hd.name
  have hslash : '/' ∉ front ++ ("class".toList ++ (space ++ (d.name.toList ++
      (gap ++ '{' :: (body ++ '}' :: back))))) := by
    simp only [List.mem_append, List.mem_cons, not_or]
    exact ⟨hf.not_mem rfl, by decide, hs.1.not_mem rfl,
      fun hc => (plain_of_accepts hu _ hc).2 rfl, hg.not_mem rfl, by decide,
      hb.not_mem hu hd.variants, by decide, hk.not_mem rfl⟩
  have hopening : Opening (oneLine (front ++ ("class".toList ++ (space ++ (d.name.toList ++
      (gap ++ ['{'])))))) := by
    simp only [oneLine_append, oneLine_of_accepts hu,
      oneLine_of_accepts (s := "class".toList) (by decide)]
    exact opening_header hd.name (isGap_oneLine hf) (isSpace_oneLine hs) (isGap_oneLine hg)
  have hsemicolon : ';' ∉ front ++ ("class".toList ++ (space ++ (d.name.toList ++
      (gap ++ ['{'])))) := by
    simp only [List.mem_append, not_or]
    exact ⟨hf.not_mem rfl, by decide, hs.1.not_mem rfl,
      fun hc => (plain_of_accepts hu _ hc).1 rfl, hg.not_mem rfl, by decide⟩
  have hback : ';' ∉ '}' :: back := by
    rw [List.mem_cons, not_or]
    exact ⟨by decide, hk.not_mem rfl⟩
  have hvariants := variantsBehind_factories hu hd.variants hb hopening hsemicolon hback
  rw [variantsBehind, ← List.nil_append (_ ++ _), ← variantsBehind, ← variants_eq] at hvariants
  simp only [List.append_assoc, List.cons_append, List.nil_append] at hvariants
  rw [stripComments_of_unmarked (unmarked_of_not_mem hslash), union?,
    findUnionName?_class hd.name hf hs hg, Option.map_some, hvariants, String.ofList_toList]

end Source

/-- Reading a written declaration comes down to the check of its names. -/
theorem ofSource_eq_check {d : Declaration} (hd : d.WellFormed IsDefaultText) {s : List Char}
    (h : d.WrittenAs s) : Declaration.ofSource (String.ofList s) = d.check.map fun _ => d := by
  rw [Declaration.ofSource, String.toList_ofList, union?_writtenAs hd h]

/-- **A declaration is recovered from every text that writes it**, unless its names clash: then that
is the failure. -/
theorem ofSource_writtenAs {d : Declaration} (hd : d.WellFormed IsDefaultText) {s : List Char}
    (h : d.WrittenAs s) :
    (d.check = .ok () → Declaration.ofSource (String.ofList s) = .ok d) ∧
      ∀ f, d.check = .error f → Declaration.ofSource (String.ofList s) = .error f := by
  rw [ofSource_eq_check hd h]
  refine ⟨fun hc => ?_, fun f hc => ?_⟩
  · rw [hc]
    rfl
  · rw [hc]
    rfl

/-- A declaration on three lines, with groups, modifiers and trailing commas, and the same with a
label twice. -/
theorem ofSource_writtenAs_trailing_commas :
    Declaration.ofSource (String.ofList
        "class U\x7bconst factory U . a(\n  final (A, B)\tp, \x7brequired int q, C r = const [1, 2],\x7d, ) => _D ( );\n\x7d".toList) =
      .ok ⟨"U", [⟨"_D", "a", [⟨"p", "(A, B)", none, .positional⟩,
        ⟨"q", "int", none, .requiredNamed⟩, ⟨"r", "C", some "const [1, 2]", .named⟩]⟩]⟩ ∧
    Declaration.ofSource (String.ofList
        "class U\x7bfactory U.a()=A;factory U.a()=B;\x7d".toList) =
      .error (.clash "U" (.repeated .label "a")) := by
  have hp : Parameter.WrittenAs ⟨"p", "(A, B)", none, .positional⟩ "\n  final (A, B)\tp".toList :=
    @Parameter.WrittenAs.mk _ "\n  ".toList [] "final ".toList "\t".toList [] [] (by decide) rfl
      (.present (@Keyword.mk "final" " ".toList (by decide))) (by decide) .absent (by decide)
  have hq : Parameter.WrittenAs ⟨"q", "int", none, .requiredNamed⟩ "required int q".toList :=
    @Parameter.WrittenAs.mk _ [] "required ".toList [] " ".toList [] [] (by decide)
      (@Keyword.mk "required" " ".toList (by decide)) .absent (by decide) .absent (by decide)
  have hr : Parameter.WrittenAs ⟨"r", "C", some "const [1, 2]", .named⟩
      " C r = const [1, 2]".toList :=
    @Parameter.WrittenAs.mk _ " ".toList [] [] " ".toList " = const [1, 2]".toList [] (by decide)
      rfl .absent (by decide) (@DefaultWritten.given "const [1, 2]" " ".toList " ".toList
        (by decide) (by decide)) (by decide)
  have hlist := ListWritten.cons (.positional rfl hp) (.cons (.named (by decide)
    (by decide : IsGap " ".toList) (.cons hq (.lastComma hr isGap_nil)) isGap_nil)
    (.nil (by decide : IsGap " ".toList)))
  have hvariant := @Variant.WrittenAs.mk "U" ⟨"_D", "a", _⟩ [] "const ".toList _ _ " ".toList _
    isGap_nil (.present (@Keyword.mk "const" " ".toList (by decide)))
    (@HeadWritten.mk "U" "a" " ".toList " ".toList " ".toList [] (by decide) (by decide)
      (by decide) isGap_nil)
    hlist (by decide)
    (@RedirectionWritten.mk "_D" ['>'] " ".toList _ [] (.present rfl) (by decide)
      (.present (@EmptyBrackets.mk " ".toList " ".toList (by decide) (by decide))) isGap_nil)
  have hdeclaration := @Declaration.WrittenAs.mk ⟨"U", [⟨"_D", "a", _⟩]⟩ [] " ".toList [] _ []
    isGap_nil (by decide) isGap_nil (.cons hvariant (.nil (by decide : IsGap "\n".toList))) isGap_nil
  have hbare : ∀ typeName, RedirectionWritten typeName ([] ++ ([] ++ (typeName.toList ++ ([] ++ [])))) :=
    fun _ => .mk .absent isGap_nil .absent isGap_nil
  have hhead : HeadWritten "U" "a" "factory U.a".toList :=
    @HeadWritten.mk "U" "a" " ".toList [] [] [] (by decide) isGap_nil isGap_nil isGap_nil
  have hfirst := @Variant.WrittenAs.mk "U" ⟨"A", "a", []⟩ [] [] _ [] [] _ isGap_nil .absent hhead
    (.nil isGap_nil) isGap_nil (hbare "A")
  have hsecond := @Variant.WrittenAs.mk "U" ⟨"B", "a", []⟩ [] [] _ [] [] _ isGap_nil .absent hhead
    (.nil isGap_nil) isGap_nil (hbare "B")
  have htwice := @Declaration.WrittenAs.mk ⟨"U", [⟨"A", "a", []⟩, ⟨"B", "a", []⟩]⟩ [] " ".toList [] _
    [] isGap_nil (by decide) isGap_nil (.cons hfirst (.cons hsecond (.nil isGap_nil))) isGap_nil
  have hsame : ∀ {s t : List Char}, s = t →
      Declaration.ofSource (String.ofList s) = Declaration.ofSource (String.ofList t) :=
    fun h => by rw [h]
  exact ⟨(hsame (by decide +kernel)).trans ((ofSource_writtenAs (by decide +kernel) hdeclaration).1 rfl),
    (hsame (by decide +kernel)).trans ((ofSource_writtenAs (by decide +kernel) htwice).2 _ rfl)⟩

end DartUnion
