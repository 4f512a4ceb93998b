import DartUnion.Declaration.Basic
import DartUnion.Proofs.Gaps

/-!
# The written forms of a declaration

A union is written as a class whose redirecting factories are its cases:

    class Status {
      const factory Status.error(String message, {required int code, bool late = false,}) = Failure;
    }

`Declaration.WrittenAs` says which texts write a declaration. Between two tokens stands a gap, and
between two words a space. `const` and `final` may be there or not, a redirection is written `=` or
`=>` and may have empty brackets behind it, and a list may end in a comma. `required` stands at the
required parameters and nowhere else. The groups of a parameter list may come in any order.

What can be written is restricted (`Declaration.WellFormed`): names are names, and a type or default
must not end where it stands. So its brackets are nested with every comma inside a pair, and it
lacks the marks that end a declaration, a parameter or a type.

* `oneLine_variant`: a written factory stays one when it is put on one line.
* `guarded_writtenAs`: a written parameter is guarded text, whatever its gaps.
-/

namespace DartUnion

open Text Dart Source

namespace Source

/-- The modifiers that may stand in front of a type. -/
def modifiers : List (List Char) := ["required".toList, "covariant".toList, "final".toList]

/-- A text up to its first blank. -/
def firstWord (s : List Char) : List Char := s.takeWhile (!isBlank ·)

/-- Whether a text starts with a modifier is decided by its first word. -/
instance decidableModified (s : List Char) : Decidable (firstWord s ∈ modifiers) := inferInstance

/-- What can be written as a type. -/
structure IsTypeText (s : List Char) : Prop where
  ne_nil : s ≠ []
  trimmed : trim s = s
  guarded : Guarded s
  plain : ∀ c ∈ s, c ≠ '=' ∧ c ≠ ';' ∧ c ≠ '/' ∧ c ≠ '\n' ∧ c ≠ '\r'
  front : s.head? ≠ some '@' ∧ s.head? ≠ some '[' ∧ s.head? ≠ some '{'
  word : firstWord s ∉ modifiers

/-- What can be written as a default. -/
structure IsDefaultText (s : List Char) : Prop where
  ne_nil : s ≠ []
  trimmed : trim s = s
  guarded : Guarded s
  plain : ∀ c ∈ s, c ≠ ';' ∧ c ≠ '/' ∧ c ≠ '\n' ∧ c ≠ '\r'
  front : s.head? ≠ some '='

instance (s : List Char) : Decidable (IsTypeText s) :=
  decidable_of_iff (s ≠ [] ∧ trim s = s ∧ Guarded s ∧
      (∀ c ∈ s, c ≠ '=' ∧ c ≠ ';' ∧ c ≠ '/' ∧ c ≠ '\n' ∧ c ≠ '\r') ∧
      (s.head? ≠ some '@' ∧ s.head? ≠ some '[' ∧ s.head? ≠ some '{') ∧ firstWord s ∉ modifiers)
    ⟨fun ⟨h₁, h₂, h₃, h₄, h₅, h₆⟩ => ⟨h₁, h₂, h₃, h₄, h₅, h₆⟩,
      fun ⟨h₁, h₂, h₃, h₄, h₅, h₆⟩ => ⟨h₁, h₂, h₃, h₄, h₅, h₆⟩⟩

instance (s : List Char) : Decidable (IsDefaultText s) :=
  decidable_of_iff (s ≠ [] ∧ trim s = s ∧ Guarded s ∧
      (∀ c ∈ s, c ≠ ';' ∧ c ≠ '/' ∧ c ≠ '\n' ∧ c ≠ '\r') ∧ s.head? ≠ some '=')
    ⟨fun ⟨h₁, h₂, h₃, h₄, h₅⟩ => ⟨h₁, h₂, h₃, h₄, h₅⟩,
      fun ⟨h₁, h₂, h₃, h₄, h₅⟩ => ⟨h₁, h₂, h₃, h₄, h₅⟩⟩

end Source

/-! ## What can be written -/

/-- A parameter with a name, a type that can be written and a default as asked for. -/
structure Parameter.WellFormed (default : List Char → Prop) (p : Parameter) : Prop where
  name : identifier.accepts p.name.toList = true
  type : IsTypeText p.typeExpression.toList
  default : ∀ d, p.defaultValue = some d → default d.toList

/-- A variant with names and well-formed parameters. -/
structure Variant.WellFormed (default : List Char → Prop) (v : Variant) : Prop where
  typeName : caseName.accepts v.typeName.toList = true
  label : identifier.accepts v.label.toList = true
  parameters : ∀ p ∈ v.parameters, p.WellFormed default

/-- A union with a name and well-formed variants. -/
structure Declaration.WellFormed (default : List Char → Prop) (d : Declaration) : Prop where
  name : unionName.accepts d.name.toList = true
  variants : ∀ v ∈ d.variants, v.WellFormed default

instance (default : List Char → Prop) [DecidablePred default] (p : Parameter) :
    Decidable (p.WellFormed default) :=
  decidable_of_iff (identifier.accepts p.name.toList = true ∧ IsTypeText p.typeExpression.toList ∧
      ∀ d ∈ p.defaultValue, default d.toList)
    ⟨fun ⟨h₁, h₂, h₃⟩ => ⟨h₁, h₂, h₃⟩, fun ⟨h₁, h₂, h₃⟩ => ⟨h₁, h₂, h₃⟩⟩

instance (default : List Char → Prop) [DecidablePred default] (v : Variant) :
    Decidable (v.WellFormed default) :=
  decidable_of_iff (caseName.accepts v.typeName.toList = true ∧
      identifier.accepts v.label.toList = true ∧ ∀ p ∈ v.parameters, p.WellFormed default)
    ⟨fun ⟨h₁, h₂, h₃⟩ => ⟨h₁, h₂, h₃⟩, fun ⟨h₁, h₂, h₃⟩ => ⟨h₁, h₂, h₃⟩⟩

instance (default : List Char → Prop) [DecidablePred default] (d : Declaration) :
    Decidable (d.WellFormed default) :=
  decidable_of_iff (unionName.accepts d.name.toList = true ∧ ∀ v ∈ d.variants, v.WellFormed default)
    ⟨fun ⟨h₁, h₂⟩ => ⟨h₁, h₂⟩, fun ⟨h₁, h₂⟩ => ⟨h₁, h₂⟩⟩

/-! ## How it is written -/

namespace Source

/-- A word and a space behind it. -/
inductive Keyword (word : String) : List Char → Prop
  | mk {space : List Char} : IsSpace space → Keyword word (word.toList ++ space)

/-- The text is missing, or it is as said. -/
inductive Optionally (form : List Char → Prop) : List Char → Prop
  | absent : Optionally form []
  | present {s : List Char} : form s → Optionally form s

/-- The default of a parameter, from behind its name. -/
inductive DefaultWritten : Option String → List Char → Prop
  | absent : DefaultWritten none []
  | given {d : String} {front back : List Char} : IsGap front → IsGap back →
      DefaultWritten (some d) (front ++ '=' :: back ++ d.toList)

end Source

/-- The texts of a parameter, gaps around it included. -/
inductive Parameter.WrittenAs (p : Parameter) : List Char → Prop
  | mk {front required final space value back : List Char} :
      IsGap front →
      (if p.kind = .requiredNamed then Keyword "required" required else required = []) →
      Optionally (Keyword "final") final →
      IsSpace space →
      DefaultWritten p.defaultValue value →
      IsGap back →
      p.WrittenAs (front ++
        (required ++ (final ++ (p.typeExpression.toList ++ space ++ p.name.toList ++ value))) ++
        back)

namespace Source

/-- Parameters with commas between them, and perhaps one behind the last. -/
inductive ItemsWritten : List Parameter → List Char → Prop
  | last {p : Parameter} {s : List Char} : p.WrittenAs s → ItemsWritten [p] s
  | lastComma {p : Parameter} {s gap : List Char} : p.WrittenAs s → IsGap gap →
      ItemsWritten [p] (s ++ ',' :: gap)
  | cons {p : Parameter} {ps : List Parameter} {s t : List Char} : p.WrittenAs s →
      ItemsWritten ps t → ItemsWritten (p :: ps) (s ++ ',' :: t)

/-- What stands between two commas of a parameter list: a positional parameter or a group. -/
inductive PartWritten : List Parameter → List Char → Prop
  | positional {p : Parameter} {s : List Char} : p.kind.group = .positional → p.WrittenAs s →
      PartWritten [p] s
  | optional {ps : List Parameter} {front s back : List Char} :
      (∀ p ∈ ps, p.kind.group = .optional) → IsGap front → ItemsWritten ps s → IsGap back →
      PartWritten ps (front ++ '[' :: (s ++ ']' :: back))
  | named {ps : List Parameter} {front s back : List Char} :
      (∀ p ∈ ps, p.kind.group = .named) → IsGap front → ItemsWritten ps s → IsGap back →
      PartWritten ps (front ++ '{' :: (s ++ '}' :: back))

/-- A parameter list, without the brackets around it. -/
inductive ListWritten : List Parameter → List Char → Prop
  | nil {gap : List Char} : IsGap gap → ListWritten [] gap
  | last {ps : List Parameter} {s : List Char} : PartWritten ps s → ListWritten ps s
  | cons {ps qs : List Parameter} {s t : List Char} : PartWritten ps s → ListWritten qs t →
      ListWritten (ps ++ qs) (s ++ ',' :: t)

/-- The head of a factory, up to its opening bracket. -/
inductive HeadWritten (union label : String) : List Char → Prop
  | mk {space gap₁ gap₂ gap₃ : List Char} :
      IsSpace space → IsGap gap₁ → IsGap gap₂ → IsGap gap₃ →
      HeadWritten union label ("factory".toList ++ (space ++ (union.toList ++
        (gap₁ ++ '.' :: (gap₂ ++ (label.toList ++ gap₃))))))

/-- Empty brackets behind a case. -/
inductive EmptyBrackets : List Char → Prop
  | mk {front inside : List Char} : IsGap front → IsGap inside →
      EmptyBrackets (front ++ '(' :: (inside ++ [')']))

/-- The redirection of a factory, from behind its `=` up to the semicolon. -/
inductive RedirectionWritten (typeName : String) : List Char → Prop
  | mk {arrow gap brackets back : List Char} :
      Optionally (· = ['>']) arrow → IsGap gap → Optionally EmptyBrackets brackets → IsGap back →
      RedirectionWritten typeName (arrow ++ (gap ++ (typeName.toList ++ (brackets ++ back))))

end Source

/-- The texts of a factory, up to the semicolon. -/
inductive Variant.WrittenAs (union : String) (v : Variant) : List Char → Prop
  | mk {front const head params gap redirection : List Char} :
      IsGap front → Optionally (Keyword "const") const →
      HeadWritten union v.label head → ListWritten v.parameters params → IsGap gap →
      RedirectionWritten v.typeName redirection →
      v.WrittenAs union
        (front ++ const ++ (head ++ '(' :: (params ++ ')' :: (gap ++ '=' :: redirection))))

namespace Source

/-- Factories, each with its semicolon, and the gap behind the last. -/
inductive FactoriesWritten (union : String) : List Variant → List Char → Prop
  | nil {gap : List Char} : IsGap gap → FactoriesWritten union [] gap
  | cons {v : Variant} {vs : List Variant} {s t : List Char} : v.WrittenAs union s →
      FactoriesWritten union vs t → FactoriesWritten union (v :: vs) (s ++ ';' :: t)

end Source

/-- The texts of a union. -/
inductive Declaration.WrittenAs (d : Declaration) : List Char → Prop
  | mk {front space gap body back : List Char} :
      IsGap front → IsSpace space → IsGap gap → FactoriesWritten d.name d.variants body →
      IsGap back →
      d.WrittenAs
        (front ++ ("class".toList ++ (space ++ (d.name.toList ++
          (gap ++ '{' :: (body ++ '}' :: back))))))

/-! ## Brackets -/

namespace Source

theorem Keyword.guarded {word : String} (hw : identifier.accepts word.toList = true)
    {s : List Char} (h : Keyword word s) : Guarded s := by
  obtain ⟨hs⟩ := h
  exact guarded_append (guarded_of_accepts hw) (guarded_of_isGap hs.1)

theorem DefaultWritten.guarded {default : Option String}
    (hd : ∀ d, default = some d → IsDefaultText d.toList) {s : List Char}
    (h : DefaultWritten default s) : Guarded s := by
  cases h with
  | absent => rfl
  | @given d front back hf hb =>
    have he : Guarded ('=' :: back) := guarded_append (s := ['=']) (by decide) (guarded_of_isGap hb)
    exact guarded_append (guarded_append (guarded_of_isGap hf) he) (hd d rfl).guarded

/-- **A written parameter is guarded text**, whatever its gaps. -/
theorem guarded_writtenAs {p : Parameter} (hp : p.WellFormed IsDefaultText) {s : List Char}
    (h : p.WrittenAs s) : Guarded s := by
  obtain @⟨front, required, final, space, value, back, hf, hr, hm, hs, hv, hb⟩ := h
  have hrequired : Guarded required := by
    split at hr
    · exact hr.guarded (by decide)
    · rw [hr]
      rfl
  have hfinal : Guarded final := by
    cases hm with
    | absent => rfl
    | present hm => exact hm.guarded (by decide)
  have hdeclared := guarded_append (guarded_append (guarded_append hp.type.guarded
    (guarded_of_isGap hs.1)) (guarded_of_accepts hp.name)) (hv.guarded hp.default)
  exact guarded_append (guarded_append (guarded_of_isGap hf)
    (guarded_append hrequired (guarded_append hfinal hdeclared))) (guarded_of_isGap hb)

theorem nested_comma {s t : List Char} (hs : Nested Bracket.all s) (ht : Nested Bracket.all t) :
    Nested Bracket.all (s ++ ',' :: t) :=
  nested_append hs (nested_append (s := [',']) (by decide) ht)

theorem ItemsWritten.nested {ps : List Parameter} {s : List Char} (h : ItemsWritten ps s)
    (hp : ∀ p ∈ ps, p.WellFormed IsDefaultText) : Nested Bracket.all s := by
  induction h with
  | last h => exact (guarded_writtenAs (hp _ List.mem_cons_self) h).nested
  | lastComma h hg =>
    exact nested_comma (guarded_writtenAs (hp _ List.mem_cons_self) h).nested
      (guarded_of_isGap hg).nested
  | cons h _ ih =>
    exact nested_comma (guarded_writtenAs (hp _ List.mem_cons_self) h).nested
      (ih fun q hq => hp q (List.mem_cons_of_mem _ hq))

theorem PartWritten.nested {ps : List Parameter} {s : List Char} (h : PartWritten ps s)
    (hp : ∀ p ∈ ps, p.WellFormed IsDefaultText) : Nested Bracket.all s := by
  cases h with
  | positional _ h => exact (guarded_writtenAs (hp _ List.mem_cons_self) h).nested
  | optional _ hf h hb =>
    exact nested_append (guarded_of_isGap hf).nested
      (nested_bracketed (b := ⟨'[', ']'⟩) (by decide) (h.nested hp) (guarded_of_isGap hb).nested)
  | named _ hf h hb =>
    exact nested_append (guarded_of_isGap hf).nested
      (nested_bracketed (b := ⟨'{', '}'⟩) (by decide) (h.nested hp) (guarded_of_isGap hb).nested)

/-- A written parameter list is nested text. -/
theorem ListWritten.nested {ps : List Parameter} {s : List Char} (h : ListWritten ps s)
    (hp : ∀ p ∈ ps, p.WellFormed IsDefaultText) : Nested Bracket.all s := by
  induction h with
  | nil hg => exact (guarded_of_isGap hg).nested
  | last h => exact h.nested hp
  | cons h _ ih =>
    exact nested_comma (h.nested fun p hm => hp p (List.mem_append_left _ hm))
      (ih fun p hm => hp p (List.mem_append_right _ hm))

end Source

/-! ## On one line -/

namespace Source

theorem oneLine_of_accepts {s : List Char} (h : identifier.accepts s = true) : oneLine s = s :=
  oneLine_eq_self fun _ hc =>
    ⟨ne_of_next (next_of_accepts h hc) rfl, ne_of_next (next_of_accepts h hc) rfl⟩

theorem oneLine_type {s : List Char} (h : IsTypeText s) : oneLine s = s :=
  oneLine_eq_self fun c hc => (h.plain c hc).2.2.2

theorem oneLine_default {s : List Char} (h : IsDefaultText s) : oneLine s = s :=
  oneLine_eq_self fun c hc => (h.plain c hc).2.2

theorem oneLine_cons {c : Char} (s : List Char) (h : c ≠ '\n' ∧ c ≠ '\r') :
    oneLine (c :: s) = c :: oneLine s := by
  rw [← List.singleton_append, oneLine_append, oneLine_eq_self]
  · rfl
  · intro d hd
    rw [List.mem_singleton.1 hd]
    exact h

theorem Keyword.oneLine {word : String} (hw : identifier.accepts word.toList = true)
    {s : List Char} (h : Keyword word s) : Keyword word (oneLine s) := by
  obtain ⟨hs⟩ := h
  rw [oneLine_append, oneLine_of_accepts hw]
  exact .mk (isSpace_oneLine hs)

theorem Optionally.oneLine {form : List Char → Prop} {s : List Char} (h : Optionally form s)
    (hf : ∀ t, form t → form (oneLine t)) : Optionally form (oneLine s) := by
  cases h with
  | absent => exact .absent
  | present h => exact .present (hf s h)

theorem DefaultWritten.oneLine {default : Option String} {s : List Char}
    (hd : ∀ d, default = some d → IsDefaultText d.toList) (h : DefaultWritten default s) :
    DefaultWritten default (oneLine s) := by
  cases h with
  | absent => exact .absent
  | given hf hb =>
    rw [oneLine_append, oneLine_append, oneLine_cons _ (by decide),
      oneLine_default (hd _ rfl)]
    exact .given (isGap_oneLine hf) (isGap_oneLine hb)

theorem oneLine_parameter {p : Parameter} (hp : p.WellFormed IsDefaultText) {s : List Char}
    (h : p.WrittenAs s) : p.WrittenAs (oneLine s) := by
  obtain ⟨hf, hr, hm, hs, hv, hb⟩ := h
  simp only [oneLine_append, oneLine_type hp.type, oneLine_of_accepts hp.name]
  refine .mk (isGap_oneLine hf) ?_ (hm.oneLine fun _ => Keyword.oneLine (by decide))
    (isSpace_oneLine hs) (hv.oneLine hp.default) (isGap_oneLine hb)
  split at hr
  · next hk =>
    rw [if_pos hk]
    exact hr.oneLine (by decide)
  · next hk =>
    rw [if_neg hk, hr]
    rfl

theorem ItemsWritten.oneLine {ps : List Parameter} {s : List Char} (h : ItemsWritten ps s)
    (hp : ∀ p ∈ ps, p.WellFormed IsDefaultText) : ItemsWritten ps (oneLine s) := by
  induction h with
  | last h => exact .last (oneLine_parameter (hp _ List.mem_cons_self) h)
  | lastComma h hg =>
    rw [oneLine_append, oneLine_cons _ (by decide)]
    exact .lastComma (oneLine_parameter (hp _ List.mem_cons_self) h) (isGap_oneLine hg)
  | cons h _ ih =>
    rw [oneLine_append, oneLine_cons _ (by decide)]
    exact .cons (oneLine_parameter (hp _ List.mem_cons_self) h)
      (ih fun q hq => hp q (List.mem_cons_of_mem _ hq))

theorem PartWritten.oneLine {ps : List Parameter} {s : List Char} (h : PartWritten ps s)
    (hp : ∀ p ∈ ps, p.WellFormed IsDefaultText) : PartWritten ps (oneLine s) := by
  cases h with
  | positional hk h => exact .positional hk (oneLine_parameter (hp _ List.mem_cons_self) h)
  | optional hk hf h hb =>
    rw [oneLine_append, oneLine_cons _ (by decide), oneLine_append, oneLine_cons _ (by decide)]
    exact .optional hk (isGap_oneLine hf) (h.oneLine hp) (isGap_oneLine hb)
  | named hk hf h hb =>
    rw [oneLine_append, oneLine_cons _ (by decide), oneLine_append, oneLine_cons _ (by decide)]
    exact .named hk (isGap_oneLine hf) (h.oneLine hp) (isGap_oneLine hb)

theorem ListWritten.oneLine {ps : List Parameter} {s : List Char} (h : ListWritten ps s)
    (hp : ∀ p ∈ ps, p.WellFormed IsDefaultText) : ListWritten ps (oneLine s) := by
  induction h with
  | nil hg => exact .nil (isGap_oneLine hg)
  | last h => exact .last (h.oneLine hp)
  | cons h _ ih =>
    rw [oneLine_append, oneLine_cons _ (by decide)]
    exact .cons (h.oneLine fun p hm => hp p (List.mem_append_left _ hm))
      (ih fun p hm => hp p (List.mem_append_right _ hm))

theorem HeadWritten.oneLine {union label : String} (hu : identifier.accepts union.toList = true)
    (hl : identifier.accepts label.toList = true) {s : List Char} (h : HeadWritten union label s) :
    HeadWritten union label (oneLine s) := by
  obtain ⟨hs, h₁, h₂, h₃⟩ := h
  rw [oneLine_append, oneLine_append, oneLine_append, oneLine_append, oneLine_cons _ (by decide),
    oneLine_append, oneLine_append, oneLine_of_accepts hu, oneLine_of_accepts hl,
    oneLine_of_accepts (s := "factory".toList) (by decide)]
  exact .mk (isSpace_oneLine hs) (isGap_oneLine h₁) (isGap_oneLine h₂) (isGap_oneLine h₃)

theorem EmptyBrackets.oneLine {s : List Char} (h : EmptyBrackets s) : EmptyBrackets (oneLine s) := by
  obtain ⟨hf, hi⟩ := h
  rw [oneLine_append, oneLine_cons _ (by decide), oneLine_append]
  exact .mk (isGap_oneLine hf) (isGap_oneLine hi)

theorem RedirectionWritten.oneLine {typeName : String}
    (ht : identifier.accepts typeName.toList = true) {s : List Char}
    (h : RedirectionWritten typeName s) : RedirectionWritten typeName (oneLine s) := by
  obtain ⟨ha, hg, hb, hs⟩ := h
  rw [oneLine_append, oneLine_append, oneLine_append, oneLine_append, oneLine_of_accepts ht]
  refine .mk (ha.oneLine fun t ht => ?_) (isGap_oneLine hg) (hb.oneLine fun _ => EmptyBrackets.oneLine)
    (isGap_oneLine hs)
  rw [ht]
  rfl

/-- A written factory stays one when it is put on one line. -/
theorem oneLine_variant {union : String} (hu : identifier.accepts union.toList = true) {v : Variant}
    (hv : v.WellFormed IsDefaultText) {s : List Char} (h : v.WrittenAs union s) :
    v.WrittenAs union (oneLine s) := by
  obtain ⟨hf, hc, hh, hl, hg, hr⟩ := h
  rw [oneLine_append, oneLine_append, oneLine_append, oneLine_cons _ (by decide), oneLine_append,
    oneLine_cons _ (by decide), oneLine_append, oneLine_cons _ (by decide)]
  exact .mk (isGap_oneLine hf) (hc.oneLine fun _ => Keyword.oneLine (by decide))
    (hh.oneLine hu hv.label) (hl.oneLine hv.parameters) (isGap_oneLine hg)
    (hr.oneLine (identifier_of_caseName hv.typeName))

end Source

end DartUnion
