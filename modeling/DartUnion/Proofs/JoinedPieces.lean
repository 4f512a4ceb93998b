import DartUnion.Proofs.ParameterReading

/-!
# Pieces joined by commas

A text with nested brackets and every comma inside a pair is one piece of a parameter list, unless it
starts like a group (`IsItem`). Put between commas, with or without the brackets of a group around all
of them (`Group.enclosed`), such pieces are read one by one: behind each comma the scan starts afresh,
in the group that is open.

Results:
* `parametersFrom_joined`: pieces up to the end of their group are read one by one.
* `parameter?_eq_none`: whether a piece is a parameter does not depend on its group.
* `parameters_joined`: **each piece is read as if it stood alone** in the same brackets, so that a
  piece which is no parameter takes nothing away from the others.
-/

namespace DartUnion

open Text Dart Source

/-- The bracket that opens a group; the positional group has none. -/
def Group.opening : Group → List Char
  | .positional => []
  | .optional => ['[']
  | .named => ['{']

/-- The bracket that closes a group. -/
def Group.closing : Group → List Char
  | .positional => []
  | .optional => [']']
  | .named => ['}']

/-- A text in the brackets of a group. -/
def Group.enclosed (g : Group) (s : List Char) : List Char := g.opening ++ (s ++ g.closing)

namespace Source

/-- A text that is one piece between two commas. -/
structure IsItem (s : List Char) : Prop where
  guarded : Guarded s
  front : ∀ c, (trimStart s).head? = some c → c ≠ '[' ∧ c ≠ '{'

instance (s : List Char) : Decidable (IsItem s) :=
  decidable_of_iff (Guarded s ∧ ∀ c ∈ (trimStart s).head?.toList, c ≠ '[' ∧ c ≠ '{')
    ⟨fun ⟨h₁, h₂⟩ => ⟨h₁, fun c hc => h₂ c (Option.mem_toList.2 hc)⟩,
      fun ⟨h₁, h₂⟩ => ⟨h₁, fun c hc => h₂ c (Option.mem_toList.1 hc)⟩⟩

/-- Pieces with a comma between any two. -/
def joined (ps : List (List Char)) : List Char := [','].intercalate ps

theorem joined_cons_cons (p q : List Char) (ps : List (List Char)) :
    joined (p :: q :: ps) = p ++ ',' :: joined (q :: ps) := by
  rw [joined, List.intercalate_cons_cons, List.append_assoc, List.singleton_append]
  rfl

theorem joined_singleton (p : List Char) : joined [p] = p := List.intercalate_singleton

/-! ## One group -/

variable {p : List Char} {ps : List (List Char)}

/-- The bracket of a group starts the scan afresh within the group. -/
theorem parameters_enclosed (g : Group) (s : List Char) :
    parameters (g.enclosed s) = parametersFrom (.fresh g) (s ++ g.closing) := by
  rw [parameters_eq]
  cases g with
  | positional => rfl
  | optional => exact parametersFrom_opening isGap_nil rfl _
  | named => exact parametersFrom_opening isGap_nil rfl _

/-- The last piece of a group. -/
theorem parametersFrom_item_closing (h : IsItem p) (g : Group) :
    parametersFrom (.fresh g) (p ++ g.closing) = (Piece.parameter? ⟨p, g⟩).toList := by
  have hend : ∀ g, parametersFrom (.closed g) [] = [] := fun g => parametersFrom_gap isGap_nil rfl
  cases g with
  | positional =>
    rw [Group.closing, List.append_nil]
    exact parametersFrom_last h.guarded rfl h.front
  | optional =>
    rw [Group.closing, parametersFrom_closing (by decide) (.inl rfl) h.guarded h.front, hend,
      List.append_nil]
  | named =>
    rw [Group.closing, parametersFrom_closing (by decide) (.inr rfl) h.guarded h.front, hend,
      List.append_nil]

/-- **Pieces are read one by one**, up to the end of their group. -/
theorem parametersFrom_joined (h : ∀ p ∈ ps, IsItem p) (g : Group) :
    parametersFrom (.fresh g) (joined ps ++ g.closing) =
      ps.flatMap fun p => (Piece.parameter? ⟨p, g⟩).toList := by
  induction ps with
  | nil =>
    show parametersFrom (.fresh g) ([] ++ g.closing) = []
    rw [parametersFrom_item_closing (by decide), parameter?_of_isGap isGap_nil]
    rfl
  | cons p ps ih =>
    have hp := h p List.mem_cons_self
    cases ps with
    | nil =>
      rw [joined_singleton, parametersFrom_item_closing hp, List.flatMap_cons, List.flatMap_nil,
        List.append_nil]
    | cons q ps =>
      rw [joined_cons_cons, List.append_assoc, List.cons_append,
        parametersFrom_comma hp.guarded rfl hp.front, List.flatMap_cons]
      exact congrArg _ (ih fun r hr => h r (List.mem_cons_of_mem p hr))

theorem parameters_enclosed_item (h : IsItem p) (g : Group) :
    parameters (g.enclosed p) = (Piece.parameter? ⟨p, g⟩).toList := by
  rw [parameters_enclosed, parametersFrom_item_closing h]

theorem parameters_enclosed_joined (h : ∀ p ∈ ps, IsItem p) (g : Group) :
    parameters (g.enclosed (joined ps)) = ps.flatMap fun p => parameters (g.enclosed p) := by
  rw [parameters_enclosed, parametersFrom_joined h, List.flatMap_def, List.flatMap_def]
  exact congrArg List.flatten
    (List.map_congr_left fun p hp => (parameters_enclosed_item (h p hp) g).symm)

/-! ## Pieces that are no parameters -/

/-- **Whether a piece is a parameter** does not depend on its group. -/
theorem parameter?_eq_none {s : List Char} {g : Group} (h : Piece.parameter? ⟨s, g⟩ = none)
    (g' : Group) : Piece.parameter? ⟨s, g'⟩ = none := by
  rw [← Option.not_isSome_iff_eq_none] at h ⊢
  unfold Piece.parameter? at h ⊢
  simp only [Option.bind_eq_bind, Option.isSome_bind] at h ⊢
  exact h

theorem parameters_enclosed_junk (h : IsItem p) (hnone : parameters p = []) (g : Group) :
    parameters (g.enclosed p) = [] := by
  have hplain : Group.positional.enclosed p = p := List.append_nil p
  rw [← hplain, parameters_enclosed_item h, Option.toList_eq_nil_iff] at hnone
  rw [parameters_enclosed_item h, parameter?_eq_none hnone g]
  rfl

theorem length_parameters_enclosed (h : IsItem p) (g : Group) :
    (parameters (g.enclosed p)).length ≤ 1 := by
  rw [parameters_enclosed_item h]
  exact Option.length_toList_le

/-- **Each piece is read as if it stood alone** in the same brackets. So when a piece that is no
parameter takes the place of another, the parameter of that other is gone and nothing else changes. -/
theorem parameters_joined (h : ∀ p ∈ ps, IsItem p) (g : Group) :
    parameters (g.enclosed (joined ps)) = ps.flatMap (fun p => parameters (g.enclosed p)) ∧
      ∀ before p after junk, ps = before ++ p :: after → IsItem junk → parameters junk = [] →
        (parameters (g.enclosed p)).length ≤ 1 ∧
        parameters (g.enclosed (joined ps)) = parameters (g.enclosed (joined before)) ++
          parameters (g.enclosed p) ++ parameters (g.enclosed (joined after)) ∧
        parameters (g.enclosed (joined (before ++ junk :: after))) =
          parameters (g.enclosed (joined before)) ++ parameters (g.enclosed (joined after)) := by
  refine ⟨parameters_enclosed_joined h g, ?_⟩
  rintro before p after junk rfl hjunk hnone
  have hp := h p (List.mem_append_right before List.mem_cons_self)
  have hbefore : ∀ q ∈ before, IsItem q := fun q hq => h q (List.mem_append_left _ hq)
  have hafter : ∀ q ∈ after, IsItem q :=
    fun q hq => h q (List.mem_append_right before (List.mem_cons_of_mem p hq))
  have hreplaced : ∀ q ∈ before ++ junk :: after, IsItem q := by
    intro q hq
    rcases List.mem_append.1 hq with hq | hq
    · exact hbefore q hq
    · rcases List.mem_cons.1 hq with rfl | hq
      · exact hjunk
      · exact hafter q hq
  refine ⟨length_parameters_enclosed hp g, ?_, ?_⟩
  · rw [parameters_enclosed_joined h, parameters_enclosed_joined hbefore,
      parameters_enclosed_joined hafter, List.flatMap_append, List.flatMap_cons, List.append_assoc]
  · rw [parameters_enclosed_joined hreplaced, parameters_enclosed_joined hbefore,
      parameters_enclosed_joined hafter, List.flatMap_append, List.flatMap_cons,
      parameters_enclosed_junk hjunk hnone, List.nil_append]

/-- A number among named parameters takes nothing away from the others, not even that one of them is
required. -/
theorem parameters_joined_number :
    (∀ p ∈ ["required Map<String, int> m".toList, "int k".toList, " List<int> l = f(1, 2)".toList],
      IsItem p) ∧ IsItem " 42".toList ∧ parameters " 42".toList = [] ∧
    parameters (Group.named.enclosed (joined ["required Map<String, int> m".toList, " 42".toList,
        " List<int> l = f(1, 2)".toList])) =
      [⟨"m", "Map<String, int>", none, .requiredNamed⟩,
        ⟨"l", "List<int>", some "f(1, 2)", .named⟩] := by
  have hitems : ∀ p ∈ ["required Map<String, int> m".toList, "int k".toList,
      " List<int> l = f(1, 2)".toList], IsItem p := by decide
  have hnumber : parameters " 42".toList = [] := by decide +kernel
  refine ⟨hitems, by decide, hnumber, ?_⟩
  have hreplaced := ((parameters_joined hitems .named).2 ["required Map<String, int> m".toList] _
    [" List<int> l = f(1, 2)".toList] " 42".toList rfl (by decide) hnumber).2.2
  refine hreplaced.trans ?_
  decide +kernel

end Source

end DartUnion
