import DartUnion.Declaration.Unique

/-!
# Failures and their wording

From source text to generated code there are three ways to fail: the text declares no union, names
of the union clash, or the union has no case. A factory or parameter that cannot be read is no
failure; it is left out.

* `Failure` is `ConvertError`: `ParseError` for the first two and `GenerateError` for the last.
* `Declaration.check` is `check_unique`, which fails with the first offence.
-/

namespace DartUnion

/-- Why no code comes out. -/
inductive Failure where
  | noUnion
  | clash (union : String) (offence : Offence)
  | emptyUnion (union : String)
  deriving Repr, DecidableEq

/-- What a name stands for, in words. -/
def NameKind.words : NameKind → String
  | .label => "factory label"
  | .typeName => "case type name"
  | .parameter => "parameter name"

/-- The wording of an offence within a union. -/
def Offence.message (union : String) : Offence → String
  | .reserved label =>
    "factory label `" ++ label ++ "` in union `" ++ union ++
      "` clashes with the `orElse` helper parameter"
  | .repeated kind name =>
    "duplicate " ++ kind.words ++ " `" ++ name ++ "` in union `" ++ union ++ "`"

/-- The wording of a failure. -/
def Failure.message : Failure → String
  | .noUnion => "no union declaration found (expected `class <Name>`)"
  | .clash union offence => offence.message union
  | .emptyUnion union => "union `" ++ union ++ "` has no recognizable factory constructors"

/-- Names in a union are distinct where they have to be: `check_unique`. -/
def Declaration.check (d : Declaration) : Except Failure Unit :=
  match d.offence? with
  | some o => .error (.clash d.name o)
  | none => .ok ()

/-- The check passes exactly when there is no offence. -/
theorem check_eq_ok_iff {d : Declaration} : d.check = .ok () ↔ d.offence? = none := by
  unfold Declaration.check
  cases d.offence? with
  | none => exact iff_of_true rfl rfl
  | some o => exact iff_of_false (fun h => by cases h) (Option.some_ne_none o)

/-- What succeeds with a value succeeds with that value. -/
theorem eq_ok_of_toOption {ε α : Type} {x : Except ε α} {a : α} (h : x.toOption = some a) :
    x = .ok a := by
  cases x with
  | error e => cases h
  | ok b => exact congrArg Except.ok (Option.some.inj h)

/-- What has no value fails. -/
theorem exists_error_of_toOption {ε α : Type} {x : Except ε α} (h : x.toOption = none) :
    ∃ e, x = .error e := by
  cases x with
  | error e => exact ⟨e, rfl⟩
  | ok a => cases h

end DartUnion
