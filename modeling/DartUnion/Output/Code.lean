import DartUnion.Failure
import DartUnion.Output.Helper

/-!
# The generated code of a union

The code of a union is, in this order: the import, the sealed class with its factories, the look-up
by label and the text form, the extension with the helpers, and the class of each case. Sections are
separated by empty lines. Only a union without cases has no code.

* `generate` is a function of the declaration and the options: `codeLines` are the lines,
  `Declaration.code` the text or the failure. `sealedLines` are those of `emit_base`, `lookUpLines`
  those of `emit_from_string`, `textLines` those of `emit_to_string`, `extensionLines` those of
  `emit_extension`.
* `Codegen::emit` writes into a buffer that may hold other text. `putUnion` is that: it writes the code
  of a union piece by piece behind what is there, and `emit` is what the buffer holds then.
-/

namespace DartUnion

namespace Output

/-- The import that the sealed class needs, and an empty line. -/
def importLines (o : Options) : List Line :=
  if o.equatableImport then [⟨0, "import 'package:equatable/equatable.dart';"⟩, .blank] else []

/-- What an unmatched look-up evaluates to, by `fallback_variant`. -/
def fallbackBody (o : Options) (d : Declaration) : String :=
  match o.fallback.variant? d with
  | some v => construction d.name v
  | none => "throw ArgumentError.value(value, 'value')"

/-- The arms of the look-up by label. -/
def lookUpArms (o : Options) (d : Declaration) : List Arm :=
  d.variants.filterMap (lookUpArm? d.name) ++ [⟨.wildcard, fallbackBody o d⟩]

/-- The look-up by label, with an empty line in front: `emit_from_string`. -/
def lookUpLines (o : Options) (d : Declaration) : List Line :=
  if o.fromString then
    [.blank,
      ⟨1, "factory " ++ d.name ++ ".fromString(String value) \x7b"⟩,
      ⟨2, "return switch (value) \x7b"⟩] ++
    ((lookUpArms o d).map fun a => ⟨3, a.text⟩) ++
    [⟨2, "\x7d;"⟩, ⟨1, "\x7d"⟩]
  else []

/-- The arms of the text form. -/
def textArms (d : Declaration) : List Arm := d.variants.map (textArm "value")

/-- The text form of the union: `emit_to_string`. -/
def textLines (d : Declaration) : List Line :=
  [⟨1, "@override"⟩, ⟨1, "String toString() \x7b"⟩, ⟨2, "return switch (this) \x7b"⟩] ++
  ((textArms d).map fun a => ⟨3, a.text⟩) ++
  [⟨2, "\x7d;"⟩, ⟨1, "\x7d"⟩]

/-- The sealed class: `emit_base`. -/
def sealedLines (o : Options) (d : Declaration) : List Line :=
  [⟨0, "sealed class " ++ d.name ++ " extends Equatable \x7b"⟩,
    ⟨1, "const " ++ d.name ++ "();"⟩,
    .blank] ++
  (d.variants.map fun v => ⟨1, redirect d.name v⟩) ++
  lookUpLines o d ++
  [.blank] ++ textLines d ++ [⟨0, "\x7d"⟩]

/-- The helpers, with an empty line between two of them. -/
def helperLines (d : Declaration) : List Line :=
  [Line.blank].intercalate <|
    Family.all.map fun f => (f.method d.variants (bindingName d)).lines.map Line.deeper

/-- The extension with the helpers: `emit_extension`. -/
def extensionLines (o : Options) (d : Declaration) : List Line :=
  [⟨0, "extension " ++ d.name ++ o.helperSuffix ++ " on " ++ d.name ++ " \x7b"⟩] ++
  helperLines d ++ [⟨0, "\x7d"⟩]

/-- The code of a union, line by line. -/
def codeLines (o : Options) (d : Declaration) : List Line :=
  importLines o ++ sealedLines o d ++ [.blank] ++ extensionLines o d ++
  d.variants.flatMap fun v => .blank :: classLines d.name v

end Output

open Output

/-- The generated code of a union: `generate`. -/
def Declaration.code (d : Declaration) (o : Options) : Except Failure String :=
  if d.variants.isEmpty then .error (.emptyUnion d.name) else .ok (render (codeLines o d))

namespace Output

/-! ## Writing into a buffer -/

/-- What writes into a buffer. -/
abbrev Writer := StateM String Unit

/-- A text goes behind what the buffer holds. -/
def put (text : String) : Writer := modify (· ++ text)

/-- A line: two spaces per level, its text and a line end. This is `line`. -/
def putLine (depth : Nat) (text : String) : Writer := do
  (List.replicate depth "  ").forM put
  put text
  put "\n"

/-- An empty line: `blank`. -/
def putBlank : Writer := put "\n"

/-- The import that the sealed class needs, if it is wanted. -/
def putImport (o : Options) : Writer :=
  if o.equatableImport then do
    putLine 0 "import 'package:equatable/equatable.dart';"
    putBlank
  else pure ()

/-- The look-up by label, if it is wanted. -/
def putLookUp (o : Options) (d : Declaration) : Writer :=
  if o.fromString then do
    putBlank
    putLine 1 ("factory " ++ d.name ++ ".fromString(String value) \x7b")
    putLine 2 "return switch (value) \x7b"
    d.unitVariants.forM fun v => (lookUpArm? d.name v).toList.forM fun a => putLine 3 a.text
    putLine 3 (Arm.mk .wildcard (fallbackBody o d)).text
    putLine 2 "\x7d;"
    putLine 1 "\x7d"
  else pure ()

/-- The text form. -/
def putText (d : Declaration) : Writer := do
  putLine 1 "@override"
  putLine 1 "String toString() \x7b"
  putLine 2 "return switch (this) \x7b"
  d.variants.forM fun v => putLine 3 (textArm "value" v).text
  putLine 2 "\x7d;"
  putLine 1 "\x7d"

/-- The sealed class. -/
def putSealed (o : Options) (d : Declaration) : Writer := do
  putLine 0 ("sealed class " ++ d.name ++ " extends Equatable \x7b")
  putLine 1 ("const " ++ d.name ++ "();")
  putBlank
  d.variants.forM fun v => putLine 1 (redirect d.name v)
  putLookUp o d
  putBlank
  putText d
  putLine 0 "\x7d"

/-- The extension, with an empty line in front of every helper but the first. -/
def putExtension (o : Options) (d : Declaration) : Writer := do
  putLine 0 ("extension " ++ d.name ++ o.helperSuffix ++ " on " ++ d.name ++ " \x7b")
  Family.all.zipIdx.forM fun f => do
    (if f.2 = 0 then pure () else putBlank)
    (f.1.method d.variants (bindingName d)).lines.forM fun l => putLine (l.depth + 1) l.text
  putLine 0 "\x7d"

/-- The class of a case, with an empty line in front. -/
def putClass (union : String) (v : Variant) : Writer := do
  putBlank
  (classLines union v).forM fun l => putLine l.depth l.text

/-- The code of a union: `Codegen::emit`. A union without cases fails before anything is written. -/
def putUnion (o : Options) (d : Declaration) : ExceptT Failure (StateM String) Unit :=
  if d.variants.isEmpty then throw (.emptyUnion d.name)
  else ExceptT.lift do
    putImport o
    putSealed o d
    putBlank
    putExtension o d
    d.variants.forM (putClass d.name)

/-- What a buffer holds when the code of a union was written into it. -/
def emit (o : Options) (buffer : String) (d : Declaration) : Except Failure String :=
  let (result, text) := (putUnion o d).run.run buffer
  result.map fun _ => text

end Output

end DartUnion
