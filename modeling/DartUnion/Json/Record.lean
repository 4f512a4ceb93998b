import DartUnion.Json.Skip

/-!
# Typed values

`from_str_with_path` reads into a type: what a field has to be is known before it is read, so reading
is led by the expected type and the first thing that does not fit is the fault. A record is an object,
or a list with its fields in order. Fields of an object come in any order; unknown ones are passed
over, and one that comes twice is a fault.

* `unexpected` says what stands in the place of something else.
* `text`, `optionalText`, `list`, `record` read values.
* A `RecordType` lists the fields of a record with a partial record that collects them.
-/

namespace DartUnion.Json

/-- What stands here instead of what was expected, a scalar being read over. -/
def unexpected {α : Type} (expected : String) : Reader α := do
  let found ← kind
  fail (.wrongType found expected)
where
  /-- The kind of value that stands here. -/
  kind : Reader Found := do
    match (← get).head? with
    | none => failAhead .expectedValue
    | some c =>
      if c = 'n' then advance; exactly ['u', 'l', 'l']; return .null
      else if c = 't' then advance; exactly ['r', 'u', 'e']; return .bool true
      else if c = 'f' then advance; exactly ['a', 'l', 's', 'e']; return .bool false
      else if c = '-' then advance; number true
      else if c.isDigit then number false
      else if c = '"' then advance; return .string (← string)
      else if c = '[' then return .list
      else if c = '{' then return .object
      else failAhead .expectedValue

/-- A string. -/
def text : Reader String := do
  match ← nextToken with
  | none => failAhead .endInValue
  | some '"' => advance; string
  | some _ => unexpected "a string"

/-- A string or `null`. -/
def optionalText : Reader (Option String) := do
  match ← nextToken with
  | some 'n' => advance; exactly ['u', 'l', 'l']; return none
  | _ => return some (← text)

/-! ## Lists -/

/-- An element of a list follows; the list ends otherwise, its bracket being left. -/
def hasElement (first : Bool) : Reader Bool := do
  match ← nextToken with
  | none => failAhead .endInList
  | some c =>
    if c = ']' then return false
    else if c = ',' && !first then
      advance
      match ← nextToken with
      | some ']' => failAhead .trailingComma
      | some _ => return true
      | none => failAhead .endInValue
    else if first then return true
    else failAhead .expectedListEnd

/-- The elements from index `i` on, at most `fuel` of them. -/
def elements {α : Type} (element : Reader α) : (fuel i : Nat) → Reader (List α)
  | 0, _ => return []
  | fuel + 1, i => do
    if ← hasElement (i == 0) then
      let a ← under (.index i) element
      return a :: (← elements element fuel (i + 1))
    else return []

/-- The bracket that ends a list. -/
def endList : Reader Unit := do
  match ← nextToken with
  | none => failAhead .endInList
  | some c =>
    if c = ']' then advance
    else if c = ',' then
      advance
      match ← nextToken with
      | some ']' => failAhead .trailingComma
      | _ => failAhead .trailingCharacters
    else failAhead .trailingCharacters

/-- A list. -/
def list {α : Type} (element : Reader α) : Reader (List α) := do
  match ← nextToken with
  | none => failAhead .endInValue
  | some '[' =>
    advance
    let fuel := (← get).length + 1
    let xs ← elements element fuel 0
    endList
    return xs
  | some _ => unexpected "a sequence"

/-! ## Records -/

/-- A field of a record that is collected in a `σ`. -/
structure Field (σ : Type) where
  name : String
  /-- A record without the field is complete. -/
  optional : Bool := false
  /-- The field was read before. -/
  isSet : σ → Bool
  /-- Reads the field into the record. -/
  read : σ → Reader σ

/-- A type of records: its name in messages, its fields in order, and the record without any. -/
structure RecordType (σ : Type) where
  name : String
  fields : List (Field σ)
  empty : σ

/-- What a record of the type is called where one is missing. -/
def RecordType.expected {σ : Type} (t : RecordType σ) : String := "struct " ++ t.name

/-- The first field that a record lacks. -/
def RecordType.missing? {σ : Type} (t : RecordType σ) (r : σ) : Option String :=
  (t.fields.find? fun f => !f.optional && !f.isSet r).map Field.name

/-- The place to which a fault of a whole record is put: behind the bracket if that is next. -/
def behindClosing (closing : Char) : Reader Unit := do
  if (← nextToken) = some closing then advance

/-- The fields of a record that is written as a list, from index `i` on. Fields that may be missing
are the last ones of their record. -/
def positional {σ : Type} (t : RecordType σ) : (i : Nat) → List (Field σ) → σ → Reader σ
  | _, [], r => do endList; return r
  | i, f :: fs, r => do
    if ← hasElement (i == 0) then
      let r ← under (.index i) (f.read r)
      positional t (i + 1) fs r
    else if (f :: fs).all Field.optional then do endList; return r
    else
      behindClosing ']'
      fail (.wrongLength i (t.expected ++ " with " ++ toString t.fields.length ++ " elements"))

/-- A key follows, its quote being left; the object ends otherwise, its bracket being left. -/
def hasKey (first : Bool) : Reader Bool := do
  match ← nextToken with
  | none => failAhead .endInObject
  | some c =>
    if c = '}' then return false
    else if c = ',' && !first then
      advance
      match ← nextToken with
      | some '"' => return true
      | some '}' => failAhead .trailingComma
      | some _ => failAhead .keyNotString
      | none => failAhead .endInValue
    else if !first then failAhead .expectedObjectEnd
    else if c = '"' then return true
    else failAhead .keyNotString

/-- The next key of an object, if there is one. -/
def key? (first : Bool) : Reader (Option String) := do
  if ← hasKey first then
    advance
    return some (← string)
  else return none

/-- The colon behind a key. -/
def colon : Reader Unit := do
  match ← nextToken with
  | none => failAhead .endInObject
  | some ':' => advance
  | some _ => failAhead .expectedColon

/-- The fields of a record that is written as an object, `r` holding those read before, at most
`fuel` of them. -/
def keyed {σ : Type} (t : RecordType σ) : (fuel : Nat) → (first : Bool) → σ → Reader σ
  | 0, _, r => return r
  | fuel + 1, first, r => do
    match ← under .unknown (key? first) with
    | none =>
      advance
      match t.missing? r with
      | some name => fail (.missingField name)
      | none => return r
    | some k =>
      match t.fields.find? (·.name == k) with
      | some f =>
        if f.isSet r then
          behindClosing '}'
          fail (.duplicateField k)
        else
          colon
          let r ← under (.key k) (f.read r)
          keyed t fuel false r
      | none =>
        colon
        under (.key k) skipValue
        keyed t fuel false r

/-- A record. -/
def record {σ : Type} (t : RecordType σ) : Reader σ := do
  match ← nextToken with
  | none => failAhead .endInValue
  | some '[' => advance; positional t 0 t.fields t.empty
  | some '{' => advance; keyed t ((← get).length + 1) true t.empty
  | some _ => unexpected t.expected

end DartUnion.Json
