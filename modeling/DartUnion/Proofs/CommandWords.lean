import DartUnion.Command.Invocation
import DartUnion.Proofs.InPlace

/-!
# Command lines for one input

A setting that takes a value waits for it, and a word that names a setting of its own, or nothing
that is known, cannot be the value: the setting is settled too early and has none. So when such a
command line is accepted, the word behind the setting is its value (`readWords_value`).

* `CodeFlag`: what a command line can say about the generated code, in either spelling.
* `codeOptions flags`: the options that flags stand for.

Results:
* `readWords_flags`: **flags are settled one behind the other.**
* `job_of_inputWords`: the job of one input with flags behind it, whatever is settled in front.
* `job_of_sourceWords`, `job_of_modelFileWords`, `job_of_modelWords`: **the jobs of command lines
  with one input**, for code from a source text, for code from a model, and for a model.
-/

namespace DartUnion.Command

variable {known : List Setting} {r : Reading} {g given : Given} {rest : List String} {text : String}

/-! ## Values -/

/-- What is settled is added at the end. -/
theorem eq_of_add {s : Setting} {values : List String} {g' : Given}
    (h : g.add s values = .ok g') : g' = g ++ [(s, values)] := by
  unfold Given.add at h
  split at h
  · cases h
  · split at h
    · cases h
    · split at h
      · cases h
      · split at h
        · cases h
        · exact (Except.ok.inj h).symm

/-- A setting that waits for its first value cannot be settled. -/
theorem settle_of_waiting {s : Setting} (hw : r.waiting = some (s, [])) (hs : s.takes ≠ .nothing) :
    r.settle = .error .badValue := by
  unfold Reading.settle Given.add
  rw [hw]
  simp only [ne_eq, hs, not_false_eq_true, decide_true, List.isEmpty_nil, Bool.and_self, if_true]

section Unsettled

variable {e : UsageError} (h : r.settle = .error e)
include h

theorem complete_of_settle (s : Setting) (values : List String) :
    r.complete s values = .error e := by
  unfold Reading.complete
  rw [h]
  rfl

theorem await_of_settle (s : Setting) : r.await s = .error e := by
  unfold Reading.await
  rw [h]
  rfl

theorem longWord_of_settle (known : List Setting) (s : List Char) :
    ∃ e', r.longWord known s = .error e' := by
  unfold Reading.longWord
  simp only
  split
  · exact ⟨_, rfl⟩
  · unfold Reading.name
    rw [complete_of_settle h, await_of_settle h]
    split <;> exact ⟨e, rfl⟩
  · rw [complete_of_settle h]
    split <;> exact ⟨_, rfl⟩

theorem letters_of_settle (known : List Setting) (c : Char) (s : List Char) :
    ∃ e', Reading.letters known r (c :: s) = .error e' := by
  unfold Reading.letters
  split
  · exact ⟨_, rfl⟩
  · rw [complete_of_settle h, complete_of_settle h, await_of_settle h]
    split
    · exact ⟨e, rfl⟩
    · split <;> exact ⟨e, rfl⟩

/-- While something cannot be settled, a word that is accepted names nothing. -/
theorem word_of_settle {r' : Reading} (hword : r.word known text = .ok r') :
    r.plainWord text = .ok r' := by
  unfold Reading.word at hword
  split at hword
  · obtain ⟨e', he⟩ := longWord_of_settle h known _
    rw [he] at hword
    cases hword
  · obtain ⟨e', he⟩ := letters_of_settle h known _ _
    rw [he] at hword
    cases hword
  · exact hword

end Unsettled

/-- **The word behind a setting that takes a value is its value.** -/
theorem readWords_value {s : Setting} (hs : s.takes ≠ .nothing)
    (h : readWords known ⟨given, some (s, [])⟩ (text :: rest) = .ok g) :
    readWords known ⟨given, some (s, [text])⟩ rest = .ok g := by
  have hsettle := settle_of_waiting (r := ⟨given, some (s, [])⟩) rfl hs
  unfold readWords at h
  split at h
  · split at h
    · rw [hsettle] at h
      cases h
    · cases h
  · obtain ⟨r', hword, hrest⟩ := bind_eq_ok_iff.1 h
    have hplain := word_of_settle hsettle hword
    simp only [Reading.plainWord, List.isEmpty_nil, Bool.or_true, if_true, List.nil_append] at hplain
    rw [Except.ok.inj hplain]
    exact hrest

/-! ## Flags -/

/-- What a command line can say about the generated code. A value stands behind its setting as a
word of its own, or it is attached. -/
inductive CodeFlag where
  | noImport
  | noFromString
  | fallback (fallback : Output.Fallback) (attached : Bool)
  | helperSuffix (suffix : String) (attached : Bool)
  deriving Repr, DecidableEq

/-- The settings that flags are about. -/
def codeSettings : List Setting := [.noImport, .noFromString, .fallback, .helperSuffix]

/-- The words for a setting with its value. -/
def valueWords (s : Setting) (value : String) (attached : Bool) : List String :=
  if attached then ["--" ++ s.word ++ "=" ++ value] else ["--" ++ s.word, value]

/-- The value that a fallback is chosen by. -/
def fallbackValue : Output.Fallback → String
  | .firstVariant => "first"
  | .throwError => "throw"

namespace CodeFlag

/-- The words of a flag. -/
def words : CodeFlag → List String
  | .noImport => ["--no-import"]
  | .noFromString => ["--no-from-string"]
  | .fallback choice attached => valueWords .fallback (fallbackValue choice) attached
  | .helperSuffix suffix attached => valueWords .helperSuffix suffix attached

/-- The setting of a flag with its values, as it is settled. -/
def entry : CodeFlag → Setting × List String
  | .noImport => (.noImport, [])
  | .noFromString => (.noFromString, [])
  | .fallback choice _ => (.fallback, [fallbackValue choice])
  | .helperSuffix suffix _ => (.helperSuffix, [suffix])

end CodeFlag

/-- The word of a setting that takes a value leaves it waiting. -/
theorem word_separate {s : Setting} (hs : s = .fallback ∨ s = .helperSuffix) (r : Reading) :
    "--" ++ s.word ≠ "--" ∧ r.word Kind.dart.settings ("--" ++ s.word) = r.await s := by
  rcases hs with rfl | rfl
  · exact ⟨by decide, rfl⟩
  · exact ⟨by decide, rfl⟩

/-- The word with the value attached completes the setting, whatever the value starts with. -/
theorem word_attached {s : Setting} (hs : s = .fallback ∨ s = .helperSuffix) (r : Reading)
    (value : String) : "--" ++ s.word ++ "=" ++ value ≠ "--" ∧
      r.word Kind.dart.settings ("--" ++ s.word ++ "=" ++ value) = r.complete s [value] := by
  have hlist : ("--" ++ s.word ++ "=" ++ value).toList =
      '-' :: '-' :: (s.word.toList ++ '=' :: value.toList) := by
    simp only [String.toList_append, List.append_assoc]
    rfl
  have hvalue : String.ofList value.toList = value := String.ofList_toList
  constructor
  · intro h
    rw [h] at hlist
    exact absurd (List.cons.inj (List.cons.inj hlist).2).2 (by simp)
  · unfold Reading.word
    rw [hlist]
    -- no word of a setting holds an equals sign, so the first one ends the word
    rcases hs with rfl | rfl
    · exact congrArg (fun v => r.complete .fallback [v]) hvalue
    · exact congrArg (fun v => r.complete .helperSuffix [v]) hvalue

/-- The reading goes on behind what was settled first, with one more setting. -/
def Settles (r : Reading) (entry : Setting × List String) (rest : List String) (g : Given) :
    Prop :=
  ∃ r' given, r.settle = .ok given ∧ r'.settle = given.add entry.1 entry.2 ∧
    readWords Kind.dart.settings r' rest = .ok g

/-- A setting with all its values is settled at once. -/
theorem settles_of_complete {s : Setting} {values : List String} {r' : Reading}
    (h : r.complete s values = .ok r') (hrest : readWords Kind.dart.settings r' rest = .ok g) :
    Settles r (s, values) rest g := by
  obtain ⟨given, hgiven, hadd⟩ := bind_eq_ok_iff.1 h
  obtain ⟨added, hadded, hdone⟩ := bind_eq_ok_iff.1 hadd
  obtain rfl := Except.ok.inj hdone
  exact ⟨{ given := added }, given, hgiven, hadded.symm, hrest⟩

/-- A setting with its value is settled in either spelling. -/
theorem settles_value {s : Setting} (hs : s = .fallback ∨ s = .helperSuffix) {value : String}
    {attached : Bool}
    (h : readWords Kind.dart.settings r (valueWords s value attached ++ rest) = .ok g) :
    Settles r (s, [value]) rest g := by
  cases attached with
  | true =>
    obtain ⟨hdashes, hword⟩ := word_attached hs r value
    rw [valueWords, if_pos rfl, List.singleton_append, readWords, if_neg hdashes, hword] at h
    obtain ⟨r', hcomplete, hrest⟩ := bind_eq_ok_iff.1 h
    exact settles_of_complete hcomplete hrest
  | false =>
    obtain ⟨hdashes, hword⟩ := word_separate hs r
    have htakes : s.takes ≠ .nothing := by
      rcases hs with rfl | rfl <;> decide
    rw [valueWords, if_neg Bool.false_ne_true, List.cons_append, readWords, if_neg hdashes,
      hword] at h
    obtain ⟨r', hawait, hrest⟩ := bind_eq_ok_iff.1 h
    obtain ⟨given, hgiven, hdone⟩ := bind_eq_ok_iff.1 hawait
    obtain rfl := Except.ok.inj hdone
    exact ⟨_, given, hgiven, rfl, readWords_value htakes hrest⟩

/-- **A flag is settled behind what came before it.** -/
theorem settles_flag (flag : CodeFlag)
    (h : readWords Kind.dart.settings r (flag.words ++ rest) = .ok g) :
    Settles r flag.entry rest g := by
  cases flag with
  | noImport =>
    obtain ⟨r', hcomplete, hrest⟩ := bind_eq_ok_iff.1 h
    exact settles_of_complete hcomplete hrest
  | noFromString =>
    obtain ⟨r', hcomplete, hrest⟩ := bind_eq_ok_iff.1 h
    exact settles_of_complete hcomplete hrest
  | fallback choice attached => exact settles_value (.inl rfl) h
  | helperSuffix suffix attached => exact settles_value (.inr rfl) h

/-- **Flags are settled one behind the other.** -/
theorem readWords_flags {flags : List CodeFlag}
    (h : readWords Kind.dart.settings r (flags.flatMap CodeFlag.words) = .ok g) :
    ∃ given, r.settle = .ok given ∧ g = given ++ flags.map CodeFlag.entry := by
  induction flags generalizing r with
  | nil =>
    refine ⟨g, h, ?_⟩
    rw [List.map_nil, List.append_nil]
  | cons flag flags ih =>
    rw [List.flatMap_cons] at h
    obtain ⟨r', given, hgiven, hsettle, hrest⟩ := settles_flag flag h
    obtain ⟨given', hgiven', rfl⟩ := ih hrest
    rw [hsettle] at hgiven'
    refine ⟨given, hgiven, ?_⟩
    rw [eq_of_add hgiven', List.map_cons, List.append_assoc]
    rfl

/-! ## Jobs -/

/-- What flags say about the generated code. -/
def codeOptions (flags : List CodeFlag) : Output.Options := Given.options (flags.map CodeFlag.entry)

theorem has_eq_false_iff {s : Setting} : g.has s = false ↔ s ∉ g.map Prod.fst := by
  unfold Given.has
  rw [List.any_eq_false, List.mem_map, not_exists]
  simp only [beq_iff_eq, not_and]

/-- Flags set nothing else. -/
theorem has_flags {s : Setting} (hs : s ∉ codeSettings) (flags : List CodeFlag) :
    Given.has (flags.map CodeFlag.entry) s = false := by
  rw [has_eq_false_iff, List.map_map, List.mem_map]
  rintro ⟨flag, -, rfl⟩
  apply hs
  cases flag <;>
    simp only [Function.comp_apply, CodeFlag.entry, codeSettings, List.mem_cons, true_or, or_true]

theorem Given.has_append (front back : Given) (s : Setting) :
    Given.has (front ++ back) s = (front.has s || back.has s) :=
  List.any_append

theorem Given.values_append (front back : Given) (s : Setting) :
    Given.values (front ++ back) s = front.values s ++ back.values s :=
  List.flatMap_append

/-- What says nothing about the generated code leaves the options as they are. -/
theorem options_append {front : Given} (h : ∀ s ∈ codeSettings, s ∉ front.map Prod.fst)
    (back : Given) : Given.options (front ++ back) = back.options := by
  have himport := has_eq_false_iff.2 (h .noImport (by decide))
  have hfrom := has_eq_false_iff.2 (h .noFromString (by decide))
  have hfallback := values_of_not_has (has_eq_false_iff.2 (h .fallback (by decide)))
  have hsuffix := values_of_not_has (has_eq_false_iff.2 (h .helperSuffix (by decide)))
  simp only [Given.options, Given.fallback, Given.has_append, Given.values_append, himport, hfrom,
    hfallback, hsuffix, Bool.false_or, List.nil_append]

/-- What is said in front of flags, and what they say. -/
theorem job_append_flags (front : Given) (h : ∀ s ∈ codeSettings, s ∉ front.map Prod.fst)
    (flags : List CodeFlag) :
    Given.job (front ++ flags.map CodeFlag.entry) .dart = .dart {
      inputs := front.values .input
      fromModel := front.has .fromModel
      out := (front.values .out).head?
      inPlace := front.has .inPlace
      options := codeOptions flags
      noOp := front.has .noOp } := by
  have hinput := values_of_not_has (has_flags (s := .input) (by decide) flags)
  have hout := values_of_not_has (has_flags (s := .out) (by decide) flags)
  have hmodel := has_flags (s := .fromModel) (by decide) flags
  have hplace := has_flags (s := .inPlace) (by decide) flags
  have hnoOp := has_flags (s := .noOp) (by decide) flags
  simp only [Given.job, Given.has_append, Given.values_append, hinput, hout, hmodel, hplace, hnoOp,
    Bool.or_false, List.append_nil, options_append h, codeOptions]

/-- A command line that is accepted describes the job of its settings. -/
theorem job_of_ofCommand {outer : Given} {kind : Kind} {words : List String} {i : Invocation}
    (h : Invocation.ofCommand outer kind words = .ok i) :
    ∃ given, readWords kind.settings {} words = .ok given ∧ i.job = given.job kind := by
  obtain ⟨given, hgiven, h⟩ := bind_eq_ok_iff.1 h
  split at h
  · cases h
  · split at h
    · cases h
    · exact ⟨given, hgiven, congrArg Invocation.job (Except.ok.inj h).symm⟩

variable {i : Invocation} {flags : List CodeFlag} {f m : String}

/-- **One input and flags.** The words in front of the input settle `front`, which says nothing about
the generated code; the input and the flags settle the rest. -/
theorem job_of_inputWords (front : Given) (hfront : ∀ s ∈ codeSettings, s ∉ front.map Prod.fst)
    (words : List String)
    (hreads : ∀ rest, readWords Kind.dart.settings {} (words ++ "-i" :: rest) =
      readWords Kind.dart.settings ⟨front, some (.input, [])⟩ rest)
    (h : Invocation.ofWords ("dart" :: (words ++ "-i" :: f :: flags.flatMap CodeFlag.words)) =
      .ok i) :
    i.job = .dart {
      inputs := front.values .input ++ [f]
      fromModel := front.has .fromModel
      out := (front.values .out).head?
      inPlace := front.has .inPlace
      options := codeOptions flags
      noOp := front.has .noOp } := by
  obtain ⟨given, hgiven, hjob⟩ := job_of_ofCommand h
  have hwords : readWords Kind.dart.settings ⟨front, some (.input, [f])⟩
      (flags.flatMap CodeFlag.words) = .ok given :=
    readWords_value (by decide) ((hreads _).symm.trans hgiven)
  obtain ⟨settled, hsettle, rfl⟩ := readWords_flags hwords
  have hinput : Setting.input ∉ codeSettings := by decide
  have hsettled : ∀ s ∈ codeSettings, s ∉ (front ++ [(Setting.input, [f])]).map Prod.fst := by
    intro s hs hmem
    rw [List.map_append] at hmem
    rcases List.mem_append.1 hmem with hmem | hmem
    · exact hfront s hs hmem
    · rw [List.mem_singleton.1 hmem] at hs
      exact hinput hs
  rw [hjob, eq_of_add hsettle]
  refine (job_append_flags (front ++ [(.input, [f])]) hsettled flags).trans ?_
  simp [Given.has, Given.values]

/-- **Code from a source text.** -/
theorem job_of_sourceWords
    (h : Invocation.ofWords (["dart", "-i", f] ++ flags.flatMap CodeFlag.words) = .ok i) :
    i.job = .dart { inputs := [f], options := codeOptions flags } :=
  job_of_inputWords [] (by decide) [] (fun _ => rfl) h

/-- **Code from a model.** -/
theorem job_of_modelFileWords
    (h : Invocation.ofWords (["dart", "--from-model", "-i", m] ++ flags.flatMap CodeFlag.words) =
      .ok i) :
    i.job = .dart { inputs := [m], fromModel := true, options := codeOptions flags } :=
  job_of_inputWords [(.fromModel, [])] (by decide) ["--from-model"] (fun _ => rfl) h

/-- **A model in a file.** -/
theorem job_of_modelWords (h : Invocation.ofWords ["model", "-i", f, "-o", m] = .ok i) :
    i.job = .model { inputs := [f], out := some m } := by
  obtain ⟨given, hgiven, hjob⟩ := job_of_ofCommand h
  have hout : readWords Kind.model.settings ⟨[], some (.input, [f])⟩ ["-o", m] = .ok given :=
    readWords_value (by decide) hgiven
  have hfile : readWords Kind.model.settings ⟨[(.input, [f])], some (.out, [])⟩ [m] = .ok given :=
    hout
  have hsettle : Given.add [(.input, [f])] .out [m] = .ok given := readWords_value (by decide) hfile
  rw [hjob, eq_of_add hsettle]
  rfl

end DartUnion.Command
