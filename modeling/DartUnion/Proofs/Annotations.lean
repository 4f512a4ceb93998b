import DartUnion.Proofs.KeptText

/-!
# Annotations in front of a parameter

The brackets of a parameter list are counted, so an annotation with any arguments stays in one
piece. When the annotation is dropped, though, its arguments are taken to end at the first bracket
that closes. What is left of the arguments then stands in front of the type, and the bracket that
closes them stays there whatever is dropped next.

* A text `Closes` when its round brackets are nested up to brackets that were opened in front of it.

Results:
* `parameter?_annotated`: an annotation is dropped up to the first closing bracket of its arguments.
* `unmodified_behind_bracket`: no annotation or modifier that is dropped reaches past the bracket
  behind a text that closes.
* `parameters_annotated_iff`: **an annotation is dropped whole exactly when no bracket closes within
  its arguments.**
-/

namespace DartUnion.Source

open DartUnion.Text DartUnion.Dart

/-! ## Dropping an annotation -/

/-- A text that does not end with a blank only has blanks in front. -/
theorem isTrimmed_trimStart {s : List Char} {last : Char} (hlast : s.getLast? = some last)
    (hb : isBlank last = false) : IsTrimmed (trimStart s) := by
  refine ⟨fun c => head?_trimStart, fun c hc => ?_⟩
  obtain ⟨gap, -, hs⟩ := eq_gap_append_trimStart s
  rw [hs, getLast?_append_of_ne_nil gap (by rintro he; rw [he] at hc; cases hc), hc] at hlast
  rwa [Option.some.inj hlast]

section

variable {name args : List Char} (hn : annotationName.accepts name = true)

include hn

/-- A character that no annotation name holds. -/
theorem not_mem_annotationName {c : Char} (hs : annotationName.start c = false)
    (hx : annotationName.next c = false) : c ∉ name := by
  cases name with
  | nil => exact List.not_mem_nil
  | cons d name =>
    simp only [NameClass.accepts, Bool.and_eq_true, List.all_eq_true] at hn
    rintro (_ | ⟨_, hm⟩)
    · rw [hs] at hn
      exact Bool.false_ne_true hn.1
    · have := hn.2 c hm
      rw [hx] at this
      exact Bool.false_ne_true this

theorem guarded_annotationName : Guarded name := by
  have hne : ∀ d, annotationName.start d = false → annotationName.next d = false →
      ∀ c ∈ name, c ≠ d := by
    rintro d hs hx c hc rfl
    exact not_mem_annotationName hn hs hx hc
  refine guarded_of_neutral fun c hc => ⟨?_, hne ',' rfl rfl c hc⟩
  simp [Neutral, isOpening, isClosing, hne '(' rfl rfl c hc, hne '<' rfl rfl c hc,
    hne '[' rfl rfl c hc, hne '{' rfl rfl c hc, hne ')' rfl rfl c hc, hne '>' rfl rfl c hc,
    hne ']' rfl rfl c hc, hne '}' rfl rfl c hc]

/-- Arguments are dropped up to their first closing bracket. -/
theorem dropAnnotation?_arguments (ha : ')' ∉ args) (s : List Char) :
    dropAnnotation? ('@' :: (name ++ '(' :: (args ++ ')' :: s))) = some (trimStart s) := by
  have hscan : annotationName.scan? (name ++ '(' :: (args ++ ')' :: s)) =
      some (name, '(' :: (args ++ ')' :: s)) := by
    refine scan?_name hn fun c hc => ?_
    obtain rfl : '(' = c := Option.some.inj hc
    rfl
  have hclosing : (args ++ ')' :: s).dropWhile (· != ')') = ')' :: s := by
    rw [List.dropWhile_append_of_pos]
    · rfl
    · intro c hc
      simp only [bne_iff_ne, ne_eq]
      rintro rfl
      exact ha hc
  simp [dropAnnotation?, hscan, hclosing]

/-- **What stands behind the first closing bracket of an annotation** is all that is read. -/
theorem parameter?_annotated (ha : ')' ∉ args) {s : List Char} {last : Char}
    (hlast : s.getLast? = some last) (hb : isBlank last = false) (g : Group) :
    Piece.parameter? ⟨'@' :: (name ++ '(' :: (args ++ ')' :: s)), g⟩ =
      Piece.parameter? ⟨s, g⟩ := by
  have htrim : trim s = trimStart s := trimEnd_of_isTrimmed (isTrimmed_trimStart hlast hb)
  have hwhole : '@' :: (name ++ '(' :: (args ++ ')' :: s)) =
      '@' :: (name ++ '(' :: (args ++ [')'])) ++ s := by simp
  have htrimmed : IsTrimmed ('@' :: (name ++ '(' :: (args ++ ')' :: s))) := by
    refine ⟨fun c hc => ?_, fun c hc => ?_⟩
    · obtain rfl : '@' = c := Option.some.inj hc
      rfl
    · rw [hwhole, getLast?_append_of_ne_nil _ (by rintro rfl; cases hlast), hlast] at hc
      rwa [← Option.some.inj hc]
  have hdrop : dropAnnotations ('@' :: (name ++ '(' :: (args ++ ')' :: s))) =
      dropAnnotations (trimStart s) := by
    rw [dropAnnotations]
    split
    · next he =>
      rw [dropAnnotation?_arguments hn ha] at he
      rw [Option.some.inj he]
    · next he =>
      rw [dropAnnotation?_arguments hn ha] at he
      cases he
  unfold Piece.parameter?
  simp only [trim_of_isTrimmed htrimmed, hdrop, htrim]

end

/-! ## The bracket behind a text that closes -/

/-- The round brackets of a text are nested, up to some that were opened in front of it and that it
closes as well. -/
def Closes (s : List Char) : Prop := ∃ due, due? [Bracket.round] due s = some []

theorem Closes.of_append {s t : List Char} (h : Closes (s ++ t)) : Closes t := by
  obtain ⟨due, h⟩ := h
  rw [due?_append] at h
  obtain ⟨due', -, ht⟩ := Option.bind_eq_some_iff.1 h
  exact ⟨due', ht⟩

theorem Closes.trimStart {s : List Char} (h : Closes s) : Closes (trimStart s) := by
  obtain ⟨gap, -, hs⟩ := eq_gap_append_trimStart s
  rw [hs] at h
  exact h.of_append

/-- What is due is closed by some bracket. -/
theorem mem_of_due? {d : Char} {due s : List Char}
    (h : due? [Bracket.round] (d :: due) s = some []) : ')' ∈ s := by
  induction s generalizing d due with
  | nil => cases h
  | cons c s ih =>
    by_cases hc : c = ')'
    · rw [hc]
      exact List.mem_cons_self
    · rw [due?_cons, dueAfter?_round, if_neg hc] at h
      refine List.mem_cons_of_mem c ?_
      split at h
      · exact ih h
      · exact ih h

/-- A bracket that such a text opens, it closes. -/
theorem Closes.mem {s : List Char} (h : Closes ('(' :: s)) : ')' ∈ s := by
  obtain ⟨due, h⟩ := h
  exact mem_of_due? h

section

variable {s rest : List Char}

/-- A front without closing brackets ends in front of the first. -/
theorem eq_behind_bracket {front t : List Char} (hf : ')' ∉ front)
    (h : s ++ ')' :: rest = front ++ t) : ∃ u, s = front ++ u ∧ t = u ++ ')' :: rest := by
  rcases List.append_eq_append_iff.1 h with ⟨u, hfront, ht⟩ | ⟨u, hs, ht⟩
  · cases u with
    | nil => exact ⟨[], by simpa using hfront.symm, ht.symm⟩
    | cons c u =>
      obtain rfl : ')' = c := (List.cons.inj ht).1
      simp [hfront] at hf
  · exact ⟨u, hs, ht⟩

theorem trimStart_behind_bracket : trimStart (s ++ ')' :: rest) = trimStart s ++ ')' :: rest := by
  obtain ⟨gap, hgap, hs⟩ := eq_gap_append_trimStart s
  rw [hs, List.append_assoc, trimStart_of_isGap hgap, trimStart_of_isGap hgap]
  have htrimmed : ∀ c, (trimStart s ++ ')' :: rest).head? = some c → isBlank c = false := by
    intro c hc
    rw [List.head?_append] at hc
    cases h : (trimStart s).head? with
    | none =>
      rw [h] at hc
      obtain rfl : ')' = c := Option.some.inj hc
      rfl
    | some d =>
      rw [h] at hc
      obtain rfl : d = c := Option.some.inj hc
      exact head?_trimStart h
  rw [trimStart_of_head?_ne htrimmed, trimStart_of_head?_ne fun _ => head?_trimStart]

/-- An annotation in such a text ends in it. -/
theorem dropAnnotation?_behind_bracket (hs : Closes s) {t : List Char}
    (h : dropAnnotation? (s ++ ')' :: rest) = some t) :
    ∃ u, Closes u ∧ t = u ++ ')' :: rest := by
  obtain ⟨name, behind, hname, heq, ht⟩ := eq_of_dropAnnotation? h
  have hfront : ')' ∉ '@' :: name := by
    simpa using not_mem_annotationName hname (c := ')') rfl rfl
  obtain ⟨u, rfl, rfl⟩ := eq_behind_bracket hfront heq
  have hu : Closes u := hs.of_append
  rcases ht with rfl | ⟨args, v, hargs, hbehind, rfl⟩
  · exact ⟨_, hu.trimStart, trimStart_behind_bracket⟩
  · -- the arguments start in the text, so they end there
    cases u with
    | nil => exact absurd (List.cons.inj hbehind).1 (by decide)
    | cons c u =>
      obtain ⟨rfl, hrest⟩ := List.cons.inj hbehind
      obtain ⟨w, rfl, hw⟩ := eq_behind_bracket hargs hrest
      cases w with
      | nil =>
        rw [List.append_nil] at hu
        exact absurd hu.mem hargs
      | cons d w =>
        obtain ⟨rfl, rfl⟩ := List.cons.inj hw
        have hclosed : Closes w := Closes.of_append (s := '(' :: (args ++ [')'])) (by simpa using hu)
        exact ⟨_, hclosed.trimStart, trimStart_behind_bracket⟩

theorem dropAnnotations_behind_bracket (hs : Closes s) :
    ∃ u, dropAnnotations (s ++ ')' :: rest) = u ++ ')' :: rest := by
  generalize htext : s ++ ')' :: rest = text
  fun_induction dropAnnotations text generalizing s with
  | case1 text t h ih =>
    subst htext
    obtain ⟨u, hu, rfl⟩ := dropAnnotation?_behind_bracket hs h
    exact ih hu rfl
  | case2 text h => exact ⟨s, htext.symm⟩

theorem dropModifier_behind_bracket {modifier : String} (hm : ')' ∉ modifier.toList) :
    ∃ u, dropModifier modifier (s ++ ')' :: rest) = u ++ ')' :: rest := by
  unfold dropModifier
  cases h : dropModifier? modifier (s ++ ')' :: rest) with
  | none => exact ⟨s, rfl⟩
  | some t =>
    obtain ⟨behind, hword, hblanks⟩ := Option.bind_eq_some_iff.1 h
    obtain ⟨u, -, rfl⟩ := eq_behind_bracket hm (eq_append_of_dropWord? hword)
    unfold dropBlanks? at hblanks
    split at hblanks
    · exact ⟨trimStart u, by rw [← trimStart_behind_bracket, Option.getD_some,
        Option.some.inj hblanks]⟩
    · cases hblanks

/-- **Nothing that is dropped reaches past the bracket** behind a text that closes. -/
theorem unmodified_behind_bracket (hs : Closes s) {p : Piece}
    (hp : trim p.text = s ++ ')' :: rest) : ∃ u, p.unmodified = u ++ ')' :: rest := by
  unfold Piece.unmodified
  rw [hp]
  obtain ⟨u, hu⟩ := @dropAnnotations_behind_bracket s rest hs
  obtain ⟨v, hv⟩ := @dropModifier_behind_bracket u rest "required" (by decide)
  obtain ⟨w, hw⟩ := @dropModifier_behind_bracket v rest "covariant" (by decide)
  rw [hu, hv, hw]
  exact dropModifier_behind_bracket (by decide)

end

/-! ## Parameters with an annotation -/

section

variable {name args type n : List Char}

/-- A bracket in front of a declaration stays in the type or in the default. -/
theorem parameter?_ne_of_bracket (ht : IsBareType type) (hn : identifier.accepts n = true)
    {p : Piece} {s : List Char} (hp : p.unmodified = s ++ ')' :: ' ' :: (type ++ ' ' :: n))
    {q : Parameter} (hq : p.parameter? = some q) (htype : q.typeExpression.toList = type)
    (hname : q.name.toList = n) : q.defaultValue ≠ none := by
  obtain ⟨declared, value, hparts, hread, hdefault⟩ := eq_of_parameter? hq
  obtain ⟨⟨gap, hgap, hdeclared⟩, -⟩ := eq_of_typeAndName? hread
  rw [htype, hname] at hdeclared
  rcases hparts with ⟨rfl, -⟩ | ⟨x, y, hsides, -, rfl⟩
  · -- without a default the declaration has one bracket too many
    have hcount := congrArg (List.count ')') (hp.symm.trans hdeclared)
    have hgap' : gap.count ')' = 0 := List.count_eq_zero.2 (hgap.not_mem rfl)
    simp only [List.count_append, List.count_cons_self, List.count_cons_of_ne
      (by decide : ' ' ≠ ')'), hgap'] at hcount
    omega
  · -- the `=` stands in front of the bracket, so the default holds it
    have hequals : '=' ∉ ')' :: ' ' :: (type ++ ' ' :: n) := by
      have htype : '=' ∉ type := fun hm => (ht.plain _ hm).1 rfl
      have hname : '=' ∉ n := fun hm => ne_of_next (next_of_accepts hn hm) rfl rfl
      simp [htype, hname]
    have hmem : ')' ∈ y := by
      rcases List.append_eq_append_iff.1 (hsides.symm.trans hp) with ⟨u, -, hu⟩ | ⟨u, -, hu⟩
      · cases u with
        | nil => exact absurd (List.cons.inj hu).1 (by decide)
        | cons c u =>
          rw [(List.cons.inj hu).2]
          simp
      · rw [hu] at hequals
        simp at hequals
    have hvalue : trim y ≠ [] := List.ne_nil_of_mem (mem_trim rfl hmem)
    rw [hdefault, if_neg (by simpa using hvalue)]
    exact Option.some_ne_none _

/-- A bare parameter without a default is read as itself, with or without a space in front. -/
theorem parameter?_bareDeclaration (ht : IsBareType type) (hn : identifier.accepts n = true)
    {gap : List Char} (hg : IsGap gap) :
    Piece.parameter? ⟨gap ++ (type ++ ' ' :: n), .positional⟩ =
      some ⟨String.ofList n, String.ofList type, none, .positional⟩ := by
  have hread := parameter?_unmodified .positional nofun ht hn hg isGap_nil .absent nofun
  rwa [List.append_nil, List.append_nil] at hread

/-- Guarded text that does not start like a group is a list of one piece. -/
theorem parameters_of_guarded {s : List Char} (h : Guarded s)
    (hfront : ∀ c, s.head? = some c → isBlank c = false ∧ c ≠ '[' ∧ c ≠ '{') :
    parameters s = (Piece.parameter? ⟨s, .positional⟩).toList := by
  rw [parameters_eq]
  refine parametersFrom_last h rfl fun c hc => ?_
  rw [trimStart_of_head?_ne fun c hc => (hfront c hc).1] at hc
  exact (hfront c hc).2

theorem guarded_bareDeclaration (ht : IsBareType type) (hn : identifier.accepts n = true) :
    Guarded (type ++ ' ' :: n) :=
  guarded_append ht.guarded (guarded_append (s := [' ']) (by decide) (guarded_of_accepts hn))

theorem parameters_bareDeclaration (ht : IsBareType type) (hn : identifier.accepts n = true) :
    parameters (type ++ ' ' :: n) =
      [⟨String.ofList n, String.ofList type, none, .positional⟩] := by
  have hread := parameter?_bareDeclaration ht hn isGap_nil
  rw [List.nil_append] at hread
  rw [parameters_of_guarded (guarded_bareDeclaration ht hn), hread]
  · rfl
  · intro c hc
    have hhead : type.head? = some c := by
      obtain ⟨d, t, rfl⟩ := List.exists_cons_of_ne_nil ht.ne_nil
      exact hc
    obtain ⟨-, hsquare, hcurly⟩ := ht.front
    refine ⟨(isTrimmed_of_trim_eq ht.trimmed).1 c hhead, ?_, ?_⟩
    · rintro rfl
      exact hsquare hhead
    · rintro rfl
      exact hcurly hhead

theorem guarded_annotated (hname : annotationName.accepts name = true)
    (hargs : Nested Bracket.all args) {s : List Char} (hs : Guarded s) :
    Guarded ('@' :: (name ++ '(' :: (args ++ ')' :: s))) :=
  guarded_append (s := ['@']) (by decide) (guarded_append (guarded_annotationName hname)
    (guarded_bracketed (b := Bracket.round) (by decide) hargs hs))

/-- A declaration ends with its name, and so with no blank. -/
theorem getLast?_declaration (hn : identifier.accepts n = true) (front type : List Char) :
    ∃ last, (front ++ ' ' :: (type ++ ' ' :: n)).getLast? = some last ∧ isBlank last = false := by
  have hne := ne_nil_of_accepts hn
  obtain ⟨last, hlast⟩ := Option.ne_none_iff_exists'.1 (mt List.getLast?_eq_none_iff.1 hne)
  refine ⟨last, ?_, isBlank_of_accepts hn last (List.mem_of_getLast? hlast)⟩
  have hparts : front ++ ' ' :: (type ++ ' ' :: n) = front ++ ' ' :: (type ++ [' ']) ++ n := by simp
  rw [hparts, getLast?_append_of_ne_nil _ hne, hlast]

/-- What is left of arguments that a bracket cuts does not read as the declaration behind them. -/
theorem parameter?_cut_ne (ht : IsBareType type) (hn : identifier.accepts n = true)
    {front back : List Char} (hargs : Nested Bracket.all (front ++ ')' :: back)) :
    Piece.parameter? ⟨back ++ ')' :: ' ' :: (type ++ ' ' :: n), .positional⟩ ≠
      some ⟨String.ofList n, String.ofList type, none, .positional⟩ := by
  intro hread
  have hround : due? [Bracket.round] [] (front ++ ')' :: back) = some [] := hargs.round
  have hcloses : Closes back := Closes.of_append (s := front ++ [')']) ⟨[], by simpa using hround⟩
  obtain ⟨last, hlast, hblank⟩ := getLast?_declaration hn (back ++ [')']) type
  rw [List.append_assoc, List.singleton_append] at hlast
  have htrim := trimEnd_of_isTrimmed (isTrimmed_trimStart hlast hblank)
  rw [trimStart_behind_bracket] at htrim
  obtain ⟨u, hu⟩ := unmodified_behind_bracket (p := ⟨_, .positional⟩) hcloses.trimStart
    (by rw [trim, trimStart_behind_bracket, htrim])
  exact parameter?_ne_of_bracket ht hn hu hread String.toList_ofList String.toList_ofList rfl

/-- **An annotation is dropped whole exactly when no bracket closes within its arguments.** The
parameter behind it is then read as if it stood alone. -/
theorem parameters_annotated_iff (hname : annotationName.accepts name = true)
    (hargs : Nested Bracket.all args) (ht : IsBareType type) (hn : identifier.accepts n = true) :
    parameters (type ++ ' ' :: n) = [⟨String.ofList n, String.ofList type, none, .positional⟩] ∧
      (parameters ('@' :: (name ++ '(' :: (args ++ ')' :: ' ' :: (type ++ ' ' :: n)))) =
        parameters (type ++ ' ' :: n) ↔ ')' ∉ args) := by
  have hbare := parameters_bareDeclaration ht hn
  have hguarded := guarded_annotated hname hargs
    (guarded_append (s := [' ']) (by decide) (guarded_bareDeclaration ht hn))
  have hpiece := parameters_of_guarded hguarded fun c hc => by
    obtain rfl : '@' = c := Option.some.inj hc
    decide
  rw [List.singleton_append] at hpiece
  refine ⟨hbare, ?_⟩
  rw [hpiece, hbare]
  constructor
  · intro hread hmem
    obtain ⟨front, back, rfl, hfront⟩ := List.eq_append_cons_of_mem hmem
    obtain ⟨last, hlast, hblank⟩ := getLast?_declaration hn (back ++ [')']) type
    simp only [List.append_assoc, List.cons_append, List.nil_append] at hlast hread
    rw [parameter?_annotated hname hfront hlast hblank, Option.toList_eq_singleton_iff] at hread
    exact parameter?_cut_ne ht hn hargs hread
  · intro hmem
    obtain ⟨last, hlast, hblank⟩ := getLast?_declaration hn [] type
    rw [List.nil_append] at hlast
    rw [parameter?_annotated hname hmem hlast hblank]
    exact congrArg Option.toList (parameter?_bareDeclaration ht hn (by decide : IsGap [' ']))

/-- Arguments with commas and brackets, none of them round, in front of a type with both. -/
theorem parameters_annotated_iff_list :
    Nested Bracket.all "const [1, \x7b2\x7d]".toList ∧ IsBareType "Map<(int, int), int>".toList ∧
      parameters ('@' :: ("a.Default".toList ++ '(' :: ("const [1, \x7b2\x7d]".toList ++
          ')' :: ' ' :: ("Map<(int, int), int>".toList ++ ' ' :: "m".toList)))) =
        parameters ("Map<(int, int), int>".toList ++ ' ' :: "m".toList) :=
  ⟨by decide, by decide,
    (parameters_annotated_iff (by decide) (by decide) (by decide) (by decide)).2.2 (by decide)⟩

/-- A call in the arguments ends the annotation too early, and the rest is taken for a part of the
type. -/
theorem parameters_annotated_call :
    annotationName.accepts "Default".toList = true ∧ Nested Bracket.all "f(1)".toList ∧
      IsBareType "int".toList ∧ identifier.accepts "x".toList = true ∧
      parameters ('@' :: ("Default".toList ++ '(' :: ("f(1)".toList ++
        ')' :: ' ' :: ("int".toList ++ ' ' :: "x".toList)))) =
          [⟨"x", ") int", none, .positional⟩] ∧
      parameters ("int".toList ++ ' ' :: "x".toList) = [⟨"x", "int", none, .positional⟩] := by
  refine ⟨by decide, by decide, by decide, by decide, ?_, ?_⟩
  · decide +kernel
  · decide +kernel

end

end DartUnion.Source
