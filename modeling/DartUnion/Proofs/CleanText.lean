import DartUnion.Source.Union

/-!
# Comments and literals behind a clean text

Where a lexeme ends depends on what follows it only if it is not finished: a quote or a slash that
starts nothing so far may start something with more text behind it, and a line comment at the end of
the text goes on. A text is clean when no lexeme of it is like that. Then its lexemes are the same
whatever stands behind it, and the scan starts anew there.

* `IsClean s`: every lexeme of the text is finished.
* `blockComment`, `lineComment`, `IsLiteral`: what may stand behind it.

Results:
* `lexemes_append`: **the lexemes of a clean text are followed by those of what stands behind it.**
* `stripComments_blockComment`, `stripComments_lineComment`, `stripComments_of_isLiteral`: what
  stripping does at the front of a text to either kind of comment and to a literal.
* `stripComments_behind_clean`: **comments behind a clean text leave no trace, and literals stay**,
  whatever they hold; so comments do not change the union that is read.
-/

namespace DartUnion

namespace Source

/-! ## Finished lexemes -/

/-- The lexeme is a character that starts a literal or a comment elsewhere. -/
def Lexeme.isMark : Lexeme → Bool
  | .plain c => c == '\'' || c == '"' || c == '/'
  | .literal _ | .comment _ => false

/-- The lexeme is a comment up to the end of its line. -/
def Lexeme.isLineComment : Lexeme → Bool
  | .comment text => ['/', '/'].isPrefixOf text
  | .plain _ | .literal _ => false

/-- Outside of literals and comments there is no quote and no slash, and the text does not end
within a line comment. -/
def IsClean (s : List Char) : Prop :=
  (∀ l ∈ lexemes s, l.isMark = false) ∧ (lexemes s).getLast?.any Lexeme.isLineComment = false

instance (s : List Char) : Decidable (IsClean s) := inferInstanceAs (Decidable (_ ∧ _))

/-- A character that is no backslash closes the literal, breaks it or goes into it. -/
theorem closeLiteral?_cons {quote c : Char} (hc : c ≠ '\\') (s : List Char) :
    closeLiteral? quote (c :: s) =
      if c = quote then some ([c], s)
      else if c = '\n' then none
      else (closeLiteral? quote s).map fun r => (c :: r.1, r.2) := by
  rw [closeLiteral?]
  · simp only [hc, decide_false, Bool.or_false, decide_eq_true_eq]
  · exact fun _ _ he _ => hc he

/-- A literal that is closed is closed there whatever follows. -/
theorem closeLiteral?_append_right {quote : Char} (hquote : quote ≠ '\\')
    {s body rest : List Char} (h : closeLiteral? quote s = some (body, rest)) (t : List Char) :
    closeLiteral? quote (s ++ t) = some (body, rest ++ t) := by
  fun_induction closeLiteral? quote s generalizing body rest with
  | case1 => cases h
  | case2 c s ih =>
    obtain ⟨r, hr, he⟩ := Option.map_eq_some_iff.1 h
    obtain ⟨rfl, rfl⟩ := Prod.mk.inj he
    rw [List.cons_append, List.cons_append, closeLiteral?, ih hr]
    rfl
  | case3 s =>
    obtain ⟨rfl, rfl⟩ := Prod.mk.inj (Option.some.inj h)
    rw [List.cons_append, closeLiteral?_cons hquote, if_pos rfl]
  | case4 => cases h
  | case5 c s hescape hc hbreak ih =>
    obtain ⟨r, hr, he⟩ := Option.map_eq_some_iff.1 h
    obtain ⟨rfl, rfl⟩ := Prod.mk.inj he
    rw [Bool.or_eq_true, decide_eq_true_eq, decide_eq_true_eq, not_or] at hbreak
    rw [List.cons_append, closeLiteral?_cons hbreak.2, if_neg hc, if_neg hbreak.1, ih hr]
    rfl

/-- A block comment that is closed is closed there whatever follows. -/
theorem closeBlock?_append_right {s body rest : List Char}
    (h : closeBlock? s = some (body, rest)) (t : List Char) :
    closeBlock? (s ++ t) = some (body, rest ++ t) := by
  fun_induction closeBlock? s generalizing body rest with
  | case1 => cases h
  | case2 s =>
    obtain ⟨rfl, rfl⟩ := Prod.mk.inj (Option.some.inj h)
    rfl
  | case3 c s hopen ih =>
    obtain ⟨r, hr, he⟩ := Option.map_eq_some_iff.1 h
    obtain ⟨rfl, rfl⟩ := Prod.mk.inj he
    have hnext : ∀ u, c = '*' → s ++ t ≠ '/' :: u := by
      intro u hc hu
      cases s with
      | nil => cases hr
      | cons d s => exact hopen s hc (congrArg (· :: s) (List.cons.inj hu).1)
    rw [List.cons_append, closeBlock?, ih hr]
    · rfl
    · exact hnext

theorem isMark_quote {c : Char} (h : (c = '\'' || c = '"') = true) :
    (Lexeme.plain c).isMark = true := by
  rw [Bool.or_eq_true, decide_eq_true_eq, decide_eq_true_eq] at h
  rcases h with rfl | rfl <;> rfl

/-- **A finished lexeme** is the same whatever follows. -/
theorem nextLexeme_append_right {c : Char} {s : List Char}
    (hmark : (nextLexeme c s).1.isMark = false)
    (hline : (nextLexeme c s).1.isLineComment = true → (nextLexeme c s).2 ≠ []) (t : List Char) :
    nextLexeme c (s ++ t) = ((nextLexeme c s).1, (nextLexeme c s).2 ++ t) := by
  unfold nextLexeme at hmark hline ⊢
  split
  · next hquote =>
    rw [if_pos hquote] at hmark
    have hescape : c ≠ '\\' := by
      rintro rfl
      cases hquote
    cases hclose : closeLiteral? c s with
    | none =>
      rw [hclose, isMark_quote hquote] at hmark
      cases hmark
    | some r => rw [closeLiteral?_append_right hescape hclose]
  · next hquote =>
    rw [if_neg hquote] at hmark hline
    split
    · next hslash =>
      rw [if_pos hslash] at hmark hline
      subst hslash
      split at hmark
      · next u =>
        -- a block comment
        cases hclose : closeBlock? u with
        | none =>
          rw [hclose] at hmark
          cases hmark
        | some r =>
          rw [List.cons_append]
          simp only [closeBlock?_append_right hclose]
      · next u =>
        -- a line comment, which ends in front of a line end
        have hend : u.dropWhile (· != '\n') ≠ [] := hline rfl
        have hshort : (u.takeWhile (· != '\n')).length ≠ u.length := by
          intro hlength
          have happend := congrArg List.length
            (List.takeWhile_append_dropWhile (p := (· != '\n')) (l := u))
          rw [List.length_append, hlength, Nat.add_eq_left] at happend
          exact hend (List.length_eq_zero_iff.1 happend)
        rw [List.cons_append]
        simp only [List.takeWhile_append, if_neg hshort, List.dropWhile_append,
          List.isEmpty_iff, if_neg hend]
      · cases hmark
    · rfl

/-- **The lexemes of a clean text are followed by those of what stands behind it.** -/
theorem lexemes_append {s : List Char} (h : IsClean s) (t : List Char) :
    lexemes (s ++ t) = lexemes s ++ lexemes t := by
  fun_induction lexemes s with
  | case1 => rfl
  | case2 c s ih =>
    obtain ⟨hmarks, hlast⟩ := h
    rw [lexemes] at hmarks hlast
    have hline : (nextLexeme c s).1.isLineComment = true → (nextLexeme c s).2 ≠ [] := by
      intro hline hnil
      rw [hnil, lexemes, List.getLast?_singleton, Option.any_some, hline] at hlast
      cases hlast
    have hrest : IsClean (nextLexeme c s).2 := by
      refine ⟨fun l hl => hmarks l (List.mem_cons_of_mem _ hl), ?_⟩
      cases hlexemes : lexemes (nextLexeme c s).2 with
      | nil => rfl
      | cons l ls => rwa [hlexemes, List.getLast?_cons_cons] at hlast
    have hnext := nextLexeme_append_right (hmarks _ List.mem_cons_self) hline t
    rw [List.cons_append, lexemes, hnext, ih hrest, List.cons_append]

/-- Behind a clean text the scan starts anew. -/
theorem stripComments_append_of_isClean {s : List Char} (h : IsClean s) (t : List Char) :
    stripComments (s ++ t) = stripComments s ++ stripComments t := by
  unfold stripComments
  rw [lexemes_append h, List.flatMap_append]

/-! ## Comments and literals -/

/-- A block comment around a text. -/
def blockComment (c : List Char) : List Char := '/' :: '*' :: (c ++ ['*', '/'])

/-- A line comment, without the end of the line. -/
def lineComment (c : List Char) : List Char := '/' :: '/' :: c

/-- What may stand between two quotes: any character behind a backslash, and otherwise anything but
the quote, a backslash and a line end. -/
inductive IsLiteralBody (quote : Char) : List Char → Prop
  | nil : IsLiteralBody quote []
  | escaped {s : List Char} (c : Char) : IsLiteralBody quote s → IsLiteralBody quote ('\\' :: c :: s)
  | bare {c : Char} {s : List Char} : c ≠ quote → c ≠ '\\' → c ≠ '\n' → IsLiteralBody quote s →
      IsLiteralBody quote (c :: s)

/-- A complete literal between single or double quotes. -/
def IsLiteral (q : List Char) : Prop :=
  ∃ quote body, (quote = '\'' ∨ quote = '"') ∧ IsLiteralBody quote body ∧
    q = quote :: (body ++ [quote])

/-- Characters that stand for themselves may stand in front of a body. -/
theorem IsLiteralBody.bare_append {quote : Char} {s t : List Char}
    (h : ∀ c ∈ s, c ≠ quote ∧ c ≠ '\\' ∧ c ≠ '\n') (ht : IsLiteralBody quote t) :
    IsLiteralBody quote (s ++ t) := by
  induction s with
  | nil => exact ht
  | cons c s ih =>
    obtain ⟨hquote, hescape, hline⟩ := h c List.mem_cons_self
    exact .bare hquote hescape hline (ih fun d hd => h d (List.mem_cons_of_mem c hd))

/-- A text without its first lexeme. -/
theorem stripComments_cons (c : Char) (s : List Char) :
    stripComments (c :: s) =
      (nextLexeme c s).1.kept ++ stripComments (nextLexeme c s).2 := by
  unfold stripComments
  rw [lexemes, List.flatMap_cons]

/-- A block comment is closed by the first marker behind its opening one. -/
theorem closeBlock?_of_not_infix {c : List Char} (h : ¬ ['*', '/'] <:+: c) (t : List Char) :
    closeBlock? (c ++ '*' :: '/' :: t) = some (c ++ ['*', '/'], t) := by
  induction c with
  | nil => rfl
  | cons d c ih =>
    have hrest : ¬ ['*', '/'] <:+: c := fun hc => h (hc.trans (List.suffix_cons d c).isInfix)
    have hopen : ∀ u, d = '*' → c ++ '*' :: '/' :: t ≠ '/' :: u := by
      rintro u rfl hu
      cases c with
      | nil => exact absurd (List.cons.inj hu).1 (by decide)
      | cons e c =>
        obtain ⟨rfl, -⟩ := List.cons.inj hu
        exact h (List.prefix_append ['*', '/'] c).isInfix
    rw [List.cons_append, closeBlock?, ih hrest]
    · rfl
    · exact hopen

/-- **A block comment leaves nothing behind.** -/
theorem stripComments_blockComment {c : List Char} (h : ¬ ['*', '/'] <:+: c) (t : List Char) :
    stripComments (blockComment c ++ t) = stripComments t := by
  have hclose : closeBlock? (c ++ ['*', '/'] ++ t) = some (c ++ ['*', '/'], t) := by
    rw [List.append_assoc]
    exact closeBlock?_of_not_infix h t
  have hnext : nextLexeme '/' ('*' :: (c ++ ['*', '/'] ++ t)) =
      (.comment (blockComment c), t) := by
    unfold nextLexeme
    simp only [hclose]
    rfl
  unfold blockComment at hnext ⊢
  rw [List.cons_append, List.cons_append, stripComments_cons, hnext]
  rfl

/-- **A line comment leaves nothing behind**, and the end of its line stays. -/
theorem stripComments_lineComment {c : List Char} (h : '\n' ∉ c) (t : List Char) :
    stripComments (lineComment c ++ '\n' :: t) = stripComments ('\n' :: t) := by
  have hc : ∀ d ∈ c, (d != '\n') = true := by
    rintro d hd
    rw [bne_iff_ne]
    rintro rfl
    exact h hd
  have hnext : nextLexeme '/' ('/' :: (c ++ '\n' :: t)) = (.comment (lineComment c), '\n' :: t) := by
    unfold nextLexeme
    simp only [List.takeWhile_append_of_pos hc, List.dropWhile_append_of_pos hc]
    simp [lineComment]
  unfold lineComment at hnext ⊢
  rw [List.cons_append, List.cons_append, stripComments_cons, hnext]
  rfl

/-- A literal is closed by the quote behind its body. -/
theorem closeLiteral?_of_isLiteralBody {quote : Char} (hquote : quote ≠ '\\') {body : List Char}
    (h : IsLiteralBody quote body) (t : List Char) :
    closeLiteral? quote (body ++ quote :: t) = some (body ++ [quote], t) := by
  induction h with
  | nil => rw [List.nil_append, closeLiteral?_cons hquote, if_pos rfl, List.nil_append]
  | escaped c _ ih =>
    rw [List.cons_append, List.cons_append, closeLiteral?, ih]
    rfl
  | bare hc hescape hline _ ih =>
    rw [List.cons_append, closeLiteral?_cons hescape, if_neg hc, if_neg hline, ih]
    rfl

/-- **A literal is kept**, whatever it holds. -/
theorem stripComments_of_isLiteral {q : List Char} (h : IsLiteral q) (t : List Char) :
    stripComments (q ++ t) = q ++ stripComments t := by
  obtain ⟨quote, body, hquote, hbody, rfl⟩ := h
  have hescape : quote ≠ '\\' := by
    rcases hquote with rfl | rfl <;> decide
  have hclose : closeLiteral? quote (body ++ [quote] ++ t) = some (body ++ [quote], t) := by
    rw [List.append_assoc]
    exact closeLiteral?_of_isLiteralBody hescape hbody t
  have hnext : nextLexeme quote (body ++ [quote] ++ t) =
      (.literal (quote :: (body ++ [quote])), t) := by
    unfold nextLexeme
    rw [if_pos (by simpa using hquote), hclose]
  rw [List.cons_append, stripComments_cons, hnext]
  rfl

/-! ## Behind a clean text -/

/-- Only what is left without comments counts when a union is read. -/
theorem ofSource_eq_of_stripComments {s t : List Char} (h : stripComments s = stripComments t) :
    Declaration.ofSource (String.ofList s) = Declaration.ofSource (String.ofList t) := by
  unfold Declaration.ofSource
  rw [String.toList_ofList, String.toList_ofList, h]

/-- **Comments behind a clean text leave no trace, and literals stay**: the text without comments is
the same with a block comment as without it, the same with a line comment as with the end of its
line, and made of three parts around a literal. So the union is the same with and without either
comment. -/
theorem stripComments_behind_clean {s : List Char} (h : IsClean s) (t : List Char) :
    (∀ c, ¬ ['*', '/'] <:+: c →
      stripComments (s ++ blockComment c ++ t) = stripComments (s ++ t) ∧
      Declaration.ofSource (String.ofList (s ++ blockComment c ++ t)) =
        Declaration.ofSource (String.ofList (s ++ t))) ∧
    (∀ c, '\n' ∉ c →
      stripComments (s ++ lineComment c ++ '\n' :: t) = stripComments (s ++ '\n' :: t) ∧
      Declaration.ofSource (String.ofList (s ++ lineComment c ++ '\n' :: t)) =
        Declaration.ofSource (String.ofList (s ++ '\n' :: t))) ∧
    ∀ q, IsLiteral q →
      stripComments (s ++ q ++ t) = stripComments s ++ q ++ stripComments t := by
  refine ⟨fun c hc => ?_, fun c hc => ?_, fun q hq => ?_⟩
  · have hblock : stripComments (s ++ blockComment c ++ t) = stripComments (s ++ t) := by
      rw [List.append_assoc, stripComments_append_of_isClean h, stripComments_blockComment hc,
        stripComments_append_of_isClean h]
    exact ⟨hblock, ofSource_eq_of_stripComments hblock⟩
  · have hline : stripComments (s ++ lineComment c ++ '\n' :: t) =
        stripComments (s ++ '\n' :: t) := by
      rw [List.append_assoc, stripComments_append_of_isClean h, stripComments_lineComment hc,
        stripComments_append_of_isClean h]
    exact ⟨hline, ofSource_eq_of_stripComments hline⟩
  · rw [List.append_assoc, stripComments_append_of_isClean h, stripComments_of_isLiteral hq,
      List.append_assoc]

/-- A literal with an escaped quote and a comment marker, a comment with a quote, and behind them
comments and a literal that hold factories, quotes and markers. -/
theorem stripComments_behind_clean_markers : ∃ s t c d q : List Char,
    s = "class A \x7b /* don't */ var x = 'it\\'s /*'; // \"\n".toList ∧
      t = "factory A.b() = B; \x7d".toList ∧
      c = "' factory A.c() = C; // \"".toList ∧ d = "*/ factory A.d() = '/*".toList ∧
      q = "\"'// \\\" factory\"".toList ∧
      IsClean s ∧ ¬ ['*', '/'] <:+: c ∧ '\n' ∉ d ∧ IsLiteral q ∧
      Declaration.ofSource (String.ofList (s ++ blockComment c ++ t)) =
        Declaration.ofSource (String.ofList (s ++ t)) ∧
      Declaration.ofSource (String.ofList (s ++ lineComment d ++ '\n' :: t)) =
        Declaration.ofSource (String.ofList (s ++ '\n' :: t)) ∧
      stripComments (s ++ q ++ t) = stripComments s ++ q ++ stripComments t := by
  have hclean : IsClean "class A \x7b /* don't */ var x = 'it\\'s /*'; // \"\n".toList := by
    decide +kernel
  have hblock : ¬ ['*', '/'] <:+: "' factory A.c() = C; // \"".toList := by
    decide +kernel
  have hline : '\n' ∉ "*/ factory A.d() = '/*".toList := by
    decide
  have hliteral : IsLiteral "\"'// \\\" factory\"".toList := by
    have hbehind : IsLiteralBody '"' (" factory".toList ++ []) := .bare_append (by simp) .nil
    have hbody := IsLiteralBody.bare_append (s := "'// ".toList) (by simp)
      (.escaped '"' hbehind)
    exact ⟨'"', _, .inr rfl, hbody, rfl⟩
  have h := stripComments_behind_clean hclean "factory A.b() = B; \x7d".toList
  exact ⟨_, _, _, _, _, rfl, rfl, rfl, rfl, rfl, hclean, hblock, hline, hliteral,
    (h.1 _ hblock).2, (h.2.1 _ hline).2, h.2.2 _ hliteral⟩

end Source

end DartUnion
