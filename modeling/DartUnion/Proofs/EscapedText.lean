import DartUnion.Dart.Literal

/-!
# Escaped text read back

Escaped text with a quote behind it can be taken apart again, whatever follows. A reader who only
looks for the first bare quote finds the one behind it: within escaped text every quote, every
backslash and every `$` has its own backslash in front, however many of them stand together.

A literal cannot hold a line end and none is escaped, so a text is read back exactly when it is on
one line.

Results:
* `escapeChars_quote_inj`: escaped text is told apart from what follows its quote, and **is the
  escape of one text only**.
* `readBody?_of_lineEnd`, `readBody?_escape_iff`: what is read back and what is not.
* `readBody?_escape_delimits`: a text on one line, and no other, reads as its own characters, with
  no interpolation, and the reader stops right behind the quote.
-/

namespace DartUnion.Dart

/-! ## Escaped text delimits itself -/

theorem escapeChars_cons (c : Char) (s : List Char) :
    escapeChars (c :: s) = escapeChars [c] ++ escapeChars s := by
  simp [escapeChars]

theorem escapeChars_singleton (c : Char) :
    escapeChars [c] = if isSpecial c then ['\\', c] else [c] := by
  simp [escapeChars]

/-- A character that is escaped is not a bare quote. -/
theorem escapeChars_cons_ne_quote (c : Char) (s t u : List Char) :
    escapeChars (c :: s) ++ t ≠ '\'' :: u := by
  rw [escapeChars_cons, escapeChars_singleton]
  intro h
  by_cases hc : isSpecial c = true
  · rw [if_pos hc] at h
    exact absurd (List.cons.inj h).1 (by decide)
  · rw [if_neg hc] at h
    exact hc ((List.cons.inj h).1 ▸ rfl)

/-- A character is told by how its escape starts: a backslash that is one itself is escaped. -/
theorem escapeChars_singleton_append_inj {c d : Char} {s t : List Char}
    (h : escapeChars [c] ++ s = escapeChars [d] ++ t) : c = d ∧ s = t := by
  rw [escapeChars_singleton, escapeChars_singleton] at h
  by_cases hc : isSpecial c = true <;> by_cases hd : isSpecial d = true
  · rw [if_pos hc, if_pos hd] at h
    exact List.cons.inj (List.cons.inj h).2
  · rw [if_pos hc, if_neg hd] at h
    exact absurd ((List.cons.inj h).1 ▸ rfl) hd
  · rw [if_neg hc, if_pos hd] at h
    exact absurd ((List.cons.inj h).1.symm ▸ rfl) hc
  · rw [if_neg hc, if_neg hd] at h
    exact List.cons.inj h

/-- **Escaped text delimits itself.** The text and what follows its quote can both be told. -/
theorem escapeChars_quote_inj {s t rest rest' : List Char}
    (h : escapeChars s ++ '\'' :: rest = escapeChars t ++ '\'' :: rest') :
    s = t ∧ rest = rest' := by
  induction s generalizing t with
  | nil =>
    cases t with
    | nil => exact ⟨rfl, (List.cons.inj h).2⟩
    | cons d t => exact absurd h.symm (escapeChars_cons_ne_quote d t _ _)
  | cons c s ih =>
    cases t with
    | nil => exact absurd h (escapeChars_cons_ne_quote c s _ _)
    | cons d t =>
      rw [escapeChars_cons c s, escapeChars_cons d t, List.append_assoc, List.append_assoc] at h
      obtain ⟨rfl, hrest⟩ := escapeChars_singleton_append_inj h
      obtain ⟨rfl, rfl⟩ := ih hrest
      exact ⟨rfl, rfl⟩

/-! ## What is read back -/

/-- A literal ends with its line. -/
theorem readBody?_lineEnd {c : Char} (hc : c = '\n' ∨ c = '\r') (s : List Char) :
    readBody? (c :: s) = none := by
  rcases hc with rfl | rfl <;> simp [readBody?]

/-- **No literal is read across a line end**, whatever stands around it. -/
theorem readBody?_of_lineEnd {s : List Char} (hs : ¬OnOneLine s) (t : List Char) :
    readBody? (escapeChars s ++ t) = none := by
  induction s with
  | nil => exact absurd (fun _ h => nomatch h) hs
  | cons c s ih =>
    rw [escapeChars_cons, List.append_assoc]
    by_cases hc : c = '\n' ∨ c = '\r'
    · have hplain : isSpecial c = false := by
        rcases hc with rfl | rfl <;> rfl
      rw [escapeChars_singleton, hplain]
      exact readBody?_lineEnd hc _
    · have hfirst : OnOneLine [c] := fun d hd => List.mem_singleton.1 hd ▸ not_or.1 hc
      have hrest : ¬OnOneLine s := fun h => hs fun d hd =>
        (List.mem_cons.1 hd).elim (fun he => he ▸ not_or.1 hc) (h d)
      rw [readsAs_escape hfirst, ih hrest]
      rfl

/-- Exactly the texts on one line are read back. -/
theorem readBody?_escape_iff {s : List Char} (rest : List Char) :
    readBody? (escapeChars s ++ '\'' :: rest) = some (s.map .char, rest) ↔ OnOneLine s := by
  refine ⟨fun h => Decidable.byContradiction fun hs => ?_, fun hs => readBody?_escape hs rest⟩
  rw [readBody?_of_lineEnd hs] at h
  cases h

/-- **A text is read back from its escape exactly when it is on one line**: as a literal the escape
reads as the characters of the text, none of them in an interpolation, and what stands behind the
quote is left. No other text has that escape, be it alone or in front of a quote. -/
theorem readBody?_escape_delimits (s rest : String) :
    (readBody? (escape s ++ "'" ++ rest).toList = some (s.toList.map .char, rest.toList) ↔
        OnOneLine s.toList) ∧
      (∀ t rest' : String, escape t ++ "'" ++ rest' = escape s ++ "'" ++ rest →
        t = s ∧ rest' = rest) ∧
      ∀ t : String, escape t = escape s → t = s := by
  have htoList : ∀ t u : String,
      (escape t ++ "'" ++ u).toList = escapeChars t.toList ++ '\'' :: u.toList := by
    intro t u
    rw [String.toList_append, String.toList_append, toList_escape, List.append_assoc]
    rfl
  have hdelimits : ∀ t rest' : String, escape t ++ "'" ++ rest' = escape s ++ "'" ++ rest →
      t = s ∧ rest' = rest := by
    intro t rest' h
    have hlist := congrArg String.toList h
    rw [htoList, htoList] at hlist
    obtain ⟨ht, hr⟩ := escapeChars_quote_inj hlist
    exact ⟨String.toList_inj.1 ht, String.toList_inj.1 hr⟩
  refine ⟨?_, hdelimits, fun t ht => (hdelimits t rest (by rw [ht])).1⟩
  rw [htoList]
  exact readBody?_escape_iff rest.toList

/-- Backslashes in front of a quote, of a `$` and at the end. -/
theorem readBody?_escape_delimits_backslashes :
    escape "\\\\'\\$x\\" = "\\\\\\\\\\'\\\\\\$x\\\\" ∧
      readBody? (escape "\\\\'\\$x\\" ++ "'" ++ "'$\\").toList =
        some ("\\\\'\\$x\\".toList.map .char, "'$\\".toList) ∧
      ∀ t : String, escape t = escape "\\\\'\\$x\\" → t = "\\\\'\\$x\\" := by
  have hs : OnOneLine "\\\\'\\$x\\".toList := by decide
  obtain ⟨hread, -, hinj⟩ := readBody?_escape_delimits "\\\\'\\$x\\" "'$\\"
  exact ⟨by decide, hread.2 hs, hinj⟩

end DartUnion.Dart
