import LineMarkup.Proofs.KeptMarkers
import LineMarkup.Proofs.Spelling
import Mathlib.Algebra.Ring.Parity

/-!
# Reading two texts as one

How a text is read on behind another is told by the backslashes at the end of the first one. If
their number is even, each protects a backslash or is protected by one, and the second text is
read as it is alone. If it is odd, the last of them protects the first character behind it. So a
marker character is read as a marker exactly if the number of backslashes right in front of it
is even.
-/

namespace LineMarkup

namespace Text

theorem trailingBackslashes_concat (cs : List Char) (c : Char) :
    trailingBackslashes (cs ++ [c]) = if c = '\\' then trailingBackslashes cs + 1 else 0 := by
  by_cases hc : c = '\\' <;> simp [trailingBackslashes, hc]

/-- An odd number of backslashes at the end is one behind an even number of them. -/
theorem exists_concat_of_odd_trailingBackslashes {cs : List Char}
    (h : Odd (trailingBackslashes cs)) :
    ∃ front, cs = front ++ ['\\'] ∧ Even (trailingBackslashes front) := by
  rcases List.eq_nil_or_concat cs with rfl | ⟨front, last, rfl⟩
  · simp [trailingBackslashes] at h
  · rw [List.concat_eq_append, trailingBackslashes_concat] at h
    split at h
    next hlast =>
      subst hlast
      refine ⟨front, List.concat_eq_append, ?_⟩
      rwa [Nat.odd_add_one, Nat.not_odd_iff_even] at h
    next => simp at h

end Text

namespace Token

/-- Behind an odd number of backslashes the next character is read as itself, and the last
backslash is not read. -/
theorem exists_ofChars_of_odd {cs : List Char} (h : Odd (Text.trailingBackslashes cs)) :
    ∃ tokens, ofChars cs = tokens ++ [.char '\\'] ∧
      ∀ c rest, ofChars (cs ++ c :: rest) = tokens ++ .char c :: ofChars rest := by
  obtain ⟨front, rfl, heven⟩ := Text.exists_concat_of_odd_trailingBackslashes h
  have hreads := reads_ofChars_of_even heven
  refine ⟨ofChars front, hreads ['\\'], ?_⟩
  intro c rest
  rw [List.append_assoc, hreads]
  rfl

/-! ## What a character is read as -/

/-- A token is read from a piece of a text: the lexical rules allow it, and the tokens in front
of it and behind it are those of the text in front of the piece and behind it. -/
structure ReadFrom (before piece after : List Char) (token : Token) : Prop where
  lexeme : Lexeme piece token
  ofChars_eq : ofChars (before ++ piece ++ after) = ofChars before ++ token :: ofChars after

/-- A character between two parts of a text is read as a token: the token is read from a piece
that ends with the character. -/
def ReadAs (before : List Char) (c : Char) (after : List Char) (token : Token) : Prop :=
  ∃ front piece, front ++ piece = before ++ [c] ∧ ReadFrom front piece after token

variable {before after : List Char} {c : Char}

/-- The token of a character stands right in front of what is read behind it, so there is one at
most. -/
theorem ReadAs.eq {token other : Token} (h : ReadAs before c after token)
    (h' : ReadAs before c after other) : token = other := by
  obtain ⟨front, piece, hsplit, hread⟩ := h
  obtain ⟨front', piece', hsplit', hread'⟩ := h'
  have hwhole : ofChars front ++ token :: ofChars after =
      ofChars front' ++ other :: ofChars after := by
    rw [← hread.ofChars_eq, ← hread'.ofChars_eq, hsplit, hsplit']
  rw [List.append_cons, List.append_cons (ofChars front'), List.append_left_inj] at hwhole
  obtain ⟨_, hlast⟩ := List.append_inj' hwhole rfl
  exact List.singleton_inj.mp hlast

/-- Behind an even number of backslashes the character of a marker is read as the marker. -/
theorem readAs_of_even (hmarker : (ofChar c).isChar = false)
    (h : Even (Text.trailingBackslashes before)) : ReadAs before c after (ofChar c) := by
  refine ⟨before, [c], rfl, .marker hmarker (literal?_ofChar c), ?_⟩
  have hbackslash : c ≠ '\\' := by
    rintro rfl
    cases hmarker
  rw [List.append_assoc, reads_ofChars_of_even h, reads_singleton hbackslash]
  rfl

/-- Behind an odd number of backslashes any character is read as itself, together with the last
of them. -/
theorem readAs_of_odd (h : Odd (Text.trailingBackslashes before)) :
    ReadAs before c after (.char c) := by
  obtain ⟨front, rfl, heven⟩ := Text.exists_concat_of_odd_trailingBackslashes h
  refine ⟨front, ['\\', c], by simp, .escaped c, ?_⟩
  rw [List.append_assoc, reads_ofChars_of_even heven]
  rfl

end Token

/-- Two texts one after another are read as the first and then the second, if an even number of
backslashes stands at the end of the first. If their number is odd, the last of them is read
together with the first character of the second text, which is then literal. So a character of
a marker, wherever it stands, is read as one token, and that is a marker exactly if the number
of backslashes right in front of it is even. -/
theorem tokenize_append_by_parity (first second : String) :
    (Even (Text.trailingBackslashes first.toList) →
      ∃ tokens, tokenize first = tokens ++ [.endMark] ∧
        tokenize (first ++ second) = tokens ++ tokenize second) ∧
    (Odd (Text.trailingBackslashes first.toList) →
      ∀ c rest, second = String.singleton c ++ rest →
        ∃ tokens, tokenize first = tokens ++ [.char '\\', .endMark] ∧
          tokenize (first ++ second) = tokens ++ .char c :: tokenize rest) ∧
    ∀ c ∈ Text.protectedChars, c ≠ '\\' →
      ∃ token, Token.ReadAs first.toList c second.toList token ∧
        (∀ other, Token.ReadAs first.toList c second.toList other → other = token) ∧
        (token.isMarker = true ↔ Even (Text.trailingBackslashes first.toList)) := by
  refine ⟨?_, ?_, ?_⟩
  · intro heven
    refine ⟨_, rfl, ?_⟩
    rw [tokenize, String.toList_append, Token.reads_ofChars_of_even heven, List.append_assoc]
    rfl
  · rintro hodd c rest rfl
    obtain ⟨tokens, halone, hjoined⟩ := Token.exists_ofChars_of_odd hodd
    refine ⟨tokens, ?_, ?_⟩
    · rw [tokenize, halone, List.append_assoc]
      rfl
    · rw [tokenize, String.toList_append, String.toList_append, String.toList_singleton,
        List.singleton_append, hjoined, List.append_assoc]
      rfl
  · intro c hprotected hbackslash
    have hmarker : (Token.ofChar c).isChar = false :=
      (Token.ofChar_of_ne_backslash hbackslash).resolve_right fun h => h.2 hprotected
    rcases Nat.even_or_odd (Text.trailingBackslashes first.toList) with heven | hodd
    · have hread : Token.ReadAs first.toList c second.toList (.ofChar c) :=
        Token.readAs_of_even hmarker heven
      refine ⟨_, hread, fun other hother => hother.eq hread, ?_⟩
      simp [Token.isMarker_of_literal? (Token.literal?_ofChar c), hmarker, heven]
    · have hread : Token.ReadAs first.toList c second.toList (.char c) :=
        Token.readAs_of_odd hodd
      refine ⟨_, hread, fun other hother => hother.eq hread, ?_⟩
      simp [Token.isMarker, Token.isChar, Nat.not_even_iff_odd.mpr hodd]

/-- An asterisk behind two backslashes and behind three. -/
theorem tokenize_append_by_parity_asterisk :
    Even (Text.trailingBackslashes "a\\\\".toList) ∧
      (∃ tokens, tokenize "a\\\\" = tokens ++ [.endMark] ∧
        tokenize ("a\\\\" ++ "*b") = tokens ++ tokenize "*b") ∧
      Odd (Text.trailingBackslashes "a\\\\\\".toList) ∧ "*b" = String.singleton '*' ++ "b" ∧
      (∃ tokens, tokenize "a\\\\\\" = tokens ++ [.char '\\', .endMark] ∧
        tokenize ("a\\\\\\" ++ "*b") = tokens ++ .char '*' :: tokenize "b") ∧
      '*' ∈ Text.protectedChars ∧ '*' ≠ '\\' ∧
      ∃ token, Token.ReadAs "a\\\\\\".toList '*' "b".toList token ∧
        (∀ other, Token.ReadAs "a\\\\\\".toList '*' "b".toList other → other = token) ∧
        (token.isMarker = true ↔ Even (Text.trailingBackslashes "a\\\\\\".toList)) := by
  have heven : Even (Text.trailingBackslashes "a\\\\".toList) := by decide
  have hodd : Odd (Text.trailingBackslashes "a\\\\\\".toList) := by decide
  have hsecond : "*b" = String.singleton '*' ++ "b" := by decide
  have hprotected : '*' ∈ Text.protectedChars := by decide
  have hbackslash : '*' ≠ '\\' := by decide
  obtain ⟨hjoined, _, _⟩ := tokenize_append_by_parity "a\\\\" "*b"
  obtain ⟨_, hescaped, _⟩ := tokenize_append_by_parity "a\\\\\\" "*b"
  obtain ⟨_, _, hread⟩ := tokenize_append_by_parity "a\\\\\\" "b"
  exact ⟨heven, hjoined heven, hodd, hsecond, hescaped hodd '*' "b" hsecond, hprotected, hbackslash,
    hread '*' hprotected hbackslash⟩

end LineMarkup
