import LineMarkup.Proofs.RoundTrip
import Mathlib.Algebra.Group.Nat.Even

/-!
# Spellings of a token list

A token list has several spellings: a marker is spelled as its own character, a literal
character behind a backslash, and most literal characters also as themselves. The lines
that are read as a token list are exactly its spellings. Whether two lines can be read one
after the other depends on the backslashes at the end of the first: an odd number of them
leaves one that protects whatever comes next.
-/

namespace LineMarkup

namespace Token

/-! ## Reading from the front -/

/-- Induction along the reading of a text: it begins with a backslash and the character that
this protects, it is a backslash with nothing to protect, or it begins with any other
character. -/
theorem ofChars_induction {motive : List Char → Prop} (nil : motive [])
    (lastBackslash : motive ['\\'])
    (escaped : ∀ c rest, motive rest → motive ('\\' :: c :: rest))
    (single : ∀ c rest, c ≠ '\\' → motive rest → motive (c :: rest)) (cs : List Char) :
    motive cs := by
  induction cs using ofChars.induct with
  | case1 c rest ih => exact escaped c rest ih
  | case2 c rest hplain ih =>
      by_cases hbackslash : c = '\\'
      · subst hbackslash
        cases rest with
        | nil => exact lastBackslash
        | cons next rest => exact absurd rfl (hplain next rest rfl)
      · exact single c rest hbackslash ih
  | case3 => exact nil

theorem ofChars_cons_of_ne_backslash {c : Char} (h : c ≠ '\\') (rest : List Char) :
    ofChars (c :: rest) = ofChar c :: ofChars rest :=
  reads_singleton h rest

/-! ## What is read as a token list -/

/-- A spelling of tokens without an end mark. A backslash that comes last needs no other
backslash in front of it. -/
inductive SpelledAs : List Token → List Char → Prop
  | nil : SpelledAs [] []
  | marker {token c tokens w} : token.isChar = false → token.literal? = some c →
      SpelledAs tokens w → SpelledAs (token :: tokens) (c :: w)
  | char {c v tokens w} : Text.Escaped c v → SpelledAs tokens w →
      SpelledAs (.char c :: tokens) (v ++ w)
  | lastBackslash : SpelledAs [.char '\\'] ['\\']

/-- The character of a marker is read as that marker. -/
theorem ofChar_of_literal? {token : Token} {c : Char} (htoken : token.isChar = false)
    (hliteral : token.literal? = some c) : ofChar c = token ∧ c ≠ '\\' := by
  cases token with
  | char d => cases htoken
  | endMark => cases hliteral
  | _ =>
      cases hliteral
      decide

/-- A character is read as a marker, or else it may be spelled as itself. -/
theorem ofChar_of_ne_backslash {c : Char} (h : c ≠ '\\') :
    (ofChar c).isChar = false ∨ (ofChar c = .char c ∧ c ∉ Text.protectedChars) := by
  by_cases hprotected : c ∈ Text.protectedChars
  · left
    simp only [Text.protectedChars, List.mem_cons, List.not_mem_nil, or_false, h] at hprotected
    rcases hprotected with rfl | rfl | rfl | rfl | rfl | rfl | rfl | rfl <;> rfl
  · right
    exact ⟨ofChar_of_notMem hprotected, hprotected⟩

/-- Every spelling is read as the tokens that it spells. -/
theorem SpelledAs.ofChars_eq {tokens : List Token} {w : List Char} (h : SpelledAs tokens w) :
    ofChars w = tokens := by
  induction h with
  | nil => rfl
  | @marker token c tokens w htoken hliteral _ ih =>
      obtain ⟨hread, hbackslash⟩ := ofChar_of_literal? htoken hliteral
      rw [ofChars_cons_of_ne_backslash hbackslash, hread, ih]
  | @char c v tokens w hescaped _ ih =>
      have hfirst := reads_escaped hescaped w
      rw [ih] at hfirst
      exact hfirst
  | lastBackslash => rfl

/-! ## Lexical rules -/

/-- The characters that one token may be read from: a marker from its own character, a
literal character from itself or with a backslash in front of it, a backslash also alone. -/
inductive Lexeme : List Char → Token → Prop
  | marker {token c} : token.isChar = false → token.literal? = some c → Lexeme [c] token
  | escaped (c) : Lexeme ['\\', c] (.char c)
  | backslash : Lexeme ['\\'] (.char '\\')
  | plain {c} : c ∉ Text.protectedChars → Lexeme [c] (.char c)

/-- Reading by the longest match: each token is read from characters that no longer lexeme
at their place contains. -/
inductive LongestMatch : List Char → List Token → Prop
  | nil : LongestMatch [] []
  | cons {w token rest tokens} : Lexeme w token →
      (∀ v other, Lexeme v other → v <+: w ++ rest → v.length ≤ w.length) →
      LongestMatch rest tokens → LongestMatch (w ++ rest) (token :: tokens)

theorem Lexeme.length_le_two {w : List Char} {token : Token} (h : Lexeme w token) :
    w.length ≤ 2 := by
  cases h <;> simp

/-- Only a backslash begins a lexeme of two characters. -/
theorem Lexeme.length_le_one {w : List Char} {token : Token} (h : Lexeme w token) {c : Char}
    {rest : List Char} (hc : c ≠ '\\') (hfront : w <+: c :: rest) : w.length ≤ 1 := by
  cases h with
  | escaped d => exact absurd (List.cons_prefix_cons.mp hfront).1.symm hc
  | _ => simp

/-- Reading is by the longest match. -/
theorem longestMatch_ofChars (cs : List Char) : LongestMatch cs (ofChars cs) := by
  induction cs using ofChars_induction with
  | nil => exact .nil
  | lastBackslash =>
      refine .cons .backslash ?_ .nil
      intro v other _ hprefix
      exact hprefix.length_le
  | escaped c rest ih =>
      refine .cons (.escaped c) ?_ ih
      intro v other hlexeme _
      exact hlexeme.length_le_two
  | single c rest hbackslash ih =>
      have hlongest : ∀ v other, Lexeme v other → v <+: [c] ++ rest → v.length ≤ [c].length := by
        intro v other hlexeme hprefix
        exact hlexeme.length_le_one hbackslash hprefix
      rw [ofChars_cons_of_ne_backslash hbackslash]
      rcases ofChar_of_ne_backslash hbackslash with hmarker | ⟨hchar, hfree⟩
      · exact .cons (.marker hmarker (literal?_ofChar c)) hlongest ih
      · rw [hchar]
        exact .cons (.plain hfree) hlongest ih

/-- A reading by the longest match spells its tokens, since a lone backslash only comes
last. -/
theorem LongestMatch.spelledAs {cs : List Char} {tokens : List Token} (h : LongestMatch cs tokens) :
    SpelledAs tokens cs := by
  induction h with
  | nil => exact .nil
  | @cons w token rest tokens hlexeme hlongest _ ih =>
      cases hlexeme with
      | marker htoken hliteral => exact .marker htoken hliteral ih
      | escaped c => exact .char (.inl rfl) ih
      | plain hfree => exact .char (.inr ⟨rfl, hfree⟩) ih
      | backslash =>
          cases rest with
          | nil =>
              have hnothing : [] = tokens := ih.ofChars_eq
              subst hnothing
              exact .lastBackslash
          | cons next rest =>
              have htwo := hlongest _ _ (.escaped next) (List.prefix_append _ rest)
              exact absurd htwo (by simp)

/-- The lexical rules, reading by the longest match, and the spellings say the same. -/
theorem longestMatch_iff_spelledAs {cs : List Char} {tokens : List Token} :
    LongestMatch cs tokens ↔ SpelledAs tokens cs := by
  constructor
  · exact LongestMatch.spelledAs
  · intro h
    rw [← h.ofChars_eq]
    exact longestMatch_ofChars cs

theorem ofChars_eq_iff_spelledAs {cs : List Char} {tokens : List Token} :
    ofChars cs = tokens ↔ SpelledAs tokens cs := by
  constructor
  · rintro rfl
    exact (longestMatch_ofChars cs).spelledAs
  · exact SpelledAs.ofChars_eq

end Token

/-! ## Reading one text after another -/

/-- How many backslashes stand at the end of a text. -/
def Text.trailingBackslashes (cs : List Char) : Nat := (cs.reverse.takeWhile (· = '\\')).length

namespace Text

theorem trailingBackslashes_le_length (cs : List Char) : trailingBackslashes cs ≤ cs.length := by
  have hprefix := List.takeWhile_prefix (fun c => decide (c = '\\')) (l := cs.reverse)
  simpa [trailingBackslashes] using hprefix.length_le

/-- A character in front is counted only if it is a backslash and nothing but backslashes
follows it. -/
theorem trailingBackslashes_cons (c : Char) (cs : List Char) :
    trailingBackslashes (c :: cs) =
      if trailingBackslashes cs = cs.length ∧ c = '\\' then trailingBackslashes cs + 1
      else trailingBackslashes cs := by
  simp only [trailingBackslashes, List.reverse_cons, List.takeWhile_append, List.length_reverse]
  by_cases hall : (cs.reverse.takeWhile (· = '\\')).length = cs.length
  · by_cases hc : c = '\\'
    · simp [hall, hc]
    · simp [hall, hc]
  · simp [hall]

/-- A backslash together with the character it protects leaves the parity as it is. -/
theorem even_trailingBackslashes_escape (c : Char) (cs : List Char) :
    Even (trailingBackslashes ('\\' :: c :: cs)) ↔ Even (trailingBackslashes cs) := by
  have hle := trailingBackslashes_le_length cs
  simp only [trailingBackslashes_cons, List.length_cons, and_true]
  split_ifs with hc hall hall
  · simp [Nat.even_add]
  · omega
  · omega
  · rfl

end Text

/-- An even number of backslashes at the end of a text protects nothing behind it. -/
theorem Token.reads_ofChars_of_even {cs : List Char} (h : Even (Text.trailingBackslashes cs)) :
    Reads cs (ofChars cs) := by
  induction cs using ofChars_induction with
  | nil => exact Reads.nil
  | lastBackslash => exact absurd h (by decide)
  | escaped c rest ih =>
      have hrest := ih ((Text.even_trailingBackslashes_escape c rest).mp h)
      intro tail
      rw [ofChars, List.cons_append, List.cons_append, ofChars, hrest, List.cons_append]
  | single c rest hbackslash ih =>
      rw [Text.trailingBackslashes_cons, if_neg fun hall => hbackslash hall.2] at h
      rw [ofChars_cons_of_ne_backslash hbackslash]
      exact (reads_singleton hbackslash).append (ih h)

/-- A line is read as certain tokens and the end mark exactly if it is a spelling of these
tokens, and this is the reading by the longest match. Every line is read in this way, so
that its tokens hold one end mark, at the end. -/
theorem tokenize_eq_iff_spelledAs (line : String) :
    (∀ tokens, tokenize line = tokens ++ [.endMark] ↔ Token.SpelledAs tokens line.toList) ∧
      (∀ tokens, Token.LongestMatch line.toList tokens ↔ Token.SpelledAs tokens line.toList) ∧
      ∃ tokens, .endMark ∉ tokens ∧ tokenize line = tokens ++ [.endMark] := by
  refine ⟨?_, fun _ => Token.longestMatch_iff_spelledAs, ?_⟩
  · intro tokens
    rw [tokenize, List.append_left_inj]
    exact Token.ofChars_eq_iff_spelledAs
  · exact ⟨_, Token.endMark_notMem_ofChars line.toList, rfl⟩

end LineMarkup
