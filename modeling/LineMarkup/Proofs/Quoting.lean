import LineMarkup.Text.Quoted
import LineMarkup.Toml.Reader
import Mathlib.Data.List.Basic
import Mathlib.Tactic.SplitIfs

/-!
# Reading quoted text back

Every character of a quoted text can be read back from its spelling, whatever follows it. So
two texts have the same quoted form only if they are equal, also where one of them spells out
an escape. A quoted text stands on one line.
-/

namespace LineMarkup.Text

/-! ## Hexadecimal numbers -/

theorem digitValue?_hexDigit {value : Nat} (h : value < 16) :
    Toml.digitValue? (hexDigit value) = some value := by
  decide +revert

theorem isDigitOf_hexDigit {value : Nat} (h : value < 16) :
    Toml.isDigitOf 16 (hexDigit value) = true := by
  simp [Toml.isDigitOf, digitValue?_hexDigit h, h]

theorem isDigitOf_of_mem_hexDigits {n : Nat} {c : Char} (h : c ∈ hexDigits n) :
    Toml.isDigitOf 16 c = true := by
  induction n using hexDigits.induct with
  | case1 n hn =>
      rw [hexDigits, if_pos hn, List.mem_singleton] at h
      rw [h]
      exact isDigitOf_hexDigit hn
  | case2 n hn ih =>
      rw [hexDigits, if_neg hn, List.mem_append, List.mem_singleton] at h
      rcases h with h | rfl
      · exact ih h
      · exact isDigitOf_hexDigit (Nat.mod_lt n (by decide))

/-- A hexadecimal number is the one that its digits write. -/
theorem numberOf_hexDigits (n : Nat) : Toml.numberOf 16 (hexDigits n) = n := by
  induction n using hexDigits.induct with
  | case1 n hn =>
      rw [hexDigits, if_pos hn]
      simp [Toml.numberOf, digitValue?_hexDigit hn]
  | case2 n hn ih =>
      have hlast := digitValue?_hexDigit (Nat.mod_lt n (show 0 < 16 by decide))
      rw [Toml.numberOf] at ih
      rw [hexDigits, if_neg hn, Toml.numberOf, List.foldl_append, ih, List.foldl_cons, hlast]
      exact Nat.div_add_mod' n 16

/-! ## Single characters -/

/-- Read one character between double quotes, and leave the rest. -/
def unescape? : List Char → Option (Char × List Char)
  | '\\' :: 't' :: rest => some ('\t', rest)
  | '\\' :: 'n' :: rest => some ('\n', rest)
  | '\\' :: 'r' :: rest => some ('\r', rest)
  | '\\' :: '0' :: rest => some ('\x00', rest)
  | '\\' :: 'u' :: '\x7b' :: rest =>
      let digits := rest.takeWhile (Toml.isDigitOf 16)
      some (Char.ofNat (Toml.numberOf 16 digits), rest.drop (digits.length + 1))
  | '\\' :: c :: rest => some (c, rest)
  | c :: rest => some (c, rest)
  | [] => none

theorem unescape?_codePointEscape_append (c : Char) (rest : List Char) :
    unescape? (codePointEscape c ++ rest) = some (c, rest) := by
  have hdigits : (hexDigits c.toNat ++ '\x7d' :: rest).takeWhile (Toml.isDigitOf 16) =
      hexDigits c.toNat := by
    rw [List.takeWhile_append_of_pos fun d hd => isDigitOf_of_mem_hexDigits hd]
    exact List.append_nil _
  have hsplit : codePointEscape c ++ rest =
      '\\' :: 'u' :: '\x7b' :: (hexDigits c.toNat ++ '\x7d' :: rest) := by
    simp [codePointEscape]
  rw [hsplit, unescape?, hdigits, numberOf_hexDigits, Char.ofNat_toNat, ← List.drop_drop,
    List.drop_left]
  rfl

/-- A character is read back from its spelling, whatever follows it. -/
theorem unescape?_escapeChar_append (c : Char) (rest : List Char) :
    unescape? (escapeChar '"' c ++ rest) = some (c, rest) := by
  unfold escapeChar
  split_ifs with hself htab hfeed hreturn hnull
  · rcases hself with rfl | rfl <;> rfl
  · rw [htab]
    rfl
  · rw [hfeed]
    rfl
  · rw [hreturn]
    rfl
  · rw [show c = '\x00' from Char.toNat_inj.mp hnull]
    rfl
  · exact unescape?_codePointEscape_append c rest
  · -- Any other character stands for itself, and it is no backslash.
    simp [unescape?, (not_or.mp hself).2]

theorem newline_notMem_escapeChar (c : Char) : '\n' ∉ escapeChar '"' c := by
  have hhex : '\n' ∉ hexDigits c.toNat := fun h =>
    absurd (isDigitOf_of_mem_hexDigits h) (by decide)
  unfold escapeChar
  split_ifs with hself htab hfeed
  · rcases hself with rfl | rfl <;> decide
  · decide
  · decide
  · decide
  · decide
  · simp [codePointEscape, hhex]
  · exact List.mem_singleton.not.mpr (Ne.symm hfeed)

/-! ## Whole texts -/

theorem unescape?_escapeChars_cons (c : Char) (cs : List Char) :
    unescape? (escapeChars (c :: cs)) = some (c, escapeChars cs) :=
  unescape?_escapeChar_append c (escapeChars cs)

theorem newline_notMem_escapeChars (cs : List Char) : '\n' ∉ escapeChars cs := by
  simp [escapeChars, newline_notMem_escapeChar]

theorem escapeChars_injective : Function.Injective escapeChars := by
  intro cs ds h
  induction cs generalizing ds with
  | nil =>
      cases ds with
      | nil => rfl
      | cons d ds =>
          have hread := unescape?_escapeChars_cons d ds
          rw [← h] at hread
          cases hread
  | cons c cs ih =>
      have hread := unescape?_escapeChars_cons c cs
      rw [h] at hread
      cases ds with
      | nil => cases hread
      | cons d ds =>
          rw [unescape?_escapeChars_cons, Option.some.injEq, Prod.mk.injEq] at hread
          rw [hread.1, ih hread.2.symm]

/-- Different texts are quoted differently. -/
theorem quote_injective : Function.Injective quote := by
  intro s t h
  have hchars := String.ofList_inj.mp h
  simp only [List.cons_append, List.cons.injEq, true_and, List.append_left_inj] at hchars
  exact String.toList_inj.mp (escapeChars_injective hchars)

/-- A quoted text has no line break. -/
theorem newline_notMem_quote (s : String) : '\n' ∉ (quote s).toList := by
  simp [quote, newline_notMem_escapeChars]

end LineMarkup.Text
