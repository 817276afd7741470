import LineMarkup.Text.Unprintable

/-!
# Quoted text

Outlines quote text in double quotes and messages quote a character in single
quotes, so that every character can be told from its neighbours. A quoted text has
no line break, and within it the closing quote only follows a backslash.
-/

namespace LineMarkup.Text

/-- The lowercase hexadecimal digit of a value below sixteen. -/
def hexDigit (value : Nat) : Char :=
  if value < 10 then Char.ofNat (0x30 + value) else Char.ofNat (0x57 + value)

/-- A number in lowercase hexadecimal, without zeros in front. -/
def hexDigits (n : Nat) : List Char :=
  if n < 16 then [hexDigit n] else hexDigits (n / 16) ++ [hexDigit (n % 16)]
termination_by n
decreasing_by omega

/-- The spelling of a character by its code point. -/
def codePointEscape (c : Char) : List Char :=
  ['\\', 'u', '\x7b'] ++ hexDigits c.toNat ++ ['\x7d']

/-- The spelling of a character between two quote marks. -/
def escapeChar (mark c : Char) : List Char :=
  if c = mark ∨ c = '\\' then ['\\', c]
  else if c = '\t' then ['\\', 't']
  else if c = '\n' then ['\\', 'n']
  else if c = '\r' then ['\\', 'r']
  else if c.toNat = 0 then ['\\', '0']
  else if isUnprintable c then codePointEscape c
  else [c]

/-- The characters of a text between double quotes. -/
def escapeChars (cs : List Char) : List Char := cs.flatMap (escapeChar '"')

/-- A text in double quotes. -/
def quote (s : String) : String := String.ofList ('"' :: escapeChars s.toList ++ ['"'])

/-- A character in single quotes. -/
def quoteChar (c : Char) : String :=
  String.ofList ('\x27' :: escapeChar '\x27' c ++ ['\x27'])

end LineMarkup.Text
