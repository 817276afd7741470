/-!
# Tokens of a marked-up line

Eight characters are markers. Every other character, and every character that a
backslash protects, is literal. A token list read from text closes with one end
mark, and the end mark occurs nowhere else in it.
-/

namespace LineMarkup

/-- One lexical unit of a line: a marker, a literal character (a protected marker counts as
one), or the end of the line. -/
inductive Token where
  | asterisk
  | underscore
  | tilde
  | backtick
  | leftBracket
  | rightBracket
  | leftParen
  | rightParen
  | char (c : Char)
  | endMark
  deriving DecidableEq, Repr, Inhabited

namespace Token

/-- The character a token stands for as plain text. Only the end mark has none. -/
def literal? : Token → Option Char
  | .asterisk => some '*'
  | .underscore => some '_'
  | .tilde => some '~'
  | .backtick => some '\x60'
  | .leftBracket => some '['
  | .rightBracket => some ']'
  | .leftParen => some '('
  | .rightParen => some ')'
  | .char c => some c
  | .endMark => none

def isChar : Token → Bool
  | .char _ => true
  | _ => false

/-- The name of a token in notices and listings. A literal space is spelled out,
any other literal character stands for itself. -/
def label : Token → String
  | .asterisk => "Asterisk"
  | .underscore => "Underline"
  | .tilde => "Tilde"
  | .backtick => "Tick"
  | .leftBracket => "LBracket"
  | .rightBracket => "RBracket"
  | .leftParen => "LParen"
  | .rightParen => "RParen"
  | .char c => if c = ' ' then "Char(<space>)" else "Char(" ++ String.singleton c ++ ")"
  | .endMark => "End"

/-- The token of a character that no backslash protects. -/
def ofChar (c : Char) : Token :=
  if c = '*' then .asterisk
  else if c = '_' then .underscore
  else if c = '~' then .tilde
  else if c = '\x60' then .backtick
  else if c = '[' then .leftBracket
  else if c = ']' then .rightBracket
  else if c = '(' then .leftParen
  else if c = ')' then .rightParen
  else .char c

/-- The tokens of a line without its end mark. A backslash protects the character
after it, whichever that is; a backslash with nothing after it is literal. -/
def ofChars : List Char → List Token
  | '\\' :: c :: rest => .char c :: ofChars rest
  | c :: rest => ofChar c :: ofChars rest
  | [] => []

theorem literal?_ofChar (c : Char) : (ofChar c).literal? = some c := by
  unfold ofChar
  repeat' split
  all_goals simp_all [literal?]

/-- No character is read as an end mark. -/
theorem endMark_notMem_ofChars (cs : List Char) : .endMark ∉ ofChars cs := by
  induction cs using ofChars.induct with
  | case1 c rest ih => simp [ofChars, ih]
  | case2 c rest hplain ih =>
      have hchar : ofChar c ≠ .endMark := fun h => by
        simpa [h, literal?] using literal?_ofChar c
      rw [ofChars.eq_2 c rest hplain]
      simp [ih, hchar.symm]
  | case3 => simp [ofChars]

end Token

/-- Read a line as tokens, closed by the end mark. The empty line is the end mark
alone. -/
def tokenize (line : String) : List Token := Token.ofChars line.toList ++ [.endMark]

end LineMarkup
