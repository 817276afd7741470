/-!
# Reading TOML: characters, blanks and line ends

A reader takes something from the front of a text and leaves the rest, or fails.
This module holds the readers below the level of values: blanks, comments and line
ends. A line ends with a line feed, with a carriage return before a line feed, or
with the text; a carriage return alone ends nothing.
-/

namespace LineMarkup.Toml

/-- A reader: what it found at the front of a text, and the rest. -/
abbrev Reader (α : Type) := List Char → Option (α × List Char)

def isBlank (c : Char) : Bool := c = ' ' || c = '\t'

/-- Whether a character may stand in a comment or in a one-line string: no control
character but the tab. -/
def isPlain (c : Char) : Bool := c = '\t' || (0x20 ≤ c.toNat && c.toNat ≠ 0x7F)

def skipBlanks (cs : List Char) : List Char := cs.dropWhile isBlank

def skipNewline? : List Char → Option (List Char)
  | '\n' :: rest => some rest
  | '\r' :: '\n' :: rest => some rest
  | _ => none

/-- The text behind what may stand after a statement: blanks, a comment, and the end
of the line or of the text. -/
def skipLineEnd? (cs : List Char) : Option (List Char) :=
  let afterComment :=
    match skipBlanks cs with
    | '#' :: rest => rest.dropWhile isPlain
    | rest => rest
  match afterComment with
  | [] => some []
  | rest => skipNewline? rest

/-- The text behind blanks, line ends and comments. Within a comment everything is
skipped up to the end of its line. -/
def skipGap? (inComment : Bool) : List Char → Option (List Char)
  | [] => some []
  | '\n' :: rest => skipGap? false rest
  | '\r' :: '\n' :: rest => skipGap? false rest
  | c :: rest =>
      if inComment then (if isPlain c then skipGap? true rest else none)
      else if isBlank c then skipGap? false rest
      else if c = '#' then skipGap? true rest
      else some (c :: rest)

/-- The value of a digit in any base up to sixteen. -/
def digitValue? (c : Char) : Option Nat :=
  if '0' ≤ c ∧ c ≤ '9' then some (c.toNat - '0'.toNat)
  else if 'a' ≤ c ∧ c ≤ 'f' then some (c.toNat - 'a'.toNat + 10)
  else if 'A' ≤ c ∧ c ≤ 'F' then some (c.toNat - 'A'.toNat + 10)
  else none

def isDigitOf (base : Nat) (c : Char) : Bool :=
  match digitValue? c with
  | some value => value < base
  | none => false

/-- The number that digits write in a base. -/
def numberOf (base : Nat) (digits : List Char) : Nat :=
  digits.foldl (fun total c => total * base + (digitValue? c).getD 0) 0

/-- The number that characters write in a base, if they all are digits of it. -/
def number? (base : Nat) (cs : List Char) : Option Nat :=
  if cs.all (isDigitOf base) then some (numberOf base cs) else none

end LineMarkup.Toml
