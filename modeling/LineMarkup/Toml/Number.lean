import LineMarkup.Toml.Reader

/-!
# TOML numbers

Digits may be grouped by single underscores between them. An integer lies between the
least signed and the greatest unsigned 64-bit word; a decimal float must not be so
large that the nearest binary64 number would be infinite.
-/

namespace LineMarkup.Toml

/-- A TOML float: a decimal, or one of the special numbers. -/
inductive FloatValue where
  /-- The digits times a power of ten. -/
  | decimal (negative : Bool) (digits : Nat) (exponent : Int)
  | infinite (negative : Bool)
  | notANumber
  deriving DecidableEq, Repr, Inhabited

/-- The digits of a group, without the underscores between them. -/
def digitGroup? (base : Nat) : List Char → Option (List Char)
  | [] => none
  | [c] => if isDigitOf base c then some [c] else none
  | c :: '_' :: rest =>
      if isDigitOf base c then (digitGroup? base rest).map (c :: ·) else none
  | c :: rest => if isDigitOf base c then (digitGroup? base rest).map (c :: ·) else none

/-- The digits of a decimal integer, which has no superfluous zero in front. -/
def integerDigits? (cs : List Char) : Option (List Char) :=
  (digitGroup? 10 cs).bind fun digits =>
    if digits.head? = some '0' ∧ 1 < digits.length then none else some digits

/-- Whether there is a minus sign, and the text behind the sign if there is one. -/
def splitSign : List Char → Bool × List Char
  | '-' :: rest => (true, rest)
  | '+' :: rest => (false, rest)
  | rest => (false, rest)

def signed (negative : Bool) (magnitude : Nat) : Int :=
  if negative then -(magnitude : Int) else magnitude

/-- The range of signed and of unsigned numbers of 64 bits together. -/
def inIntegerRange (n : Int) : Bool := -0x8000000000000000 ≤ n && n ≤ 0xFFFFFFFFFFFFFFFF

/-- The number of an integer, whatever its size. -/
def integerValue? : List Char → Option Int
  | '0' :: 'x' :: rest => (digitGroup? 16 rest).map fun digits => numberOf 16 digits
  | '0' :: 'o' :: rest => (digitGroup? 8 rest).map fun digits => numberOf 8 digits
  | '0' :: 'b' :: rest => (digitGroup? 2 rest).map fun digits => numberOf 2 digits
  | cs =>
      let (negative, rest) := splitSign cs
      (integerDigits? rest).map fun digits => signed negative (numberOf 10 digits)

def integer? (cs : List Char) : Option Int :=
  (integerValue? cs).bind fun n => if inIntegerRange n then some n else none

/-- Whether the nearest binary64 number to a decimal is infinite: it is at least the
midpoint between the greatest finite number and the next power of two. -/
def overflows (digits : Nat) (exponent : Int) : Bool :=
  let places : Int := exponent + (Nat.toDigits 10 digits).length
  if digits = 0 ∨ places ≤ 300 then false
  else if 320 ≤ places then true
  else
    Nat.pow 2 1024 - Nat.pow 2 970 ≤
      (digits * Nat.pow 10 exponent.toNat) / Nat.pow 10 (-exponent).toNat

def isExponentMark (c : Char) : Bool := c = 'e' || c = 'E'

/-- The digits behind the point of a float, of which there are none without a point. -/
def fraction? : List Char → Option (List Char)
  | [] => some []
  | '.' :: rest => digitGroup? 10 rest
  | _ => none

/-- The exponent of a float, which is zero where none is written. -/
def exponent? : List Char → Option Int
  | [] => some 0
  | _ :: rest =>
      let (negative, rest) := splitSign rest
      (digitGroup? 10 rest).map fun digits => signed negative (numberOf 10 digits)

/-- The decimal float that a word without its sign writes. It has a fraction or an
exponent. -/
def decimal? (negative : Bool) (cs : List Char) : Option FloatValue := do
  let mantissa := cs.takeWhile (!isExponentMark ·)
  let whole := mantissa.takeWhile (· != '.')
  if whole.length = cs.length then none
  let wholeDigits ← integerDigits? whole
  let fractionDigits ← fraction? (mantissa.drop whole.length)
  let exponent ← exponent? (cs.drop mantissa.length)
  let digits := numberOf 10 (wholeDigits ++ fractionDigits)
  let scale := exponent - fractionDigits.length
  if overflows digits scale then none else some (.decimal negative digits scale)

def float? (cs : List Char) : Option FloatValue :=
  match splitSign cs with
  | (negative, ['i', 'n', 'f']) => some (.infinite negative)
  | (_, ['n', 'a', 'n']) => some .notANumber
  | (negative, rest) => decimal? negative rest

end LineMarkup.Toml
