import LineMarkup.Toml.Reader

/-!
# TOML dates and times

A date, a time, or both; only both together may have an offset from universal time.
Months have their proper lengths, a minute may have a leap second, and seconds may be
left out.
-/

namespace LineMarkup.Toml

structure Date where
  year : Nat
  month : Nat
  day : Nat
  deriving DecidableEq, Repr, Inhabited

/-- A time of day. The fraction is kept as its digits. -/
structure Time where
  hour : Nat
  minute : Nat
  second : Nat
  fraction : List Char
  deriving DecidableEq, Repr, Inhabited

/-- A date, a time, or both, in which case an offset in minutes may be given. -/
inductive DateTime where
  | date (date : Date)
  | time (time : Time)
  | both (date : Date) (time : Time) (offset : Option Int)
  deriving DecidableEq, Repr, Inhabited

def isLeapYear (year : Nat) : Bool :=
  year % 4 = 0 && (year % 100 != 0 || year % 400 = 0)

def daysInMonth (year month : Nat) : Nat :=
  if month = 2 then (if isLeapYear year then 29 else 28)
  else if month = 4 ∨ month = 6 ∨ month = 9 ∨ month = 11 then 30
  else 31

def Date.isValid (date : Date) : Bool :=
  1 ≤ date.month && date.month ≤ 12 && 1 ≤ date.day &&
    date.day ≤ daysInMonth date.year date.month

def Time.isValid (time : Time) : Bool := time.hour ≤ 23 && time.minute ≤ 59 && time.second ≤ 60

/-- A date: four, two and two digits. -/
def date : Reader Date
  | y₁ :: y₂ :: y₃ :: y₄ :: '-' :: m₁ :: m₂ :: '-' :: d₁ :: d₂ :: rest => do
      let year ← number? 10 [y₁, y₂, y₃, y₄]
      let month ← number? 10 [m₁, m₂]
      let day ← number? 10 [d₁, d₂]
      let date : Date := { year := year, month := month, day := day }
      if date.isValid then some (date, rest) else none
  | _ => none

/-- The fraction of a second, if a point follows; then there is at least one digit. -/
def secondFraction : Reader (List Char)
  | '.' :: rest =>
      let digits := rest.takeWhile (isDigitOf 10)
      if digits.isEmpty then none else some (digits, rest.drop digits.length)
  | rest => some ([], rest)

/-- The seconds of a time with their fraction, if a colon follows. Without them the
minute has just begun. -/
def seconds : Reader (Nat × List Char)
  | ':' :: s₁ :: s₂ :: rest => do
      let second ← number? 10 [s₁, s₂]
      let (fraction, rest) ← secondFraction rest
      return ((second, fraction), rest)
  | ':' :: _ => none
  | rest => some ((0, []), rest)

/-- A time: two and two digits, and perhaps seconds. -/
def time : Reader Time
  | h₁ :: h₂ :: ':' :: m₁ :: m₂ :: rest => do
      let hour ← number? 10 [h₁, h₂]
      let minute ← number? 10 [m₁, m₂]
      let ((second, fraction), rest) ← seconds rest
      let time : Time := { hour := hour, minute := minute, second := second, fraction := fraction }
      if time.isValid then some (time, rest) else none
  | _ => none

/-- The offset that ends a word: none, universal time, or signed hours and minutes. -/
def offset? : List Char → Option (Option Int)
  | [] => some none
  | ['Z'] | ['z'] => some (some 0)
  | sign :: [h₁, h₂, ':', m₁, m₂] => do
      let hours ← number? 10 [h₁, h₂]
      let minutes ← number? 10 [m₁, m₂]
      let total : Int := hours * 60 + minutes
      if 23 < hours ∨ 59 < minutes then none
      else if sign = '+' then some (some total)
      else if sign = '-' then some (some (-total))
      else none
  | _ => none

/-- The date and time that a word writes. -/
def dateTime? (cs : List Char) : Option DateTime :=
  match date cs with
  | some (date, []) => some (.date date)
  | some (date, separator :: rest) => do
      if separator ≠ 'T' ∧ separator ≠ 't' ∧ separator ≠ ' ' then none
      let (time, rest) ← time rest
      return .both date time (← offset? rest)
  | none =>
      match time cs with
      | some (time, []) => some (.time time)
      | _ => none

end LineMarkup.Toml
