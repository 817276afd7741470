/-!
# JSON values

The values that a tree or a set of options is decoded from. The members of an object
keep the order in which they were written.
-/

namespace LineMarkup

/-- A JSON value. A number is its mantissa divided by a power of ten. -/
inductive Json where
  | null
  | boolean (value : Bool)
  | number (mantissa : Int) (exponent : Nat)
  | string (value : String)
  | array (items : List Json)
  | object (members : List (String × Json))
  deriving Repr, Inhabited

namespace Json

def string? : Json → Option String
  | .string value => some value
  | _ => none

def boolean? : Json → Option Bool
  | .boolean value => some value
  | _ => none

def nat? : Json → Option Nat
  | .number mantissa 0 => mantissa.toNat?
  | _ => none

end Json

end LineMarkup
