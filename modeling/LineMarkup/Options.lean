import LineMarkup.Json

/-!
# Parse options

Two independent switches, both on unless something else is said.
-/

namespace LineMarkup

/-- How a line is parsed. -/
structure Options where
  /-- Recognise markup. Without it a line is plain text. -/
  markdown : Bool := true
  /-- Bring the result to normal form. -/
  normalize : Bool := true
  deriving DecidableEq, Repr, Inhabited

namespace Options

/-- The options under which a line is only parsed. -/
def raw : Options := { normalize := false }

/-- Read one switch. A switch that is not given is on. -/
def switch? : Option Json → Option Bool
  | some value => value.boolean?
  | none => some true

def ofSwitches? (markdown normalize : Option Json) : Option Options := do
  return { markdown := ← switch? markdown, normalize := ← switch? normalize }

/-- Read options. They are an object whose switches are boolean; other members do not
matter. They may also be given by position: an array of at most two booleans, first
the switch for markup and then the one for normal form. -/
def ofJson? : Json → Option Options
  | .object members => ofSwitches? (members.lookup "markdown") (members.lookup "normalize")
  | .array [] => ofSwitches? none none
  | .array [markdown] => ofSwitches? (some markdown) none
  | .array [markdown, normalize] => ofSwitches? (some markdown) (some normalize)
  | _ => none

end Options

end LineMarkup
