import LineMarkup.Toml.DateTime
import LineMarkup.Toml.Number

/-!
# TOML values and the building of tables

A table remembers how it came about, because that decides who may still add to it:
a header may be written once, dotted keys may only add to tables that dotted keys
made, and an inline table is closed.
-/

namespace LineMarkup.Toml

/-- How a table came about. -/
inductive Origin where
  /-- By its own header, or as the whole document. -/
  | header
  /-- By the header of a table below it. -/
  | implied
  /-- By a dotted key. -/
  | dotted
  /-- By braces. -/
  | inline
  deriving DecidableEq, Repr, Inhabited

inductive Value where
  | string (value : String)
  | integer (value : Int)
  | float (value : FloatValue)
  | dateTime (value : DateTime)
  | boolean (value : Bool)
  | array (items : List Value)
  | table (origin : Origin) (entries : List (String × Value))
  /-- The tables of repeated headers in double brackets, in order. -/
  | tables (rows : List (List (String × Value)))
  deriving Repr, Inhabited

/-- A table: its keys with their values, in the order in which they were written. -/
structure Table where
  origin : Origin
  entries : List (String × Value)
  deriving Repr, Inhabited

namespace Table

def empty (origin : Origin) : Table := { origin := origin, entries := [] }

def get? (table : Table) (name : String) : Option Value := table.entries.lookup name

/-- Give a key a value, in its old place if it has one. -/
def put (table : Table) (name : String) (value : Value) : Table :=
  { table with
    entries :=
      if (table.get? name).isSome then
        table.entries.map fun entry => if entry.1 = name then (name, value) else entry
      else table.entries ++ [(name, value)] }

def toValue (table : Table) : Value := .table table.origin table.entries

/-- Change the table at a path. Tables that are missing on the way are made; a path
through repeated tables goes on in the last of them. Inline tables are closed, and
dotted keys do not enter a table that has its own header. -/
def update (dotted : Bool) (change : Table → Option Table) : List String → Table → Option Table
  | [], table => change table
  | name :: path, table =>
      match table.get? name with
      | none => do
          let child := Table.empty (if dotted then .dotted else .implied)
          return table.put name (← update dotted change path child).toValue
      | some (.table origin entries) => do
          if origin = .inline ∨ (dotted = true ∧ origin = .header) then none
          return table.put name (← update dotted change path ⟨origin, entries⟩).toValue
      | some (.tables rows) => do
          let row ← rows.getLast?
          let row ← update dotted change path ⟨.header, row⟩
          return table.put name (.tables (rows.dropLast ++ [row.entries]))
      | some _ => none

/-- Add a key that is not there yet. A key that ends a dotted path belongs into a table
that dotted keys made, any other key into a table that they did not make. -/
def add (throughDots : Bool) (name : String) (value : Value) (table : Table) : Option Table :=
  if decide (table.origin = .dotted) = throughDots ∧ (table.get? name).isNone then
    some (table.put name value)
  else none

def set (path : List String) (value : Value) (table : Table) : Option Table := do
  let name ← path.getLast?
  let parents := path.dropLast
  update true (add (!parents.isEmpty) name value) parents table

/-- Open the table of a header. It is new, or was only implied by now. -/
def openTable (path : List String) (table : Table) : Option Table := do
  let name ← path.getLast?
  let openIn : Table → Option Table := fun parent =>
    match parent.get? name with
    | none => some (parent.put name (.table .header []))
    | some (.table .implied entries) => some (parent.put name (.table .header entries))
    | some _ => none
  update false openIn path.dropLast table

/-- Open a further table of a header in double brackets. -/
def openRow (path : List String) (table : Table) : Option Table := do
  let name ← path.getLast?
  let openIn : Table → Option Table := fun parent =>
    match parent.get? name with
    | none => some (parent.put name (.tables [[]]))
    | some (.tables rows) => some (parent.put name (.tables (rows ++ [[]])))
    | some _ => none
  update false openIn path.dropLast table

end Table

end LineMarkup.Toml
