import LineMarkup.Files
import LineMarkup.Options
import LineMarkup.Toml.Document

/-!
# Settings files

The parse options are kept in a file as two booleans in a top-level table. Whatever else
the file holds does not matter, so long as it is a document. A format says which text is
written for options and which texts are documents; settings files are TOML.
-/

namespace LineMarkup.Settings

/-- Why a settings file cannot be loaded. -/
inductive LoadError where
  /-- There is something under the path, but no text can be read from it. -/
  | unreadable (path : String)
  /-- The text is no TOML document, or a switch in it is no boolean. -/
  | malformed (path : String)
  deriving DecidableEq, Repr, Inhabited

/-- The wording of a failure. -/
def LoadError.message : LoadError → String
  | .unreadable path => "Failed to read config file at " ++ path
  | .malformed path => "Failed to parse config file at " ++ path

/-- The place of the settings file below a home directory. -/
def defaultPath (home : String) : String := home ++ "/.config/inline-markup/config.toml"

/-- How options are written as a text, and how a text is read as a table. -/
structure Format where
  write : Options → String
  read? : String → Option Toml.Table

/-- A boolean as TOML writes it. -/
def booleanText (value : Bool) : String := if value then "true" else "false"

/-- The text of a settings file. -/
def text (options : Options) : String :=
  "markdown = " ++ booleanText options.markdown ++ "\nnormalize = " ++
    booleanText options.normalize ++ "\n"

/-- Settings files are TOML documents with a line for each switch. -/
def Format.toml : Format := { write := text, read? := Toml.parse? }

/-- One switch of a table. A switch that is not there is on. -/
def switch? (name : String) (table : Toml.Table) : Option Bool :=
  match table.get? name with
  | none => some true
  | some (.boolean value) => some value
  | some _ => none

/-- The options in a table. -/
def ofTable? (table : Toml.Table) : Option Options := do
  let markdown ← switch? "markdown" table
  let normalize ← switch? "normalize" table
  return { markdown := markdown, normalize := normalize }

/-- Load the settings under a path, with a reader of documents. Where nothing is found
there are none. -/
def loadWith (read? : String → Option Toml.Table) (files : FileTree) (path : String) :
    Except LoadError (Option Options) :=
  if !files.contains path then .ok none
  else
    match files.readText? path with
    | none => .error (.unreadable path)
    | some text =>
        match (read? text).bind ofTable? with
        | none => .error (.malformed path)
        | some options => .ok (some options)

/-- Load the settings under a path, which are TOML. -/
def load (files : FileTree) (path : String) : Except LoadError (Option Options) :=
  loadWith Toml.parse? files path

/-- Save settings under a path, as the text that is written for them, and make the
directories that lead to it. -/
def saveWith (write : Options → String) (files : FileTree) (path : String) (options : Options) :
    FileTree × Bool :=
  files.writeDeep path (write options).toUTF8

end LineMarkup.Settings
