import LineMarkup.Parse
import LineMarkup.Settings

/-!
# Sessions

A session holds files and the current options, and works off commands on both. A
command that fails changes neither the content of a file nor the options.
-/

namespace LineMarkup

/-- Files, the home directory, and the current options. -/
structure Session where
  files : FileTree
  home : String
  options : Options
  deriving Inhabited

/-- What a session can be told to do. Loading and saving without a path use the default
place of the settings file. -/
inductive Command where
  | write (path : String) (content : ByteArray)
  | makeDirectory (path : String)
  | remove (path : String)
  | read (path : String)
  | set (options : Options)
  | load (path : Option String)
  | save (path : Option String)
  | parse (line : String)
  deriving Inhabited

/-- Why a command fails. -/
inductive CommandError where
  | file
  | load (error : Settings.LoadError)
  | save
  | parse (error : ParseError)
  deriving DecidableEq, Repr, Inhabited

inductive Reply where
  | done
  | text (content : String)
  | options (current : Options)
  | absent
  | saved
  | nodes (nodes : List Node)
  deriving DecidableEq, Repr, Inhabited

namespace Session

/-- A session in an empty home directory, with the default options. -/
def fresh : Session := { files := .fresh ["home"], home := "/home", options := {} }

/-- The path of a command that may name one. -/
def settingsPath (session : Session) (path : Option String) : String :=
  path.getD (Settings.defaultPath session.home)

/-- The outcome of changing files, where directories may have been made even if the
change failed. -/
def withFiles (session : Session) (error : CommandError) (reply : Reply) :
    FileTree × Bool → Except CommandError Reply × Session
  | (files, true) => (.ok reply, { session with files := files })
  | (files, false) => (.error error, { session with files := files })

/-- Work off a command, with settings files in a given format. -/
def stepWith (format : Settings.Format) (session : Session) :
    Command → Except CommandError Reply × Session
  | .write path content => session.withFiles .file .done (session.files.writeDeep path content)
  | .makeDirectory path => session.withFiles .file .done (session.files.makeDirectory path)
  | .remove path =>
      match session.files.remove? path with
      | some files => (.ok .done, { session with files := files })
      | none => (.error .file, session)
  | .read path =>
      match session.files.readText? path with
      | some content => (.ok (.text content), session)
      | none => (.error .file, session)
  | .set options => (.ok (.options options), { session with options := options })
  | .load path =>
      match Settings.loadWith format.read? session.files (session.settingsPath path) with
      | .ok (some options) => (.ok (.options options), { session with options := options })
      | .ok none => (.ok .absent, session)
      | .error error => (.error (.load error), session)
  | .save path =>
      session.withFiles .save .saved
        (Settings.saveWith format.write session.files (session.settingsPath path) session.options)
  | .parse line =>
      match parseWith session.options line with
      | .ok nodes => (.ok (.nodes nodes), session)
      | .error error => (.error (.parse error), session)

/-- Work off commands one after the other. -/
def runWith (format : Settings.Format) (session : Session) : List Command → Session
  | [] => session
  | command :: rest => runWith format (session.stepWith format command).2 rest

/-- Work off a command, with settings files in TOML. -/
def step (session : Session) (command : Command) : Except CommandError Reply × Session :=
  session.stepWith .toml command

end Session

end LineMarkup
