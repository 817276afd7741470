import LineMarkup.Proofs.FileChanges
import LineMarkup.Session

/-!
# Saved options persist

What a command replaces is the file at one location at most: the one a successful write,
removal or save is about. The content at every other location stays, over any number of
commands, and so do the places that paths lead to. Options that were saved are therefore
loaded again until a command replaces the file that holds them, in any format that reads
back the switches it writes.
-/

namespace LineMarkup

/-! ## The text of a settings file -/

namespace Settings

variable {files : FileTree} {path : String} {location : Location} {format : Format}

/-- What is written for options is read as a table with both switches as they are. -/
def Format.ReadsBack (format : Format) : Prop :=
  ∀ options, ∃ table, format.read? (format.write options) = some table ∧
    table.get? "markdown" = some (.boolean options.markdown) ∧
    table.get? "normalize" = some (.boolean options.normalize)

theorem toml_readsBack : Format.toml.ReadsBack := by
  rintro ⟨markdown, normalize⟩
  refine ⟨⟨.header, [("markdown", .boolean markdown), ("normalize", .boolean normalize)]⟩, ?_⟩
  cases markdown <;> cases normalize <;> exact ⟨rfl, rfl, rfl⟩

/-- The options in a table with both switches are these. -/
theorem Format.ReadsBack.ofTable? (hformat : format.ReadsBack) (options : Options) :
    (format.read? (format.write options)).bind ofTable? = some options := by
  obtain ⟨table, hread, hmarkdown, hnormalize⟩ := hformat options
  simp [hread, Settings.ofTable?, switch?, hmarkdown, hnormalize]

theorem fromUTF8?_toUTF8 (s : String) : String.fromUTF8? s.toUTF8 = some s := by
  simp only [String.fromUTF8?, String.toUTF8_eq_toByteArray, dif_pos s.isValidUTF8]
  rfl

/-- Where the text of some options is the content of a file, they are loaded from it. -/
theorem loadWith_of_content? (hformat : format.ReadsBack) {options : Options}
    (hlocation : files.locate? path = some location)
    (hcontent : files.content? location = some (format.write options).toUTF8) :
    loadWith format.read? files path = .ok (some options) := by
  have htext : files.readText? path = some (format.write options) := by
    rw [FileTree.readText?, FileTree.read?_of_content? hlocation hcontent, Option.bind_some,
      fromUTF8?_toUTF8]
  simp [loadWith, FileTree.contains_of_content? hlocation hcontent, htext,
    hformat.ofTable? options]

/-- Options are saved in a file that the path leads to and no other file changes, or saving
fails and no file changes. -/
theorem saveWith_cases (write : Options → String) (files : FileTree) (path : String)
    (options : Options) :
    (∃ made, saveWith write files path options = (made, false) ∧
      FileTree.ChangesOnly none files made) ∨
      ∃ saved location, saveWith write files path options = (saved, true) ∧
        saved.locate? path = some location ∧
        saved.content? location = some (write options).toUTF8 ∧
        FileTree.ChangesOnly (some location) files saved :=
  files.writeDeep_cases path (write options).toUTF8

end Settings

namespace Session

variable {session : Session} {command : Command} {location : Location} {path : String}
variable {format : Settings.Format}

/-! ## What a command replaces -/

/-- The path of the file that a command writes, removes or saves. -/
def target? (session : Session) : Command → Option String
  | .write path _ => some path
  | .remove path => some path
  | .save path => some (session.settingsPath path)
  | _ => none

/-- The location of the file that a command replaces, if it does not fail. -/
def replaced? (format : Settings.Format) (session : Session) (command : Command) :
    Option Location :=
  match session.stepWith format command with
  | (.ok _, after) => (session.target? command).bind after.files.locate?
  | (.error _, _) => none

/-- No command of a run replaces the file at a location. -/
def Spares (format : Settings.Format) (location : Location) : Session → List Command → Prop
  | _, [] => True
  | session, command :: rest =>
      session.replaced? format command ≠ some location ∧
        Spares format location (session.stepWith format command).2 rest

theorem replaced?_of_error {error : CommandError}
    (herror : (session.stepWith format command).1 = .error error) :
    session.replaced? format command = none := by
  unfold replaced?
  split
  next hok => simp [hok] at herror
  next => rfl

/-! ## Steps -/

theorem stepWith_home (format : Settings.Format) (session : Session) (command : Command) :
    (session.stepWith format command).2.home = session.home := by
  cases command with
  | set options => rfl
  | _ => simp only [stepWith, withFiles]; split <;> rfl

/-- A command changes the content of no file but the one it replaces. -/
theorem stepWith_changesOnly (format : Settings.Format) (session : Session) (command : Command) :
    FileTree.ChangesOnly (session.replaced? format command) session.files
      (session.stepWith format command).2.files := by
  cases command with
  | write path content =>
      obtain ⟨made, hfailed, hmade⟩ | ⟨written, location, hdone, hlocation, -, hwritten⟩ :=
        session.files.writeDeep_cases path content
      · simpa [replaced?, stepWith, withFiles, hfailed] using hmade
      · simpa [replaced?, stepWith, withFiles, hdone, target?, hlocation] using hwritten
  | makeDirectory path =>
      have hmade := session.files.makeDirectory_changesOnly path
      simp only [replaced?, stepWith]
      generalize session.files.makeDirectory path = outcome at hmade ⊢
      obtain ⟨made, done⟩ := outcome
      cases done <;> exact hmade
  | remove path =>
      cases hremove : session.files.remove? path with
      | some left =>
          obtain ⟨location, hlocation, hleft⟩ := FileTree.exists_of_remove?_eq_some hremove
          simpa [replaced?, stepWith, hremove, target?, hlocation] using hleft
      | none => simpa [stepWith, hremove] using .refl _ session.files
  | save path =>
      obtain ⟨made, hfailed, hmade⟩ | ⟨saved, location, hdone, hlocation, -, hsaved⟩ :=
        Settings.saveWith_cases format.write session.files (session.settingsPath path)
          session.options
      · simpa [replaced?, stepWith, withFiles, hfailed] using hmade
      · simpa [replaced?, stepWith, withFiles, hdone, target?, hlocation] using hsaved
  | set options => exact .refl _ session.files
  | _ =>
      simp only [stepWith]
      split <;> exact .refl _ session.files

/-- A command that fails leaves the options as they are. -/
theorem stepWith_options_of_error {error : CommandError}
    (herror : (session.stepWith format command).1 = .error error) :
    (session.stepWith format command).2.options = session.options := by
  cases command with
  | set options => nomatch herror
  | load path =>
      simp only [stepWith] at herror ⊢
      split
      next hload => simp [hload] at herror
      next => rfl
      next => rfl
  | _ => simp only [stepWith, withFiles]; split <;> rfl

/-- Where options are saved there is a file with their text, and no other has changed. -/
theorem exists_of_stepWith_save {path : Option String}
    (hsaved : (session.stepWith format (.save path)).1 = .ok .saved) :
    ∃ location, (session.stepWith format (.save path)).2.files.locate?
        (session.settingsPath path) = some location ∧
      (session.stepWith format (.save path)).2.files.content? location =
        some (format.write session.options).toUTF8 ∧
      FileTree.ChangesOnly (some location) session.files
        (session.stepWith format (.save path)).2.files := by
  obtain ⟨made, hfailed, -⟩ | ⟨saved, location, hdone, hlocation, hcontent, hchanges⟩ :=
    Settings.saveWith_cases format.write session.files (session.settingsPath path)
      session.options
  · simp [stepWith, withFiles, hfailed] at hsaved
  · have hstep : session.stepWith format (.save path) =
        (.ok .saved, { session with files := saved }) := by
      simp only [stepWith, withFiles, hdone]
    rw [hstep]
    exact ⟨location, hlocation, hcontent, hchanges⟩

theorem stepWith_load_of_ok {path : Option String} {options : Options}
    (hload : Settings.loadWith format.read? session.files (session.settingsPath path) =
      .ok (some options)) :
    (session.stepWith format (.load path)).1 = .ok (.options options) := by
  simp only [stepWith, hload]

/-- Loading changes no file, whether or not it fails. -/
theorem stepWith_load_files (format : Settings.Format) (session : Session)
    (path : Option String) :
    (session.stepWith format (.load path)).2.files = session.files := by
  simp only [stepWith]
  split <;> rfl

/-! ## Runs -/

theorem runWith_home (format : Settings.Format) (session : Session) (commands : List Command) :
    (session.runWith format commands).home = session.home := by
  induction commands generalizing session with
  | nil => rfl
  | cons command rest ih => exact (ih _).trans (stepWith_home format session command)

/-- A path leads to the same location after any commands. -/
theorem runWith_locate? (format : Settings.Format) (commands : List Command)
    (hlocation : session.files.locate? path = some location) :
    (session.runWith format commands).files.locate? path = some location := by
  induction commands generalizing session with
  | nil => exact hlocation
  | cons command rest ih =>
      exact ih ((stepWith_changesOnly format session command).locate? hlocation)

/-- The content at a location stays while no command replaces the file there. -/
theorem runWith_content? {commands : List Command}
    (hspared : Spares format location session commands) :
    (session.runWith format commands).files.content? location =
      session.files.content? location := by
  induction commands generalizing session with
  | nil => rfl
  | cons command rest ih =>
      obtain ⟨hfirst, hrest⟩ := hspared
      have hstep : (session.stepWith format command).2.files.content? location =
          session.files.content? location :=
        (stepWith_changesOnly format session command).content?_eq location hfirst
      exact (ih hrest).trans hstep

/-! ## Saved options -/

/-- In a format that reads back the switches it writes, options that have been saved under a
path, or under the default path, are loaded from there after any commands that do not replace the
file, and no other file has changed. Loading changes no file. A command that fails, even one that
has made directories by then, changes neither a file nor the options. -/
theorem saved_options_persist (hformat : format.ReadsBack) (session : Session) :
    (∀ path, (session.stepWith format (.save path)).1 = .ok .saved →
      let saved := (session.stepWith format (.save path)).2
      ∃ location, saved.files.locate? (session.settingsPath path) = some location ∧
        (∀ other, other ≠ location →
          saved.files.content? other = session.files.content? other) ∧
        ∀ later, Spares format location saved later →
          ((saved.runWith format later).stepWith format (.load path)).1 =
            .ok (.options session.options)) ∧
      (∀ path, (session.stepWith format (.load path)).2.files = session.files) ∧
      ∀ command error, (session.stepWith format command).1 = .error error →
        (∀ location, (session.stepWith format command).2.files.content? location =
          session.files.content? location) ∧
        (session.stepWith format command).2.options = session.options := by
  refine ⟨?_, stepWith_load_files format session, ?_⟩
  · intro path hsaved
    obtain ⟨location, hlocation, hcontent, hchanges⟩ := exists_of_stepWith_save hsaved
    refine ⟨location, hlocation, ?_, ?_⟩
    · intro other hother
      exact hchanges.content?_eq other (by simpa using Ne.symm hother)
    · intro later hspared
      have hpath : ((session.stepWith format (.save path)).2.runWith format later).settingsPath
          path = session.settingsPath path := by
        simp only [settingsPath, runWith_home, stepWith_home]
      have hload := Settings.loadWith_of_content? hformat (runWith_locate? format later hlocation)
        ((runWith_content? hspared).trans hcontent)
      rw [← hpath] at hload
      exact stepWith_load_of_ok hload
  · intro command error herror
    have hchanges := stepWith_changesOnly format session command
    rw [replaced?_of_error herror] at hchanges
    exact ⟨fun location => hchanges.content?_eq location nofun, stepWith_options_of_error herror⟩

/-- Between saving and loading the options are set anew, a save fails that has made a directory
by then, another file is written, and a removal fails because a directory is under its path. -/
theorem saved_options_persist_past_failure :
    ((fresh.runWith .toml [.set ⟨false, true⟩, .save (some "d/c"), .set {},
        .save (some "e/\x00"), .write "c" .empty, .remove "d"]).stepWith .toml
          (.load (some "d/c"))).1 = .ok (.options ⟨false, true⟩) ∧
      ((fresh.runWith .toml [.save (some "e/\x00")]).stepWith .toml (.load (some "e"))).1 =
        .error (.load (.unreadable "e")) := by
  have hsaved : ((fresh.runWith .toml [.set ⟨false, true⟩]).stepWith .toml
      (.save (some "d/c"))).1 = .ok .saved := by rfl
  obtain ⟨location, hlocation, -, hload⟩ :=
    (saved_options_persist Settings.toml_readsBack _).1 _ hsaved
  have hplace : ((fresh.runWith .toml [.set ⟨false, true⟩]).stepWith .toml
      (.save (some "d/c"))).2.files.locate? "d/c" = some ["home", "d", "c"] := by rfl
  obtain rfl : location = ["home", "d", "c"] := Option.some.inj (hlocation.symm.trans hplace)
  refine ⟨hload [.set {}, .save (some "e/\x00"), .write "c" .empty, .remove "d"] ?_, by rfl⟩
  have hset : ((fresh.runWith .toml [.set ⟨false, true⟩, .save (some "d/c")]).replaced? .toml
      (.set {})) = none := by rfl
  have hsave : ((fresh.runWith .toml [.set ⟨false, true⟩, .save (some "d/c"),
      .set {}]).replaced? .toml (.save (some "e/\x00"))) = none := by rfl
  have hwrite : ((fresh.runWith .toml [.set ⟨false, true⟩, .save (some "d/c"), .set {},
      .save (some "e/\x00")]).replaced? .toml (.write "c" .empty)) = some ["home", "c"] := by rfl
  have hremove : ((fresh.runWith .toml [.set ⟨false, true⟩, .save (some "d/c"), .set {},
      .save (some "e/\x00"), .write "c" .empty]).replaced? .toml (.remove "d")) = none := by rfl
  exact ⟨hset ▸ (Option.some_ne_none _).symm, hsave ▸ (Option.some_ne_none _).symm,
    hwrite ▸ by decide, hremove ▸ (Option.some_ne_none _).symm, trivial⟩

end Session

end LineMarkup
