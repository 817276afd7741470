import LineMarkup.Proofs.SavedOptions
import LineMarkup.Proofs.TopLevelKeys

/-!
# Loading settings

What is found under a path decides how loading ends: nothing, a directory, bytes that are no
text, a text that is no document, a document with a switch that is no boolean, or options. Of a
document only what stands under the two switches in its top-level table matters, and the
statements tell what that is. The classification holds for any reader of documents, as long as it
reads just the documents and yields their tables.
-/

namespace LineMarkup

/-! ## What is found under a path -/

namespace FileTree

variable {files : FileTree} {path : String}

/-- What is under a path, if anything is. -/
def found? (files : FileTree) (path : String) : Option Entry :=
  (files.locate? path).bind files.entry?

theorem contains_eq (files : FileTree) (path : String) :
    files.contains path = (files.found? path).isSome := rfl

theorem readText?_of_directory (hfound : files.found? path = some .directory) :
    files.readText? path = none := by
  rw [found?] at hfound
  simp only [readText?, read?, hfound, Option.bind_none]

theorem readText?_of_file {content : ByteArray}
    (hfound : files.found? path = some (.file content)) :
    files.readText? path = String.fromUTF8? content := by
  rw [found?] at hfound
  simp only [readText?, read?, hfound, Option.bind_some]

end FileTree

namespace Settings

variable {files other : FileTree} {path : String} {outcome : Except LoadError (Option Options)}

/-- Bytes are a text if they are the UTF-8 of it. -/
theorem fromUTF8?_eq_some_iff {content : ByteArray} {text : String} :
    String.fromUTF8? content = some text ↔ text.toUTF8 = content := by
  constructor
  · intro h
    unfold String.fromUTF8? at h
    split at h
    next =>
      cases h
      rfl
    next => cases h
  · rintro rfl
    exact fromUTF8?_toUTF8 text

/-! ## Switches of a table -/

def switchNames : List String := ["markdown", "normalize"]

/-- A switch is the boolean under its key, or on if the key is absent. -/
def SwitchIs (table : Toml.Table) (name : String) (value : Bool) : Prop :=
  table.get? name = some (.boolean value) ∨ table.get? name = none ∧ value = true

theorem switch?_eq_some_iff {table : Toml.Table} {name : String} {value : Bool} :
    switch? name table = some value ↔ SwitchIs table name value := by
  unfold switch? SwitchIs
  split
  next hkey => simp [hkey, eq_comm]
  next hkey => simp [hkey]
  next hboolean hkey =>
    rw [hkey]
    simp only [reduceCtorEq, false_and, or_false, false_iff, Option.some.injEq]
    exact hboolean value

/-- A switch cannot be read if something else than a boolean is under its key. -/
theorem switch?_eq_none_iff {table : Toml.Table} {name : String} :
    switch? name table = none ↔
      ∃ value, table.get? name = some value ∧ ∀ switch, value ≠ .boolean switch := by
  unfold switch?
  split
  next hkey => simp [hkey]
  next hkey => simp [hkey]
  next value hboolean hkey => simpa [hkey] using hboolean

theorem ofTable?_eq_some_iff {table : Toml.Table} {options : Options} :
    ofTable? table = some options ↔
      SwitchIs table "markdown" options.markdown ∧
        SwitchIs table "normalize" options.normalize := by
  simp only [ofTable?, Option.bind_eq_bind, Option.bind_eq_some_iff, switch?_eq_some_iff]
  constructor
  · rintro ⟨markdown, hmarkdown, normalize, hnormalize, heq⟩
    cases heq
    exact ⟨hmarkdown, hnormalize⟩
  · rintro ⟨hmarkdown, hnormalize⟩
    exact ⟨_, hmarkdown, _, hnormalize, rfl⟩

theorem ofTable?_eq_none_iff {table : Toml.Table} :
    ofTable? table = none ↔ ∃ name ∈ switchNames, switch? name table = none := by
  simp only [ofTable?, Option.bind_eq_bind, switchNames, List.mem_cons, List.not_mem_nil, or_false,
    exists_eq_or_imp, exists_eq_left]
  cases switch? "markdown" table <;> cases switch? "normalize" table <;> simp

theorem ofTable?_congr {table after : Toml.Table}
    (hagree : ∀ name ∈ switchNames, table.get? name = after.get? name) :
    ofTable? table = ofTable? after := by
  have hmarkdown := hagree "markdown" (by simp [switchNames])
  have hnormalize := hagree "normalize" (by simp [switchNames])
  simp only [ofTable?, switch?, hmarkdown, hnormalize]

/-! ## Outcomes of loading -/

/-- How loading ends, by what is found under the path. `Denotes` tells which texts are documents,
and their tables. -/
inductive LoadsAs (Denotes : String → Toml.Table → Prop) (files : FileTree) (path : String) :
    Except LoadError (Option Options) → Prop where
  | absent (hfound : files.found? path = none) : LoadsAs Denotes files path (.ok none)
  | directory (hfound : files.found? path = some .directory) :
      LoadsAs Denotes files path (.error (.unreadable path))
  | binary {content : ByteArray} (hfound : files.found? path = some (.file content))
      (hbinary : ∀ text : String, text.toUTF8 ≠ content) :
      LoadsAs Denotes files path (.error (.unreadable path))
  | noDocument {text : String} (hfound : files.found? path = some (.file text.toUTF8))
      (hnone : ∀ table, ¬ Denotes text table) :
      LoadsAs Denotes files path (.error (.malformed path))
  | badSwitch {text name : String} {table : Toml.Table} {value : Toml.Value}
      (hfound : files.found? path = some (.file text.toUTF8)) (hdenotes : Denotes text table)
      (hname : name ∈ switchNames) (hkey : table.get? name = some value)
      (hvalue : ∀ switch, value ≠ .boolean switch) :
      LoadsAs Denotes files path (.error (.malformed path))
  | options {text : String} {table : Toml.Table} {options : Options}
      (hfound : files.found? path = some (.file text.toUTF8)) (hdenotes : Denotes text table)
      (hmarkdown : SwitchIs table "markdown" options.markdown)
      (hnormalize : SwitchIs table "normalize" options.normalize) :
      LoadsAs Denotes files path (.ok (some options))

section Reader

variable {Denotes : String → Toml.Table → Prop} {read? : String → Option Toml.Table}

theorem loadWith_of_binary {content : ByteArray}
    (hfound : files.found? path = some (.file content))
    (hbinary : String.fromUTF8? content = none) :
    loadWith read? files path = .error (.unreadable path) := by
  simp [loadWith, FileTree.contains_eq, hfound, FileTree.readText?_of_file hfound, hbinary]

theorem loadWith_of_text {text : String} (hfound : files.found? path = some (.file text.toUTF8)) :
    loadWith read? files path =
      ((read? text).bind ofTable?).elim (.error (.malformed path)) fun options =>
        .ok (some options) := by
  have htext := FileTree.readText?_of_file hfound
  rw [fromUTF8?_toUTF8] at htext
  simp only [loadWith, FileTree.contains_eq, hfound, htext, Option.isSome_some, Bool.not_true,
    Bool.false_eq_true, if_false]
  cases (read? text).bind ofTable? <;> rfl

/-- A file state has the outcome it is classified with. -/
theorem LoadsAs.eq (hread : ∀ text table, read? text = some table ↔ Denotes text table)
    (h : LoadsAs Denotes files path outcome) : loadWith read? files path = outcome := by
  cases h with
  | absent hfound => simp [loadWith, FileTree.contains_eq, hfound]
  | directory hfound =>
      simp [loadWith, FileTree.contains_eq, hfound, FileTree.readText?_of_directory hfound]
  | binary hfound hbinary =>
      refine loadWith_of_binary hfound (Option.eq_none_iff_forall_ne_some.mpr ?_)
      exact fun text htext => hbinary text (fromUTF8?_eq_some_iff.mp htext)
  | noDocument hfound hnone =>
      have hnone : read? _ = none :=
        Option.eq_none_iff_forall_ne_some.mpr fun table htable =>
          hnone table ((hread _ table).mp htable)
      simp [loadWith_of_text hfound, hnone]
  | badSwitch hfound hdenotes hname hkey hvalue =>
      have hnone := ofTable?_eq_none_iff.mpr
        ⟨_, hname, switch?_eq_none_iff.mpr ⟨_, hkey, hvalue⟩⟩
      simp [loadWith_of_text hfound, (hread _ _).mpr hdenotes, hnone]
  | options hfound hdenotes hmarkdown hnormalize =>
      have hoptions := ofTable?_eq_some_iff.mpr ⟨hmarkdown, hnormalize⟩
      simp [loadWith_of_text hfound, (hread _ _).mpr hdenotes, hoptions]

/-- No file state is left out. -/
theorem exists_loadsAs (Denotes : String → Toml.Table → Prop) (files : FileTree) (path : String) :
    ∃ outcome, LoadsAs Denotes files path outcome := by
  cases hfound : files.found? path with
  | none => exact ⟨_, .absent hfound⟩
  | some entry =>
      cases entry with
      | directory => exact ⟨_, .directory hfound⟩
      | file content =>
          by_cases htext : ∃ text : String, text.toUTF8 = content
          · obtain ⟨text, rfl⟩ := htext
            by_cases hdocument : ∃ table, Denotes text table
            · obtain ⟨table, hdenotes⟩ := hdocument
              cases hoptions : ofTable? table with
              | none =>
                  obtain ⟨name, hname, hswitch⟩ := ofTable?_eq_none_iff.mp hoptions
                  obtain ⟨value, hkey, hvalue⟩ := switch?_eq_none_iff.mp hswitch
                  exact ⟨_, .badSwitch hfound hdenotes hname hkey hvalue⟩
              | some options =>
                  obtain ⟨hmarkdown, hnormalize⟩ := ofTable?_eq_some_iff.mp hoptions
                  exact ⟨_, .options hfound hdenotes hmarkdown hnormalize⟩
            · exact ⟨_, .noDocument hfound (not_exists.mp hdocument)⟩
          · exact ⟨_, .binary hfound (not_exists.mp htext)⟩

theorem loadWith_eq_iff (hread : ∀ text table, read? text = some table ↔ Denotes text table) :
    loadWith read? files path = outcome ↔ LoadsAs Denotes files path outcome := by
  refine ⟨?_, LoadsAs.eq hread⟩
  rintro rfl
  obtain ⟨outcome, h⟩ := exists_loadsAs Denotes files path
  rwa [h.eq hread]

/-- Documents that agree on the switches are loaded alike. -/
theorem loadWith_congr (hread : ∀ text table, read? text = some table ↔ Denotes text table)
    {text after : String} {table changed : Toml.Table}
    (hfound : files.found? path = some (.file text.toUTF8))
    (hother : other.found? path = some (.file after.toUTF8))
    (hdenotes : Denotes text table) (hafter : Denotes after changed)
    (hagree : ∀ name ∈ switchNames, table.get? name = changed.get? name) :
    loadWith read? files path = loadWith read? other path := by
  rw [loadWith_of_text hfound, loadWith_of_text hother, (hread _ _).mpr hdenotes,
    (hread _ _).mpr hafter, Option.bind_some, Option.bind_some, ofTable?_congr hagree]

end Reader

/-! ## Switches by the statements of a document -/

/-- Statements give a switch a value: a boolean is assigned to it above all headers, or the place
of no statement begins with its name and it is on. -/
def Says (statements : List Toml.Statement) (name : String) (value : Bool) : Prop :=
  .assign [name] (.boolean value) ∈ Toml.aboveHeaders statements ∨
    (∀ place ∈ Toml.places [] statements, place.head? ≠ some name) ∧ value = true

theorem switchIs_iff_says {statements : List Toml.Statement} {table : Toml.Table}
    (hbuilds : Toml.Builds statements table) (name : String) (value : Bool) :
    SwitchIs table name value ↔ Says statements name value := by
  unfold SwitchIs Says
  rw [hbuilds.get?_eq_some_iff name rfl, hbuilds.get?_eq_none_iff]

theorem switch?_eq_none_iff_says {statements : List Toml.Statement} {table : Toml.Table}
    (hbuilds : Toml.Builds statements table) (name : String) :
    switch? name table = none ↔ ∀ value, ¬ Says statements name value := by
  simp only [Option.eq_none_iff_forall_ne_some, ne_eq, switch?_eq_some_iff,
    switchIs_iff_says hbuilds]

/-- Loading a document comes down to its statements. -/
structure LoadsByStatements (files : FileTree) (path : String) (statements : List Toml.Statement) :
    Prop where
  options_iff : ∀ options, load files path = .ok (some options) ↔
    Says statements "markdown" options.markdown ∧ Says statements "normalize" options.normalize
  malformed_iff : load files path = .error (.malformed path) ↔
    ∃ name ∈ switchNames, ∀ value, ¬ Says statements name value

theorem loadsByStatements_of_lines {text : String} {statements : List Toml.Statement}
    {table : Toml.Table} (hfound : files.found? path = some (.file text.toUTF8))
    (hlines : Toml.Lines (Toml.dropByteOrderMark text.toList) statements)
    (hbuilds : Toml.Builds statements table) : LoadsByStatements files path statements := by
  have hparse := (Toml.parse?_eq_some_iff text table).mpr ⟨statements, hlines, hbuilds⟩
  have hload : load files path = _ := loadWith_of_text hfound
  rw [hparse, Option.bind_some] at hload
  have hoptions : ∀ options, ofTable? table = some options ↔
      Says statements "markdown" options.markdown ∧
        Says statements "normalize" options.normalize := by
    intro options
    rw [ofTable?_eq_some_iff, switchIs_iff_says hbuilds, switchIs_iff_says hbuilds]
  have hmalformed : ofTable? table = none ↔
      ∃ name ∈ switchNames, ∀ value, ¬ Says statements name value := by
    simp only [ofTable?_eq_none_iff, switch?_eq_none_iff_says hbuilds]
  constructor
  · intro options
    rw [hload, ← hoptions]
    cases ofTable? table <;> simp
  · rw [hload, ← hmalformed]
    cases ofTable? table <;> simp

/-! ## Loading -/

/-- A way of loading classifies every file state, and of a document it regards the switches
only. -/
structure ClassifiesFiles (Denotes : String → Toml.Table → Prop)
    (load : FileTree → String → Except LoadError (Option Options)) : Prop where
  eq_iff : ∀ files path outcome, load files path = outcome ↔ LoadsAs Denotes files path outcome
  congr : ∀ (files other : FileTree) (path text after : String) (table changed : Toml.Table),
    files.found? path = some (.file text.toUTF8) → Denotes text table →
    other.found? path = some (.file after.toUTF8) → Denotes after changed →
    (∀ name ∈ switchNames, table.get? name = changed.get? name) →
    load files path = load other path

theorem classifiesFiles_loadWith {Denotes : String → Toml.Table → Prop}
    {read? : String → Option Toml.Table}
    (hread : ∀ text table, read? text = some table ↔ Denotes text table) :
    ClassifiesFiles Denotes (loadWith read?) where
  eq_iff _ _ _ := loadWith_eq_iff hread
  congr _ _ _ _ _ _ _ hfound hdenotes hother hafter hagree :=
    loadWith_congr hread hfound hother hdenotes hafter hagree

/-- With any reader that reads just the documents and yields their tables, loading classifies
every file state, and so it does with the reader there is. For a document the outcome is told by
its statements: headers, dotted keys and the keys of other tables give a switch no value. -/
theorem load_classifies_files :
    (∀ (Denotes : String → Toml.Table → Prop) (read? : String → Option Toml.Table),
      (∀ text table, read? text = some table ↔ Denotes text table) →
      ClassifiesFiles Denotes (loadWith read?)) ∧
    ClassifiesFiles Toml.Denotes load ∧
    ∀ (files : FileTree) (path text : String) (statements : List Toml.Statement)
      (table : Toml.Table), files.found? path = some (.file text.toUTF8) →
      Toml.Lines (Toml.dropByteOrderMark text.toList) statements →
      Toml.Builds statements table → LoadsByStatements files path statements := by
  refine ⟨?_, ?_, ?_⟩
  · intro Denotes read? hread
    exact classifiesFiles_loadWith hread
  · exact classifiesFiles_loadWith Toml.parse?_eq_some_iff
  · intro files path text statements table hfound hlines hbuilds
    exact loadsByStatements_of_lines hfound hlines hbuilds

/-- A quoted key counts like a bare one, a key of another table does not, and headers with the
name of a switch leave no boolean there. -/
theorem load_classifies_files_shadowed :
    let only (text : String) : FileTree := ⟨[], [(["c"], .file text.toUTF8)]⟩
    loadWith Toml.parse? (only "\"normalize\" = false # off\n[a]\nmarkdown = 1\n") "c" =
        loadWith Toml.parse? (only "normalize=false") "c" ∧
      load (only "[[normalize]]\nmarkdown = false") "c" = .error (.malformed "c") ∧
      load (only "normalize=false") "c" = .ok (some ⟨true, false⟩) := by
  intro only
  have hfound : ∀ text : String, (only text).found? "c" = some (.file text.toUTF8) := by
    intro text
    rfl
  have hquoted : Toml.Denotes "\"normalize\" = false # off\n[a]\nmarkdown = 1\n"
      ⟨.header, [("normalize", .boolean false),
        ("a", .table .header [("markdown", .integer 1)])]⟩ :=
    (Toml.parse?_eq_some_iff _ _).mp (by rfl)
  have hbare : Toml.Denotes "normalize=false" ⟨.header, [("normalize", .boolean false)]⟩ :=
    (Toml.parse?_eq_some_iff _ _).mp (by rfl)
  have hrows : Toml.Denotes "[[normalize]]\nmarkdown = false"
      ⟨.header, [("normalize", .tables [[("markdown", .boolean false)]])]⟩ :=
    (Toml.parse?_eq_some_iff _ _).mp (by rfl)
  have hlines : Toml.Lines (Toml.dropByteOrderMark "normalize=false".toList)
      [.assign ["normalize"] (.boolean false)] :=
    .statement (by rfl) (by rfl) (by rfl) (.done (by rfl))
  obtain ⟨hany, hload, hsays⟩ := load_classifies_files
  refine ⟨?_, ?_, ?_⟩
  · apply (hany Toml.Denotes Toml.parse? Toml.parse?_eq_some_iff).congr _ _ _ _ _ _ _
      (hfound _) hquoted (hfound _) hbare
    simp only [switchNames, List.forall_mem_cons]
    exact ⟨rfl, rfl, List.forall_mem_nil _⟩
  · rw [hload.eq_iff]
    exact .badSwitch (hfound _) hrows (List.mem_cons_of_mem _ List.mem_cons_self) rfl (by simp)
  · have hloads := hsays _ _ _ _ ⟨.header, [("normalize", .boolean false)]⟩ (hfound _) hlines
      ⟨[], by rfl⟩
    refine (hloads.options_iff ⟨true, false⟩).mpr ⟨.inr ⟨?_, rfl⟩, .inl List.mem_cons_self⟩
    simp [Toml.places, Toml.Statement.place]

end Settings

end LineMarkup
