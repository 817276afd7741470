import LineMarkup.Files

/-!
# What file operations leave alone

Every operation on a file tree changes the content of one file at most, and a failed one of
none: it can only have made directories. Directories stay, so a path that leads to a location
leads there ever after.
-/

namespace LineMarkup.FileTree

variable {tree before after : FileTree} {location other : Location} {entry : Entry}
variable {path : String} {content : ByteArray}

/-! ## Entries -/

/-- The content of the file at a location, if a file is there. -/
def content? (tree : FileTree) (location : Location) : Option ByteArray :=
  match tree.entry? location with
  | some (.file content) => some content
  | _ => none

theorem content?_eq_some_iff :
    tree.content? location = some content ↔ tree.entry? location = some (.file content) := by
  unfold content?
  split <;> simp_all

theorem isDirectory_iff :
    tree.isDirectory location = true ↔ tree.entry? location = some .directory := by
  unfold isDirectory
  split <;> simp_all

/-- The root is a directory whatever the entries say. -/
theorem ne_nil_of_not_isDirectory (hlocation : tree.isDirectory location = false) :
    location ≠ [] := by
  rintro rfl
  exact absurd hlocation (by simp [isDirectory, entry?])

theorem lookup_filter_ne (hother : other ≠ location) (entries : List (Location × Entry)) :
    (entries.filter (·.1 != location)).lookup other = entries.lookup other := by
  induction entries with
  | nil => rfl
  | cons first entries ih =>
      obtain ⟨place, entry⟩ := first
      rw [List.lookup_cons, List.filter_cons]
      by_cases hplace : place = location
      · subst hplace
        have hskip : (other == place) = false := by simpa using hother
        simp [hskip, ih]
      · simp [hplace, ih, List.lookup_cons]

theorem entry?_put_self (hlocation : location ≠ []) :
    entry? (tree.put location entry) location = some entry := by
  simp [put, entry?, hlocation]

theorem entry?_put_of_ne (hother : other ≠ location) :
    entry? (tree.put location entry) other = tree.entry? other := by
  have hskip : (other == location) = false := by simpa using hother
  simp [put, entry?, List.lookup_cons, hskip, lookup_filter_ne hother]

theorem entry?_erase_of_ne (hother : other ≠ location) :
    entry? (tree.erase location) other = tree.entry? other := by
  simp [FileTree.erase, entry?, lookup_filter_ne hother]

/-! ## Changes -/

/-- A change in which no file appears, goes away or gets another content, except one at
`place`. Directories stay, and others may have been made. -/
structure ChangesOnly (place : Option Location) (before after : FileTree) : Prop where
  workingDirectory_eq : after.workingDirectory = before.workingDirectory
  isDirectory_of : ∀ location, before.isDirectory location → after.isDirectory location
  content?_eq : ∀ location, place ≠ some location →
    after.content? location = before.content? location

namespace ChangesOnly

variable {place : Option Location}

theorem refl (place : Option Location) (tree : FileTree) : ChangesOnly place tree tree :=
  ⟨rfl, fun _ hdirectory => hdirectory, fun _ _ => rfl⟩

theorem trans {middle : FileTree} (hfirst : ChangesOnly place before middle)
    (hsecond : ChangesOnly place middle after) : ChangesOnly place before after where
  workingDirectory_eq := hsecond.workingDirectory_eq.trans hfirst.workingDirectory_eq
  isDirectory_of location hdirectory :=
    hsecond.isDirectory_of location (hfirst.isDirectory_of location hdirectory)
  content?_eq location hplace :=
    (hsecond.content?_eq location hplace).trans (hfirst.content?_eq location hplace)

theorem weaken (hchanges : ChangesOnly none before after) (place : Option Location) :
    ChangesOnly place before after :=
  { hchanges with content?_eq := fun location _ => hchanges.content?_eq location nofun }

/-- Other entries at one location, where no directory was, are a change at that place. -/
theorem of_entry?_eq (hworking : after.workingDirectory = before.workingDirectory)
    (hlocation : before.isDirectory location = false)
    (hentries : ∀ other, other ≠ location → after.entry? other = before.entry? other) :
    ChangesOnly (some location) before after where
  workingDirectory_eq := hworking
  isDirectory_of other hdirectory := by
    have hother : other ≠ location := by
      rintro rfl
      simp [hlocation] at hdirectory
    rw [isDirectory_iff] at hdirectory ⊢
    rw [hentries other hother, hdirectory]
  content?_eq other hplace := by
    have hother : other ≠ location := fun heq => hplace (congrArg some heq.symm)
    simp only [content?, hentries other hother]

theorem put_file (hlocation : tree.isDirectory location = false) :
    ChangesOnly (some location) tree (tree.put location (.file content)) :=
  of_entry?_eq rfl hlocation fun _ => entry?_put_of_ne

theorem erase (hlocation : tree.isDirectory location = false) :
    ChangesOnly (some location) tree (tree.erase location) :=
  of_entry?_eq rfl hlocation fun _ => entry?_erase_of_ne

/-- A directory made where nothing was changes no content. -/
theorem put_directory (hnothing : tree.entry? location = none) :
    ChangesOnly none tree (tree.put location .directory) := by
  have hlocation : tree.isDirectory location = false := by simp [isDirectory, hnothing]
  have hput : ChangesOnly (some location) tree (tree.put location .directory) :=
    of_entry?_eq rfl hlocation fun _ => entry?_put_of_ne
  refine { hput with content?_eq := fun other _ => ?_ }
  by_cases hother : other = location
  · subst hother
    simp [content?, hnothing, entry?_put_self (ne_nil_of_not_isDirectory hlocation)]
  · exact hput.content?_eq other (by simpa using Ne.symm hother)

/-! ### Paths lead where they led -/

theorem follow? (hchanges : ChangesOnly place before after) {name : String} {next : Location}
    (hnext : before.follow? location name = some next) :
    after.follow? location name = some next := by
  unfold FileTree.follow? at hnext ⊢
  split at hnext
  next => contradiction
  next hdirectory =>
    have hstill := hchanges.isDirectory_of location (by simpa using hdirectory)
    rwa [if_neg (by simpa using hstill)]

theorem followAll? (hchanges : ChangesOnly place before after) {names : List String}
    {last : Location} (hlast : before.followAll? location names = some last) :
    after.followAll? location names = some last := by
  induction names generalizing location with
  | nil => exact hlast
  | cons name names ih =>
      obtain ⟨next, hnext, hrest⟩ := Option.bind_eq_some_iff.mp hlast
      exact Option.bind_eq_some_iff.mpr ⟨next, hchanges.follow? hnext, ih hrest⟩

theorem locate? (hchanges : ChangesOnly place before after)
    (hlocation : before.locate? path = some location) :
    after.locate? path = some location := by
  unfold FileTree.locate? at hlocation ⊢
  split at hlocation
  next hpath =>
    have hstart : after.start path = before.start path := by
      simp only [start, hchanges.workingDirectory_eq]
    rw [if_pos hpath, hstart]
    exact hchanges.followAll? hlocation
  next => contradiction

end ChangesOnly

/-! ## Operations -/

/-- Making directories changes no content, whether or not all of them can be made. -/
theorem makeAlong_changesOnly (tree : FileTree) (location : Location) (names : List String) :
    ChangesOnly none tree (tree.makeAlong location names).1 := by
  fun_induction makeAlong tree location names with
  | case1 => exact .refl none _
  | case2 => exact .refl none _
  | case3 tree location name names next hnext hentry ih => exact ih
  | case4 => exact .refl none _
  | case5 => exact .refl none _
  | case6 tree location name names next hnext hentry hdots ih =>
      exact (ChangesOnly.put_directory hentry).trans ih

theorem makeDirectory_changesOnly (tree : FileTree) (path : String) :
    ChangesOnly none tree (tree.makeDirectory path).1 := by
  unfold makeDirectory
  split
  next => exact .refl none tree
  next =>
    split
    next => exact makeAlong_changesOnly tree _ _
    next => exact .refl none tree

theorem exists_of_write?_eq_some {written : FileTree}
    (hwrite : tree.write? path content = some written) :
    ∃ location, written.locate? path = some location ∧
      written.content? location = some content ∧
      ChangesOnly (some location) tree written := by
  obtain ⟨location, hlocation, hput⟩ := Option.bind_eq_some_iff.mp hwrite
  split at hput
  next => contradiction
  next hdirectory =>
    have hfree : tree.isDirectory location = false := by simpa using hdirectory
    obtain rfl := Option.some.inj hput
    have hchanges : ChangesOnly (some location) tree (tree.put location (.file content)) :=
      .put_file hfree
    refine ⟨location, hchanges.locate? hlocation, ?_, hchanges⟩
    exact content?_eq_some_iff.mpr (entry?_put_self (ne_nil_of_not_isDirectory hfree))

/-- A file is written with all that leads to it, or the content of no file changes. -/
theorem writeDeep_cases (tree : FileTree) (path : String) (content : ByteArray) :
    (∃ made, tree.writeDeep path content = (made, false) ∧ ChangesOnly none tree made) ∨
      ∃ written location, tree.writeDeep path content = (written, true) ∧
        written.locate? path = some location ∧ written.content? location = some content ∧
        ChangesOnly (some location) tree written := by
  have hmade := tree.makeDirectory_changesOnly (parent path)
  unfold writeDeep
  split
  next made hfailed =>
    rw [hfailed] at hmade
    exact .inl ⟨made, rfl, hmade⟩
  next made hdone =>
    rw [hdone] at hmade
    split
    next written hwrite =>
      obtain ⟨location, hlocation, hcontent, hchanges⟩ := exists_of_write?_eq_some hwrite
      exact .inr ⟨written, location, rfl, hlocation, hcontent, (hmade.weaken _).trans hchanges⟩
    next => exact .inl ⟨made, rfl, hmade⟩

theorem exists_of_remove?_eq_some {left : FileTree} (hremove : tree.remove? path = some left) :
    ∃ location, left.locate? path = some location ∧ ChangesOnly (some location) tree left := by
  obtain ⟨location, hlocation, herase⟩ := Option.bind_eq_some_iff.mp hremove
  split at herase
  next _ hfile =>
    obtain rfl := Option.some.inj herase
    have hchanges : ChangesOnly (some location) tree (tree.erase location) :=
      .erase (by simp [isDirectory, hfile])
    exact ⟨location, hchanges.locate? hlocation, hchanges⟩
  next => contradiction

/-! ## Reading -/

theorem contains_of_content? (hlocation : tree.locate? path = some location)
    (hcontent : tree.content? location = some content) : tree.contains path = true := by
  simp [contains, hlocation, content?_eq_some_iff.mp hcontent]

theorem read?_of_content? (hlocation : tree.locate? path = some location)
    (hcontent : tree.content? location = some content) : tree.read? path = some content := by
  simp [read?, hlocation, content?_eq_some_iff.mp hcontent]

end LineMarkup.FileTree
