import LineMarkup.Proofs.Statements

/-!
# Keys of the top-level table

What stands under a key of a document's table is told by the statements: the key is there if the
place of some statement begins with it, and it holds a value that is no table exactly if that
value is assigned to it above all headers. A key of the same name inside another table does not
count, and a header or a dotted key of that name keeps any such value away.
-/

namespace LineMarkup.Toml

/-! ## Changes of a table -/

/-- Whether a value is a table, or the tables of repeated headers. -/
def Value.isSection : Value → Bool
  | .table .. | .tables _ => true
  | _ => false

namespace Table

theorem lookup_map_replace (name other : String) (value : Value)
    (entries : List (String × Value)) :
    (entries.map fun entry => if entry.1 = name then (name, value) else entry).lookup other =
      if other = name then (entries.lookup name).map fun _ => value else entries.lookup other := by
  induction entries with
  | nil => simp
  | cons entry entries ih =>
      obtain ⟨key, old⟩ := entry
      by_cases hkey : key = name
      · by_cases hother : other = name
        · simp [hkey, hother]
        · have hskip : (other == name) = false := by simpa using hother
          simp [hkey, hother, List.lookup_cons, hskip, ih]
      · have hname : (name == key) = false := by simpa using Ne.symm hkey
        by_cases hother : other = name
        · rw [if_pos hother, hother] at ih
          simp [hkey, hother, List.lookup_cons, hname, ih]
        · rw [if_neg hother] at ih
          simp [hkey, hother, List.lookup_cons, ih]

/-- A key that was put has the new value, and every other key what it had. -/
theorem get?_put (table : Table) (name other : String) (value : Value) :
    (table.put name value).get? other = if other = name then some value else table.get? other := by
  unfold put get?
  split
  next hsome =>
    obtain ⟨old, hold⟩ := Option.isSome_iff_exists.mp hsome
    rw [lookup_map_replace, hold]
    rfl
  next hnone =>
    have hnone := Option.not_isSome_iff_eq_none.mp hnone
    rw [List.lookup_append]
    by_cases hother : other = name
    · simp [hother, hnone]
    · have hskip : (other == name) = false := by simpa using hother
      simp [hother, List.lookup_cons, hskip]

/-- The change is made inside the table or tables under a key, which may be new. -/
structure Enters (name : String) (table after : Table) : Prop where
  isSection_of_mem : ∀ old ∈ table.get? name, old.isSection = true
  exists_eq_put : ∃ changed, changed.isSection = true ∧ after = table.put name changed

/-- A change below a key enters what stands under it. -/
theorem enters_of_update {dotted : Bool} {change : Table → Option Table} {name : String}
    {path : List String} {table after : Table}
    (h : update dotted change (name :: path) table = some after) : Enters name table after := by
  rw [update] at h
  split at h
  next hnone =>
    obtain ⟨child, -, heq⟩ := Option.bind_eq_some_iff.mp h
    cases heq
    exact ⟨by simp [hnone], _, rfl, rfl⟩
  next hsome =>
    simp only [Option.bind_eq_bind] at h
    split at h
    next => cases h
    next =>
      obtain ⟨child, -, heq⟩ := Option.bind_eq_some_iff.mp h
      cases heq
      exact ⟨by simp [hsome, Value.isSection], _, rfl, rfl⟩
  next hsome =>
    simp only [Option.bind_eq_bind, Option.bind_eq_some_iff] at h
    obtain ⟨row, -, child, -, heq⟩ := h
    cases heq
    exact ⟨by simp [hsome, Value.isSection], _, rfl, rfl⟩
  next => cases h

/-- So does a change of the table that holds the last key, if it is made inside what stands
under that key. -/
theorem enters_of_last {change : String → Table → Option Table}
    (hchange : ∀ last table after, change last table = some after → Enters last table after)
    {name : String} {path : List String} {table after : Table}
    (h : ((name :: path).getLast?.bind fun last =>
      update false (change last) (name :: path).dropLast table) = some after) :
    Enters name table after := by
  obtain ⟨last, hlast, h⟩ := Option.bind_eq_some_iff.mp h
  cases path with
  | nil =>
      obtain rfl : name = last := Option.some.inj hlast
      exact hchange name table after h
  | cons next path => exact enters_of_update h

theorem enters_of_openTable {name : String} {path : List String} {table after : Table}
    (h : openTable (name :: path) table = some after) : Enters name table after := by
  rw [openTable, Option.bind_eq_bind] at h
  refine enters_of_last ?_ h
  intro last table after h
  split at h
  next hnone =>
    cases h
    exact ⟨by simp [hnone], _, rfl, rfl⟩
  next hsome =>
    cases h
    exact ⟨by simp [hsome, Value.isSection], _, rfl, rfl⟩
  next => cases h

theorem enters_of_openRow {name : String} {path : List String} {table after : Table}
    (h : openRow (name :: path) table = some after) : Enters name table after := by
  rw [openRow, Option.bind_eq_bind] at h
  refine enters_of_last ?_ h
  intro last table after h
  split at h
  next hnone =>
    cases h
    exact ⟨by simp [hnone], _, rfl, rfl⟩
  next hsome =>
    cases h
    exact ⟨by simp [hsome, Value.isSection], _, rfl, rfl⟩
  next => cases h

/-- A single key gets its value where it is new. A dotted key enters what stands under its first
name. -/
theorem set_cases {name : String} {path : List String} {value : Value} {table after : Table}
    (h : set (name :: path) value table = some after) :
    (path = [] ∧ table.get? name = none ∧ after = table.put name value) ∨
      (path ≠ [] ∧ Enters name table after) := by
  rw [set, Option.bind_eq_bind, Option.bind_eq_some_iff] at h
  obtain ⟨last, hlast, h⟩ := h
  cases path with
  | nil =>
      obtain rfl : name = last := Option.some.inj hlast
      simp only [List.dropLast_singleton, update, add] at h
      split at h
      next hfree =>
        cases h
        exact .inl ⟨rfl, Option.isNone_iff_eq_none.mp hfree.2, rfl⟩
      next => cases h
  | cons next path => exact .inr ⟨List.cons_ne_nil _ _, enters_of_update h⟩

theorem Enters.get?_eq_none_iff {name other : String} {table after : Table}
    (h : Enters name table after) :
    after.get? other = none ↔ table.get? other = none ∧ other ≠ name := by
  obtain ⟨changed, -, rfl⟩ := h.exists_eq_put
  rw [get?_put]
  split_ifs with hother <;> simp [hother]

/-- Entering what is under a key changes no value that is no table. -/
theorem Enters.get?_eq_some_iff {name other : String} {value : Value} {table after : Table}
    (h : Enters name table after) (hvalue : value.isSection = false) :
    after.get? other = some value ↔ table.get? other = some value := by
  obtain ⟨changed, hchanged, rfl⟩ := h.exists_eq_put
  rw [get?_put]
  split_ifs with hother
  · subst hother
    constructor
    · intro heq
      cases heq
      simp [hchanged] at hvalue
    · intro heq
      have hold := h.isSection_of_mem value heq
      simp [hold] at hvalue
  · rfl

end Table

/-! ## Places of statements -/

namespace Statement

def isAssign : Statement → Bool
  | .assign .. => true
  | _ => false

/-- The header that the statements behind this one are under. -/
def headerBehind (header : List String) : Statement → List String
  | .assign .. => header
  | .table path | .row path => path

/-- The path from the whole table to what a statement under a header is about. -/
def place (header : List String) : Statement → List String
  | .assign path _ => header ++ path
  | .table path | .row path => path

/-- Under no header, the statement gives a key of the whole table its value. -/
def Sets (header : List String) (name : String) (value : Value) (statement : Statement) : Prop :=
  header = [] ∧ statement = .assign [name] value

end Statement

/-- The places of statements that follow each other under a header. -/
def places (header : List String) : List Statement → List (List String)
  | [] => []
  | first :: rest => first.place header :: places (first.headerBehind header) rest

/-- The statements above the first header. -/
def aboveHeaders (statements : List Statement) : List Statement :=
  statements.takeWhile Statement.isAssign

/-! ## What a statement does -/

namespace Draft

variable {draft after : Draft} {statement : Statement}

theorem header_of_apply (h : draft.apply statement = some after) :
    after.header = statement.headerBehind draft.header := by
  cases statement <;> obtain ⟨root, -, rfl⟩ := Option.map_eq_some_iff.mp h <;> rfl

/-- A statement sets a new key of the whole table, or it enters what stands under one. -/
theorem apply_cases (h : draft.apply statement = some after) :
    ∃ name, (statement.place draft.header).head? = some name ∧
      ((∃ value, statement.Sets draft.header name value ∧ draft.root.get? name = none ∧
          after.root = draft.root.put name value) ∨
        ((∀ value, ¬ statement.Sets draft.header name value) ∧
          Table.Enters name draft.root after.root)) := by
  obtain ⟨root, header⟩ := draft
  cases statement with
  | assign path value =>
      obtain ⟨changed, hchanged, rfl⟩ := Option.map_eq_some_iff.mp h
      cases header with
      | nil =>
          cases path with
          | nil => cases hchanged
          | cons name path =>
              refine ⟨name, rfl, ?_⟩
              obtain ⟨rfl, hfree, rfl⟩ | ⟨hpath, henters⟩ := Table.set_cases hchanged
              · exact .inl ⟨value, ⟨rfl, rfl⟩, hfree, rfl⟩
              · refine .inr ⟨?_, henters⟩
                rintro other ⟨-, heq⟩
                cases heq
                exact hpath rfl
      | cons name header =>
          exact ⟨name, rfl, .inr ⟨fun _ hsets => (nomatch hsets.1),
            Table.enters_of_update hchanged⟩⟩
  | table path =>
      obtain ⟨changed, hchanged, rfl⟩ := Option.map_eq_some_iff.mp h
      cases path with
      | nil => cases hchanged
      | cons name path =>
          exact ⟨name, rfl, .inr ⟨fun _ hsets => (nomatch hsets.2),
            Table.enters_of_openTable hchanged⟩⟩
  | row path =>
      obtain ⟨changed, hchanged, rfl⟩ := Option.map_eq_some_iff.mp h
      cases path with
      | nil => cases hchanged
      | cons name path =>
          exact ⟨name, rfl, .inr ⟨fun _ hsets => (nomatch hsets.2),
            Table.enters_of_openRow hchanged⟩⟩

theorem place_ne_nil_of_apply (h : draft.apply statement = some after) :
    statement.place draft.header ≠ [] := by
  obtain ⟨name, hplace, -⟩ := apply_cases h
  intro hnil
  simp [hnil] at hplace

/-- A key is free behind a statement if it was before and the place of the statement does not
begin with it. -/
theorem apply_get?_eq_none_iff (h : draft.apply statement = some after) (name : String) :
    after.root.get? name = none ↔
      draft.root.get? name = none ∧ (statement.place draft.header).head? ≠ some name := by
  obtain ⟨first, hplace, ⟨value, -, -, hput⟩ | ⟨-, henters⟩⟩ := apply_cases h
  · rw [hput, Table.get?_put, hplace]
    split_ifs with hname <;> simp [hname, eq_comm]
  · rw [henters.get?_eq_none_iff, hplace]
    simp [eq_comm]

/-- A value that is no table is under a key behind a statement if it was there before, or if the
statement sets it. -/
theorem apply_get?_eq_some_iff (h : draft.apply statement = some after) (name : String)
    {value : Value} (hvalue : value.isSection = false) :
    after.root.get? name = some value ↔
      draft.root.get? name = some value ∨ statement.Sets draft.header name value := by
  obtain ⟨first, hplace, ⟨set, ⟨hheader, rfl⟩, hfree, hput⟩ | ⟨hsets, henters⟩⟩ := apply_cases h
  · rw [hput, Table.get?_put]
    split_ifs with hname
    · simp [Statement.Sets, hname, hfree, hheader]
    · simp [Statement.Sets, Ne.symm hname]
  · rw [henters.get?_eq_some_iff hvalue]
    -- A statement that sets another key has another place.
    have hother : ¬ statement.Sets draft.header name value := by
      rintro ⟨hheader, rfl⟩
      simp only [Statement.place, hheader, List.nil_append, List.head?_cons,
        Option.some.injEq] at hplace
      exact hsets value ⟨hheader, by rw [hplace]⟩
    simp [hother]

/-! ## What all statements do -/

/-- A key is free in the end if it was and no place begins with it. -/
theorem applyAll_get?_eq_none_iff {statements : List Statement}
    (h : draft.applyAll statements = some after) (name : String) :
    after.root.get? name = none ↔
      draft.root.get? name = none ∧
        ∀ place ∈ places draft.header statements, place.head? ≠ some name := by
  induction statements generalizing draft with
  | nil =>
      cases h
      simp [places]
  | cons first rest ih =>
      rw [applyAll_cons, Option.bind_eq_some_iff] at h
      obtain ⟨next, hnext, h⟩ := h
      rw [ih h, header_of_apply hnext, apply_get?_eq_none_iff hnext, places,
        List.forall_mem_cons, and_assoc]

/-- A value that is no table is there in the end if it was or if it is set above all headers. -/
theorem applyAll_get?_eq_some_iff {statements : List Statement}
    (h : draft.applyAll statements = some after) (name : String) {value : Value}
    (hvalue : value.isSection = false) :
    after.root.get? name = some value ↔
      draft.root.get? name = some value ∨
        draft.header = [] ∧ .assign [name] value ∈ aboveHeaders statements := by
  induction statements generalizing draft with
  | nil =>
      cases h
      simp [aboveHeaders]
  | cons first rest ih =>
      rw [applyAll_cons, Option.bind_eq_some_iff] at h
      obtain ⟨next, hnext, h⟩ := h
      have hplace := place_ne_nil_of_apply hnext
      rw [ih h, header_of_apply hnext, apply_get?_eq_some_iff hnext name hvalue, or_assoc]
      refine or_congr_right ?_
      -- Behind a header there is no way back to the whole table.
      cases first with
      | assign path set =>
          simp only [Statement.Sets, Statement.headerBehind, aboveHeaders, List.takeWhile_cons,
            Statement.isAssign, if_true, List.mem_cons, ← and_or_left, eq_comm]
      | _ =>
          rw [Statement.place] at hplace
          simp [Statement.Sets, Statement.headerBehind, aboveHeaders, Statement.isAssign, hplace]

end Draft

/-! ## Tables of documents -/

theorem Builds.get?_eq_none_iff {statements : List Statement} {table : Table}
    (h : Builds statements table) (name : String) :
    table.get? name = none ↔ ∀ place ∈ places [] statements, place.head? ≠ some name := by
  obtain ⟨header, hall⟩ := h
  exact (Draft.applyAll_get?_eq_none_iff hall name).trans (and_iff_right rfl)

theorem Builds.get?_eq_some_iff {statements : List Statement} {table : Table}
    (h : Builds statements table) (name : String) {value : Value}
    (hvalue : value.isSection = false) :
    table.get? name = some value ↔ .assign [name] value ∈ aboveHeaders statements := by
  obtain ⟨header, hall⟩ := h
  refine (Draft.applyAll_get?_eq_some_iff hall name hvalue).trans ?_
  simp [Draft.empty, Table.empty, Table.get?]

end LineMarkup.Toml
