import LineMarkup.Json
import Mathlib.Data.List.Perm.Lattice

/-!
# Extending JSON values

A reader that finds the members of an object by name minds neither their order nor members of
other names. The values it takes for the same as a given one arise from that one by reordering
the members of objects and adding members of new names, at any depth.
-/

namespace LineMarkup

/-! ## Members by name -/

section Lookup

variable {α : Type} {name : String} {value : α} {members : List (String × α)}

theorem mem_of_lookup_eq_some (h : members.lookup name = some value) : (name, value) ∈ members := by
  obtain ⟨front, back, rfl, -⟩ := List.lookup_eq_some_iff.mp h
  simp

/-- A member is found by its name if no other value has that name. -/
theorem lookup_eq_some_of_forall_eq (hmem : (name, value) ∈ members)
    (hunique : ∀ other, (name, other) ∈ members → other = value) :
    members.lookup name = some value := by
  induction members with
  | nil => simp at hmem
  | cons member rest ih =>
      obtain ⟨key, first⟩ := member
      by_cases hkey : name = key
      · subst hkey
        rw [List.lookup_cons_self, hunique first List.mem_cons_self]
      · have hrest : (name, value) ∈ rest := by simpa [hkey] using hmem
        rw [List.lookup_cons, beq_false_of_ne hkey]
        exact ih hrest fun other hother => hunique other (List.mem_cons_of_mem _ hother)

theorem eq_of_mem_of_nodup_keys {value' : α} (hkeys : (members.map Prod.fst).Nodup)
    (h : (name, value) ∈ members) (h' : (name, value') ∈ members) : value = value' :=
  (Prod.mk.inj (List.inj_on_of_nodup_map hkeys h h' rfl)).2

/-- In an object that repeats no key a member is the one that its name finds. -/
theorem lookup_eq_some_iff_mem (hkeys : (members.map Prod.fst).Nodup) :
    members.lookup name = some value ↔ (name, value) ∈ members := by
  refine ⟨mem_of_lookup_eq_some, fun hmem => ?_⟩
  exact lookup_eq_some_of_forall_eq hmem fun other hother =>
    eq_of_mem_of_nodup_keys hkeys hother hmem

/-- Some of the members of an object that repeats no key are, up to their order, all those of
the same names. -/
theorem filter_perm_of_subset {part : List (String × α)} (hpart : (part.map Prod.fst).Nodup)
    (hsub : ∀ member ∈ part, member ∈ members) (hkeys : (members.map Prod.fst).Nodup) :
    (members.filter fun member => member.1 ∈ part.map Prod.fst).Perm part := by
  rw [List.perm_ext_iff_of_nodup (hkeys.of_map.filter _) hpart.of_map]
  rintro ⟨key, first⟩
  rw [List.mem_filter, decide_eq_true_eq]
  constructor
  · rintro ⟨hmem, hname⟩
    obtain ⟨⟨key', second⟩, hsecond, rfl⟩ := List.mem_map.mp hname
    rwa [eq_of_mem_of_nodup_keys hkeys hmem (hsub _ hsecond)]
  · intro hmem
    exact ⟨hsub _ hmem, List.mem_map_of_mem hmem⟩

end Lookup

/-! ## Extensions -/

namespace Json

mutual

/-- One JSON value extends to another by reordering members and adding some of new names. -/
inductive ExtendsTo : Json → Json → Prop
  | null : ExtendsTo .null .null
  | boolean (value : Bool) : ExtendsTo (.boolean value) (.boolean value)
  | number (mantissa : Int) (exponent : Nat) :
      ExtendsTo (.number mantissa exponent) (.number mantissa exponent)
  | string (value : String) : ExtendsTo (.string value) (.string value)
  | array {items items' : List Json} :
      AllExtendTo items items' → ExtendsTo (.array items) (.array items')
  /-- The own members extend one by one. The added ones hold anything, under other names. -/
  | object {own own' added members : List (String × Json)} :
      MembersExtendTo own own' → members.Perm (own' ++ added) →
      (∀ member ∈ added, member.1 ∉ own.map Prod.fst) →
      ExtendsTo (.object own) (.object members)

/-- The items of an array extend one by one. -/
inductive AllExtendTo : List Json → List Json → Prop
  | nil : AllExtendTo [] []
  | cons {item item' : Json} {items items' : List Json} :
      ExtendsTo item item' → AllExtendTo items items' →
      AllExtendTo (item :: items) (item' :: items')

/-- The values of members extend one by one, under the same names. -/
inductive MembersExtendTo : List (String × Json) → List (String × Json) → Prop
  | nil : MembersExtendTo [] []
  | cons {name : String} {value value' : Json} {members members' : List (String × Json)} :
      ExtendsTo value value' → MembersExtendTo members members' →
      MembersExtendTo ((name, value) :: members) ((name, value') :: members')

end

theorem extendsTo_string_iff {value : String} {json : Json} :
    ExtendsTo (.string value) json ↔ json = .string value := by
  constructor
  · intro h
    cases h
    rfl
  · rintro rfl
    exact .string value

theorem extendsTo_array_iff {items : List Json} {json : Json} :
    ExtendsTo (.array items) json ↔ ∃ items', json = .array items' ∧ AllExtendTo items items' := by
  constructor
  · intro h
    cases h with
    | array hitems => exact ⟨_, rfl, hitems⟩
  · rintro ⟨items', rfl, hitems⟩
    exact .array hitems

theorem MembersExtendTo.keys_eq {members members' : List (String × Json)}
    (h : MembersExtendTo members members') : members'.map Prod.fst = members.map Prod.fst := by
  induction members generalizing members' with
  | nil =>
      cases h
      rfl
  | cons member members ih =>
      cases h with
      | cons _ hrest => rw [List.map_cons, List.map_cons, ih hrest]

mutual

theorem ExtendsTo.refl : (json : Json) → ExtendsTo json json
  | .null => .null
  | .boolean value => .boolean value
  | .number mantissa exponent => .number mantissa exponent
  | .string value => .string value
  | .array items => .array (AllExtendTo.refl items)
  | .object members =>
      .object (MembersExtendTo.refl members) (by rw [List.append_nil]) (by simp)

theorem AllExtendTo.refl : (items : List Json) → AllExtendTo items items
  | [] => .nil
  | item :: items => .cons (ExtendsTo.refl item) (AllExtendTo.refl items)

theorem MembersExtendTo.refl : (members : List (String × Json)) → MembersExtendTo members members
  | [] => .nil
  | (_, value) :: members => .cons (ExtendsTo.refl value) (MembersExtendTo.refl members)

end

/-- An extension of an object is an object in which the own members, extended, are found. -/
theorem exists_lookup_of_extendsTo_object {own : List (String × Json)} {json : Json}
    (hkeys : (own.map Prod.fst).Nodup) (h : ExtendsTo (.object own) json) :
    ∃ own' members, json = .object members ∧ MembersExtendTo own own' ∧
      ∀ name value, (name, value) ∈ own' → members.lookup name = some value := by
  cases h with
  | @object _ own' added members hown hperm hadded =>
      refine ⟨own', members, rfl, hown, fun name value hmem => ?_⟩
      have hname : name ∈ own.map Prod.fst := hown.keys_eq ▸ List.mem_map_of_mem hmem
      refine lookup_eq_some_of_forall_eq
        (hperm.mem_iff.mpr (List.mem_append_left _ hmem)) fun other hother => ?_
      rcases List.mem_append.mp (hperm.mem_iff.mp hother) with hother | hother
      · exact eq_of_mem_of_nodup_keys (hown.keys_eq ▸ hkeys) hother hmem
      · exact absurd hname (hadded _ hother)

/-- An object that repeats no key extends every object whose members it has. -/
theorem extendsTo_object_of_subset {own own' members : List (String × Json)}
    (hown : MembersExtendTo own own') (hkeys : (own.map Prod.fst).Nodup)
    (hsub : ∀ member ∈ own', member ∈ members) (hmembers : (members.map Prod.fst).Nodup) :
    ExtendsTo (.object own) (.object members) := by
  let isOwn : String × Json → Bool := fun member => member.1 ∈ own'.map Prod.fst
  have hperm : (members.filter isOwn).Perm own' :=
    filter_perm_of_subset (hown.keys_eq ▸ hkeys) hsub hmembers
  have hsplit : members.Perm (own' ++ members.filter fun member => !isOwn member) :=
    (List.filter_append_perm isOwn members).symm.trans (hperm.append_right _)
  refine .object hown hsplit fun member hmember => ?_
  rw [← hown.keys_eq]
  simpa [isOwn] using (List.mem_filter.mp hmember).2

end Json

end LineMarkup
