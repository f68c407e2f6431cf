import MarkupBinding.Proofs.Schema.Keys
import MarkupBinding.Schema.Document
import Mathlib.Logic.Function.Basic

/-!
# Schema documents lose nothing

Reading the document of a schema gives the schema back, with its names, its properties, components
and toggle flags in order (`Schema.document_faithful`). Item names and toggle flags are left out of
a document where there are none, and reading takes what is left out for none. The toggle flags stand
beside the entries of the outermost component, under a key that none of these has, so that taking
them away leaves the component's entries as they were written (`Schema.erase_toggles`).

The reader of components goes down as many levels as the document has.
`Component.checkFields_entries` is by induction over the component and holds for every greater bound
too, since a nested component is read with the bound that is left of the outer one.
-/

set_option autoImplicit false
set_option relaxedAutoImplicit false

namespace MarkupBinding

namespace Checked

/-- A list is read when each of its members is. -/
theorem all_map {α β : Type} {xs : List α} {check : α → Checked β} {read : α → β}
    (h : ∀ x ∈ xs, check x = .ok (read x)) : all (xs.map check) = .ok (xs.map read) := by
  induction xs with
  | nil => rfl
  | cons x rest ih =>
    rw [List.map_cons, List.map_cons, all, h x List.mem_cons_self,
      ih fun y hy ↦ h y (List.mem_cons_of_mem _ hy)]
    rfl

end Checked

namespace Schema

/-- No entry has more levels than the entries have. -/
theorem levels_le_levelsOf {fields : List (String × Value)} {entry : String × Value}
    (h : entry ∈ fields) : levels entry.2 ≤ levelsOf fields := by
  induction fields with
  | nil => cases h
  | cons first rest ih =>
    rw [levelsOf]
    rcases List.mem_cons.1 h with rfl | hrest
    · exact Nat.le_max_left _ _
    · exact Nat.le_trans (ih hrest) (Nat.le_max_right _ _)

end Schema

namespace Component

theorem allEntries_eq_map (components : List (String × Component)) :
    allEntries components = components.map fun pair ↦ (pair.1, Value.object pair.2.entries) := by
  induction components with
  | nil => rfl
  | cons pair rest ih => rw [allEntries, ih, List.map_cons]

section Entries

variable (properties : List (String × String)) (components : List (String × Component))
  (array : Bool) (itemName : Option String)

theorem lookup_properties_entries :
    (entries ⟨properties, components, array, itemName⟩).lookup "properties" =
      some (propertiesValue properties) :=
  rfl

theorem lookup_components_entries :
    (entries ⟨properties, components, array, itemName⟩).lookup "components" =
      some (.object (allEntries components)) :=
  rfl

theorem lookup_array_entries :
    (entries ⟨properties, components, array, itemName⟩).lookup "array" = some (.bool array) :=
  rfl

theorem itemValue?_entries :
    itemValue? (entries ⟨properties, components, array, itemName⟩) =
      itemName.map fun item ↦ ("itemName", .string item) := by
  cases itemName <;> rfl

end Entries

/-- The keys that a component's document has. -/
theorem keys_entries_subset (c : Component) :
    Keyed.keys c.entries ⊆ ["properties", "components", "array", "itemName"] := by
  obtain ⟨properties, components, array, itemName⟩ := c
  cases itemName <;> simp [entries, itemEntry, Keyed.keys]

theorem checkProperties_propertiesValue (properties : List (String × String)) :
    checkProperties (propertiesValue properties) = .ok properties := by
  rw [propertiesValue, checkProperties, List.map_map]
  exact (Checked.all_map fun _ _ ↦ rfl).trans (congrArg Except.ok (List.map_id' properties))

theorem checkItemName_entries (properties : List (String × String))
    (components : List (String × Component)) (array : Bool) (itemName : Option String) :
    checkItemName (entries ⟨properties, components, array, itemName⟩) = .ok itemName := by
  rw [checkItemName, itemValue?_entries]
  cases itemName <;> rfl

/-- A nested component has two levels less than the one it is nested in. -/
theorem levelsOf_entries_lt {c : Component} {pair : String × Component}
    (h : pair ∈ c.components) :
    Schema.levelsOf pair.2.entries + 2 ≤ Schema.levelsOf c.entries := by
  obtain ⟨properties, components, array, itemName⟩ := c
  have hinner : (pair.1, Value.object pair.2.entries) ∈ allEntries components := by
    rw [allEntries_eq_map]
    exact List.mem_map_of_mem h
  have houter : ("components", Value.object (allEntries components)) ∈
      entries ⟨properties, components, array, itemName⟩ := by
    simp [entries]
  have hin := Schema.levels_le_levelsOf hinner
  have hout := Schema.levels_le_levelsOf houter
  simp only [Schema.levels] at hin hout
  omega

/-- The entries of a component's document are read as the component, when the bound is not below
their number of levels. -/
theorem checkFields_entries (c : Component) :
    ∀ {fuel : Nat}, Schema.levelsOf c.entries ≤ fuel → checkFields fuel c.entries = .ok c := by
  induction c using induction_on_components with
  | step properties components array itemName ih =>
    intro fuel hfuel
    have hcomponents : checkComponents fuel (.object (allEntries components)) = .ok components := by
      rw [checkComponents, allEntries_eq_map, List.map_map]
      refine (Checked.all_map
        (fun pair hpair ↦ ?_ : ∀ pair ∈ components, _ = Except.ok (id pair))).trans
        (congrArg Except.ok (List.map_id components))
      have hlevels := levelsOf_entries_lt
        (c := ⟨properties, components, array, itemName⟩) hpair
      obtain ⟨below, rfl⟩ : ∃ below, fuel = below + 1 := ⟨fuel - 1, by omega⟩
      have hinner : check (below + 1) (.object pair.2.entries) = .ok pair.2 := by
        rw [check]
        exact ih pair hpair (by omega)
      simp only [Function.comp_apply, hinner]
      rfl
    rw [checkFields, checkEntry, checkEntry, checkEntry, lookup_properties_entries,
      lookup_components_entries, lookup_array_entries, checkItemName_entries]
    simp only [checkProperties_propertiesValue, hcomponents]
    rfl

end Component

namespace Schema

/-- The entry for the toggle flags, if there are any. -/
def toggleEntry (toggles : List String) : List (String × Value) :=
  if toggles.isEmpty then [] else [("toggles", .list (toggles.map .string))]

theorem toDocument_eq (s : Schema) :
    s.toDocument = .object [(s.name, .object (s.root.entries ++ toggleEntry s.toggles))] :=
  rfl

/-- Without the toggle flags there are the entries of the outermost component. -/
theorem erase_toggles (c : Component) (toggles : List String) :
    Keyed.erase "toggles" (c.entries ++ toggleEntry toggles) = c.entries := by
  have hentries : Keyed.erase "toggles" c.entries = c.entries := by
    refine List.filter_eq_self.2 fun entry hentry ↦ ?_
    have hkey := c.keys_entries_subset (List.mem_map_of_mem hentry)
    have hne : entry.1 ≠ "toggles" := by
      intro heq
      rw [heq] at hkey
      exact absurd hkey (by decide)
    simpa using hne
  have htoggles : Keyed.erase "toggles" (toggleEntry toggles) = [] := by
    rw [toggleEntry]
    split <;> rfl
  rw [Keyed.erase, List.filter_append]
  exact (congrArg₂ (· ++ ·) hentries htoggles).trans (List.append_nil _)

/-- The toggle flags are found beside the entries of the outermost component. -/
theorem lookup_toggles (c : Component) (toggles : List String) :
    ((c.entries ++ toggleEntry toggles).lookup "toggles").getD (.list []) =
      .list (toggles.map .string) := by
  have hentries : c.entries.lookup "toggles" = none := by
    obtain ⟨properties, components, array, itemName⟩ := c
    cases itemName <;> rfl
  rw [List.lookup_append, hentries, Option.none_or]
  cases toggles <;> rfl

theorem checkToggles_list (toggles : List String) :
    checkToggles (.list (toggles.map .string)) = .ok toggles := by
  have hitems : ((toggles.map Value.string).mapIdx fun i item ↦
      (checkText item).below (.index i)) = toggles.map Except.ok :=
    List.ext_getElem (by simp) fun i _ _ ↦ by simp [checkText, Checked.below]
  rw [checkToggles, hitems]
  exact (Checked.all_map fun _ _ ↦ rfl).trans (congrArg Except.ok (List.map_id toggles))

/-- Reading the document of a schema gives the schema back. -/
theorem ofDocument_toDocument (s : Schema) : ofDocument s.toDocument = .ok s := by
  have hroot := Component.checkFields_entries s.root (Nat.le_refl _)
  rw [toDocument_eq]
  simp only [ofDocument, singleEntry, bodyOf, bind, Except.bind, erase_toggles, lookup_toggles,
    hroot, checkToggles_list, Checked.below, pure, Except.pure]

/-- Every schema is read back from its document, whatever the names in it, how deep and wide it is
and what is left out of the document, so two schemas with one document are one schema. -/
theorem document_faithful :
    (∀ s : Schema, ofDocument s.toDocument = .ok s) ∧ Function.Injective toDocument := by
  refine ⟨ofDocument_toDocument, fun s t hsame ↦ ?_⟩
  have hread := ofDocument_toDocument s
  rw [hsame, ofDocument_toDocument] at hread
  exact (Except.ok.inj hread).symm

end Schema

end MarkupBinding
