import MarkupBinding.Markup.Mark

/-!
# Marks under changes of a tag

Binding changes the attributes of a tag, and copying a stencil takes its item mark away. A tag
`KeepsMarks` when none of its attribute bindings sets an attribute that is itself a mark. Setting an
attribute leaves the others as they were (`attr?_set_of_ne`), and the attribute bindings if it is
none (`attributeBindings_set`). Taking the item mark away leaves the other marks and the attribute
bindings (`mark?_erase_of_ne`, `attributeBindings_erase_collectionItem`).
-/

set_option autoImplicit false
set_option relaxedAutoImplicit false

namespace MarkupBinding

/-- Whether an attribute of the name is a mark of its own. -/
def Mark.isMark (name : String) : Bool :=
  [component, textContent, collection, collectionItem, toggleable].contains name ||
    (Tag.boundAttribute? name).isSome

namespace Tag

/-- No attribute binding of the tag sets an attribute that is a mark. -/
def KeepsMarks (t : Tag) : Prop :=
  ∀ binding ∈ t.attributeBindings, Mark.isMark binding.1 = false

instance (t : Tag) : Decidable t.KeepsMarks :=
  inferInstanceAs (Decidable (∀ binding ∈ t.attributeBindings, Mark.isMark binding.1 = false))

/-- Whether a tag says what data it takes: whether it declares a component, binds its text or an
attribute, or is a collection. -/
def isAnnotated (t : Tag) : Bool :=
  t.declaresComponent || (t.mark? Mark.textContent).isSome || !t.attributeBindings.isEmpty ||
    (t.mark? Mark.collection).isSome

variable {t : Tag} {attr name : String}

theorem attr?_set_of_ne (h : name ≠ attr) (text : String) :
    (t.set attr text).attr? name = t.attr? name := by
  rw [attr?, attr?, set, Keyed.lookup_set_of_ne h]

/-- Setting an attribute that is no attribute binding leaves the attribute bindings. -/
theorem attributeBindings_set {attr : String} (h : boundAttribute? attr = none) (text : String) :
    (t.set attr text).attributeBindings = t.attributeBindings := by
  obtain ⟨name, attrs⟩ := t
  change List.filterMap _ (Keyed.set attr (.plain text) attrs) = List.filterMap _ attrs
  induction attrs with
  | nil => simp [Keyed.set, h]
  | cons pair rest ih =>
    obtain ⟨key, value⟩ := pair
    simp only [Keyed.set]
    split
    · next hkey =>
      obtain rfl := eq_of_beq hkey
      simp [h]
    · rw [List.filterMap_cons, List.filterMap_cons, ih]

theorem attr?_erase_of_ne (h : name ≠ attr) : (t.erase attr).attr? name = t.attr? name := by
  rw [attr?, attr?, erase, Keyed.lookup_erase_of_ne h]

/-- Taking another attribute away leaves a mark as it was. -/
theorem mark?_erase_of_ne (h : name ≠ attr) : (t.erase attr).mark? name = t.mark? name := by
  rw [mark?, mark?, attr?_erase_of_ne h]

/-- The item mark binds no attribute, so taking it away leaves the attribute bindings. -/
theorem attributeBindings_erase_collectionItem (t : Tag) :
    (t.erase Mark.collectionItem).attributeBindings = t.attributeBindings := by
  rw [attributeBindings, attributeBindings, erase, Keyed.erase, List.filterMap_filter]
  congr 1
  funext pair
  obtain ⟨attr, value⟩ := pair
  by_cases h : attr = Mark.collectionItem
  · have hitem : boundAttribute? Mark.collectionItem = none := by decide
    simp [h, hitem]
  · simp [h]

/-- A tag and its copy without the item mark have the same other marks. -/
theorem mark?_of_eq_or_erase {original : Tag}
    (h : t = original ∨ t = original.erase Mark.collectionItem)
    (hname : name ≠ Mark.collectionItem) : t.mark? name = original.mark? name := by
  rcases h with rfl | rfl
  · rfl
  · exact mark?_erase_of_ne hname

theorem attributeBindings_of_eq_or_erase {original : Tag}
    (h : t = original ∨ t = original.erase Mark.collectionItem) :
    t.attributeBindings = original.attributeBindings := by
  rcases h with rfl | rfl
  · rfl
  · exact attributeBindings_erase_collectionItem original

theorem KeepsMarks.of_eq_or_erase {original : Tag} (h : original.KeepsMarks)
    (heq : t = original ∨ t = original.erase Mark.collectionItem) : t.KeepsMarks := by
  rw [KeepsMarks, attributeBindings_of_eq_or_erase heq]
  exact h

/-- A mark that is not blank is there. -/
theorem has_of_mark? {value : String} (h : t.mark? name = some value) : t.has name = true := by
  rw [mark?, attr?] at h
  cases hlookup : t.attrs.lookup name with
  | none => simp [hlookup] at h
  | some found =>
    rw [has, Keyed.has_eq_true_iff]
    exact Keyed.mem_keys_of_lookup hlookup

theorem mark?_eq_none_of_has_eq_false (h : t.has name = false) : t.mark? name = none := by
  cases hmark : t.mark? name with
  | none => rfl
  | some value =>
    rw [has_of_mark? hmark] at h
    cases h

end Tag

end MarkupBinding
