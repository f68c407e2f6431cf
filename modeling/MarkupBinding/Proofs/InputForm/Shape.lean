import MarkupBinding.InputForm.Fields
import MarkupBinding.Proofs.Record.Reading
import MarkupBinding.Proofs.Schema.RoundTrip

/-!
# What an input form is drawn for

An input form takes from a schema document the outline of a component and the toggle flags
(`Schema.IsDrawnFrom`); it takes those of a schema from the schema's own document
(`Schema.isDrawnFrom_toDocument`), and also from documents that leave out what is empty.

`Schema.fills` tells whether an input has exactly the shape of a schema with a text for every
property and a truth value for every flag. `Schema.listSizes` are the keys under which a form that
is drawn for the input remembers numbers of rows, each with the size of the list that it is for. Two
lists may have one key: `OneSizePerKey` tells whether they then have one size.
-/

set_option autoImplicit false
set_option relaxedAutoImplicit false

namespace MarkupBinding

namespace Value

mutual

/-- Whether no whole number is in a value, at any depth. -/
def numberFree : Value → Bool
  | int _ => false
  | list items => numberFreeAll items
  | object fields => numberFreeFields fields
  | _ => true

/-- Whether no whole number is in several values. -/
def numberFreeAll : List Value → Bool
  | [] => true
  | item :: rest => item.numberFree && numberFreeAll rest

/-- Whether no whole number is in the values of entries. -/
def numberFreeFields : List (String × Value) → Bool
  | [] => true
  | (_, value) :: rest => value.numberFree && numberFreeFields rest

end

theorem numberFree_list_iff {items : List Value} :
    (list items).numberFree = true ↔ ∀ item ∈ items, item.numberFree = true := by
  rw [numberFree]
  induction items with
  | nil => simp [numberFreeAll]
  | cons item rest ih => rw [numberFreeAll, Bool.and_eq_true, ih, List.forall_mem_cons]

theorem numberFree_object_iff {fields : List (String × Value)} :
    (object fields).numberFree = true ↔ ∀ entry ∈ fields, entry.2.numberFree = true := by
  rw [numberFree]
  induction fields with
  | nil => simp [numberFreeFields]
  | cons entry rest ih => rw [numberFreeFields, Bool.and_eq_true, ih, List.forall_mem_cons]

theorem numberFree_of_mem {items : List Value} (h : (list items).numberFree = true) {item : Value}
    (hitem : item ∈ items) : item.numberFree = true :=
  numberFree_list_iff.1 h item hitem

theorem numberFree_of_lookup {fields : List (String × Value)}
    (h : (object fields).numberFree = true) {name : String} {value : Value}
    (hvalue : fields.lookup name = some value) :
    value.numberFree = true :=
  numberFree_object_iff.1 h _ (Keyed.mem_of_lookup hvalue)

/-- Whether the value is a truth value. -/
def isBool : Value → Bool
  | bool _ => true
  | _ => false

/-- The entries of an object; other values have none. -/
def entries : Value → List (String × Value)
  | object fields => fields
  | _ => []

/-- Two values are the same but for the order of entries in objects. -/
inductive SameUpToOrder : Value → Value → Prop
  | scalar {value : Value} (h : value.isScalar = true) : SameUpToOrder value value
  | list {items others : List Value} (h : List.Forall₂ SameUpToOrder items others) :
      SameUpToOrder (.list items) (.list others)
  | object {fields others : List (String × Value)}
      (h : ∀ name, Option.Rel SameUpToOrder (fields.lookup name) (others.lookup name)) :
      SameUpToOrder (.object fields) (.object others)

end Value

namespace InputForm

/-- The sizes of the lists in what is there for a nested component, and their keys; `inner` gives
those in an object that is there for it. -/
def sizesIn (inner : String → List (String × Value) → List (String × Nat)) (key : String) :
    Value → List (String × Nat)
  | .object entries => inner key entries
  | .list items => (key, items.length) ::
      items.zipIdx.flatMap fun row ↦ inner (rowKey key row.2) row.1.entries
  | _ => []

/-- Lists with one key have one size. -/
def OneSizePerKey (sizes : List (String × Nat)) : Prop :=
  ∀ list ∈ sizes, ∀ other ∈ sizes, list.1 = other.1 → list.2 = other.2

instance (sizes : List (String × Nat)) : Decidable (OneSizePerKey sizes) :=
  inferInstanceAs (Decidable (∀ list ∈ sizes, ∀ other ∈ sizes, list.1 = other.1 → list.2 = other.2))

end InputForm

namespace Component

open InputForm

mutual

/-- What an input form takes from the document of a component. -/
def outline : Component → Outline
  | ⟨properties, components, array, itemName⟩ =>
    .node (some (Keyed.keys properties)) (some (outlines components)) array
      (itemName.getD Outline.plainItemName)

/-- What an input form takes from the documents of nested components. -/
def outlines : List (String × Component) → List (String × Outline)
  | [] => []
  | (name, c) :: rest => (name, c.outline) :: outlines rest

end

mutual

/-- The lists in the data of a component, each with the key that the form has for it and its
size. -/
def listSizes : Component → String → List (String × Value) → List (String × Nat)
  | ⟨_, components, _, _⟩, key, entries => listSizesAll components key entries

/-- The lists in the data of nested components. -/
def listSizesAll : List (String × Component) → String → List (String × Value) →
    List (String × Nat)
  | [], _, _ => []
  | (name, c) :: rest, key, entries =>
    ((entries.lookup name).map
      (sizesIn (fun key entries ↦ listSizes c key entries) (partKey key name))).getD [] ++
        listSizesAll rest key entries

end

theorem keys_outlines (components : List (String × Component)) :
    Keyed.keys (outlines components) = Keyed.keys components := by
  induction components with
  | nil => rfl
  | cons pair rest ih => exact congrArg (pair.1 :: ·) ih

/-- An input form takes the outline of a component from its document, whatever else is behind the
document's entries. -/
theorem ofDocument_entries (c : Component) :
    ∀ toggles, Outline.ofDocument (.object (c.entries ++ Schema.toggleEntry toggles)) =
      c.outline := by
  induction c using induction_on_components with
  | step properties components array itemName ih =>
    intro toggles
    have hnames : (propertiesValue properties).names? = some (Keyed.keys properties) := by
      simp [propertiesValue, Value.names?, Keyed.keys]
    have hbelow : Outline.outlines (allEntries components) = outlines components := by
      induction components with
      | nil => rfl
      | cons pair rest ihrest =>
        have hfirst := ih pair List.mem_cons_self []
        rw [show Schema.toggleEntry [] = [] from rfl, List.append_nil] at hfirst
        rw [allEntries, Outline.outlines, outlines, hfirst,
          ihrest fun other hother ↦ ih other (List.mem_cons_of_mem _ hother)]
    have harray : (Value.bool array).holds = array := rfl
    cases itemName <;> cases toggles <;>
      simp [entries, itemEntry, Schema.toggleEntry, Outline.ofDocument, Outline.componentsOf,
        Outline.entriesOf, outline, List.lookup_cons, hnames, hbelow, harray, Value.plainText]

end Component

namespace Schema

open InputForm

/-- An input form takes the outermost component of a schema and its toggle flags from a document.
What comes behind the first entry of the document is not looked at. -/
def IsDrawnFrom (s : Schema) (document : Value) : Prop :=
  ∃ node rest, document = .object ((s.name, node) :: rest) ∧
    Outline.ofDocument node = s.root.outline ∧
    (if (flagsOf node).holds then (flagsOf node).names? else some []) = some s.toggles

theorem names?_list (names : List String) :
    (Value.list (names.map .string)).names? = some names := by
  rw [Value.names?]
  induction names with
  | nil => rfl
  | cons name rest ih => rw [List.map_cons, List.mapM_cons, ih]; rfl

theorem isDrawnFrom_toDocument (s : Schema) : s.IsDrawnFrom s.toDocument := by
  refine ⟨_, _, s.toDocument_eq, s.root.ofDocument_entries s.toggles, ?_⟩
  have hentries : s.root.entries.lookup "toggles" = none := by
    obtain ⟨name, ⟨properties, components, array, itemName⟩, toggles⟩ := s
    cases itemName <;> rfl
  rw [flagsOf, List.lookup_append, hentries, Option.none_or]
  cases htoggles : s.toggles with
  | nil => rfl
  | cons flag rest => exact names?_list (flag :: rest)

/-- Whether an input has exactly the shape of a schema, with a text for every property and a truth
value for every toggle flag. -/
def fills (s : Schema) (entries : List (String × Value)) : Bool :=
  s.fits (.object entries) && (Value.object entries).numberFree &&
    s.toggles.all fun flag ↦ (entries.lookup flag).any Value.isBool

/-- The lists in an input, each with the key that the form has for it and its size. -/
def listSizes (s : Schema) (entries : List (String × Value)) : List (String × Nat) :=
  s.root.listSizes s.name
    (if s.name == rootScope then entries else ((entries.lookup s.name).getD .null).entries)

end Schema

end MarkupBinding
