import MarkupBinding.Proofs.Binding.Step
import MarkupBinding.Proofs.Schema.Coverage
import Mathlib.Data.List.Forall2

/-!
# Data that conforms to a schema

`Component.conforms` tells whether a value is what a component takes: an object with a value for
each property, a conforming object for each nested component, and a list of conforming objects for
each nested list.

`Mirrors` relates the scopes of binding to the scopes of extraction: name by name the same, each
value conforming to the component at the address of its scope. What the schema declares can then be
read off the data: declared paths resolve, dotted or bare (`Mirrors.resolves`), nested components
open the scope that extraction has for them (`Mirrors.enter`), and declared lists are lists of
conforming items (`Mirrors.exists_items`).
-/

set_option autoImplicit false
set_option relaxedAutoImplicit false

namespace MarkupBinding

/-- Whether the value is an object of a document. -/
def Value.isObject : Value → Bool
  | object _ => true
  | _ => false

namespace Component

mutual

/-- Whether a value is an object with all that a component takes. -/
def conforms : Component → Value → Bool
  | ⟨properties, components, _, _⟩, value =>
    value.isObject && (properties.all fun property ↦ (value.property? property.1).isSome) &&
      conformsAll components value

/-- Whether an object has a conforming object for each nested component, and a list of conforming
objects for each nested list. -/
def conformsAll : List (String × Component) → Value → Bool
  | [], _ => true
  | (name, c) :: rest, value =>
    (match value.property? name with
      | none => false
      | some inner =>
        if c.array then
          match inner with
          | .list items => items.all fun item ↦ conforms c item
          | _ => false
        else conforms c inner) &&
      conformsAll rest value

end

variable {c inner : Component} {value : Value} {name : String}

/-- A conforming value has each property. -/
theorem exists_property_of_conforms (h : c.conforms value = true) (hname : c.Takes name) :
    ∃ found, value.property? name = some found := by
  obtain ⟨properties, components, array, itemName⟩ := c
  rw [conforms, Bool.and_eq_true, Bool.and_eq_true, List.all_eq_true] at h
  rw [Takes, Keyed.has_eq_true_iff] at hname
  obtain ⟨property, hproperty, rfl⟩ := List.mem_map.1 hname
  exact Option.isSome_iff_exists.1 (h.1.2 property hproperty)

/-- What a conforming object has for a nested component. -/
theorem exists_component_of_conformsAll {components : List (String × Component)}
    (h : conformsAll components value = true) (hlookup : components.lookup name = some inner) :
    ∃ found, value.property? name = some found ∧
      (inner.array = false → inner.conforms found = true) ∧
      (inner.array = true → ∃ items, found = .list items ∧
        ∀ item ∈ items, inner.conforms item = true) := by
  induction components with
  | nil => simp at hlookup
  | cons pair rest ih =>
    obtain ⟨key, c⟩ := pair
    rw [conformsAll, Bool.and_eq_true] at h
    rw [List.lookup_cons] at hlookup
    split at hlookup
    · next heq =>
      obtain rfl : name = key := by simpa using heq
      obtain rfl := Option.some.inj hlookup
      have hfirst := h.1
      split at hfirst
      · cases hfirst
      · next found hfound =>
        refine ⟨found, hfound, fun harray ↦ ?_, fun harray ↦ ?_⟩
        · simpa [harray] using hfirst
        · rw [if_pos harray] at hfirst
          split at hfirst
          · next items => exact ⟨items, rfl, List.all_eq_true.1 hfirst⟩
          · cases hfirst
    · exact ih h.2 hlookup

/-- A conforming value has a conforming object for each nested component and a list of conforming
objects for each nested list. -/
theorem exists_component_of_conforms (h : c.conforms value = true)
    (hlookup : c.components.lookup name = some inner) :
    ∃ found, value.property? name = some found ∧
      (inner.array = false → inner.conforms found = true) ∧
      (inner.array = true → ∃ items, found = .list items ∧
        ∀ item ∈ items, inner.conforms item = true) := by
  obtain ⟨properties, components, array, itemName⟩ := c
  rw [conforms, Bool.and_eq_true] at h
  exact exists_component_of_conformsAll h.2 hlookup

end Component

namespace Binding

open Extraction

/-- A scope of binding is what a scope of extraction stands for. -/
def Matches (root : Component) (scope : Scope) (a : Ancestor) : Prop :=
  scope.name = a.name ∧ ∃ c, root.at? a.address = some c ∧ c.conforms scope.value = true

/-- The inner scopes of a stack are what the scopes of extraction stand for; around them lie the
given outer ones. -/
def Mirrors (root : Component) (outside : List Scope) (stack : Stack) (ancestors : Ancestors) :
    Prop :=
  ∃ inside, stack.scopes = inside ++ outside ∧
    List.Forall₂ (Matches root) inside ancestors.list

namespace Mirrors

variable {root : Component} {outside : List Scope} {stack : Stack} {ancestors : Ancestors}
  {a : Ancestor} {path : Path}

/-- The innermost scopes stand for each other. -/
theorem top (h : Mirrors root outside stack ancestors) :
    Matches root stack.top ancestors.top := by
  obtain ⟨inside, hscopes, hinside⟩ := h
  rw [Ancestors.list, List.forall₂_cons_right_iff] at hinside
  obtain ⟨scope, rest, hfirst, -, rfl⟩ := hinside
  obtain ⟨rfl, -⟩ := List.cons.inj hscopes
  exact hfirst

/-- With scopes around those of extraction, the stack is not that of the root scope alone. -/
theorem isRoot_eq_false (h : Mirrors root outside stack ancestors) (houtside : outside ≠ []) :
    stack.isRoot = false := by
  obtain ⟨inside, hscopes, hinside⟩ := h
  rw [Ancestors.list, List.forall₂_cons_right_iff] at hinside
  obtain ⟨scope, rest, -, -, rfl⟩ := hinside
  obtain ⟨-, houter⟩ := List.cons.inj hscopes
  rw [Stack.isRoot, houter, List.isEmpty_eq_false_iff]
  exact List.append_ne_nil_of_right_ne_nil rest houtside

theorem push (h : Mirrors root outside stack ancestors) {name : String} {value : Value}
    {address : Address} {c : Component} (hc : root.at? address = some c)
    (hvalue : c.conforms value = true) :
    Mirrors root outside (stack.push name value) (ancestors.push name address) := by
  obtain ⟨inside, hscopes, hinside⟩ := h
  refine ⟨⟨name, value⟩ :: inside, ?_, .cons ⟨rfl, c, hc, hvalue⟩ hinside⟩
  rw [List.cons_append, ← hscopes]
  rfl

/-- The scope names are those of extraction inside those of the outer scopes. -/
theorem names_eq (h : Mirrors root outside stack ancestors) :
    stack.names = (outside.map Scope.name).reverse ++ ancestors.names := by
  obtain ⟨inside, hscopes, hinside⟩ := h
  have hnames : inside.map Scope.name = ancestors.list.map Ancestor.name := by
    clear hscopes
    generalize ancestors.list = list at hinside
    induction hinside with
    | nil => rfl
    | cons hfirst _ ih => rw [List.map_cons, List.map_cons, hfirst.1, ih]
  rw [Stack.names, hscopes, List.map_append, List.reverse_append, hnames, Ancestors.names]

/-- A scope that extraction has is found under its name. -/
theorem exists_lookup (h : Mirrors root outside stack ancestors) {name : String}
    (hnamed : ancestors.named name = some a) :
    ∃ scope, stack.lookup name = some scope ∧ Matches root scope a := by
  obtain ⟨inside, hscopes, hinside⟩ := h
  rw [Stack.lookup, hscopes]
  rw [Ancestors.named] at hnamed
  clear hscopes
  generalize ancestors.list = list at hinside hnamed
  induction hinside with
  | nil => simp at hnamed
  | cons hfirst _ ih =>
    rw [List.find?_cons] at hnamed
    rw [List.cons_append, List.find?_cons, hfirst.1]
    split at hnamed
    · obtain rfl := Option.some.inj hnamed
      exact ⟨_, rfl, hfirst⟩
    · exact ih hnamed

/-- The value of a scope that extraction has is among those that bare paths are looked up in. -/
theorem exists_findProperty (h : Mirrors root outside stack ancestors) (ha : a ∈ ancestors.list)
    {c : Component} (hc : root.at? a.address = some c) {name : String} (htakes : c.Takes name) :
    ∃ found, stack.findProperty name = some found := by
  obtain ⟨inside, hscopes, hinside⟩ := h
  obtain ⟨scope, hscope, -, c', hc', hconforms⟩ :
      ∃ scope ∈ inside, Matches root scope a := by
    clear hscopes
    generalize ancestors.list = list at hinside ha
    induction hinside with
    | nil => simp at ha
    | cons hfirst _ ih =>
      rcases List.mem_cons.1 ha with rfl | hin
      · exact ⟨_, List.mem_cons_self, hfirst⟩
      · obtain ⟨scope, hscope, hmatches⟩ := ih hin
        exact ⟨scope, List.mem_cons_of_mem _ hscope, hmatches⟩
  obtain rfl := Option.some.inj (hc.symm.trans hc')
  obtain ⟨value, hvalue⟩ := Component.exists_property_of_conforms hconforms htakes
  rw [← Option.isSome_iff_exists, Stack.findProperty, List.findSome?_isSome_iff, hscopes]
  exact ⟨scope, List.mem_append_left _ hscope, by rw [hvalue]; rfl⟩

/-- A path that the schema declares resolves. -/
theorem resolves (h : Mirrors root outside stack ancestors)
    (hpath : Declares root ancestors path) : stack.Resolves path := by
  obtain ⟨a, ha, hnamed, c, hc, htakes⟩ := hpath
  cases hscope : path.scope with
  | some name =>
    obtain ⟨scope, hlookup, -, c', hc', hconforms⟩ := h.exists_lookup (hnamed name hscope)
    obtain rfl := Option.some.inj (hc.symm.trans hc')
    obtain ⟨value, hvalue⟩ := Component.exists_property_of_conforms hconforms htakes
    exact ⟨value, by simp only [Stack.resolve, hscope, hlookup, hvalue]⟩
  | none =>
    obtain ⟨⟨scope, value⟩, hfind⟩ := h.exists_findProperty ha hc htakes
    exact ⟨value, by simp only [Stack.resolve, hscope, hfind]⟩

/-- A nested component of the schema opens the scope that extraction has for it, unless it is called
like the root scope and lies directly in it. -/
theorem enter (h : Mirrors root outside stack ancestors) {tag : Tag} {name : String} {c : Component}
    (hmark : tag.mark? Mark.component = some name)
    (hnested : root.at? (ancestors.top.address ++ [name]) = some c) (hsingle : c.array = false)
    (hroot : name = rootScope → stack.isRoot = false) :
    Mirrors root outside (enter stack tag)
      (ancestors.push name (ancestors.top.address ++ [name])) := by
  obtain ⟨-, parent, hparent, hconforms⟩ := h.top
  have hlookup := Component.lookup_of_at?_append hparent hnested
  obtain ⟨value, hvalue, hobject, -⟩ := Component.exists_component_of_conforms hconforms hlookup
  have hfind : stack.findProperty name = some (stack.top, value) := by
    rw [Stack.findProperty, Stack.scopes, List.findSome?_cons, hvalue]
    rfl
  have hnot : (name == rootScope && stack.isRoot) = false := by
    by_cases heq : name = rootScope
    · rw [hroot heq, Bool.and_false]
    · rw [beq_false_of_ne heq, Bool.false_and]
  simp only [Binding.enter, hmark, hnot, Bool.false_eq_true, if_false, hfind]
  exact h.push hnested (hobject hsingle)

/-- A collection whose list the schema declares has a list of conforming items. -/
theorem exists_items (h : Mirrors root outside stack ancestors) {raw : String} {address : Address}
    (hlist : DeclaresList root ancestors raw address) :
    ∃ path items c, Path.ofBinding raw = .ok path ∧ stack.resolve path = .ok (.list items) ∧
      root.at? address = some c ∧ ∀ item ∈ items, c.conforms item = true := by
  obtain ⟨path, name, a, c, hpath, hname, hnamed, rfl, hc, harray⟩ := hlist
  obtain ⟨scope, hlookup, -, parent, hparent, hconforms⟩ := h.exists_lookup hnamed
  have hinner := Component.lookup_of_at?_append hparent hc
  obtain ⟨value, hvalue, -, hitems⟩ := Component.exists_component_of_conforms hconforms hinner
  obtain ⟨items, rfl, hall⟩ := hitems harray
  exact ⟨path, items, c, hpath, by simp only [Stack.resolve, hname, hlookup, hvalue], hc, hall⟩

end Mirrors

end Binding

end MarkupBinding
