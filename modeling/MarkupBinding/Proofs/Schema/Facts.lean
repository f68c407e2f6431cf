import Mathlib.Data.Set.Insert
import Mathlib.Logic.Function.Basic
import MarkupBinding.Proofs.Schema.Keys

/-!
# What a component declares

A component as the set of what it declares: its properties and nested components at all addresses,
with the kinds of the nested ones but without any order (`Component.facts`). What is declared in one
component is consistent (`Component.consistent_facts`).

Declaring a property adds it to the facts and changes nothing else (`facts_modifyAt_addProperty`).
Declaring a nested component does so too, and it fails exactly where one of another kind is declared
under the name (`facts_modifyAt_addComponent`, `not_consistent_of_addComponent_eq_error`). Both
change one level of a component, so both are proved on what is at each address without its nested
components (`Component.shellAt`).
-/

set_option autoImplicit false
set_option relaxedAutoImplicit false

namespace MarkupBinding

/-- One thing that is declared: a property or a nested component on the component at an address. A
fault stands for an annotation that cannot be read. -/
inductive Declaration where
  | property (address : Address) (name : String)
  | component (address : Address) (name : String) (array : Bool) (itemName : Option String)
  | fault

namespace Declaration

/-- The declaration on a nested component as one on the component that it is nested in. -/
def below (outer : String) : Declaration → Declaration
  | property address name => property (outer :: address) name
  | component address name array itemName => component (outer :: address) name array itemName
  | fault => fault

/-- No annotation is at fault, and every nested component is declared as of one kind. -/
structure Consistent (declared : Set Declaration) : Prop where
  fault : fault ∉ declared
  kind : ∀ {address : Address} {name : String} {array array' : Bool}
    {itemName itemName' : Option String}, component address name array itemName ∈ declared →
      component address name array' itemName' ∈ declared → array = array' ∧ itemName = itemName'

theorem Consistent.mono {declared more : Set Declaration} (h : Consistent more)
    (hsub : declared ⊆ more) : Consistent declared :=
  ⟨fun hfault ↦ h.fault (hsub hfault), fun hfirst hsecond ↦ h.kind (hsub hfirst) (hsub hsecond)⟩

end Declaration

namespace Component

/-- The component without its nested ones. -/
def shell (c : Component) : Component :=
  { c with components := [] }

/-- What is at an address, without its nested components. -/
def shellAt (c : Component) (address : Address) : Option Component :=
  (c.at? address).map shell

/-- What is declared is there. -/
def Has (c : Component) : Declaration → Prop
  | .property address name => ∃ d, c.shellAt address = some d ∧ d.Takes name
  | .component address name array itemName =>
    ∃ d, c.shellAt (address ++ [name]) = some d ∧ d.array = array ∧ d.itemName = itemName
  | .fault => False

/-- All that a component declares. -/
def facts (c : Component) : Set Declaration :=
  {declaration | c.Has declaration}

section Shells

variable {c inner : Component} {name : String} {address other : Address}
  {f : Component → Component}

theorem shellAt_nil (c : Component) : c.shellAt [] = some c.shell := rfl

theorem shellAt_cons (c : Component) (name : String) (address : Address) :
    c.shellAt (name :: address) = (c.components.lookup name).bind (·.shellAt address) := by
  rw [shellAt, at?_cons, Option.map_bind]
  rfl

theorem shellAt_append (c : Component) (address rest : Address) :
    c.shellAt (address ++ rest) = (c.at? address).bind (·.shellAt rest) := by
  rw [shellAt, at?_append, Option.map_bind]
  rfl

theorem isSome_shellAt (c : Component) (address : Address) :
    (c.shellAt address).isSome = (c.at? address).isSome :=
  Option.isSome_map

/-- A change at an address shows below this address only. -/
theorem shellAt_modifyAt_of_forall_ne (h : ∀ rest, other ≠ address ++ rest) :
    (modifyAt f address c).shellAt other = c.shellAt other := by
  induction address generalizing c other with
  | nil => exact absurd rfl (h other)
  | cons first address ih =>
    rw [modifyAt]
    cases hlookup : c.components.lookup first with
    | none => rfl
    | some inner =>
      cases other with
      | nil => rfl
      | cons part other =>
        rw [shellAt_cons, shellAt_cons]
        by_cases hpart : part = first
        · subst hpart
          rw [Keyed.lookup_set_self, hlookup]
          exact ih fun rest heq ↦ h rest (by rw [heq, List.cons_append])
        · rw [Keyed.lookup_set_of_ne hpart]

/-- A change at an address, by what the change does to the component there. -/
theorem shellAt_modifyAt_append (f : Component → Component) (c : Component)
    (address rest : Address) :
    (modifyAt f address c).shellAt (address ++ rest) =
      (c.at? address).bind fun inner ↦ (f inner).shellAt rest := by
  rw [shellAt_append, at?_modifyAt, Option.bind_map]
  rfl

/-- A change that shows at one place only, wherever it is made, shows at one place of the whole. -/
theorem shellAt_modifyAt_eq_update {rest : Address} {new : Option Component}
    (hinner : c.at? address = some inner)
    (hf : (f inner).shellAt = Function.update inner.shellAt rest new) :
    (modifyAt f address c).shellAt = Function.update c.shellAt (address ++ rest) new := by
  funext other
  by_cases h : ∃ more, other = address ++ more
  · obtain ⟨more, rfl⟩ := h
    rw [shellAt_modifyAt_append, hinner, Option.bind_some, hf, Function.update_apply,
      Function.update_apply, shellAt_append, hinner, Option.bind_some]
    simp only [List.append_cancel_left_eq]
  · rw [shellAt_modifyAt_of_forall_ne (not_exists.1 h), Function.update_of_ne]
    rintro rfl
    exact h ⟨rest, rfl⟩

theorem shellAt_addProperty (c : Component) (name : String) :
    (c.addProperty name).shellAt =
      Function.update c.shellAt [] (some (c.addProperty name).shell) := by
  funext address
  cases address with
  | nil => rw [Function.update_self, shellAt_nil]
  | cons first address =>
    rw [Function.update_of_ne (List.cons_ne_nil _ _), shellAt_cons, shellAt_cons]
    rw [addProperty]
    split <;> rfl

theorem shellAt_addComponent (hnew : c.components.lookup name = none) (array : Bool)
    (itemName : Option String) :
    shellAt { c with components := c.components ++ [(name, empty array itemName)] } =
      Function.update c.shellAt [name] (some (empty array itemName)) := by
  funext address
  rcases address with - | ⟨first, rest⟩
  · rfl
  · rw [Function.update_apply, shellAt_cons, List.lookup_append]
    by_cases hfirst : first = name
    · subst hfirst
      rw [shellAt_cons, hnew]
      rcases rest with - | ⟨second, rest⟩ <;> simp [shellAt, at?, empty, shell]
    · rw [List.lookup_cons, beq_false_of_ne hfirst, List.lookup_nil, Option.or_none,
        if_neg fun heq ↦ hfirst (List.cons.inj heq).1, shellAt_cons]

end Shells

section Facts

variable {c d inner changed : Component} {name : String} {address : Address} {array : Bool}
  {itemName : Option String}

theorem mem_facts_property_iff : .property address name ∈ c.facts ↔
    ∃ d, c.shellAt address = some d ∧ d.Takes name :=
  Iff.rfl

theorem mem_facts_component_iff : .component address name array itemName ∈ c.facts ↔
    ∃ d, c.shellAt (address ++ [name]) = some d ∧ d.array = array ∧ d.itemName = itemName :=
  Iff.rfl

theorem facts_congr (h : c.shellAt = d.shellAt) : c.facts = d.facts := by
  ext declaration
  cases declaration with
  | property => rw [mem_facts_property_iff, mem_facts_property_iff, h]
  | component => rw [mem_facts_component_iff, mem_facts_component_iff, h]
  | fault => exact Iff.rfl

theorem fault_not_mem_facts (c : Component) : Declaration.fault ∉ c.facts :=
  id

theorem consistent_facts (c : Component) : Declaration.Consistent c.facts where
  fault := c.fault_not_mem_facts
  kind := by
    rintro address name _ _ _ _ ⟨first, hfirst, rfl, rfl⟩ ⟨second, hsecond, rfl, rfl⟩
    obtain rfl := Option.some.inj (hfirst.symm.trans hsecond)
    exact ⟨rfl, rfl⟩

/-- The facts of a nested component are those of the component below its name. -/
theorem has_below_iff (h : c.components.lookup name = some inner) (declaration : Declaration) :
    c.Has (declaration.below name) ↔ inner.Has declaration := by
  cases declaration <;> simp [Declaration.below, Has, shellAt_cons, h]

/-- What is at an address stays there when nothing that is declared is lost. -/
theorem isSome_at?_of_facts_subset (hsub : c.facts ⊆ d.facts)
    (h : (c.at? address).isSome = true) : (d.at? address).isSome = true := by
  rcases List.eq_nil_or_concat' address with rfl | ⟨front, last, rfl⟩
  · rfl
  · rw [← isSome_shellAt] at h ⊢
    obtain ⟨inner, hinner⟩ := Option.isSome_iff_exists.1 h
    obtain ⟨later, hlater, -⟩ := mem_facts_component_iff.1 (hsub ⟨inner, hinner, rfl, rfl⟩)
    rw [hlater, Option.isSome_some]

theorem takes_addProperty_iff {other : String} :
    (c.addProperty name).Takes other ↔ other = name ∨ c.Takes other := by
  rw [addProperty]
  split
  · next h =>
    constructor
    · exact Or.inr
    · rintro (rfl | hother)
      · exact h
      · exact hother
  · rw [Takes, Takes, Keyed.has_eq_true_iff, Keyed.has_eq_true_iff, Keyed.keys_append,
      List.mem_append, or_comm]
    exact Iff.or List.mem_singleton Iff.rfl

/-- Declaring a property adds it and changes nothing else. -/
theorem facts_modifyAt_addProperty (h : c.at? address = some inner) :
    (c.modifyAt (·.addProperty name) address).facts =
      insert (.property address name) c.facts := by
  have hshells : (c.modifyAt (·.addProperty name) address).shellAt =
      Function.update c.shellAt address (some (inner.addProperty name).shell) := by
    have hupdate := shellAt_modifyAt_eq_update (f := (·.addProperty name)) h
      (shellAt_addProperty inner name)
    rwa [List.append_nil] at hupdate
  have hthere : c.shellAt address = some inner.shell := by rw [shellAt, h, Option.map_some]
  obtain ⟨harray, hitem⟩ : (inner.addProperty name).array = inner.array ∧
      (inner.addProperty name).itemName = inner.itemName := by
    rw [addProperty]
    split <;> exact ⟨rfl, rfl⟩
  ext declaration
  rw [Set.mem_insert_iff]
  cases declaration with
  | property other key =>
    rw [mem_facts_property_iff, mem_facts_property_iff, hshells, Function.update_apply]
    by_cases heq : other = address
    · subst heq
      simp only [if_true, hthere, Option.some.injEq, exists_eq_left', Declaration.property.injEq,
        true_and]
      exact takes_addProperty_iff
    · simp [heq]
  | component other key array itemName =>
    rw [mem_facts_component_iff, mem_facts_component_iff, hshells, Function.update_apply]
    by_cases heq : other ++ [key] = address
    · subst heq
      simp only [if_true, hthere, Option.some.injEq, exists_eq_left', reduceCtorEq, false_or]
      exact Iff.and (Eq.congr_left harray) (Eq.congr_left hitem)
    · simp [heq]
  | fault => simp [fault_not_mem_facts]

/-- A nested component under a new name adds itself and changes nothing else. -/
theorem facts_modifyAt_of_lookup_eq_none (h : c.at? address = some inner)
    (hnew : inner.components.lookup name = none) (array : Bool) (itemName : Option String) :
    (c.modifyAt (fun _ ↦ { inner with
        components := inner.components ++ [(name, empty array itemName)] }) address).facts =
      insert (.component address name array itemName) c.facts := by
  have hshells := shellAt_modifyAt_eq_update (f := fun _ ↦ { inner with
    components := inner.components ++ [(name, empty array itemName)] }) h
    (shellAt_addComponent hnew array itemName)
  have hnone : c.shellAt (address ++ [name]) = none := by
    rw [shellAt_append, h, Option.bind_some, shellAt_cons, hnew, Option.bind_none]
  ext declaration
  rw [Set.mem_insert_iff]
  cases declaration with
  | property other key =>
    rw [mem_facts_property_iff, mem_facts_property_iff, hshells, Function.update_apply]
    by_cases heq : other = address ++ [name]
    · subst heq
      simp [hnone, Takes, Keyed.has, empty]
    · simp [heq]
  | component other key array' itemName' =>
    rw [mem_facts_component_iff, mem_facts_component_iff, hshells, Function.update_apply]
    by_cases heq : other ++ [key] = address ++ [name]
    · obtain ⟨rfl, hkey⟩ := List.append_inj' heq rfl
      obtain rfl := List.head_eq_of_cons_eq hkey
      simp [hnone, empty, eq_comm]
    · have hne : ¬ (other = address ∧ key = name) := fun hsame ↦ heq (by rw [hsame.1, hsame.2])
      simp only [if_neg heq, Declaration.component.injEq]
      tauto
  | fault => simp [fault_not_mem_facts]

/-- Declaring a nested component adds it and changes nothing else. -/
theorem facts_modifyAt_addComponent (h : c.at? address = some inner)
    (hchanged : inner.addComponent name array itemName = .ok changed) :
    (c.modifyAt (fun _ ↦ changed) address).facts =
      insert (.component address name array itemName) c.facts := by
  rw [addComponent] at hchanged
  split at hchanged
  · next hnew =>
    obtain rfl := Except.ok.inj hchanged
    exact facts_modifyAt_of_lookup_eq_none h hnew array itemName
  · next declared hdeclared =>
    split at hchanged
    · next hkind =>
      obtain rfl := Except.ok.inj hchanged
      have hthere : c.shellAt (address ++ [name]) = some declared.shell := by
        rw [shellAt_append, h, Option.bind_some, shellAt_cons, hdeclared]
        rfl
      have hsame : (c.modifyAt (fun _ ↦ inner) address).shellAt = c.shellAt := by
        rw [shellAt_modifyAt_eq_update (f := fun _ ↦ inner) h
          (Function.update_eq_self [] inner.shellAt).symm, List.append_nil,
          Function.update_eq_self_iff, shellAt_nil, shellAt, h, Option.map_some]
      rw [facts_congr hsame]
      exact (Set.insert_eq_of_mem
        (mem_facts_component_iff.2 ⟨declared.shell, hthere, hkind⟩)).symm
    · cases hchanged

/-- Declaring a nested component fails only where one of another kind is declared. -/
theorem not_consistent_of_addComponent_eq_error {e : StructureError}
    (h : c.at? address = some inner) (he : inner.addComponent name array itemName = .error e) :
    ¬ Declaration.Consistent (insert (.component address name array itemName) c.facts) := by
  rw [addComponent] at he
  split at he
  · cases he
  · next declared hdeclared =>
    split at he
    · cases he
    · next hkind =>
      intro hconsistent
      refine hkind (hconsistent.kind (Set.mem_insert_of_mem _ ⟨declared.shell, ?_, rfl, rfl⟩)
        (Set.mem_insert _ _))
      rw [shellAt_append, h, Option.bind_some, shellAt_cons, hdeclared]
      rfl

end Facts

end Component

end MarkupBinding
