import Mathlib.Data.List.Nodup
import MarkupBinding.Proofs.Schema.Facts
import MarkupBinding.Proofs.Schema.Pruning
import MarkupBinding.Proofs.Schema.WellDeclared

/-!
# Schemas up to the order of keys

Components that are the same up to the order of their keys (`Component.SameUpToOrder`): of the same
kind, with the same properties and the same nested components in some order, at every depth. A
component whose names are distinct is given by what it declares, up to this order
(`Component.sameUpToOrder_of_facts_eq`), and pruning keeps it
(`Component.SameUpToOrder.prune`).
-/

set_option autoImplicit false
set_option relaxedAutoImplicit false

namespace MarkupBinding

namespace Component

/-- The components are of one kind, with the same properties and nested components of the same names
in some order, and those of one name are the same up to order themselves. -/
inductive SameUpToOrder : Component → Component → Prop
  | intro {c d : Component} (array : c.array = d.array) (itemName : c.itemName = d.itemName)
      (properties : c.properties.Perm d.properties)
      (names : (Keyed.keys c.components).Perm (Keyed.keys d.components))
      (components : ∀ name inner other, c.components.lookup name = some inner →
        d.components.lookup name = some other → SameUpToOrder inner other) : SameUpToOrder c d

/-! ### What is declared in both -/

section Facts

variable {c d : Component} {name type : String}

theorem property_nil_mem_facts_iff : .property [] name ∈ c.facts ↔ c.Takes name := by
  rw [mem_facts_property_iff, shellAt_nil]
  simp only [Option.some.injEq, exists_eq_left']
  exact Iff.rfl

/-- The nested components by what is declared. -/
theorem component_nil_mem_facts_iff {array : Bool} {itemName : Option String} :
    .component [] name array itemName ∈ c.facts ↔
      ∃ inner, c.components.lookup name = some inner ∧ inner.array = array ∧
        inner.itemName = itemName := by
  rw [mem_facts_component_iff, List.nil_append, shellAt_cons]
  cases c.components.lookup name with
  | none => simp
  | some inner =>
    simp only [Option.bind_some, shellAt_nil, Option.some.injEq, exists_eq_left']
    exact Iff.rfl

/-- Where every property is a text, the properties are those that are declared. -/
theorem mem_properties_iff (htext : ∀ pair ∈ c.properties, pair.2 = textType) :
    (name, type) ∈ c.properties ↔ type = textType ∧ .property [] name ∈ c.facts := by
  rw [property_nil_mem_facts_iff, Takes, Keyed.has_eq_true_iff]
  constructor
  · intro hpair
    exact ⟨htext _ hpair, List.mem_map.2 ⟨_, hpair, rfl⟩⟩
  · rintro ⟨rfl, hname⟩
    obtain ⟨⟨name, type⟩, hpair, rfl⟩ := List.mem_map.1 hname
    rwa [← htext _ hpair]

theorem properties_perm_of_facts_eq (h : c.facts = d.facts) (hc : c.WellKeyed) (hd : d.WellKeyed)
    (hctext : ∀ pair ∈ c.properties, pair.2 = textType)
    (hdtext : ∀ pair ∈ d.properties, pair.2 = textType) : c.properties.Perm d.properties := by
  rw [List.perm_ext_iff_of_nodup (List.Nodup.of_map Prod.fst (wellKeyed_iff.1 hc).1)
    (List.Nodup.of_map Prod.fst (wellKeyed_iff.1 hd).1)]
  rintro ⟨name, type⟩
  rw [mem_properties_iff hctext, mem_properties_iff hdtext, h]

/-- A nested component that is declared in both is of one kind in both. -/
theorem exists_lookup_of_facts_eq (h : c.facts = d.facts) {inner : Component}
    (hinner : c.components.lookup name = some inner) :
    ∃ other, d.components.lookup name = some other ∧ inner.array = other.array ∧
      inner.itemName = other.itemName ∧ inner.facts = other.facts := by
  have hdeclared : .component [] name inner.array inner.itemName ∈ d.facts := by
    rw [← h]
    exact component_nil_mem_facts_iff.2 ⟨inner, hinner, rfl, rfl⟩
  obtain ⟨other, hother, harray, hitem⟩ := component_nil_mem_facts_iff.1 hdeclared
  refine ⟨other, hother, harray.symm, hitem.symm, Set.ext fun declaration ↦ ?_⟩
  have hsame := Set.ext_iff.1 h (declaration.below name)
  exact (has_below_iff hinner declaration).symm.trans
    (hsame.trans (has_below_iff hother declaration))

theorem mem_keys_components_of_facts_eq (h : c.facts = d.facts)
    (hname : name ∈ Keyed.keys c.components) : name ∈ Keyed.keys d.components := by
  cases hinner : c.components.lookup name with
  | none => exact absurd hname (Keyed.not_mem_keys_of_lookup hinner)
  | some inner =>
    obtain ⟨other, hother, -⟩ := exists_lookup_of_facts_eq h hinner
    exact Keyed.mem_keys_of_lookup hother

/-- A component with distinct names, all of whose properties are texts, is given by its kind and by
what it declares, up to the order of keys. -/
theorem sameUpToOrder_of_facts_eq (c : Component) : ∀ {d : Component}, c.facts = d.facts →
    c.array = d.array → c.itemName = d.itemName → c.WellKeyed → d.WellKeyed →
    c.AllWellDeclared → d.AllWellDeclared → c.SameUpToOrder d := by
  induction c using induction_on_components with
  | step properties components array itemName ih =>
    intro d h harray hitem hckeys hdkeys hc hd
    have htext : ∀ {e : Component}, e.AllWellDeclared → ∀ pair ∈ e.properties, pair.2 = textType :=
      fun he pair hpair ↦ ((allWellDeclared_iff.1 he).1.property pair hpair).2
    refine .intro harray hitem
      (properties_perm_of_facts_eq h hckeys hdkeys (htext hc) (htext hd)) ?_ ?_
    · rw [List.perm_ext_iff_of_nodup (wellKeyed_iff.1 hckeys).2.1 (wellKeyed_iff.1 hdkeys).2.1]
      exact fun name ↦ ⟨mem_keys_components_of_facts_eq h, mem_keys_components_of_facts_eq h.symm⟩
    · intro name inner other hinner hother
      obtain ⟨same, hsame, hkind, hitemName, hfacts⟩ := exists_lookup_of_facts_eq h hinner
      obtain rfl := Option.some.inj (hother.symm.trans hsame)
      have hmem := Keyed.mem_of_lookup hinner
      have hmem' := Keyed.mem_of_lookup hother
      exact ih _ hmem hfacts hkind hitemName ((wellKeyed_iff.1 hckeys).2.2 _ hmem)
        ((wellKeyed_iff.1 hdkeys).2.2 _ hmem') ((allWellDeclared_iff.1 hc).2 _ hmem)
        ((allWellDeclared_iff.1 hd).2 _ hmem')

end Facts

/-! ### Pruning -/

section Pruning

variable {c d inner : Component} {name : String}

theorem SameUpToOrder.symm (h : c.SameUpToOrder d) : d.SameUpToOrder c := by
  induction h with
  | intro array itemName properties names _ ih =>
    exact .intro array.symm itemName.symm properties.symm names.symm
      fun name inner other hinner hother ↦ ih name other inner hother hinner

/-- What one has under a name, the other has too, the same up to order. -/
theorem SameUpToOrder.exists_lookup (h : c.SameUpToOrder d)
    (hinner : c.components.lookup name = some inner) :
    ∃ other, d.components.lookup name = some other ∧ inner.SameUpToOrder other := by
  obtain ⟨-, -, -, names, components⟩ := h
  cases hother : d.components.lookup name with
  | none =>
    exact absurd (names.mem_iff.1 (Keyed.mem_keys_of_lookup hinner))
      (Keyed.not_mem_keys_of_lookup hother)
  | some other => exact ⟨other, rfl, components name inner other hinner hother⟩

theorem SameUpToOrder.isEmpty_eq (h : c.SameUpToOrder d) : c.isEmpty = d.isEmpty := by
  obtain ⟨-, -, properties, names, -⟩ := h
  have hcomponents := names.isEmpty_eq
  rw [Keyed.keys, Keyed.keys, List.isEmpty_map, List.isEmpty_map] at hcomponents
  rw [isEmpty, isEmpty, properties.isEmpty_eq, hcomponents]

/-- Of nested components with distinct names pruning keeps, under their names, those that take
something. -/
theorem lookup_pruneAll_iff (h : c.WellKeyed) :
    (pruneAll c.components).lookup name = some inner ↔
      ∃ original, c.components.lookup name = some original ∧
        original.prune.isEmpty = false ∧ inner = original.prune := by
  constructor
  · intro hlookup
    obtain ⟨⟨key, original⟩, hmem, hkept, heq⟩ := mem_pruneAll_iff.1 (Keyed.mem_of_lookup hlookup)
    obtain ⟨rfl, rfl⟩ := Prod.mk.inj heq
    exact ⟨original, Keyed.lookup_of_mem (wellKeyed_iff.1 h).2.1 hmem, hkept, rfl⟩
  · rintro ⟨original, hlookup, hkept, rfl⟩
    exact lookup_pruneAll hlookup hkept

theorem mem_keys_pruneAll_iff (h : c.WellKeyed) :
    name ∈ Keyed.keys (pruneAll c.components) ↔
      ∃ original, c.components.lookup name = some original ∧ original.prune.isEmpty = false := by
  constructor
  · intro hname
    cases hlookup : (pruneAll c.components).lookup name with
    | none => exact absurd hname (Keyed.not_mem_keys_of_lookup hlookup)
    | some inner =>
      obtain ⟨original, hthere, hkept, -⟩ := (lookup_pruneAll_iff h).1 hlookup
      exact ⟨original, hthere, hkept⟩
  · rintro ⟨original, hthere, hkept⟩
    exact Keyed.mem_keys_of_lookup (lookup_pruneAll hthere hkept)

/-- Pruning keeps components the same up to the order of their keys. -/
theorem SameUpToOrder.prune (h : c.SameUpToOrder d) :
    c.WellKeyed → d.WellKeyed → c.prune.SameUpToOrder d.prune := by
  induction h with
  | @intro c d array itemName properties names components ih =>
    intro hc hd
    have hbelow : ∀ {name : String} {inner other : Component},
        c.components.lookup name = some inner → d.components.lookup name = some other →
          inner.prune.SameUpToOrder other.prune := fun hinner hother ↦
      ih _ _ _ hinner hother ((wellKeyed_iff.1 hc).2.2 _ (Keyed.mem_of_lookup hinner))
        ((wellKeyed_iff.1 hd).2.2 _ (Keyed.mem_of_lookup hother))
    have hsame : c.SameUpToOrder d := .intro array itemName properties names components
    rw [prune_eq, prune_eq]
    refine .intro array itemName properties ?_ fun name inner other hinner hother ↦ ?_
    · rw [List.perm_ext_iff_of_nodup
        ((wellKeyed_iff.1 hc).2.1.sublist (keys_pruneAll_sublist _))
        ((wellKeyed_iff.1 hd).2.1.sublist (keys_pruneAll_sublist _))]
      intro name
      rw [mem_keys_pruneAll_iff hc, mem_keys_pruneAll_iff hd]
      constructor
      · rintro ⟨inner, hinner, hkept⟩
        obtain ⟨other, hother, -⟩ := hsame.exists_lookup hinner
        exact ⟨other, hother, (hbelow hinner hother).isEmpty_eq.symm.trans hkept⟩
      · rintro ⟨other, hother, hkept⟩
        obtain ⟨inner, hinner, -⟩ := hsame.symm.exists_lookup hother
        exact ⟨inner, hinner, (hbelow hinner hother).isEmpty_eq.trans hkept⟩
    · obtain ⟨original, horiginal, -, rfl⟩ := (lookup_pruneAll_iff hc).1 hinner
      obtain ⟨original', horiginal', -, rfl⟩ := (lookup_pruneAll_iff hd).1 hother
      exact hbelow horiginal horiginal'

end Pruning

end Component

/-- The schemas have one name, the same components up to the order of keys, and the same toggle
flags in some order. -/
structure Schema.SameUpToOrder (s t : Schema) : Prop where
  name : s.name = t.name
  root : s.root.SameUpToOrder t.root
  toggles : s.toggles.Perm t.toggles

end MarkupBinding
