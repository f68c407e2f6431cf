import MarkupBinding.Proofs.Schema.Growth
import MarkupBinding.Proofs.Schema.Invariants

/-!
# Distinct names in a schema

A schema that was read off a document declares a name at most once as a property and at most once
as a nested component, in every component at any depth (`Document.wellKeyed_extract`). Declaring
keeps this (`wellKeyed_addProperty`, `wellKeyed_addComponent`), also below an address
(`wellKeyed_modifyAt`), so extraction does (`Extraction.kept_wellKeyed`), and so does pruning
(`wellKeyed_prune`).
-/

set_option autoImplicit false
set_option relaxedAutoImplicit false

namespace MarkupBinding

namespace Component

mutual

/-- The component and all that are nested in it, at any depth. -/
def nodes : Component → List Component
  | ⟨properties, components, array, itemName⟩ =>
    ⟨properties, components, array, itemName⟩ :: nodesAll components

/-- Several components and all that are nested in them. -/
def nodesAll : List (String × Component) → List Component
  | [] => []
  | (_, c) :: rest => c.nodes ++ nodesAll rest

end

/-- At every depth the properties have distinct names, and so have the nested components. -/
def WellKeyed (c : Component) : Prop :=
  ∀ node ∈ c.nodes, (Keyed.keys node.properties).Nodup ∧ (Keyed.keys node.components).Nodup

/-- Induction over a component: it has the property when those nested in it have it. -/
@[elab_as_elim]
theorem induction_on_components {motive : Component → Prop}
    (step : ∀ properties components array itemName, (∀ pair ∈ components, motive pair.2) →
      motive ⟨properties, components, array, itemName⟩) : ∀ c, motive c
  | ⟨properties, components, array, itemName⟩ =>
    step properties components array itemName fun pair _ ↦ induction_on_components step pair.2
decreasing_by
  have hpair := List.sizeOf_lt_of_mem ‹pair ∈ components›
  have hinner : sizeOf pair.2 < sizeOf pair := by
    obtain ⟨name, inner⟩ := pair
    simp only [Prod.mk.sizeOf_spec]
    omega
  simp only [Component.mk.sizeOf_spec]
  omega

section Laws

variable {c d inner : Component} {name : String} {address : Address}

theorem mem_nodesAll_iff {components : List (String × Component)} {node : Component} :
    node ∈ nodesAll components ↔ ∃ pair ∈ components, node ∈ pair.2.nodes := by
  induction components with
  | nil => simp [nodesAll]
  | cons pair rest ih => simp [nodesAll, ih]

theorem mem_nodes_iff {node : Component} :
    node ∈ c.nodes ↔ node = c ∨ ∃ pair ∈ c.components, node ∈ pair.2.nodes := by
  obtain ⟨properties, components, array, itemName⟩ := c
  rw [nodes, List.mem_cons, mem_nodesAll_iff]

theorem mem_nodes_self (c : Component) : c ∈ c.nodes :=
  mem_nodes_iff.2 (Or.inl rfl)

/-- What is nested in a part of a component is nested in the component. -/
theorem nodes_subset_of_mem {pair : String × Component} (hpair : pair ∈ c.components) :
    pair.2.nodes ⊆ c.nodes :=
  fun _ hnode ↦ mem_nodes_iff.2 (Or.inr ⟨pair, hpair, hnode⟩)

/-- A statement about a component and all nested in it is one about the component and one about
those nested in its parts. -/
theorem forall_mem_nodes_iff {p : Component → Prop} :
    (∀ node ∈ c.nodes, p node) ↔ p c ∧ ∀ pair ∈ c.components, ∀ node ∈ pair.2.nodes, p node := by
  constructor
  · intro h
    exact ⟨h c (mem_nodes_self c), fun pair hpair node hnode ↦
      h node (nodes_subset_of_mem hpair hnode)⟩
  · rintro ⟨hself, hbelow⟩ node hnode
    rcases mem_nodes_iff.1 hnode with rfl | ⟨pair, hpair, hin⟩
    · exact hself
    · exact hbelow pair hpair node hin

/-- A component has distinct names at every depth when it has them itself and those nested in it
do. -/
theorem wellKeyed_iff :
    c.WellKeyed ↔ (Keyed.keys c.properties).Nodup ∧ (Keyed.keys c.components).Nodup ∧
      ∀ pair ∈ c.components, pair.2.WellKeyed := by
  rw [WellKeyed, forall_mem_nodes_iff, and_assoc]
  rfl

theorem wellKeyed_empty (array : Bool) (itemName : Option String) :
    (empty array itemName).WellKeyed :=
  wellKeyed_iff.2 ⟨List.nodup_nil, List.nodup_nil, fun _ h ↦ absurd h List.not_mem_nil⟩

theorem wellKeyed_addProperty (h : c.WellKeyed) (name : String) :
    (c.addProperty name).WellKeyed := by
  rw [addProperty]
  split
  · exact h
  · next hnew =>
    obtain ⟨hproperties, hcomponents, hbelow⟩ := wellKeyed_iff.1 h
    refine wellKeyed_iff.2 ⟨Keyed.nodup_keys_append hproperties ?_ textType, hcomponents, hbelow⟩
    rwa [← Keyed.has_eq_true_iff]

theorem wellKeyed_addComponent {array : Bool} {itemName : Option String} (h : c.WellKeyed)
    (hd : c.addComponent name array itemName = .ok d) : d.WellKeyed := by
  rw [addComponent] at hd
  cases hlookup : c.components.lookup name with
  | some declared =>
    simp only [hlookup] at hd
    split at hd
    · obtain rfl := Except.ok.inj hd
      exact h
    · cases hd
  | none =>
    simp only [hlookup] at hd
    obtain rfl := Except.ok.inj hd
    obtain ⟨hproperties, hcomponents, hbelow⟩ := wellKeyed_iff.1 h
    refine wellKeyed_iff.2 ⟨hproperties,
      Keyed.nodup_keys_append hcomponents (Keyed.not_mem_keys_of_lookup hlookup) _,
      fun pair hpair ↦ ?_⟩
    rcases List.mem_append.1 hpair with hold | hnew
    · exact hbelow pair hold
    · rw [List.mem_singleton.1 hnew]
      exact wellKeyed_empty array itemName

/-- What is nested in something at an address is nested in the component. -/
theorem nodes_subset_of_at? (h : c.at? address = some inner) : inner.nodes ⊆ c.nodes := by
  induction address generalizing c with
  | nil =>
    obtain rfl := Option.some.inj h
    exact List.Subset.refl _
  | cons name address ih =>
    rw [at?_cons] at h
    obtain ⟨found, hfound, hrest⟩ := Option.bind_eq_some_iff.1 h
    exact List.Subset.trans (ih hrest) (nodes_subset_of_mem (Keyed.mem_of_lookup hfound))

/-- What is at an address of a component is nested in it. -/
theorem mem_nodes_of_at? (h : c.at? address = some inner) : inner ∈ c.nodes :=
  nodes_subset_of_at? h (mem_nodes_self inner)

/-- What is at an address of a component with distinct names has distinct names. -/
theorem wellKeyed_at? (h : c.WellKeyed) (hinner : c.at? address = some inner) :
    inner.WellKeyed :=
  fun node hnode ↦ h node (nodes_subset_of_at? hinner hnode)

/-- Changing what is at an address to something with distinct names keeps names distinct. -/
theorem wellKeyed_modifyAt {f : Component → Component}
    (hf : ∀ d : Component, d.WellKeyed → (f d).WellKeyed) (address : Address) :
    ∀ {c : Component}, c.WellKeyed → (modifyAt f address c).WellKeyed := by
  induction address with
  | nil => exact fun h ↦ hf _ h
  | cons name address ih =>
    intro c h
    rw [modifyAt]
    cases hlookup : c.components.lookup name with
    | none => exact h
    | some inner =>
      obtain ⟨hproperties, hcomponents, hbelow⟩ := wellKeyed_iff.1 h
      refine wellKeyed_iff.2 ⟨hproperties, Keyed.nodup_keys_set hcomponents _ _, ?_⟩
      intro pair hpair
      rcases Keyed.mem_set hpair with rfl | hold
      · exact ih (hbelow _ (Keyed.mem_of_lookup hlookup))
      · exact hbelow pair hold

/-- Pruning leaves all of a component but its nested ones. -/
theorem prune_eq (c : Component) : c.prune = { c with components := pruneAll c.components } := by
  obtain ⟨properties, components, array, itemName⟩ := c
  rw [prune]

theorem array_prune (c : Component) : c.prune.array = c.array := by
  rw [prune_eq]

theorem itemName_prune (c : Component) : c.prune.itemName = c.itemName := by
  rw [prune_eq]

/-- The names that pruning keeps are some of those there were, in order. -/
theorem keys_pruneAll_sublist (components : List (String × Component)) :
    (Keyed.keys (pruneAll components)).Sublist (Keyed.keys components) := by
  induction components with
  | nil => exact List.Sublist.refl _
  | cons pair rest ih =>
    rw [pruneAll]
    split
    · exact ih.cons _
    · exact ih.cons_cons _

/-- What pruning keeps of several components is what takes something, each under its name. -/
theorem mem_pruneAll_iff {components : List (String × Component)} {pair : String × Component} :
    pair ∈ pruneAll components ↔
      ∃ original ∈ components, original.2.prune.isEmpty = false ∧
        pair = (original.1, original.2.prune) := by
  induction components with
  | nil => simp [pruneAll]
  | cons first rest ih =>
    rw [pruneAll]
    split
    · next hempty => simp [ih, hempty]
    · next hkept => simp [ih, hkept]

/-- Pruning keeps names distinct. -/
theorem wellKeyed_prune (c : Component) : c.WellKeyed → c.prune.WellKeyed := by
  induction c using induction_on_components with
  | step properties components array itemName ih =>
    intro h
    obtain ⟨hproperties, hcomponents, hbelow⟩ := wellKeyed_iff.1 h
    rw [prune]
    refine wellKeyed_iff.2 ⟨hproperties, hcomponents.sublist (keys_pruneAll_sublist components),
      fun pair hpair ↦ ?_⟩
    obtain ⟨original, hmem, -, rfl⟩ := mem_pruneAll_iff.1 hpair
    exact ih original hmem (hbelow original hmem)

end Laws

end Component

/-! ### Extraction -/

/-- Every declaration keeps names distinct. -/
theorem Extraction.kept_wellKeyed : Kept Component.WellKeyed where
  property address _ h :=
    Component.wellKeyed_modifyAt (fun _ hd ↦ Component.wellKeyed_addProperty hd _) address h
  component _ hc hchanged h :=
    Component.wellKeyed_modifyAt
      (fun _ _ ↦ Component.wellKeyed_addComponent (Component.wellKeyed_at? h hc) hchanged) _ h

/-- A schema read off a document has distinct names, and its toggle flags are those of the document.
-/
theorem Document.wellKeyed_extract {d : Document} {includeEmpty : Bool} {schema : Schema}
    (h : (d.extract includeEmpty).result = .ok (some schema)) :
    schema.root.WellKeyed ∧ schema.toggles = d.toggleFlags := by
  constructor
  · exact kept_extract Extraction.kept_wellKeyed (Component.wellKeyed_empty false none)
      Component.wellKeyed_prune h
  · obtain ⟨_, _, -, -, -, -, htoggles⟩ := exists_of_extract h
    exact htoggles

end MarkupBinding
