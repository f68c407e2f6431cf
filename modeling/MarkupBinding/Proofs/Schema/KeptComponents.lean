import MarkupBinding.Proofs.Schema.Keys

/-!
# The components that pruning keeps

A component bears data (`Component.BearsData`) if a property is declared in it or in something
nested in it, at any depth. Pruning decides bottom up: a nested component goes if nothing is left of
it once those nested in it are pruned. It is left empty exactly if it bears no data
(`isEmpty_prune_eq_false_iff`), so that the nested components that pruning keeps are those that bear
data, in order and pruned themselves (`pruneAll_eq`). By induction on the address the same holds at
every depth (`liesAt_prune_iff`): what bears data lies below components that bear data
(`BearsData.of_liesAt`), and so none of them goes. What is kept is not empty and bears data still,
so that pruning again takes nothing away (`prune_prune`).
-/

set_option autoImplicit false
set_option relaxedAutoImplicit false

namespace MarkupBinding.Component

/-- Some property is declared in the component or in something nested in it. -/
def BearsData (c : Component) : Prop :=
  ∃ node ∈ c.nodes, node.properties ≠ []

instance : DecidablePred BearsData := fun c ↦
  inferInstanceAs (Decidable (∃ node ∈ c.nodes, node.properties ≠ []))

/-- The second component is the first one, or nested in it below the names of the address. -/
inductive LiesAt : Component → Address → Component → Prop
  | here (c : Component) : LiesAt c [] c
  | within {c inner node : Component} {name : String} {address : Address}
      (hinner : (name, inner) ∈ c.components) (h : LiesAt inner address node) :
      LiesAt c (name :: address) node

section Laws

variable {c inner node : Component} {name : String} {address : Address}

/-- Data is borne by a component's own properties or by its nested components. -/
theorem bearsData_iff :
    c.BearsData ↔ c.properties ≠ [] ∨ ∃ pair ∈ c.components, pair.2.BearsData := by
  constructor
  · rintro ⟨node, hnode, hproperties⟩
    rcases mem_nodes_iff.1 hnode with rfl | ⟨pair, hpair, hin⟩
    · exact Or.inl hproperties
    · exact Or.inr ⟨pair, hpair, node, hin, hproperties⟩
  · rintro (hproperties | ⟨pair, hpair, node, hnode, hproperties⟩)
    · exact ⟨c, mem_nodes_self c, hproperties⟩
    · exact ⟨node, nodes_subset_of_mem hpair hnode, hproperties⟩

theorem isEmpty_eq_false_iff :
    c.isEmpty = false ↔ c.properties ≠ [] ∨ ∃ pair, pair ∈ c.components := by
  rw [isEmpty, Bool.and_eq_false_iff, List.isEmpty_eq_false_iff,
    List.isEmpty_eq_false_iff_exists_mem]

/-- Pruning leaves something of a component exactly if it bears data. -/
theorem isEmpty_prune_eq_false_iff (c : Component) : c.prune.isEmpty = false ↔ c.BearsData := by
  induction c using induction_on_components with
  | step properties components array itemName ih =>
    have hkept : (∃ pair, pair ∈ pruneAll components) ↔
        ∃ pair ∈ components, pair.2.BearsData := by
      constructor
      · rintro ⟨_, hmem⟩
        obtain ⟨pair, hpair, hleft, -⟩ := mem_pruneAll_iff.1 hmem
        exact ⟨pair, hpair, (ih pair hpair).1 hleft⟩
      · rintro ⟨pair, hpair, hbears⟩
        exact ⟨_, mem_pruneAll_iff.2 ⟨pair, hpair, (ih pair hpair).2 hbears, rfl⟩⟩
    rw [isEmpty_eq_false_iff, bearsData_iff, prune_eq]
    exact or_congr_right hkept

/-- Of nested components pruning keeps those that bear data, in order and pruned themselves. -/
theorem pruneAll_eq (components : List (String × Component)) :
    pruneAll components = (components.filter fun pair ↦ pair.2.BearsData).map
      fun pair ↦ (pair.1, pair.2.prune) := by
  induction components with
  | nil => rfl
  | cons first rest ih =>
    obtain ⟨name, c⟩ := first
    rw [pruneAll]
    by_cases hbears : c.BearsData
    · have hleft := (isEmpty_prune_eq_false_iff c).2 hbears
      rw [if_neg (by simp [hleft]), List.filter_cons_of_pos (by simpa using hbears), List.map_cons,
        ih]
    · have hempty : c.prune.isEmpty = true := by
        rw [← Bool.not_eq_false, isEmpty_prune_eq_false_iff]
        exact hbears
      rw [if_pos hempty, List.filter_cons_of_neg (by simpa using hbears), ih]

theorem mem_components_prune_iff :
    (name, node) ∈ c.prune.components ↔
      ∃ inner, (name, inner) ∈ c.components ∧ inner.BearsData ∧ node = inner.prune := by
  rw [prune_eq]
  simp only [mem_pruneAll_iff, isEmpty_prune_eq_false_iff, Prod.mk.injEq]
  constructor
  · rintro ⟨⟨_, inner⟩, hmem, hbears, rfl, rfl⟩
    exact ⟨inner, hmem, hbears, rfl⟩
  · rintro ⟨inner, hmem, hbears, rfl⟩
    exact ⟨_, hmem, hbears, rfl, rfl⟩

/-- What is nested in a component bears data for it. -/
theorem BearsData.of_liesAt (hnode : node.BearsData) (h : c.LiesAt address node) :
    c.BearsData := by
  induction h with
  | here => exact hnode
  | within hinner _ ih => exact bearsData_iff.2 (Or.inr ⟨_, hinner, ih hnode⟩)

theorem liesAt_cons_iff :
    c.LiesAt (name :: address) node ↔
      ∃ inner, (name, inner) ∈ c.components ∧ inner.LiesAt address node := by
  constructor
  · rintro (_ | ⟨hinner, h⟩)
    exact ⟨_, hinner, h⟩
  · rintro ⟨inner, hinner, h⟩
    exact .within hinner h

/-- Pruning keeps, in its place, what bears data: by induction on the address, since all on the way
to it bears data as well. -/
theorem liesAt_prune_iff (hbelow : address ≠ []) :
    c.prune.LiesAt address node ↔
      ∃ original, c.LiesAt address original ∧ original.BearsData ∧ node = original.prune := by
  induction address generalizing c with
  | nil => exact absurd rfl hbelow
  | cons name address ih =>
    simp only [liesAt_cons_iff, mem_components_prune_iff]
    constructor
    · rintro ⟨_, ⟨inner, hinner, hbears, rfl⟩, h⟩
      cases address with
      | nil =>
        cases h
        exact ⟨inner, ⟨inner, hinner, .here inner⟩, hbears, rfl⟩
      | cons next address =>
        obtain ⟨original, horiginal, hkept, rfl⟩ := (ih (by simp)).1 h
        exact ⟨original, ⟨inner, hinner, horiginal⟩, hkept, rfl⟩
    · rintro ⟨original, ⟨inner, hinner, horiginal⟩, hkept, rfl⟩
      refine ⟨_, ⟨inner, hinner, hkept.of_liesAt horiginal, rfl⟩, ?_⟩
      cases address with
      | nil =>
        cases horiginal
        exact .here _
      | cons next address => exact (ih (by simp)).2 ⟨original, horiginal, hkept, rfl⟩

/-- Pruning again takes nothing away. -/
theorem prune_prune (c : Component) : c.prune.prune = c.prune := by
  induction c using induction_on_components with
  | step properties components array itemName ih =>
    have hagain : pruneAll (pruneAll components) = pruneAll components := by
      rw [pruneAll_eq components, pruneAll_eq, List.filter_map, List.map_map, List.filter_filter]
      have hstill : ∀ pair ∈ components, pair.2.prune.BearsData ↔ pair.2.BearsData := by
        intro pair hpair
        rw [← isEmpty_prune_eq_false_iff, ih pair hpair, isEmpty_prune_eq_false_iff]
      have hfilter : components.filter (fun pair ↦
          decide pair.2.prune.BearsData && decide pair.2.BearsData) =
            components.filter fun pair ↦ pair.2.BearsData :=
        List.filter_congr fun pair hpair ↦ by simp [hstill pair hpair]
      refine (congrArg _ hfilter).trans (List.map_congr_left fun pair hpair ↦ ?_)
      exact congrArg (Prod.mk pair.1) (ih pair (List.mem_filter.1 hpair).1)
    rw [prune, prune, hagain]

end Laws

/-- Pruning keeps a component with its properties, kind and item name, and of what is nested in it
exactly what bears data: of the nested components of each component in order, and at every address.
Nothing that is nested in the result is empty, and pruning again changes nothing. -/
theorem prune_keeps_bearing (c : Component) :
    c.prune = { c with
      components := (c.components.filter fun pair ↦ pair.2.BearsData).map
        fun pair ↦ (pair.1, pair.2.prune) } ∧
    (∀ name address node, c.prune.LiesAt (name :: address) node ↔
      ∃ original, c.LiesAt (name :: address) original ∧ original.BearsData ∧
        node = original.prune) ∧
    (∀ name address node, c.prune.LiesAt (name :: address) node → node.isEmpty = false) ∧
    c.prune.prune = c.prune := by
  have hplaces : ∀ name address node, c.prune.LiesAt (name :: address) node ↔
      ∃ original, c.LiesAt (name :: address) original ∧ original.BearsData ∧
        node = original.prune :=
    fun name address node ↦ liesAt_prune_iff (List.cons_ne_nil name address)
  refine ⟨?_, hplaces, fun name address node hnode ↦ ?_, c.prune_prune⟩
  · rw [prune_eq, pruneAll_eq]
  · obtain ⟨original, -, hbears, rfl⟩ := (hplaces name address node).1 hnode
    exact (isEmpty_prune_eq_false_iff original).2 hbears

end MarkupBinding.Component
