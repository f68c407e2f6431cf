import MarkupBinding.Proofs.Schema.Declarations
import MarkupBinding.Proofs.Schema.Inference

/-!
# What extraction adds

A walk of extraction over markup with dotted paths adds a set of declarations to a component
(`Adds`): it reaches its end exactly if the set is consistent with what is declared already, and
then that and the set are declared. So what two walks one behind the other add is the union of what
each adds (`Adds.andThen`), and whether they reach their end does not hang on which comes first.
-/

set_option autoImplicit false
set_option relaxedAutoImplicit false

namespace MarkupBinding.Extraction

open Declaration (Consistent)

/-- The walk reaches its end exactly if the declarations are consistent with the component that it
starts at; then it has added them and nothing else. -/
structure Adds (root : Component) (w : Walk Component) (added : Set Declaration) : Prop where
  fault_iff : w.fault = none ↔ Consistent (root.facts ∪ added)
  facts_eq : w.fault = none → w.value.facts = root.facts ∪ added

variable {root : Component} {ancestors : Ancestors} {tag : Tag}

/-! ### Rules -/

section Rules

variable {w : Walk Component} {added more : Set Declaration}

/-- A walk that reaches its end ends at a component, so what it has added is consistent. -/
theorem Adds.of_facts_eq (hfault : w.fault = none) (h : w.value.facts = root.facts ∪ added) :
    Adds root w added where
  fault_iff := ⟨fun _ ↦ h ▸ w.value.consistent_facts, fun _ ↦ hfault⟩
  facts_eq _ := h

theorem Adds.of_not_consistent (hfault : w.fault ≠ none)
    (h : ¬ Consistent (root.facts ∪ added)) : Adds root w added where
  fault_iff := ⟨fun hnone ↦ absurd hnone hfault, fun hconsistent ↦ absurd hconsistent h⟩
  facts_eq hnone := absurd hnone hfault

theorem adds_done (root : Component) : Adds root (.done root) ∅ :=
  .of_facts_eq rfl (Set.union_empty _).symm

theorem adds_report (root : Component) (entry : Report) : Adds root (.report root entry) ∅ :=
  .of_facts_eq rfl (Set.union_empty _).symm

/-- A walk that stops adds a fault. -/
theorem adds_stop (root : Component) (e : BindError) (hfault : .fault ∈ added) :
    Adds root (.stop root e) added :=
  .of_not_consistent (by simp) fun h ↦ h.fault (Set.mem_union_right _ hfault)

/-- What the first part and the second part add, they add together. -/
theorem Adds.andThen {next : Component → Walk Component} (h : Adds root w added)
    (hnext : ∀ value, value.facts = root.facts ∪ added → Adds value (next value) more) :
    Adds root (w.andThen next) (added ∪ more) := by
  cases hfault : w.fault with
  | some e =>
    refine .of_not_consistent ?_ fun hconsistent ↦ ?_
    · rw [Walk.andThen, Walk.fault_chain, hfault]
      exact Option.some_ne_none e
    · have hnone := h.fault_iff.2 (hconsistent.mono
        (Set.union_subset_union_right _ Set.subset_union_left))
      rw [hfault] at hnone
      cases hnone
  | none =>
    have hfirst := h.facts_eq hfault
    obtain ⟨hiff, hfacts⟩ := hnext w.value hfirst
    rw [hfirst, Set.union_assoc] at hiff hfacts
    constructor
    · rw [Walk.andThen, Walk.fault_chain, hfault, Option.none_or, hiff]
    · intro hend
      rw [Walk.andThen, Walk.fault_chain, hfault, Option.none_or] at hend
      rw [Walk.andThen, Walk.value_chain hfault, hfacts hend]

/-- What each step adds for its item, all steps add together. -/
theorem adds_forEach {ι : Type} {step : ι → Component → Walk Component}
    {added : ι → Set Declaration} {items : List ι} :
    ∀ {root : Component},
      (∀ i ∈ items, ∀ value, root.facts ⊆ value.facts → Adds value (step i value) (added i)) →
      Adds root (.forEach step items root) {x | ∃ i ∈ items, x ∈ added i} := by
  induction items with
  | nil =>
    intro root _
    have hnone : {x | ∃ i ∈ ([] : List ι), x ∈ added i} = (∅ : Set Declaration) := by simp
    rw [hnone]
    exact adds_done root
  | cons i rest ih =>
    intro root hstep
    have hsplit : {x | ∃ j ∈ i :: rest, x ∈ added j} =
        added i ∪ {x | ∃ j ∈ rest, x ∈ added j} := by
      ext x
      simp
    rw [hsplit]
    refine (hstep i List.mem_cons_self root (Set.Subset.refl _)).andThen fun value hvalue ↦ ?_
    refine ih fun j hj later hlater ↦ hstep j (List.mem_cons_of_mem i hj) later ?_
    exact Set.Subset.trans (hvalue ▸ Set.subset_union_left) hlater

/-- What each visit adds for its node, the walk over siblings adds for all of them. -/
theorem adds_visitChildren {visit : Option Place → Node → Component → Walk Component}
    {hold : Option Place} {around : Around} {nodes : List Node} :
    ∀ {first : Nat} {root : Component},
      (∀ i n, nodes[i]? = some n → ∀ value, root.facts ⊆ value.facts →
        Adds value (visit (Binding.holdBelow (first + i) hold) n value)
          (declarations ancestors around n)) →
      Adds root (visitChildren visit hold first nodes root)
        (declarationsAll ancestors around nodes) := by
  induction nodes with
  | nil => exact fun _ ↦ adds_done _
  | cons n rest ih =>
    intro first root hvisit
    refine (hvisit 0 n rfl root (Set.Subset.refl _)).andThen fun value hvalue ↦ ?_
    refine ih fun i m hm later hlater ↦ ?_
    have hthis := hvisit (i + 1) m hm later
      (Set.Subset.trans (hvalue ▸ Set.subset_union_left) hlater)
    rwa [← Nat.add_assoc, Nat.add_right_comm] at hthis

end Rules

/-! ### Declarations -/

section Declarations

/-- Scopes keep their components where nothing that is declared is lost. -/
theorem Placed.of_facts_subset {later : Component} (h : Placed root ancestors)
    (hsub : root.facts ⊆ later.facts) : Placed later ancestors :=
  fun a ha ↦ Component.isSome_at?_of_facts_subset hsub (h a ha)

/-- The scope of a nested component that is declared has its component. -/
theorem Placed.push_of_mem_facts {address : Address} {name : String} {array : Bool}
    {itemName : Option String} (h : Placed root ancestors)
    (hdeclared : .component address name array itemName ∈ root.facts) (scope : String) :
    Placed root (ancestors.push scope (address ++ [name])) := by
  obtain ⟨inner, hinner, -⟩ := Component.mem_facts_component_iff.1 hdeclared
  refine h.push ?_
  rw [← Component.isSome_shellAt, hinner, Option.isSome_some]

/-- The owner of a dotted path is the innermost scope of its name. -/
theorem owner_of_isDotted {path : Path} (hdotted : path.isDotted = true)
    (declares : String → Component → Bool) (root : Component) (ancestors : Ancestors) :
    owner declares root ancestors path = path.scope.bind ancestors.named := by
  obtain ⟨scope, hscope⟩ := Option.isSome_iff_exists.1 hdotted
  simp only [owner, hscope, Option.bind_some]
  rfl

theorem mem_of_bind_named {path : Path} {a : Ancestor}
    (h : path.scope.bind ancestors.named = some a) : a ∈ ancestors.list := by
  obtain ⟨scope, -, hfound⟩ := Option.bind_eq_some_iff.1 h
  exact List.mem_of_find?_eq_some hfound

theorem adds_declareProperty (source : String) {path : Path} (hdotted : path.isDotted = true)
    (hplaced : Placed root ancestors) :
    Adds root (declareProperty ancestors source path root) (pathDeclarations ancestors path) := by
  simp only [declareProperty, pathDeclarations, owner_of_isDotted hdotted]
  cases howner : path.scope.bind ancestors.named with
  | none => exact adds_report root _
  | some a =>
    obtain ⟨inner, hinner⟩ := Option.isSome_iff_exists.1 (hplaced a (mem_of_bind_named howner))
    refine .of_facts_eq rfl ?_
    rw [Walk.value_done, Component.facts_modifyAt_addProperty hinner, Set.union_singleton]

/-- A nested component is declared unless one of another kind is. -/
theorem adds_declareComponent {address : Address} (name : String) (array : Bool)
    (itemName : Option String) (haddress : (root.at? address).isSome = true) :
    Adds root (declareComponent address name array itemName root)
      {.component address name array itemName} := by
  obtain ⟨inner, hinner⟩ := Option.isSome_iff_exists.1 haddress
  simp only [declareComponent, hinner]
  cases hadd : inner.addComponent name array itemName with
  | error e =>
    refine .of_not_consistent (by simp) ?_
    rw [Set.union_singleton]
    exact Component.not_consistent_of_addComponent_eq_error hinner hadd
  | ok changed =>
    refine .of_facts_eq rfl ?_
    rw [Walk.value_done, Component.facts_modifyAt_addComponent hinner hadd, Set.union_singleton]

/-- The text and the attributes of an element have dotted paths, its collection has one too and owns
exactly one element with an item mark. -/
structure Dotted (e : Tag × List Node) : Prop where
  text : ∀ raw path, e.1.mark? Mark.textContent = some raw → Path.ofBinding raw = .ok path →
    path.isDotted = true
  attributes : ∀ binding ∈ e.1.attributeBindings, ∀ segments,
    TemplateText.parse binding.2 = .ok segments → ∀ path ∈ segments.paths, path.isDotted = true
  regular : Regular e

instance (e : Tag × List Node) : Decidable (Dotted e) :=
  decidable_of_iff
    ((∀ raw ∈ e.1.mark? Mark.textContent,
        ∀ path ∈ (Path.ofBinding raw).toOption, path.isDotted = true) ∧
      (∀ binding ∈ e.1.attributeBindings, ∀ segments ∈ (TemplateText.parse binding.2).toOption,
        ∀ path ∈ segments.paths, path.isDotted = true) ∧ Regular e) <| by
    simp only [Option.mem_def, toOption_eq_some_iff]
    exact ⟨fun ⟨text, attributes, regular⟩ ↦ ⟨fun raw path hmark ↦ text raw hmark path, attributes,
      regular⟩, fun h ↦ ⟨fun raw hmark path ↦ h.text raw path hmark, h.attributes, h.regular⟩⟩

theorem adds_declareText {children : List Node} (hdotted : Dotted (tag, children))
    (hplaced : Placed root ancestors) :
    Adds root (declareText ancestors tag root) (textDeclarations ancestors tag) := by
  unfold declareText textDeclarations
  cases hmark : tag.mark? Mark.textContent with
  | none => exact adds_done root
  | some raw =>
    cases hpath : Path.ofBinding raw with
    | error e => simpa only [hpath] using adds_stop root (.expression e) (Set.mem_singleton _)
    | ok path =>
      simpa only [hpath] using
        adds_declareProperty raw (hdotted.text raw path hmark hpath) hplaced

theorem adds_declareAttribute {children : List Node} (hdotted : Dotted (tag, children))
    {binding : String × String} (hbinding : binding ∈ tag.attributeBindings)
    (hplaced : Placed root ancestors) :
    Adds root (declareAttribute ancestors binding root)
      (attributeDeclarations ancestors binding) := by
  unfold declareAttribute attributeDeclarations
  cases hparse : TemplateText.parse binding.2 with
  | error e => exact adds_stop root _ (Set.mem_singleton _)
  | ok segments =>
    exact adds_forEach fun path hpath value hvalue ↦ adds_declareProperty binding.2
      (hdotted.attributes binding hbinding segments hparse path hpath)
      (hplaced.of_facts_subset hvalue)

/-- The bindings of an element add what they declare. -/
theorem adds_declareBindings {children : List Node} (hdotted : Dotted (tag, children))
    (hplaced : Placed root ancestors) :
    Adds root (declareBindings ancestors tag root) (bindingDeclarations ancestors tag) := by
  have htext : Adds root ((Walk.report root (.visited tag ancestors)).andThen
      (declareText ancestors tag)) (∅ ∪ textDeclarations ancestors tag) :=
    (adds_report root _).andThen fun value hvalue ↦
      adds_declareText hdotted (hplaced.of_facts_subset (hvalue ▸ Set.subset_union_left))
  rw [Set.empty_union] at htext
  exact htext.andThen fun value hvalue ↦ adds_forEach fun binding hbinding later hlater ↦
    adds_declareAttribute hdotted hbinding (hplaced.of_facts_subset
      (Set.Subset.trans (hvalue ▸ Set.subset_union_left) hlater))

end Declarations

end MarkupBinding.Extraction
