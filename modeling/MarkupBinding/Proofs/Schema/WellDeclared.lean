import MarkupBinding.Proofs.Markup.ToggleFlags
import MarkupBinding.Proofs.Schema.Keys

/-!
# Well-declared schemas

What the schemas that are read off documents look like (`Document.extract_wellDeclared`). At every
depth a component is a list exactly if its items have a scope, whose name is a label; properties and
lists are named by identifiers, single objects by labels, and every property is a text
(`Component.WellDeclared`). The outermost component is a single object, and the toggle flags are
those that the elements of the document carry.

Nothing of this hangs on the annotations being in order: an annotation that cannot be read stops the
walk, and every one that can be read declares under such names. Declaring under them keeps
components well-declared (`allWellDeclared_addProperty`, `addComponent_allWellDeclared`), also below
an address, which leaves the kind of the component itself (`allWellDeclared_modifyAt`), and pruning
does too.
-/

set_option autoImplicit false
set_option relaxedAutoImplicit false

namespace MarkupBinding

namespace Component

/-- The component has a kind and declares its parts as annotations can. -/
structure WellDeclared (c : Component) : Prop where
  array_iff : c.array = true ↔ c.itemName.isSome = true
  itemName : ∀ item, c.itemName = some item → Text.IsLabel item
  property : ∀ pair ∈ c.properties, Path.isIdentifier pair.1.toList = true ∧ pair.2 = "string"
  component : ∀ pair ∈ c.components,
    Text.IsLabel pair.1 ∧ (pair.2.array = true → Path.isIdentifier pair.1.toList = true)

/-- The component and all nested in it, at any depth, are well-declared. -/
def AllWellDeclared (c : Component) : Prop :=
  ∀ node ∈ c.nodes, node.WellDeclared

section Laws

variable {c d : Component} {name : String} {address : Address} {array : Bool}
  {itemName : Option String}

theorem allWellDeclared_iff :
    c.AllWellDeclared ↔ c.WellDeclared ∧ ∀ pair ∈ c.components, pair.2.AllWellDeclared :=
  forall_mem_nodes_iff

/-- A component that takes nothing is well-declared when it is of a kind that can be declared. -/
theorem allWellDeclared_empty (hkind : array = true ↔ itemName.isSome = true)
    (hitem : ∀ item, itemName = some item → Text.IsLabel item) :
    (empty array itemName).AllWellDeclared :=
  allWellDeclared_iff.2 ⟨⟨hkind, hitem, fun _ h ↦ absurd h List.not_mem_nil,
    fun _ h ↦ absurd h List.not_mem_nil⟩, fun _ h ↦ absurd h List.not_mem_nil⟩

theorem allWellDeclared_addProperty (h : c.AllWellDeclared)
    (hname : Path.isIdentifier name.toList = true) : (c.addProperty name).AllWellDeclared := by
  rw [addProperty]
  split
  · exact h
  · obtain ⟨hself, hbelow⟩ := allWellDeclared_iff.1 h
    refine allWellDeclared_iff.2 ⟨⟨hself.array_iff, hself.itemName, fun pair hpair ↦ ?_,
      hself.component⟩, hbelow⟩
    rcases List.mem_append.1 hpair with hold | hnew
    · exact hself.property pair hold
    · rw [List.mem_singleton.1 hnew]
      exact ⟨hname, rfl⟩

/-- A nested component under a name that can be declared keeps components well-declared, and the
kind of the one that it is declared on. -/
theorem addComponent_allWellDeclared (hdeclarable : Extraction.Declarable name array itemName)
    (hd : c.addComponent name array itemName = .ok d) (h : c.AllWellDeclared) :
    d.AllWellDeclared := by
  rw [addComponent] at hd
  split at hd
  · obtain rfl := Except.ok.inj hd
    obtain ⟨hself, hbelow⟩ := allWellDeclared_iff.1 h
    have hlabel : Text.IsLabel name ∧ (array = true → Path.isIdentifier name.toList = true) ∧
        (empty array itemName).AllWellDeclared := by
      cases hdeclarable with
      | list hname hitem =>
        refine ⟨Text.isLabel_of_isIdentifier hname, fun _ ↦ hname,
          allWellDeclared_empty (by simp) fun item hsome ↦ ?_⟩
        obtain rfl := Option.some.inj hsome
        exact hitem
      | single hname =>
        exact ⟨hname, fun harray ↦ absurd harray Bool.false_ne_true,
          allWellDeclared_empty (by simp) fun _ hsome ↦ by cases hsome⟩
    refine allWellDeclared_iff.2 ⟨⟨hself.array_iff, hself.itemName, hself.property,
      fun pair hpair ↦ ?_⟩, fun pair hpair ↦ ?_⟩
    · rcases List.mem_append.1 hpair with hold | hnew
      · exact hself.component pair hold
      · rw [List.mem_singleton.1 hnew]
        exact ⟨hlabel.1, hlabel.2.1⟩
    · rcases List.mem_append.1 hpair with hold | hnew
      · exact hbelow pair hold
      · rw [List.mem_singleton.1 hnew]
        exact hlabel.2.2
  · split at hd
    · obtain rfl := Except.ok.inj hd
      exact h
    · cases hd

/-- Changing what is at an address to something well-declared that has grown from it keeps
components well-declared. -/
theorem allWellDeclared_modifyAt {f : Component → Component}
    (hf : ∀ inner, c.at? address = some inner → inner.AllWellDeclared →
      (f inner).AllWellDeclared ∧ inner.GrowsTo (f inner)) (h : c.AllWellDeclared) :
    (modifyAt f address c).AllWellDeclared := by
  induction address generalizing c with
  | nil => exact (hf c rfl h).1
  | cons name address ih =>
    rw [modifyAt]
    cases hlookup : c.components.lookup name with
    | none => exact h
    | some inner =>
      obtain ⟨hself, hbelow⟩ := allWellDeclared_iff.1 h
      have hmem := Keyed.mem_of_lookup hlookup
      have hinner : ∀ found, inner.at? address = some found → found.AllWellDeclared →
          (f found).AllWellDeclared ∧ found.GrowsTo (f found) := by
        intro found hfound
        apply hf
        rw [at?_cons, hlookup]
        exact hfound
      -- the nested component stays of its kind
      have harray : (modifyAt f address inner).array = inner.array := by
        have hgrows : inner.GrowsTo (modifyAt f address inner) :=
          growsTo_modifyAt fun found hfound ↦ (hinner found hfound
            fun node hnode ↦ hbelow _ hmem node (nodes_subset_of_at? hfound hnode)).2
        obtain ⟨later, hlater, hsame, -⟩ := hgrows [] inner rfl
        rw [Option.some.inj hlater]
        exact hsame
      refine allWellDeclared_iff.2 ⟨⟨hself.array_iff, hself.itemName, hself.property,
        fun pair hpair ↦ ?_⟩, fun pair hpair ↦ ?_⟩
      · rcases Keyed.mem_set hpair with rfl | hold
        · rw [harray]
          exact hself.component _ hmem
        · exact hself.component pair hold
      · rcases Keyed.mem_set hpair with rfl | hold
        · exact ih hinner (hbelow _ hmem)
        · exact hbelow pair hold

/-- Pruning keeps components well-declared. -/
theorem allWellDeclared_prune (c : Component) : c.AllWellDeclared → c.prune.AllWellDeclared := by
  induction c using induction_on_components with
  | step properties components array itemName ih =>
    intro h
    obtain ⟨hself, hbelow⟩ := allWellDeclared_iff.1 h
    rw [prune]
    refine allWellDeclared_iff.2 ⟨⟨hself.array_iff, hself.itemName, hself.property,
      fun pair hpair ↦ ?_⟩, fun pair hpair ↦ ?_⟩
    · obtain ⟨original, hmem, -, rfl⟩ := mem_pruneAll_iff.1 hpair
      rw [array_prune]
      exact hself.component original hmem
    · obtain ⟨original, hmem, -, rfl⟩ := mem_pruneAll_iff.1 hpair
      exact ih original hmem (hbelow original hmem)

end Laws

end Component

/-! ### Extraction -/

/-- Every declaration keeps components well-declared, and the outermost one a single object. -/
theorem Extraction.kept_allWellDeclared :
    Kept fun c ↦ c.AllWellDeclared ∧ c.array = false ∧ c.itemName = none where
  property := by
    intro root name address hname ⟨hroot, harray, hitem⟩
    have hgrows : root.GrowsTo (root.modifyAt (·.addProperty name) address) :=
      Component.growsTo_modifyAt fun inner _ ↦ Component.growsTo_addProperty inner name
    obtain ⟨later, hlater, hsame, hsameItem, -⟩ := hgrows [] root rfl
    obtain rfl := Option.some.inj hlater
    refine ⟨Component.allWellDeclared_modifyAt (fun inner _ hinner ↦ ?_) hroot,
      hsame.trans harray, hsameItem.trans hitem⟩
    exact ⟨Component.allWellDeclared_addProperty hinner hname,
      Component.growsTo_addProperty inner name⟩
  component := by
    intro root c changed address name array itemName hdeclarable hc hchanged ⟨hroot, harray, hitem⟩
    have hinner : ∀ inner, root.at? address = some inner → inner.AllWellDeclared →
        changed.AllWellDeclared ∧ inner.GrowsTo changed := by
      intro inner hinner hdeclared
      obtain rfl := Option.some.inj (hc.symm.trans hinner)
      exact ⟨Component.addComponent_allWellDeclared hdeclarable hchanged hdeclared,
        (Component.addComponent_eq_ok hchanged).1⟩
    have hgrows : root.GrowsTo (root.modifyAt (fun _ ↦ changed) address) := by
      refine Component.growsTo_modifyAt fun inner hat ↦ ?_
      obtain rfl := Option.some.inj (hc.symm.trans hat)
      exact (Component.addComponent_eq_ok hchanged).1
    obtain ⟨later, hlater, hsame, hsameItem, -⟩ := hgrows [] root rfl
    obtain rfl := Option.some.inj hlater
    exact ⟨Component.allWellDeclared_modifyAt hinner hroot, hsame.trans harray,
      hsameItem.trans hitem⟩

namespace Document

variable {d : Document} {includeEmpty : Bool} {schema : Schema}

/-- The components of a schema that is read off a document are well-declared, the outermost one as
a single object. -/
theorem allWellDeclared_extract (h : (d.extract includeEmpty).result = .ok (some schema)) :
    schema.root.AllWellDeclared ∧ schema.root.array = false ∧ schema.root.itemName = none := by
  apply kept_extract Extraction.kept_allWellDeclared _ _ h
  · exact ⟨Component.allWellDeclared_empty (by simp) fun _ hsome ↦ (by cases hsome), rfl, rfl⟩
  · intro c ⟨hc, harray, hitem⟩
    exact ⟨Component.allWellDeclared_prune c hc, (Component.array_prune c).trans harray,
      (Component.itemName_prune c).trans hitem⟩

/-- No tag declares a component when all marks that would are blank. -/
theorem forall_declaresComponent_eq_false_iff :
    (∀ t ∈ d.tags, t.declaresComponent = false) ↔
      ∀ t ∈ d.tags, ∀ raw, t.attr? Mark.component = some raw → Text.isBlankText raw = true := by
  refine forall₂_congr fun t _ ↦ ?_
  rw [Tag.declaresComponent, Tag.mark?]
  cases t.attr? Mark.component with
  | none => simp
  | some raw => cases hblank : Text.isBlankText raw <;> simp [hblank]

/-- Nothing is read off a document exactly if every mark for a component is blank. A schema that is
read off it is named by a label, its components are well-declared at every depth, the outermost one
is a single object, and it lists the toggle flags of the document. -/
theorem extract_wellDeclared (d : Document) (includeEmpty : Bool) :
    ((d.extract includeEmpty).result = .ok none ↔
      ∀ t ∈ d.tags, ∀ raw, t.attr? Mark.component = some raw → Text.isBlankText raw = true) ∧
    ∀ schema, (d.extract includeEmpty).result = .ok (some schema) →
      (∀ node ∈ schema.root.nodes, node.WellDeclared) ∧ Text.IsLabel schema.name ∧
        schema.root.array = false ∧ schema.root.itemName = none ∧
        d.ListsFlags schema.toggles := by
  constructor
  · rw [extract_eq_ok_none_iff, outermostComponent?_eq_none_iff,
      forall_declaresComponent_eq_false_iff]
  · intro schema h
    obtain ⟨hdeclared, harray, hitem⟩ := allWellDeclared_extract h
    obtain ⟨tag, children, -, hname, -, -, htoggles⟩ := exists_of_extract h
    refine ⟨hdeclared, Tag.isLabel_of_mark? hname, harray, hitem, ?_⟩
    rw [htoggles]
    exact listsFlags_toggleFlags d

/-- A page about a club: a flag around the component and inside it, a list of members, and a blank
mark. -/
def clubPage : Document :=
  [.element ⟨"body", [(Mark.toggleable, .plain "open")]⟩
    [.element ⟨"main", [(Mark.component, .plain " club ")]⟩
      [.element ⟨"h1", [(Mark.textContent, .plain "club.title"), (Mark.toggleable, .plain "news")]⟩
          [],
        .element ⟨"p", [(Mark.component, .plain "  "), (Mark.toggleable, .plain "open")]⟩ [],
        .element ⟨"ul", [(Mark.collection, .plain "club.members")]⟩
          [.element ⟨"li", [(Mark.collectionItem, .plain " a member "),
            (Mark.component, .plain "first seat")]⟩ []]]]]

/-- The schema of the page with all its components. -/
def clubSchema : Schema :=
  ⟨"club", ⟨[("title", textType)],
    [("members", ⟨[], [("first seat", .empty false none)], true, some "a member"⟩)], false, none⟩,
    ["open", "news"]⟩

theorem extract_wellDeclared_clubPage :
    (clubPage.extract true).result = .ok (some clubSchema) ∧
      (∀ node ∈ clubSchema.root.nodes, node.WellDeclared) ∧ Text.IsLabel clubSchema.name ∧
        clubSchema.root.array = false ∧ clubSchema.root.itemName = none ∧
        clubPage.ListsFlags clubSchema.toggles := by
  have hextract : (clubPage.extract true).result = .ok (some clubSchema) := by rfl
  exact ⟨hextract, (extract_wellDeclared clubPage true).2 clubSchema hextract⟩

end Document

end MarkupBinding
