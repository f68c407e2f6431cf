import MarkupBinding.Proofs.Schema.Outermost

/-!
# Templates and conforming data

What a template promises to those who fill it in: data that conforms to the schema extracted from a
document can be bound into the document, if the outermost component is called like the root scope.
No path stops the walk, and no binding is left open: on every element that is visited, each path in
a text, in a placeholder of an attribute and of a collection has a value, that of a collection a
list (`fulfilled_of_conforms`). Both walks go through the same scopes: the scopes that an element is
bound under have the names of those inside which extraction saw it, and values that conform to their
components.
-/

set_option autoImplicit false
set_option relaxedAutoImplicit false

namespace MarkupBinding.Binding

variable {schema : Schema} {d : Document} {tag : Tag} {children : List Node} {input : Value}

/-- An element that says nothing about data has no bindings to fulfil. -/
theorem fulfilled_of_not_isAnnotated {stack : Stack} (h : tag.isAnnotated = false) :
    Fulfilled stack tag := by
  obtain ⟨-, htext, hbindings, hcollection⟩ := Tag.marks_of_not_isAnnotated h
  constructor
  · intro raw hraw
    rw [htext] at hraw
    cases hraw
  · intro binding hbinding
    rw [hbindings] at hbinding
    cases hbinding
  · intro raw hraw
    rw [hcollection] at hraw
    cases hraw

/-- Data that conforms to the schema of a document whose outermost component is called like the root
scope: no path stops the walk, and on every element that is visited all paths resolve, under scopes
that mirror those inside which extraction saw the element. -/
theorem fulfilled_of_conforms (h : schema.Describes d tag children)
    (hname : schema.name = rootScope)
    (honly : ∀ t ∈ Node.tagsAll children, t.mark? Mark.component ≠ some rootScope)
    (hinput : schema.root.conforms input = true) :
    (∀ e, (d.bind input).fault ≠ some (.resolution e)) ∧
      ∀ t cs stack, Report.visited t cs stack ∈ (d.bind input).reports →
        Fulfilled stack t ∧ (t.isAnnotated = false ∧ stack = .root input ∨
          ∃ ancestors original, d.Sees original ancestors ∧
            (t = original ∨ t = original.erase Mark.collectionItem) ∧
            stack.names = ancestors.names ∧ Mirrors schema.root [] stack ancestors) := by
  have hmirrors : Mirrors schema.root [] (.root input) ⟨⟨schema.name, []⟩, []⟩ :=
    ⟨[⟨rootScope, input⟩], rfl, .cons ⟨hname.symm, schema.root, rfl, hinput⟩ .nil⟩
  -- the outermost component does not open its scope a second time
  have henter : enter (.root input) tag = .root input := by
    rw [enter, h.mark?_component, hname]
    rfl
  have hown : Fulfilled (.root input) tag := by
    apply fulfilled_of_declared hmirrors h.covers.declared (Or.inl rfl)
    intro raw hmark
    obtain ⟨address, hlist, -⟩ := h.covers.collection raw hmark
    exact ⟨address, hlist⟩
  have hsuitable : Suitable (Node.filterOffAll input.switchesOff children).1 [] :=
    h.suitable input.switchesOff fun _ ↦ honly
  have hfirst : ∀ u, Visit.LeadsTo ⟨.root input, none,
      .element tag (Node.filterOffAll input.switchesOff children).1⟩ u →
      Agrees d.Sees schema.root [] u ∧
        u.From (Node.filterOffAll input.switchesOff children).1 := by
    intro u hu
    have hopen : Mirrors schema.root [] (enter (.root input) tag) ⟨⟨schema.name, []⟩, []⟩ := by
      rw [henter]
      exact hmirrors
    exact h.agrees_of_leadsTo input.switchesOff hopen (fun _ _ _ _ ↦ hmirrors) hu
  constructor
  · intro e hfault
    rw [h.fault_bind] at hfault
    split at hfault
    · exact hown.not_fails h.keepsMarks e (fails_of_fault_run hfirst hsuitable hfault)
    · cases hfault
  · intro t cs stack hvisited
    rcases Document.visited_of_confinedTo (h.confinedTo_filterOff input) hvisited with
      ⟨hplain, rfl⟩ | hmem
    · exact ⟨fulfilled_of_not_isAnnotated hplain, Or.inl ⟨hplain, rfl⟩⟩
    · obtain ⟨hold, hheld, hv⟩ := Visit.leadsTo_of_visited hmem
      rcases agrees_of_reflTransGen hfirst hsuitable hv with heq | ⟨hagrees, hfrom⟩
      · obtain ⟨rfl, -, hnode⟩ := Visit.mk.inj heq
        obtain ⟨rfl, -⟩ := Node.element.inj hnode
        exact ⟨hown, Or.inr ⟨_, t, h.covers.declared.seen, Or.inl rfl, hmirrors.names_eq, hmirrors⟩⟩
      · obtain ⟨hfulfilled, ancestors, original, hinside, hsame, hseen⟩ :=
          hagrees.fulfilled hfrom.hold hheld
        exact ⟨hfulfilled, Or.inr ⟨ancestors, original, hseen, hsame, hinside.names_eq, hinside⟩⟩

/-- What the outermost component of a page holds: a title, a component, and a list with its stencil
in a wrapper. -/
def profileParts : List Node :=
  [.element ⟨"h1", [(Mark.textContent, .plain "title")]⟩ [],
    .element ⟨"section", [(Mark.component, .plain "author")]⟩
      [.element ⟨"p", [(Mark.textContent, .plain "author.name")]⟩ []],
    .element ⟨"ul", [(Mark.collection, .plain "root.posts")]⟩
      [.element ⟨"div", []⟩
        [.element ⟨"li", [(Mark.collectionItem, .plain "post"),
          (Mark.textContent, .plain "post.title")]⟩ []]]]

/-- The page with an outermost component of the given name. -/
def profilePage (name : String) : Document :=
  [.element ⟨"body", []⟩ [.element ⟨"main", [(Mark.component, .plain name)]⟩ profileParts]]

/-- The schema of the page. -/
def profileSchema : Schema :=
  ⟨"root", ⟨[("title", textType)], [("author", ⟨[("name", textType)], [], false, none⟩),
    ("posts", ⟨[("title", textType)], [], true, some "post"⟩)], false, none⟩, []⟩

theorem fulfilled_of_conforms_profilePage :
    let tag : Tag := ⟨"main", [(Mark.component, .plain "root")]⟩
    let post := Value.object [("title", .string "Two")]
    let input := Value.object [("title", .string "Log"),
      ("author", .object [("name", .string "Ada")]),
      ("posts", .list [.object [("title", .string "One")], post])]
    let copied : Tag := ⟨"li", [(Mark.textContent, .plain "post.title")]⟩
    let inside := (Stack.root input).push "post" post
    profileSchema.Describes (profilePage "root") tag profileParts ∧
      profileSchema.root.conforms input = true ∧
      (∀ e, ((profilePage "root").bind input).fault ≠ some (.resolution e)) ∧
      Report.visited copied [] inside ∈ ((profilePage "root").bind input).reports ∧
      Fulfilled inside copied := by
  intro tag post input copied inside
  have hdescribes : profileSchema.Describes (profilePage "root") tag profileParts :=
    { outermost := by rfl
      extracted := ⟨by decide +kernel, by rfl⟩
      complete := by decide +kernel
      confined := fun n hn ↦ by
        obtain rfl := List.mem_singleton.1 hn
        refine .element (by decide +kernel) fun m hm ↦ ?_
        obtain rfl := List.mem_singleton.1 hm
        exact .self
      regular := by decide +kernel
      marks := by decide +kernel }
  have hconforms : profileSchema.root.conforms input = true := by decide +kernel
  have hcopy : Report.visited copied [] inside ∈ ((profilePage "root").bind input).reports :=
    List.mem_of_getElem? (i := 8) (by rfl)
  obtain ⟨hresolution, hvisited⟩ :=
    fulfilled_of_conforms hdescribes (by decide) (by decide +kernel) hconforms
  exact ⟨hdescribes, hconforms, hresolution, hcopy, (hvisited copied [] inside hcopy).1⟩

end MarkupBinding.Binding
