import MarkupBinding.Proofs.Schema.Tracking

/-!
# Binding conforming data in step with extraction

Scopes with values that conform to the components of the scopes of extraction track these
(`tracks_mirrors`). So the walk over data that conforms to a schema goes in step with the extraction
of the schema: a visit `Agrees` with extraction when its scopes mirror scopes of extraction inside
which its node is covered, and so do all visits that it leads to (`agrees_of_reflTransGen`). All
paths in the bindings of an element that is visited so resolve, that of a collection to a list
(`Agrees.fulfilled`), so that no such visit fails at a path (`Agrees.not_fails`).
-/

set_option autoImplicit false
set_option relaxedAutoImplicit false

namespace MarkupBinding.Binding

open Extraction

/-- The scopes of a visit mirror scopes of extraction inside which its node, or the stencil that it
is a copy of, is covered. -/
def Agrees (seen : Tag → Ancestors → Prop) (root : Component) (outside : List Scope) (v : Visit) :
    Prop :=
  ∃ ancestors around n, Mirrors root outside v.stack ancestors ∧
    Covers seen root ancestors around n ∧ (v.node = n ∨ v.hold = none ∧ v.node = copyOf n) ∧
    (v.hold = none → around = none) ∧ (v.hold ≠ none → n.itemCount ≤ 1)

variable {seen : Tag → Ancestors → Prop} {root : Component} {outside : List Scope} {stack : Stack}
  {hold : Option Place} {ancestors : Ancestors} {tag : Tag} {children : List Node}

/-- Scopes of conforming values are kept by opening scopes, and declared paths resolve under them.
-/
theorem tracks_mirrors (root : Component) (outside : List Scope) :
    Tracks root outside (Mirrors root outside) where
  resolves hmirrors hdeclares := hmirrors.resolves hdeclares
  enter hmirrors hmark hnested hsingle hroot := by
    refine hmirrors.enter hmark hnested hsingle fun hname ↦ ?_
    by_cases houtside : outside = []
    · exact absurd hname (hroot houtside)
    · exact hmirrors.isRoot_eq_false houtside
  item hmirrors hlist hitems hitem name := by
    obtain ⟨path, items', c, hpath, hvalue, hc, hconforms⟩ := hmirrors.exists_items hlist
    obtain rfl := Option.some.inj ((itemsFor_of_list hpath hvalue).2.symm.trans hitems)
    exact hmirrors.push hc (hconforms _ hitem)

/-! ### Declared bindings -/

/-- Every path in the bindings of an element resolves, that of a collection to a list. -/
structure Fulfilled (stack : Stack) (tag : Tag) : Prop where
  text : ∀ raw, tag.mark? Mark.textContent = some raw →
    ∃ path, Path.ofBinding raw = .ok path ∧ stack.Resolves path
  attributes : ∀ binding ∈ tag.attributeBindings,
    ∃ segments, TemplateText.parse binding.2 = .ok segments ∧
      ∀ path ∈ segments.paths, stack.Resolves path
  collection : ∀ raw, tag.mark? Mark.collection = some raw →
    ∃ path items, Path.ofBinding raw = .ok path ∧ stack.resolve path = .ok (.list items)

section Bindings

/-- Under scopes of conforming values, bindings are fulfilled if the paths in texts and attributes
resolve and the list of a collection is declared. -/
theorem PathsResolve.fulfilled (h : PathsResolve stack tag)
    (hmirrors : Mirrors root outside stack ancestors)
    (hlist : ∀ raw, tag.mark? Mark.collection = some raw →
      ∃ address, DeclaresList root ancestors raw address) : Fulfilled stack tag := by
  refine ⟨h.text, h.attributes, fun raw hmark ↦ ?_⟩
  obtain ⟨address, hdeclares⟩ := hlist raw hmark
  obtain ⟨path, items, _, hpath, hvalue, -⟩ := hmirrors.exists_items hdeclares
  exact ⟨path, items, hpath, hvalue⟩

/-- Bindings that the schema declares are fulfilled; a copy of a stencil has those of the stencil.
-/
theorem fulfilled_of_declared {original : Tag} (hmirrors : Mirrors root outside stack ancestors)
    (hdeclared : Declared seen root ancestors original)
    (htag : tag = original ∨ tag = original.erase Mark.collectionItem)
    (hlist : ∀ raw, tag.mark? Mark.collection = some raw →
      ∃ address, DeclaresList root ancestors raw address) : Fulfilled stack tag :=
  ((tracks_mirrors root outside).pathsResolve hmirrors hdeclared htag).fulfilled hmirrors hlist

/-- Fulfilled bindings do not stop the walk. -/
theorem Fulfilled.not_fails (h : Fulfilled stack tag) (hkeeps : tag.KeepsMarks)
    (e : ResolutionError) :
    ¬ Visit.Fails ⟨stack, hold, .element tag children⟩ (.resolution e) := by
  intro hfails
  obtain ⟨raw, hcollection, hfault⟩ :=
    PathsResolve.exists_items_of_fails ⟨h.text, h.attributes⟩ hfails
  rw [mark?_bindAttributes_of_keepsMarks hkeeps (by decide)] at hcollection
  obtain ⟨path, items, hpath, hvalue⟩ := h.collection _ hcollection
  rw [(itemsFor_of_list hpath hvalue).1] at hfault
  cases hfault

end Bindings

/-! ### Visits -/

section Visits

open Relation

variable {forest : List Node} {v w : Visit}

/-- At a visit that agrees all bindings are fulfilled, and extraction saw the element inside the
scopes that those of the visit mirror. -/
theorem Agrees.fulfilled (h : Agrees seen root outside ⟨stack, hold, .element tag children⟩)
    (hhold : ∀ place, hold = some place →
      Node.stencilIn 0 (.element tag children) = some (0 :: place))
    (hheld : isHeld hold = false) :
    Fulfilled stack tag ∧ ∃ ancestors original, Mirrors root outside stack ancestors ∧
      (tag = original ∨ tag = original.erase Mark.collectionItem) ∧ seen original ancestors := by
  obtain ⟨hpaths, ancestors, original, hmirrors, htag, hseen, hlist⟩ :=
    Follows.bindings (tracks_mirrors root outside) h hhold hheld
  exact ⟨hpaths.fulfilled hmirrors hlist, ancestors, original, hmirrors, htag, hseen⟩

/-- No dotted path fails at a visit that agrees. -/
theorem Agrees.not_fails (h : Agrees seen root outside v) (hfrom : v.From forest)
    (hsuitable : Suitable forest outside) (e : ResolutionError) : ¬ v.Fails (.resolution e) := by
  intro hfails
  obtain ⟨stack, hold, tag, children, rfl, hheld, -⟩ := hfails.exists_visited
  exact (h.fulfilled hfrom.hold hheld).1.not_fails (hfrom.keepsMarks hsuitable.marks) e hfails

/-- All visits that a visit leads to by steps agree, if those of the first step do. -/
theorem agrees_of_reflTransGen
    (hfirst : ∀ u, v.LeadsTo u → Agrees seen root outside u ∧ u.From forest)
    (hsuitable : Suitable forest outside) (hw : ReflTransGen Visit.LeadsTo v w) :
    w = v ∨ Agrees seen root outside w ∧ w.From forest :=
  (tracks_mirrors root outside).follows_of_reflTransGen hfirst hsuitable hw

/-- Where all that a visit leads to agrees, no dotted path fails but at the visit itself. -/
theorem fails_of_fault_run (hfirst : ∀ u, v.LeadsTo u → Agrees seen root outside u ∧ u.From forest)
    (hsuitable : Suitable forest outside) {e : ResolutionError}
    (hfault : v.run.fault = some (.resolution e)) : v.Fails (.resolution e) := by
  obtain ⟨w, hw, hfails, -⟩ := Visit.exists_fails_of_fault hfault
  rcases agrees_of_reflTransGen hfirst hsuitable hw with rfl | ⟨hagrees, hfrom⟩
  · exact hfails
  · exact absurd hfails (hagrees.not_fails hfrom hsuitable e)

end Visits

end MarkupBinding.Binding
