import MarkupBinding.Proofs.Binding.Visit
import Mathlib.Data.List.Induction
import Mathlib.Tactic.ByContra

/-!
# Strictness of dotted paths

Binding promises that a dotted path that cannot be resolved stops the walk. `Strict` says that an
element was treated so: every dotted path of its bindings resolves on the stack that it was visited
under. `Masks` names the two ways in which an element gets around it: a placeholder with a bare path
that finds nothing ends its attribute value early, so that dotted paths behind it are never looked
at; and an attribute binding that sets the collection mark itself has the new mark looked at in
place of the old one.

`strict_iff_not_masks` says that these are all: on every element that a walk to its end visited,
being strict and being masked are opposites.
-/

set_option autoImplicit false
set_option relaxedAutoImplicit false

namespace MarkupBinding.Binding

/-- Every dotted path in the bindings of an element resolves: that of its text, those in the
placeholders of its attributes, and that of its collection. -/
structure Strict (stack : Stack) (tag : Tag) : Prop where
  text : ∀ raw path, tag.mark? Mark.textContent = some raw → Path.ofBinding raw = .ok path →
    path.isDotted = true → stack.Resolves path
  attributes : ∀ target raw segments path, (target, raw) ∈ tag.attributeBindings →
    TemplateText.parse raw = .ok segments → path ∈ segments.paths → path.isDotted = true →
    stack.Resolves path
  collection : ∀ raw path, tag.mark? Mark.collection = some raw → Path.ofBinding raw = .ok path →
    path.isDotted = true → stack.Resolves path

/-- A dotted path without a value is not looked at: it stands behind a bare path without one in an
attribute value, or it is the path of a collection whose mark is itself set by a binding. -/
inductive Masks (stack : Stack) (tag : Tag) : Prop
  | placeholder {target raw : String} {segments : TemplateText} {before after : List Path}
      {path bare : Path} (hbinding : (target, raw) ∈ tag.attributeBindings)
      (hparse : TemplateText.parse raw = .ok segments)
      (hpaths : segments.paths = before ++ path :: after) (hdotted : path.isDotted = true)
      (hpath : ¬ stack.Resolves path) (hmem : bare ∈ before) (hbare : bare.isDotted = false)
      (hmissing : ¬ stack.Resolves bare)
  | collection {raw text : String} {path : Path}
      (hbinding : (Mark.collection, text) ∈ tag.attributeBindings)
      (hmark : tag.mark? Mark.collection = some raw) (hparse : Path.ofBinding raw = .ok path)
      (hdotted : path.isDotted = true) (hpath : ¬ stack.Resolves path)

section Element

variable {stack : Stack} {tag : Tag}

/-- A masked element is not strict. -/
theorem Masks.not_strict (h : Masks stack tag) : ¬ Strict stack tag := by
  intro hstrict
  cases h with
  | placeholder hbinding hparse hpaths hdotted hpath _ _ _ =>
    exact hpath (hstrict.attributes _ _ _ _ hbinding hparse (by simp [hpaths]) hdotted)
  | collection _ hmark hparse hdotted hpath =>
    exact hpath (hstrict.collection _ _ hmark hparse hdotted)

/-- Where a template text can be filled in, the paths that stand before any bare path without a
value all have one. -/
theorem resolves_of_not_unfillable {segments : TemplateText} (h : ¬ Unfillable stack segments)
    {before : List Path} (hbare : ∀ p ∈ before, p.isDotted = false → stack.Resolves p) :
    ∀ after, segments.paths = before ++ after → ∀ p ∈ before, stack.Resolves p := by
  induction before using List.reverseRecOn with
  | nil => intro after _ p hp; exact absurd hp List.not_mem_nil
  | append_singleton before last ih =>
    intro after hpaths p hp
    rw [List.append_assoc, List.singleton_append] at hpaths
    have hbefore := ih (fun q hq ↦ hbare q (List.mem_append_left _ hq)) (last :: after) hpaths
    rcases List.mem_append.1 hp with hearlier | hlast
    · exact hbefore p hearlier
    · obtain rfl := List.mem_singleton.1 hlast
      by_contra hmissing
      cases hdotted : p.isDotted with
      | true => exact h ⟨before, p, after, hpaths, hbefore, hdotted, hmissing⟩
      | false => exact hmissing (hbare p hp hdotted)

/-- An attribute binding that was carried out resolved its dotted paths, or masks one. -/
theorem resolves_of_fault_bindAttribute {target raw : String}
    (hfault : (bindAttribute stack (target, raw) tag).fault = none)
    (hbinding : (target, raw) ∈ tag.attributeBindings) (hmasks : ¬ Masks stack tag)
    {segments : TemplateText} (hparse : TemplateText.parse raw = .ok segments) {path : Path}
    (hpath : path ∈ segments.paths) (hdotted : path.isDotted = true) : stack.Resolves path := by
  simp only [bindAttribute, hparse, Walk.fault_map] at hfault
  have hfill := fault_fillSegments_eq_none_iff.1 hfault
  obtain ⟨before, after, hpaths⟩ := List.append_of_mem hpath
  by_contra hmissing
  refine hfill ⟨before, path, after, hpaths, ?_, hdotted, hmissing⟩
  refine resolves_of_not_unfillable hfill (fun bare hmem hbare ↦ ?_) (path :: after) hpaths
  by_contra hnowhere
  exact hmasks (.placeholder hbinding hparse hpaths hdotted hmissing hmem hbare hnowhere)

/-- A collection whose items were found resolved its path, if that is dotted. -/
theorem resolves_of_fault_itemsFor {raw : String} {path : Path}
    (hfault : (itemsFor stack raw).fault = none) (hpath : Path.ofBinding raw = .ok path)
    (hdotted : path.isDotted = true) : stack.Resolves path := by
  simp only [itemsFor, hpath, Walk.fault_chain_eq_none_iff] at hfault
  exact fault_resolve_eq_none_iff.1 hfault.1 hdotted

/-- An element whose run reached its end is strict unless it is masked. -/
theorem strict_of_fault_run {hold : Option Place} {children : List Node}
    (hheld : isHeld hold = false)
    (hfault : (Visit.run ⟨stack, hold, .element tag children⟩).fault = none)
    (hmasks : ¬ Masks stack tag) : Strict stack tag := by
  have hparts := hfault
  rw [Visit.fault_run_element_eq_none_iff hheld] at hparts
  obtain ⟨htext, hattributes, -⟩ := hparts
  refine ⟨?_, ?_, ?_⟩
  · intro raw path hmark hpath hdotted
    simp only [boundText, hmark, hpath, Walk.fault_map] at htext
    exact fault_resolve_eq_none_iff.1 htext hdotted
  · intro target raw segments path hbinding hparse hpath hdotted
    rw [fault_bindAttributes, List.findSome?_eq_none_iff] at hattributes
    exact resolves_of_fault_bindAttribute (hattributes _ hbinding) hbinding hmasks hparse hpath
      hdotted
  · intro raw path hmark hpath hdotted
    by_contra hmissing
    have hbound : (bindAttributes stack tag).value.mark? Mark.collection = some raw := by
      rw [mark?_bindAttributes fun binding hbinding heq ↦ ?_, hmark]
      obtain ⟨target, text⟩ := binding
      obtain rfl : target = Mark.collection := heq
      exact hmasks (.collection hbinding hmark hpath hdotted hmissing)
    obtain ⟨-, hexpanded, -⟩ := Visit.run_of_collection hheld hfault hbound
    obtain ⟨_, -, hitems, -⟩ := expand_of_fault_eq_none hexpanded
    exact hmissing (resolves_of_fault_itemsFor hitems hpath hdotted)

end Element

/-- On every element that a walk to its end visited, under the stack that it was visited under, all
dotted paths were resolved exactly where none of them is masked. -/
theorem strict_iff_not_masks {d : Document} {input : Value} (h : (d.bind input).fault = none)
    {tag : Tag} {children : List Node} {stack : Stack}
    (hvisited : Report.visited tag children stack ∈ (d.bind input).reports) :
    Strict stack tag ↔ ¬ Masks stack tag := by
  refine ⟨fun hstrict hmasks ↦ hmasks.not_strict hstrict, fun hmasks ↦ ?_⟩
  obtain ⟨hold, hheld, hv⟩ := Document.visits_of_visited hvisited
  exact strict_of_fault_run hheld (Document.fault_run_eq_none_of_visits h hv) hmasks

/-- A page with a link whose address is bound. -/
def linkPage (address : String) : Document :=
  [.element ⟨"main", [(Mark.component, .plain "root")]⟩
    [.element ⟨"a", [("data-attribute-href", .plain address)]⟩ [.text .characters "x"]]]

theorem strict_iff_not_masks_linkPage :
    let input := Value.object [("id", .string "7")]
    let tag : Tag := ⟨"a", [("data-attribute-href", .plain "/u/$\x7broot.id\x7d")]⟩
    ((linkPage "/u/$\x7broot.id\x7d").bind input).fault = none ∧
      Report.visited tag [.text .characters "x"] (.root input) ∈
        ((linkPage "/u/$\x7broot.id\x7d").bind input).reports ∧
      (Strict (.root input) tag ↔ ¬ Masks (.root input) tag) := by
  intro input tag
  have hfault : ((linkPage "/u/$\x7broot.id\x7d").bind input).fault = none := by decide +kernel
  have hvisited : Report.visited tag [.text .characters "x"] (.root input) ∈
      ((linkPage "/u/$\x7broot.id\x7d").bind input).reports :=
    List.mem_of_getElem? (i := 1) (by rfl)
  exact ⟨hfault, hvisited, strict_iff_not_masks hfault hvisited⟩

/-- The link's second placeholder is dotted and names no scope, yet binding reaches its end: the
bare placeholder in front of it finds nothing. -/
theorem linkPage_not_strict :
    ¬ ∀ (d : Document) (input : Value), (d.bind input).fault = none →
      ∀ (tag : Tag) (children : List Node) (stack : Stack),
        Report.visited tag children stack ∈ (d.bind input).reports → Strict stack tag := by
  intro hclaim
  have hstrict := hclaim (linkPage "$\x7bmissing\x7d/$\x7bnowhere.x\x7d") (.object [])
    (by decide +kernel)
    ⟨"a", [("data-attribute-href", .plain "$\x7bmissing\x7d/$\x7bnowhere.x\x7d")]⟩
    [.text .characters "x"] (.root (.object [])) (List.mem_of_getElem? (i := 1) (by rfl))
  have hparse : TemplateText.parse "$\x7bmissing\x7d/$\x7bnowhere.x\x7d" =
      .ok [.placeholder ⟨"missing", none⟩ "missing", .literal "/",
        .placeholder ⟨"x", some "nowhere"⟩ "nowhere.x"] := by rfl
  obtain ⟨value, hvalue⟩ := hstrict.attributes "href" _ _ ⟨"x", some "nowhere"⟩ (by decide +kernel)
    hparse (by decide) rfl
  cases hvalue

end MarkupBinding.Binding
