import MarkupBinding.Proofs.Binding.Expansion
import MarkupBinding.Proofs.Expression.Written
import MarkupBinding.Proofs.Markup.KeptStencils

/-!
# Well-formed documents

Some of the ways in which binding can stop are there in the markup and do not hang on the input. A
document is well formed (`Document.WellFormed`) when its annotations can be read, every collection
has a stencil that no text binding and no toggle can take from it, and no attribute binding sets a
mark. Toggles leave a visited collection its stencil then (`WellFormed.exists_stencil`), and the
walk around a stencil leaves it where it was (`filled_around`).

`WellFormed.result_bind` says what is left: binding an input of any shape succeeds, or stops at a
dotted path that the document writes (`Tag.Writes`). Without dotted paths it succeeds for every
input.
-/

set_option autoImplicit false
set_option relaxedAutoImplicit false

namespace MarkupBinding

/-- An annotation of the tag has a path written in it: that of its text or its collection, with or
without braces around it, or a placeholder of one of its attributes. -/
inductive Tag.Writes (t : Tag) (source : String) : Prop
  | text {raw : String} (hmark : t.mark? Mark.textContent = some raw)
      (h : extractExpression raw = .ok source)
  | placeholder {target raw : String} {segments : TemplateText} {path : Path}
      (hbinding : (target, raw) ∈ t.attributeBindings)
      (hparse : TemplateText.parse raw = .ok segments)
      (h : Segment.placeholder path source ∈ segments)
  | collection {raw : String} (hmark : t.mark? Mark.collection = some raw)
      (h : extractExpression raw = .ok source)

/-- Whether the node is an element with a flag that can switch it off. -/
def Node.isToggleable : Node → Bool
  | element tag _ => tag.has Mark.toggleable
  | text _ _ => false

/-- A document whose annotations can be read and whose collections keep their stencils whatever the
input is. -/
structure Document.WellFormed (d : Document) : Prop where
  texts : ∀ t ∈ d.tags, ∀ raw ∈ t.mark? Mark.textContent, (Path.ofBinding raw).isOk = true
  attributes : ∀ t ∈ d.tags, ∀ binding ∈ t.attributeBindings,
    (TemplateText.parse binding.2).isOk = true
  collections : ∀ t ∈ d.tags, ∀ raw ∈ t.mark? Mark.collection, (Path.ofBinding raw).isOk = true
  /-- Every collection has a stencil with a name, and binds no text of its own. -/
  stencils : ∀ e ∈ Node.elementsAll d, (e.1.mark? Mark.collection).isSome = true →
    (Stencil.of e.1 e.2).isOk = true ∧ e.1.mark? Mark.textContent = none
  /-- No element between a collection and its stencil binds its text. -/
  clear : Binding.ClearWays d
  /-- Neither a stencil nor an element between a collection and its stencil can be switched off. -/
  steady : ∀ e ∈ Node.elementsAll d, (e.1.mark? Mark.collection).isSome = true →
    ∀ stencil ∈ (Stencil.of e.1 e.2).toOption, stencil.node.isToggleable = false ∧
      ∀ t ∈ Node.wayTo e.2 stencil.place, t.has Mark.toggleable = false
  /-- No attribute binding sets a mark. -/
  marks : ∀ t ∈ d.tags, t.KeepsMarks

instance (d : Document) : Decidable d.WellFormed :=
  decidable_of_iff
    ((∀ t ∈ d.tags, ∀ raw ∈ t.mark? Mark.textContent, (Path.ofBinding raw).isOk = true) ∧
      (∀ t ∈ d.tags, ∀ binding ∈ t.attributeBindings,
        (TemplateText.parse binding.2).isOk = true) ∧
      (∀ t ∈ d.tags, ∀ raw ∈ t.mark? Mark.collection, (Path.ofBinding raw).isOk = true) ∧
      (∀ e ∈ Node.elementsAll d, (e.1.mark? Mark.collection).isSome = true →
        (Stencil.of e.1 e.2).isOk = true ∧ e.1.mark? Mark.textContent = none) ∧
      Binding.ClearWays d ∧
      (∀ e ∈ Node.elementsAll d, (e.1.mark? Mark.collection).isSome = true →
        ∀ stencil ∈ (Stencil.of e.1 e.2).toOption, stencil.node.isToggleable = false ∧
          ∀ t ∈ Node.wayTo e.2 stencil.place, t.has Mark.toggleable = false) ∧
      ∀ t ∈ d.tags, t.KeepsMarks)
    ⟨fun ⟨texts, attributes, collections, stencils, clear, steady, marks⟩ ↦
        ⟨texts, attributes, collections, stencils, clear, steady, marks⟩,
      fun h ↦ ⟨h.texts, h.attributes, h.collections, h.stencils, h.clear, h.steady, h.marks⟩⟩

section Reading

variable {t : Tag}

theorem Tag.isOff_of_has_eq_false (h : t.has Mark.toggleable = false) (off : String → Bool) :
    t.isOff off = false := by
  have hnone : t.attr? Mark.toggleable = none := by
    rw [attr?]
    cases hlookup : t.attrs.lookup Mark.toggleable with
    | none => rfl
    | some value =>
      have hthere : t.has Mark.toggleable = true :=
        (Keyed.has_eq_true_iff _ _).2 (Keyed.mem_keys_of_lookup hlookup)
      rw [h] at hthere
      cases hthere
  rw [isOff, hnone]
  rfl

/-- A node without a flag is never switched off. -/
theorem Node.isOff_of_isToggleable {n : Node} (h : n.isToggleable = false) (off : String → Bool) :
    n.isOff off = false := by
  cases n with
  | text kind content => rfl
  | element tag children => exact Tag.isOff_of_has_eq_false h off

end Reading

namespace Binding

/-- The error is about a dotted path that the document writes, and names its scope. -/
def WrittenDotted (d : Document) (e : ResolutionError) : Prop :=
  ∃ t ∈ d.tags, ∃ source scope name, t.Writes source ∧
    Path.parse source = .ok ⟨name, some scope⟩ ∧
    e.path.text = scope ++ "." ++ name ∧ Text.withoutBlanks source = scope ++ "." ++ name ∧
    e.scope = scope

section Visits

variable {d : Document} {input : Value} {stack : Stack} {hold : Option Place} {tag : Tag}
  {children : List Node}

/-- A path that stops the walk and is written in the document is the one that the error is about. -/
theorem writtenDotted_of_fault {t : Tag} (ht : t ∈ d.tags) {source shown : String} {path : Path}
    {e : BindError} (hwrites : t.Writes source) (hpath : Path.parse source = .ok path)
    (hfault : (resolve stack shown path).fault = some e) :
    ∃ error, e = .resolution error ∧ WrittenDotted d error := by
  obtain ⟨hdotted, error, herror, rfl⟩ := fault_resolve_eq_some hfault
  obtain rfl := Stack.path_of_resolve herror
  obtain ⟨scope, hscope⟩ := Option.isSome_iff_exists.1 hdotted
  have htext : error.path.text = scope ++ "." ++ error.path.name := by rw [Path.text, hscope]
  refine ⟨error, rfl, t, ht, source, scope, error.path.name, hwrites, ?_, htext, ?_, ?_⟩
  · rw [hpath, ← hscope]
  · rw [← Path.text_of_parse hpath, htext]
  · rw [ResolutionError.scope, hscope, Option.getD_some]

/-- A visited element annotates as an element of the document does, but for its item mark. -/
theorem exists_annotated (hfrom : Visit.From (d.filterToggles input).1
    ⟨stack, hold, .element tag children⟩) :
    ∃ original cs, (original, cs) ∈ Node.elementsAll d ∧
      children = (Node.filterOffAll input.switchesOff cs).1 ∧
      tag.attributeBindings = original.attributeBindings ∧
      ∀ name, name ≠ Mark.collectionItem → tag.mark? name = original.mark? name := by
  obtain ⟨original, hin, hbindings, hsame⟩ := hfrom.exists_original
  obtain ⟨cs, horiginal, hchildren⟩ :=
    Node.exists_mem_elementsAll_of_filterOffAll input.switchesOff hin
  exact ⟨original, cs, horiginal, hchildren, hbindings, hsame⟩

end Visits

end Binding

namespace Document.WellFormed

open Binding

variable {d : Document} {input : Value} {stack : Stack} {hold : Option Place} {tag : Tag}
  {children : List Node} {raw : String}

/-- A visited collection binds no text and has a stencil; no element on the way down to it binds its
text or sets a mark. -/
theorem exists_stencil (h : d.WellFormed) (hfrom : Visit.From (d.filterToggles input).1
    ⟨stack, hold, .element tag children⟩) (hmark : tag.mark? Mark.collection = some raw) :
    tag.mark? Mark.textContent = none ∧ ∃ stencil, Stencil.of tag children = .ok stencil ∧
      ∀ t ∈ Node.wayTo children stencil.place,
        t.mark? Mark.textContent = none ∧ t.KeepsMarks := by
  obtain ⟨original, cs, hin, rfl, -, hsame⟩ := exists_annotated hfrom
  have hcollection : (original.mark? Mark.collection).isSome = true := by
    rw [← hsame Mark.collection (by decide), hmark, Option.isSome_some]
  obtain ⟨hok, htext⟩ := h.stencils _ hin hcollection
  refine ⟨by rw [hsame Mark.textContent (by decide), htext], ?_⟩
  cases hstencil : Stencil.of original cs with
  | error e => rw [hstencil] at hok; cases hok
  | ok stencil =>
    obtain ⟨hnode, hway⟩ := h.steady _ hin hcollection stencil (by rw [hstencil]; rfl)
    obtain ⟨left, hleft, -, -, hwayLeft⟩ := Stencil.exists_of_filterOffAll input.switchesOff
      hstencil (Node.isOff_of_isToggleable hnode _)
      fun t ht ↦ Tag.isOff_of_has_eq_false (hway t ht) _
    refine ⟨left, Stencil.of_congr hleft tag, fun t ht ↦ ?_⟩
    rw [hwayLeft] at ht
    refine ⟨h.clear original cs stencil hin hcollection hstencil t ht, ?_⟩
    obtain ⟨below, hbelow⟩ := Node.mem_tagsAll_iff_exists.1 (Node.wayTo_subset_tagsAll _ _ ht)
    exact h.marks t (Node.mem_tagsAll_of_mem_elementsAll
      (Node.elementsAll_subset_elementsAll hin hbelow))

/-- A fault at a visited element is that of a dotted path that the document writes. -/
theorem exists_resolution_of_fails (h : d.WellFormed)
    (hfrom : Visit.From (d.filterToggles input).1 ⟨stack, hold, .element tag children⟩)
    {e : BindError}
    (hfails : Visit.Fails ⟨stack, hold, .element tag children⟩ e) :
    ∃ error, e = .resolution error ∧ WrittenDotted d error := by
  obtain ⟨original, cs, hin, -, hbindings, hsame⟩ := exists_annotated hfrom
  have htag : original ∈ d.tags := Node.mem_tagsAll_of_mem_elementsAll hin
  have hkeeps : tag.KeepsMarks :=
    hfrom.keepsMarks (Document.keepsMarks_filterToggles h.marks input)
  have hcollection : ∀ {raw : String},
      (bindAttributes stack tag).value.mark? Mark.collection = some raw →
        tag.mark? Mark.collection = some raw := fun hmark ↦ by
    rwa [mark?_bindAttributes_of_keepsMarks hkeeps (by decide)] at hmark
  cases hfails with
  | text _ hfault =>
    obtain ⟨raw, hmark, hstop⟩ := fault_boundText_eq_some hfault
    rw [hsame _ (by decide)] at hmark
    rcases hstop with ⟨error, hbad, -⟩ | ⟨path, hpath, hresolve⟩
    · have hok := h.texts original htag raw hmark
      rw [hbad] at hok
      cases hok
    · obtain ⟨source, hsource, hparse⟩ := Path.ofBinding_eq_ok hpath
      exact writtenDotted_of_fault htag (.text hmark hsource) hparse hresolve
  | attributes _ hfault =>
    obtain ⟨⟨target, raw⟩, hbinding, hstop⟩ := fault_bindAttributes_eq_some hfault
    rw [hbindings] at hbinding
    rcases hstop with ⟨error, hbad, -⟩ | ⟨segments, hparse, path, hpath, hresolve⟩
    · have hok := h.attributes original htag _ hbinding
      rw [hbad] at hok
      cases hok
    · obtain ⟨segment, hsegment, hshows⟩ := List.mem_filterMap.1 hpath
      cases segment with
      | literal text => cases hshows
      | placeholder found source =>
        obtain rfl := Option.some.inj hshows
        exact writtenDotted_of_fault htag (.placeholder hbinding hparse hsegment)
          (TemplateText.parse_placeholder hparse hsegment) hresolve
  | structural _ hmark hmissing =>
    obtain ⟨htext, stencil, hstencil, -⟩ := h.exists_stencil hfrom (hcollection hmark)
    have hkept : (boundText stack tag).value = none := by
      rw [boundText_of_mark?_eq_none htext, Walk.value_done]
    rw [Visit.shown_of_value_eq_none hkept, Stencil.of_congr hstencil] at hmissing
    cases hmissing
  | @items _ _ _ _ raw _ _ _ _ hmark _ hfault =>
    replace hmark := hcollection hmark
    rw [hsame _ (by decide)] at hmark
    rcases fault_itemsFor_eq_some hfault with ⟨error, hbad, -⟩ | ⟨path, hpath, hresolve⟩
    · have hok := h.collections original htag raw hmark
      rw [hbad] at hok
      cases hok
    · obtain ⟨source, hsource, hparse⟩ := Path.ofBinding_eq_ok hpath
      exact writtenDotted_of_fault htag (.collection hmark hsource) hparse hresolve
  | lost _ _ hmark hstencil _ haround hlost =>
    replace hmark := hcollection hmark
    obtain ⟨-, stencil, hfound, hway⟩ := h.exists_stencil hfrom hmark
    obtain rfl := Except.ok.inj (hstencil.symm.trans hfound)
    obtain ⟨hplace, hat, -⟩ := Stencil.of_eq_ok hstencil
    have hkept := (filled_around [] hplace hat hway haround).1
    rcases hlost with hlost | hlost
    · rw [hkept] at hlost
      cases hlost
    · rw [hkept] at hlost
      cases hlost

/-- Binding any input into a well-formed document succeeds, or stops at a dotted path that the
document writes and whose scope the error names; where no dotted path is written, it succeeds. -/
theorem result_bind (h : d.WellFormed) (input : Value) :
    ((∃ bound, (d.bind input).result = .ok bound) ∨
        ∃ e, (d.bind input).result = .error (.resolution e) ∧ WrittenDotted d e) ∧
      ((∀ t ∈ d.tags, ∀ source path, t.Writes source → Path.parse source = .ok path →
          path.isDotted = false) →
        ∃ bound, (d.bind input).result = .ok bound) := by
  have hresult : (∃ bound, (d.bind input).result = .ok bound) ∨
      ∃ e, (d.bind input).result = .error (.resolution e) ∧ WrittenDotted d e := by
    cases hfault : (d.bind input).fault with
    | none => exact Or.inl ⟨_, by rw [Walk.result, hfault]⟩
    | some e =>
      obtain ⟨stack, hold, tag, children, hv, -, -, hfails⟩ :=
        Document.exists_fails_of_fault_bind hfault
      obtain ⟨error, rfl, hwritten⟩ :=
        h.exists_resolution_of_fails (Document.from_of_visits hv) hfails
      exact Or.inr ⟨error, by rw [Walk.result, hfault], hwritten⟩
  refine ⟨hresult, fun hbare ↦ hresult.resolve_right ?_⟩
  rintro ⟨e, -, t, ht, source, scope, name, hwrites, hparse, -⟩
  cases hbare t ht source _ hwrites hparse

/-- A headline with a bare path. -/
def headline : Document :=
  [.element ⟨"h1", [(Mark.textContent, .plain "title")]⟩ []]

/-- A page with a note that can be switched off, and with orders that have lines. -/
def orderPage : Document :=
  [.element ⟨"main", [(Mark.component, .plain "root")]⟩
    [.element ⟨"p", [(Mark.toggleable, .plain "note")]⟩ headline,
      .element ⟨"ul", [(Mark.collection, .plain "orders")]⟩
        [.element ⟨"li", [(Mark.collectionItem, .plain "order")]⟩
          [.element ⟨"a", [("data-attribute-href", .plain "/o/$\x7border.id\x7d")]⟩ [],
            .element ⟨"ul", [(Mark.collection, .plain "order.lines")]⟩
              [.element ⟨"li", [(Mark.collectionItem, .plain "line")]⟩ []]]]]]

theorem result_bind_orderPage :
    (orderPage.WellFormed ∧ ∃ e, (orderPage.bind
        (.object [("note", .bool false), ("orders", .list [.object []])])).result =
          .error (.resolution e) ∧ WrittenDotted orderPage e) ∧
      headline.WellFormed ∧ ∃ bound, (headline.bind (.list [])).result = .ok bound := by
  have hpage : orderPage.WellFormed := by decide +kernel
  have hline : headline.WellFormed := by decide +kernel
  refine ⟨⟨hpage, (result_bind hpage _).1.resolve_left ?_⟩, hline, (result_bind hline _).2 ?_⟩
  · rintro ⟨bound, hbound⟩
    have hstops : (orderPage.bind
        (.object [("note", .bool false), ("orders", .list [.object []])])).result.isOk = false := by
      decide +kernel
    rw [hbound] at hstops
    cases hstops
  · intro t ht source path hwrites hpath
    obtain rfl := List.mem_singleton.1 ht
    cases hwrites with
    | @text raw hmark hsource =>
      obtain rfl : "title" = raw := Option.some.inj hmark
      obtain rfl : "title" = source := Except.ok.inj hsource
      obtain rfl : ⟨"title", none⟩ = path := Except.ok.inj hpath
      rfl
    | placeholder hbinding => exact absurd hbinding List.not_mem_nil
    | collection hmark => cases hmark

end Document.WellFormed

end MarkupBinding
