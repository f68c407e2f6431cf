import MarkupBinding.Proofs.Binding.Frame
import MarkupBinding.Proofs.Markup.SwitchedOff

/-!
# Binding a bound document

A node is settled under a stack of scopes when binding it gives the node itself. Where there are no
collections and no attribute binding sets a mark, whatever a node is bound to is settled
(`Bound.settled`): its attributes were set to the same texts before, its text is the one that takes
the place of the children, and its children are settled by induction over the tree. The tags of what
a node is bound to carry the flags that they carried before (`Bound.exists_tag`), so the toggles
leave a bound document as it is.

`Document.bind_idempotent` is what this comes to for a document.
-/

set_option autoImplicit false
set_option relaxedAutoImplicit false

namespace MarkupBinding

namespace Binding

variable {stack : Stack} {tag : Tag} {children nodes results : List Node} {n m : Node}

/-- The text binding of an element hangs on its mark alone. -/
theorem boundText_congr {other : Tag}
    (h : other.mark? Mark.textContent = tag.mark? Mark.textContent) :
    boundText stack other = boundText stack tag := by
  rw [boundText, boundText, h]

/-- If whatever each of several nodes is bound to is settled, so is what they are bound to together.
-/
theorem forall₂_settled (h : List.Forall₂ (Bound stack) nodes results)
    (hsettled : ∀ n ∈ nodes, ∀ m, Bound stack n m → Bound stack m m) :
    List.Forall₂ (Bound stack) results results := by
  induction h with
  | nil => exact .nil
  | @cons n m rest results hfirst _ ih =>
    obtain ⟨hn, hrest⟩ := List.forall_mem_cons.1 hsettled
    exact .cons (hn m hfirst) (ih hrest)

/-- What holds of the tags of whatever each of several nodes is bound to holds of the tags of what
they are bound to together. -/
theorem forall_tagsAll_of_bound {p : Tag → Prop} (h : List.Forall₂ (Bound stack) nodes results)
    (htags : ∀ n ∈ nodes, ∀ m, Bound stack n m → ∀ u ∈ m.tags, p u) :
    ∀ u ∈ Node.tagsAll results, p u := by
  induction h with
  | nil => exact fun _ hu ↦ absurd hu List.not_mem_nil
  | @cons n m rest results hfirst _ ih =>
    obtain ⟨hn, hrest⟩ := List.forall_mem_cons.1 htags
    rw [Node.tagsAll]
    exact List.forall_mem_append.2 ⟨hn m hfirst, ih hrest⟩

/-- A node below an element after its text binding is an old child of the element, or a text. -/
theorem mem_shown (h : n ∈ Visit.shown stack tag children) :
    n ∈ children ∨ ∃ text, n = .text .characters text := by
  obtain ⟨i, hi⟩ := List.getElem?_of_mem h
  exact (Visit.getElem?_shown hi).imp_left fun hchild ↦ List.mem_of_getElem? hchild.2

/-- What a text replaced is replaced by the same text again, and what was not is left. -/
theorem shown_again {scope : Stack}
    (h : List.Forall₂ (Bound scope) (Visit.shown stack tag children) results) :
    Visit.shown stack tag results = results := by
  cases htext : (boundText stack tag).value with
  | none => exact Visit.shown_of_value_eq_none htext
  | some replacement =>
    obtain ⟨content, rfl⟩ := boundText_value htext
    rw [Visit.shown, htext, Option.getD_some] at h ⊢
    cases h with
    | cons hfirst hrest =>
      cases hrest
      rw [bound_text_iff.1 hfirst]

/-- Where there are no collections and no attribute binding sets a mark, whatever a node is bound to
is bound to itself. -/
theorem Bound.settled (n : Node) :
    ∀ {stack : Stack} {m : Node}, (∀ t ∈ n.tags, t.mark? Mark.collection = none) →
      (∀ t ∈ n.tags, t.KeepsMarks) → Bound stack n m → Bound stack m m := by
  induction n using Node.induction_on_children with
  | text kind content =>
    intro stack m _ _ h
    obtain rfl := bound_text_iff.1 h
    exact h
  | element tag children ih =>
    intro stack m hplain hmarks h
    rw [Node.tags_element, List.forall_mem_cons] at hplain hmarks
    have hmark : ∀ {name : String}, Mark.isMark name = true →
        (bindAttributes stack tag).value.mark? name = tag.mark? name :=
      mark?_bindAttributes_of_keepsMarks hmarks.1
    have hcollection : (bindAttributes stack tag).value.mark? Mark.collection = none := by
      rw [hmark (by decide), hplain.1]
    obtain ⟨htext, hattributes, result, rfl, hresult⟩ := (bound_element_iff hcollection).1 h
    obtain ⟨hagain, hvalue⟩ := bindAttributes_again hmarks.1 hattributes
    have hsame := @boundText_congr stack tag _ (hmark (by decide))
    rw [bound_element_iff (by rw [hvalue, hcollection]), hvalue, hsame]
    have hshown : Visit.shown stack (bindAttributes stack tag).value result = result := by
      rw [Visit.shown, hsame]
      exact shown_again hresult
    rw [hshown]
    refine ⟨htext, hagain, result, rfl, forall₂_settled hresult fun n hn m hbound ↦ ?_⟩
    rcases mem_shown hn with hchild | ⟨content, rfl⟩
    · have hsub := Node.tags_subset_tagsAll hchild
      exact ih n hchild (fun t ht ↦ hplain.2 t (hsub ht)) (fun t ht ↦ hmarks.2 t (hsub ht)) hbound
    · obtain rfl := bound_text_iff.1 hbound
      exact hbound

/-- Where there are no collections and no attribute binding sets a mark, the tags of what a node is
bound to are tags of the node whose attribute bindings were carried out. -/
theorem Bound.exists_tag (n : Node) :
    ∀ {stack : Stack} {m : Node}, (∀ t ∈ n.tags, t.mark? Mark.collection = none) →
      (∀ t ∈ n.tags, t.KeepsMarks) → Bound stack n m →
        ∀ u ∈ m.tags, ∃ t ∈ n.tags, ∃ scope, u = (bindAttributes scope t).value := by
  induction n using Node.induction_on_children with
  | text kind content =>
    intro stack m _ _ h u hu
    obtain rfl := bound_text_iff.1 h
    simp [Node.tags] at hu
  | element tag children ih =>
    intro stack m hplain hmarks h u hu
    rw [Node.tags_element, List.forall_mem_cons] at hplain hmarks
    have hcollection : (bindAttributes stack tag).value.mark? Mark.collection = none := by
      rw [mark?_bindAttributes_of_keepsMarks hmarks.1 (by decide), hplain.1]
    obtain ⟨-, -, result, rfl, hresult⟩ := (bound_element_iff hcollection).1 h
    rw [Node.tags_element] at hu ⊢
    have hbelow : ∀ u ∈ Node.tagsAll result,
        ∃ t ∈ tag :: Node.tagsAll children, ∃ scope, u = (bindAttributes scope t).value := by
      refine forall_tagsAll_of_bound hresult fun n hn m hbound u hin ↦ ?_
      rcases mem_shown hn with hchild | ⟨content, rfl⟩
      · have hsub := Node.tags_subset_tagsAll hchild
        obtain ⟨t, ht, hcarried⟩ := ih n hchild (fun t ht ↦ hplain.2 t (hsub ht))
          (fun t ht ↦ hmarks.2 t (hsub ht)) hbound u hin
        exact ⟨t, List.mem_cons_of_mem _ (hsub ht), hcarried⟩
      · obtain rfl := bound_text_iff.1 hbound
        simp [Node.tags] at hin
    rcases List.mem_cons.1 hu with rfl | hin
    · exact ⟨tag, List.mem_cons_self, stack, rfl⟩
    · exact hbelow u hin

end Binding

open Binding

/-- Where a document has no collections and no attribute binding of it sets a mark, binding the
bound document again reaches its end and changes nothing. -/
theorem Document.bind_idempotent {d bound : Document} {input : Value}
    (hplain : ∀ t ∈ d.tags, t.mark? Mark.collection = none) (hmarks : ∀ t ∈ d.tags, t.KeepsMarks)
    (hbind : (d.bind input).result = .ok bound) :
    (Document.bind bound input).result = .ok bound := by
  rw [bind_eq, Walk.result_eq_ok_iff, Walk.fault_map, Walk.value_map,
    visitChildren_iff_forall₂] at hbind
  have hleft := Node.tagsAll_filterOffAll_subset input.switchesOff d
  have hbelow : ∀ n ∈ (d.filterToggles input).1,
      n.tags ⊆ Node.tagsAll (d.filterToggles input).1 :=
    fun _ hn ↦ Node.tags_subset_tagsAll hn
  -- attribute bindings do not touch the flags, and no element that is still there is switched off
  have hon : ∀ u ∈ Node.tagsAll bound, u.isOff input.switchesOff = false := by
    refine forall_tagsAll_of_bound hbind fun n hn m hm u hu ↦ ?_
    obtain ⟨t, ht, scope, rfl⟩ := Bound.exists_tag n (fun t ht ↦ hplain t (hleft (hbelow n hn ht)))
      (fun t ht ↦ hmarks t (hleft (hbelow n hn ht))) hm u hu
    rw [Tag.isOff, attr?_bindAttributes
      (ne_of_keepsMarks (hmarks t (hleft (hbelow n hn ht))) (by decide))]
    exact Node.isOff_of_mem_tagsAll (hbelow n hn ht)
  have hstays : (filterToggles bound input).1 = bound := by
    rw [filterToggles, Node.filterOffAll_eq_self hon]
  rw [bind_eq, Walk.result_eq_ok_iff, Walk.fault_map, Walk.value_map, visitChildren_iff_forall₂,
    hstays]
  exact forall₂_settled hbind fun n hn m ↦ Bound.settled n
    (fun t ht ↦ hplain t (hleft (hbelow n hn ht))) fun t ht ↦ hmarks t (hleft (hbelow n hn ht))

theorem bind_idempotent_linkNotice :
    let input := Value.object [("name", .string "Ada"), ("draft", .bool false)]
    let bound := (linkNotice.bind input).value
    (linkNotice.bind input).result = .ok bound ∧
      (Document.bind bound input).result = .ok bound := by
  intro input bound
  have hplain : ∀ t ∈ linkNotice.tags, t.mark? Mark.collection = none := by decide +kernel
  have hmarks : ∀ t ∈ linkNotice.tags, t.KeepsMarks := by decide +kernel
  have hbind : (linkNotice.bind input).result = .ok bound :=
    Walk.result_eq_ok_iff.2 ⟨by decide +kernel, rfl⟩
  exact ⟨hbind, Document.bind_idempotent hplain hmarks hbind⟩

end MarkupBinding
