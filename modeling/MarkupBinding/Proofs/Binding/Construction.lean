import MarkupBinding.Proofs.Binding.Injection

/-!
# Bound documents by construction

Where the bindings of a template are known, so is what it is bound to, and that binding reaches its
end: a node without marks is bound to itself (`bound_self`), an element with a text binding is left
with the text (`bound_of_text`), and a collection is bound to what it expands to: with the stencil
among its children, the others, each bound, around bound copies of the stencil, one for each item
(`bound_collection`, `expand_of_bound`). A document is bound to what its nodes are bound to
(`Document.bind_of_bound`).

`Expansion` and `Injection` say what a walk that reached its end has done. Here nothing is assumed
of the walk; its end is part of what is shown.
-/

set_option autoImplicit false
set_option relaxedAutoImplicit false

namespace MarkupBinding

/-- The tag carries no binding and opens no scope. -/
def Tag.IsPlain (t : Tag) : Prop :=
  t.mark? Mark.textContent = none ∧ t.attributeBindings = [] ∧ t.mark? Mark.collection = none ∧
    t.mark? Mark.component = none

instance (t : Tag) : Decidable t.IsPlain :=
  inferInstanceAs (Decidable (_ ∧ _))

namespace Binding

variable {stack : Stack} {tag : Tag} {n m : Node} {children nodes results : List Node}

/-! ### Without a collection -/

/-- An element without attribute bindings keeps its tag. -/
theorem bindAttributes_of_eq_nil (h : tag.attributeBindings = []) :
    bindAttributes stack tag = .done tag := by
  rw [bindAttributes, h]
  rfl

/-- An element that binds nothing itself is bound by binding its children in the scope it opens. -/
theorem bound_of_children (htext : tag.mark? Mark.textContent = none)
    (hattributes : tag.attributeBindings = []) (hplain : tag.mark? Mark.collection = none)
    (h : List.Forall₂ (Bound (enter stack tag)) children results) :
    Bound stack (.element tag children) (.element tag results) := by
  have hbound : bindAttributes stack tag = .done tag := bindAttributes_of_eq_nil hattributes
  have hshown : boundText stack tag = .done none := boundText_of_mark?_eq_none htext
  have hcollection : (bindAttributes stack tag).value.mark? Mark.collection = none := by
    rw [hbound]
    exact hplain
  refine (bound_element_iff hcollection).2
    ⟨by rw [hshown]; rfl, by rw [hbound]; rfl, results, ?_, ?_⟩
  · rw [hbound, Walk.value_done]
  · rw [hbound, Walk.value_done, Visit.shown_of_value_eq_none (by rw [hshown]; rfl)]
    exact h

/-- A component binds its children in the scope around it where it opens none. -/
theorem enter_of_plain (h : tag.mark? Mark.component = none) : enter stack tag = stack := by
  rw [enter, h]

/-- A tree without bindings is bound to itself. -/
theorem bound_self (n : Node) (h : ∀ t ∈ n.tags, t.IsPlain) : Bound stack n n := by
  induction n using Node.induction_on_children with
  | text kind content => exact bound_text_iff.2 rfl
  | element tag children ih =>
    rw [Node.tags_element, List.forall_mem_cons] at h
    obtain ⟨⟨htext, hattributes, hplain, hcomponent⟩, hbelow⟩ := h
    refine bound_of_children htext hattributes hplain (List.forall₂_same.2 fun child hchild ↦ ?_)
    rw [enter_of_plain hcomponent]
    exact ih child hchild fun t ht ↦ hbelow t (Node.tags_subset_tagsAll hchild ht)

/-- An element with a text binding is left with the text, its attributes bound. -/
theorem bound_of_text {text : String} {bound : Tag} (htext : WritesText stack tag text)
    (hfault : (bindAttributes stack tag).fault = none)
    (hvalue : (bindAttributes stack tag).value = bound)
    (hplain : bound.mark? Mark.collection = none) :
    Bound stack (.element tag children) (.element bound [.text .characters text]) := by
  subst hvalue
  have hwritten := boundText_of_writesText htext
  refine (bound_element_iff hplain).2 ⟨by rw [hwritten]; rfl, hfault, _, rfl, ?_⟩
  rw [Visit.shown, hwritten, Walk.value_done, Option.getD_some]
  exact .cons (bound_text_iff.2 rfl) .nil

/-! ### Collections -/

/-- Siblings below which nothing is held back are walked as if nothing were held back. -/
theorem visitChildren_of_clear {visit : Option Place → Node → Walk Visited} {hold : Option Place}
    (nodes : List Node) {first : Nat} (h : ∀ k, first ≤ k → holdBelow k hold = none) :
    visitChildren visit hold first nodes = visitChildren visit none first nodes := by
  induction nodes generalizing first with
  | nil => rfl
  | cons n rest ih =>
    have hnone : holdBelow first none = none := rfl
    rw [visitChildren_eq_chain, visitChildren_eq_chain, h first (Nat.le_refl first), hnone,
      ih fun k hk ↦ h k (Nat.le_of_succ_le hk)]

/-- The walk over bound siblings, if nothing is held back below them. -/
theorem visitChildren_of_bound {hold : Option Place} {first : Nat}
    (h : List.Forall₂ (Bound stack) nodes results)
    (hclear : ∀ k, first ≤ k → holdBelow k hold = none) :
    let walk := visitChildren (fun hold n ↦ Visit.run ⟨stack, hold, n⟩) hold first nodes
    walk.fault = none ∧ walk.value = (results, .kept) := by
  rw [visitChildren_of_clear nodes hclear]
  obtain ⟨hfault, hvalue⟩ := visitChildren_iff_forall₂.2 h
  refine ⟨hfault, Prod.ext hvalue (held_visitChildren hfault fun i n hn ↦ ?_)⟩
  exact held_run n (fault_visitChildren_eq_none hfault i n hn)

/-- The walk over siblings one of which is held back leaves that one and binds the others. -/
theorem visitChildren_around {before after before' after' : List Node}
    (hbefore : List.Forall₂ (Bound stack) before before')
    (hafter : List.Forall₂ (Bound stack) after after') (children : List Node) (first : Nat) :
    let walk := visitChildren (fun hold n ↦ Visit.run ⟨stack, hold, n⟩)
      (some [first + before.length]) first (before ++ .element tag children :: after)
    walk.fault = none ∧ walk.value = (before' ++ .element tag children :: after', .kept) := by
  induction hbefore generalizing first with
  | nil =>
    have hheld : holdBelow first (some [first + 0]) = some [] := if_pos rfl
    have hclear : ∀ k, first + 1 ≤ k → holdBelow k (some [first + 0]) = none :=
      fun k hk ↦ if_neg (by omega)
    obtain ⟨hfault, hvalue⟩ := visitChildren_of_bound hafter hclear
    dsimp only at hfault hvalue ⊢
    rw [List.nil_append, List.length_nil, visitChildren_eq_chain, hheld, Visit.run_of_isHeld rfl,
      Walk.fault_chain_eq_none_iff, Walk.fault_map, Walk.value_chain rfl, Walk.value_map, hvalue]
    exact ⟨⟨rfl, hfault⟩, rfl⟩
  | @cons n n' before before' hn _ ih =>
    have hnone : holdBelow first (some [first + (n :: before).length]) = none :=
      if_neg (by rw [List.length_cons]; omega)
    have hnext : first + (n :: before).length = first + 1 + before.length := by
      rw [List.length_cons]
      omega
    obtain ⟨hfault, hvalue⟩ := ih (first + 1)
    dsimp only at hfault hvalue ⊢
    rw [List.cons_append, visitChildren_eq_chain, hnone, hnext, Walk.fault_chain_eq_none_iff,
      Walk.fault_map, Walk.value_chain hn.1, Walk.value_map, hvalue, held_run n hn.1, hn.2]
    exact ⟨⟨hn.1, hfault⟩, rfl⟩

/-- The copies of a stencil are bound one after the other. -/
theorem copies_of_bound {stencil : Stencil} {items : List Value} {clones : List Node}
    (h : List.Forall₂ (fun item clone ↦
      Bound (stack.push stencil.item item) (copyOf stencil.node) clone) items clones) :
    let walk := copies (fun s n ↦ Visit.run ⟨s, none, n⟩) stack stencil items
    walk.fault = none ∧ walk.value = clones := by
  induction h with
  | nil => exact ⟨rfl, rfl⟩
  | @cons item clone items clones hclone _ ih =>
    obtain ⟨hfault, hvalue⟩ := ih
    dsimp only at hfault hvalue ⊢
    rw [copies_cons, Walk.fault_chain_eq_none_iff, Walk.fault_map, Walk.value_chain hclone.1,
      Walk.value_map, hvalue, hclone.2]
    exact ⟨⟨hclone.1, hfault⟩, rfl⟩

/-- Expanding a collection whose stencil stands among its children puts the bound copies of it in
its place. -/
theorem expand_of_bound {raw : String} {path : Path} {stencil : Stencil} {items : List Value}
    {before after before' after' clones : List Node}
    (hstencil : Stencil.of tag (before ++ stencil.node :: after) = .ok stencil)
    (hplace : stencil.place = [before.length]) (hpath : Path.ofBinding raw = .ok path)
    (hitems : stack.resolve path = .ok (.list items))
    (hbefore : List.Forall₂ (Bound stack) before before')
    (hafter : List.Forall₂ (Bound stack) after after')
    (hclones : List.Forall₂ (fun item clone ↦
      Bound (stack.push stencil.item item) (copyOf stencil.node) clone) items clones) :
    let walk := expand (fun s hold n ↦ Visit.run ⟨s, hold, n⟩) stack raw tag
      (before ++ stencil.node :: after)
    walk.fault = none ∧ walk.value = before' ++ clones ++ after' := by
  obtain ⟨-, -, itemTag, itemChildren, hnode, -⟩ := Stencil.of_eq_ok hstencil
  obtain ⟨hitemsFault, hitemsValue⟩ := itemsFor_of_list hpath hitems
  obtain ⟨haroundFault, haroundValue⟩ := visitChildren_around hbefore hafter itemChildren 0
  obtain ⟨hcopiesFault, hcopiesValue⟩ := copies_of_bound hclones
  rw [← hnode, Nat.zero_add, ← hplace] at haroundFault haroundValue
  have hfill : ∀ around, fill (fun s n ↦ Visit.run ⟨s, none, n⟩) stack stencil items
      (around, .kept) = fillIn around stencil
        (copies (fun s n ↦ Visit.run ⟨s, none, n⟩) stack stencil items) := fun _ ↦ rfl
  dsimp only
  rw [expand, hstencil]
  dsimp only
  rw [Walk.fault_chain_eq_none_iff, Walk.value_chain hitemsFault, hitemsValue]
  dsimp only
  rw [Walk.fault_chain_eq_none_iff, Walk.value_chain haroundFault, haroundValue, hfill, fillIn,
    Walk.fault_chain_eq_none_iff, Walk.value_chain hcopiesFault, hcopiesValue]
  refine ⟨⟨hitemsFault, haroundFault, hcopiesFault, rfl⟩, ?_⟩
  rw [Walk.value_done, hplace, hbefore.length_eq, Node.replaceAt_length]

/-- A collection is bound to what it expands to. -/
theorem bound_collection {raw : String}
    (htext : tag.mark? Mark.textContent = none) (hattributes : tag.attributeBindings = [])
    (hcollection : tag.mark? Mark.collection = some raw)
    (hexpand :
      let walk := expand (fun s hold n ↦ Visit.run ⟨s, hold, n⟩) stack raw tag children
      walk.fault = none ∧ walk.value = results) :
    Bound stack (.element tag children) (.element tag results) := by
  have hbound : bindAttributes stack tag = .done tag := bindAttributes_of_eq_nil hattributes
  have hshown : boundText stack tag = .done none := boundText_of_mark?_eq_none htext
  have hmade : (bindAttributes stack tag).value.mark? Mark.collection = some raw := by
    rw [hbound]
    exact hcollection
  have hcontent : Visit.content stack none tag children =
      (expand (fun s hold n ↦ Visit.run ⟨s, hold, n⟩) stack raw tag children).map
        fun children ↦ ⟨.element tag children, .under none .destroyed⟩ := by
    rw [Visit.content_of_collection hmade, hbound, Walk.value_done, Visit.holdShown_none,
      Visit.shown_of_value_eq_none (congrArg Walk.value hshown)]
  have hfault : (Visit.run ⟨stack, none, .element tag children⟩).fault = none := by
    rw [Visit.fault_run_element rfl, hbound, hshown, hcontent, Walk.fault_map, hexpand.1]
    rfl
  refine ⟨hfault, ?_⟩
  rw [Visit.node_run_element rfl hfault, hcontent, Walk.value_map, hexpand.2]

end Binding

open Binding

/-- A document is bound to what the nodes that the toggles leave are bound to. -/
theorem Document.bind_of_bound {d : Document} {input : Value} {results : List Node}
    (h : List.Forall₂ (Bound (.root input)) (d.filterToggles input).1 results) :
    (d.bind input).fault = none ∧ (d.bind input).value = results := by
  rw [bind_eq, Walk.fault_map, Walk.value_map]
  exact visitChildren_iff_forall₂.2 h

end MarkupBinding
