import MarkupBinding.Proofs.Binding.Visit

/-!
# Annotations confined to a subtree

A tree is confined to a subtree when every element that says what data it takes lies in a copy of it
(`Node.ConfinedTo`). Binding walks the rest of such a tree without a trace: the scopes stay as they
are, and the walk stops exactly where walking the subtree stops (`fault_run_of_confinedTo`). For a
document that is confined to its outermost component, binding therefore is binding this component
under the root scope (`Document.fault_bind_of_confinedTo`, `Document.visited_of_confinedTo`).
-/

set_option autoImplicit false
set_option relaxedAutoImplicit false

namespace MarkupBinding

/-- Every element of a tree that says what data it takes lies in a subtree that is the given one. -/
inductive Node.ConfinedTo (x : Node) : Node → Prop
  | self : ConfinedTo x x
  | text {kind : TextKind} {content : String} : ConfinedTo x (.text kind content)
  | element {tag : Tag} {children : List Node} (htag : tag.isAnnotated = false)
      (h : ∀ n ∈ children, ConfinedTo x n) : ConfinedTo x (.element tag children)

/-- A tag that says nothing about data has no marks that do. -/
theorem Tag.marks_of_not_isAnnotated {t : Tag} (h : t.isAnnotated = false) :
    t.mark? Mark.component = none ∧ t.mark? Mark.textContent = none ∧ t.attributeBindings = [] ∧
      t.mark? Mark.collection = none := by
  simpa [isAnnotated, declaresComponent, and_assoc] using h

namespace Node

variable {x n : Node} {nodes : List Node}

/-- Switching elements off below the subtree and around it keeps a tree confined. -/
theorem ConfinedTo.filterOff (off : String → Bool) (h : ConfinedTo x n) :
    ConfinedTo (x.filterOff off).1 (n.filterOff off).1 := by
  induction h with
  | self => exact .self
  | text => rw [filterOff_text_fst]; exact .text
  | element htag _ ih =>
    rw [filterOff_element_fst]
    refine .element htag fun m hm ↦ ?_
    obtain ⟨original, horiginal, -, rfl⟩ := (mem_filterOffAll_fst off).1 hm
    exact ih original horiginal

/-- No component is declared by an element that says nothing about data. -/
theorem find?_of_not_isAnnotated {tag : Tag} {children : List Node}
    (htag : tag.isAnnotated = false) :
    (Node.element tag children).find? Tag.declaresComponent =
      children.findSome? fun n ↦ n.find? Tag.declaresComponent := by
  have hnot : tag.declaresComponent = false := by
    rw [Tag.declaresComponent, (Tag.marks_of_not_isAnnotated htag).1, Option.isSome_none]
  rw [find?_element, hnot, if_neg Bool.false_ne_true, findAmong?_eq_findSome?]

end Node

namespace Binding

open Node

variable {x n : Node} {nodes : List Node} {stack : Stack} {tag : Tag} {children : List Node}

/-- Walking an element that says nothing about data is walking its children. -/
theorem run_of_not_isAnnotated (htag : tag.isAnnotated = false) :
    (Visit.run ⟨stack, none, .element tag children⟩).fault =
        (visitChildren (fun hold n ↦ Visit.run ⟨stack, hold, n⟩) none 0 children).fault ∧
      ∀ t cs s, Report.visited t cs s ∈ (Visit.run ⟨stack, none, .element tag children⟩).reports →
        (t = tag ∧ s = stack) ∨ Report.visited t cs s ∈
          (visitChildren (fun hold n ↦ Visit.run ⟨stack, hold, n⟩) none 0 children).reports := by
  obtain ⟨hcomponent, htext, hbindings, hcollection⟩ := Tag.marks_of_not_isAnnotated htag
  have hbound : bindAttributes stack tag = .done tag := by
    rw [bindAttributes, hbindings, Walk.forEach]
  have henter : enter stack tag = stack := by rw [enter, hcomponent]
  have hcontent : Visit.content stack none tag children =
      (visitChildren (fun hold n ↦ Visit.run ⟨stack, hold, n⟩) none 0 children).map
        fun around ↦ ⟨.element tag around.1, around.2⟩ := by
    have hplain : (bindAttributes stack tag).value.mark? Mark.collection = none := by
      rw [hbound]
      exact hcollection
    rw [Visit.content_of_plain hplain, Visit.holdShown_none, hbound, Walk.value_done, henter,
      Visit.shown_of_value_eq_none (by rw [boundText_of_mark?_eq_none htext, Walk.value_done])]
  constructor
  · rw [Visit.fault_run_element rfl, boundText_of_mark?_eq_none htext, hbound, hcontent,
      Walk.fault_map]
    rfl
  · intro t cs s hmem
    rcases Visit.visited_mem_run_element rfl hmem with ⟨rfl, -, rfl⟩ | hmem
    · exact Or.inl ⟨rfl, rfl⟩
    · rw [hcontent, Walk.reports_map] at hmem
      exact Or.inr hmem

/-- If each of several trees stops the walk where it has a component, and always with the same
fault, all of them together do. -/
theorem findSome?_fault {faultOf : Node → Option BindError} {fault : Option BindError}
    (h : ∀ n ∈ nodes, faultOf n =
      if (n.find? Tag.declaresComponent).isSome then fault else none) :
    nodes.findSome? faultOf =
      if (nodes.findSome? fun n ↦ n.find? Tag.declaresComponent).isSome then fault else none := by
  induction nodes with
  | nil => rfl
  | cons n rest ih =>
    have hrest := ih fun m hm ↦ h m (List.mem_cons_of_mem n hm)
    rw [List.findSome?_cons, List.findSome?_cons, h n List.mem_cons_self, hrest]
    cases n.find? Tag.declaresComponent with
    | none => simp
    | some found => cases fault <;> simp

/-- Walking a confined tree stops where walking the subtree does, if the subtree occurs at all. -/
theorem fault_run_of_confinedTo (hx : (x.find? Tag.declaresComponent).isSome = true)
    (h : ConfinedTo x n) :
    (Visit.run ⟨stack, none, n⟩).fault =
      if (n.find? Tag.declaresComponent).isSome then (Visit.run ⟨stack, none, x⟩).fault
      else none := by
  induction h with
  | self => rw [if_pos hx]
  | text => rw [Visit.run_text]; simp [find?]
  | @element tag children htag _ ih =>
    rw [(run_of_not_isAnnotated htag).1, fault_visitChildren_none, find?_of_not_isAnnotated htag]
    exact findSome?_fault ih

/-- What is visited in a confined tree is visited in the subtree, or says nothing about data and is
visited with the scopes unchanged. -/
theorem visited_run_of_confinedTo (h : ConfinedTo x n) {t : Tag} {cs : List Node} {s : Stack}
    (hmem : Report.visited t cs s ∈ (Visit.run ⟨stack, none, n⟩).reports) :
    (t.isAnnotated = false ∧ s = stack) ∨
      Report.visited t cs s ∈ (Visit.run ⟨stack, none, x⟩).reports := by
  induction h with
  | self => exact Or.inr hmem
  | text => simp at hmem
  | element htag _ ih =>
    rcases (run_of_not_isAnnotated htag).2 t cs s hmem with ⟨rfl, rfl⟩ | hmem
    · exact Or.inl ⟨htag, rfl⟩
    · obtain ⟨i, m, hm, hmem⟩ := mem_reports_visitChildren hmem
      exact ih m (List.mem_of_getElem? hm) hmem

end Binding

namespace Document

open Binding

variable {d : Document} {input : Value} {x : Node}

/-- Binding into a document that is confined to a component stops where binding into this component
does, if the toggles leave it. -/
theorem fault_bind_of_confinedTo (hx : (x.find? Tag.declaresComponent).isSome = true)
    (h : ∀ n ∈ (d.filterToggles input).1, x.ConfinedTo n) :
    (d.bind input).fault = if (outermostComponent? (d.filterToggles input).1).isSome then
      (Visit.run ⟨.root input, none, x⟩).fault else none := by
  rw [bind_eq, Walk.fault_map, fault_visitChildren_none, outermostComponent?,
    Node.findAmong?_eq_findSome?]
  exact findSome?_fault fun n hn ↦ fault_run_of_confinedTo hx (h n hn)

/-- What binding visits in a document that is confined to a component is visited in the component,
or says nothing about data and is visited under the root scope. -/
theorem visited_of_confinedTo (h : ∀ n ∈ (d.filterToggles input).1, x.ConfinedTo n) {t : Tag}
    {cs : List Node} {s : Stack} (hmem : Binding.Report.visited t cs s ∈ (d.bind input).reports) :
    (t.isAnnotated = false ∧ s = .root input) ∨
      Binding.Report.visited t cs s ∈ (Visit.run ⟨.root input, none, x⟩).reports := by
  rw [bind_eq, Walk.reports_map] at hmem
  obtain ⟨i, n, hn, hmem⟩ := mem_reports_visitChildren hmem
  exact visited_run_of_confinedTo (h n (List.mem_of_getElem? hn)) hmem

end Document

end MarkupBinding
