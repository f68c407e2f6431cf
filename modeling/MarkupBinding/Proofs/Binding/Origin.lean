import MarkupBinding.Proofs.Binding.Visit

/-!
# Where visits come from

Binding changes tags and repeats stencils, but it never visits what it has changed: every element
that is visited stands in the document as the toggles left it, but for its own item mark, which a
copy of a stencil has lost (`Visit.From`). The place that is held back at a visit is always that of
the first item mark there, so a collection is never on the way to a held stencil
(`From.hold_eq_none`). Both are kept from one visit to those it leads to (`From.step`), and so hold
of every visit of the walk over a document (`Document.from_of_visits`).
-/

set_option autoImplicit false
set_option relaxedAutoImplicit false

namespace MarkupBinding

namespace Binding.Visit

/-- The node of a visit stands among the given nodes, but for an item mark, and what is held back at
it is the stencil below it. -/
structure From (forest : List Node) (v : Visit) : Prop where
  origin : ∀ tag children, v.node = .element tag children →
    ∃ original, (original, children) ∈ Node.elementsAll forest ∧
      (tag = original ∨ tag = original.erase Mark.collectionItem)
  hold : ∀ place, v.hold = some place → Node.stencilIn 0 v.node = some (0 :: place)

namespace From

variable {forest : List Node} {v w : Visit} {stack : Stack} {hold : Option Place} {tag : Tag}
  {children : List Node}

/-- The marks of a visited element are those of an element among the nodes, but for the item mark.
-/
theorem exists_original (h : From forest ⟨stack, hold, .element tag children⟩) :
    ∃ original, (original, children) ∈ Node.elementsAll forest ∧
      tag.attributeBindings = original.attributeBindings ∧
      ∀ name, name ≠ Mark.collectionItem → tag.mark? name = original.mark? name := by
  obtain ⟨original, hin, hsame⟩ := h.origin tag children rfl
  exact ⟨original, hin, Tag.attributeBindings_of_eq_or_erase hsame,
    fun _ hname ↦ Tag.mark?_of_eq_or_erase hsame hname⟩

theorem elementsAll_subset (h : From forest ⟨stack, hold, .element tag children⟩) :
    Node.elementsAll children ⊆ Node.elementsAll forest := by
  obtain ⟨_, hin, _⟩ := h.origin tag children rfl
  exact Node.elementsAll_subset_elementsAll hin

/-- Where no binding of the nodes sets a mark, none of a visited element does. -/
theorem keepsMarks (h : From forest ⟨stack, hold, .element tag children⟩)
    (hmarks : ∀ t ∈ Node.tagsAll forest, t.KeepsMarks) : tag.KeepsMarks := by
  obtain ⟨original, hin, hsame⟩ := h.origin tag children rfl
  exact (hmarks original (Node.mem_tagsAll_of_mem_elementsAll hin)).of_eq_or_erase hsame

/-- A collection that is visited is not on the way to a stencil that is held back. -/
theorem hold_eq_none (h : From forest ⟨stack, hold, .element tag children⟩)
    (hheld : isHeld hold = false) {raw : String} (hmark : tag.mark? Mark.collection = some raw) :
    hold = none := by
  cases hhold : hold with
  | none => rfl
  | some place =>
    rw [hhold] at hheld
    obtain ⟨-, hcollection, -⟩ :=
      Node.stencilAmong_of_stencilIn (h.hold place hhold) (ne_nil_of_isHeld_eq_false hheld)
    simp [Tag.has_of_mark? hmark] at hcollection

/-- A node that stands among children that come from the nodes comes from them. -/
theorem of_mem (hchildren : Node.elementsAll children ⊆ Node.elementsAll forest) {n : Node}
    (hn : n ∈ children)
    (hhold : ∀ place, hold = some place → Node.stencilIn 0 n = some (0 :: place)) :
    From forest ⟨stack, hold, n⟩ := by
  refine ⟨fun t cs hnode ↦ ⟨t, ?_, Or.inl rfl⟩, hhold⟩
  obtain rfl : n = .element t cs := hnode
  refine hchildren (Node.elements_subset_elementsAll hn ?_)
  rw [Node.elements_element]
  exact List.mem_cons_self

/-- What is held back below a sibling is the stencil below it. -/
theorem stencilIn_of_holdBelow {i : Nat} {n : Node} {place : Place} (hn : children[i]? = some n)
    (hstencil : ∀ q, hold = some q → q ≠ [] → Node.stencilAmong 0 children = some q)
    (hhold : holdBelow i hold = some place) : Node.stencilIn 0 n = some (0 :: place) := by
  match hold, hhold with
  | some (j :: q), hhold =>
    rw [holdBelow] at hhold
    split at hhold
    · next heq =>
      obtain rfl := heq
      obtain rfl := Option.some.inj hhold
      exact Node.stencilIn_of_stencilAmong (hstencil _ rfl (List.cons_ne_nil i q)) hn
    · cases hhold

theorem mono {larger : List Node} (h : From forest v)
    (hsub : Node.elementsAll forest ⊆ Node.elementsAll larger) : From larger v := by
  refine ⟨fun tag children hnode ↦ ?_, h.hold⟩
  obtain ⟨original, hin, hsame⟩ := h.origin tag children hnode
  exact ⟨original, hsub hin, hsame⟩

/-- What a visit of an element leads to comes from the children of the element. -/
theorem of_leadsTo
    (hhold : ∀ place, hold = some place →
      Node.stencilIn 0 (.element tag children) = some (0 :: place))
    (hw : LeadsTo ⟨stack, hold, .element tag children⟩ w) : From children w := by
  cases hw with
  | @child stack hold tag children i n hheld htext hplain hn =>
    refine of_mem (List.Subset.refl _) (List.mem_of_getElem? hn) fun place hplace ↦
      stencilIn_of_holdBelow hn (fun q hq hne ↦ ?_) hplace
    exact (Node.stencilAmong_of_stencilIn (hhold q hq) hne).2.2
  | @around stack hold tag children raw stencil items i n hheld htext hcollection hstencil hitems
      hn =>
    refine of_mem (List.Subset.refl _) (List.mem_of_getElem? hn) fun place hplace ↦
      stencilIn_of_holdBelow hn (fun q hq _ ↦ ?_) hplace
    obtain rfl := Option.some.inj hq
    exact (Stencil.of_eq_ok hstencil).1
  | @copy stack hold tag children raw stencil items item hheld htext hcollection hstencil hitems
      hitem =>
    obtain ⟨_, _, itemTag, itemChildren, hnode, _⟩ := Stencil.of_eq_ok hstencil
    refine ⟨fun t cs heq ↦ ⟨itemTag, ?_, Or.inr ?_⟩, fun _ hhold ↦ by cases hhold⟩
    · simp only [hnode, copyOf, Node.element.injEq] at heq
      obtain ⟨-, rfl⟩ := heq
      have hmem : (itemTag, itemChildren) ∈ stencil.node.elements := by
        rw [hnode, Node.elements_element]
        exact List.mem_cons_self
      exact Stencil.elements_subset hstencil hmem
    · simp only [hnode, copyOf, Node.element.injEq] at heq
      exact heq.1.symm

/-- A visit hands on where it comes from. -/
theorem step (h : From forest v) (hw : v.LeadsTo w) : From forest w := by
  obtain ⟨stack, hold, node⟩ := v
  cases node with
  | text kind content => cases hw
  | element tag children => exact (of_leadsTo h.hold hw).mono h.elementsAll_subset

end From

end Binding.Visit

/-- Every visit of the walk over a document comes from what the toggles leave of the document. -/
theorem Document.from_of_visits {d : Document} {input : Value} {v : Binding.Visit}
    (hv : d.Visits input v) : Binding.Visit.From (d.filterToggles input).1 v :=
  Document.of_visits
    (fun _ hn ↦ Binding.Visit.From.of_mem (List.Subset.refl _) hn fun _ hhold ↦ by cases hhold)
    (fun _ _ h hw ↦ Binding.Visit.From.step h hw) hv

/-- Where no binding of a document sets a mark, none of those that the toggles leave does. -/
theorem Document.keepsMarks_filterToggles {d : Document} (h : ∀ t ∈ d.tags, t.KeepsMarks)
    (input : Value) :
    ∀ t ∈ Node.tagsAll (d.filterToggles input).1, t.KeepsMarks :=
  fun t ht ↦ h t (Node.tagsAll_filterOffAll_subset _ d ht)

end MarkupBinding
