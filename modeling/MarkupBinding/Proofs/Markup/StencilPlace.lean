import MarkupBinding.Proofs.Markup.Elements
import MarkupBinding.Proofs.Markup.Marks

/-!
# The place of a stencil

A place is followed from sibling list to sibling list: `Node.siblingsAt` is the list that the node
at a place stands in, and `Node.wayTo` lists the tags of the elements on the way down to it.
Replacing the node at a place changes the list at its place there and leaves its neighbours
(`replaceAt_length`, `replaceAt_cons_cons`).

The stencil of a collection lies at the place of an item mark, and no element on the way down to it
is an item or a collection. `stencilAmong_cases` says this one step at a time, which is the form in
which inductions along the place use it, and `Stencil.of_eq_ok` says what the stencil of a
collection is.
-/

set_option autoImplicit false
set_option relaxedAutoImplicit false

namespace MarkupBinding

namespace Node

/-- The list that the node at a place stands in: the children of the parent of that node. -/
def siblingsAt : List Node → Place → List Node
  | siblings, i :: j :: place =>
    match siblings[i]? with
    | some node => siblingsAt node.children (j :: place)
    | none => []
  | siblings, _ => siblings

/-- The tags of the elements that are passed on the way down to the node at a place. -/
def wayTo : List Node → Place → List Tag
  | siblings, i :: j :: place =>
    match siblings[i]? with
    | some (element tag children) => tag :: wayTo children (j :: place)
    | _ => []
  | _, _ => []

section Following

variable {nodes children : List Node} {tag : Tag} {i j : Nat} {place : Place}

theorem siblingsAt_cons_cons (h : nodes[i]? = some (.element tag children)) :
    siblingsAt nodes (i :: j :: place) = siblingsAt children (j :: place) := by
  rw [siblingsAt, h]
  rfl

theorem wayTo_cons_cons (h : nodes[i]? = some (.element tag children)) :
    wayTo nodes (i :: j :: place) = tag :: wayTo children (j :: place) := by
  rw [wayTo, h]

theorem atPlace?_cons_cons (h : nodes[i]? = some (.element tag children)) :
    atPlace? nodes (i :: j :: place) = atPlace? children (j :: place) := by
  rw [atPlace?.eq_3 _ _ _ (List.cons_ne_nil j place), h]
  rfl

/-- The way down to a node at a deeper place goes through an element. -/
theorem exists_of_atPlace?_cons_cons {n : Node} (h : atPlace? nodes (i :: j :: place) = some n) :
    ∃ tag children, nodes[i]? = some (.element tag children) ∧
      atPlace? children (j :: place) = some n := by
  rw [atPlace?.eq_3 _ _ _ (List.cons_ne_nil j place)] at h
  cases hi : nodes[i]? with
  | none => simp [hi] at h
  | some parent =>
    rw [hi] at h
    cases parent with
    | text kind content => cases place <;> simp [atPlace?, Node.children] at h
    | element tag children => exact ⟨tag, children, rfl, h⟩

theorem replaceAt_cons_cons (new : List Node) (h : nodes[i]? = some (.element tag children)) :
    replaceAt new nodes (i :: j :: place) =
      nodes.set i (.element tag (replaceAt new children (j :: place))) := by
  have hi : i < nodes.length := (List.getElem?_eq_some_iff.1 h).1
  rw [replaceAt.eq_3 _ _ _ _ (List.cons_ne_nil j place), h, List.set_eq_take_append_cons_drop,
    if_pos hi]
  rfl

/-- Replacing the node at a place puts the new nodes where it stood, between its neighbours. -/
theorem replaceAt_length (new before after : List Node) (n : Node) :
    replaceAt new (before ++ n :: after) [before.length] = before ++ new ++ after := by
  simp [replaceAt]

/-- The siblings at a place are listed among the nodes that the place is followed from. -/
theorem elementsAll_siblingsAt_subset :
    ∀ (place : Place) (nodes : List Node), elementsAll (siblingsAt nodes place) ⊆ elementsAll nodes
  | [], nodes => List.Subset.refl (elementsAll nodes)
  | [_], nodes => List.Subset.refl (elementsAll nodes)
  | i :: j :: place, nodes => by
    rw [siblingsAt]
    cases hi : nodes[i]? with
    | none => simp [elementsAll]
    | some n =>
      have hbelow := elementsAll_siblingsAt_subset (j :: place) n.children
      refine List.Subset.trans hbelow (List.Subset.trans ?_
        (elements_subset_elementsAll (List.mem_of_getElem? hi)))
      cases n with
      | text kind content => simp [Node.children, elementsAll]
      | element tag children => exact List.subset_cons_self _ _

/-- The tags on the way to a place are those of elements among the nodes. -/
theorem wayTo_subset_tagsAll :
    ∀ (place : Place) (nodes : List Node), wayTo nodes place ⊆ tagsAll nodes
  | [], _ => List.nil_subset _
  | [_], _ => List.nil_subset _
  | i :: j :: place, nodes => by
    rw [wayTo]
    split
    · next tag children hi =>
      have hsub := tags_subset_tagsAll (List.mem_of_getElem? hi)
      rw [tags_element] at hsub
      have hbelow := wayTo_subset_tagsAll (j :: place) children
      exact List.cons_subset.2 ⟨hsub List.mem_cons_self,
        List.Subset.trans hbelow (List.Subset.trans (List.subset_cons_self tag _) hsub)⟩
    · exact List.nil_subset _

end Following

/-! ### The way down to an item mark -/

section ItemMark

variable {place : Place}

/-- The place of an item mark among siblings begins with the number of the sibling that it is in. -/
theorem stencilAmong_eq_some {nodes : List Node} {first : Nat}
    (h : stencilAmong first nodes = some place) :
    ∃ i n, nodes[i]? = some n ∧ stencilIn (first + i) n = some place := by
  induction nodes generalizing first with
  | nil => simp [stencilAmong] at h
  | cons m rest ih =>
    rw [stencilAmong] at h
    cases hm : stencilIn first m with
    | some found =>
      rw [hm] at h
      exact ⟨0, m, rfl, by rw [Nat.add_zero, hm, ← h]⟩
    | none =>
      rw [hm] at h
      obtain ⟨i, n, hn, hin⟩ := ih h
      exact ⟨i + 1, n, hn, by rw [← hin, Nat.add_assoc, Nat.add_comm 1 i]⟩

/-- A tree with an item mark that is not below another collection is an item itself, or an element
that is no collection and has such a mark below it. -/
theorem stencilIn_eq_some {n : Node} {i : Nat} (h : stencilIn i n = some place) :
    ∃ tag children, n = .element tag children ∧
      (tag.has Mark.collectionItem = true ∧ place = [i] ∨
        tag.has Mark.collectionItem = false ∧ tag.has Mark.collection = false ∧
          ∃ rest, stencilAmong 0 children = some rest ∧ place = i :: rest) := by
  cases n with
  | text kind content => simp [stencilIn] at h
  | element tag children =>
    refine ⟨tag, children, rfl, ?_⟩
    rw [stencilIn] at h
    by_cases hitem : tag.has Mark.collectionItem = true
    · rw [if_pos hitem] at h
      exact Or.inl ⟨hitem, (Option.some.inj h).symm⟩
    · by_cases hcollection : tag.has Mark.collection = true
      · simp [hitem, hcollection] at h
      · rw [if_neg hitem, if_neg hcollection] at h
        obtain ⟨rest, hrest, rfl⟩ := Option.map_eq_some_iff.1 h
        exact Or.inr ⟨by simpa using hitem, by simpa using hcollection, rest, hrest, rfl⟩

/-- The place of an item mark in a tree begins with the number of the tree. -/
theorem exists_of_stencilIn {n : Node} {i : Nat} (h : stencilIn i n = some place) :
    ∃ rest, place = i :: rest := by
  obtain ⟨_, _, _, ⟨_, rfl⟩ | ⟨_, _, rest, _, rfl⟩⟩ := stencilIn_eq_some h
  · exact ⟨[], rfl⟩
  · exact ⟨rest, rfl⟩

/-- An element on the way to an item mark is neither an item nor a collection, and the way goes on
among its children. -/
theorem stencilAmong_of_stencilIn {tag : Tag} {children : List Node} {i : Nat}
    (h : stencilIn i (.element tag children) = some (i :: place)) (hne : place ≠ []) :
    tag.has Mark.collectionItem = false ∧ tag.has Mark.collection = false ∧
      stencilAmong 0 children = some place := by
  obtain ⟨_, _, hnode, ⟨_, hplace⟩ | ⟨hitem, hcollection, rest, hrest, hplace⟩⟩ :=
    stencilIn_eq_some h
  · exact absurd (List.cons.inj hplace).2 hne
  · obtain ⟨rfl, rfl⟩ := element.inj hnode
    exact ⟨hitem, hcollection, by rw [hrest, (List.cons.inj hplace).2]⟩

/-- One step on the way down to the place of the first item mark: either the mark is on a sibling,
or it lies below a sibling that is neither an item nor a collection. -/
theorem stencilAmong_cases {nodes : List Node}
    (h : stencilAmong 0 nodes = some place) :
    (∃ i tag children, place = [i] ∧ nodes[i]? = some (.element tag children) ∧
        tag.has Mark.collectionItem = true) ∨
      ∃ i j rest tag children, place = i :: j :: rest ∧
        nodes[i]? = some (.element tag children) ∧ tag.has Mark.collectionItem = false ∧
        tag.has Mark.collection = false ∧ stencilAmong 0 children = some (j :: rest) := by
  obtain ⟨i, n, hn, hin⟩ := stencilAmong_eq_some h
  rw [Nat.zero_add] at hin
  obtain ⟨tag, children, rfl, ⟨hitem, rfl⟩ | ⟨hitem, hcollection, rest, hrest, rfl⟩⟩ :=
    stencilIn_eq_some hin
  · exact Or.inl ⟨i, tag, children, rfl, hn, hitem⟩
  · obtain ⟨k, m, _, hk⟩ := stencilAmong_eq_some hrest
    rw [Nat.zero_add] at hk
    obtain ⟨below, rfl⟩ := exists_of_stencilIn hk
    exact Or.inr ⟨i, k, below, tag, children, rfl, hn, hitem, hcollection, hrest⟩

/-- The place of an item mark in a tree differs from one numbering of the tree to the other in its
first number alone. -/
theorem stencilIn_renumber {n : Node} {i : Nat} (h : stencilIn i n = some (i :: place))
    (j : Nat) : stencilIn j n = some (j :: place) := by
  obtain ⟨tag, children, rfl, ⟨hitem, hplace⟩ | ⟨hitem, hcollection, rest, hrest, hplace⟩⟩ :=
    stencilIn_eq_some h
  · rw [(List.cons.inj hplace).2, stencilIn, if_pos hitem]
  · rw [(List.cons.inj hplace).2, stencilIn, if_neg (by simp [hitem]),
      if_neg (by simp [hcollection]), hrest, Option.map_some]

/-- The place of the first item mark among siblings goes on, in the sibling that it leads through,
to the first item mark there. -/
theorem stencilIn_of_stencilAmong {nodes : List Node} {n : Node} {i : Nat}
    (h : stencilAmong 0 nodes = some (i :: place)) (hn : nodes[i]? = some n) :
    stencilIn 0 n = some (0 :: place) := by
  obtain ⟨k, m, hm, hin⟩ := stencilAmong_eq_some h
  rw [Nat.zero_add] at hin
  obtain rfl : i = k := by
    obtain ⟨_, hplace⟩ := exists_of_stencilIn hin
    exact (List.cons.inj hplace).1
  obtain rfl : m = n := Option.some.inj (hm.symm.trans hn)
  exact stencilIn_renumber hin 0

/-- At the place of the first item mark among siblings stands an element with this mark. -/
theorem exists_atPlace?_of_stencilAmong :
    ∀ {nodes : List Node}, stencilAmong 0 nodes = some place →
      ∃ tag children, atPlace? nodes place = some (.element tag children) ∧
        tag.has Mark.collectionItem = true := by
  induction place with
  | nil =>
    intro nodes h
    rcases stencilAmong_cases h with ⟨_, _, _, heq, -⟩ | ⟨_, _, _, _, _, heq, -⟩ <;> cases heq
  | cons i rest ih =>
    intro nodes h
    rcases stencilAmong_cases h with
      ⟨_, tag, children, heq, hn, hitem⟩ | ⟨_, j, below, tag, children, heq, hn, -, -, hbelow⟩
    · obtain ⟨rfl, rfl⟩ := List.cons.inj heq
      exact ⟨tag, children, hn, hitem⟩
    · obtain ⟨rfl, rfl⟩ := List.cons.inj heq
      rw [atPlace?_cons_cons hn]
      exact ih hbelow

/-- A node at a place is listed among what it is taken from. -/
theorem elements_subset_of_atPlace? :
    ∀ {nodes : List Node} {n : Node}, atPlace? nodes place = some n →
      n.elements ⊆ elementsAll nodes ∧ n.height ≤ heightAll nodes := by
  induction place with
  | nil => intro nodes n h; simp [atPlace?] at h
  | cons i rest ih =>
    intro nodes n h
    cases rest with
    | nil =>
      rw [atPlace?] at h
      have hmem : n ∈ nodes := List.mem_of_getElem? h
      exact ⟨elements_subset_elementsAll hmem, height_le_heightAll hmem⟩
    | cons j place =>
      obtain ⟨tag, children, hi, hbelow⟩ := exists_of_atPlace?_cons_cons h
      obtain ⟨hsub, hheight⟩ := ih hbelow
      have hlisted := elements_subset_elementsAll (List.mem_of_getElem? hi)
      have hle := height_le_heightAll (List.mem_of_getElem? hi)
      rw [elements_element] at hlisted
      rw [height_element] at hle
      refine ⟨fun e he ↦ hlisted (List.mem_cons_of_mem _ (hsub he)), ?_⟩
      exact Nat.le_trans hheight (Nat.le_trans (Nat.le_succ _) hle)

/-- The tag of an element at a place is listed among those that it is taken from. -/
theorem mem_tagsAll_of_atPlace? {nodes children : List Node} {tag : Tag}
    (h : atPlace? nodes place = some (.element tag children)) : tag ∈ tagsAll nodes := by
  have hmem : (tag, children) ∈ (Node.element tag children).elements := by
    rw [elements_element]
    exact List.mem_cons_self
  exact mem_tagsAll_of_mem_elementsAll ((elements_subset_of_atPlace? h).1 hmem)

end ItemMark

end Node

/-! ### The stencil of a collection -/

namespace Stencil

variable {tag other : Tag} {children : List Node} {stencil : Stencil}

/-- The stencil of a collection: the element at the place of the first item mark, with the scope
name that this mark gives. -/
theorem of_eq_ok (h : Stencil.of tag children = .ok stencil) :
    Node.stencilAmong 0 children = some stencil.place ∧
      Node.atPlace? children stencil.place = some stencil.node ∧
      ∃ itemTag itemChildren, stencil.node = .element itemTag itemChildren ∧
        itemTag.mark? Mark.collectionItem = some stencil.item := by
  simp only [Stencil.of] at h
  split at h
  · simp at h
  · next place hplace =>
    split at h
    · next itemTag itemChildren hat =>
      split at h
      · next item hitem =>
        obtain rfl := Except.ok.inj h
        exact ⟨hplace, hat, itemTag, itemChildren, rfl, hitem⟩
      · simp at h
    · simp at h

/-- Which stencil a collection has hangs on its children alone. -/
theorem of_congr (h : Stencil.of tag children = .ok stencil) (other : Tag) :
    Stencil.of other children = .ok stencil := by
  obtain ⟨hplace, hat, itemTag, itemChildren, hnode, hitem⟩ := of_eq_ok h
  obtain ⟨place, node, item⟩ := stencil
  simp only at hplace hat hnode hitem
  subst hnode
  simp only [Stencil.of, hplace, hat, hitem]

/-- The elements of a stencil are among those below its collection. -/
theorem elements_subset (h : Stencil.of tag children = .ok stencil) :
    stencil.node.elements ⊆ Node.elementsAll children :=
  (Node.elements_subset_of_atPlace? (of_eq_ok h).2.1).1

theorem height_le (h : Stencil.of tag children = .ok stencil) :
    stencil.node.height ≤ Node.heightAll children :=
  (Node.elements_subset_of_atPlace? (of_eq_ok h).2.1).2

end Stencil

end MarkupBinding
