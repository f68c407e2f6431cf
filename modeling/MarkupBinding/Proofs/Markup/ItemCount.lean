import MarkupBinding.Proofs.Markup.StencilPlace

/-!
# Counting item marks

`Node.itemCount` counts the item marks that a collection around a tree can take its stencil from:
those that are not below another collection or another item mark. Where there is at most one among
siblings, the siblings beside the one that holds it hold none (`itemCount_eq_zero_beside`). Removing
what is switched off adds none (`itemCountAll_filterOffAll_le`).
-/

set_option autoImplicit false
set_option relaxedAutoImplicit false

namespace MarkupBinding.Node

mutual

/-- The number of item marks in a tree that are not below a collection or another item mark. -/
def itemCount : Node → Nat
  | element tag children =>
    if tag.has Mark.collectionItem then 1
    else if tag.has Mark.collection then 0
    else itemCountAll children
  | text _ _ => 0

/-- The number of such item marks in several trees. -/
def itemCountAll : List Node → Nat
  | [] => 0
  | n :: rest => itemCount n + itemCountAll rest

end

variable {nodes : List Node} {n m : Node} {i j : Nat} {place : Place}

theorem itemCount_le_itemCountAll (hn : n ∈ nodes) : itemCount n ≤ itemCountAll nodes := by
  induction nodes with
  | nil => simp at hn
  | cons m rest ih =>
    rw [itemCountAll]
    rcases List.mem_cons.1 hn with rfl | hrest
    · exact Nat.le_add_right _ _
    · exact Nat.le_trans (ih hrest) (Nat.le_add_left _ _)

/-- Two different siblings hold no more item marks than all siblings together. -/
theorem itemCount_add_le (hn : nodes[i]? = some n) (hm : nodes[j]? = some m) (hne : i ≠ j) :
    itemCount n + itemCount m ≤ itemCountAll nodes := by
  induction nodes generalizing i j with
  | nil => simp at hn
  | cons first rest ih =>
    rw [itemCountAll]
    cases i with
    | zero =>
      obtain rfl := Option.some.inj hn
      cases j with
      | zero => exact absurd rfl hne
      | succ j =>
        rw [List.getElem?_cons_succ] at hm
        have hle := itemCount_le_itemCountAll (List.mem_of_getElem? hm)
        omega
    | succ i =>
      rw [List.getElem?_cons_succ] at hn
      cases j with
      | zero =>
        obtain rfl := Option.some.inj hm
        have hle := itemCount_le_itemCountAll (List.mem_of_getElem? hn)
        omega
      | succ j =>
        rw [List.getElem?_cons_succ] at hm
        have hle := ih hn hm (by omega)
        omega

/-- A tree that a stencil can be found in holds an item mark. -/
theorem itemCount_pos (n : Node) :
    ∀ {i : Nat} {place : Place}, stencilIn i n = some place → 0 < itemCount n := by
  induction n using induction_on_children with
  | text kind content => intro i place h; simp [stencilIn] at h
  | element tag children ih =>
    intro i place h
    obtain ⟨_, _, hnode, ⟨hitem, -⟩ | ⟨hitem, hcollection, rest, hrest, -⟩⟩ := stencilIn_eq_some h
    · obtain ⟨rfl, rfl⟩ := element.inj hnode
      rw [itemCount, if_pos hitem]
      exact Nat.one_pos
    · obtain ⟨rfl, rfl⟩ := element.inj hnode
      obtain ⟨k, m, hm, hin⟩ := stencilAmong_eq_some hrest
      have hmem := List.mem_of_getElem? hm
      rw [itemCount, if_neg (by simp [hitem]), if_neg (by simp [hcollection])]
      exact Nat.lt_of_lt_of_le (ih m hmem hin) (itemCount_le_itemCountAll hmem)

/-- Where siblings hold one item mark at most, those beside the one that it is found in hold none.
-/
theorem itemCount_eq_zero_beside (h : stencilAmong 0 nodes = some (i :: place))
    (hcount : itemCountAll nodes ≤ 1) (hm : nodes[j]? = some m) (hne : i ≠ j) :
    itemCount m = 0 := by
  obtain ⟨k, n, hn, hin⟩ := stencilAmong_eq_some h
  have hpos := itemCount_pos n hin
  obtain rfl : i = 0 + k := by
    obtain ⟨_, hplace⟩ := exists_of_stencilIn hin
    exact (List.cons.inj hplace).1
  rw [Nat.zero_add] at hne
  have hle := itemCount_add_le hn hm hne
  omega

/-- Several trees hold no more item marks after each was changed to one that holds no more. -/
theorem itemCountAll_filterOffAll_le_of_forall (off : String → Bool)
    (h : ∀ n ∈ nodes, itemCount (filterOff off n).1 ≤ itemCount n) :
    itemCountAll (filterOffAll off nodes).1 ≤ itemCountAll nodes := by
  rw [filterOffAll_fst]
  induction nodes with
  | nil => simp [itemCountAll]
  | cons n rest ih =>
    have hfirst := h n List.mem_cons_self
    have hrest := ih fun m hm ↦ h m (List.mem_cons_of_mem n hm)
    rw [itemCountAll, List.filter_cons]
    split
    · rw [List.map_cons, itemCountAll]
      omega
    · omega

/-- Removing what is switched off adds no item marks. -/
theorem itemCount_filterOff_le (off : String → Bool) (n : Node) :
    itemCount (filterOff off n).1 ≤ itemCount n := by
  induction n using induction_on_children with
  | text kind content => exact Nat.le_refl _
  | element tag children ih =>
    rw [filterOff_element_fst, itemCount, itemCount]
    split
    · exact Nat.le_refl 1
    · split
      · exact Nat.le_refl 0
      · exact itemCountAll_filterOffAll_le_of_forall off ih

theorem itemCountAll_filterOffAll_le (off : String → Bool) (nodes : List Node) :
    itemCountAll (filterOffAll off nodes).1 ≤ itemCountAll nodes :=
  itemCountAll_filterOffAll_le_of_forall off fun n _ ↦ itemCount_filterOff_le off n

end MarkupBinding.Node
