import MarkupBinding.Proofs.Markup.ItemCount

/-!
# Stencils that toggles keep

Removing what is switched off leaves a collection its stencil as long as neither the stencil nor an
element on the way down to it is switched off (`Stencil.exists_of_filterOffAll`): what stands before
the stencil holds no item mark, and none comes in. The stencil that is left is the old one without
what is switched off below it, and the elements on the way down to it are the same.
-/

set_option autoImplicit false
set_option relaxedAutoImplicit false

namespace MarkupBinding

namespace Node

section ItemMark

variable {place : Place}

/-- Siblings among which no stencil is found hold no item mark, if this is so of each. -/
theorem itemCountAll_eq_zero_of_stencilAmong {nodes : List Node} {first : Nat}
    (h : ∀ n ∈ nodes, ∀ i, stencilIn i n = none → itemCount n = 0)
    (hnone : stencilAmong first nodes = none) : itemCountAll nodes = 0 := by
  induction nodes generalizing first with
  | nil => rfl
  | cons n rest ih =>
    rw [stencilAmong] at hnone
    split at hnone
    · cases hnone
    · next hfirst =>
      rw [itemCountAll, h n List.mem_cons_self first hfirst,
        ih (fun m hm ↦ h m (List.mem_cons_of_mem n hm)) hnone]

/-- A tree holds no item mark exactly where no stencil is found in it. -/
theorem itemCount_eq_zero_iff (n : Node) :
    ∀ i, itemCount n = 0 ↔ stencilIn i n = none := by
  refine fun i ↦ ⟨fun hzero ↦ ?_, ?_⟩
  · cases hin : stencilIn i n with
    | none => rfl
    | some place => exact absurd hzero (Nat.ne_of_gt (itemCount_pos n hin))
  · induction n using induction_on_children generalizing i with
    | text kind content => exact fun _ ↦ rfl
    | element tag children ih =>
      intro hnone
      rw [stencilIn] at hnone
      split at hnone
      · cases hnone
      · next hitem =>
        rw [itemCount, if_neg hitem]
        split at hnone
        · next hcollection => rw [if_pos hcollection]
        · next hcollection =>
          rw [if_neg hcollection]
          exact itemCountAll_eq_zero_of_stencilAmong (fun m hm k ↦ ih m hm k)
            (Option.map_eq_none_iff.1 hnone)

/-- Among siblings that hold an item mark a stencil is found. -/
theorem exists_stencilAmong_of_pos {nodes : List Node} (h : 0 < itemCountAll nodes) :
    ∃ place, stencilAmong 0 nodes = some place := by
  cases hplace : stencilAmong 0 nodes with
  | none =>
    have hzero := itemCountAll_eq_zero_of_stencilAmong
      (fun n _ i ↦ (itemCount_eq_zero_iff n i).2) hplace
    exact absurd hzero (Nat.ne_of_gt h)
  | some place => exact ⟨place, rfl⟩

/-- The first item mark among siblings is in the first of them that holds one. -/
theorem stencilAmong_eq_some_iff {nodes : List Node} {first : Nat} :
    stencilAmong first nodes = some place ↔
      ∃ before n after, nodes = before ++ n :: after ∧ itemCountAll before = 0 ∧
        stencilIn (first + before.length) n = some place := by
  induction nodes generalizing first with
  | nil => simp [stencilAmong]
  | cons m rest ih =>
    rw [stencilAmong]
    cases hm : stencilIn first m with
    | some found =>
      constructor
      · intro h
        exact ⟨[], m, rest, rfl, rfl, hm.trans h⟩
      · rintro ⟨before, n, after, hnodes, hzero, hin⟩
        cases before with
        | nil =>
          obtain ⟨rfl, rfl⟩ := List.cons.inj hnodes
          rw [List.length_nil, Nat.add_zero, hm] at hin
          exact hin
        | cons head before =>
          obtain ⟨rfl, rfl⟩ := List.cons.inj hnodes
          rw [itemCountAll] at hzero
          have hpos := itemCount_pos m hm
          omega
    | none =>
      have hzero : itemCount m = 0 := (itemCount_eq_zero_iff m first).2 hm
      refine ih.trans ⟨?_, ?_⟩
      · rintro ⟨before, n, after, rfl, hbefore, hin⟩
        refine ⟨m :: before, n, after, rfl, by rw [itemCountAll, hzero, hbefore], ?_⟩
        rwa [List.length_cons, Nat.add_comm before.length, ← Nat.add_assoc]
      · rintro ⟨before, n, after, hnodes, hbefore, hin⟩
        cases before with
        | nil =>
          obtain ⟨rfl, rfl⟩ := List.cons.inj hnodes
          rw [List.length_nil, Nat.add_zero, hm] at hin
          cases hin
        | cons head before =>
          obtain ⟨rfl, rfl⟩ := List.cons.inj hnodes
          rw [itemCountAll] at hbefore
          refine ⟨before, n, after, rfl, by omega, ?_⟩
          rwa [List.length_cons, Nat.add_comm before.length, ← Nat.add_assoc] at hin

theorem exists_of_stencilAmong {nodes : List Node} {first : Nat}
    (h : stencilAmong first nodes = some place) : ∃ i rest, place = i :: rest := by
  obtain ⟨_, _, _, -, -, hin⟩ := stencilAmong_eq_some_iff.1 h
  obtain ⟨rest, rfl⟩ := exists_of_stencilIn hin
  exact ⟨_, rest, rfl⟩

end ItemMark

/-! ### What toggles leave -/

section Toggles

variable (off : String → Bool)

/-- A node that is not switched off stays between what is left of the nodes before and after it. -/
theorem filterOffAll_append_cons {n : Node} (hon : n.isOff off = false) (before after : List Node) :
    (filterOffAll off (before ++ n :: after)).1 =
      (filterOffAll off before).1 ++ (filterOff off n).1 :: (filterOffAll off after).1 := by
  simp [filterOffAll_fst, hon]

/-- A sibling that stays is found at some place afterwards, and with it the first item mark, if
there is none before it and it holds one itself. -/
theorem exists_place_of_filterOffAll {before : List Node} {n : Node} (after : List Node)
    (hzero : itemCountAll before = 0) (hon : n.isOff off = false) :
    ∃ i, (filterOffAll off (before ++ n :: after)).1[i]? = some (filterOff off n).1 ∧
      ∀ rest, stencilIn i (filterOff off n).1 = some (i :: rest) →
        stencilAmong 0 (filterOffAll off (before ++ n :: after)).1 = some (i :: rest) := by
  have hleft : itemCountAll (filterOffAll off before).1 = 0 :=
    Nat.le_zero.1 (hzero ▸ itemCountAll_filterOffAll_le off before)
  rw [filterOffAll_append_cons off hon]
  refine ⟨(filterOffAll off before).1.length, by simp, fun rest hin ↦ ?_⟩
  exact stencilAmong_eq_some_iff.2 ⟨_, _, _, rfl, hleft, by rwa [Nat.zero_add]⟩

theorem exists_mem_elementsAll_of_filterOffAll {nodes : List Node} {t : Tag} {cs : List Node}
    (h : (t, cs) ∈ elementsAll (filterOffAll off nodes).1) :
    ∃ children, (t, children) ∈ elementsAll nodes ∧ cs = (filterOffAll off children).1 := by
  obtain ⟨m, hm, hin⟩ := mem_elementsAll_iff.1 h
  obtain ⟨n, hn, -, rfl⟩ := (mem_filterOffAll_fst off).1 hm
  obtain ⟨children, horiginal, hcs⟩ := exists_mem_elements_of_filterOff off n hin
  exact ⟨children, elements_subset_elementsAll hn horiginal, hcs⟩

/-- The first item mark is still there, and with it the way down to it, where nothing on the way is
switched off. -/
theorem exists_stencilAmong_of_filterOffAll {place : Place} :
    ∀ {nodes : List Node} {n : Node}, stencilAmong 0 nodes = some place →
      atPlace? nodes place = some n → n.isOff off = false →
      (∀ t ∈ wayTo nodes place, t.isOff off = false) →
      ∃ left, stencilAmong 0 (filterOffAll off nodes).1 = some left ∧
        atPlace? (filterOffAll off nodes).1 left = some (filterOff off n).1 ∧
        wayTo (filterOffAll off nodes).1 left = wayTo nodes place := by
  induction place with
  | nil => intro nodes n _ hat; simp [atPlace?] at hat
  | cons i rest ih =>
    intro nodes n hstencil hat hon hway
    obtain ⟨before, m, after, rfl, hzero, hin⟩ := stencilAmong_eq_some_iff.1 hstencil
    rw [Nat.zero_add] at hin
    obtain rfl : i = before.length := by
      obtain ⟨_, hplace⟩ := exists_of_stencilIn hin
      exact (List.cons.inj hplace).1
    have hm : (before ++ m :: after)[before.length]? = some m := by simp
    obtain ⟨tag, children, rfl, ⟨hitem, hplace⟩ | ⟨hitem, hcollection, below, hbelow, hplace⟩⟩ :=
      stencilIn_eq_some hin
    · -- the item mark is on one of the siblings
      obtain rfl := (List.cons.inj hplace).2
      obtain rfl : .element tag children = n := by
        rw [atPlace?, hm] at hat
        exact Option.some.inj hat
      obtain ⟨i, hstanding, hfirst⟩ := exists_place_of_filterOffAll off after hzero hon
      refine ⟨[i], hfirst [] ?_, ?_, rfl⟩
      · rw [filterOff_element_fst, stencilIn, if_pos hitem]
      · rw [atPlace?]
        exact hstanding
    · -- it lies below one of them, which is on the way and so is kept
      obtain rfl := (List.cons.inj hplace).2
      obtain ⟨j, rest, rfl⟩ := exists_of_stencilAmong hbelow
      rw [atPlace?_cons_cons hm] at hat
      rw [wayTo_cons_cons hm] at hway ⊢
      have hkept : (Node.element tag children).isOff off = false := hway tag List.mem_cons_self
      obtain ⟨left, hstays, hatLeft, hwayLeft⟩ :=
        ih hbelow hat hon fun t ht ↦ hway t (List.mem_cons_of_mem tag ht)
      obtain ⟨k, tail, rfl⟩ := exists_of_stencilAmong hstays
      obtain ⟨i, hstanding, hfirst⟩ := exists_place_of_filterOffAll off after hzero hkept
      rw [filterOff_element_fst] at hstanding hfirst
      refine ⟨i :: k :: tail, hfirst (k :: tail) ?_, ?_, ?_⟩
      · rw [stencilIn, if_neg (by simp [hitem]), if_neg (by simp [hcollection]), hstays,
          Option.map_some]
      · rw [atPlace?_cons_cons hstanding, hatLeft]
      · rw [wayTo_cons_cons hstanding, hwayLeft]

end Toggles

end Node

namespace Stencil

/-- A collection keeps its stencil where neither the stencil nor an element on the way down to it is
switched off. -/
theorem exists_of_filterOffAll (off : String → Bool) {tag : Tag} {children : List Node}
    {stencil : Stencil} (h : Stencil.of tag children = .ok stencil)
    (hon : stencil.node.isOff off = false)
    (hway : ∀ t ∈ Node.wayTo children stencil.place, t.isOff off = false) :
    ∃ left, Stencil.of tag (Node.filterOffAll off children).1 = .ok left ∧
      left.node = (Node.filterOff off stencil.node).1 ∧ left.item = stencil.item ∧
      Node.wayTo (Node.filterOffAll off children).1 left.place =
        Node.wayTo children stencil.place := by
  obtain ⟨hplace, hat, itemTag, itemChildren, hnode, hitem⟩ := of_eq_ok h
  obtain ⟨left, hstays, hatLeft, hwayLeft⟩ :=
    Node.exists_stencilAmong_of_filterOffAll off hplace hat hon hway
  rw [hnode, Node.filterOff_element_fst] at hatLeft
  refine ⟨⟨left, .element itemTag (Node.filterOffAll off itemChildren).1, stencil.item⟩, ?_, ?_,
    rfl, hwayLeft⟩
  · simp only [Stencil.of, hstays, hatLeft, hitem]
  · rw [hnode, Node.filterOff_element_fst]

end Stencil

end MarkupBinding
