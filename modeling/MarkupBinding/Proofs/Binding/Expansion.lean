import MarkupBinding.Proofs.Binding.Origin
import Mathlib.Data.List.Forall2

/-!
# Expanding collections

What a collection that was walked to its end looks like. `Bound` says what visiting a node under a
stack of scopes gives. `Filled` says that nodes stand in the list of the stencil where the stencil
stood, with the other nodes of the list in order around them, bound under the scopes that the
components on the way to the stencil open. `Expanded` says that these nodes are bound copies of the
stencil, one for each item in order, each under the item's scope.

The walk around a stencil that is held back leaves the stencil where it was (`filled_around`),
because no element on the way to it is a collection or has a text binding.
-/

set_option autoImplicit false
set_option relaxedAutoImplicit false

namespace MarkupBinding.Binding

/-- Visiting a node under a stack of scopes reaches its end and gives the other node. -/
def Bound (stack : Stack) (n result : Node) : Prop :=
  (Visit.run ⟨stack, none, n⟩).fault = none ∧ (Visit.run ⟨stack, none, n⟩).value.node = result

/-- In the list of the node at a place, new nodes stand where it stood; the others of the list stand
around them in order, bound under the scopes that are open there. -/
def Filled (stack : Stack) (place : Place) (n : Node) (new children result : List Node) : Prop :=
  ∃ way before after before' after',
    place = way ++ [before.length] ∧
    Node.siblingsAt children place = before ++ n :: after ∧
    Node.siblingsAt result place = before' ++ new ++ after' ∧
    List.Forall₂ (Bound ((Node.wayTo children place).foldl enter stack)) before before' ∧
    List.Forall₂ (Bound ((Node.wayTo children place).foldl enter stack)) after after'

/-- A bound copy of the stencil for each item, in order, stands in the place of the stencil. -/
def Expanded (stack : Stack) (stencil : Stencil) (items : List Value)
    (children result : List Node) : Prop :=
  ∃ clones, Filled stack stencil.place stencil.node clones children result ∧
    List.Forall₂ (fun item clone ↦ clone.isElement = true ∧
      Bound (stack.push stencil.item item) (copyOf stencil.node) clone) items clones

/-! ### Siblings -/

section Siblings

variable {stack : Stack} {hold : Option Place}

/-- Siblings below which nothing is held back are each bound. -/
theorem forall₂_bound_visitChildren {nodes : List Node} :
    ∀ {first : Nat}, (∀ k, first ≤ k → holdBelow k hold = none) →
      (visitChildren (fun hold n ↦ Visit.run ⟨stack, hold, n⟩) hold first nodes).fault = none →
      List.Forall₂ (Bound stack) nodes
        (visitChildren (fun hold n ↦ Visit.run ⟨stack, hold, n⟩) hold first nodes).value.1 := by
  induction nodes with
  | nil => intro first _ _; exact .nil
  | cons n rest ih =>
    intro first hhold hfault
    obtain ⟨hfirst, hrest, hvalue⟩ := visitChildren_cons hfault
    rw [hvalue]
    rw [hhold first (Nat.le_refl first)] at hfirst ⊢
    exact .cons ⟨hfirst, rfl⟩ (ih (fun k hk ↦ hhold k (Nat.le_of_succ_le hk)) hrest)

/-- Among siblings one of which is held back, that one stays and the others are each bound. -/
theorem forall₂_bound_visitChildren_held {nodes : List Node} {tag : Tag} {children : List Node} :
    ∀ {first i : Nat}, nodes[i]? = some (.element tag children) →
      (visitChildren (fun hold n ↦ Visit.run ⟨stack, hold, n⟩) (some [first + i]) first
        nodes).fault = none →
      ∃ before after before' after', i = before.length ∧ i = before'.length ∧
        nodes = before ++ .element tag children :: after ∧
        (visitChildren (fun hold n ↦ Visit.run ⟨stack, hold, n⟩) (some [first + i]) first
          nodes).value.1 = before' ++ .element tag children :: after' ∧
        List.Forall₂ (Bound stack) before before' ∧ List.Forall₂ (Bound stack) after after' := by
  induction nodes with
  | nil => intro first i hn _; simp at hn
  | cons m rest ih =>
    intro first i hn hfault
    obtain ⟨hfirst, hrest, hvalue⟩ := visitChildren_cons hfault
    cases i with
    | zero =>
      obtain rfl := Option.some.inj hn
      have hafter : ∀ k, first + 1 ≤ k → holdBelow k (some [first + 0]) = none :=
        fun k hk ↦ if_neg (by omega)
      have hheld : holdBelow first (some [first + 0]) = some [] := if_pos rfl
      have hstays : (Visit.run ⟨stack, some [], .element tag children⟩).value.node =
          .element tag children := by rw [Visit.run_of_isHeld rfl, Walk.value_done]
      exact ⟨[], rest, [], _, rfl, rfl, rfl, by rw [hvalue, hheld, hstays, List.nil_append], .nil,
        forall₂_bound_visitChildren hafter hrest⟩
    | succ i =>
      have hnext : first + (i + 1) = first + 1 + i := by omega
      have hnone : holdBelow first (some [first + 1 + i]) = none := if_neg (by omega)
      rw [hnext] at hfirst hrest hvalue ⊢
      rw [hnone] at hfirst hvalue
      obtain ⟨before, after, before', after', hi, hi', hnodes, hvalue', hbefore, hafter⟩ :=
        ih (List.getElem?_cons_succ.symm.trans hn) hrest
      exact ⟨m :: before, after, _ :: before', after', by rw [hi, List.length_cons],
        by rw [hi', List.length_cons], by rw [hnodes, List.cons_append],
        by rw [hvalue, hvalue', List.cons_append], .cons ⟨hfirst, rfl⟩ hbefore, hafter⟩

end Siblings

/-! ### Around a held stencil -/

section Around

variable {stack : Stack}

/-- Where nothing is held back below a node, nothing gets lost. -/
theorem held_run (n : Node) :
    ∀ {stack : Stack}, (Visit.run ⟨stack, none, n⟩).fault = none →
      (Visit.run ⟨stack, none, n⟩).value.held = .kept := by
  induction n using Node.induction_on_children with
  | text kind content => intro stack _; rw [Visit.run_text, Walk.value_done]
  | element tag children ih =>
    intro stack hfault
    cases hcollection : (bindAttributes stack tag).value.mark? Mark.collection with
    | some raw => rw [(Visit.run_of_collection rfl hfault hcollection).2.2, Held.under]; rfl
    | none =>
      cases htext : (boundText stack tag).value with
      | some text => rw [Visit.held_run_of_text rfl hfault htext, Held.replaced]
      | none =>
        obtain ⟨hbelow, hvalue⟩ := Visit.run_of_plain rfl hfault htext hcollection
        rw [hvalue]
        refine held_visitChildren hbelow fun i m hm ↦ ih m (List.mem_of_getElem? hm) ?_
        exact fault_visitChildren_eq_none hbelow i m hm

/-- What becomes of a place that is held back among siblings is what becomes of it at the sibling
that it leads through. -/
theorem held_around {nodes : List Node} {n : Node} :
    ∀ {first i : Nat} {rest : Place},
      (visitChildren (fun hold n ↦ Visit.run ⟨stack, hold, n⟩) (some ((first + i) :: rest)) first
        nodes).fault = none → nodes[i]? = some n →
      (visitChildren (fun hold n ↦ Visit.run ⟨stack, hold, n⟩) (some ((first + i) :: rest)) first
        nodes).value.2 = (Visit.run ⟨stack, some rest, n⟩).value.held := by
  induction nodes with
  | nil => intro first i rest _ hn; simp at hn
  | cons m nodes ih =>
    intro first i rest hfault hn
    obtain ⟨hfirst, hrest, -⟩ := visitChildren_cons hfault
    rw [held_visitChildren_cons hfault]
    cases i with
    | zero =>
      obtain rfl := Option.some.inj hn
      have hbelow : holdBelow first (some ((first + 0) :: rest)) = some rest := if_pos rfl
      rw [hbelow]
      split
      · next hkept =>
        rw [hkept]
        refine held_visitChildren hrest fun k m hm ↦ ?_
        have hbeside : holdBelow (first + 1 + k) (some ((first + 0) :: rest)) = none :=
          if_neg (by omega)
        have hrun := fault_visitChildren_eq_none hrest k m hm
        rw [hbeside] at hrun ⊢
        exact held_run m hrun
      · rfl
    | succ i =>
      have hbeside : holdBelow first (some ((first + (i + 1)) :: rest)) = none :=
        if_neg (by omega)
      have hnext : first + (i + 1) = first + 1 + i := by omega
      rw [hbeside] at hfirst ⊢
      rw [hnext] at hrest ⊢
      rw [if_pos (held_run m hfirst)]
      exact ih hrest (List.getElem?_cons_succ.symm.trans hn)

/-- What becomes of a place that is held back among the children of an element. -/
theorem held_visitChildren_of_getElem? {nodes : List Node} {i : Nat} {rest : Place} {n : Node}
    (hfault : (visitChildren (fun hold n ↦ Visit.run ⟨stack, hold, n⟩) (some (i :: rest)) 0
      nodes).fault = none) (hn : nodes[i]? = some n) :
    (visitChildren (fun hold n ↦ Visit.run ⟨stack, hold, n⟩) (some (i :: rest)) 0
      nodes).value.2 = (Visit.run ⟨stack, some rest, n⟩).value.held := by
  have hzero : 0 + i = i := Nat.zero_add i
  rw [← hzero] at hfault ⊢
  exact held_around hfault hn

/-- Nodes that are filled in below a child that is passed on the way are filled in below its
parent. -/
theorem Filled.below {nodes children result below : List Node} {tag bound : Tag} {i j : Nat}
    {place : Place} {n : Node} {new : List Node}
    (h : Filled (enter stack tag) (j :: place) n new children below)
    (hn : nodes[i]? = some (.element tag children))
    (hresult : result[i]? = some (.element bound below)) :
    Filled stack (i :: j :: place) n new nodes result := by
  obtain ⟨way, before, after, before', after', hplace, hold, hnew, hbefore, hafter⟩ := h
  refine ⟨i :: way, before, after, before', after', by rw [hplace, List.cons_append], ?_, ?_, ?_⟩
  · rw [Node.siblingsAt_cons_cons hn, hold]
  · rw [Node.siblingsAt_cons_cons hresult, hnew]
  · rw [Node.wayTo_cons_cons hn, List.foldl_cons]
    exact ⟨hbefore, hafter⟩

/-- A node that is held back stays among its siblings, and nodes that take its place stand between
its neighbours as they were bound. -/
theorem filled_here {nodes : List Node} {i : Nat} {tag : Tag} {children : List Node}
    (new : List Node) (hn : nodes[i]? = some (.element tag children))
    (hfault : (visitChildren (fun hold n ↦ Visit.run ⟨stack, hold, n⟩) (some [i]) 0
      nodes).fault = none) :
    (visitChildren (fun hold n ↦ Visit.run ⟨stack, hold, n⟩) (some [i]) 0
        nodes).value.2 = .kept ∧
      Filled stack [i] (.element tag children) new nodes (Node.replaceAt new
        (visitChildren (fun hold n ↦ Visit.run ⟨stack, hold, n⟩) (some [i]) 0 nodes).value.1
        [i]) := by
  have hzero : 0 + i = i := Nat.zero_add i
  have hstays : (Visit.run ⟨stack, some [], .element tag children⟩).value.held = .kept := by
    rw [Visit.run_of_isHeld rfl, Walk.value_done]
  have hkept := (held_visitChildren_of_getElem? hfault hn).trans hstays
  rw [← hzero] at hfault
  obtain ⟨before, after, before', after', hi, hi', hnodes, hvalue, hbefore, hafter⟩ :=
    forall₂_bound_visitChildren_held hn hfault
  rw [hzero] at hvalue
  refine ⟨hkept, [], before, after, before', after', by rw [hi, List.nil_append], hnodes, ?_,
    hbefore, hafter⟩
  rw [hvalue, hi']
  exact Node.replaceAt_length new before' after' (.element tag children)

/-- The walk passes through an element that binds no text and is no collection: it goes on with the
children, inside the scope that the element opens. -/
theorem run_passing {hold : Option Place} {tag : Tag} {children : List Node}
    (hheld : isHeld hold = false)
    (hfault : (Visit.run ⟨stack, hold, .element tag children⟩).fault = none)
    (htext : tag.mark? Mark.textContent = none) (hmarks : tag.KeepsMarks)
    (hplain : tag.mark? Mark.collection = none) :
    let below := visitChildren (fun hold n ↦ Visit.run ⟨enter stack tag, hold, n⟩) hold 0 children
    below.fault = none ∧ (Visit.run ⟨stack, hold, .element tag children⟩).value =
      ⟨.element (bindAttributes stack tag).value below.value.1, below.value.2⟩ := by
  have hcollection : (bindAttributes stack tag).value.mark? Mark.collection = none := by
    rw [mark?_bindAttributes_of_keepsMarks hmarks (by decide), hplain]
  have henter : enter stack (bindAttributes stack tag).value = enter stack tag :=
    enter_congr (mark?_bindAttributes_of_keepsMarks hmarks (by decide))
  rw [← henter]
  exact Visit.run_of_plain hheld hfault (by rw [boundText_of_mark?_eq_none htext, Walk.value_done])
    hcollection

/-- The walk around a stencil that is held back leaves it where it was, unless an element on the way
to it has a text binding or is made a collection; nodes that take its place then stand between its
neighbours as they were bound. -/
theorem filled_around {place : Place} {n : Node} (new : List Node) :
    ∀ {stack : Stack} {nodes : List Node}, Node.stencilAmong 0 nodes = some place →
      Node.atPlace? nodes place = some n →
      (∀ t ∈ Node.wayTo nodes place, t.mark? Mark.textContent = none ∧ t.KeepsMarks) →
      (visitChildren (fun hold n ↦ Visit.run ⟨stack, hold, n⟩) (some place) 0 nodes).fault = none →
      (visitChildren (fun hold n ↦ Visit.run ⟨stack, hold, n⟩) (some place) 0
          nodes).value.2 = .kept ∧
        Filled stack place n new nodes (Node.replaceAt new
          (visitChildren (fun hold n ↦ Visit.run ⟨stack, hold, n⟩) (some place) 0 nodes).value.1
          place) := by
  induction place with
  | nil => intro stack nodes _ hat; simp [Node.atPlace?] at hat
  | cons i rest ih =>
    intro stack nodes hstencil hat hway hfault
    rcases Node.stencilAmong_cases hstencil with
      ⟨i', tag, children, hplace, hn, hitem⟩ |
      ⟨i', j, rest', tag, children, hplace, hn, hitem, hcollection, hbelow⟩
    · -- the stencil is one of the nodes
      obtain ⟨rfl, rfl⟩ := List.cons.inj hplace
      obtain rfl : n = .element tag children := by
        rw [Node.atPlace?, hn] at hat
        exact (Option.some.inj hat).symm
      exact filled_here new hn hfault
    · -- the stencil lies below one of the nodes
      obtain ⟨rfl, rfl⟩ := List.cons.inj hplace
      rw [Node.atPlace?_cons_cons hn] at hat
      rw [Node.wayTo_cons_cons hn] at hway
      obtain ⟨htext, hmarks⟩ := hway tag List.mem_cons_self
      have hplain : tag.mark? Mark.collection = none := by
        cases hmark : tag.mark? Mark.collection with
        | none => rfl
        | some raw => simp [Tag.has_of_mark? hmark] at hcollection
      have hrun := fault_visitChildren_eq_none hfault i (.element tag children) hn
      rw [Nat.zero_add, holdBelow, if_pos rfl] at hrun
      obtain ⟨hinside, hvalue⟩ := run_passing rfl hrun htext hmarks hplain
      obtain ⟨hkept, hfilled⟩ := ih hbelow hat
        (fun t ht ↦ hway t (List.mem_cons_of_mem tag ht)) hinside
      have hresult := getElem?_visitChildren hfault i
      rw [hn, Option.map_some, Nat.zero_add, holdBelow, if_pos rfl, hvalue] at hresult
      refine ⟨(held_visitChildren_of_getElem? hfault hn).trans (by rw [hvalue]; exact hkept), ?_⟩
      rw [Node.replaceAt_cons_cons new hresult]
      exact hfilled.below hn (List.getElem?_set_self (List.getElem?_eq_some_iff.1 hresult).1)

end Around

/-! ### Collections -/

/-- No element between a collection among the nodes and its stencil has a text binding. -/
def ClearWays (forest : List Node) : Prop :=
  ∀ tag children stencil, (tag, children) ∈ Node.elementsAll forest →
    (tag.mark? Mark.collection).isSome = true → Stencil.of tag children = .ok stencil →
    ∀ t ∈ Node.wayTo children stencil.place, t.mark? Mark.textContent = none

instance (forest : List Node) : Decidable (ClearWays forest) :=
  decidable_of_iff
    (∀ e ∈ Node.elementsAll forest, (e.1.mark? Mark.collection).isSome = true →
      ∀ stencil ∈ (Stencil.of e.1 e.2).toOption,
        ∀ t ∈ Node.wayTo e.2 stencil.place, t.mark? Mark.textContent = none)
    ⟨fun h tag children stencil hin hmark hstencil ↦
        h (tag, children) hin hmark stencil (by rw [hstencil]; rfl),
      fun h e hin hmark stencil hstencil ↦ h e.1 e.2 stencil hin hmark (by
        cases hof : Stencil.of e.1 e.2 with
        | error error => rw [hof] at hstencil; cases hstencil
        | ok found => rw [hof] at hstencil; rw [Option.some.inj hstencil])⟩

section Collections

variable {forest : List Node} {stack : Stack} {tag : Tag} {children : List Node} {raw : String}

/-- The elements on the way to the stencil of a visited collection have no text binding and set no
marks, if this holds of the nodes that the visit comes from. -/
theorem clear_way (hfrom : Visit.From forest ⟨stack, none, .element tag children⟩)
    (hmarks : ∀ t ∈ Node.tagsAll forest, t.KeepsMarks) (hways : ClearWays forest)
    (hmark : tag.mark? Mark.collection = some raw) {stencil : Stencil}
    (hstencil : Stencil.of tag children = .ok stencil) :
    ∀ t ∈ Node.wayTo children stencil.place, t.mark? Mark.textContent = none ∧ t.KeepsMarks := by
  intro t ht
  obtain ⟨original, hin, -, hsame⟩ := hfrom.exists_original
  refine ⟨hways original children stencil hin ?_ (Stencil.of_congr hstencil original) t ht, ?_⟩
  · rw [← hsame Mark.collection (by decide), hmark, Option.isSome_some]
  · obtain ⟨cs, hbelow⟩ := Node.mem_tagsAll_iff_exists.1 (Node.wayTo_subset_tagsAll _ _ ht)
    exact hmarks t (Node.mem_tagsAll_of_mem_elementsAll (hfrom.elementsAll_subset hbelow))

/-- A collection with items that was walked to its end: the nodes around the stencil were bound, and
then the bound copies took the place of the stencil. -/
theorem run_of_items (hfrom : Visit.From forest ⟨stack, none, .element tag children⟩)
    (hmarks : ∀ t ∈ Node.tagsAll forest, t.KeepsMarks) (hways : ClearWays forest)
    (hfault : (Visit.run ⟨stack, none, .element tag children⟩).fault = none)
    (hmark : tag.mark? Mark.collection = some raw) {items : List Value}
    (hitems : (itemsFor stack raw).value = some items) {stencil : Stencil}
    (hstencil : Stencil.of tag children = .ok stencil) :
    let around := visitChildren (fun hold n ↦ Visit.run ⟨stack, hold, n⟩) (some stencil.place) 0
      children
    let clones := items.map fun item ↦
      (Visit.run ⟨stack.push stencil.item item, none, copyOf stencil.node⟩).value.node
    around.fault = none ∧
      (∀ item ∈ items,
        (Visit.run ⟨stack.push stencil.item item, none, copyOf stencil.node⟩).fault = none) ∧
      (Visit.run ⟨stack, none, .element tag children⟩).value.node =
        .element (bindAttributes stack tag).value
          (Node.replaceAt clones around.value.1 stencil.place) ∧
      Filled stack stencil.place stencil.node clones children
        (Node.replaceAt clones around.value.1 stencil.place) := by
  have hbound : (bindAttributes stack tag).value.mark? Mark.collection = some raw := by
    rw [mark?_bindAttributes_of_keepsMarks (hfrom.keepsMarks hmarks) (by decide), hmark]
  obtain ⟨haround, hfill, hvalue⟩ := Visit.fill_of_fault_run rfl hfault hbound hstencil hitems
  obtain ⟨hplace, hat, -⟩ := Stencil.of_eq_ok hstencil
  obtain ⟨hcopies, hfilling⟩ := fill_of_fault_eq_none hfill
  obtain ⟨hkept, hfilled⟩ := filled_around
    (items.map fun item ↦
      (Visit.run ⟨stack.push stencil.item item, none, copyOf stencil.node⟩).value.node)
    hplace hat (clear_way hfrom hmarks hways hmark hstencil) haround
  exact ⟨haround, hcopies, by rw [hvalue, hfilling hkept], hfilled⟩

/-- The bound copies of a collection with items are in the place of the stencil. -/
theorem expanded_of_items (hfrom : Visit.From forest ⟨stack, none, .element tag children⟩)
    (hmarks : ∀ t ∈ Node.tagsAll forest, t.KeepsMarks) (hways : ClearWays forest)
    (hfault : (Visit.run ⟨stack, none, .element tag children⟩).fault = none)
    (hmark : tag.mark? Mark.collection = some raw) {items : List Value}
    (hitems : (itemsFor stack raw).value = some items) {stencil : Stencil}
    (hstencil : Stencil.of tag children = .ok stencil) {result : List Node}
    (hresult : (Visit.run ⟨stack, none, .element tag children⟩).value.node =
      .element (bindAttributes stack tag).value result) :
    Expanded stack stencil items children result := by
  obtain ⟨-, hcopies, hvalue, hfilled⟩ :=
    run_of_items hfrom hmarks hways hfault hmark hitems hstencil
  obtain ⟨-, rfl⟩ := Node.element.inj (hresult.symm.trans hvalue)
  refine ⟨_, hfilled, List.forall₂_map_right_iff.2 (List.forall₂_same.2 fun item hitem ↦ ?_)⟩
  refine ⟨?_, hcopies item hitem, rfl⟩
  obtain ⟨-, -, itemTag, itemChildren, hnode, -⟩ := Stencil.of_eq_ok hstencil
  have hcopy := hcopies item hitem
  rw [hnode, copyOf] at hcopy ⊢
  obtain ⟨below, hbelow⟩ := Visit.exists_node_run_element rfl hcopy
  rw [hbelow, Node.isElement]

end Collections

end MarkupBinding.Binding
