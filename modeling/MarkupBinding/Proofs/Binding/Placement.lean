import MarkupBinding.Proofs.Binding.Expansion

/-!
# Where visited elements end up

The result of a visited element is part of the bound document: walking the nodes around a stencil
and putting copies in its place moves what was made before, but drops none of it. While a place is
held back below a visit, this has to be said for whatever takes that place later: an element leaves
a visit (`Visit.Leaves`) when it is listed in the outcome for all nodes that may be put there.

`collection_expanded` puts everything together: what binding makes of each collection that it
visits, and that this is what the bound document shows.
-/

set_option autoImplicit false
set_option relaxedAutoImplicit false

namespace MarkupBinding.Binding

namespace Visit

/-- What comes out of a visit when new nodes take the place that is held back. -/
def outcome (hold : Option Place) (new : List Node) (n : Node) : List Node :=
  match hold with
  | none => [n]
  | some place => Node.replaceAt new [n] (0 :: place)

/-- An element comes out of a visit, whatever takes the place that is held back. -/
def Leaves (v : Visit) (e : Tag × List Node) : Prop :=
  ∀ new, e ∈ Node.elementsAll (outcome v.hold new v.run.value.node)

/-- A member of a list keeps its place beside another that is taken out. -/
theorem mem_take_or_drop {nodes : List Node} {i j : Nat} {n : Node} (hn : nodes[i]? = some n)
    (hne : i ≠ j) : n ∈ nodes.take j ∨ n ∈ nodes.drop (j + 1) := by
  rcases Nat.lt_or_gt_of_ne hne with hlt | hgt
  · exact Or.inl (List.mem_of_getElem? (by rwa [List.getElem?_take_of_lt hlt]))
  · have hdrop : (nodes.drop (j + 1))[i - (j + 1)]? = some n := by
      rw [List.getElem?_drop, show j + 1 + (i - (j + 1)) = i by omega, hn]
    exact Or.inr (List.mem_of_getElem? hdrop)

/-- What comes out of a sibling comes out of all siblings together. -/
theorem outcome_subset_replaceAt {nodes : List Node} {i : Nat} {n : Node}
    (hn : nodes[i]? = some n) (new : List Node) (place : Place) :
    outcome (holdBelow i (some place)) new n ⊆ Node.replaceAt new nodes place := by
  intro m hm
  match place with
  | [] =>
    obtain rfl := List.mem_singleton.1 hm
    exact List.mem_of_getElem? hn
  | [j] =>
    by_cases heq : i = j
    · rw [holdBelow, if_pos heq] at hm
      have hin : m ∈ new := by simpa [outcome, Node.replaceAt] using hm
      exact List.mem_append_left _ (List.mem_append_right _ hin)
    · rw [holdBelow, if_neg heq] at hm
      obtain rfl := List.mem_singleton.1 hm
      rcases mem_take_or_drop hn heq with hbefore | hafter
      · exact List.mem_append_left _ (List.mem_append_left _ hbefore)
      · exact List.mem_append_right _ hafter
  | j :: k :: place =>
    rw [Node.replaceAt.eq_3 _ _ _ _ (List.cons_ne_nil k place)]
    by_cases heq : i = j
    · rw [holdBelow, if_pos heq, outcome,
        Node.replaceAt.eq_3 _ _ _ _ (List.cons_ne_nil k place)] at hm
      obtain rfl : m = n.withChildren (Node.replaceAt new n.children (k :: place)) := by
        simpa using hm
      rw [← heq, hn]
      exact List.mem_append_right _ List.mem_cons_self
    · rw [holdBelow, if_neg heq] at hm
      obtain rfl := List.mem_singleton.1 hm
      cases nodes[j]? with
      | none => exact List.mem_of_getElem? hn
      | some sibling =>
        rcases mem_take_or_drop hn heq with hbefore | hafter
        · exact List.mem_append_left _ hbefore
        · exact List.mem_append_right _ (List.mem_cons_of_mem _ hafter)

/-- An element that comes out of a sibling is in what all siblings come to together. -/
theorem mem_elementsAll_replaceAt {nodes : List Node} {i : Nat} {n : Node} {e : Tag × List Node}
    {new : List Node} {place : Place} (hn : nodes[i]? = some n)
    (h : e ∈ Node.elementsAll (outcome (holdBelow i (some place)) new n)) :
    e ∈ Node.elementsAll (Node.replaceAt new nodes place) := by
  obtain ⟨m, hm, hin⟩ := Node.mem_elementsAll_iff.1 h
  exact Node.mem_elementsAll_iff.2 ⟨m, outcome_subset_replaceAt hn new place hm, hin⟩

/-- The elements among the children of an element are among its own. -/
theorem mem_elementsAll_of_children {tag : Tag} {children : List Node} {e : Tag × List Node}
    (h : e ∈ Node.elementsAll children) : e ∈ Node.elementsAll [.element tag children] := by
  rw [Node.elementsAll, Node.elements_element]
  exact List.mem_append_left _ (List.mem_cons_of_mem _ h)

variable {forest : List Node} {v w : Visit} {e : Tag × List Node}

/-- What comes out of a visit comes out of the visit that led to it. -/
theorem Leaves.of_leadsTo (hfrom : v.From forest) (hmarks : ∀ t ∈ Node.tagsAll forest, t.KeepsMarks)
    (hways : ClearWays forest) (hfault : v.run.fault = none) (hw : v.LeadsTo w)
    (h : w.Leaves e) : v.Leaves e := by
  intro new
  cases hw with
  | @child stack hold tag children i n hheld htext hplain hn =>
    obtain ⟨hbelow, hvalue⟩ := run_of_plain hheld hfault htext hplain
    have hresult := getElem?_visitChildren hbelow i
    rw [hn, Option.map_some, Nat.zero_add] at hresult
    rw [hvalue]
    rcases hold with - | - | ⟨j, place⟩
    · have hin := h []
      simp only [holdBelow, outcome, Node.elementsAll, List.append_nil] at hin
      exact mem_elementsAll_of_children
        (Node.elements_subset_elementsAll (List.mem_of_getElem? hresult) hin)
    · cases hheld
    · rw [outcome, Node.replaceAt_cons_cons new List.getElem?_cons_zero, List.set_cons_zero]
      exact mem_elementsAll_of_children (mem_elementsAll_replaceAt hresult (h new))
  | @around stack hold tag children raw stencil items i n hheld htext hcollection hstencil hitems
      hn =>
    rw [mark?_bindAttributes_of_keepsMarks (hfrom.keepsMarks hmarks) (by decide)] at hcollection
    obtain rfl := hfrom.hold_eq_none hheld hcollection
    obtain ⟨haround, -, hvalue, -⟩ :=
      run_of_items hfrom hmarks hways hfault hcollection hitems hstencil
    have hresult := getElem?_visitChildren haround i
    rw [hn, Option.map_some, Nat.zero_add] at hresult
    rw [hvalue]
    exact mem_elementsAll_of_children (mem_elementsAll_replaceAt hresult (h _))
  | @copy stack hold tag children raw stencil items item hheld htext hcollection hstencil hitems
      hitem =>
    rw [mark?_bindAttributes_of_keepsMarks (hfrom.keepsMarks hmarks) (by decide)] at hcollection
    obtain rfl := hfrom.hold_eq_none hheld hcollection
    obtain ⟨-, -, hvalue, way, before, after, before', after', -, -, hsiblings, -⟩ :=
      run_of_items hfrom hmarks hways hfault hcollection hitems hstencil
    have hin := h []
    rw [outcome, Node.elementsAll, Node.elementsAll, List.append_nil] at hin
    rw [hvalue]
    refine mem_elementsAll_of_children (Node.elementsAll_siblingsAt_subset stencil.place _ ?_)
    rw [hsiblings]
    refine Node.mem_elementsAll_iff.2 ⟨_, ?_, hin⟩
    exact List.mem_append_left _ (List.mem_append_right _ (List.mem_map_of_mem hitem))

open Relation

/-- The result of an element that was visited comes out of the visit that the walk began with. -/
theorem leaves_of_reflTransGen (hfrom : v.From forest)
    (hmarks : ∀ t ∈ Node.tagsAll forest, t.KeepsMarks) (hways : ClearWays forest)
    (hfault : v.run.fault = none) (hw : ReflTransGen LeadsTo v w) (h : w.Leaves e) :
    v.Leaves e := by
  induction hw using ReflTransGen.head_induction_on with
  | refl => exact h
  | head hstep _ ih =>
    exact (ih (hfrom.step hstep) (fault_eq_none_of_leadsTo hfault hstep)).of_leadsTo hfrom hmarks
      hways hfault hstep

end Visit

/-- The result of a visited element below which nothing is held back is an element of the bound
document. -/
theorem mem_elementsAll_bind {d : Document} {input : Value} (hbind : (d.bind input).fault = none)
    (hmarks : ∀ t ∈ d.tags, t.KeepsMarks) (hways : ClearWays (d.filterToggles input).1)
    {stack : Stack} {n : Node} (hv : d.Visits input ⟨stack, none, n⟩) {tag : Tag}
    {result : List Node} (hresult : (Visit.run ⟨stack, none, n⟩).value.node = .element tag result) :
    (tag, result) ∈ Node.elementsAll (d.bind input).value := by
  have hleft := Document.keepsMarks_filterToggles hmarks input
  obtain ⟨m, hm, hw⟩ := hv
  obtain ⟨i, hi⟩ := List.getElem?_of_mem hm
  have hfault := hbind
  rw [Document.bind_eq, Walk.fault_map] at hfault
  have hown : Visit.Leaves ⟨stack, none, n⟩ (tag, result) := by
    intro new
    rw [hresult]
    exact List.mem_append_left _ List.mem_cons_self
  have hin : (tag, result) ∈ Node.elementsAll [(Visit.run ⟨.root input, none, m⟩).value.node] :=
    Visit.leaves_of_reflTransGen
      (Visit.From.of_mem (List.Subset.refl _) hm fun _ hhold ↦ by cases hhold) hleft hways
      (fault_visitChildren_eq_none hfault i m hi) hw hown []
  have hvalue := getElem?_visitChildren hfault i
  rw [hi, Option.map_some] at hvalue
  rw [Node.elementsAll, Node.elementsAll, List.append_nil] at hin
  rw [Document.bind_eq, Walk.value_map]
  exact Node.elements_subset_elementsAll (List.mem_of_getElem? hvalue) hin

/-- What binding makes of a collection that it visits. Its children stand in the document as the
toggles left it, and its result is an element of the bound document. Where its path has a list as
value, a bound copy of its stencil for each item stands in the place of the stencil; a bare path
without a value counts as the empty list; and any other value leaves the collection without
children. -/
theorem collection_expanded {d : Document} {input : Value} (hbind : (d.bind input).fault = none)
    (hmarks : ∀ t ∈ d.tags, t.KeepsMarks) (hways : ClearWays (d.filterToggles input).1) {tag : Tag}
    {children : List Node} {stack : Stack}
    (hvisited : Report.visited tag children stack ∈ (d.bind input).reports) {raw : String}
    (hmark : tag.mark? Mark.collection = some raw) :
    ∃ path stencil result,
      Path.ofBinding raw = .ok path ∧ Stencil.of tag children = .ok stencil ∧
      (∃ original, (original, children) ∈ Node.elementsAll (d.filterToggles input).1) ∧
      Bound stack (.element tag children)
        (.element (bindAttributes stack tag).value result) ∧
      ((bindAttributes stack tag).value, result) ∈ Node.elementsAll (d.bind input).value ∧
      (∀ items, stack.resolve path = .ok (.list items) →
        Expanded stack stencil items children result) ∧
      (path.isDotted = false → ¬ stack.Resolves path →
        Expanded stack stencil [] children result) ∧
      ∀ value, stack.resolve path = .ok value → (∀ items, value ≠ .list items) → result = [] := by
  have hleft := Document.keepsMarks_filterToggles hmarks input
  obtain ⟨hold, hheld, hv⟩ := Document.visits_of_visited hvisited
  have hfrom := Document.from_of_visits hv
  obtain rfl := hfrom.hold_eq_none hheld hmark
  have hfault := Document.fault_run_eq_none_of_visits hbind hv
  have hbound : (bindAttributes stack tag).value.mark? Mark.collection = some raw := by
    rw [mark?_bindAttributes_of_keepsMarks (hfrom.keepsMarks hleft) (by decide), hmark]
  obtain ⟨result, hresult⟩ := Visit.exists_node_run_element hheld hfault
  obtain ⟨-, hexpand, hvalue⟩ := Visit.run_of_collection hheld hfault hbound
  obtain ⟨stencil, hstencil, hitemsFault, hcases⟩ := expand_of_fault_eq_none hexpand
  replace hstencil := Stencil.of_congr hstencil tag
  obtain ⟨original, horiginal, -⟩ := hfrom.exists_original
  have hexpanded : ∀ items, (itemsFor stack raw).value = some items →
      Expanded stack stencil items children result := fun items hitems ↦
    expanded_of_items hfrom hleft hways hfault hmark hitems hstencil hresult
  rcases itemsFor_cases stack raw with ⟨e, -, hstop⟩ | ⟨path, hpath, hpathCases⟩
  · rw [hstop] at hitemsFault
    cases hitemsFault
  · refine ⟨path, stencil, result, hpath, hstencil, ⟨original, horiginal⟩, ⟨hfault, hresult⟩,
      mem_elementsAll_bind hbind hmarks hways hv hresult, ?_⟩
    rcases hpathCases with
      ⟨e, -, -, hstop, -⟩ | ⟨e, hmissing, hbare, -, hitems⟩ | ⟨items, hlist, -, hitems⟩ |
      ⟨value, hother, hnotList, -, hitems⟩
    · rw [hstop] at hitemsFault
      cases hitemsFault
    · refine ⟨fun items hvalue ↦ ?_, fun _ _ ↦ hexpanded [] hitems, fun value hvalue _ ↦ ?_⟩
      · rw [hmissing] at hvalue
        cases hvalue
      · rw [hmissing] at hvalue
        cases hvalue
    · refine ⟨fun items' hvalue ↦ ?_, fun _ hnone ↦ absurd ⟨_, hlist⟩ hnone,
        fun value hvalue hnotList ↦ ?_⟩
      · rw [hlist] at hvalue
        obtain rfl := Value.list.inj (Except.ok.inj hvalue)
        exact hexpanded items hitems
      · rw [hlist] at hvalue
        exact absurd (Except.ok.inj hvalue).symm (hnotList items)
    · refine ⟨fun items hvalue ↦ ?_, fun _ hnone ↦ absurd ⟨_, hother⟩ hnone, fun _ _ _ ↦ ?_⟩
      · rw [hother] at hvalue
        exact absurd (Except.ok.inj hvalue) (hnotList items)
      · rcases hcases with ⟨-, hempty⟩ | ⟨items, _, hsome, -⟩
        · rw [hvalue, hempty] at hresult
          exact (Node.element.inj hresult).2.symm
        · rw [hitems] at hsome
          cases hsome

/-- The entries of a list: a heading, a group with the stencil in it, and a footer. -/
def listEntries : List Node :=
  [.element ⟨"li", []⟩ [.text .characters "Heading"],
    .element ⟨"div", []⟩
      [.element ⟨"li", [(Mark.collectionItem, .plain "item"),
        (Mark.textContent, .plain "item.name")]⟩ []],
    .element ⟨"li", [(Mark.textContent, .plain "footer")]⟩ []]

/-- A page with such a list. -/
def listPage : Document :=
  [.element ⟨"main", [(Mark.component, .plain "root")]⟩
    [.element ⟨"ul", [(Mark.collection, .plain "items")]⟩ listEntries]]

theorem collection_expanded_listPage :
    let items := [Value.object [("name", .string "A")], .object [("name", .string "B")]]
    let input := Value.object [("items", .list items), ("footer", .string "F")]
    ∃ stencil result, stencil.place = [1, 0] ∧
      (⟨"ul", [(Mark.collection, .plain "items")]⟩, result) ∈
        Node.elementsAll (listPage.bind input).value ∧
      Expanded (.root input) stencil items listEntries result := by
  intro items input
  have hvisited : Report.visited ⟨"ul", [(Mark.collection, .plain "items")]⟩ listEntries
      (.root input) ∈ (listPage.bind input).reports := List.mem_of_getElem? (i := 1) (by rfl)
  have hmark : Tag.mark? ⟨"ul", [(Mark.collection, .plain "items")]⟩ Mark.collection =
      some "items" := by decide +kernel
  obtain ⟨path, stencil, result, hpath, hstencil, -, -, hin, hexpanded, -⟩ :=
    @collection_expanded listPage input (by decide +kernel) (by decide +kernel)
      (by decide +kernel) _ _ _ hvisited _ hmark
  obtain rfl : ⟨"items", none⟩ = path := Except.ok.inj hpath
  exact ⟨stencil, result, Option.some.inj ((Stencil.of_eq_ok hstencil).1.symm.trans (by rfl)), hin,
    hexpanded items rfl⟩

end MarkupBinding.Binding
