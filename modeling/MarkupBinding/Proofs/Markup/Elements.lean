import MarkupBinding.Binding.Toggle

/-!
# The elements of a markup tree

`Node.elements` lists the elements of a tree in document order, each with its children; the tags of
a tree are the tags of its elements (`tags_eq_map_elements`). A node is at most as high as the list
it stands in (`height_le_heightAll`), and what is listed below a child is listed below its parent
(`mem_elementsAll_iff`, `elementsAll_subset_of_mem`). What is found by a test on tags is such an
element, and nothing is found only where no tag passes (`mem_elements_of_find?`,
`find?_eq_none_iff`).

Removing what is switched off keeps some of the nodes in order, each with the same done to its
children (`filterOffAll_fst`), so every element that is left comes from an element with the same tag
(`exists_mem_elements_of_filterOff`).
-/

set_option autoImplicit false
set_option relaxedAutoImplicit false

namespace MarkupBinding.Node

/-- Induction over a tree: an element has the property when its children have it. -/
@[elab_as_elim]
theorem induction_on_children {motive : Node → Prop}
    (text : ∀ kind content, motive (.text kind content))
    (element : ∀ tag children, (∀ n ∈ children, motive n) → motive (.element tag children)) :
    ∀ n, motive n
  | .text kind content => text kind content
  | .element tag children =>
    element tag children fun n _ ↦ induction_on_children text element n

mutual

/-- The elements of a tree in document order, each as its tag and its children. -/
def elements : Node → List (Tag × List Node)
  | element tag children => (tag, children) :: elementsAll children
  | text _ _ => []

/-- The elements of several trees in document order. -/
def elementsAll : List Node → List (Tag × List Node)
  | [] => []
  | n :: rest => n.elements ++ elementsAll rest

end

/-! ### What is said of an element -/

section Element

variable (tag : Tag) (children : List Node)

theorem elements_element :
    (element tag children).elements = (tag, children) :: elementsAll children := rfl

theorem tags_element : (element tag children).tags = tag :: tagsAll children := rfl

theorem height_element : (element tag children).height = heightAll children + 1 := rfl

theorem find?_element (test : Tag → Bool) :
    (element tag children).find? test =
      if test tag then some (element tag children) else findAmong? test children := rfl

end Element

section Listing

variable {nodes children : List Node} {n : Node} {tag : Tag}

theorem mem_elementsAll_iff {e : Tag × List Node} :
    e ∈ elementsAll nodes ↔ ∃ n ∈ nodes, e ∈ n.elements := by
  induction nodes with
  | nil => simp [elementsAll]
  | cons m rest ih => simp [elementsAll, ih]

theorem elementsAll_append (nodes others : List Node) :
    elementsAll (nodes ++ others) = elementsAll nodes ++ elementsAll others := by
  induction nodes with
  | nil => rfl
  | cons n rest ih => rw [List.cons_append, elementsAll, elementsAll, ih, List.append_assoc]

theorem mem_tagsAll_iff {t : Tag} : t ∈ tagsAll nodes ↔ ∃ n ∈ nodes, t ∈ n.tags := by
  induction nodes with
  | nil => simp [tagsAll]
  | cons m rest ih => simp [tagsAll, ih]

/-- The tags of several trees are the tags of their elements, if this holds of each tree. -/
theorem tagsAll_eq_map_elementsAll (hnodes : ∀ n ∈ nodes, n.tags = n.elements.map Prod.fst) :
    tagsAll nodes = (elementsAll nodes).map Prod.fst := by
  induction nodes with
  | nil => rfl
  | cons m rest ih =>
    rw [tagsAll, elementsAll, List.map_append, hnodes m List.mem_cons_self,
      ih fun n hn ↦ hnodes n (List.mem_cons_of_mem m hn)]

/-- The tags of a tree are the tags of its elements. -/
theorem tags_eq_map_elements (n : Node) : n.tags = n.elements.map Prod.fst := by
  induction n using induction_on_children with
  | text kind content => rfl
  | element tag children ih =>
    rw [tags_element, elements_element, tagsAll_eq_map_elementsAll ih, List.map_cons]

/-- The listed tags are those of the listed elements. -/
theorem mem_tagsAll_iff_exists {t : Tag} :
    t ∈ tagsAll nodes ↔ ∃ cs, (t, cs) ∈ elementsAll nodes := by
  rw [tagsAll_eq_map_elementsAll fun n _ ↦ tags_eq_map_elements n, List.mem_map]
  constructor
  · rintro ⟨⟨t, cs⟩, hin, rfl⟩
    exact ⟨cs, hin⟩
  · rintro ⟨cs, hin⟩
    exact ⟨(t, cs), hin, rfl⟩

/-- An element that is listed has its tag listed. -/
theorem mem_tagsAll_of_mem_elementsAll {t : Tag} {cs : List Node}
    (h : (t, cs) ∈ elementsAll nodes) : t ∈ tagsAll nodes :=
  mem_tagsAll_iff_exists.2 ⟨cs, h⟩

theorem tags_subset_tagsAll (hn : n ∈ nodes) : n.tags ⊆ tagsAll nodes :=
  fun _ ht ↦ mem_tagsAll_iff.2 ⟨n, hn, ht⟩

theorem elements_subset_elementsAll (hn : n ∈ nodes) : n.elements ⊆ elementsAll nodes :=
  fun _ he ↦ mem_elementsAll_iff.2 ⟨n, hn, he⟩

/-- What is listed below a listed element is listed. -/
theorem elementsAll_subset_of_mem {t : Tag} {cs : List Node} (n : Node)
    (h : (t, cs) ∈ n.elements) : elementsAll cs ⊆ n.elements := by
  induction n using induction_on_children with
  | text kind content => simp [elements] at h
  | element tag children ih =>
    rw [elements_element] at h ⊢
    rcases List.mem_cons.1 h with heq | hbelow
    · obtain ⟨rfl, rfl⟩ := Prod.mk.inj heq
      exact List.subset_cons_self _ _
    · obtain ⟨m, hm, hin⟩ := mem_elementsAll_iff.1 hbelow
      exact fun e he ↦ List.mem_cons_of_mem _ (elements_subset_elementsAll hm (ih m hm hin he))

theorem elementsAll_subset_elementsAll {t : Tag} {cs : List Node}
    (h : (t, cs) ∈ elementsAll nodes) : elementsAll cs ⊆ elementsAll nodes := by
  obtain ⟨n, hn, hin⟩ := mem_elementsAll_iff.1 h
  exact List.Subset.trans (elementsAll_subset_of_mem n hin) (elements_subset_elementsAll hn)

theorem height_le_heightAll (hn : n ∈ nodes) : n.height ≤ heightAll nodes := by
  induction nodes with
  | nil => simp at hn
  | cons m rest ih =>
    rw [heightAll]
    rcases List.mem_cons.1 hn with rfl | hrest
    · exact Nat.le_max_left _ _
    · exact Nat.le_trans (ih hrest) (Nat.le_max_right _ _)

/-- A child of an element is lower than the element. -/
theorem height_lt_of_mem_children (tag : Tag) (hn : n ∈ children) :
    n.height < (Node.element tag children).height := by
  have hle := height_le_heightAll hn
  rw [height_element]
  omega

end Listing

/-! ### Finding elements -/

section Finding

variable {test : Tag → Bool} {nodes : List Node}

theorem findAmong?_eq_findSome? (test : Tag → Bool) (nodes : List Node) :
    findAmong? test nodes = nodes.findSome? fun n ↦ n.find? test := by
  induction nodes with
  | nil => rfl
  | cons n rest ih =>
    rw [findAmong?, List.findSome?_cons, ih]
    cases n.find? test with
    | none => rfl
    | some found => rfl

/-- An element that is found in a tree stands in it and passes the test. -/
theorem mem_elements_of_find? {m : Node} (n : Node)
    (h : n.find? test = some m) :
    ∃ tag children, m = .element tag children ∧ (tag, children) ∈ n.elements ∧ test tag = true := by
  induction n using induction_on_children with
  | text kind content => simp [find?] at h
  | element tag children ih =>
    rw [find?_element] at h
    split at h
    · next htest =>
      obtain rfl := Option.some.inj h
      exact ⟨tag, children, rfl, by rw [elements_element]; exact List.mem_cons_self, htest⟩
    · rw [findAmong?_eq_findSome?] at h
      obtain ⟨n, hn, hfound⟩ := List.exists_of_findSome?_eq_some h
      obtain ⟨t, cs, rfl, hin, htest⟩ := ih n hn hfound
      refine ⟨t, cs, rfl, ?_, htest⟩
      rw [elements_element]
      exact List.mem_cons_of_mem _ (elements_subset_elementsAll hn hin)

/-- Nothing is found among several trees when none of their tags passes the test, if this holds of
each tree. -/
theorem findAmong?_eq_none_iff_of_forall
    (h : ∀ n ∈ nodes, n.find? test = none ↔ ∀ t ∈ n.tags, test t = false) :
    findAmong? test nodes = none ↔ ∀ t ∈ tagsAll nodes, test t = false := by
  rw [findAmong?_eq_findSome?, List.findSome?_eq_none_iff]
  constructor
  · intro hnone t ht
    obtain ⟨n, hn, hin⟩ := mem_tagsAll_iff.1 ht
    exact (h n hn).1 (hnone n hn) t hin
  · intro hall n hn
    exact (h n hn).2 fun t ht ↦ hall t (tags_subset_tagsAll hn ht)

/-- Nothing is found in a tree when none of its tags passes the test. -/
theorem find?_eq_none_iff (n : Node) :
    n.find? test = none ↔ ∀ t ∈ n.tags, test t = false := by
  induction n using induction_on_children with
  | text kind content => simp [find?, tags]
  | element tag children ih =>
    rw [find?_element, tags_element, List.forall_mem_cons]
    cases htest : test tag with
    | true => simp
    | false =>
      rw [if_neg Bool.false_ne_true, findAmong?_eq_none_iff_of_forall ih]
      simp

end Finding

/-! ### Removing what is switched off -/

section Toggles

variable (off : String → Bool)

/-- Whether a node is an element that is switched off. -/
def isOff : Node → Bool
  | element tag _ => tag.isOff off
  | text _ _ => false

@[simp] theorem filterOff_element_fst (tag : Tag) (children : List Node) :
    (filterOff off (.element tag children)).1 = .element tag (filterOffAll off children).1 :=
  rfl

@[simp] theorem filterOff_text_fst (kind : TextKind) (content : String) :
    (filterOff off (.text kind content)).1 = .text kind content :=
  rfl

/-- What is left of several trees: those not switched off, each without what is switched off
below it. -/
theorem filterOffAll_fst (nodes : List Node) :
    (filterOffAll off nodes).1 =
      (nodes.filter fun n ↦ !n.isOff off).map fun n ↦ (filterOff off n).1 := by
  induction nodes with
  | nil => simp [filterOffAll]
  | cons n rest ih =>
    cases n with
    | text kind content => simp [filterOffAll, isOff, ih]
    | element tag children =>
      by_cases hoff : tag.isOff off = true
      · simp [filterOffAll, isOff, hoff, ih]
      · simp [filterOffAll, isOff, hoff, ih]

/-- A node that is left comes from one that was not switched off. -/
theorem mem_filterOffAll_fst {nodes : List Node} {m : Node} :
    m ∈ (filterOffAll off nodes).1 ↔
      ∃ n ∈ nodes, n.isOff off = false ∧ (filterOff off n).1 = m := by
  rw [filterOffAll_fst]
  simp only [List.mem_map, List.mem_filter, Bool.not_eq_true', and_assoc]

/-- Every element that is left comes from an element with the same tag, whose children were treated
in the same way. -/
theorem exists_mem_elements_of_filterOff {t : Tag} {cs : List Node} (n : Node)
    (h : (t, cs) ∈ (filterOff off n).1.elements) :
    ∃ children, (t, children) ∈ n.elements ∧ cs = (filterOffAll off children).1 := by
  induction n using induction_on_children with
  | text kind content => simp [elements] at h
  | element tag children ih =>
    rw [filterOff_element_fst, elements_element] at h
    rcases List.mem_cons.1 h with heq | hbelow
    · obtain ⟨rfl, rfl⟩ := Prod.mk.inj heq
      exact ⟨children, List.mem_cons_self, rfl⟩
    · obtain ⟨m, hm, hin⟩ := mem_elementsAll_iff.1 hbelow
      obtain ⟨n, hn, _, rfl⟩ := (mem_filterOffAll_fst off).1 hm
      obtain ⟨original, horiginal, hcs⟩ := ih n hn hin
      exact ⟨original, List.mem_cons_of_mem _ (elements_subset_elementsAll hn horiginal), hcs⟩

/-- The tags that are left were there before. -/
theorem tags_filterOff_subset (n : Node) : (filterOff off n).1.tags ⊆ n.tags := by
  intro t ht
  rw [tags_eq_map_elements] at ht ⊢
  obtain ⟨⟨t', cs⟩, hin, rfl⟩ := List.mem_map.1 ht
  obtain ⟨children, horiginal, _⟩ := exists_mem_elements_of_filterOff off n hin
  exact List.mem_map.2 ⟨(t', children), horiginal, rfl⟩

theorem tagsAll_filterOffAll_subset (nodes : List Node) :
    tagsAll (filterOffAll off nodes).1 ⊆ tagsAll nodes := by
  intro t ht
  obtain ⟨m, hm, hin⟩ := mem_tagsAll_iff.1 ht
  obtain ⟨n, hn, _, rfl⟩ := (mem_filterOffAll_fst off).1 hm
  exact mem_tagsAll_iff.2 ⟨n, hn, tags_filterOff_subset off n hin⟩

variable {off} {other : String → Bool}

/-- Nodes that are switched off alike leave the same nodes, if this holds below each of them. -/
theorem filterOffAll_fst_congr_of_forall {nodes : List Node}
    (hnodes : ∀ n ∈ nodes, n.isOff off = n.isOff other)
    (hbelow : ∀ n ∈ nodes, (filterOff off n).1 = (filterOff other n).1) :
    (filterOffAll off nodes).1 = (filterOffAll other nodes).1 := by
  rw [filterOffAll_fst, filterOffAll_fst]
  have hfilter : nodes.filter (fun n ↦ !n.isOff off) = nodes.filter fun n ↦ !n.isOff other :=
    List.filter_congr fun n hn ↦ by rw [hnodes n hn]
  rw [hfilter]
  exact List.map_congr_left fun n hn ↦ hbelow n (List.mem_filter.1 hn).1

theorem isOff_congr {n : Node} (h : ∀ t ∈ n.tags, t.isOff off = t.isOff other) :
    n.isOff off = n.isOff other := by
  cases n with
  | text kind content => rfl
  | element tag children => exact h tag (by rw [tags_element]; exact List.mem_cons_self)

/-- What is left of a tree hangs on which of its tags are switched off. -/
theorem filterOff_fst_congr (n : Node) (h : ∀ t ∈ n.tags, t.isOff off = t.isOff other) :
    (filterOff off n).1 = (filterOff other n).1 := by
  induction n using induction_on_children with
  | text kind content => rfl
  | element tag children ih =>
    have hchildren : ∀ n ∈ children, ∀ t ∈ n.tags, t.isOff off = t.isOff other := fun n hn t ht ↦
      h t (by rw [tags_element]; exact List.mem_cons_of_mem _ (tags_subset_tagsAll hn ht))
    rw [filterOff_element_fst, filterOff_element_fst, filterOffAll_fst_congr_of_forall
      (fun n hn ↦ isOff_congr (hchildren n hn)) fun n hn ↦ ih n hn (hchildren n hn)]

theorem filterOffAll_fst_congr {nodes : List Node}
    (h : ∀ t ∈ tagsAll nodes, t.isOff off = t.isOff other) :
    (filterOffAll off nodes).1 = (filterOffAll other nodes).1 :=
  filterOffAll_fst_congr_of_forall
    (fun _ hn ↦ isOff_congr fun t ht ↦ h t (tags_subset_tagsAll hn ht))
    fun n hn ↦ filterOff_fst_congr n fun t ht ↦ h t (tags_subset_tagsAll hn ht)

end Toggles

end MarkupBinding.Node

namespace MarkupBinding.Document

variable {d : Document} {x : Node}

/-- The outermost component is an element of the document that declares a component. -/
theorem exists_of_outermostComponent? (h : d.outermostComponent? = some x) :
    ∃ tag children, x = .element tag children ∧ (tag, children) ∈ Node.elementsAll d ∧
      tag.declaresComponent = true := by
  rw [outermostComponent?, Node.findAmong?_eq_findSome?] at h
  obtain ⟨n, hn, hfound⟩ := List.exists_of_findSome?_eq_some h
  obtain ⟨tag, children, rfl, hin, htest⟩ := Node.mem_elements_of_find? n hfound
  exact ⟨tag, children, rfl, Node.elements_subset_elementsAll hn hin, htest⟩

/-- A document has no outermost component when none of its elements declares one. -/
theorem outermostComponent?_eq_none_iff :
    d.outermostComponent? = none ↔ ∀ t ∈ d.tags, t.declaresComponent = false :=
  Node.findAmong?_eq_none_iff_of_forall fun n _ ↦ Node.find?_eq_none_iff n

end MarkupBinding.Document
