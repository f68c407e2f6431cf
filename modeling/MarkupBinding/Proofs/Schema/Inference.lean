import MarkupBinding.Proofs.Binding.Step
import MarkupBinding.Proofs.Schema.Declaring

/-!
# Extraction covers what it visits

Whatever extraction has visited is covered by the schema that comes out in the end. A visit with a
place held back leaves the stencil at this place to its collection: `Covered` says that the tree is
covered as soon as the stencil is. A collection declares its list, visits the stencil with an item
inside and then the nodes around it, so its children are covered with the list around them
(`covers_children`). The result is `coversOutermost_of_visitOutermost`: the outermost component of a
document is covered by the schema that is extracted from it.
-/

set_option autoImplicit false
set_option relaxedAutoImplicit false

namespace MarkupBinding

/-- A result that is there as an option is one. -/
theorem toOption_eq_some_iff {ε α : Type} {x : Except ε α} {a : α} :
    x.toOption = some a ↔ x = .ok a := by
  cases x <;> simp [Except.toOption]

namespace Extraction

/-- The paths of a collection are dotted, and it owns exactly one element with an item mark. -/
def Regular (e : Tag × List Node) : Prop :=
  ∀ raw, e.1.mark? Mark.collection = some raw →
    (∀ path, Path.ofBinding raw = .ok path → path.isDotted = true) ∧ Node.itemCountAll e.2 = 1

instance (e : Tag × List Node) : Decidable (Regular e) :=
  decidable_of_iff
    (∀ raw ∈ e.1.mark? Mark.collection,
      (∀ path ∈ (Path.ofBinding raw).toOption, path.isDotted = true) ∧
        Node.itemCountAll e.2 = 1) <| by
    simp only [Regular, Option.mem_def, toOption_eq_some_iff]

/-- The stencil at a place is covered with an item of the list inside the scopes of its collection.
-/
def StencilCovered (seen : Tag → Ancestors → Prop) (root : Component) (outer : Ancestors)
    (address : Address) (nodes : List Node) (place : Place) : Prop :=
  ∃ tag children item, Node.atPlace? nodes place = some (.element tag children) ∧
    tag.mark? Mark.collectionItem = some item ∧
    Covers seen root (outer.push item address) none (.element tag children)

/-- A tree is covered; with a place held back, as soon as the stencil at this place is, and if it is
the only one that the collection around can take from the tree. -/
def Covered (seen : Tag → Ancestors → Prop) (ancestors : Ancestors) (hold : Option Place) (n : Node)
    (root : Component) : Prop :=
  match hold with
  | none => Covers seen root ancestors none n
  | some place =>
    Node.stencilIn 0 n = some (0 :: place) → n.itemCount ≤ 1 → ∀ outer address,
      StencilCovered seen root outer address [n] (0 :: place) →
      Covers seen root ancestors (some (outer, address)) n

/-- The outermost component is covered: its own scope is there already when its bindings are read.
-/
structure CoversOutermost (seen : Tag → Ancestors → Prop) (root : Component) (ancestors : Ancestors)
    (tag : Tag) (children : List Node) : Prop where
  declared : Declared seen root ancestors tag
  plain : tag.mark? Mark.collection = none → ∀ n ∈ children, Covers seen root ancestors none n
  collection : ∀ raw, tag.mark? Mark.collection = some raw →
    ∃ address, DeclaresList root ancestors raw address ∧
      ∀ n ∈ children, Covers seen root ancestors (some (ancestors, address)) n

section Visits

variable {seen : Tag → Ancestors → Prop} {root : Component} {ancestors : Ancestors} {tag : Tag}
  {children nodes : List Node} {hold : Option Place}

theorem atPlace?_singleton {n : Node} {i : Nat} {place : Place} (hn : nodes[i]? = some n) :
    Node.atPlace? [n] (0 :: place) = Node.atPlace? nodes (i :: place) := by
  cases place with
  | nil => rw [Node.atPlace?, Node.atPlace?, hn]; rfl
  | cons j place =>
    rw [Node.atPlace?.eq_3 _ _ _ (List.cons_ne_nil j place),
      Node.atPlace?.eq_3 _ _ _ (List.cons_ne_nil j place), hn]
    rfl

/-- Nodes around a stencil are covered with the list around them when each was covered as visited
and the stencil is covered with an item inside. -/
theorem covers_children {place : Place} {outer : Ancestors} {address : Address}
    (hplace : Node.stencilAmong 0 nodes = some place) (hcount : Node.itemCountAll nodes ≤ 1)
    (hstencil : StencilCovered seen root outer address nodes place)
    (hcovered : ∀ i n, nodes[i]? = some n →
      Covered seen ancestors (Binding.holdBelow i (some place)) n root) :
    ∀ n ∈ nodes, Covers seen root ancestors (some (outer, address)) n := by
  intro n hn
  obtain ⟨j, hj⟩ := List.getElem?_of_mem hn
  cases place with
  | nil =>
    obtain ⟨_, _, _, hat, -⟩ := hstencil
    simp [Node.atPlace?] at hat
  | cons i rest =>
    have hthis := hcovered j n hj
    by_cases heq : j = i
    · subst heq
      rw [Binding.holdBelow, if_pos rfl] at hthis
      have hle := Nat.le_trans (Node.itemCount_le_itemCountAll hn) hcount
      refine hthis (Node.stencilIn_of_stencilAmong hplace hj) hle outer address ?_
      rw [StencilCovered, atPlace?_singleton hj]
      exact hstencil
    · rw [Binding.holdBelow, if_neg heq] at hthis
      exact Covers.of_itemCount_eq_zero hthis
        (Node.itemCount_eq_zero_beside hplace hcount hj fun h ↦ heq h.symm) _

/-- A stencil that is held back is covered as soon as it is covered with an item inside. -/
theorem covered_of_isHeld (hheld : Binding.isHeld hold = true) :
    Covered seen ancestors hold (.element tag children) root := by
  obtain rfl : hold = some [] := by simpa [Binding.isHeld] using hheld
  rintro - - outer address ⟨itemTag, itemChildren, item, hat, hitem, hcovers⟩
  obtain ⟨rfl, rfl⟩ := Node.element.inj (Option.some.inj hat)
  exact .stencil hitem hcovers

theorem covered_text {kind : TextKind} {content : String} :
    Covered seen ancestors hold (.text kind content) root := by
  cases hold with
  | none => exact .text
  | some place => exact fun _ _ _ _ _ ↦ .text

/-- An element that is no collection is covered when its children are covered as visited. -/
theorem covered_of_children {below : Ancestors} (hheld : Binding.isHeld hold = false)
    (helement : ∀ around, (around = none ∨ tag.has Mark.collectionItem = false) →
      (∀ n ∈ children, Covers seen root below (carried tag around) n) →
      Covers seen root ancestors around (.element tag children))
    (hchildren : ∀ i n, children[i]? = some n →
      Covered seen below (Binding.holdBelow i hold) n root) :
    Covered seen ancestors hold (.element tag children) root := by
  cases hold with
  | none =>
    refine helement none (Or.inl rfl) fun n hn ↦ ?_
    obtain ⟨i, hi⟩ := List.getElem?_of_mem hn
    rw [carried_none]
    exact hchildren i n hi
  | some place =>
    intro hin hcount outer address hstencil
    have hne := Binding.ne_nil_of_isHeld_eq_false hheld
    obtain ⟨hitem, hhas, hrest⟩ := Node.stencilAmong_of_stencilIn hin hne
    rw [Node.itemCount, if_neg (by simp [hitem]), if_neg (by simp [hhas])] at hcount
    refine helement _ (Or.inr hitem) ?_
    rw [carried_of_has hitem hhas]
    refine covers_children hrest hcount ?_ hchildren
    obtain ⟨j, rest, rfl⟩ := List.exists_cons_of_ne_nil hne
    rw [StencilCovered, Node.atPlace?_cons_cons List.getElem?_cons_zero] at hstencil
    exact hstencil

/-- A collection is covered when its children are covered with its list around them; it is never on
the way to a stencil. -/
theorem covered_of_collection {raw : String} {address : Address}
    (hheld : Binding.isHeld hold = false) (hdeclared : Declared seen root ancestors tag)
    (hmark : tag.mark? Mark.collection = some raw)
    (hlist : DeclaresList root ancestors raw address)
    (hcovers : ∀ n ∈ children, Covers seen root ancestors (some (ancestors, address)) n) :
    Covered seen ancestors hold (.element tag children) root := by
  cases hold with
  | none => exact .collection (Or.inl rfl) hdeclared hmark hlist hcovers
  | some place =>
    intro hin
    obtain ⟨-, hhas, -⟩ :=
      Node.stencilAmong_of_stencilIn hin (Binding.ne_nil_of_isHeld_eq_false hheld)
    rw [Tag.has_of_mark? hmark] at hhas
    cases hhas

/-! ### Walks -/

/-- The visits of all that lies below an element cover what they visit. -/
def VisitsCover (seen : Tag → Ancestors → Prop) (children : List Node)
    (visit : Ancestors → Option Place → Node → Component → Walk Component) : Prop :=
  ∀ n, n.height ≤ Node.heightAll children → n.elements ⊆ Node.elementsAll children →
    ∀ ancestors hold value, Placed value ancestors →
      Ensures seen value (visit ancestors hold n value) (Covered seen ancestors hold n)

section Below

variable {visit : Ancestors → Option Place → Node → Component → Walk Component}

/-- The walk over the children of an element covers each of them as visited. -/
theorem ensures_children (hvisit : VisitsCover seen children visit) (hold : Option Place)
    (hplaced : Placed root ancestors) :
    Ensures seen root (visitChildren (visit ancestors) hold 0 children root) fun final ↦
      ∀ i n, children[i]? = some n →
        Covered seen ancestors (Binding.holdBelow i hold) n final := by
  refine (ensures_visitChildren fun n hn hold later hlater ↦
    hvisit n (Node.height_le_heightAll hn) (Node.elements_subset_elementsAll hn) ancestors hold
      later (hplaced.grow hlater)).imp fun final h i n hn ↦ ?_
  have hthis := h i n hn
  rwa [Nat.zero_add] at hthis

/-- The scope of a nested component that was declared has its component. -/
theorem Placed.push_declared {name item : String} {address : Address} {array : Bool}
    (hplaced : Placed root ancestors)
    (hthere : ∃ c, root.at? (address ++ [name]) = some c ∧ c.array = array) :
    Placed root (ancestors.push item (address ++ [name])) := by
  obtain ⟨c, hc, -⟩ := hthere
  exact hplaced.push (by rw [hc, Option.isSome_some])

/-- What a collection ensures: its list is declared, and its children are covered with the list
around them. -/
theorem ensures_visitCollection {raw : String} (hmark : tag.mark? Mark.collection = some raw)
    (hregular : Regular (tag, children)) (hplaced : Placed root ancestors)
    (hvisit : VisitsCover seen children visit) :
    Ensures seen root (visitCollection visit ancestors raw tag children root) fun final ↦
      ∃ address, DeclaresList final ancestors raw address ∧
        ∀ n ∈ children, Covers seen final ancestors (some (ancestors, address)) n := by
  obtain ⟨hdotted, hcount⟩ := hregular raw hmark
  cases hpath : Path.ofBinding raw with
  | error e =>
    simp only [visitCollection, hpath]
    exact ensures_stop _
  | ok path =>
    obtain ⟨scope, hscope⟩ := Option.isSome_iff_exists.1 (hdotted path hpath)
    cases hstencil : Stencil.of tag children with
    | error e =>
      simp only [visitCollection, hpath, hstencil]
      exact ensures_stop _
    | ok stencil =>
      obtain ⟨hplace, hat, itemTag, itemChildren, hnode, hitem⟩ := Stencil.of_eq_ok hstencil
      simp only [visitCollection, hpath, hstencil]
      cases howner : owner hasComponent root ancestors path with
      | none =>
        -- the collection is dropped, which the walk reports
        intro hfault hreports
        rw [Walk.andThen, Walk.reports_chain rfl] at hreports
        obtain ⟨_, _, hentry, -⟩ := hreports _ (List.mem_append_left _ List.mem_cons_self)
        cases hentry
      | some a =>
        obtain ⟨hmem, hnamed⟩ := mem_of_owner howner
        have hlist : Ensures seen root
            (declareComponent a.address path.name true (some stencil.item) root) _ :=
          ensures_declareComponent path.name true (some stencil.item) (hplaced a hmem)
        have hinside := hlist.andThen fun value hgrows hthere ↦
          hvisit stencil.node (Stencil.height_le hstencil) (Stencil.elements_subset hstencil)
            (ancestors.push stencil.item (a.address ++ [path.name])) none value
            ((hplaced.grow hgrows).push_declared hthere)
        refine (hinside.andThen fun value hgrows _ ↦
          ensures_children hvisit (some stencil.place) (hplaced.grow hgrows)).imp ?_
        rintro final ⟨⟨⟨c, hc, harray⟩, hcovers⟩, haround⟩
        rw [hnode] at hat hcovers
        refine ⟨a.address ++ [path.name],
          ⟨path, scope, a, c, hpath, hscope, hnamed scope hscope, rfl, hc, harray⟩, ?_⟩
        exact covers_children hplace (Nat.le_of_eq hcount)
          ⟨itemTag, itemChildren, stencil.item, hat, hitem, hcovers⟩ haround

end Below

/-- A visit of an element covers it, if visits of what lies below the element cover that. -/
theorem ensures_visit_element {depth : Nat} (hregular : Regular (tag, children))
    (hplaced : Placed root ancestors) (hbelow : VisitsCover seen children (visit depth)) :
    Ensures seen root (visit (depth + 1) ancestors hold (.element tag children) root)
      (Covered seen ancestors hold (.element tag children)) := by
  cases hheld : Binding.isHeld hold with
  | true =>
    simp only [visit, hheld, if_true]
    exact (ensures_done root).imp fun _ _ ↦ covered_of_isHeld hheld
  | false =>
    have hown : Ensures seen root (declareBindings ancestors tag root) _ :=
      ensures_declareBindings tag hplaced
    cases hcollection : tag.mark? Mark.collection with
    | some raw =>
      simp only [visit, hheld, hcollection, Bool.false_eq_true, if_false]
      refine (hown.andThen fun value hgrows _ ↦ ensures_visitCollection hcollection hregular
        (hplaced.grow hgrows) hbelow).imp ?_
      rintro final ⟨hdeclared, address, hlist, hcovers⟩
      exact covered_of_collection hheld hdeclared hcollection hlist hcovers
    | none =>
      cases hcomponent : tag.mark? Mark.component with
      | none =>
        simp only [visit, hheld, hcollection, hcomponent, Bool.false_eq_true, if_false]
        refine (hown.andThen fun value hgrows _ ↦
          ensures_children hbelow hold (hplaced.grow hgrows)).imp ?_
        rintro final ⟨hdeclared, hcovers⟩
        exact covered_of_children hheld
          (fun _ hitem h ↦ .plain hitem hdeclared hcollection hcomponent h) hcovers
      | some name =>
        simp only [visit, hheld, hcollection, hcomponent, Bool.false_eq_true, if_false]
        have hnested : ∀ value, root.GrowsTo value → Ensures seen value
            (declareComponent ancestors.top.address name false none value) _ :=
          fun value hgrows ↦ ensures_declareComponent name false none
            (hplaced.grow hgrows _ List.mem_cons_self)
        refine (hown.andThen fun value hgrows _ ↦ (hnested value hgrows).andThen
          fun later hlater hthere ↦ ensures_children hbelow hold
            ((hplaced.grow (hgrows.trans hlater)).push_declared hthere)).imp ?_
        rintro final ⟨hdeclared, ⟨c, hc, hsingle⟩, hcovers⟩
        refine covered_of_children hheld (fun _ hitem h ↦ ?_) hcovers
        exact .component hitem hdeclared hcollection hcomponent hc hsingle h

/-- A visit covers its tree. -/
theorem ensures_visit :
    ∀ (depth : Nat) (n : Node), n.height ≤ depth → (∀ e ∈ n.elements, Regular e) →
      ∀ (ancestors : Ancestors) (hold : Option Place) (root : Component), Placed root ancestors →
        Ensures seen root (visit depth ancestors hold n root) (Covered seen ancestors hold n) := by
  intro depth
  induction depth with
  | zero =>
    intro n hheight _ ancestors hold root _
    cases n with
    | text kind content => exact (ensures_done root).imp fun _ _ ↦ covered_text
    | element tag children =>
      rw [Node.height] at hheight
      omega
  | succ depth ih =>
    intro n hheight hregular ancestors hold root hplaced
    cases n with
    | text kind content => exact (ensures_done root).imp fun _ _ ↦ covered_text
    | element tag children =>
      rw [Node.height] at hheight
      rw [Node.elements] at hregular
      exact ensures_visit_element (hregular _ List.mem_cons_self) hplaced fun m hm hsub ↦
        ih m (by omega) fun e he ↦ hregular e (List.mem_cons_of_mem _ (hsub he))

/-- The outermost component is covered by what is extracted from it, if nothing was dropped. -/
theorem coversOutermost_of_visitOutermost {name : String}
    (hfault : (visitOutermost name tag children).fault = none)
    (hreports : ∀ entry ∈ (visitOutermost name tag children).reports,
      ∃ t a, entry = .visited t a ∧ seen t a)
    (hregular : ∀ e ∈ (Node.element tag children).elements, Regular e) :
    CoversOutermost seen (visitOutermost name tag children).value ⟨⟨name, []⟩, []⟩ tag
      children := by
  have hplaced := placed_outermost name
  rw [Node.elements] at hregular
  have hbelow : VisitsCover seen children (visit (Node.heightAll children)) := fun m hm hsub ↦
    ensures_visit _ m hm fun e he ↦ hregular e (List.mem_cons_of_mem _ (hsub he))
  have hown : Ensures seen (.empty false none)
      (declareBindings ⟨⟨name, []⟩, []⟩ tag (.empty false none)) _ :=
    ensures_declareBindings tag hplaced
  cases hcollection : tag.mark? Mark.collection with
  | some raw =>
    have hwhole := hown.andThen fun value hgrows _ ↦ ensures_visitCollection hcollection
      (hregular _ List.mem_cons_self) (hplaced.grow hgrows) hbelow
    simp only [visitOutermost, hcollection] at hfault hreports ⊢
    obtain ⟨hdeclared, hlist⟩ := (hwhole hfault hreports).2 _ (Component.GrowsTo.refl _)
    refine ⟨hdeclared,
      fun hnone ↦ absurd (hcollection.symm.trans hnone) (Option.some_ne_none raw),
      fun other hother ↦ ?_⟩
    obtain rfl := Option.some.inj (hcollection.symm.trans hother)
    exact hlist
  | none =>
    have hwhole := hown.andThen fun value hgrows _ ↦
      ensures_children hbelow none (hplaced.grow hgrows)
    simp only [visitOutermost, hcollection] at hfault hreports ⊢
    obtain ⟨hdeclared, hcovers⟩ := (hwhole hfault hreports).2 _ (Component.GrowsTo.refl _)
    refine ⟨hdeclared, fun _ m hm ↦ ?_,
      fun raw hraw ↦ absurd (hraw.symm.trans hcollection) (Option.some_ne_none raw)⟩
    obtain ⟨i, hi⟩ := List.getElem?_of_mem hm
    exact hcovers i m hi

end Visits

end Extraction

end MarkupBinding
