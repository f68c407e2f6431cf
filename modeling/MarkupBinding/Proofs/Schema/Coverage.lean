import MarkupBinding.Proofs.Markup.ItemCount
import MarkupBinding.Proofs.Schema.Growth
import MarkupBinding.Schema.Extraction

/-!
# Coverage

What a finished schema says of a tree. `Covers` runs through a tree with the scopes that extraction
has around each node and demands that the schema declares what is bound there: the properties of
dotted paths (`Declared`), a nested component for each component mark, and a list for each
collection (`DeclaresList`). Below a collection it carries along the scopes and the list of the
collection; the element with the item mark is then covered with these scopes and the scope of an
item inside, however deep between wrappers it stands.

Coverage is about the tree and the finished schema alone, so it outlives what binding does to the
tree: it is kept when elements are switched off (`Covers.filterOff`), and it hands on the coverage
of the stencil (`Covers.stencil_at`).
-/

set_option autoImplicit false
set_option relaxedAutoImplicit false

namespace MarkupBinding.Extraction

/-- The innermost scope of a name. -/
def Ancestors.named (ancestors : Ancestors) (scope : String) : Option Ancestor :=
  ancestors.list.find? fun a ↦ a.name == scope

/-- A component of the scopes has the property that the path names: that of the scope which a dotted
path names, and that of any scope for a bare path. -/
def Declares (root : Component) (ancestors : Ancestors) (path : Path) : Prop :=
  ∃ a ∈ ancestors.list, (∀ scope, path.scope = some scope → ancestors.named scope = some a) ∧
    ∃ c, root.at? a.address = some c ∧ c.Takes path.name

/-- An element was seen inside scopes, and the schema declares what its paths name. -/
structure Declared (seen : Tag → Ancestors → Prop) (root : Component) (ancestors : Ancestors)
    (tag : Tag) : Prop where
  seen : seen tag ancestors
  text : ∀ raw, tag.mark? Mark.textContent = some raw →
    ∃ path, Path.ofBinding raw = .ok path ∧ Declares root ancestors path
  attributes : ∀ binding ∈ tag.attributeBindings,
    ∃ segments, TemplateText.parse binding.2 = .ok segments ∧
      ∀ path ∈ segments.paths, Declares root ancestors path

/-- The schema has a list at the address that a dotted collection path names. -/
def DeclaresList (root : Component) (ancestors : Ancestors) (raw : String) (address : Address) :
    Prop :=
  ∃ path scope a c, Path.ofBinding raw = .ok path ∧ path.scope = some scope ∧
    ancestors.named scope = some a ∧ address = a.address ++ [path.name] ∧
    root.at? address = some c ∧ c.array = true

/-- What is carried along from an element to its children: a collection around it can take a stencil
from below it only if it is no collection and no item itself. -/
def carried (tag : Tag) (around : Option (Ancestors × Address)) : Option (Ancestors × Address) :=
  if tag.has Mark.collectionItem || tag.has Mark.collection then none else around

/-- The schema declares what a tree binds inside the scopes; `around` holds the scopes and the list
of the collection that may take its stencil from the tree. -/
inductive Covers (seen : Tag → Ancestors → Prop) (root : Component) :
    Ancestors → Option (Ancestors × Address) → Node → Prop
  | text {ancestors : Ancestors} {around : Option (Ancestors × Address)} {kind : TextKind}
      {content : String} : Covers seen root ancestors around (.text kind content)
  | stencil {ancestors outer : Ancestors} {address : Address} {tag : Tag} {children : List Node}
      {item : String} (hmark : tag.mark? Mark.collectionItem = some item)
      (h : Covers seen root (outer.push item address) none (.element tag children)) :
      Covers seen root ancestors (some (outer, address)) (.element tag children)
  | plain {ancestors : Ancestors} {around : Option (Ancestors × Address)} {tag : Tag}
      {children : List Node} (hitem : around = none ∨ tag.has Mark.collectionItem = false)
      (hdeclared : Declared seen root ancestors tag)
      (hcollection : tag.mark? Mark.collection = none)
      (hcomponent : tag.mark? Mark.component = none)
      (h : ∀ n ∈ children, Covers seen root ancestors (carried tag around) n) :
      Covers seen root ancestors around (.element tag children)
  | component {ancestors : Ancestors} {around : Option (Ancestors × Address)} {tag : Tag}
      {children : List Node} {name : String} {c : Component}
      (hitem : around = none ∨ tag.has Mark.collectionItem = false)
      (hdeclared : Declared seen root ancestors tag)
      (hcollection : tag.mark? Mark.collection = none)
      (hcomponent : tag.mark? Mark.component = some name)
      (hnested : root.at? (ancestors.top.address ++ [name]) = some c) (hsingle : c.array = false)
      (h : ∀ n ∈ children, Covers seen root
        (ancestors.push name (ancestors.top.address ++ [name])) (carried tag around) n) :
      Covers seen root ancestors around (.element tag children)
  | collection {ancestors : Ancestors} {around : Option (Ancestors × Address)} {tag : Tag}
      {children : List Node} {raw : String} {address : Address}
      (hitem : around = none ∨ tag.has Mark.collectionItem = false)
      (hdeclared : Declared seen root ancestors tag)
      (hcollection : tag.mark? Mark.collection = some raw)
      (hlist : DeclaresList root ancestors raw address)
      (h : ∀ n ∈ children, Covers seen root ancestors (some (ancestors, address)) n) :
      Covers seen root ancestors around (.element tag children)

section Laws

variable {seen : Tag → Ancestors → Prop} {root : Component} {ancestors outer : Ancestors}
  {around : Option (Ancestors × Address)} {address : Address} {tag : Tag} {children : List Node}
  {n : Node}

theorem carried_none (tag : Tag) : carried tag none = none := by
  rw [carried]
  split <;> rfl

theorem carried_of_has (hitem : tag.has Mark.collectionItem = false)
    (hcollection : tag.has Mark.collection = false) : carried tag around = around := by
  simp [carried, hitem, hcollection]

/-- Where a tree holds no item mark for a collection around it, it does not matter which collection
that is. -/
theorem Covers.of_itemCount_eq_zero (h : Covers seen root ancestors around n)
    (hcount : n.itemCount = 0) (other : Option (Ancestors × Address)) :
    Covers seen root ancestors other n := by
  have hcarried : ∀ {tag : Tag} {children : List Node}, (Node.element tag children).itemCount = 0 →
      tag.has Mark.collectionItem = false ∧ ∀ m ∈ children,
        (tag.has Mark.collection = true ∨ m.itemCount = 0) := by
    intro tag children hzero
    rw [Node.itemCount] at hzero
    split at hzero
    · exact absurd hzero Nat.one_ne_zero
    · next hitem =>
      refine ⟨by simpa using hitem, fun m hm ↦ ?_⟩
      split at hzero
      · next hcollection => exact Or.inl hcollection
      · exact Or.inr (Nat.le_zero.1 (hzero ▸ Node.itemCount_le_itemCountAll hm))
  have hchild : ∀ {tag : Tag} {m : Node} {anc : Ancestors} {around : Option (Ancestors × Address)}
      (other : Option (Ancestors × Address)),
      (tag.has Mark.collection = true ∨ m.itemCount = 0) →
      Covers seen root anc (carried tag around) m →
      (m.itemCount = 0 → ∀ other, Covers seen root anc other m) →
      Covers seen root anc (carried tag other) m := by
    intro tag m anc around other hcases hcovers ih
    rcases hcases with hcollection | hzero
    · rw [carried, if_pos (by simp [hcollection])] at hcovers ⊢
      exact hcovers
    · exact ih hzero _
  induction h generalizing other with
  | text => exact .text
  | stencil hmark _ _ =>
    have hitem := (hcarried hcount).1
    rw [Tag.has_of_mark? hmark] at hitem
    cases hitem
  | plain _ hdeclared hcollection hcomponent h ih =>
    obtain ⟨hitem, hbelow⟩ := hcarried hcount
    exact .plain (Or.inr hitem) hdeclared hcollection hcomponent fun m hm ↦
      hchild other (hbelow m hm) (h m hm) (ih m hm)
  | component _ hdeclared hcollection hcomponent hnested hsingle h ih =>
    obtain ⟨hitem, hbelow⟩ := hcarried hcount
    exact .component (Or.inr hitem) hdeclared hcollection hcomponent hnested hsingle fun m hm ↦
      hchild other (hbelow m hm) (h m hm) (ih m hm)
  | collection _ hdeclared hcollection hlist h _ =>
    exact .collection (Or.inr (hcarried hcount).1) hdeclared hcollection hlist h

/-- Coverage is kept when elements are switched off. -/
theorem Covers.filterOff (off : String → Bool) (h : Covers seen root ancestors around n) :
    Covers seen root ancestors around (n.filterOff off).1 := by
  have hall : ∀ {anc : Ancestors} {around : Option (Ancestors × Address)} {children : List Node},
      (∀ m ∈ children, Covers seen root anc around (m.filterOff off).1) →
      ∀ m ∈ (Node.filterOffAll off children).1, Covers seen root anc around m := by
    intro anc around children hchildren m hm
    obtain ⟨original, horiginal, -, rfl⟩ := (Node.mem_filterOffAll_fst off).1 hm
    exact hchildren original horiginal
  induction h with
  | text => rw [Node.filterOff_text_fst]; exact .text
  | stencil hmark _ ih =>
    rw [Node.filterOff_element_fst] at ih ⊢
    exact .stencil hmark ih
  | plain hitem hdeclared hcollection hcomponent _ ih =>
    rw [Node.filterOff_element_fst]
    exact .plain hitem hdeclared hcollection hcomponent (hall ih)
  | component hitem hdeclared hcollection hcomponent hnested hsingle _ ih =>
    rw [Node.filterOff_element_fst]
    exact .component hitem hdeclared hcollection hcomponent hnested hsingle (hall ih)
  | collection hitem hdeclared hcollection hlist _ ih =>
    rw [Node.filterOff_element_fst]
    exact .collection hitem hdeclared hcollection hlist (hall ih)

/-- The stencil of a collection whose children are covered is covered with an item inside. -/
theorem Covers.stencil_at {place : Place} {stencil : Node} :
    ∀ {nodes : List Node} {ancestors : Ancestors}, Node.stencilAmong 0 nodes = some place →
      Node.atPlace? nodes place = some stencil →
      (∀ n ∈ nodes, Covers seen root ancestors (some (outer, address)) n) →
      ∃ tag children item, stencil = .element tag children ∧
        tag.mark? Mark.collectionItem = some item ∧
        Covers seen root (outer.push item address) none stencil := by
  induction place with
  | nil => intro nodes ancestors _ hat; simp [Node.atPlace?] at hat
  | cons i rest ih =>
    intro nodes ancestors hplace hat hnodes
    rcases Node.stencilAmong_cases hplace with
      ⟨_, tag, children, heq, hn, hitem⟩ |
      ⟨_, j, below, tag, children, heq, hn, hitem, hcollection, hbelow⟩
    · obtain ⟨rfl, rfl⟩ := List.cons.inj heq
      rw [Node.atPlace?, hn] at hat
      obtain rfl := Option.some.inj hat
      have hnone : ¬ (some (outer, address) = none ∨ tag.has Mark.collectionItem = false) := by
        simp [hitem]
      cases hnodes _ (List.mem_of_getElem? hn) with
      | stencil hmark h => exact ⟨tag, children, _, rfl, hmark, h⟩
      | plain hwhere => exact absurd hwhere hnone
      | component hwhere => exact absurd hwhere hnone
      | collection hwhere => exact absurd hwhere hnone
    · obtain ⟨rfl, rfl⟩ := List.cons.inj heq
      rw [Node.atPlace?_cons_cons hn] at hat
      cases hnodes _ (List.mem_of_getElem? hn) with
      | stencil hmark _ => simp [Tag.has_of_mark? hmark] at hitem
      | plain _ _ _ _ h =>
        rw [carried_of_has hitem hcollection] at h
        exact ih hbelow hat h
      | component _ _ _ _ _ _ h =>
        rw [carried_of_has hitem hcollection] at h
        exact ih hbelow hat h
      | collection _ _ hmark _ _ => simp [Tag.has_of_mark? hmark] at hcollection

end Laws

end MarkupBinding.Extraction
