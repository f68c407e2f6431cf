import MarkupBinding.Proofs.Markup.KeptStencils
import MarkupBinding.Proofs.Markup.Rearrangement
import MarkupBinding.Proofs.Schema.Coverage
import MarkupBinding.Proofs.Schema.Facts

/-!
# What markup declares

What a tree with dotted paths declares, as a set (`Extraction.declarations`). A dotted path declares
on the innermost scope of its name, whatever is declared already, so the set follows from the tree
and the scopes around it alone, and rearranging the tree leaves it (`declarationsAll_rearranged`).

The stencil of a collection declares inside the scopes of the collection, however deep below it
stands. So what is around a tree is carried down to it (`Around`): the collection whose stencil it
may hold, or only that the stencil in it is held back. The declarations below a collection are those
of its stencil and those of the rest with the stencil held back (`declarationsAll_collection`).
-/

set_option autoImplicit false
set_option relaxedAutoImplicit false

namespace MarkupBinding.Extraction

/-! ### Bindings -/

/-- The property that a dotted path declares, if its scope is there. -/
def pathDeclarations (ancestors : Ancestors) (path : Path) : Set Declaration :=
  match path.scope.bind ancestors.named with
  | none => ∅
  | some a => {.property a.address path.name}

/-- What the text of an element declares. -/
def textDeclarations (ancestors : Ancestors) (tag : Tag) : Set Declaration :=
  match tag.mark? Mark.textContent with
  | none => ∅
  | some raw =>
    match Path.ofBinding raw with
    | .error _ => {.fault}
    | .ok path => pathDeclarations ancestors path

/-- What an attribute of an element declares. -/
def attributeDeclarations (ancestors : Ancestors) (binding : String × String) : Set Declaration :=
  match TemplateText.parse binding.2 with
  | .error _ => {.fault}
  | .ok segments => {x | ∃ path ∈ segments.paths, x ∈ pathDeclarations ancestors path}

/-- What the bindings of an element declare. -/
def bindingDeclarations (ancestors : Ancestors) (tag : Tag) : Set Declaration :=
  textDeclarations ancestors tag ∪
    {x | ∃ binding ∈ tag.attributeBindings, x ∈ attributeDeclarations ancestors binding}

/-! ### Trees -/

/-- The collection around a tree that may have its stencil in it. -/
inductive Around where
  /-- There is none. -/
  | nothing
  /-- The stencil is held back. -/
  | held
  /-- A collection inside scopes; the scope that owns its list, if it is there, and the name of the
  list. -/
  | collection (scopes : Ancestors) (owner : Option Ancestor) (list : String)

/-- What is around the children of an element. -/
def Around.carried (around : Around) (tag : Tag) : Around :=
  if tag.has Mark.collectionItem || tag.has Mark.collection then .nothing else around

/-- What is declared before an element is entered, and the scopes inside which it is, if it is. -/
def Around.enter (around : Around) (ancestors : Ancestors) (tag : Tag) :
    Set Declaration × Option Ancestors :=
  if tag.has Mark.collectionItem then
    match around with
    | .nothing => (∅, some ancestors)
    | .held => (∅, none)
    | .collection scopes owner list =>
      match tag.mark? Mark.collectionItem, owner with
      | none, _ => ({.fault}, none)
      | some _, none => (∅, none)
      | some item, some a =>
        ({.component a.address list true (some item)},
          some (scopes.push item (a.address ++ [list])))
  else (∅, some ancestors)

/-- What an element inside scopes declares below its bindings; `below` are the declarations of its
children. -/
def contentDeclarations (below : Ancestors → Around → Set Declaration) (inside : Ancestors)
    (around : Around) (tag : Tag) : Set Declaration :=
  match tag.mark? Mark.collection with
  | some raw =>
    match Path.ofBinding raw with
    | .error _ => {.fault}
    | .ok path => below inside (.collection inside (path.scope.bind inside.named) path.name)
  | none =>
    match tag.mark? Mark.component with
    | none => below inside around
    | some name =>
      insert (.component inside.top.address name false none)
        (below (inside.push name (inside.top.address ++ [name])) around)

mutual

/-- What a tree inside scopes declares. -/
def declarations (ancestors : Ancestors) (around : Around) : Node → Set Declaration
  | .text _ _ => ∅
  | .element tag children =>
    match around.enter ancestors tag with
    | (before, none) => before
    | (before, some inside) =>
      before ∪ (bindingDeclarations inside tag ∪
        contentDeclarations (fun ancestors around ↦ declarationsAll ancestors around children)
          inside (around.carried tag) tag)

/-- What several trees declare. -/
def declarationsAll (ancestors : Ancestors) (around : Around) : List Node → Set Declaration
  | [] => ∅
  | n :: rest => declarations ancestors around n ∪ declarationsAll ancestors around rest

end

section Laws

variable {ancestors inside scopes : Ancestors} {around : Around} {tag : Tag}
  {children nodes others : List Node} {owner : Option Ancestor} {list : String}

theorem mem_declarationsAll_iff {declaration : Declaration} :
    declaration ∈ declarationsAll ancestors around nodes ↔
      ∃ n ∈ nodes, declaration ∈ declarations ancestors around n := by
  induction nodes with
  | nil => simp [declarationsAll]
  | cons n rest ih => simp [declarationsAll, ih]

theorem declarationsAll_append (ancestors : Ancestors) (around : Around)
    (nodes others : List Node) :
    declarationsAll ancestors around (nodes ++ others) =
      declarationsAll ancestors around nodes ∪ declarationsAll ancestors around others := by
  ext declaration
  simp only [mem_declarationsAll_iff, Set.mem_union, List.mem_append, or_and_right, exists_or]

/-- Rearranging trees leaves what they declare. -/
theorem declarationsAll_rearranged (h : Node.Rearranged nodes others) (ancestors : Ancestors)
    (around : Around) :
    declarationsAll ancestors around nodes = declarationsAll ancestors around others := by
  induction h generalizing ancestors around with
  | perm h =>
    ext declaration
    simp only [mem_declarationsAll_iff, h.mem_iff]
  | inside _ _ _ _ ih =>
    simp only [declarationsAll_append, declarationsAll, declarations, ih]
  | trans _ _ ih ih' => exact (ih ancestors around).trans (ih' ancestors around)

/-! ### Entering -/

theorem Around.enter_nothing (ancestors : Ancestors) (tag : Tag) :
    Around.enter .nothing ancestors tag = (∅, some ancestors) := by
  unfold enter
  split <;> rfl

theorem Around.enter_of_has_eq_false (hitem : tag.has Mark.collectionItem = false)
    (around : Around) (ancestors : Ancestors) :
    around.enter ancestors tag = (∅, some ancestors) := by
  simp only [enter, hitem, Bool.false_eq_true, if_false]

theorem Around.enter_held (hitem : tag.has Mark.collectionItem = true) (ancestors : Ancestors) :
    Around.enter .held ancestors tag = (∅, none) := by
  simp only [enter, hitem, if_true]

theorem Around.carried_of_has_eq_false (hitem : tag.has Mark.collectionItem = false)
    (hcollection : tag.has Mark.collection = false) (around : Around) :
    around.carried tag = around := by
  simp [carried, hitem, hcollection]

theorem Around.carried_nothing (tag : Tag) : Around.carried .nothing tag = .nothing := by
  rw [carried]
  split <;> rfl

/-- An element that is entered declares what it binds and what its content declares. -/
theorem declarations_of_enter (h : around.enter ancestors tag = (∅, some inside)) :
    declarations ancestors around (.element tag children) =
      bindingDeclarations inside tag ∪
        contentDeclarations (fun ancestors around ↦ declarationsAll ancestors around children)
          inside (around.carried tag) tag := by
  rw [declarations, h]
  exact Set.empty_union _

theorem contentDeclarations_congr {below : Ancestors → Around → Set Declaration} {around' : Around}
    (h : ∀ ancestors, below ancestors around = below ancestors around') :
    contentDeclarations below inside around tag = contentDeclarations below inside around' tag := by
  simp only [contentDeclarations, h]

theorem declarationsAll_congr {around' : Around} (h : ∀ n ∈ nodes,
    declarations ancestors around n = declarations ancestors around' n) :
    declarationsAll ancestors around nodes = declarationsAll ancestors around' nodes := by
  induction nodes with
  | nil => rfl
  | cons n rest ih =>
    rw [declarationsAll, declarationsAll, h n List.mem_cons_self,
      ih fun m hm ↦ h m (List.mem_cons_of_mem n hm)]

/-- Where a tree holds no item mark for a collection around it, it does not matter which collection
that is. -/
theorem declarations_of_itemCount_eq_zero (n : Node) (around' : Around) :
    n.itemCount = 0 → ∀ ancestors around,
      declarations ancestors around n = declarations ancestors around' n := by
  induction n using Node.induction_on_children with
  | text kind content => exact fun _ _ _ ↦ rfl
  | element tag children ih =>
    intro hcount ancestors around
    rw [Node.itemCount] at hcount
    split at hcount
    · exact absurd hcount Nat.one_ne_zero
    next hitem =>
    rw [Bool.not_eq_true] at hitem
    rw [declarations_of_enter (Around.enter_of_has_eq_false hitem around ancestors),
      declarations_of_enter (Around.enter_of_has_eq_false hitem around' ancestors)]
    split at hcount
    · next hcollection => simp [Around.carried, hcollection]
    · next hcollection =>
      rw [Bool.not_eq_true] at hcollection
      rw [Around.carried_of_has_eq_false hitem hcollection,
        Around.carried_of_has_eq_false hitem hcollection]
      refine congrArg _ (contentDeclarations_congr fun ancestors ↦ declarationsAll_congr
        fun m hm ↦ ih m hm ?_ ancestors around)
      exact Nat.le_zero.1 (hcount ▸ Node.itemCount_le_itemCountAll hm)

theorem declarationsAll_of_itemCountAll_eq_zero (hcount : Node.itemCountAll nodes = 0)
    (around around' : Around) :
    declarationsAll ancestors around nodes = declarationsAll ancestors around' nodes :=
  declarationsAll_congr fun n hn ↦ declarations_of_itemCount_eq_zero n around'
    (Nat.le_zero.1 (hcount ▸ Node.itemCount_le_itemCountAll hn)) ancestors around

/-! ### Stencils -/

/-- What the stencil of a collection declares hangs on the scopes of the collection alone. -/
theorem declarations_stencil (hitem : tag.has Mark.collectionItem = true)
    (ancestors other : Ancestors) :
    declarations ancestors (.collection scopes owner list) (.element tag children) =
      declarations other (.collection scopes owner list) (.element tag children) := by
  have henter : Around.enter (.collection scopes owner list) ancestors tag =
      Around.enter (.collection scopes owner list) other tag := by
    simp only [Around.enter, hitem, if_true]
  rw [declarations, declarations, henter]

/-- A stencil that names no scope is at fault. -/
theorem declarations_stencil_unnamed (hitem : tag.has Mark.collectionItem = true)
    (hname : tag.mark? Mark.collectionItem = none) :
    declarations ancestors (.collection scopes owner list) (.element tag children) = {.fault} := by
  simp only [declarations, Around.enter, hitem, if_true, hname]

/-- The stencil of a list without an owner declares nothing. -/
theorem declarations_stencil_dropped {item : String}
    (hname : tag.mark? Mark.collectionItem = some item) :
    declarations ancestors (.collection scopes none list) (.element tag children) = ∅ := by
  simp only [declarations, Around.enter, Tag.has_of_mark? hname, if_true, hname]

/-- A stencil declares its list, and what it does as a tree inside the scope of an item. -/
theorem declarations_stencil_owned {item : String} {a : Ancestor}
    (hname : tag.mark? Mark.collectionItem = some item) :
    declarations ancestors (.collection scopes (some a) list) (.element tag children) =
      {.component a.address list true (some item)} ∪
        declarations (scopes.push item (a.address ++ [list])) .nothing
          (.element tag children) := by
  have hitem := Tag.has_of_mark? hname
  rw [declarations_of_enter (Around.enter_nothing _ tag)]
  simp only [declarations, Around.enter, Around.carried, hitem, if_true, hname, Bool.true_or]

/-- What the children of an element declare more in one surrounding than in another, the element
declares more in it too, if it is no collection. -/
theorem contentDeclarations_union {below : Ancestors → Around → Set Declaration} {around' : Around}
    {more : Set Declaration} (hmark : tag.mark? Mark.collection = none)
    (h : ∀ ancestors, below ancestors around = more ∪ below ancestors around') :
    contentDeclarations below inside around tag =
      more ∪ contentDeclarations below inside around' tag := by
  simp only [contentDeclarations, hmark, h]
  cases tag.mark? Mark.component with
  | none => rfl
  | some name => exact Set.union_insert.symm

/-- The trees below a collection declare what its stencil declares, and what they do with the
stencil held back. -/
theorem declarationsAll_collection {place : Place} {stencil : Node} (other : Ancestors) :
    ∀ {nodes : List Node} {ancestors : Ancestors}, Node.stencilAmong 0 nodes = some place →
      Node.itemCountAll nodes ≤ 1 → Node.atPlace? nodes place = some stencil →
      declarationsAll ancestors (.collection scopes owner list) nodes =
        declarations other (.collection scopes owner list) stencil ∪
          declarationsAll ancestors .held nodes := by
  induction place with
  | nil => intro nodes ancestors _ _ hat; simp [Node.atPlace?] at hat
  | cons i rest ih =>
    intro nodes ancestors hplace hcount hat
    obtain ⟨before, n, after, rfl, hbefore, hin⟩ := Node.stencilAmong_eq_some_iff.1 hplace
    have hpos := Node.itemCount_pos n hin
    rw [Node.itemCountAll_append, Node.itemCountAll] at hcount
    have hafter : Node.itemCountAll after = 0 := by omega
    -- only the tree that holds the stencil tells the collection from one that holds it back
    rw [declarationsAll_append, declarationsAll_append, declarationsAll, declarationsAll,
      declarationsAll_of_itemCountAll_eq_zero hbefore (.collection scopes owner list) .held,
      declarationsAll_of_itemCountAll_eq_zero hafter (.collection scopes owner list) .held]
    suffices h : declarations ancestors (.collection scopes owner list) n =
        declarations other (.collection scopes owner list) stencil ∪
          declarations ancestors .held n by
      rw [h]
      ac_rfl
    rw [Nat.zero_add] at hin
    obtain ⟨tag, children, rfl, ⟨hitem, hhere⟩ | ⟨hitem, hcollection, below, hbelow, hdeeper⟩⟩ :=
      Node.stencilIn_eq_some hin
    · obtain ⟨rfl, rfl⟩ := List.cons.inj hhere
      have hstencil : Node.atPlace? (before ++ Node.element tag children :: after)
          [before.length] = some (.element tag children) := by
        rw [Node.atPlace?, List.getElem?_append_right (Nat.le_refl _), Nat.sub_self]
        rfl
      obtain rfl := Option.some.inj (hat.symm.trans hstencil)
      rw [declarations_stencil hitem ancestors other, declarations, declarations,
        Around.enter_held hitem]
      exact (Set.union_empty _).symm
    · obtain ⟨rfl, rfl⟩ := List.cons.inj hdeeper
      obtain ⟨j, further, rfl⟩ := Node.exists_of_stencilAmong hbelow
      have hhere : (before ++ Node.element tag children :: after)[before.length]? =
          some (.element tag children) := by simp
      rw [Node.atPlace?_cons_cons hhere] at hat
      rw [Node.itemCount, if_neg (by simp [hitem]), if_neg (by simp [hcollection])] at hcount
      have hchildren : ∀ ancestors,
          declarationsAll ancestors (.collection scopes owner list) children = _ :=
        fun _ ↦ ih hbelow (by omega) hat
      rw [declarations_of_enter (Around.enter_of_has_eq_false hitem _ ancestors),
        declarations_of_enter (Around.enter_of_has_eq_false hitem _ ancestors),
        Around.carried_of_has_eq_false hitem hcollection,
        Around.carried_of_has_eq_false hitem hcollection,
        contentDeclarations_union (Tag.mark?_eq_none_of_has_eq_false hcollection) hchildren]
      exact Set.union_left_comm _ _ _

end Laws

end MarkupBinding.Extraction
