import MarkupBinding.Proofs.Binding.Origin
import MarkupBinding.Proofs.Schema.Conformance
import MarkupBinding.Proofs.Schema.Inference

/-!
# Binding in step with extraction

Binding walks in step with the extraction of a schema as long as its scopes follow those of
extraction. How closely they do is left open: a relation of the scopes `Tracks` extraction if paths
that the schema declares resolve under related scopes, and if opening the scope of a component and
that of an item leaves the scopes related. A visit then `Follows` extraction when its scopes are
related to scopes of extraction inside which its node is covered.

Every visit that such a visit leads to follows extraction again (`Follows.step`): a component opens
its scope in both walks, the nodes around a stencil keep their scopes, and a copy of a stencil has
the item's scope inside. All that can fail at a path there is a collection, whose list the schema
declares (`PathsResolve.exists_items_of_fails`).
-/

set_option autoImplicit false
set_option relaxedAutoImplicit false

namespace MarkupBinding.Binding

open Extraction

/-- What has to hold of all the nodes that are walked: no binding sets a mark, a collection holds no
two item marks, and no component is taken for the root scope. -/
structure Suitable (forest : List Node) (outside : List Scope) : Prop where
  marks : ∀ t ∈ Node.tagsAll forest, t.KeepsMarks
  single : ∀ e ∈ Node.elementsAll forest, (e.1.mark? Mark.collection).isSome = true →
    Node.itemCountAll e.2 ≤ 1
  root : outside = [] → ∀ t ∈ Node.tagsAll forest, t.mark? Mark.component ≠ some rootScope

/-- The relation of the scopes of binding to those of extraction is kept by opening scopes, and the
paths that the schema declares resolve under it. -/
structure Tracks (root : Component) (outside : List Scope) (rel : Stack → Ancestors → Prop) :
    Prop where
  resolves : ∀ {stack : Stack} {ancestors : Ancestors} {path : Path}, rel stack ancestors →
    Declares root ancestors path → stack.Resolves path
  enter : ∀ {stack : Stack} {ancestors : Ancestors} {tag : Tag} {name : String} {c : Component},
    rel stack ancestors → tag.mark? Mark.component = some name →
    root.at? (ancestors.top.address ++ [name]) = some c → c.array = false →
    (outside = [] → name ≠ rootScope) →
    rel (enter stack tag) (ancestors.push name (ancestors.top.address ++ [name]))
  item : ∀ {stack : Stack} {ancestors : Ancestors} {raw : String} {address : Address}
    {items : List Value} {item : Value}, rel stack ancestors →
    DeclaresList root ancestors raw address → (itemsFor stack raw).value = some items →
    item ∈ items → ∀ name, rel (stack.push name item) (ancestors.push name address)

/-- The scopes of a visit are related to scopes of extraction inside which its node, or the stencil
that it is a copy of, is covered. -/
def Follows (rel : Stack → Ancestors → Prop) (seen : Tag → Ancestors → Prop) (root : Component)
    (v : Visit) : Prop :=
  ∃ ancestors around n, rel v.stack ancestors ∧
    Covers seen root ancestors around n ∧ (v.node = n ∨ v.hold = none ∧ v.node = copyOf n) ∧
    (v.hold = none → around = none) ∧ (v.hold ≠ none → n.itemCount ≤ 1)

variable {rel : Stack → Ancestors → Prop} {seen : Tag → Ancestors → Prop} {root : Component}
  {outside : List Scope} {stack : Stack} {hold : Option Place} {ancestors : Ancestors} {tag : Tag}
  {children : List Node}

/-! ### Bindings of an element -/

/-- Every path in a text and in a placeholder of an attribute resolves. -/
structure PathsResolve (stack : Stack) (tag : Tag) : Prop where
  text : ∀ raw, tag.mark? Mark.textContent = some raw →
    ∃ path, Path.ofBinding raw = .ok path ∧ stack.Resolves path
  attributes : ∀ binding ∈ tag.attributeBindings,
    ∃ segments, TemplateText.parse binding.2 = .ok segments ∧
      ∀ path ∈ segments.paths, stack.Resolves path

/-- Paths that the schema declares resolve; a copy of a stencil has those of the stencil. -/
theorem Tracks.pathsResolve (htracks : Tracks root outside rel) {original : Tag}
    (hrel : rel stack ancestors) (hdeclared : Declared seen root ancestors original)
    (htag : tag = original ∨ tag = original.erase Mark.collectionItem) :
    PathsResolve stack tag := by
  constructor
  · intro raw hmark
    rw [Tag.mark?_of_eq_or_erase htag (by decide)] at hmark
    obtain ⟨path, hpath, hdeclares⟩ := hdeclared.text raw hmark
    exact ⟨path, hpath, htracks.resolves hrel hdeclares⟩
  · intro binding hbinding
    rw [Tag.attributeBindings_of_eq_or_erase htag] at hbinding
    obtain ⟨segments, hparse, hdeclares⟩ := hdeclared.attributes binding hbinding
    exact ⟨segments, hparse, fun path hpath ↦ htracks.resolves hrel (hdeclares path hpath)⟩

/-- Where the paths in texts and attributes resolve, only that of a collection stops the walk. -/
theorem PathsResolve.exists_items_of_fails (h : PathsResolve stack tag) {e : ResolutionError}
    (hfails : Visit.Fails ⟨stack, hold, .element tag children⟩ (.resolution e)) :
    ∃ raw, (bindAttributes stack tag).value.mark? Mark.collection = some raw ∧
      (itemsFor stack raw).fault = some (.resolution e) := by
  cases hfails with
  | text hheld hfault =>
    obtain ⟨raw, hmark, hstop⟩ := fault_boundText_eq_some hfault
    obtain ⟨path, hpath, hresolves⟩ := h.text raw hmark
    rcases hstop with ⟨_, hbad, -⟩ | ⟨path', hpath', hstop⟩
    · rw [hpath] at hbad
      cases hbad
    · obtain rfl := Except.ok.inj (hpath.symm.trans hpath')
      rw [fault_resolve_eq_none_iff.2 fun _ ↦ hresolves] at hstop
      cases hstop
  | attributes hheld hfault =>
    obtain ⟨binding, hbinding, hstop⟩ := fault_bindAttributes_eq_some hfault
    obtain ⟨segments, hparse, hresolves⟩ := h.attributes binding hbinding
    rcases hstop with ⟨_, hbad, -⟩ | ⟨segments', hparse', path, hpath, hstop⟩
    · rw [hparse] at hbad
      cases hbad
    · obtain rfl := Except.ok.inj (hparse.symm.trans hparse')
      rw [fault_resolve_eq_none_iff.2 fun _ ↦ hresolves path hpath] at hstop
      cases hstop
  | items hheld htext hcollection hstencil hfault => exact ⟨_, hcollection, hfault⟩

/-! ### One step -/

section Steps

variable {w : Visit}

/-- A child beside or on the way to a stencil that is held back follows extraction. -/
theorem follows_beside {place : Place} {around : Option (Ancestors × Address)} {i : Nat} {n : Node}
    (hplace : Node.stencilAmong 0 children = some place) (hcount : Node.itemCountAll children ≤ 1)
    (hcovers : ∀ n ∈ children, Covers seen root ancestors around n) (hn : children[i]? = some n)
    (hrel : rel stack ancestors) :
    Follows rel seen root ⟨stack, holdBelow i (some place), n⟩ := by
  have hmem := List.mem_of_getElem? hn
  have hle := Nat.le_trans (Node.itemCount_le_itemCountAll hmem) hcount
  cases hbelow : holdBelow i (some place) with
  | some rest =>
    exact ⟨ancestors, around, n, hrel, hcovers n hmem, Or.inl rfl, by simp, fun _ ↦ hle⟩
  | none =>
    refine ⟨ancestors, none, n, hrel, ?_, Or.inl rfl, fun _ ↦ rfl, fun _ ↦ hle⟩
    obtain ⟨j, _, -, hin⟩ := Node.stencilAmong_eq_some hplace
    obtain ⟨rest, rfl⟩ := Node.exists_of_stencilIn hin
    have hne : 0 + j ≠ i := by
      rintro rfl
      rw [holdBelow, if_pos rfl] at hbelow
      cases hbelow
    exact (hcovers n hmem).of_itemCount_eq_zero
      (Node.itemCount_eq_zero_beside hplace hcount hn hne) none

/-- What a collection leads to follows extraction, if its list is declared and its children are
covered with the list around them. -/
theorem Tracks.follows_of_collection (htracks : Tracks root outside rel) {raw : String}
    {address : Address}
    (hrel : rel stack ancestors)
    (hlist : DeclaresList root ancestors raw address)
    (hcovers : ∀ n ∈ children, Covers seen root ancestors (some (ancestors, address)) n)
    (hcount : Node.itemCountAll children ≤ 1)
    (hraw : (bindAttributes stack tag).value.mark? Mark.collection = some raw)
    (hw : Visit.LeadsTo ⟨stack, hold, .element tag children⟩ w) : Follows rel seen root w := by
  cases hw with
  | child hheld htext hplain hn =>
    rw [hraw] at hplain
    cases hplain
  | around hheld htext hcollection hstencil hitems hn =>
    exact follows_beside (Stencil.of_eq_ok hstencil).1 hcount hcovers hn hrel
  | @copy _ _ _ _ raw' stencil items item hheld htext hcollection hstencil hitems hitem =>
    obtain rfl := Option.some.inj (hraw.symm.trans hcollection)
    obtain ⟨hplace, hat, itemTag, itemChildren, hnode, hmark⟩ := Stencil.of_eq_ok hstencil
    obtain ⟨_, _, name, hsame, hname, hinside⟩ := Covers.stencil_at hplace hat hcovers
    obtain ⟨rfl, rfl⟩ := Node.element.inj (hnode.symm.trans hsame)
    obtain rfl := Option.some.inj (hname.symm.trans hmark)
    exact ⟨_, none, stencil.node, htracks.item hrel hlist hitems hitem _, hinside,
      Or.inr ⟨rfl, rfl⟩, fun _ ↦ rfl, fun hne ↦ absurd rfl hne⟩

/-- The children of an element that is no collection follow extraction under scopes that are related
to those inside which they are covered. -/
theorem follows_children {around : Option (Ancestors × Address)}
    (hhold : ∀ place, hold = some place →
      Node.stencilIn 0 (.element tag children) = some (0 :: place))
    (hheld : isHeld hold = false) (haround : hold = none → around = none)
    (hcount : hold ≠ none → (Node.element tag children).itemCount ≤ 1)
    (hcovers : ∀ n ∈ children, Covers seen root ancestors (carried tag around) n) {i : Nat}
    {n : Node} (hn : children[i]? = some n) (hrel : rel stack ancestors) :
    Follows rel seen root ⟨stack, holdBelow i hold, n⟩ := by
  cases hold with
  | none =>
    rw [haround rfl, carried_none] at hcovers
    exact ⟨ancestors, none, n, hrel, hcovers n (List.mem_of_getElem? hn), Or.inl rfl,
      fun _ ↦ rfl, fun hne ↦ absurd rfl hne⟩
  | some place =>
    obtain ⟨hitem, hhas, hrest⟩ :=
      Node.stencilAmong_of_stencilIn (hhold place rfl) (ne_nil_of_isHeld_eq_false hheld)
    have hle := hcount (by simp)
    rw [Node.itemCount, if_neg (by simp [hitem]), if_neg (by simp [hhas])] at hle
    exact follows_beside hrest hle hcovers hn hrel

/-- What a component mark means for the scopes of the children: none opens no scope, and a name
opens the one of the nested component that the schema has. -/
def Opens (root : Component) (ancestors : Ancestors) (tag : Tag) (below : Ancestors) : Prop :=
  tag.mark? Mark.component = none ∧ below = ancestors ∨
    ∃ name c, tag.mark? Mark.component = some name ∧
      root.at? (ancestors.top.address ++ [name]) = some c ∧ c.array = false ∧
      below = ancestors.push name (ancestors.top.address ++ [name])

/-- An element that is covered, or that is a copy of a covered stencil, has the children of the
covered element; its tag is the same but for an item mark that a copy has lost. -/
theorem exists_original_of_eq_or_copyOf {n : Node}
    (h : Node.element tag children = n ∨ hold = none ∧ Node.element tag children = copyOf n) :
    ∃ original, n = .element original children ∧
      (tag = original ∨ tag = original.erase Mark.collectionItem) ∧
      (hold ≠ none → tag = original) := by
  rcases h with rfl | ⟨hnone, hcopy⟩
  · exact ⟨tag, rfl, Or.inl rfl, fun _ ↦ rfl⟩
  · cases n with
    | text kind content => simp [copyOf] at hcopy
    | element original cs =>
      obtain ⟨rfl, rfl⟩ := Node.element.inj hcopy
      exact ⟨original, rfl, Or.inr rfl, fun hne ↦ absurd hnone hne⟩

/-- An element that is visited and follows extraction: its bindings are declared, and it is a
collection whose list is declared, or it opens the scope that extraction has for it and its children
follow there. -/
theorem Follows.cases (h : Follows rel seen root ⟨stack, hold, .element tag children⟩)
    (hhold : ∀ place, hold = some place →
      Node.stencilIn 0 (.element tag children) = some (0 :: place))
    (hheld : isHeld hold = false) :
    ∃ ancestors original, rel stack ancestors ∧
      (tag = original ∨ tag = original.erase Mark.collectionItem) ∧
      Declared seen root ancestors original ∧
      ((∃ raw address, tag.mark? Mark.collection = some raw ∧
          DeclaresList root ancestors raw address ∧
          ∀ n ∈ children, Covers seen root ancestors (some (ancestors, address)) n) ∨
        tag.mark? Mark.collection = none ∧ ∃ below, Opens root ancestors tag below ∧
          ∀ i n, children[i]? = some n → ∀ s, rel s below →
            Follows rel seen root ⟨s, holdBelow i hold, n⟩) := by
  obtain ⟨ancestors, around, n, hrel, hcovers, hnode, haround, hcount⟩ := h
  obtain ⟨original, rfl, htag, hsame⟩ := exists_original_of_eq_or_copyOf hnode
  have hmark : ∀ name, name ≠ Mark.collectionItem → tag.mark? name = original.mark? name :=
    fun _ hname ↦ Tag.mark?_of_eq_or_erase htag hname
  have hchildren : ∀ {below : Ancestors},
      (∀ n ∈ children, Covers seen root below (carried original around) n) →
      ∀ i n, children[i]? = some n → ∀ s, rel s below →
        Follows rel seen root ⟨s, holdBelow i hold, n⟩ := by
    intro below hcovers i n hn s hs
    by_cases hnone : hold = none
    · subst hnone
      exact follows_children (fun _ hsome ↦ by cases hsome) hheld haround hcount hcovers hn hs
    · rw [← hsame hnone] at hcovers hcount
      exact follows_children hhold hheld haround hcount hcovers hn hs
  refine ⟨ancestors, original, hrel, htag, ?_⟩
  cases hcovers with
  | @stencil _ outer address _ _ item hitem _ =>
    -- the stencil of the collection around is held back and not visited
    have hne : hold ≠ none := fun hnone ↦ by cases haround hnone
    obtain ⟨place, rfl⟩ := Option.ne_none_iff_exists'.1 hne
    obtain ⟨hnone, -, -⟩ :=
      Node.stencilAmong_of_stencilIn (hhold place rfl) (ne_nil_of_isHeld_eq_false hheld)
    rw [hsame hne, Tag.has_of_mark? hitem] at hnone
    cases hnone
  | plain _ hdeclared hcollection hcomponent hbelow =>
    refine ⟨hdeclared, Or.inr ⟨by rw [hmark _ (by decide), hcollection], ancestors,
      Or.inl ⟨?_, rfl⟩, hchildren hbelow⟩⟩
    rw [hmark _ (by decide), hcomponent]
  | @component _ _ _ _ name c _ hdeclared hcollection hcomponent hnested hsingle hbelow =>
    refine ⟨hdeclared, Or.inr ⟨by rw [hmark _ (by decide), hcollection], _,
      Or.inr ⟨name, c, ?_, hnested, hsingle, rfl⟩, hchildren hbelow⟩⟩
    rw [hmark _ (by decide), hcomponent]
  | @collection _ _ _ _ raw address _ hdeclared hcollection hlist hbelow =>
    refine ⟨hdeclared, Or.inl ⟨raw, address, ?_, hlist, hbelow⟩⟩
    rw [hmark _ (by decide), hcollection]

variable {forest : List Node} {v : Visit}

/-- A visit that follows extraction leads to visits that do. -/
theorem Follows.step (htracks : Tracks root outside rel) (h : Follows rel seen root v)
    (hfrom : v.From forest) (hsuitable : Suitable forest outside) (hw : v.LeadsTo w) :
    Follows rel seen root w := by
  obtain ⟨stack, hold, node⟩ := v
  cases node with
  | text kind content => cases hw
  | element tag children =>
    have hheld : isHeld hold = false := by cases hw <;> assumption
    have hkeeps := hfrom.keepsMarks hsuitable.marks
    have hbound : ∀ name, Mark.isMark name = true →
        (bindAttributes stack tag).value.mark? name = tag.mark? name :=
      fun name hname ↦ mark?_bindAttributes_of_keepsMarks hkeeps hname
    obtain ⟨ancestors, _, hrel, -, -, ⟨raw, address, hmark, hlist, hcovers⟩ |
      ⟨hmark, below, hopens, hchildren⟩⟩ := h.cases hfrom.hold hheld
    · refine htracks.follows_of_collection hrel hlist hcovers ?_
        ((hbound _ (by decide)).trans hmark) hw
      obtain ⟨original, hin, -, hsame⟩ := hfrom.exists_original
      refine hsuitable.single (original, children) hin ?_
      rw [← hsame _ (by decide), hmark, Option.isSome_some]
    · cases hw with
      | child _ _ _ hn =>
        refine hchildren _ _ hn _ ?_
        rw [enter_congr (hbound _ (by decide))]
        rcases hopens with ⟨hnone, rfl⟩ | ⟨name, c, hname, hnested, hsingle, rfl⟩
        · rw [enter, hnone]
          exact hrel
        · refine htracks.enter hrel hname hnested hsingle fun houtside hroot ↦ ?_
          obtain ⟨original, hin, -, hsame⟩ := hfrom.exists_original
          rw [hsame _ (by decide), hroot] at hname
          exact hsuitable.root houtside original (Node.mem_tagsAll_of_mem_elementsAll hin) hname
      | around _ _ hcollection _ _ _ =>
        rw [hbound _ (by decide), hmark] at hcollection
        cases hcollection
      | copy _ _ hcollection _ _ _ =>
        rw [hbound _ (by decide), hmark] at hcollection
        cases hcollection

/-- At a visit that follows extraction the paths in texts and attributes resolve, the list of a
collection is declared, and extraction saw the element inside scopes related to those of the visit.
-/
theorem Follows.bindings (htracks : Tracks root outside rel)
    (h : Follows rel seen root ⟨stack, hold, .element tag children⟩)
    (hhold : ∀ place, hold = some place →
      Node.stencilIn 0 (.element tag children) = some (0 :: place))
    (hheld : isHeld hold = false) :
    PathsResolve stack tag ∧ ∃ ancestors original, rel stack ancestors ∧
      (tag = original ∨ tag = original.erase Mark.collectionItem) ∧ seen original ancestors ∧
      ∀ raw, tag.mark? Mark.collection = some raw →
        ∃ address, DeclaresList root ancestors raw address := by
  obtain ⟨ancestors, original, hrel, htag, hdeclared, hcases⟩ := h.cases hhold hheld
  refine ⟨htracks.pathsResolve hrel hdeclared htag, ancestors, original, hrel, htag, hdeclared.seen,
    fun raw hmark ↦ ?_⟩
  rcases hcases with ⟨raw', address, hmark', hlist, -⟩ | ⟨hnone, -⟩
  · obtain rfl := Option.some.inj (hmark.symm.trans hmark')
    exact ⟨address, hlist⟩
  · rw [hnone] at hmark
    cases hmark

end Steps

/-! ### Whole runs -/

section Runs

open Relation

variable {forest : List Node} {v w : Visit}

/-- All visits that a visit leads to by steps follow extraction, if those of the first step do. -/
theorem Tracks.follows_of_reflTransGen (htracks : Tracks root outside rel)
    (hfirst : ∀ u, v.LeadsTo u → Follows rel seen root u ∧ u.From forest)
    (hsuitable : Suitable forest outside) (hw : ReflTransGen Visit.LeadsTo v w) :
    w = v ∨ Follows rel seen root w ∧ w.From forest := by
  induction hw with
  | refl => exact Or.inl rfl
  | tail _ hstep ih =>
    rcases ih with rfl | ⟨hfollows, hfrom⟩
    · exact Or.inr (hfirst _ hstep)
    · exact Or.inr ⟨hfollows.step htracks hfrom hsuitable hstep, hfrom.step hstep⟩

end Runs

end MarkupBinding.Binding
