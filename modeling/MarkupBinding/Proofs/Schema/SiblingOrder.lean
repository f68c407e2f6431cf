import MarkupBinding.Proofs.Schema.Additions
import MarkupBinding.Proofs.Schema.KeyOrder

/-!
# The order of siblings

Extraction from markup with dotted paths adds exactly what the markup declares: a visit does
(`Extraction.adds_visit`), and so does the walk over the outermost component, which starts with
nothing declared (`Extraction.adds_visitOutermost`). What markup declares does not hang on the order
of siblings, so neither does whether a schema can be read off a document, nor the schema itself, up
to the order of its keys (`Document.extract_rearranged`).
-/

set_option autoImplicit false
set_option relaxedAutoImplicit false

namespace MarkupBinding

namespace Extraction

/-- What is around a node that is visited: the stencil at a place in it may be held back. -/
def Around.ofHold : Option Place → Around
  | none => .nothing
  | some _ => .held

/-- The stencil that is held back is in the node, and it is the only one that a collection around
can take from it. -/
def Fits (hold : Option Place) (n : Node) : Prop :=
  ∀ place, hold = some place → Node.stencilIn 0 n = some (0 :: place) ∧ n.itemCount ≤ 1

/-- The visits of all that lies below an element add what it declares. -/
def VisitsAdd (children : List Node)
    (visit : Ancestors → Option Place → Node → Component → Walk Component) : Prop :=
  ∀ n, n.height ≤ Node.heightAll children → n.elements ⊆ Node.elementsAll children →
    ∀ ancestors hold root, Placed root ancestors → Fits hold n →
      Adds root (visit ancestors hold n root) (declarations ancestors (.ofHold hold) n)

section Visits

variable {root : Component} {ancestors : Ancestors} {tag : Tag} {children : List Node}
  {hold : Option Place}

theorem fits_none (n : Node) : Fits none n :=
  fun _ h ↦ by cases h

section Below

variable {visit : Ancestors → Option Place → Node → Component → Walk Component}

/-- The walk over the children of an element adds what they declare. -/
theorem adds_children (hvisit : VisitsAdd children visit)
    (hhold : ∀ place, hold = some place →
      Node.stencilAmong 0 children = some place ∧ Node.itemCountAll children ≤ 1)
    (hplaced : Placed root ancestors) :
    Adds root (visitChildren (visit ancestors) hold 0 children root)
      (declarationsAll ancestors (.ofHold hold) children) := by
  refine adds_visitChildren fun i n hn value hvalue ↦ ?_
  have hmem := List.mem_of_getElem? hn
  have hthis := fun hold ↦ hvisit n (Node.height_le_heightAll hmem)
    (Node.elements_subset_elementsAll hmem) ancestors hold value (hplaced.of_facts_subset hvalue)
  rw [Nat.zero_add]
  cases hold with
  | none => exact hthis none (fits_none n)
  | some place =>
    obtain ⟨hplace, hcount⟩ := hhold place rfl
    obtain ⟨j, rest, rfl⟩ := Node.exists_of_stencilAmong hplace
    by_cases heq : i = j
    · subst heq
      rw [Binding.holdBelow, if_pos rfl]
      refine hthis (some rest) fun place hsome ↦ ?_
      obtain rfl := Option.some.inj hsome
      exact ⟨Node.stencilIn_of_stencilAmong hplace hn,
        Nat.le_trans (Node.itemCount_le_itemCountAll hmem) hcount⟩
    · -- beside the stencil there is none, so holding it back makes no difference
      rw [Binding.holdBelow, if_neg heq, declarations_of_itemCount_eq_zero n .nothing
        (Node.itemCount_eq_zero_beside hplace hcount hn (Ne.symm heq))]
      exact hthis none (fits_none n)

/-- The walk over a collection adds what its stencil declares inside and the rest around it. -/
theorem adds_visitCollection {raw : String} (hmark : tag.mark? Mark.collection = some raw)
    (hdotted : Dotted (tag, children)) (hvisit : VisitsAdd children visit) (around : Around)
    (hplaced : Placed root ancestors) :
    Adds root (visitCollection visit ancestors raw tag children root)
      (contentDeclarations (fun ancestors around ↦ declarationsAll ancestors around children)
        ancestors around tag) := by
  obtain ⟨hpaths, hcount⟩ := hdotted.regular raw hmark
  simp only [visitCollection, contentDeclarations, hmark]
  cases hpath : Path.ofBinding raw with
  | error e => exact adds_stop root _ (Set.mem_singleton _)
  | ok path =>
    obtain ⟨place, hplace⟩ := Node.exists_stencilAmong_of_pos (hcount ▸ Nat.one_pos)
    obtain ⟨itemTag, itemChildren, hat, hitem⟩ := Node.exists_atPlace?_of_stencilAmong hplace
    have haround : ∀ value, root.facts ⊆ value.facts → Adds value
        (visitChildren (visit ancestors) (some place) 0 children value)
        (declarationsAll ancestors .held children) := by
      intro value hvalue
      refine adds_children hvisit (fun other hsome ↦ ?_) (hplaced.of_facts_subset hvalue)
      obtain rfl := Option.some.inj hsome
      exact ⟨hplace, Nat.le_of_eq hcount⟩
    simp only [Stencil.of, hplace, hat, owner_of_isDotted (hpaths path hpath),
      declarationsAll_collection ancestors hplace (Nat.le_of_eq hcount) hat]
    cases hname : itemTag.mark? Mark.collectionItem with
    | none =>
      rw [declarations_stencil_unnamed hitem hname]
      exact adds_stop root _ (Set.mem_union_left _ (Set.mem_singleton _))
    | some item =>
      cases howner : path.scope.bind ancestors.named with
      | none =>
        rw [declarations_stencil_dropped hname]
        exact (adds_report root _).andThen fun value hvalue ↦
          haround value (hvalue ▸ Set.subset_union_left)
      | some a =>
        rw [declarations_stencil_owned hname]
        have hlist := adds_declareComponent path.name true (some item)
          (hplaced a (mem_of_bind_named howner))
        refine (hlist.andThen fun value hvalue ↦ ?_).andThen fun value hvalue ↦
          haround value (hvalue ▸ Set.subset_union_left)
        obtain ⟨hsub, hheight⟩ := Node.elements_subset_of_atPlace? hat
        have hdeclared : .component a.address path.name true (some item) ∈ value.facts :=
          hvalue ▸ Set.mem_union_right _ (Set.mem_singleton _)
        have hplaced' := hplaced.of_facts_subset (hvalue ▸ Set.subset_union_left)
        exact hvisit _ hheight hsub _ none value (hplaced'.push_of_mem_facts hdeclared item)
          (fits_none _)

end Below

/-- A stencil that is held back declares nothing where it stands. -/
theorem declarations_of_isHeld (hheld : Binding.isHeld hold = true)
    (hfits : Fits hold (.element tag children)) :
    declarations ancestors (.ofHold hold) (.element tag children) = ∅ := by
  obtain rfl : hold = some [] := by simpa [Binding.isHeld] using hheld
  obtain ⟨_, _, hnode, ⟨hitem, -⟩ | ⟨-, -, rest, hrest, hplace⟩⟩ :=
    Node.stencilIn_eq_some (hfits [] rfl).1
  · obtain ⟨rfl, rfl⟩ := Node.element.inj hnode
    simp only [Around.ofHold, declarations, Around.enter_held hitem]
  · obtain ⟨_, _, rfl⟩ := Node.exists_of_stencilAmong hrest
    cases hplace

/-- An element on the way to a stencil that is held back is entered as any other, and the way goes
on below it. -/
theorem Fits.of_element (hheld : Binding.isHeld hold = false)
    (hfits : Fits hold (.element tag children)) (ancestors : Ancestors) :
    (Around.ofHold hold).enter ancestors tag = (∅, some ancestors) ∧
      (Around.ofHold hold).carried tag = .ofHold hold ∧
      ∀ place, hold = some place →
        Node.stencilAmong 0 children = some place ∧ Node.itemCountAll children ≤ 1 := by
  cases hold with
  | none =>
    exact ⟨Around.enter_nothing _ _, Around.carried_nothing _, fun _ hsome ↦ by cases hsome⟩
  | some place =>
    obtain ⟨hin, hcount⟩ := hfits place rfl
    obtain ⟨hitem, hcollection, hrest⟩ :=
      Node.stencilAmong_of_stencilIn hin (Binding.ne_nil_of_isHeld_eq_false hheld)
    rw [Node.itemCount, if_neg (by simp [hitem]), if_neg (by simp [hcollection])] at hcount
    refine ⟨Around.enter_of_has_eq_false hitem _ _,
      Around.carried_of_has_eq_false hitem hcollection _, fun other hsome ↦ ?_⟩
    obtain rfl := Option.some.inj hsome
    exact ⟨hrest, hcount⟩

/-- A visit adds what its tree declares. -/
theorem adds_visit :
    ∀ (depth : Nat) (n : Node), n.height ≤ depth → (∀ e ∈ n.elements, Dotted e) →
      ∀ (ancestors : Ancestors) (hold : Option Place) (root : Component), Placed root ancestors →
        Fits hold n →
        Adds root (visit depth ancestors hold n root)
          (declarations ancestors (.ofHold hold) n) := by
  intro depth
  induction depth with
  | zero =>
    intro n hheight _ ancestors hold root _ _
    cases n with
    | text kind content => exact adds_done root
    | element tag children =>
      rw [Node.height_element] at hheight
      omega
  | succ depth ih =>
    intro n hheight hdotted ancestors hold root hplaced hfits
    cases n with
    | text kind content => exact adds_done root
    | element tag children =>
      rw [Node.height_element] at hheight
      rw [Node.elements_element] at hdotted
      have hbelow : VisitsAdd children (visit depth) := fun m hm hsub ↦
        ih m (by omega) fun e he ↦ hdotted e (List.mem_cons_of_mem _ (hsub he))
      have hown := hdotted _ List.mem_cons_self
      cases hheld : Binding.isHeld hold with
      | true =>
        simp only [visit, hheld, if_true]
        rw [declarations_of_isHeld hheld hfits]
        exact adds_done root
      | false =>
        obtain ⟨henter, hcarried, hhold⟩ := hfits.of_element hheld ancestors
        rw [declarations_of_enter henter, hcarried]
        simp only [visit, hheld, Bool.false_eq_true, if_false]
        refine (adds_declareBindings hown hplaced).andThen fun value hvalue ↦ ?_
        have hthere := hplaced.of_facts_subset (hvalue ▸ Set.subset_union_left)
        cases hcollection : tag.mark? Mark.collection with
        | some raw => exact adds_visitCollection hcollection hown hbelow _ hthere
        | none =>
          simp only [contentDeclarations, hcollection]
          cases hcomponent : tag.mark? Mark.component with
          | none => exact adds_children hbelow hhold hthere
          | some name =>
            have hnested := adds_declareComponent name false none (hthere _ List.mem_cons_self)
            refine hnested.andThen fun later hlater ↦ adds_children hbelow hhold ?_
            have hdeclared : .component ancestors.top.address name false none ∈ later.facts :=
              hlater ▸ Set.mem_union_right _ (Set.mem_singleton _)
            exact (hthere.of_facts_subset (hlater ▸ Set.subset_union_left)).push_of_mem_facts
              hdeclared name

/-- What the outermost component declares; its own scope is there already. -/
def outermostDeclarations (name : String) (tag : Tag) (children : List Node) : Set Declaration :=
  let ancestors : Ancestors := ⟨⟨name, []⟩, []⟩
  let below := fun ancestors around ↦ declarationsAll ancestors around children
  bindingDeclarations ancestors tag ∪
    match tag.mark? Mark.collection with
    | some _ => contentDeclarations below ancestors .nothing tag
    | none => below ancestors .nothing

theorem outermostDeclarations_rearranged {others : List Node}
    (h : Node.Rearranged children others) (name : String) (tag : Tag) :
    outermostDeclarations name tag children = outermostDeclarations name tag others := by
  simp only [outermostDeclarations, declarationsAll_rearranged h]

/-- The walk over the outermost component adds what it declares. -/
theorem adds_visitOutermost (name : String)
    (hdotted : ∀ e ∈ (Node.element tag children).elements, Dotted e) :
    Adds (.empty false none) (visitOutermost name tag children)
      (outermostDeclarations name tag children) := by
  have hplaced := placed_outermost name
  rw [Node.elements_element] at hdotted
  have hbelow : VisitsAdd children (visit (Node.heightAll children)) := fun m hm hsub ↦
    adds_visit _ m hm fun e he ↦ hdotted e (List.mem_cons_of_mem _ (hsub he))
  have hown := hdotted _ List.mem_cons_self
  refine (adds_declareBindings hown hplaced).andThen fun value hvalue ↦ ?_
  have hthere := hplaced.of_facts_subset (hvalue ▸ Set.subset_union_left)
  cases hcollection : tag.mark? Mark.collection with
  | some raw => exact adds_visitCollection hcollection hown hbelow _ hthere
  | none => exact adds_children hbelow (fun _ hsome ↦ by cases hsome) hthere

/-! ### Rearranged markup -/

theorem Dotted.of_rearranged {others : List Node} (h : Dotted (tag, children))
    (hrearranged : Node.Rearranged children others) : Dotted (tag, others) where
  text := h.text
  attributes := h.attributes
  regular raw hmark := by
    obtain ⟨hpaths, hcount⟩ := h.regular raw hmark
    exact ⟨hpaths, hrearranged.itemCountAll_eq.symm.trans hcount⟩

/-- Rearranged markup has dotted paths where the markup has. -/
theorem forall_dotted_of_rearranged {others : List Node}
    (h : ∀ e ∈ (Node.element tag children).elements, Dotted e)
    (hrearranged : Node.Rearranged children others) :
    ∀ e ∈ (Node.element tag others).elements, Dotted e := by
  rw [Node.elements_element] at h ⊢
  obtain ⟨hown, hbelow⟩ := List.forall_mem_cons.1 h
  refine List.forall_mem_cons.2 ⟨hown.of_rearranged hrearranged, ?_⟩
  rintro ⟨t, cs⟩ hin
  obtain ⟨original, horiginal, hsame⟩ := hrearranged.exists_mem_elementsAll hin
  exact (hbelow _ horiginal).of_rearranged hsame

theorem wellKeyed_visitOutermost (name : String) (tag : Tag) (children : List Node) :
    (visitOutermost name tag children).value.WellKeyed :=
  kept_wellKeyed.visitOutermost (Component.wellKeyed_empty false none) name tag children

/-- Walks over the outermost component that declare the same end at components that are the same up
to the order of keys. -/
theorem sameUpToOrder_of_visitOutermost {others : List Node} (name : String)
    (hdotted : ∀ e ∈ (Node.element tag children).elements, Dotted e)
    (h : Node.Rearranged children others)
    (hfault : (visitOutermost name tag children).fault = none)
    (hfault' : (visitOutermost name tag others).fault = none) :
    (visitOutermost name tag children).value.SameUpToOrder
      (visitOutermost name tag others).value := by
  have hdeclared := fun nodes ↦ kept_allWellDeclared.visitOutermost
    ⟨Component.allWellDeclared_empty (by simp) fun _ hsome ↦ (by cases hsome), rfl, rfl⟩ name tag
    nodes
  have hfacts := (adds_visitOutermost name hdotted).facts_eq hfault
  have hfacts' :=
    (adds_visitOutermost name (forall_dotted_of_rearranged hdotted h)).facts_eq hfault'
  rw [← outermostDeclarations_rearranged h, ← hfacts] at hfacts'
  obtain ⟨hfirst, harray, hitem⟩ := hdeclared children
  obtain ⟨hsecond, harray', hitem'⟩ := hdeclared others
  exact Component.sameUpToOrder_of_facts_eq _ hfacts'.symm (harray.trans harray'.symm)
    (hitem.trans hitem'.symm) (wellKeyed_visitOutermost _ _ _) (wellKeyed_visitOutermost _ _ _)
    hfirst hsecond

end Visits

end Extraction

namespace Document

variable {d e : Document} {includeEmpty : Bool}

/-- A schema can be read off a document with an outermost component exactly if the walk over this
component reaches its end. -/
theorem exists_extract_iff {tag : Tag} {children : List Node}
    (h : d.outermostComponent? = some (.element tag children)) :
    (∃ s, (d.extract includeEmpty).result = .ok (some s)) ↔
      (Extraction.visitOutermost ((tag.mark? Mark.component).getD "") tag children).fault =
        none := by
  simp only [extract, h, Walk.result_eq_ok_iff, Walk.fault_map, Walk.value_map, Option.some.injEq,
    exists_and_left, exists_eq', and_true]

/-- Rearranging what is inside the outermost component, where all paths are dotted and every
collection owns exactly one stencil, leaves whether a schema can be read off the document, and the
schema up to the order of keys and toggle flags. -/
theorem extract_rearranged (h : d.RearrangedInside e)
    (hdotted : ∀ x, d.outermostComponent? = some x → ∀ element ∈ x.elements,
      Extraction.Dotted element) (includeEmpty : Bool) :
    ((∃ s, (d.extract includeEmpty).result = .ok (some s)) ↔
        ∃ t, (e.extract includeEmpty).result = .ok (some t)) ∧
      ∀ s t, (d.extract includeEmpty).result = .ok (some s) →
        (e.extract includeEmpty).result = .ok (some t) → s.SameUpToOrder t := by
  obtain ⟨tag, children, others, hd, he, hrearranged⟩ := h.exists_outermostComponent?
  have hchildren := hdotted _ hd
  have hothers := Extraction.forall_dotted_of_rearranged hchildren hrearranged
  constructor
  · rw [exists_extract_iff hd, exists_extract_iff he,
      (Extraction.adds_visitOutermost _ hchildren).fault_iff,
      (Extraction.adds_visitOutermost _ hothers).fault_iff,
      Extraction.outermostDeclarations_rearranged hrearranged]
  · intro s t hs ht
    obtain ⟨_, _, hd', hname, hfault, hroot, htoggles⟩ := exists_of_extract hs
    obtain ⟨rfl, rfl⟩ := Node.element.inj (Option.some.inj (hd.symm.trans hd'))
    obtain ⟨_, _, he', hname', hfault', hroot', htoggles'⟩ := exists_of_extract ht
    obtain ⟨rfl, rfl⟩ := Node.element.inj (Option.some.inj (he.symm.trans he'))
    have hsame : s.name = t.name := Option.some.inj (hname.symm.trans hname')
    rw [← hsame] at hfault' hroot'
    have hwalks := Extraction.sameUpToOrder_of_visitOutermost s.name hchildren hrearranged hfault
      hfault'
    refine ⟨hsame, ?_, ?_⟩
    · rw [hroot, hroot']
      split
      · exact hwalks
      · exact hwalks.prune (Extraction.wellKeyed_visitOutermost _ _ _)
          (Extraction.wellKeyed_visitOutermost _ _ _)
    · rw [htoggles, htoggles']
      exact h.toggleFlags_perm

/-- An element of a page about a league that shows a property. -/
def leagueText (path flag : String) : Node :=
  .element ⟨"p", [(Mark.textContent, .plain path), (Mark.toggleable, .plain flag)]⟩ []

/-- The list of the teams of the league. -/
def leagueTeams (item : List Node) : Node :=
  .element ⟨"ul", [(Mark.collection, .plain "league.teams")]⟩
    [.element ⟨"li", [(Mark.collectionItem, .plain "team")]⟩ item]

/-- The club of a team with its name. -/
def teamClub : Node :=
  .element ⟨"p", [(Mark.component, .plain "club")]⟩ [leagueText "club.name" ""]

/-- The page about the league. -/
def leaguePage : Document :=
  [.element ⟨"main", [(Mark.component, .plain "league")]⟩
    [leagueText "league.title" "open", leagueText "league.season" "news",
      leagueTeams [leagueText "team.points" "", teamClub]]]

/-- The page with the first two elements and the parts of a team the other way round. -/
def turnedLeaguePage : Document :=
  [.element ⟨"main", [(Mark.component, .plain "league")]⟩
    [leagueText "league.season" "news", leagueText "league.title" "open",
      leagueTeams [teamClub, leagueText "team.points" ""]]]

/-- The schema of the page. -/
def leagueSchema : Schema :=
  ⟨"league", ⟨[("title", textType), ("season", textType)], [("teams", ⟨[("points", textType)],
    [("club", ⟨[("name", textType)], [], false, none⟩)], true, some "team"⟩)], false, none⟩,
    ["open", "news"]⟩

/-- The schema of the page the other way round. -/
def turnedLeagueSchema : Schema :=
  ⟨"league", ⟨[("season", textType), ("title", textType)], [("teams", ⟨[("points", textType)],
    [("club", ⟨[("name", textType)], [], false, none⟩)], true, some "team"⟩)], false, none⟩,
    ["news", "open"]⟩

theorem extract_rearranged_leaguePage :
    leaguePage.RearrangedInside turnedLeaguePage ∧
      (∀ x, leaguePage.outermostComponent? = some x → ∀ element ∈ x.elements,
        Extraction.Dotted element) ∧
      (leaguePage.extract true).result = .ok (some leagueSchema) ∧
      (turnedLeaguePage.extract true).result = .ok (some turnedLeagueSchema) ∧
      leagueSchema.SameUpToOrder turnedLeagueSchema := by
  have hrearranged : leaguePage.RearrangedInside turnedLeaguePage := by
    refine .here (by decide) (.trans (.perm (.swap _ _ _)) ?_)
    exact .inside [_, _] [] _ (.inside [] [] _ (.perm (.swap _ _ _)))
  have hdotted : ∀ x, leaguePage.outermostComponent? = some x → ∀ element ∈ x.elements,
      Extraction.Dotted element := by
    intro x hx
    obtain rfl := Option.some.inj hx
    decide +kernel
  have hextract : (leaguePage.extract true).result = .ok (some leagueSchema) := by rfl
  have hextract' : (turnedLeaguePage.extract true).result = .ok (some turnedLeagueSchema) := by
    rfl
  exact ⟨hrearranged, hdotted, hextract, hextract',
    (extract_rearranged hrearranged hdotted true).2 _ _ hextract hextract'⟩

end Document

end MarkupBinding
