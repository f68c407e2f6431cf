import MarkupBinding.Proofs.Binding.Expansion

/-!
# Stencils that get lost

Binding is meant to stop with an error that says what is wrong with an expression, with the
structure of the markup or with a path (`BindError.isDeclared`). There is one more way in which it
stops: while the content around a stencil is bound, the stencil is cut off from the collection that
holds it back, and the collection finds no list to put its copies in.

`CutOff` says when this happens on the way down to the stencil: a text takes the place of the
children of the stencil's parent, or an element that is passed becomes a collection by one of its
own attribute bindings and uses the stencil up. A text that is bound further up does no such harm;
it takes the stencil out of the document together with its parent.

`exists_lostStencil_iff` says that this is all: binding stops without a declared error exactly when
no declared error comes first and a collection that it visits loses its stencil.
-/

set_option autoImplicit false
set_option relaxedAutoImplicit false

namespace MarkupBinding

/-- Whether the error is one of those that binding announces: of an expression, of the structure of
the markup, or of a path. -/
def BindError.isDeclared : BindError → Bool
  | expression _ => true
  | structural _ => true
  | resolution _ => true
  | lostStencil _ => false

namespace Binding

/-- The text of an element is bound: it names a path that has a value. -/
def TextBound (stack : Stack) (tag : Tag) : Prop :=
  ∃ raw path, tag.mark? Mark.textContent = some raw ∧ Path.ofBinding raw = .ok path ∧
    stack.Resolves path

/-- The node at a place is cut off from the siblings that the place is followed from. -/
inductive CutOff : Stack → List Node → Place → Prop
  /-- A text takes the place of the children of its parent. -/
  | parent {stack : Stack} {nodes : List Node} {i j : Nat} {tag : Tag} {children : List Node}
      (hn : nodes[i]? = some (.element tag children)) (htext : TextBound stack tag) :
      CutOff stack nodes [i, j]
  /-- An element on the way becomes a collection, whose stencil it is. -/
  | collection {stack : Stack} {nodes : List Node} {i j : Nat} {place : Place} {tag : Tag}
      {children : List Node} {raw : String} (hn : nodes[i]? = some (.element tag children))
      (htext : ¬ TextBound stack tag)
      (hmade : (bindAttributes stack tag).value.mark? Mark.collection = some raw) :
      CutOff stack nodes (i :: j :: place)
  /-- It is cut off further down. -/
  | deeper {stack : Stack} {nodes : List Node} {i j : Nat} {place : Place} {tag : Tag}
      {children : List Node} (hn : nodes[i]? = some (.element tag children))
      (htext : ¬ TextBound stack tag)
      (hplain : (bindAttributes stack tag).value.mark? Mark.collection = none)
      (h : CutOff (enter stack (bindAttributes stack tag).value) children (j :: place)) :
      CutOff stack nodes (i :: j :: place)

/-- An element is a collection whose stencil is cut off while the content around it is bound;
`filling` tells whether there is an item to fill in. -/
def LosesStencil (stack : Stack) (tag : Tag) (children : List Node) (filling : Bool) : Prop :=
  ∃ raw stencil items, (bindAttributes stack tag).value.mark? Mark.collection = some raw ∧
    Stencil.of tag children = .ok stencil ∧ (itemsFor stack raw).value = some items ∧
    ¬ TextBound stack tag ∧ CutOff stack children stencil.place ∧ filling = !items.isEmpty

section Text

variable {stack : Stack} {tag : Tag}

/-- A text binding replaces the children exactly when its path has a value. -/
theorem isSome_boundText_iff :
    (boundText stack tag).value.isSome = true ↔ TextBound stack tag := by
  rcases boundText_cases stack tag with
    ⟨hmark, hrun⟩ | ⟨raw, e, hmark, hbad, hrun⟩ | ⟨raw, path, hmark, hpath, hrun⟩
  · simp [TextBound, hmark, hrun]
  · simp [TextBound, hmark, hbad, hrun]
  · have hbound : TextBound stack tag ↔ stack.Resolves path := by
      simp [TextBound, hmark, hpath]
    rw [hbound, hrun]
    rcases resolve_cases stack raw path with
      ⟨value, hvalue, h⟩ | ⟨e, he, ⟨-, h⟩ | ⟨-, h⟩⟩
    · simp [h, Stack.Resolves, hvalue]
    · simp [h, Stack.Resolves, he]
    · simp [h, Stack.Resolves, he]

theorem boundText_eq_none_iff :
    (boundText stack tag).value = none ↔ ¬ TextBound stack tag := by
  rw [← isSome_boundText_iff, Option.not_isSome_iff_eq_none]

end Text

/-! ### The fate of a stencil that is held back -/

section Fate

variable {place : Place}

/-- Whether a place is cut off hangs on the first element that is passed on the way to it. -/
theorem cutOff_cons_cons_iff {stack : Stack} {nodes : List Node} {i j : Nat} {tag : Tag}
    {children : List Node} (hn : nodes[i]? = some (.element tag children)) :
    CutOff stack nodes (i :: j :: place) ↔
      (TextBound stack tag ∧ place = []) ∨
        ¬ TextBound stack tag ∧
          (((bindAttributes stack tag).value.mark? Mark.collection).isSome = true ∨
            (bindAttributes stack tag).value.mark? Mark.collection = none ∧
              CutOff (enter stack (bindAttributes stack tag).value) children (j :: place)) := by
  have hsame : ∀ {t : Tag} {cs : List Node}, nodes[i]? = some (.element t cs) →
      tag = t ∧ children = cs := fun h ↦ Node.element.inj (Option.some.inj (hn.symm.trans h))
  constructor
  · intro h
    cases h with
    | parent hn' htext =>
      obtain ⟨rfl, -⟩ := hsame hn'
      exact Or.inl ⟨htext, rfl⟩
    | collection hn' htext hmade =>
      obtain ⟨rfl, -⟩ := hsame hn'
      exact Or.inr ⟨htext, Or.inl (by rw [hmade, Option.isSome_some])⟩
    | deeper hn' htext hplain h =>
      obtain ⟨rfl, rfl⟩ := hsame hn'
      exact Or.inr ⟨htext, Or.inr ⟨hplain, h⟩⟩
  · rintro (⟨htext, rfl⟩ | ⟨htext, hmade | ⟨hplain, h⟩⟩)
    · exact .parent hn htext
    · obtain ⟨raw, hraw⟩ := Option.isSome_iff_exists.1 hmade
      exact .collection hn htext hraw
    · exact .deeper hn htext hplain h

/-- The stencil that is held back while the content around it is bound is lost exactly when it is
cut off. -/
theorem lost_iff_cutOff :
    ∀ {stack : Stack} {nodes : List Node}, Node.stencilAmong 0 nodes = some place →
      (visitChildren (fun hold n ↦ Visit.run ⟨stack, hold, n⟩) (some place) 0 nodes).fault = none →
      ((visitChildren (fun hold n ↦ Visit.run ⟨stack, hold, n⟩) (some place) 0
        nodes).value.2.Lost ↔ CutOff stack nodes place) := by
  induction place with
  | nil =>
    intro stack nodes hstencil _
    obtain ⟨_, _, _, hplace, -⟩ | ⟨_, _, _, _, _, hplace, -⟩ := Node.stencilAmong_cases hstencil
    · cases hplace
    · cases hplace
  | cons i rest ih =>
    intro stack nodes hstencil hfault
    rcases Node.stencilAmong_cases hstencil with
      ⟨i', tag, children, hplace, hn, -⟩ | ⟨i', j, rest', tag, children, hplace, hn, -, -, hbelow⟩
    · -- the stencil is one of the nodes, and nothing is on the way to it
      obtain ⟨rfl, rfl⟩ := List.cons.inj hplace
      rw [held_visitChildren_of_getElem? hfault hn, Visit.run_of_isHeld rfl, Walk.value_done]
      constructor
      · rintro (h | h) <;> cases h
      · intro h
        cases h
    · -- the first element on the way decides, or leaves it to those below
      obtain ⟨rfl, rfl⟩ := List.cons.inj hplace
      have hrun := fault_visitChildren_eq_none hfault i (.element tag children) hn
      rw [Nat.zero_add, holdBelow, if_pos rfl] at hrun
      rw [held_visitChildren_of_getElem? hfault hn, cutOff_cons_cons_iff hn]
      cases htext : (boundText stack tag).value with
      | some text =>
        have hbound : TextBound stack tag := isSome_boundText_iff.1 (by rw [htext]; rfl)
        rw [Visit.held_run_of_text rfl hrun htext]
        cases rest' with
        | nil => simp [Held.replaced, Held.Lost, hbound]
        | cons k rest' => simp [Held.replaced, Held.Lost, hbound]
      | none =>
        have hfree := boundText_eq_none_iff.1 htext
        cases hcollection : (bindAttributes stack tag).value.mark? Mark.collection with
        | some raw =>
          rw [(Visit.run_of_collection rfl hrun hcollection).2.2]
          simp [Held.under, Held.Lost, hfree]
        | none =>
          obtain ⟨hinside, hvalue⟩ := Visit.run_of_plain rfl hrun htext hcollection
          rw [hvalue]
          simpa [hfree] using ih hbelow hinside

variable {stack : Stack} {hold : Option Place} {tag : Tag} {children : List Node}

/-- A visit that fails for a lost stencil is that of a collection that loses it. -/
theorem losesStencil_of_fails {filling : Bool}
    (h : Visit.Fails ⟨stack, hold, .element tag children⟩ (.lostStencil filling)) :
    LosesStencil stack tag children filling := by
  have hresolve : ∀ {source : String} {path : Path},
      (resolve stack source path).fault ≠ some (.lostStencil filling) := by
    intro source path hfault
    obtain ⟨-, _, -, he⟩ := fault_resolve_eq_some hfault
    cases he
  cases h with
  | text _ hfault =>
    obtain ⟨_, -, ⟨_, -, he⟩ | ⟨_, -, hstop⟩⟩ := fault_boundText_eq_some hfault
    · cases he
    · exact absurd hstop hresolve
  | attributes _ hfault =>
    obtain ⟨_, -, ⟨_, -, he⟩ | ⟨_, -, _, -, hstop⟩⟩ := fault_bindAttributes_eq_some hfault
    · cases he
    · exact absurd hstop hresolve
  | items _ _ _ _ hfault =>
    rcases fault_itemsFor_eq_some hfault with ⟨_, -, he⟩ | ⟨_, -, hstop⟩
    · cases he
    · exact absurd hstop hresolve
  | lost _ htext hcollection hstencil hitems haround hlost =>
    exact ⟨_, _, _, hcollection, hstencil, hitems, boundText_eq_none_iff.1 htext,
      (lost_iff_cutOff (Stencil.of_eq_ok hstencil).1 haround).1 hlost, rfl⟩

/-- A run that reached its end loses no stencil. -/
theorem not_losesStencil_of_fault_run (hheld : isHeld hold = false)
    (hfault : (Visit.run ⟨stack, hold, .element tag children⟩).fault = none) (filling : Bool) :
    ¬ LosesStencil stack tag children filling := by
  rintro ⟨raw, stencil, items, hcollection, hstencil, hitems, -, hcutOff, -⟩
  obtain ⟨haround, hfill, -⟩ := Visit.fill_of_fault_run hheld hfault hcollection hstencil hitems
  exact not_lost_of_fault_fill hfill
    ((lost_iff_cutOff (Stencil.of_eq_ok hstencil).1 haround).2 hcutOff)

end Fate

/-- Binding stops for a lost stencil exactly when no declared error stops it and a collection that
it visits loses its stencil; the error tells whether that collection has an item to fill in. -/
theorem exists_lostStencil_iff (d : Document) (input : Value) :
    ((∃ e, (d.bind input).fault = some e ∧ e.isDeclared = false) ↔
      (∀ e, (d.bind input).fault = some e → e.isDeclared = false) ∧
        ∃ tag children stack filling,
          Report.visited tag children stack ∈ (d.bind input).reports ∧
            LosesStencil stack tag children filling) ∧
      ∀ e, (d.bind input).fault = some e → e.isDeclared = false → ∃ tag children stack filling,
        e = .lostStencil filling ∧ Report.visited tag children stack ∈ (d.bind input).reports ∧
          LosesStencil stack tag children filling := by
  have hlost : ∀ e, (d.bind input).fault = some e → e.isDeclared = false →
      ∃ tag children stack filling, e = .lostStencil filling ∧
        Report.visited tag children stack ∈ (d.bind input).reports ∧
          LosesStencil stack tag children filling := by
    intro e he hundeclared
    obtain ⟨stack, hold, tag, children, -, -, hvisited, hfails⟩ :=
      Document.exists_fails_of_fault_bind he
    cases e with
    | expression | structural | resolution => cases hundeclared
    | lostStencil filling =>
      exact ⟨tag, children, stack, filling, rfl, hvisited, losesStencil_of_fails hfails⟩
  refine ⟨⟨?_, ?_⟩, hlost⟩
  · rintro ⟨e, he, hundeclared⟩
    obtain ⟨tag, children, stack, filling, -, hvisited, hloses⟩ := hlost e he hundeclared
    refine ⟨fun other hother ↦ ?_, tag, children, stack, filling, hvisited, hloses⟩
    obtain rfl := Option.some.inj (he.symm.trans hother)
    exact hundeclared
  · rintro ⟨hundeclared, tag, children, stack, filling, hvisited, hloses⟩
    cases hfault : (d.bind input).fault with
    | some e => exact ⟨e, rfl, hundeclared e hfault⟩
    | none =>
      obtain ⟨hold, hheld, hv⟩ := Document.visits_of_visited hvisited
      exact absurd hloses (not_losesStencil_of_fault_run hheld
        (Document.fault_run_eq_none_of_visits hfault hv) filling)

/-- A list whose stencil has a parent with a text binding. -/
def captionedList : Document :=
  [.element ⟨"ul", [(Mark.collection, .plain "items")]⟩
    [.element ⟨"div", [(Mark.textContent, .plain "title")]⟩
      [.element ⟨"li", [(Mark.collectionItem, .plain "item")]⟩ []]]]

/-- The title takes the place of the stencil, and the walk then stops with an error that binding
does not announce. -/
theorem captionedList_not_isDeclared :
    ¬ ∀ (d : Document) (input : Value) (e : BindError), (d.bind input).fault = some e →
      e.isDeclared = true := by
  intro hclaim
  have hlost := hclaim captionedList
    (.object [("title", .string "T"), ("items", .list [.int 1])]) (.lostStencil true)
    (by decide +kernel)
  cases hlost

end Binding

end MarkupBinding
