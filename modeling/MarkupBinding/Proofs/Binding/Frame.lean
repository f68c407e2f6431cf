import MarkupBinding.Proofs.Binding.Attributes
import MarkupBinding.Proofs.Binding.LostStencil

/-!
# What binding leaves alone

Binding an element that is no collection is carrying out its bindings and binding its children
(`bound_element_iff`): there is nothing else that the walk does. So it can be followed down to a
place as long as it passes through the elements on the way (`PassesThrough`), that is, none of them
is a collection or has its children replaced by a text. What stands at such a place is bound there,
under the scopes that the elements on the way open (`exists_bound_atPlace?`).

`Document.bind_frame` says what this comes to for an element: it stands where it stood, its
attributes are as they were but for its settings, and what is no element among its children stays.
-/

set_option autoImplicit false
set_option relaxedAutoImplicit false

namespace MarkupBinding

namespace Binding

variable {stack : Stack} {tag : Tag} {children nodes results : List Node} {n m : Node}

instance (stack : Stack) (tag : Tag) : Decidable (TextBound stack tag) :=
  decidable_of_iff _ isSome_boundText_iff

/-! ### An element and its children -/

/-- The walk over siblings reaches its end with the results of binding each of them. -/
theorem visitChildren_iff_forall₂ :
    ∀ {first : Nat},
      ((visitChildren (fun hold n ↦ Visit.run ⟨stack, hold, n⟩) none first nodes).fault = none ∧
          (visitChildren (fun hold n ↦ Visit.run ⟨stack, hold, n⟩) none first nodes).value.1 =
            results) ↔
        List.Forall₂ (Bound stack) nodes results := by
  intro first
  constructor
  · rintro ⟨hfault, rfl⟩
    exact forall₂_bound_visitChildren (fun _ _ ↦ rfl) hfault
  · intro h
    induction h generalizing first with
    | nil => exact ⟨rfl, rfl⟩
    | @cons n m rest results hfirst _ ih =>
      obtain ⟨hfault, hvalue⟩ := @ih (first + 1)
      have hnone : holdBelow first none = none := rfl
      have hend : (visitChildren (fun hold n ↦ Visit.run ⟨stack, hold, n⟩) none first
          (n :: rest)).fault = none := by
        rw [visitChildren_eq_chain, Walk.fault_chain_eq_none_iff, hnone]
        exact ⟨hfirst.1, hfault⟩
      refine ⟨hend, ?_⟩
      rw [(visitChildren_cons hend).2.2, hnone, hfirst.2, hvalue]

/-- A text is bound to itself. -/
theorem bound_text_iff {kind : TextKind} {content : String} :
    Bound stack (.text kind content) m ↔ m = .text kind content := by
  rw [Bound, Visit.run_text]
  exact ⟨fun h ↦ h.2.symm, fun h ↦ ⟨rfl, h.symm⟩⟩

/-- An element that is no collection is bound by its text binding, its attribute bindings, and then
each of its children in the scope that it opens. -/
theorem bound_element_iff
    (hplain : (bindAttributes stack tag).value.mark? Mark.collection = none) :
    Bound stack (.element tag children) m ↔
      (boundText stack tag).fault = none ∧ (bindAttributes stack tag).fault = none ∧
        ∃ result, m = .element (bindAttributes stack tag).value result ∧
          List.Forall₂ (Bound (enter stack (bindAttributes stack tag).value))
            (Visit.shown stack tag children) result := by
  have hfault := @Visit.fault_run_element_eq_none_iff stack none tag children rfl
  rw [Visit.content_of_plain hplain, Visit.holdShown_none, Walk.fault_map] at hfault
  constructor
  · rintro ⟨hend, rfl⟩
    obtain ⟨htext, hattributes, hchildren⟩ := hfault.1 hend
    refine ⟨htext, hattributes, _, ?_, visitChildren_iff_forall₂.1 ⟨hchildren, rfl⟩⟩
    rw [Visit.node_run_element rfl hend, Visit.content_of_plain hplain, Visit.holdShown_none]
    rfl
  · rintro ⟨htext, hattributes, result, rfl, hresult⟩
    obtain ⟨hchildren, hvalue⟩ := visitChildren_iff_forall₂.2 hresult
    have hend := hfault.2 ⟨htext, hattributes, hchildren⟩
    refine ⟨hend, ?_⟩
    rw [Visit.node_run_element rfl hend, Visit.content_of_plain hplain, Visit.holdShown_none,
      ← hvalue]
    rfl

/-! ### Following the walk down to a place -/

/-- The walk passes through elements one below the other: none of them is a collection, and none has
its children replaced by a text. -/
def PassesThrough : Stack → List Tag → Prop
  | _, [] => True
  | stack, tag :: below =>
    ¬ TextBound stack tag ∧ tag.mark? Mark.collection = none ∧
      PassesThrough (enter stack tag) below

instance decidablePassesThrough : ∀ (stack : Stack) (way : List Tag),
    Decidable (PassesThrough stack way)
  | _, [] => inferInstanceAs (Decidable True)
  | stack, tag :: below =>
    have := decidablePassesThrough (enter stack tag) below
    inferInstanceAs (Decidable (¬ TextBound stack tag ∧ tag.mark? Mark.collection = none ∧
      PassesThrough (enter stack tag) below))

/-- Among siblings that are each bound, the result for one of them stands where it stood. -/
theorem exists_bound_getElem? (h : List.Forall₂ (Bound stack) nodes results) {i : Nat}
    (hn : nodes[i]? = some n) : ∃ m, results[i]? = some m ∧ Bound stack n m := by
  obtain ⟨hi, rfl⟩ := List.getElem?_eq_some_iff.1 hn
  have hi' : i < results.length := h.length_eq ▸ hi
  exact ⟨results[i], List.getElem?_eq_getElem hi', h.get hi hi'⟩

/-- An element that the walk passes through has its attributes bound, and each of its children in
the scope that it opens. -/
theorem Bound.of_passed (hmarks : tag.KeepsMarks) (htext : ¬ TextBound stack tag)
    (hplain : tag.mark? Mark.collection = none) (h : Bound stack (.element tag children) m) :
    ∃ result, m = .element (bindAttributes stack tag).value result ∧
      List.Forall₂ (Bound (enter stack tag)) children result := by
  have hcollection : (bindAttributes stack tag).value.mark? Mark.collection = none := by
    rw [mark?_bindAttributes_of_keepsMarks hmarks (by decide), hplain]
  obtain ⟨-, -, result, rfl, hresult⟩ := (bound_element_iff hcollection).1 h
  rw [Visit.shown_of_value_eq_none (boundText_eq_none_iff.2 htext),
    enter_congr (mark?_bindAttributes_of_keepsMarks hmarks (by decide))] at hresult
  exact ⟨result, rfl, hresult⟩

/-- What stands at a place is bound there, under the scopes that the elements on the way to it open,
if the walk passes through these. -/
theorem exists_bound_atPlace? (place : Place) :
    ∀ {stack : Stack} {nodes results : List Node}, List.Forall₂ (Bound stack) nodes results →
      (∀ t ∈ Node.wayTo nodes place, t.KeepsMarks) →
      PassesThrough stack (Node.wayTo nodes place) → Node.atPlace? nodes place = some n →
      ∃ m, Node.atPlace? results place = some m ∧
        Bound ((Node.wayTo nodes place).foldl enter stack) n m := by
  induction place with
  | nil =>
    intro stack nodes results _ _ _ hn
    rw [Node.atPlace?] at hn
    cases hn
  | cons i rest ih =>
    intro stack nodes results h hmarks hpasses hn
    cases rest with
    | nil => exact exists_bound_getElem? h hn
    | cons j place =>
      obtain ⟨tag, children, hi, hbelow⟩ := Node.exists_of_atPlace?_cons_cons hn
      rw [Node.wayTo_cons_cons hi] at hmarks hpasses ⊢
      obtain ⟨htag, hmarks⟩ := List.forall_mem_cons.1 hmarks
      obtain ⟨htext, hplain, hpasses⟩ := hpasses
      obtain ⟨m, hm, hbound⟩ := exists_bound_getElem? h hi
      obtain ⟨result, rfl, hresult⟩ := hbound.of_passed htag htext hplain
      rw [Node.atPlace?_cons_cons hm]
      exact ih hresult hmarks hpasses hbelow

end Binding

open Binding

/-- The second node can be where the first one was: an element for an element, and anything else as
it was. -/
def Node.SameUnlessElement (n m : Node) : Prop :=
  m.isElement = n.isElement ∧ (n.isElement = false → m = n)

/-- An element is bound to an element, and anything else stays what it is. -/
theorem Binding.Bound.sameUnlessElement {stack : Stack} {n m : Node} (h : Bound stack n m) :
    n.SameUnlessElement m := by
  cases n with
  | text kind content =>
    obtain rfl := bound_text_iff.1 h
    exact ⟨rfl, fun _ ↦ rfl⟩
  | element tag children =>
    obtain ⟨result, hresult⟩ := Visit.exists_node_run_element rfl h.1
    rw [h.2] at hresult
    rw [hresult]
    exact ⟨rfl, fun helement ↦ by cases helement⟩

/-- Binding touches nothing that it does not bind. An element that the toggles leave, and that the
walk gets to through elements it passes, stands in the bound document where it stood, with the name
it had. Its attributes are updated with its settings: those that were there stay in their places,
and the others follow in the order of their bindings. Unless a text takes the place of its children
or it is a collection, what is no element among its children stays as it was. -/
theorem Document.bind_frame {d : Document} {input : Value} (hbind : (d.bind input).fault = none)
    (hmarks : ∀ t ∈ d.tags, t.KeepsMarks) {place : Place} {tag : Tag} {children : List Node}
    (hplace : Node.atPlace? (d.filterToggles input).1 place = some (.element tag children))
    (hpasses : PassesThrough (.root input) (Node.wayTo (d.filterToggles input).1 place)) :
    let stack := (Node.wayTo (d.filterToggles input).1 place).foldl enter (.root input)
    ∃ bound result,
      Node.atPlace? (d.bind input).value place = some (.element bound result) ∧
      bound.name = tag.name ∧
      bound.attrs = Keyed.update tag.attrs (settings stack tag) ∧
      ((Keyed.keys tag.attrs).Nodup → bound.attrs =
        (tag.attrs.map fun attr ↦ (attr.1, ((settings stack tag).lookup attr.1).getD attr.2)) ++
          (settings stack tag).filter fun setting ↦ !tag.has setting.1) ∧
      (¬ TextBound stack tag → tag.mark? Mark.collection = none →
        List.Forall₂ Node.SameUnlessElement children result) := by
  intro stack
  have hleft := Document.keepsMarks_filterToggles hmarks input
  rw [bind_eq, Walk.fault_map] at hbind
  have hway : ∀ t ∈ Node.wayTo (d.filterToggles input).1 place, t.KeepsMarks := fun t ht ↦
    hleft t (Node.wayTo_subset_tagsAll place _ ht)
  obtain ⟨m, hm, hbound⟩ := exists_bound_atPlace? place
    (visitChildren_iff_forall₂.1 ⟨hbind, rfl⟩) hway hpasses hplace
  have hattributes : (bindAttributes stack tag).fault = none := by
    have hfault := hbound.1
    rw [Visit.fault_run_element rfl, Option.or_eq_none_iff, Option.or_eq_none_iff] at hfault
    exact hfault.2.1
  obtain ⟨result, hresult⟩ := Visit.exists_node_run_element rfl hbound.1
  rw [hbound.2] at hresult
  subst hresult
  refine ⟨_, result, ?_, ?_, ?_, attrs_bindAttributes hattributes, fun htext hplain ↦ ?_⟩
  · rw [bind_eq, Walk.value_map]
    exact hm
  · rw [value_bindAttributes hattributes]
  · rw [value_bindAttributes hattributes]
  · have htag : tag.KeepsMarks := hleft tag (Node.mem_tagsAll_of_atPlace? hplace)
    obtain ⟨result', hsame, hchildren⟩ := hbound.of_passed htag htext hplain
    obtain ⟨-, rfl⟩ := Node.element.inj hsame
    exact hchildren.imp fun _ _ h ↦ h.sameUnlessElement

/-- A draft notice, a remark and a link with three attribute bindings, one of them without a value.
-/
def linkNotice : Document :=
  [.element ⟨"main", [(Mark.component, .plain "root")]⟩
    [.element ⟨"p", [(Mark.toggleable, .plain "draft")]⟩ [],
      .text .comment " more ",
      .element ⟨"a", [("title", .plain "Old"), ("data-attribute-title", .plain "Hi $\x7bname\x7d"),
          ("data-attribute-lang", .plain "$\x7btongue\x7d"),
          ("data-attribute-href", .plain "/u/$\x7broot.name\x7d")]⟩
        [.text .characters "See ",
          .element ⟨"b", [(Mark.textContent, .plain "name")]⟩ [.text .characters "?"]]]]

theorem bind_frame_linkNotice :
    let input := Value.object [("name", .string "Ada"), ("draft", .bool false)]
    (linkNotice.bind input).fault = none ∧ (∀ t ∈ linkNotice.tags, t.KeepsMarks) ∧
      ∃ bound result, Node.atPlace? (linkNotice.bind input).value [0, 1] =
          some (.element bound result) ∧
        bound.attrs = [("title", .plain "Hi Ada"),
          ("data-attribute-title", .plain "Hi $\x7bname\x7d"),
          ("data-attribute-lang", .plain "$\x7btongue\x7d"),
          ("data-attribute-href", .plain "/u/$\x7broot.name\x7d"), ("href", .plain "/u/Ada")] ∧
        result.length = 2 := by
  intro input
  have hbind : (linkNotice.bind input).fault = none := by decide +kernel
  have hmarks : ∀ t ∈ linkNotice.tags, t.KeepsMarks := by decide +kernel
  have htext : ¬ TextBound (.root input) ⟨"a", [("title", .plain "Old"),
      ("data-attribute-title", .plain "Hi $\x7bname\x7d"),
      ("data-attribute-lang", .plain "$\x7btongue\x7d"),
      ("data-attribute-href", .plain "/u/$\x7broot.name\x7d")]⟩ := by decide +kernel
  obtain ⟨bound, result, hplace, -, hattrs, -, hchildren⟩ :=
    @Document.bind_frame linkNotice input hbind hmarks [0, 1] _ _ rfl (by decide +kernel)
  refine ⟨hbind, hmarks, bound, result, hplace, hattrs.trans (by decide +kernel), ?_⟩
  exact (hchildren htext (by decide +kernel)).length_eq.symm

end MarkupBinding
