import MarkupBinding.Proofs.Markup.Outline
import MarkupBinding.Proofs.Markup.Sweep

/-!
# The laws of removing what is switched off

What the toggles leave of a document is said by its outline (`Node.outlineAll_filterOffAll`), and
the other laws follow from that. Nothing that is left is switched off (`Node.isOff_of_mem_tagsAll`),
so a second removal finds nothing to do (`Node.filterOffAll_filterOffAll_self`); and two removals
one behind the other strike the lines that either of them strikes, whichever comes first
(`Node.filterOffAll_filterOffAll`). `Document.filterToggles_laws` puts them together.
-/

set_option autoImplicit false
set_option relaxedAutoImplicit false

namespace MarkupBinding

section Either

variable {off other : String → Bool}

/-- A tag carries a flag of either kind when it carries one of them. -/
theorem Tag.isOff_or (t : Tag) :
    t.isOff (fun flag ↦ off flag || other flag) = (t.isOff off || t.isOff other) := by
  rw [isOff, isOff, isOff]
  cases t.attr? Mark.toggleable <;> rfl

/-- A line is gone for either kind of flags when it is gone for one of them. -/
theorem OutlineLine.isGone_or (line : OutlineLine) :
    line.isGone (fun flag ↦ off flag || other flag) = (line.isGone off || line.isGone other) := by
  have hface : line.face.isOff (fun flag ↦ off flag || other flag) =
      (line.face.isOff off || line.face.isOff other) := by
    cases line.face with
    | element tag => exact tag.isOff_or
    | text kind content => rfl
  have hinside : line.isInside (fun flag ↦ off flag || other flag) =
      (line.isInside off || line.isInside other) := by
    rw [isInside, isInside, isInside, Bool.eq_iff_iff]
    simp only [Tag.isOff_or, Bool.or_eq_true, List.any_eq_true, and_or_left, exists_or]
  rw [isGone, isGone, isGone, hface, hinside]
  cases line.face.isOff off <;> cases line.face.isOff other <;> simp

end Either

namespace Node

variable {off other : String → Bool} {nodes : List Node}

/-! ### Removing twice -/

section Twice

theorem isOff_of_mem_tagsAll_of_forall
    (h : ∀ n ∈ nodes, n.isOff off = false → ∀ t ∈ (filterOff off n).1.tags, t.isOff off = false) :
    ∀ t ∈ tagsAll (filterOffAll off nodes).1, t.isOff off = false := by
  intro t ht
  obtain ⟨m, hm, hin⟩ := mem_tagsAll_iff.1 ht
  obtain ⟨n, hn, hoff, rfl⟩ := (mem_filterOffAll_fst off).1 hm
  exact h n hn hoff t hin

theorem isOff_of_mem_tags (n : Node) :
    n.isOff off = false → ∀ t ∈ (filterOff off n).1.tags, t.isOff off = false := by
  induction n using induction_on_children with
  | text kind content => exact fun _ _ ht ↦ absurd ht (by simp [tags])
  | element tag children ih =>
    intro hoff t ht
    rw [filterOff_element_fst, tags_element] at ht
    rcases List.mem_cons.1 ht with rfl | hbelow
    · exact hoff
    · exact isOff_of_mem_tagsAll_of_forall ih t hbelow

/-- No element that is left is switched off. -/
theorem isOff_of_mem_tagsAll {t : Tag} (ht : t ∈ tagsAll (filterOffAll off nodes).1) :
    t.isOff off = false :=
  isOff_of_mem_tagsAll_of_forall (fun n _ ↦ isOff_of_mem_tags n) t ht

theorem filterOffAll_eq_self_of_forall
    (h : ∀ n ∈ nodes, (∀ t ∈ n.tags, t.isOff off = false) → filterOff off n = (n, 0))
    (htags : ∀ t ∈ tagsAll nodes, t.isOff off = false) : filterOffAll off nodes = (nodes, 0) := by
  induction nodes with
  | nil => rfl
  | cons n rest ih =>
    rw [tagsAll, List.forall_mem_append] at htags
    obtain ⟨hfirst, hrest⟩ := htags
    have hon : n.isOff off = false := by
      cases n with
      | text kind content => rfl
      | element tag children => exact hfirst tag (by rw [tags_element]; exact List.mem_cons_self)
    rw [filterOffAll_cons, hon, if_neg Bool.false_ne_true, h n List.mem_cons_self hfirst,
      ih (fun m hm ↦ h m (List.mem_cons_of_mem n hm)) hrest]
    rfl

theorem filterOff_eq_self (n : Node) :
    (∀ t ∈ n.tags, t.isOff off = false) → filterOff off n = (n, 0) := by
  induction n using induction_on_children with
  | text kind content => exact fun _ ↦ by rw [filterOff]
  | element tag children ih =>
    intro htags
    rw [tags_element, List.forall_mem_cons] at htags
    rw [filterOff, filterOffAll_eq_self_of_forall ih htags.2]

/-- Trees without a switched off element are left as they are. -/
theorem filterOffAll_eq_self (h : ∀ t ∈ tagsAll nodes, t.isOff off = false) :
    filterOffAll off nodes = (nodes, 0) :=
  filterOffAll_eq_self_of_forall (fun n _ ↦ filterOff_eq_self n) h

/-- What is left is left by a second removal, which removes nothing. -/
theorem filterOffAll_filterOffAll_self (off : String → Bool) (nodes : List Node) :
    filterOffAll off (filterOffAll off nodes).1 = ((filterOffAll off nodes).1, 0) :=
  filterOffAll_eq_self fun _ ↦ isOff_of_mem_tagsAll

end Twice

/-! ### Removing for either reason -/

/-- Two removals one behind the other leave what one removal for both reasons leaves. -/
theorem filterOffAll_filterOffAll (off other : String → Bool) (nodes : List Node) :
    (filterOffAll other (filterOffAll off nodes).1).1 =
      (filterOffAll (fun flag ↦ off flag || other flag) nodes).1 := by
  refine @outlineAll_injective [] _ _ ?_
  rw [outlineAll_filterOffAll, outlineAll_filterOffAll, outlineAll_filterOffAll, List.filter_filter]
  refine List.filter_congr fun line _ ↦ ?_
  rw [OutlineLine.isGone_or, Bool.not_or, Bool.and_comm]

end Node

/-- What is neither an object nor a record has no properties, so it switches nothing off. -/
theorem Value.switchesOff_eq_false {input : Value} (hobject : ∀ fields, input ≠ .object fields)
    (hrecord : ∀ type fields, input ≠ .record type fields) (flag : String) :
    input.switchesOff flag = false := by
  cases input with
  | object fields => exact absurd rfl (hobject fields)
  | record type fields => exact absurd rfl (hrecord type fields)
  | null | bool | int | float | string | list => rfl

namespace Document

/-- The second document is the first without the elements that are switched off and all that is
inside them; everything else is there, unchanged and in order. -/
def Without (d : Document) (off : String → Bool) (left : Document) : Prop :=
  left.outline = d.outline.filter fun line ↦ !line.isGone off

/-- There is one such document, the one that removing what is switched off leaves. -/
theorem without_iff {d left : Document} {off : String → Bool} :
    d.Without off left ↔ (Node.filterOffAll off d).1 = left := by
  have hlaw := Node.outlineAll_filterOffAll off d
  constructor
  · intro hleft
    exact Node.outlineAll_injective (hlaw.trans hleft.symm)
  · rintro rfl
    exact hlaw

/-- Removing what an input switches off. A loop over the elements listed beforehand does the same,
which passes over those that went with an element taken out before. What is left is the document
without the switched off elements and all that is inside them, and the number of elements removed is
that of the switched off elements inside no other. Doing it again removes nothing; doing it for two
inputs leaves, in either order, the document without what either of them switches off; and an input
without named values removes nothing. -/
theorem filterToggles_laws (d : Document) (input : Value) :
    let out := Node.sweep input.switchesOff d
    d.filterToggles input = (Node.withoutAll out [] 0 d, out.length) ∧
      (∀ left, (d.filterToggles input).1 = left ↔ d.Without input.switchesOff left) ∧
      (d.filterToggles input).2 =
        d.outline.countP (OutlineLine.isOutermostOff input.switchesOff) ∧
      filterToggles (d.filterToggles input).1 input = ((d.filterToggles input).1, 0) ∧
      (∀ other : Value,
        d.Without (fun flag ↦ input.switchesOff flag || other.switchesOff flag)
            (filterToggles (d.filterToggles input).1 other).1 ∧
          (filterToggles (d.filterToggles other).1 input).1 =
            (filterToggles (d.filterToggles input).1 other).1) ∧
      ((∀ fields, input ≠ .object fields) → (∀ type fields, input ≠ .record type fields) →
        d.filterToggles input = (d, 0)) := by
  intro out
  have heither (a b : Value) : (filterToggles (d.filterToggles a).1 b).1 =
      (Node.filterOffAll (fun flag ↦ a.switchesOff flag || b.switchesOff flag) d).1 :=
    Node.filterOffAll_filterOffAll _ _ d
  refine ⟨Node.filterOffAll_eq_sweep _ d, fun left ↦ without_iff.symm, Node.snd_filterOffAll _ d,
    Node.filterOffAll_filterOffAll_self _ d, fun other ↦ ⟨?_, ?_⟩, fun hobject hrecord ↦ ?_⟩
  · exact without_iff.2 (heither input other).symm
  · rw [heither, heither]
    simp only [Bool.or_comm]
  · refine Node.filterOffAll_eq_self fun t _ ↦ ?_
    rw [Tag.isOff]
    cases t.attr? Mark.toggleable with
    | none => rfl
    | some flag => exact Value.switchesOff_eq_false hobject hrecord flag

/-- Of two headers with a menu in the first, both counted once, the menu goes with its header. -/
example : filterToggles
    [.element ⟨"header", [(Mark.toggleable, .plain "top")]⟩
        [.element ⟨"nav", [(Mark.toggleable, .plain "menu")]⟩ []],
      .element ⟨"p", []⟩ [],
      .element ⟨"header", [(Mark.toggleable, .plain "top")]⟩ []]
    (.object [("top", .bool false), ("menu", .bool false)]) = ([.element ⟨"p", []⟩ []], 2) := by
  rfl

end Document

end MarkupBinding
