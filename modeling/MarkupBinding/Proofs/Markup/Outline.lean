import MarkupBinding.Proofs.Markup.ReachedFlags

/-!
# Outlines

The outline of several trees lists their nodes in document order, each with the tags of the elements
around it and with what it shows on its own. Only the same trees have the same outline
(`outlineAll_injective`), so what a change leaves of trees can be said line by line.

Removing what is switched off strikes the lines of the elements that are switched off and of all
nodes inside them, and no others (`outlineAll_filterOffAll`). The number that goes with it is that
of the switched off elements that are inside no other (`snd_filterOffAll`).
-/

set_option autoImplicit false
set_option relaxedAutoImplicit false

namespace MarkupBinding

/-- What a node shows on its own, without its children. -/
inductive Face where
  | element (tag : Tag)
  | text (kind : TextKind) (content : String)
  deriving DecidableEq, Repr

/-- A node in an outline: the tags of the elements around it, outermost first, and its face. -/
structure OutlineLine where
  around : List Tag
  face : Face
  deriving DecidableEq, Repr

/-- Whether the face is that of an element that is switched off. -/
def Face.isOff (off : String → Bool) : Face → Bool
  | element tag => tag.isOff off
  | text _ _ => false

namespace OutlineLine

/-- Whether an element around the node is switched off. -/
def isInside (off : String → Bool) (line : OutlineLine) : Bool :=
  line.around.any (Tag.isOff off)

/-- Whether the node is switched off or inside an element that is. -/
def isGone (off : String → Bool) (line : OutlineLine) : Bool :=
  line.face.isOff off || line.isInside off

/-- Whether the node is an element that is switched off, and inside no other that is. -/
def isOutermostOff (off : String → Bool) (line : OutlineLine) : Bool :=
  line.face.isOff off && !line.isInside off

end OutlineLine

namespace Node

mutual

/-- The outline of a tree that stands inside elements with the given tags. -/
def outline (around : List Tag) : Node → List OutlineLine
  | element tag children => ⟨around, .element tag⟩ :: outlineAll (around ++ [tag]) children
  | text kind content => [⟨around, .text kind content⟩]

/-- The outline of several trees that stand side by side. -/
def outlineAll (around : List Tag) : List Node → List OutlineLine
  | [] => []
  | n :: rest => n.outline around ++ outlineAll around rest

end

/-- What the node shows on its own. -/
def face : Node → Face
  | element tag _ => .element tag
  | text kind content => .text kind content

end Node

/-- The nodes of a document in document order, each with the tags of the elements around it. -/
def Document.outline (d : Document) : List OutlineLine :=
  Node.outlineAll [] d

namespace Node

variable {around : List Tag} {nodes others : List Node} {n m : Node}

/-! ### Outlines tell trees apart -/

section Telling

/-- What is listed stands inside the elements that the outline starts from. -/
theorem prefix_of_mem_outlineAll_of_forall
    (h : ∀ n ∈ nodes, ∀ line ∈ n.outline around, around <+: line.around) :
    ∀ line ∈ outlineAll around nodes, around <+: line.around := by
  induction nodes with
  | nil => exact fun _ hline ↦ absurd hline List.not_mem_nil
  | cons n rest ih =>
    intro line hline
    rcases List.mem_append.1 hline with hfirst | hrest
    · exact h n List.mem_cons_self line hfirst
    · exact ih (fun m hm ↦ h m (List.mem_cons_of_mem n hm)) line hrest

theorem prefix_of_mem_outline (n : Node) :
    ∀ {around : List Tag}, ∀ line ∈ n.outline around, around <+: line.around := by
  induction n using induction_on_children with
  | text kind content =>
    intro around line hline
    obtain rfl := List.mem_singleton.1 hline
    exact List.prefix_rfl
  | element tag children ih =>
    intro around line hline
    rcases List.mem_cons.1 hline with rfl | hbelow
    · exact List.prefix_rfl
    · have hinside := prefix_of_mem_outlineAll_of_forall (fun m hm ↦ ih m hm) line hbelow
      exact (List.prefix_append around [tag]).trans hinside

theorem prefix_of_mem_outlineAll {line : OutlineLine} (h : line ∈ outlineAll around nodes) :
    around <+: line.around :=
  prefix_of_mem_outlineAll_of_forall (fun n _ ↦ prefix_of_mem_outline n) line h

/-- The outline of a tree begins with its root, and all else in it stands deeper. -/
theorem outline_eq_cons (around : List Tag) (n : Node) :
    ∃ below, n.outline around = ⟨around, n.face⟩ :: below ∧
      ∀ line ∈ below, decide (around.length < line.around.length) = true := by
  cases n with
  | text kind content => exact ⟨[], by rw [outline, face], fun _ h ↦ absurd h List.not_mem_nil⟩
  | element tag children =>
    refine ⟨outlineAll (around ++ [tag]) children, by rw [outline, face], fun line hline ↦ ?_⟩
    have hlength := (prefix_of_mem_outlineAll hline).length_le
    rw [List.length_append, List.length_singleton] at hlength
    exact decide_eq_true hlength

/-- The outline of siblings does not begin deeper than they stand. -/
theorem takeWhile_outlineAll (around : List Tag) (nodes : List Node) :
    (outlineAll around nodes).takeWhile (fun line ↦ decide (around.length < line.around.length)) =
      [] := by
  cases nodes with
  | nil => rfl
  | cons n rest =>
    obtain ⟨below, houtline, -⟩ := outline_eq_cons around n
    rw [outlineAll, houtline, List.cons_append, List.takeWhile_cons_of_neg (by simp)]

/-- Where the outlines of siblings are the same, so are that of the first and that of the others. -/
theorem outline_append_inj {rest rest' : List Node}
    (h : n.outline around ++ outlineAll around rest = m.outline around ++ outlineAll around rest') :
    n.outline around = m.outline around ∧ outlineAll around rest = outlineAll around rest' := by
  obtain ⟨below, hn, hbelow⟩ := outline_eq_cons around n
  obtain ⟨below', hm, hbelow'⟩ := outline_eq_cons around m
  rw [hn, hm, List.cons_append, List.cons_append] at h
  obtain ⟨hface, htail⟩ := List.cons.inj h
  -- what stands deeper at the front belongs to the first sibling
  have hfront := congrArg
    (List.takeWhile fun line ↦ decide (around.length < line.around.length)) htail
  rw [List.takeWhile_append_of_pos hbelow, List.takeWhile_append_of_pos hbelow',
    takeWhile_outlineAll, takeWhile_outlineAll, List.append_nil, List.append_nil] at hfront
  rw [hfront] at htail
  exact ⟨by rw [hn, hm, hface, hfront], List.append_cancel_left htail⟩

theorem outlineAll_injective_of_forall
    (h : ∀ n ∈ nodes, ∀ {m : Node}, n.outline around = m.outline around → n = m)
    (houtline : outlineAll around nodes = outlineAll around others) : nodes = others := by
  induction nodes generalizing others with
  | nil =>
    cases others with
    | nil => rfl
    | cons m rest =>
      obtain ⟨below, hm, -⟩ := outline_eq_cons around m
      simp [outlineAll, hm] at houtline
  | cons n rest ih =>
    cases others with
    | nil =>
      obtain ⟨below, hn, -⟩ := outline_eq_cons around n
      simp [outlineAll, hn] at houtline
    | cons m rest' =>
      obtain ⟨hfirst, hrest⟩ := outline_append_inj houtline
      rw [h n List.mem_cons_self hfirst, ih (fun n hn ↦ h n (List.mem_cons_of_mem _ hn)) hrest]

theorem outline_injective (n : Node) :
    ∀ {around : List Tag} {m : Node}, n.outline around = m.outline around → n = m := by
  induction n using induction_on_children with
  | text kind content =>
    intro around m h
    cases m with
    | text kind' content' => simpa [outline] using h
    | element tag children => simp [outline] at h
  | element tag children ih =>
    intro around m h
    cases m with
    | text kind content => simp [outline] at h
    | element tag' children' =>
      obtain ⟨hface, hbelow⟩ := List.cons.inj h
      obtain rfl : tag = tag' := by simpa using hface
      rw [outlineAll_injective_of_forall (fun n hn ↦ ih n hn) hbelow]

/-- Only the same trees have the same outline. -/
theorem outlineAll_injective (h : outlineAll around nodes = outlineAll around others) :
    nodes = others :=
  outlineAll_injective_of_forall (fun n _ ↦ outline_injective n) h

end Telling

/-! ### Striking what is switched off -/

section Striking

variable {off : String → Bool}

/-- All that is listed from inside a switched off element is inside it. -/
theorem isInside_of_mem_outlineAll (h : around.any (Tag.isOff off) = true) {line : OutlineLine}
    (hline : line ∈ outlineAll around nodes) : line.isInside off = true := by
  obtain ⟨tag, htag, hoff⟩ := List.any_eq_true.1 h
  exact List.any_eq_true.2 ⟨tag, (prefix_of_mem_outlineAll hline).subset htag, hoff⟩

/-- The outline of a switched off element has one line that is outermost, and none that stays. -/
theorem outline_of_isOff (haround : around.any (Tag.isOff off) = false) (h : n.isOff off = true) :
    (n.outline around).filter (fun line ↦ !line.isGone off) = [] ∧
      (n.outline around).countP (OutlineLine.isOutermostOff off) = 1 := by
  cases n with
  | text kind content => cases h
  | element tag children =>
    have hoff : tag.isOff off = true := h
    have hinside : ∀ line ∈ outlineAll (around ++ [tag]) children, line.isInside off = true :=
      fun line ↦ isInside_of_mem_outlineAll (by simp [hoff])
    have hown : OutlineLine.isInside off ⟨around, .element tag⟩ = false := haround
    constructor
    · rw [List.filter_eq_nil_iff, outline]
      intro line hline
      rcases List.mem_cons.1 hline with rfl | hbelow
      · simp [OutlineLine.isGone, Face.isOff, hoff]
      · simp [OutlineLine.isGone, hinside line hbelow]
    · rw [outline, List.countP_cons_of_pos (by
        simp [OutlineLine.isOutermostOff, Face.isOff, hoff, hown])]
      rw [List.countP_eq_zero.2 fun line hline ↦ by
        simp [OutlineLine.isOutermostOff, hinside line hline]]

/-- What the removal of what is switched off does to the outline of a node that is not switched off
itself: it strikes the lines that are gone, and counts the outermost of them. -/
def StrikesBelow (off : String → Bool) (n : Node) : Prop :=
  ∀ around : List Tag, around.any (Tag.isOff off) = false → n.isOff off = false →
    (filterOff off n).1.outline around = (n.outline around).filter (fun line ↦ !line.isGone off) ∧
      (filterOff off n).2 = (n.outline around).countP (OutlineLine.isOutermostOff off)

theorem strikes_filterOffAll_of_forall (h : ∀ n ∈ nodes, StrikesBelow off n)
    (haround : around.any (Tag.isOff off) = false) :
    outlineAll around (filterOffAll off nodes).1 =
        (outlineAll around nodes).filter (fun line ↦ !line.isGone off) ∧
      (filterOffAll off nodes).2 =
        (outlineAll around nodes).countP (OutlineLine.isOutermostOff off) := by
  induction nodes with
  | nil => exact ⟨rfl, rfl⟩
  | cons n rest ih =>
    obtain ⟨hlines, hcount⟩ := ih fun m hm ↦ h m (List.mem_cons_of_mem n hm)
    rw [filterOffAll_cons]
    cases hoff : n.isOff off with
    | true =>
      obtain ⟨hgone, hone⟩ := outline_of_isOff haround hoff
      refine ⟨?_, ?_⟩
      · rw [if_pos rfl, hlines, outlineAll, List.filter_append, hgone, List.nil_append]
      · rw [if_pos rfl, hcount, outlineAll, List.countP_append, hone, Nat.add_comm]
    | false =>
      obtain ⟨hfirst, hfirstCount⟩ := h n List.mem_cons_self around haround hoff
      refine ⟨?_, ?_⟩
      · rw [if_neg Bool.false_ne_true, outlineAll, outlineAll, List.filter_append, hfirst, hlines]
      · rw [if_neg Bool.false_ne_true, outlineAll, List.countP_append, hfirstCount, hcount]

theorem strikesBelow (n : Node) : StrikesBelow off n := by
  induction n using induction_on_children with
  | text kind content =>
    intro around haround hoff
    have hown : OutlineLine.isInside off ⟨around, .text kind content⟩ = false := haround
    simp [filterOff, outline, OutlineLine.isGone, OutlineLine.isOutermostOff, Face.isOff, hown]
  | element tag children ih =>
    intro around haround hoff
    have htag : tag.isOff off = false := hoff
    have hown : OutlineLine.isInside off ⟨around, .element tag⟩ = false := haround
    have hinside : (around ++ [tag]).any (Tag.isOff off) = false := by
      rw [List.any_append, haround]
      simp [htag]
    obtain ⟨hlines, hcount⟩ := strikes_filterOffAll_of_forall ih hinside
    rw [filterOff, outline, outline]
    refine ⟨?_, ?_⟩
    · rw [hlines, List.filter_cons_of_pos (by
        simp [OutlineLine.isGone, Face.isOff, htag, hown])]
    · rw [hcount, List.countP_cons_of_neg (by
        simp [OutlineLine.isOutermostOff, Face.isOff, htag])]

/-- Removing what is switched off strikes the lines of what is switched off or inside it. -/
theorem outlineAll_filterOffAll (off : String → Bool) (nodes : List Node) :
    outlineAll [] (filterOffAll off nodes).1 =
      (outlineAll [] nodes).filter (fun line ↦ !line.isGone off) :=
  (strikes_filterOffAll_of_forall (fun n _ ↦ strikesBelow n) rfl).1

/-- The number of elements removed is that of the switched off elements that are inside no other. -/
theorem snd_filterOffAll (off : String → Bool) (nodes : List Node) :
    (filterOffAll off nodes).2 = (outlineAll [] nodes).countP (OutlineLine.isOutermostOff off) :=
  (strikes_filterOffAll_of_forall (fun n _ ↦ strikesBelow n) rfl).2

end Striking

end Node

end MarkupBinding
