import MarkupBinding.Proofs.Markup.ItemCount
import MarkupBinding.Proofs.Markup.ToggleFlags

/-!
# Rearranged markup

Siblings in another order, at any depth: `Node.Rearranged` permutes lists of nodes and the children
of the elements in them. A rearranged list has elements with the same tags, whose children are
rearranged (`Rearranged.exists_mem_elementsAll`), and as many item marks for a collection around it
(`Rearranged.itemCountAll_eq`).

`Document.RearrangedInside` rearranges what is inside the outermost component of a document and
leaves all else. The outermost component is then the same element with rearranged children
(`RearrangedInside.exists_outermostComponent?`), and the toggle flags are the same in some order
(`RearrangedInside.toggleFlags_perm`).
-/

set_option autoImplicit false
set_option relaxedAutoImplicit false

namespace MarkupBinding

namespace Node

/-- The nodes in another order, and the children of the elements among them too, at any depth. -/
inductive Rearranged : List Node → List Node → Prop
  | perm {nodes others : List Node} (h : nodes.Perm others) : Rearranged nodes others
  | inside (before after : List Node) (tag : Tag) {children others : List Node}
      (h : Rearranged children others) :
      Rearranged (before ++ .element tag children :: after) (before ++ .element tag others :: after)
  | trans {nodes others further : List Node} (h : Rearranged nodes others)
      (h' : Rearranged others further) : Rearranged nodes further

section Laws

variable {nodes others : List Node}

theorem Rearranged.refl (nodes : List Node) : Rearranged nodes nodes :=
  .perm (.refl nodes)

theorem Rearranged.symm (h : Rearranged nodes others) : Rearranged others nodes := by
  induction h with
  | perm h => exact .perm h.symm
  | inside before after tag _ ih => exact .inside before after tag ih
  | trans _ _ ih ih' => exact .trans ih' ih

theorem itemCountAll_append (nodes others : List Node) :
    itemCountAll (nodes ++ others) = itemCountAll nodes + itemCountAll others := by
  induction nodes with
  | nil => rw [List.nil_append, itemCountAll, Nat.zero_add]
  | cons n rest ih => rw [List.cons_append, itemCountAll, itemCountAll, ih, Nat.add_assoc]

/-- An element of rearranged nodes was there before, with its children in another order. -/
theorem Rearranged.exists_mem_elementsAll (h : Rearranged nodes others) :
    ∀ {tag : Tag} {children : List Node}, (tag, children) ∈ elementsAll others →
      ∃ original, (tag, original) ∈ elementsAll nodes ∧ Rearranged original children := by
  induction h with
  | perm h =>
    intro tag children hin
    obtain ⟨n, hn, helement⟩ := mem_elementsAll_iff.1 hin
    exact ⟨children, mem_elementsAll_iff.2 ⟨n, h.mem_iff.2 hn, helement⟩, .refl children⟩
  | @inside before after tag children others h ih =>
    intro t cs hin
    rw [elementsAll_append, elementsAll, elements_element] at hin ⊢
    simp only [List.mem_append, List.mem_cons] at hin ⊢
    rcases hin with hbefore | (heq | hbelow) | hafter
    · exact ⟨cs, Or.inl hbefore, .refl cs⟩
    · obtain ⟨rfl, rfl⟩ := Prod.mk.inj heq
      exact ⟨children, Or.inr (Or.inl (Or.inl rfl)), h⟩
    · obtain ⟨original, horiginal, hsame⟩ := ih hbelow
      exact ⟨original, Or.inr (Or.inl (Or.inr horiginal)), hsame⟩
    · exact ⟨cs, Or.inr (Or.inr hafter), .refl cs⟩
  | trans _ _ ih ih' =>
    intro tag children hin
    obtain ⟨middle, hmiddle, hsame⟩ := ih' hin
    obtain ⟨original, horiginal, hsame'⟩ := ih hmiddle
    exact ⟨original, horiginal, .trans hsame' hsame⟩

theorem Rearranged.tagsAll_subset (h : Rearranged nodes others) :
    tagsAll others ⊆ tagsAll nodes := by
  intro t ht
  obtain ⟨children, hin⟩ := mem_tagsAll_iff_exists.1 ht
  obtain ⟨original, horiginal, -⟩ := h.exists_mem_elementsAll hin
  exact mem_tagsAll_of_mem_elementsAll horiginal

/-- Rearranged nodes have the tags that were there before. -/
theorem Rearranged.mem_tagsAll_iff (h : Rearranged nodes others) {t : Tag} :
    t ∈ tagsAll nodes ↔ t ∈ tagsAll others :=
  ⟨fun ht ↦ h.symm.tagsAll_subset ht, fun ht ↦ h.tagsAll_subset ht⟩

theorem itemCountAll_perm (h : nodes.Perm others) : itemCountAll nodes = itemCountAll others := by
  induction h with
  | nil => rfl
  | cons n _ ih => rw [itemCountAll, itemCountAll, ih]
  | swap n m rest => simp only [itemCountAll, Nat.add_left_comm]
  | trans _ _ ih ih' => exact ih.trans ih'

/-- Rearranged nodes have as many item marks that a collection around them can take. -/
theorem Rearranged.itemCountAll_eq (h : Rearranged nodes others) :
    itemCountAll nodes = itemCountAll others := by
  induction h with
  | perm h => exact itemCountAll_perm h
  | inside before after tag _ ih =>
    rw [itemCountAll_append, itemCountAll_append, itemCountAll, itemCountAll, itemCount, itemCount,
      ih]
  | trans _ _ ih ih' => exact ih.trans ih'

end Laws

end Node

namespace Document

/-- What is inside the outermost component, the first element that declares one, is rearranged, and
all else is the same. -/
inductive RearrangedInside : Document → Document → Prop
  | here {tag : Tag} {children others rest : List Node} (hdeclares : tag.declaresComponent = true)
      (h : Node.Rearranged children others) :
      RearrangedInside (.element tag children :: rest) (.element tag others :: rest)
  | behind {n : Node} {rest others : List Node}
      (hplain : ∀ t ∈ n.tags, t.declaresComponent = false) (h : RearrangedInside rest others) :
      RearrangedInside (n :: rest) (n :: others)
  | beneath {tag : Tag} {children others rest : List Node} (hplain : tag.declaresComponent = false)
      (h : RearrangedInside children others) :
      RearrangedInside (.element tag children :: rest) (.element tag others :: rest)

namespace RearrangedInside

variable {d e : Document}

/-- The outermost component is the same element with its children rearranged. -/
theorem exists_outermostComponent? (h : d.RearrangedInside e) :
    ∃ tag children others, d.outermostComponent? = some (.element tag children) ∧
      e.outermostComponent? = some (.element tag others) ∧ Node.Rearranged children others := by
  induction h with
  | @here tag children others rest hdeclares h =>
    refine ⟨tag, children, others, ?_, ?_, h⟩
    · rw [Document.outermostComponent?, Node.findAmong?, Node.find?, if_pos hdeclares]
    · rw [Document.outermostComponent?, Node.findAmong?, Node.find?, if_pos hdeclares]
  | behind hplain _ ih =>
    have hnone := (Node.find?_eq_none_iff _).2 hplain
    simp only [Document.outermostComponent?, Node.findAmong?, hnone] at ih ⊢
    exact ih
  | beneath hplain _ ih =>
    obtain ⟨tag, children, others, hfirst, hsecond, h⟩ := ih
    rw [Document.outermostComponent?] at hfirst hsecond
    refine ⟨tag, children, others, ?_, ?_, h⟩
    · simp only [Document.outermostComponent?, Node.findAmong?, Node.find?, hplain,
        Bool.false_eq_true, if_false, hfirst]
    · simp only [Document.outermostComponent?, Node.findAmong?, Node.find?, hplain,
        Bool.false_eq_true, if_false, hsecond]

theorem mem_tags_iff (h : d.RearrangedInside e) {t : Tag} : t ∈ d.tags ↔ t ∈ e.tags := by
  induction h with
  | here _ h =>
    simp only [Document.tags, Node.tagsAll, Node.tags, List.mem_append, List.mem_cons,
      h.mem_tagsAll_iff]
  | behind _ _ ih =>
    simp only [Document.tags, Node.tagsAll, List.mem_append] at ih ⊢
    rw [ih]
  | beneath _ _ ih =>
    simp only [Document.tags, Node.tagsAll, Node.tags, List.mem_append, List.mem_cons] at ih ⊢
    rw [ih]

/-- The toggle flags are the same, up to their order. -/
theorem toggleFlags_perm (h : d.RearrangedInside e) : d.toggleFlags.Perm e.toggleFlags := by
  rw [List.perm_ext_iff_of_nodup (listsFlags_toggleFlags d).nodup (listsFlags_toggleFlags e).nodup]
  intro flag
  rw [mem_toggleFlags_iff, mem_toggleFlags_iff]
  simp only [h.mem_tags_iff]

end RearrangedInside

end Document

end MarkupBinding
