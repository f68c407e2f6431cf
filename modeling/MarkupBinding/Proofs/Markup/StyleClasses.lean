import MarkupBinding.Proofs.Markup.Elements
import MarkupBinding.Text.Blank

/-!
# Elements of a style class

The elements of a document that have a style class, in document order (`Document.ofClass`). They are
found in each part of the document on its own (`ofClass_append`, `ofClass_element`), and a part
without style classes has none (`ofClass_cons_of_classless`).
-/

set_option autoImplicit false
set_option relaxedAutoImplicit false

namespace MarkupBinding

/-- Whether the style class is among those of the tag. -/
def Tag.hasClass (t : Tag) (style : String) : Bool :=
  match t.attrs.lookup "class" with
  | some (.words classes) => classes.contains style
  | some other => (Text.words other.text).contains style
  | none => false

namespace Document

/-- The elements of a style class in document order, each as its tag and its children. -/
def ofClass (d : Document) (style : String) : List (Tag × List Node) :=
  (Node.elementsAll d).filter fun e ↦ e.1.hasClass style

variable {style : String}

@[simp] theorem ofClass_nil : ofClass [] style = [] := rfl

@[simp] theorem ofClass_append (d e : Document) :
    ofClass (d ++ e) style = d.ofClass style ++ e.ofClass style := by
  rw [ofClass, Node.elementsAll_append, List.filter_append]
  rfl

@[simp] theorem ofClass_text (kind : TextKind) (content : String) (rest : Document) :
    ofClass (.text kind content :: rest) style = rest.ofClass style := rfl

/-- An element stands in front of those in it, if it is of the class. -/
theorem ofClass_element (tag : Tag) (children : List Node) (rest : Document) :
    ofClass (.element tag children :: rest) style =
      (if tag.hasClass style then [(tag, children)] else []) ++
        (ofClass children style ++ rest.ofClass style) := by
  rw [ofClass, Node.elementsAll, Node.elements_element, List.cons_append, List.filter_cons,
    List.filter_append]
  cases tag.hasClass style <;> rfl

/-- An element that is not of the class is looked through. -/
theorem ofClass_element_of_not {tag : Tag} (h : tag.hasClass style = false) (children : List Node)
    (rest : Document) :
    ofClass (.element tag children :: rest) style =
      ofClass children style ++ rest.ofClass style := by
  rw [ofClass_element, h, if_neg Bool.false_ne_true, List.nil_append]

/-- A tree without style classes is looked past. -/
theorem ofClass_cons_of_classless {n : Node} (h : ∀ t ∈ n.tags, t.attrs.lookup "class" = none)
    (rest : Document) : ofClass (n :: rest) style = rest.ofClass style := by
  have hnone : n.elements.filter (fun e ↦ e.1.hasClass style) = [] := by
    refine List.filter_eq_nil_iff.2 fun e he ↦ ?_
    have htag : e.1 ∈ n.tags := by
      rw [Node.tags_eq_map_elements]
      exact List.mem_map_of_mem he
    rw [Tag.hasClass, h e.1 htag]
    exact Bool.false_ne_true
  rw [ofClass, Node.elementsAll, List.filter_append, hnone, List.nil_append]
  rfl

end Document

end MarkupBinding
