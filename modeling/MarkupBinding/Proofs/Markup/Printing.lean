import MarkupBinding.Markup.Printer
import MarkupBinding.Proofs.Markup.StencilPlace

/-!
# Where a part of a document stands in its markup

Printing writes the parts of a document one behind the other, so what stands at a place of the
document has its own characters in the markup, and those around it do not hang on what stands there
(`exists_print_replaceAt`). The same goes for an attribute in a tag: the attributes are written in
the order of their names, so a new value does not move any of them (`exists_printTag_set`).
-/

set_option autoImplicit false
set_option relaxedAutoImplicit false

namespace MarkupBinding

/-! ### Elements -/

namespace Node

variable {nodes children : List Node} {tag : Tag} {place : Place} {n : Node}

theorem printAll_append (parent : Option String) (nodes others : List Node) :
    printAll parent (nodes ++ others) = printAll parent nodes ++ printAll parent others := by
  induction nodes with
  | nil => rw [List.nil_append, printAll, String.empty_append]
  | cons n rest ih => rw [List.cons_append, printAll, printAll, ih, String.append_assoc]

/-- An element is written in the same way wherever it stands. -/
theorem print_element (parent : Option String) (tag : Tag) (children : List Node) :
    (element tag children).print parent = (element tag children).print none := by
  rw [print, print]

/-- An element with children is written between its tags. -/
theorem print_of_ne_nil (parent : Option String) (tag : Tag) (h : children ≠ []) :
    (element tag children).print parent =
      "<" ++ Markup.printTag tag ++ ">" ++ printAll (some tag.name) children ++
        ("</" ++ tag.name ++ ">") := by
  have hempty : children.isEmpty = false := by simpa using h
  rw [print, hempty]
  simp only [Bool.false_and, Bool.false_eq_true, if_false, String.append_assoc]

/-- Putting one node in the place of another leaves no list of siblings empty. -/
theorem replaceAt_ne_nil (new : Node) (h : atPlace? nodes place = some n) :
    replaceAt [new] nodes place ≠ [] := by
  cases place with
  | nil => simp [atPlace?] at h
  | cons i rest =>
    cases rest with
    | nil => simp [replaceAt]
    | cons j place =>
      obtain ⟨tag, children, hi, -⟩ := exists_of_atPlace?_cons_cons h
      rw [replaceAt_cons_cons _ hi]
      have hmem := List.mem_of_getElem? hi
      intro hnil
      rw [(List.set_eq_nil_iff _ _).1 hnil] at hmem
      exact absurd hmem List.not_mem_nil

/-- Putting the node that stands at a place there again changes nothing. -/
theorem replaceAt_self :
    ∀ {nodes : List Node}, atPlace? nodes place = some n → replaceAt [n] nodes place = nodes := by
  induction place with
  | nil => intro nodes h; simp [atPlace?] at h
  | cons i rest ih =>
    intro nodes h
    cases rest with
    | nil =>
      obtain ⟨hi, rfl⟩ := List.getElem?_eq_some_iff.1 h
      rw [replaceAt, List.append_assoc, List.singleton_append, List.getElem_cons_drop,
        List.take_append_drop]
    | cons j place =>
      obtain ⟨tag, children, hi, hbelow⟩ := exists_of_atPlace?_cons_cons h
      obtain ⟨hlt, hget⟩ := List.getElem?_eq_some_iff.1 hi
      rw [replaceAt_cons_cons _ hi, ih hbelow, ← hget, List.set_getElem_self]

/-- What is written of one of several siblings stands between what is written of the others. -/
theorem printAll_set (parent : Option String) {i : Nat} (hi : i < nodes.length) (new : Node) :
    printAll parent (nodes.set i new) =
      printAll parent (nodes.take i) ++ new.print parent ++
        printAll parent (nodes.drop (i + 1)) := by
  rw [List.set_eq_take_append_cons_drop, if_pos hi, printAll_append, printAll, String.append_assoc]

/-- Whatever node stands at a place, it is written between the same characters, inside an element of
the same name. -/
theorem exists_printAll_replaceAt :
    ∀ {nodes : List Node} {parent : Option String}, atPlace? nodes place = some n →
      ∃ around before after, ∀ new : Node,
        printAll parent (replaceAt [new] nodes place) = before ++ new.print around ++ after := by
  induction place with
  | nil => intro nodes parent h; simp [atPlace?] at h
  | cons i rest ih =>
    intro nodes parent h
    cases rest with
    | nil =>
      refine ⟨parent, printAll parent (nodes.take i), printAll parent (nodes.drop (i + 1)),
        fun new ↦ ?_⟩
      rw [replaceAt, printAll_append, printAll_append, printAll, printAll, String.append_empty]
    | cons j place =>
      obtain ⟨tag, children, hi, hbelow⟩ := exists_of_atPlace?_cons_cons h
      obtain ⟨around, before, after, hwritten⟩ := @ih children (some tag.name) hbelow
      have hlt : i < nodes.length := (List.getElem?_eq_some_iff.1 hi).1
      refine ⟨around,
        printAll parent (nodes.take i) ++ ("<" ++ Markup.printTag tag ++ ">" ++ before),
        after ++ ("</" ++ tag.name ++ ">") ++ printAll parent (nodes.drop (i + 1)), fun new ↦ ?_⟩
      rw [replaceAt_cons_cons _ hi, printAll_set parent hlt,
        print_of_ne_nil parent tag (replaceAt_ne_nil new hbelow), hwritten]
      simp only [String.append_assoc]

end Node

/-! ### Attributes -/

namespace Markup

/-- An attribute is put in a place that its value has no part in. -/
theorem exists_insertAttr (name : String) (attrs : List (String × AttrValue)) :
    ∃ front back, ∀ value, insertAttr (name, value) attrs = front ++ (name, value) :: back := by
  induction attrs with
  | nil => exact ⟨[], [], fun _ ↦ rfl⟩
  | cons other rest ih =>
    obtain ⟨front, back, hplace⟩ := ih
    by_cases hless : name < other.1
    · exact ⟨[], other :: rest, fun _ ↦ if_pos hless⟩
    · refine ⟨other :: front, back, fun value ↦ ?_⟩
      rw [insertAttr, if_neg hless, hplace, List.cons_append]

/-- Putting another attribute beside one does not hang on the value of that one. -/
theorem exists_insertAttr_append (attr : String × AttrValue) (name : String)
    (front back : List (String × AttrValue)) :
    ∃ front' back', ∀ value,
      insertAttr attr (front ++ (name, value) :: back) = front' ++ (name, value) :: back' := by
  induction front with
  | nil =>
    by_cases hless : attr.1 < name
    · exact ⟨[attr], back, fun _ ↦ if_pos hless⟩
    · exact ⟨[], insertAttr attr back, fun _ ↦ if_neg hless⟩
  | cons other rest ih =>
    obtain ⟨front', back', hplace⟩ := ih
    by_cases hless : attr.1 < other.1
    · exact ⟨attr :: other :: rest, back, fun _ ↦ if_pos hless⟩
    · refine ⟨other :: front', back', fun value ↦ ?_⟩
      rw [List.cons_append, insertAttr, if_neg hless, hplace, List.cons_append]

/-- Where an attribute comes in the order of the names does not hang on its value. -/
theorem exists_sortAttrs (name : String) (before after : List (String × AttrValue)) :
    ∃ front back, ∀ value,
      sortAttrs (before ++ (name, value) :: after) = front ++ (name, value) :: back := by
  induction before with
  | nil => exact exists_insertAttr name (sortAttrs after)
  | cons other rest ih =>
    obtain ⟨front, back, hplace⟩ := ih
    obtain ⟨front', back', hplace'⟩ := exists_insertAttr_append other name front back
    refine ⟨front', back', fun value ↦ ?_⟩
    rw [← hplace', ← hplace, List.cons_append, sortAttrs, List.foldr_cons]
    rfl

/-- Whatever text an attribute is set to, it is written between the same characters. -/
theorem exists_printTag_set (tag : Tag) (name : String) :
    ∃ before after, ∀ text,
      printTag (tag.set name text) = before ++ printAttr (name, .plain text) ++ after := by
  obtain ⟨front, back, hset⟩ := Keyed.exists_set name tag.attrs
  obtain ⟨front', back', hsort⟩ := exists_sortAttrs name front back
  refine ⟨tag.name ++ String.join (front'.map printAttr), String.join (back'.map printAttr),
    fun text ↦ ?_⟩
  rw [printTag, Tag.set, hset, hsort, List.map_append, List.map_cons, String.join_append,
    String.join_cons]
  simp only [String.append_assoc]

end Markup

/-! ### Documents -/

namespace Document

variable {d : Document} {place : Place} {n : Node}

/-- Whatever element stands at a place of a document, it is written between the same characters. -/
theorem exists_print_replaceAt (h : Node.atPlace? d place = some n) :
    ∃ before after, ∀ tag children,
      Document.print (Node.replaceAt [.element tag children] d place) =
        before ++ (Node.element tag children).print none ++ after := by
  obtain ⟨around, before, after, hwritten⟩ := @Node.exists_printAll_replaceAt place n d none h
  refine ⟨before, after, fun tag children ↦ ?_⟩
  rw [Document.print, hwritten, Node.print_element]

/-- Whatever the text of an element at a place is, it is written escaped between the same
characters, unless the content of the element is raw text. -/
theorem exists_print_text (h : Node.atPlace? d place = some n) {tag : Tag}
    (hname : tag.name ∉ Markup.rawTextNames) :
    ∃ before after, ∀ text,
      Document.print (Node.replaceAt [.element tag [.text .characters text]] d place) =
        before ++ Reference.escape text ++ after := by
  obtain ⟨before, after, hwritten⟩ := exists_print_replaceAt h
  refine ⟨before ++ ("<" ++ Markup.printTag tag ++ ">"), "</" ++ tag.name ++ ">" ++ after,
    fun text ↦ ?_⟩
  have htext : Node.printAll (some tag.name) [.text .characters text] = Reference.escape text := by
    have hraw : Markup.rawTextNames.contains tag.name = false := by simpa using hname
    rw [Node.printAll, Node.printAll, Node.print, Markup.printText, Option.any_some, hraw,
      if_neg Bool.false_ne_true, String.append_empty]
  rw [hwritten, Node.print_of_ne_nil none tag (List.cons_ne_nil _ _), htext]
  simp only [String.append_assoc]

/-- Whatever text an attribute of an element at a place is set to, it is written escaped and in
quotes between the same characters. -/
theorem exists_print_attribute (h : Node.atPlace? d place = some n) (tag : Tag)
    (children : List Node) (name : String) :
    ∃ before after, ∀ text,
      Document.print (Node.replaceAt [.element (tag.set name text) children] d place) =
        before ++ (" " ++ name ++ "=" ++ Markup.quotedAttr (Reference.escape text)) ++ after := by
  obtain ⟨before, after, hwritten⟩ := exists_print_replaceAt h
  obtain ⟨front, back, htag⟩ := Markup.exists_printTag_set tag name
  obtain ⟨ending, hending⟩ : ∃ ending, ∀ text,
      (Node.element (tag.set name text) children).print none =
        "<" ++ Markup.printTag (tag.set name text) ++ ending := by
    -- whether the element is closed in its tag does not hang on its attributes
    by_cases hempty : (children.isEmpty && Markup.voidNames.contains tag.name) = true
    · exact ⟨"/>", fun text ↦ by rw [Node.print]; exact if_pos hempty⟩
    · refine ⟨">" ++ Node.printAll (some tag.name) children ++ "</" ++ tag.name ++ ">",
        fun text ↦ ?_⟩
      rw [Node.print]
      refine (if_neg hempty).trans ?_
      simp only [String.append_assoc]
      rfl
  refine ⟨before ++ "<" ++ front, back ++ ending ++ after, fun text ↦ ?_⟩
  rw [hwritten, hending, htag]
  simp only [Markup.printAttr, String.append_assoc]
  rfl

end Document

end MarkupBinding
