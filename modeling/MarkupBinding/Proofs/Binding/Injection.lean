import MarkupBinding.Proofs.Binding.Frame
import MarkupBinding.Proofs.Markup.Escaping
import MarkupBinding.Proofs.Markup.Printing

/-!
# Bound values make no markup

A value gets into a document as a text: a text binding leaves an element with this text alone
(`bound_of_writesText`), and an attribute binding leaves its target with it
(`lookup_of_writesAttribute`). Printing then writes it escaped, between characters that do not hang
on it (`Document.exists_print_text`, `Document.exists_print_attribute`), and what is written conveys
the value without being markup (`Reference.escape_conveys`, `Reference.quotedAttr_spec`).

`Document.render_conveys` puts the two halves together for every element that binding visits.
-/

set_option autoImplicit false
set_option relaxedAutoImplicit false

namespace MarkupBinding

namespace Binding

variable {stack : Stack} {tag : Tag} {children : List Node} {text target : String}

/-- The text binding of an element writes a text, which the value of its path is shown as. -/
def WritesText (stack : Stack) (tag : Tag) (text : String) : Prop :=
  ∃ raw path value, tag.mark? Mark.textContent = some raw ∧ Path.ofBinding raw = .ok path ∧
    stack.resolve path = .ok value ∧ text = value.display

/-- An attribute binding of an element writes a text into its target, and none behind it sets the
target again. -/
def WritesAttribute (stack : Stack) (tag : Tag) (target text : String) : Prop :=
  ∃ front back, settings stack tag = front ++ (target, .plain text) :: back ∧
    target ∉ Keyed.keys back

/-- Where the names of the attributes are distinct, every setting is written. -/
theorem writesAttribute_iff (hnames : (Keyed.keys tag.attrs).Nodup) :
    WritesAttribute stack tag target text ↔ (target, .plain text) ∈ settings stack tag := by
  constructor
  · rintro ⟨front, back, hsettings, -⟩
    rw [hsettings]
    exact List.mem_append_right _ List.mem_cons_self
  · intro hin
    obtain ⟨front, back, hsettings⟩ := List.append_of_mem hin
    have hnodup := nodup_keys_settings stack hnames
    rw [hsettings, Keyed.keys_append] at hnodup
    exact ⟨front, back, hsettings, (List.nodup_cons.1 (List.nodup_append.1 hnodup).2.1).1⟩

/-- The text that a text binding writes takes the place of the children. -/
theorem boundText_of_writesText (h : WritesText stack tag text) :
    boundText stack tag = .done (some [.text .characters text]) := by
  obtain ⟨raw, path, value, hmark, hpath, hvalue, rfl⟩ := h
  simp only [boundText, hmark, hpath, resolve, hvalue]
  rfl

/-- An element whose text binding was carried out is left with the text alone. -/
theorem bound_of_writesText {hold : Option Place} (hheld : isHeld hold = false)
    (hfault : (Visit.run ⟨stack, hold, .element tag children⟩).fault = none)
    (h : WritesText stack tag text) :
    Bound stack (.element tag children)
      (.element (bindAttributes stack tag).value [.text .characters text]) := by
  have htext := boundText_of_writesText h
  have hplain : (bindAttributes stack tag).value.mark? Mark.collection = none := by
    cases hcollection : (bindAttributes stack tag).value.mark? Mark.collection with
    | none => rfl
    | some raw =>
      -- a collection whose children a text replaced has no stencil, which is a fault
      have hkept := (Visit.run_of_collection hheld hfault hcollection).1
      rw [htext] at hkept
      cases hkept
  rw [Visit.fault_run_element_eq_none_iff hheld] at hfault
  refine (bound_element_iff hplain).2 ⟨hfault.1, hfault.2.1, _, rfl, ?_⟩
  rw [Visit.shown, htext, Walk.value_done, Option.getD_some]
  exact .cons (bound_text_iff.2 rfl) .nil

/-- The text that an attribute binding writes is that of its target afterwards. -/
theorem lookup_of_writesAttribute (hfault : (bindAttributes stack tag).fault = none)
    (h : WritesAttribute stack tag target text) :
    (bindAttributes stack tag).value.attrs.lookup target = some (.plain text) := by
  obtain ⟨front, back, hsettings, hlast⟩ := h
  have hsplit : Keyed.update tag.attrs (settings stack tag) =
      Keyed.update (Keyed.set target (.plain text) (Keyed.update tag.attrs front)) back := by
    rw [hsettings]
    exact List.foldl_append
  rw [value_bindAttributes hfault, hsplit, Keyed.lookup_update_of_not_mem hlast,
    Keyed.lookup_set_self]

end Binding

open Binding

/-- Rendering gives the markup of the bound document when binding reaches its end. -/
theorem Document.render_eq_ok_iff {d : Document} {input : Value} {markup : String} :
    d.render input = .ok markup ↔
      (d.bind input).fault = none ∧ Document.print (d.bind input).value = markup := by
  rw [render, Walk.result]
  cases (d.bind input).fault with
  | some e => exact ⟨fun h ↦ (by cases h), fun h ↦ (by cases h.1)⟩
  | none => exact ⟨fun h ↦ ⟨rfl, Except.ok.inj h⟩, fun h ↦ congrArg Except.ok h.2⟩

/-- The characters that stand for a bound value in the markup. A text binding of an element leaves
it with the text alone; wherever the bound document has this element, the markup has the text
escaped, and it has any other text in its place in the same way. An attribute binding leaves its
target with the text; wherever the bound document has the tag, the markup has the text in quotes. In
both cases what is written conveys the text without being markup. -/
theorem Document.render_conveys {d : Document} {input : Value} {markup : String}
    (h : d.render input = .ok markup) {tag : Tag} {children : List Node} {stack : Stack}
    (hvisited : Report.visited tag children stack ∈ (d.bind input).reports) :
    let out := (d.bind input).value
    let bound := (bindAttributes stack tag).value
    (∀ text, WritesText stack tag text →
      Bound stack (.element tag children) (.element bound [.text .characters text]) ∧
      (tag.name ∉ Markup.rawTextNames → ∀ place,
        Node.atPlace? out place = some (.element bound [.text .characters text]) →
        ∃ before after, markup = before ++ Reference.escape text ++ after ∧
          Reference.Conveys Reference.textReferences (Reference.escape text) text ∧
          ∀ other, Document.print (Node.replaceAt [.element bound [.text .characters other]] out
            place) = before ++ Reference.escape other ++ after)) ∧
    ∀ target text, WritesAttribute stack tag target text →
      bound.attrs.lookup target = some (.plain text) ∧
      ∀ place result, Node.atPlace? out place = some (.element bound result) →
        ∃ before quote written after, (quote = '"' ∨ quote = '\'') ∧
          markup = before ++ (" " ++ target ++ "=" ++
            String.ofList (quote :: written.toList ++ [quote])) ++ after ∧
          quote ∉ written.toList ∧
          Reference.Conveys Reference.valueReferences written text ∧
          ∀ other, Document.print (Node.replaceAt [.element (bound.set target other) result] out
            place) = before ++ (" " ++ target ++ "=" ++
              Markup.quotedAttr (Reference.escape other)) ++ after := by
  intro out bound
  obtain ⟨hbind, rfl⟩ := Document.render_eq_ok_iff.1 h
  obtain ⟨hold, hheld, hv⟩ := Document.visits_of_visited hvisited
  have hfault := Document.fault_run_eq_none_of_visits hbind hv
  have hattributes : (bindAttributes stack tag).fault = none := by
    rw [Visit.fault_run_element hheld, Option.or_eq_none_iff, Option.or_eq_none_iff] at hfault
    exact hfault.2.1
  have hname : (bindAttributes stack tag).value.name = tag.name := by
    rw [value_bindAttributes hattributes]
  refine ⟨fun text htext ↦ ⟨bound_of_writesText hheld hfault htext, fun hraw place hplace ↦ ?_⟩,
    fun target text hwrites ↦ ?_⟩
  · rw [← hname] at hraw
    obtain ⟨before, after, hprint⟩ := Document.exists_print_text hplace hraw
    refine ⟨before, after, ?_, Reference.escape_conveys text, hprint⟩
    rw [← hprint, Node.replaceAt_self hplace]
  · have hlookup := lookup_of_writesAttribute hattributes hwrites
    refine ⟨hlookup, fun place result hplace ↦ ?_⟩
    obtain ⟨before, after, hprint⟩ := Document.exists_print_attribute hplace bound result target
    obtain ⟨quote, written, hquote, hquoted, hfree, hconveys⟩ := Reference.quotedAttr_spec text
    refine ⟨before, quote, written, after, hquote, ?_, hfree, hconveys, hprint⟩
    -- the document is the one with the target set to what it already has
    have hset : bound.set target text = bound := by
      rw [Tag.set, Keyed.set_of_lookup hlookup]
    rw [← hquoted, ← hprint, hset, Node.replaceAt_self hplace]

/-- A paragraph with a note as its text and as its title. -/
def notePage : Document :=
  [.element ⟨"p", [(Mark.textContent, .plain "note"),
    ("data-attribute-title", .plain "$\x7bnote\x7d")]⟩ []]

theorem render_conveys_notePage :
    let note := "\"It's\" <b>&copy"
    let input := Value.object [("note", .string note)]
    ∃ markup, notePage.render input = .ok markup ∧
      (∃ before after, markup = before ++ "\"It's\" &lt;b&gt;&amp;copy" ++ after) ∧
      ∃ before quote written after, markup = before ++ (" title=" ++
          String.ofList (quote :: written.toList ++ [quote])) ++ after ∧
        quote ∉ written.toList ∧
        Reference.Conveys Reference.valueReferences written note := by
  intro note input
  have hrender : notePage.render input =
      .ok (Document.print (notePage.bind input).value) := by
    rw [Document.render_eq_ok_iff]
    exact ⟨by decide +kernel, rfl⟩
  have hvisited : Report.visited ⟨"p", [(Mark.textContent, .plain "note"),
      ("data-attribute-title", .plain "$\x7bnote\x7d")]⟩ [] (.root input) ∈
        (notePage.bind input).reports := List.mem_of_getElem? (i := 0) (by rfl)
  obtain ⟨htext, hattribute⟩ := Document.render_conveys hrender hvisited
  have hescape : Reference.escape note = "\"It's\" &lt;b&gt;&amp;copy" := by decide +kernel
  refine ⟨_, hrender, ?_, ?_⟩
  · rw [← hescape]
    obtain ⟨before, after, hmarkup, -⟩ :=
      (htext note ⟨"note", ⟨"note", none⟩, .string note, by decide +kernel, by rfl, by rfl,
        by rfl⟩).2 (by decide +kernel) [0] (by rfl)
    exact ⟨before, after, hmarkup⟩
  · obtain ⟨before, quote, written, after, -, hmarkup, hfree, hconveys, -⟩ :=
      (hattribute "title" note ((writesAttribute_iff (by decide +kernel)).2
        (by decide +kernel))).2 [0] _ (by rfl)
    exact ⟨before, quote, written, after, hmarkup, hfree, hconveys⟩

end MarkupBinding
