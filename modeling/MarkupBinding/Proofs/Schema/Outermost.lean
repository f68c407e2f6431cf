import MarkupBinding.Proofs.Binding.Confinement
import MarkupBinding.Proofs.Schema.Agreement

/-!
# The outermost component

A schema describes a document (`Schema.Describes`) when it is what extraction reads off the
document, nothing was dropped on the way, and all data annotations lie in the outermost component.
Such a schema covers the outermost component (`Schema.Describes.covers`), and what the toggles leave
of it (`Extraction.CoversOutermost.filterOff`).

Binding and extraction treat the outermost component differently: extraction has its scope already
when it reads the bindings of the element itself, binding opens it for the children only. All that
the element leads to follows extraction as soon as the scope that binding has for the children is
related to the one of extraction, and the scope it has for a collection is, if the element is one
(`Binding.Tracks.follows_of_outermost`).
-/

set_option autoImplicit false
set_option relaxedAutoImplicit false

namespace MarkupBinding

open Binding

/-- The schema is extracted from a document without dropping anything, and all of the document's
data annotations lie in its outermost component, the element with the given tag and children. Paths
of collections are dotted, each collection owns one item mark, and no attribute binding sets a mark.
-/
structure Schema.Describes (schema : Schema) (d : Document) (tag : Tag) (children : List Node) :
    Prop where
  outermost : d.outermostComponent? = some (.element tag children)
  extracted : (d.extract true).fault = none ∧ (d.extract true).value = some schema
  complete : ∀ entry ∈ (d.extract true).reports, entry.notice? = none
  confined : ∀ n ∈ d, (Node.element tag children).ConfinedTo n
  regular : ∀ e ∈ Node.elementsAll d, Extraction.Regular e
  marks : ∀ t ∈ d.tags, t.KeepsMarks

/-- Extraction of a document has seen an element inside scopes. -/
def Document.Sees (d : Document) (tag : Tag) (ancestors : Extraction.Ancestors) : Prop :=
  Extraction.Report.visited tag ancestors ∈ (d.extract true).reports

/-- Coverage of the outermost component is kept when elements below it are switched off. -/
theorem Extraction.CoversOutermost.filterOff {seen : Tag → Ancestors → Prop} {root : Component}
    {ancestors : Ancestors} {tag : Tag} {children : List Node} (off : String → Bool)
    (h : CoversOutermost seen root ancestors tag children) :
    CoversOutermost seen root ancestors tag (Node.filterOffAll off children).1 := by
  have hall : ∀ {around : Option (Ancestors × Address)},
      (∀ n ∈ children, Covers seen root ancestors around n) →
      ∀ n ∈ (Node.filterOffAll off children).1, Covers seen root ancestors around n := by
    intro around hchildren n hn
    obtain ⟨original, horiginal, -, rfl⟩ := (Node.mem_filterOffAll_fst off).1 hn
    exact (hchildren original horiginal).filterOff off
  constructor
  · exact h.declared
  · intro hplain
    exact hall (h.plain hplain)
  · intro raw hmark
    obtain ⟨address, hlist, hcovers⟩ := h.collection raw hmark
    exact ⟨address, hlist, hall hcovers⟩

/-! ### Documents with a schema -/

namespace Schema.Describes

variable {schema : Schema} {d : Document} {tag : Tag} {children : List Node}

/-- The outermost component is an element of the document. -/
theorem mem_elementsAll (h : schema.Describes d tag children) :
    (tag, children) ∈ Node.elementsAll d := by
  obtain ⟨t, cs, heq, hin, -⟩ := Document.exists_of_outermostComponent? h.outermost
  obtain ⟨rfl, rfl⟩ := Node.element.inj heq
  exact hin

/-- The schema has the name that the outermost component is marked with. -/
theorem mark?_component (h : schema.Describes d tag children) :
    tag.mark? Mark.component = some schema.name := by
  obtain ⟨t, cs, heq, -, hdeclares⟩ := Document.exists_of_outermostComponent? h.outermost
  obtain ⟨rfl, rfl⟩ := Node.element.inj heq
  obtain ⟨name, hname⟩ := Option.isSome_iff_exists.1 hdeclares
  have hvalue := h.extracted.2
  simp only [Document.extract, h.outermost, Walk.value_map, hname, Option.getD_some] at hvalue
  obtain rfl := Option.some.inj hvalue
  exact hname

/-- Extraction walks the outermost component. -/
theorem extract_eq (h : schema.Describes d tag children) (includeEmpty : Bool) :
    d.extract includeEmpty =
      (Extraction.visitOutermost schema.name tag children).map fun root ↦
        some ⟨schema.name, if includeEmpty then root else root.prune, d.toggleFlags⟩ := by
  simp only [Document.extract, h.outermost, h.mark?_component, Option.getD_some]

/-- The schema covers the outermost component. -/
theorem covers (h : schema.Describes d tag children) :
    Extraction.CoversOutermost d.Sees schema.root ⟨⟨schema.name, []⟩, []⟩ tag children := by
  have hextract := h.extract_eq true
  obtain ⟨hfault, hvalue⟩ := h.extracted
  rw [hextract, Walk.fault_map] at hfault
  rw [hextract, Walk.value_map] at hvalue
  have hroot : schema.root = (Extraction.visitOutermost schema.name tag children).value :=
    (congrArg Schema.root (Option.some.inj hvalue)).symm
  rw [hroot]
  apply Extraction.coversOutermost_of_visitOutermost hfault
  · intro entry hentry
    have hin : entry ∈ (d.extract true).reports := by rwa [hextract, Walk.reports_map]
    have hnotice := h.complete entry hin
    cases entry with
    | visited t a => exact ⟨t, a, rfl, hin⟩
    | propertyDropped scope source names => cases hnotice
    | collectionDropped collection scope => cases hnotice
  · intro e he
    rw [Node.elements] at he
    rcases List.mem_cons.1 he with rfl | hbelow
    · exact h.regular _ h.mem_elementsAll
    · exact h.regular e (Node.elementsAll_subset_elementsAll h.mem_elementsAll hbelow)

/-- What the toggles leave below the outermost component can be walked in step with extraction. -/
theorem suitable (h : schema.Describes d tag children) (off : String → Bool) {outside : List Scope}
    (hroot : outside = [] → ∀ t ∈ Node.tagsAll children, t.mark? Mark.component ≠ some rootScope) :
    Suitable (Node.filterOffAll off children).1 outside := by
  have hsub : Node.elementsAll children ⊆ Node.elementsAll d :=
    Node.elementsAll_subset_elementsAll h.mem_elementsAll
  have hleft : ∀ {t : Tag}, t ∈ Node.tagsAll (Node.filterOffAll off children).1 →
      t ∈ Node.tagsAll children := fun ht ↦ Node.tagsAll_filterOffAll_subset off children ht
  constructor
  · intro t ht
    obtain ⟨cs, hin⟩ := Node.mem_tagsAll_iff_exists.1 (hleft ht)
    exact h.marks t (Node.mem_tagsAll_of_mem_elementsAll (hsub hin))
  · rintro ⟨t, cs⟩ he hcollection
    obtain ⟨n, hn, hin⟩ := Node.mem_elementsAll_iff.1 he
    obtain ⟨original, horiginal, -, rfl⟩ := (Node.mem_filterOffAll_fst off).1 hn
    obtain ⟨before, hbefore, rfl⟩ := Node.exists_mem_elements_of_filterOff off original hin
    obtain ⟨raw, hraw⟩ := Option.isSome_iff_exists.1 hcollection
    have hregular := h.regular (t, before)
      (hsub (Node.elements_subset_elementsAll horiginal hbefore))
    exact Nat.le_trans (Node.itemCountAll_filterOffAll_le off before)
      (Nat.le_of_eq (hregular raw hraw).2)
  · intro houtside t ht
    exact hroot houtside t (hleft ht)

theorem keepsMarks (h : schema.Describes d tag children) : tag.KeepsMarks :=
  h.marks tag (Node.mem_tagsAll_of_mem_elementsAll h.mem_elementsAll)

/-- The outermost component owns one item mark at most after the toggles, if it is a collection. -/
theorem itemCountAll_le (h : schema.Describes d tag children) (off : String → Bool) {raw : String}
    (hmark : tag.mark? Mark.collection = some raw) :
    Node.itemCountAll (Node.filterOffAll off children).1 ≤ 1 :=
  Nat.le_trans (Node.itemCountAll_filterOffAll_le off children)
    (Nat.le_of_eq (h.regular _ h.mem_elementsAll raw hmark).2)

/-- What the toggles leave of the document is confined to what they leave of the outermost
component. -/
theorem confinedTo_filterOff (h : schema.Describes d tag children) (input : Value) :
    ∀ n ∈ (d.filterToggles input).1,
      (Node.element tag (Node.filterOffAll input.switchesOff children).1).ConfinedTo n := by
  intro n hn
  obtain ⟨original, horiginal, -, rfl⟩ := (Node.mem_filterOffAll_fst _).1 hn
  rw [← Node.filterOff_element_fst]
  exact (h.confined original horiginal).filterOff _

/-- Binding stops where it does in the outermost component, if the toggles leave it. -/
theorem fault_bind (h : schema.Describes d tag children) (input : Value) :
    (d.bind input).fault =
      if (Document.outermostComponent? (d.filterToggles input).1).isSome then
        (Visit.run ⟨.root input, none,
          .element tag (Node.filterOffAll input.switchesOff children).1⟩).fault
      else none := by
  apply Document.fault_bind_of_confinedTo
  · rw [Node.find?, Tag.declaresComponent, h.mark?_component]
    rfl
  · exact h.confinedTo_filterOff input

end Schema.Describes

/-! ### The first step -/

namespace Binding

open Extraction

variable {rel : Stack → Ancestors → Prop} {seen : Tag → Ancestors → Prop} {root : Component}
  {outside : List Scope} {stack : Stack} {ancestors : Ancestors} {tag : Tag} {children : List Node}
  {w : Visit}

/-- What the outermost component leads to follows extraction, if its scope is related to the one of
extraction: for the children of an element that is no collection, and for the items of one that is.
-/
theorem Tracks.follows_of_outermost (htracks : Tracks root outside rel)
    (hcovers : CoversOutermost seen root ancestors tag children) (hkeeps : tag.KeepsMarks)
    (hcount : ∀ raw, tag.mark? Mark.collection = some raw → Node.itemCountAll children ≤ 1)
    (hopen : rel (Binding.enter stack tag) ancestors)
    (hown : ∀ raw items, tag.mark? Mark.collection = some raw →
      (itemsFor stack raw).value = some items → rel stack ancestors)
    (hw : Visit.LeadsTo ⟨stack, none, .element tag children⟩ w) : Follows rel seen root w := by
  have hbound : ∀ name, Mark.isMark name = true →
      (bindAttributes stack tag).value.mark? name = tag.mark? name :=
    fun name hname ↦ mark?_bindAttributes_of_keepsMarks hkeeps hname
  have hcollected : ∀ raw items, (bindAttributes stack tag).value.mark? Mark.collection = some raw →
      (itemsFor stack raw).value = some items → Follows rel seen root w := by
    intro raw items hraw hitems
    have hmark := (hbound _ (by decide)).symm.trans hraw
    obtain ⟨address, hlist, hbelow⟩ := hcovers.collection raw hmark
    exact htracks.follows_of_collection (hown raw items hmark hitems) hlist hbelow
      (hcount raw hmark) hraw hw
  cases hw with
  | child _ _ hplain hn =>
    rw [hbound _ (by decide)] at hplain
    rw [enter_congr (hbound _ (by decide))]
    exact ⟨ancestors, none, _, hopen, hcovers.plain hplain _ (List.mem_of_getElem? hn), Or.inl rfl,
      fun _ ↦ rfl, fun hne ↦ absurd rfl hne⟩
  | around _ _ hcollection _ hitems _ => exact hcollected _ _ hcollection hitems
  | copy _ _ hcollection _ hitems _ => exact hcollected _ _ hcollection hitems

end Binding

section FirstStep

variable {schema : Schema} {d : Document} {tag : Tag} {children : List Node} {outside : List Scope}
  {stack : Stack} {w : Visit}

/-- What is visited below the outermost component follows extraction, if the scopes for its children
and for its items are related to those of extraction. -/
theorem Schema.Describes.follows_of_leadsTo {rel : Stack → Extraction.Ancestors → Prop}
    (h : schema.Describes d tag children) (htracks : Tracks schema.root outside rel)
    (off : String → Bool) (hopen : rel (enter stack tag) ⟨⟨schema.name, []⟩, []⟩)
    (hown : ∀ raw items, tag.mark? Mark.collection = some raw →
      (itemsFor stack raw).value = some items → rel stack ⟨⟨schema.name, []⟩, []⟩)
    (hw : Visit.LeadsTo ⟨stack, none, .element tag (Node.filterOffAll off children).1⟩ w) :
    Follows rel d.Sees schema.root w ∧ w.From (Node.filterOffAll off children).1 :=
  ⟨htracks.follows_of_outermost (h.covers.filterOff off) h.keepsMarks
      (fun _ hmark ↦ h.itemCountAll_le off hmark) hopen hown hw,
    Visit.From.of_leadsTo (fun _ hhold ↦ by cases hhold) hw⟩

/-- What is visited below the outermost component agrees with extraction, if the scopes for its
children and for its items do. -/
theorem Schema.Describes.agrees_of_leadsTo (h : schema.Describes d tag children)
    (off : String → Bool)
    (hopen : Mirrors schema.root outside (enter stack tag) ⟨⟨schema.name, []⟩, []⟩)
    (hown : ∀ raw items, tag.mark? Mark.collection = some raw →
      (itemsFor stack raw).value = some items →
      Mirrors schema.root outside stack ⟨⟨schema.name, []⟩, []⟩)
    (hw : Visit.LeadsTo ⟨stack, none, .element tag (Node.filterOffAll off children).1⟩ w) :
    Agrees d.Sees schema.root outside w ∧ w.From (Node.filterOffAll off children).1 :=
  h.follows_of_leadsTo (tracks_mirrors schema.root outside) off hopen hown hw

end FirstStep

end MarkupBinding
