import MarkupBinding.Proofs.Binding.Coupling
import MarkupBinding.Proofs.Binding.Origin
import MarkupBinding.Proofs.Markup.ToggleFlags
import MarkupBinding.Proofs.Record.Reading
import MarkupBinding.Proofs.Schema.WellDeclared

/-!
# Rendering a record

An input of the shape of a template's schema is read as a record, and the template renders the
record like the input: to the same markup, or to the same error
(`Document.exists_record_render_eq`). This needs names that cannot be taken for each other's field
names, both those of the schema and those that the template looks up values under.

The names that a template looks up are not all written in it. An attribute binding may fill in a
component mark or a collection mark, and then the input says which name is looked up. A name that is
the field name of another one finds a value in the record where the input has none
(`not_render_eq_sourcedSheet`). `Report.markNames` gives the names in the marks of a visited element
as its attribute bindings leave them; where no binding sets a mark, they are written in the template
(`Document.markNames_subset_readNames`).

The proof is a `Coupling` of the input with the record, in which only equal texts may stand for each
other.
-/

set_option autoImplicit false
set_option relaxedAutoImplicit false

namespace MarkupBinding

open RecordName RecordLayout

namespace Binding

namespace Report

/-- The names under which the marks of a visited element look up values once its attribute bindings
are in place. -/
def markNames : Report → List String
  | visited tag _ stack => (bindAttributes stack tag).value.markNames
  | leftUnbound _ _ => []
  | contentRemoved _ _ => []

/-- Whether every path of a visited element that it shows the value of yields a scalar, if it
resolves. -/
def showsScalars : Report → Bool
  | visited tag _ stack => tag.shownPaths.all fun path ↦
    match stack.resolve path with
    | .ok value => value.isScalar
    | .error _ => true
  | leftUnbound _ _ => true
  | contentRemoved _ _ => true

end Report

/-- An input and the record that it is read as stand for each other under the given names, and
scalars show as the same text. -/
def Coupling.typed (names : List String) : Coupling where
  values := Typed (askedOf names)
  texts := Eq
  names := askedOf names
  shown value := value.isScalar = true
  property h hname := h.property? hname
  items h := h.items
  flag h := h.eq_false_iff
  display h hscalar := h.display_eq hscalar
  refl _ := rfl
  append := by
    rintro x y x' y' rfl rfl
    rfl

end Binding

namespace Document

open Binding

variable {d : Document} {input : Value} {tag : Tag} {children : List Node} {stack : Stack}

/-- The names that a template looks up values under as it is written: those of its text and
attribute paths, of its components and of its collection paths. -/
def readNames (d : Document) : List String :=
  d.tags.flatMap fun t ↦ t.asked t

/-- A visited element has the attribute bindings and, but for the item mark, the marks of an element
of the document. -/
theorem exists_tag_of_visited (h : Report.visited tag children stack ∈ (d.bind input).reports) :
    ∃ original ∈ d.tags, tag.attributeBindings = original.attributeBindings ∧
      ∀ name, name ≠ Mark.collectionItem → tag.mark? name = original.mark? name := by
  obtain ⟨hold, -, hv⟩ := visits_of_visited h
  obtain ⟨original, hin, hbindings, hmarks⟩ := (from_of_visits hv).exists_original
  exact ⟨original, Node.tagsAll_filterOffAll_subset _ d (Node.mem_tagsAll_of_mem_elementsAll hin),
    hbindings, hmarks⟩

/-- What a visited element shows is looked up under names that are written in the document. -/
theorem name_mem_readNames (h : Report.visited tag children stack ∈ (d.bind input).reports)
    {path : Path} (hpath : path ∈ tag.shownPaths) : path.name ∈ d.readNames := by
  obtain ⟨original, hin, hbindings, hmarks⟩ := exists_tag_of_visited h
  rw [Tag.shownPaths, hbindings, hmarks _ (by decide)] at hpath
  exact List.mem_flatMap.2 ⟨original, hin, Tag.mem_asked_of_shown hpath⟩

/-- Where no attribute binding sets a mark, the names in the marks of visited elements are written
in the document. -/
theorem markNames_subset_readNames (hmarks : ∀ t ∈ d.tags, t.KeepsMarks) :
    ∀ entry ∈ (d.bind input).reports, entry.markNames ⊆ d.readNames := by
  intro entry hentry name hname
  cases entry with
  | visited tag children stack =>
    obtain ⟨original, hin, hbindings, hsame⟩ := exists_tag_of_visited hentry
    have hkeeps : tag.KeepsMarks := by
      intro binding hbinding
      exact hmarks original hin binding (hbindings ▸ hbinding)
    have hnames : (bindAttributes stack tag).value.markNames = original.markNames := by
      rw [Tag.markNames, Tag.markNames, mark?_bindAttributes_of_keepsMarks hkeeps (by decide),
        mark?_bindAttributes_of_keepsMarks hkeeps (by decide), hsame _ (by decide),
        hsame _ (by decide)]
    rw [Report.markNames, hnames] at hname
    exact List.mem_flatMap.2 ⟨original, hin, List.mem_append_right _ hname⟩
  | leftUnbound | contentRemoved => exact absurd hname List.not_mem_nil

/-- The flags of a document are those that its elements can be switched off by, but for the empty
one. -/
theorem mem_toggleFlags_of_attr? {t : Tag} (ht : t ∈ d.tags) {flag : String}
    (hflag : t.attr? Mark.toggleable = some flag) : flag ∈ d.toggleFlags ∨ flag = "" := by
  by_cases hempty : flag = ""
  · exact Or.inr hempty
  · exact Or.inl (mem_toggleFlags_iff.2 ⟨hempty, t, ht, hflag⟩)

/-- What is reported while an input is bound is good for the coupling with its record, if the names
are among those given and scalars are shown. -/
theorem good_typed {names : List String} (hreads : d.readNames ⊆ names)
    (hwritten : ∀ entry ∈ (d.bind input).reports, entry.markNames ⊆ names)
    (hshown : ∀ entry ∈ (d.bind input).reports, entry.showsScalars = true) :
    ∀ entry ∈ (d.bind input).reports, (Coupling.typed names).Good entry := by
  intro entry hentry
  cases entry with
  | visited tag children stack =>
    refine ⟨fun name hname ↦ Or.inl ?_, fun path hpath value hvalue ↦ ?_,
      Or.inr fun _ _ h ↦ h⟩
    · rcases List.mem_append.1 hname with hpaths | hmark
      · obtain ⟨path, hpath, rfl⟩ := List.mem_map.1 hpaths
        exact hreads (name_mem_readNames hentry hpath)
      · exact hwritten _ hentry hmark
    · have hscalar := List.all_eq_true.1 (hshown _ hentry) path hpath
      rw [hvalue] at hscalar
      exact hscalar
  | leftUnbound | contentRemoved => trivial

/-- A schema that is read off a document has no empty names. -/
theorem named_extract {includeEmpty : Bool} {schema : Schema}
    (h : (d.extract includeEmpty).result = .ok (some schema)) : schema.Named := by
  obtain ⟨tag, children, -, hname, -⟩ := exists_of_extract h
  have hdeclared := (allWellDeclared_extract h).1
  refine ⟨(Tag.isLabel_of_mark? hname).ne_empty, fun node hnode hempty ↦ ?_⟩
  rcases List.mem_append.1 hempty with hmem | hmem
  · obtain ⟨pair, hpair, hkey⟩ := List.mem_map.1 hmem
    exact ((hdeclared node hnode).component pair hpair).1.ne_empty hkey
  · obtain ⟨pair, hpair, hkey⟩ := List.mem_map.1 hmem
    have hidentifier := ((hdeclared node hnode).property pair hpair).1
    exact (Text.isLabel_of_isIdentifier hidentifier).ne_empty hkey

/-- A template renders an input that fits its schema like the record that the input is read as, if
the names of the schema, of the template and of the marks that attribute bindings set are separate,
no component has a property and a component of one name, and no toggle flag is called like the
outermost component or something in it. -/
theorem exists_record_render_eq {includeEmpty : Bool} {schema : Schema}
    (hextract : (d.extract includeEmpty).result = .ok (some schema)) {names : List String}
    (hsep : Separate names) (hschema : schema.names ⊆ names) (hreads : d.readNames ⊆ names)
    (hwritten : ∀ entry ∈ (d.bind input).reports, entry.markNames ⊆ names)
    (hparts : schema.root.PartsApart) (hflags : schema.FlagsApart)
    (hfits : schema.fits input = true)
    (hshown : ∀ entry ∈ (d.bind input).reports, entry.showsScalars = true) :
    ∃ record, schema.checkInput input = .ok record ∧ d.render record = d.render input := by
  obtain ⟨hkeyed, htoggles⟩ := wellKeyed_extract hextract
  have hdistinct : schema.toggles.Nodup := by
    rw [htoggles]
    exact (Keyed.distinct_spec _).1
  obtain ⟨record, hcheck, htyped⟩ := Schema.exists_record hsep hschema
    (hparts.declaresOnce hkeyed) (named_extract hextract) hdistinct hflags hfits
  have hvalues : (Coupling.typed names).values input record := htyped
  have hflagNames : ∀ t ∈ d.tags, ∀ flag, t.attr? Mark.toggleable = some flag →
      (Coupling.typed names).names flag := fun t ht flag hflag ↦
    (mem_toggleFlags_of_attr? ht hflag).imp_left fun hmem ↦
      (subset_of_names hschema).2.2 (htoggles ▸ hmem)
  obtain ⟨hfault, hvalue⟩ :=
    Coupling.parallel_bind hvalues hflagNames (good_typed hreads hwritten hshown)
  refine ⟨record, hcheck, ?_⟩
  rw [render, render, Walk.result, Walk.result, ← hfault]
  cases hend : (d.bind input).fault with
  | some e => rfl
  | none =>
    have hequal : (d.bind input).value = (d.bind record).value :=
      List.forall₂_eq_eq_eq ▸ (hvalue hend).imp fun n m halike ↦
        Node.eq_of_alike (fun _ _ h ↦ h) n halike
    rw [hequal]

end Document

/-- A schema that passes a test is read off a document. -/
theorem exists_schema_of_any (d : Document) (test : Schema → Bool)
    (h : ((d.extract false).result.toOption.bind id).any test = true) :
    ∃ schema, (d.extract false).result = .ok (some schema) ∧ test schema = true := by
  obtain ⟨schema, hschema, htest⟩ := Option.any_eq_true _ _ |>.1 h
  obtain ⟨found, hfound, rfl⟩ := Option.bind_eq_some_iff.1 hschema
  cases hresult : (d.extract false).result with
  | error e =>
    rw [hresult] at hfound
    cases hfound
  | ok value =>
    rw [hresult] at hfound
    obtain rfl := Option.some.inj hfound
    exact ⟨schema, rfl, htest⟩

/-- A sheet with the number of an order, its lines, and a note for new orders. -/
def orderSheet : Document :=
  [.element ⟨"main", [(Mark.component, .plain "root")]⟩
    [.element ⟨"h1", [(Mark.textContent, .plain "order-no")]⟩ [],
      .element ⟨"ul", [(Mark.collection, .plain "order-lines")]⟩
        [.element ⟨"li", [(Mark.collectionItem, .plain "line")]⟩
          [.element ⟨"a", [("data-attribute-href", .plain "/$\x7bline.sku\x7d"),
            (Mark.textContent, .plain "line.count")]⟩ []]],
      .element ⟨"p", [(Mark.toggleable, .plain "is-new")]⟩ []]]

theorem exists_record_render_eq_orderSheet :
    let input := Value.object [("order-no", .int 7), ("is-new", .bool false),
      ("order-lines", .list [.object [("sku", .string "A1"), ("count", .int 2)]])]
    ∃ schema, (orderSheet.extract false).result = .ok (some schema) ∧
      schema.fits input = true ∧ ∃ record, schema.checkInput input = .ok record ∧
        orderSheet.render record = orderSheet.render input := by
  intro input
  obtain ⟨schema, hextract, hmeets⟩ := exists_schema_of_any orderSheet
    (fun schema ↦ decide (Separate (schema.names ++ orderSheet.readNames) ∧
      schema.root.PartsApart ∧ schema.FlagsApart ∧ schema.fits input = true))
    (by decide +kernel)
  obtain ⟨hsep, hparts, hflags, hfits⟩ := of_decide_eq_true hmeets
  have hmarks : ∀ t ∈ orderSheet.tags, t.KeepsMarks := by decide +kernel
  exact ⟨schema, hextract, hfits, Document.exists_record_render_eq hextract hsep
    (List.subset_append_left _ _) (List.subset_append_right _ _)
    (fun entry hentry ↦ List.Subset.trans
      (Document.markNames_subset_readNames hmarks entry hentry) (List.subset_append_right _ _))
    hparts hflags hfits (by decide +kernel)⟩

/-- A sheet with order lines and a second list, whose collection mark is filled in. -/
def sourcedSheet : Document :=
  [.element ⟨"main", [(Mark.component, .plain "root")]⟩
    [.element ⟨"ul", [(Mark.collection, .plain "order-lines")]⟩
        [.element ⟨"li", [(Mark.collectionItem, .plain "line")]⟩
          [.element ⟨"b", [(Mark.textContent, .plain "line.name")]⟩ []]],
      .element ⟨"ol", [("data-attribute-data-collection", .plain "$\x7bsource\x7d")]⟩
        [.element ⟨"li", [(Mark.collectionItem, .plain "entry")]⟩
          [.element ⟨"b", [(Mark.textContent, .plain "entry.name")]⟩ []]]]]

/-- The names that are written in a template are not enough: an input that names the field of its
own order lines as the source of a second list has nothing under that name, but the record that it
is read as has the lines there. -/
theorem not_render_eq_sourcedSheet :
    ¬ ∀ (d : Document) (schema : Schema) (input : Value),
      (d.extract false).result = .ok (some schema) → Separate (schema.names ++ d.readNames) →
        schema.root.PartsApart → schema.FlagsApart → schema.fits input = true →
          (∀ entry ∈ (d.bind input).reports, entry.showsScalars = true) →
            ∃ record, schema.checkInput input = .ok record ∧ d.render record = d.render input := by
  intro hclaim
  let input := Value.object [("order-lines", .list [.object [("name", .string "A")]]),
    ("source", .string "order_lines")]
  obtain ⟨schema, hextract, hmeets⟩ := exists_schema_of_any sourcedSheet
    (fun schema ↦ decide (Separate (schema.names ++ sourcedSheet.readNames) ∧
      schema.root.PartsApart ∧ schema.FlagsApart ∧ schema.fits input = true ∧
        ((schema.checkInput input).toOption.any fun record ↦
          sourcedSheet.render record ≠ sourcedSheet.render input) = true))
    (by decide +kernel)
  obtain ⟨hsep, hparts, hflags, hfits, hdiffers⟩ := of_decide_eq_true hmeets
  obtain ⟨record, hcheck, hrender⟩ := hclaim sourcedSheet schema input hextract hsep hparts hflags
    hfits (by decide +kernel)
  rw [hcheck] at hdiffers
  simp only [Except.toOption, Option.any_some, decide_eq_true_eq] at hdiffers
  exact hdiffers hrender

end MarkupBinding
