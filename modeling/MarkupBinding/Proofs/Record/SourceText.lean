import MarkupBinding.Proofs.Record.Flattening
import MarkupBinding.Proofs.Record.Identifiers
import MarkupBinding.Proofs.Record.Literals
import MarkupBinding.Proofs.Schema.WellDeclared
import MarkupBinding.Record.Source

/-!
# The source text of records

When the source of the record types of an extracted schema is legal and means the types
(`Document.legalModule_iff_writable`). Properties and lists are named by identifiers and make no
trouble. The names of single objects are free texts: they may be written with characters that no
identifier has, and they are pasted between quotes as they stand; so is the schema's own name, into
the first line of the module. And template names of any kind may give a class the name of a reserved
word or of something that the module uses, or give two fields of a class one name.

Which characters have names and in which form identifiers are compared (compatibility composition)
are parameters, since nothing here depends on them.
-/

set_option autoImplicit false
set_option relaxedAutoImplicit false

namespace MarkupBinding

namespace RecordSource

/-- The class that is written for a record type is legal: it is called by an identifier that is
free, its fields by distinct identifiers that are free, and the text between the quotes in the line
of a field is read as the template name of the field, and as nothing else. Fields are distinct if
their names are so in the form in which identifiers are compared, which `normal` gives. -/
structure LegalClass (named : List Char → Option Char) (normal : List Char → List Char)
    (t : RecordType) : Prop where
  identifier : RecordName.isIdentifier t.name.toList = true
  free : t.name ∉ RecordName.takenWords
  fields : ∀ field ∈ t.fields, RecordName.isIdentifier field.1.name.toList = true ∧
    field.1.name ∉ RecordName.reservedWords
  distinct : (t.fields.map fun field ↦ normal field.1.name.toList).Nodup
  aliases : ∀ field ∈ t.fields, ∀ text,
    fieldLine field = "    " ++ field.1.name ++ ": " ++ field.2.label ++
      " = Field(alias=\"" ++ text ++ "\")" →
        ∀ value, StringLiteral.Reads named text.toList value ↔ value = field.1.shown.toList

/-- A text is a legal module of record types: it is that of a module whose first line is a literal
that can be read and ends there, and the classes that it defines are legal. -/
structure LegalModule (named : List Char → Option Char) (normal : List Char → List Char)
    (types : List RecordType) (text : String) : Prop where
  opening : ∃ said, text = moduleText said types ∧ StringLiteral.isReadable named said.toList = true
  classes : ∀ t ∈ types, LegalClass named normal t

/-- What is between the quotes in the line of a field is its public name as it is written. -/
theorem fieldLine_eq_iff {field : FieldName × FieldKind} {text : String} :
    fieldLine field = "    " ++ field.1.name ++ ": " ++ field.2.label ++
      " = Field(alias=\"" ++ text ++ "\")" ↔
        (RecordLayout.settledName field.1).publicName = some text := by
  rw [fieldLine]
  cases (RecordLayout.settledName field.1).publicName with
  | none =>
    constructor
    · intro h
      have hlength := congrArg String.length h
      have hopening : " = Field(alias=\"".length = 16 := by decide
      simp only [String.length_append, hopening] at hlength
      omega
    · intro h
      cases h
  | some shown => simp [String.append_assoc]

/-! ### The first line -/

/-- A module says one thing about itself. -/
theorem moduleText_inj {said other : String} {types : List RecordType}
    (h : moduleText said types = moduleText other types) : said = other := by
  have hlines : ∀ about, moduleText about types =
      "\"\"\"" ++ (about ++ ("\"\"\"" ++ "\n" ++ Text.join "\n" (bodyLines types))) := by
    intro about
    rw [moduleText, bodyLines, List.append_assoc, List.append_assoc, List.append_assoc,
      List.singleton_append, Text.join]
    simp only [String.append_assoc]
  rw [hlines, hlines, String.append_right_inj, String.append_left_inj] at h
  exact h

/-- What a module says about itself can be read exactly if the name in it can. -/
theorem isReadable_about (named : List Char → Option Char) (name : String) :
    StringLiteral.isReadable named (about name).toList =
      StringLiteral.isReadable named name.toList := by
  have hfront : StringLiteral.IsPlain "Typed records for the '".toList := by decide +kernel
  have hback : StringLiteral.IsPlain " template.".toList := by decide +kernel
  have hquote : "' template.".toList = '\'' :: " template.".toList := by decide +kernel
  have hparts : ∀ front back : String, (front ++ name ++ back).toList =
      front.toList ++ (name.toList ++ back.toList) := by
    intro front back
    rw [String.toList_append, String.toList_append, List.append_assoc]
  calc StringLiteral.isReadable named (about name).toList
      = StringLiteral.isReadable named
          ("Typed records for the '".toList ++ (name.toList ++ "' template.".toList)) :=
        congrArg (StringLiteral.isReadable named) (hparts _ _)
    _ = StringLiteral.isReadable named (name.toList ++ "' template.".toList) :=
        StringLiteral.isReadable_append_of_isPlain hfront
    _ = StringLiteral.isReadable named (name.toList ++ '\'' :: " template.".toList) :=
        congrArg (fun tail ↦ StringLiteral.isReadable named (name.toList ++ tail)) hquote
    _ = StringLiteral.isReadable named name.toList :=
        StringLiteral.isReadable_append hback (by decide +kernel)

/-! ### Fields -/

/-- A text of word characters is verbatim. -/
theorem isVerbatim_of_forall {p : Char → Bool} (hbackslash : p '\\' = false)
    (hbarred : StringLiteral.barredSigns.any p = false) {cs : List Char}
    (h : ∀ c ∈ cs, p c = true) : StringLiteral.isVerbatim cs = true := by
  induction cs with
  | nil => rfl
  | cons c rest ih =>
    obtain ⟨hc, hrest⟩ := List.forall_mem_cons.1 h
    have hplain : c ≠ '\\' := by
      rintro rfl
      rw [hbackslash] at hc
      cases hc
    have hfree : c ∉ StringLiteral.barredSigns := by
      intro hmem
      exact List.any_eq_false.1 hbarred c hmem hc
    rw [StringLiteral.isVerbatim_cons hplain, ih hrest]
    simp [hfree]

/-- The text between the quotes in the line of the field for a name is read as the name exactly if
the name is verbatim. -/
theorem reads_fieldOf_iff (named : List Char → Option Char) (name : String) :
    (∀ text, (RecordLayout.settledName (RecordLayout.fieldOf name)).publicName = some text →
        ∀ value, StringLiteral.Reads named text.toList value ↔
          value = (RecordLayout.fieldOf name).shown.toList) ↔
      StringLiteral.isVerbatim name.toList = true := by
  by_cases hempty : name = ""
  · subst hempty
    have hnone : (RecordLayout.settledName (RecordLayout.fieldOf "")).publicName = none := by
      decide +kernel
    simp [hnone, StringLiteral.isVerbatim]
  rw [RecordLayout.settledName_fieldOf, RecordName.entryName_of_ne hempty, FieldName.shown,
    RecordLayout.publicName_fieldOf]
  by_cases hsame : RecordName.fieldName name = name
  · have hverbatim : StringLiteral.isVerbatim name.toList = true := by
      rw [← hsame]
      exact isVerbatim_of_forall (p := Text.isWord) (by decide) (by decide)
        fun _ hc ↦ RecordName.isWord_of_mem_fieldName hc
    rw [if_pos hsame]
    simp [hverbatim]
  · rw [if_neg hsame, Option.getD_some, ← StringLiteral.reads_iff_eq_iff named]
    simp

/-- An identifier of the template language is verbatim. -/
theorem isVerbatim_of_isIdentifier {name : String} (h : Path.isIdentifier name.toList = true) :
    StringLiteral.isVerbatim name.toList = true :=
  isVerbatim_of_forall (p := Path.isIdentifierPart) (by decide) (by decide)
    fun _ hc ↦ Path.isIdentifierPart_of_mem h hc

/-- The class of a record type with fields for the given names is legal exactly if it is called by
an identifier that is free, the names give distinct fields, and each name is spellable and verbatim.
-/
theorem legalClass_iff {named : List Char → Option Char} {normal : List Char → List Char}
    {t : RecordType} {names : List String}
    (hfields : t.fields.map Prod.fst = names.map RecordLayout.fieldOf) :
    LegalClass named normal t ↔
      (RecordName.isIdentifier t.name.toList = true ∧ t.name ∉ RecordName.takenWords) ∧
        (names.map fun name ↦ normal (RecordName.fieldName name).toList).Nodup ∧
        ∀ name ∈ names, RecordName.isSpellable name = true ∧
          StringLiteral.isVerbatim name.toList = true := by
  have hnames : t.fields.map (fun field ↦ normal field.1.name.toList) =
      names.map fun name ↦ normal (RecordName.fieldName name).toList := by
    have hmap := congrArg (List.map fun field ↦ normal field.name.toList) hfields
    rw [List.map_map, List.map_map] at hmap
    exact hmap
  have hmem : ∀ field ∈ t.fields, ∃ name ∈ names, field.1 = RecordLayout.fieldOf name := by
    intro field hfield
    have hin := List.mem_map_of_mem (f := Prod.fst) hfield
    rw [hfields] at hin
    obtain ⟨name, hname, heq⟩ := List.mem_map.1 hin
    exact ⟨name, hname, heq.symm⟩
  have hback : ∀ name ∈ names, ∃ field ∈ t.fields, field.1 = RecordLayout.fieldOf name := by
    intro name hname
    have hin := List.mem_map_of_mem (f := RecordLayout.fieldOf) hname
    rw [← hfields] at hin
    exact List.mem_map.1 hin
  constructor
  · intro h
    refine ⟨⟨h.identifier, h.free⟩, hnames ▸ h.distinct, fun name hname ↦ ?_⟩
    obtain ⟨field, hfield, heq⟩ := hback name hname
    constructor
    · rw [← RecordName.isIdentifier_fieldName, ← RecordLayout.name_fieldOf, ← heq]
      exact (h.fields field hfield).1
    · rw [← reads_fieldOf_iff named, ← heq]
      exact fun text htext ↦ h.aliases field hfield text (fieldLine_eq_iff.2 htext)
  · rintro ⟨⟨hidentifier, hfree⟩, hdistinct, hall⟩
    refine ⟨hidentifier, hfree, fun field hfield ↦ ?_, hnames ▸ hdistinct,
      fun field hfield text hline ↦ ?_⟩
    · obtain ⟨name, hname, heq⟩ := hmem field hfield
      rw [heq, RecordLayout.name_fieldOf, RecordName.isIdentifier_fieldName]
      exact ⟨(hall name hname).1, RecordName.fieldName_not_mem_reservedWords name⟩
    · obtain ⟨name, hname, heq⟩ := hmem field hfield
      rw [fieldLine_eq_iff, heq] at hline
      rw [heq]
      exact (reads_fieldOf_iff named name).2 (hall name hname).2 text hline

end RecordSource

/-! ### Extracted schemas -/

/-- The names in a schema make no trouble in the source of its records: the schema's own can be read
in the module's first line, no class name for one is a word that the module may not use, no two in a
component give fields that are compared as one, and those of single objects are spellable and
verbatim. -/
structure Schema.Writable (named : List Char → Option Char) (normal : List Char → List Char)
    (s : Schema) : Prop where
  opening : StringLiteral.isReadable named s.name.toList = true
  classes : ∀ source ∈ s.typeSources, RecordName.className source ∉ RecordName.clashingNames
  fields : ∀ node ∈ s.root.nodes,
    (node.declared.map fun name ↦ normal (RecordName.fieldName name).toList).Nodup
  objects : ∀ node ∈ s.root.nodes, ∀ pair ∈ node.components, pair.2.array = false →
    RecordName.isSpellable pair.1 = true ∧ StringLiteral.isVerbatim pair.1.toList = true

namespace Schema

open RecordLayout RecordName

variable {s : Schema}

/-- The types of a schema are named for its names. -/
theorem namedFor_recordTypes (s : Schema) :
    List.Forall₂ NamedFor s.typeSources (s.recordTypes.map RecordType.name) :=
  (typeOf_claims s.root s.name [inputName]).1.namedFor

/-- The types of a schema are called by words that a class may not be called exactly if one of them
is named for a name with a class name among few. -/
theorem forall_name_not_mem_takenWords_iff :
    (∀ t ∈ s.recordTypes, t.name ∉ takenWords) ↔
      ∀ source ∈ s.typeSources, className source ∉ clashingNames := by
  constructor
  · intro h source hsource hclash
    rcases exists_of_mem_typeSources hsource with ⟨t, ht, hname⟩ | hinput
    · refine h t ht ((mem_takenWords_iff_of_namedFor (Or.inl hname)).2 ⟨hname, hclash⟩)
    · rw [hinput] at hclash
      exact absurd hclash (by decide)
  · intro h t ht htaken
    obtain ⟨source, hsource, hfor⟩ := exists_of_mem_forall₂ s.namedFor_recordTypes
      (List.mem_map_of_mem ht)
    exact h source hsource ((mem_takenWords_iff_of_namedFor hfor).1 htaken).2

/-- Every type has the fields for what a component declares, and every component has such a type. -/
theorem fields_recordTypes (s : Schema) :
    (∀ t ∈ s.recordTypes, ∃ node ∈ s.root.nodes,
      t.fields.map Prod.fst = node.declared.map fieldOf) ∧
    ∀ node ∈ s.root.nodes, ∃ t ∈ s.recordTypes,
      t.fields.map Prod.fst = node.declared.map fieldOf := by
  have hperm : (s.recordTypes.map fun t ↦ t.fields.map Prod.fst).Perm
      (s.root.nodes.map fun node ↦ node.declared.map fieldOf) :=
    (typeOf_claims s.root s.name [inputName]).1.fields_perm
  constructor
  · intro t ht
    obtain ⟨node, hnode, heq⟩ := List.mem_map.1 (hperm.subset (List.mem_map_of_mem ht))
    exact ⟨node, hnode, heq.symm⟩
  · intro node hnode
    obtain ⟨t, ht, heq⟩ := List.mem_map.1 (hperm.symm.subset (List.mem_map_of_mem hnode))
    exact ⟨t, ht, heq⟩

/-- In a well-declared component all names are spellable and verbatim if those of single objects
are. -/
theorem forall_declared_iff {node : Component} (h : node.WellDeclared) :
    (∀ name ∈ node.declared, isSpellable name = true ∧
        StringLiteral.isVerbatim name.toList = true) ↔
      ∀ pair ∈ node.components, pair.2.array = false → isSpellable pair.1 = true ∧
        StringLiteral.isVerbatim pair.1.toList = true := by
  have hidentifier : ∀ {name : String}, Path.isIdentifier name.toList = true →
      isSpellable name = true ∧ StringLiteral.isVerbatim name.toList = true := fun hname ↦
    ⟨isSpellable_of_isIdentifier hname, RecordSource.isVerbatim_of_isIdentifier hname⟩
  constructor
  · intro hall pair hpair _
    exact hall pair.1 (List.mem_append_left _ (List.mem_map_of_mem hpair))
  · intro hsingle name hname
    rcases List.mem_append.1 hname with hcomponent | hproperty
    · obtain ⟨pair, hpair, rfl⟩ := List.mem_map.1 hcomponent
      cases harray : pair.2.array with
      | true => exact hidentifier ((h.component pair hpair).2 harray)
      | false => exact hsingle pair hpair harray
    · obtain ⟨pair, hpair, rfl⟩ := List.mem_map.1 hproperty
      exact hidentifier (h.property pair hpair).1

/-- The source of the records of a well-declared schema is a legal module exactly if the schema's
names make no trouble. -/
theorem legalModule_recordSource_iff (named : List Char → Option Char)
    (normal : List Char → List Char) (h : s.root.AllWellDeclared) :
    RecordSource.LegalModule named normal s.recordTypes s.recordSource ↔
      s.Writable named normal := by
  obtain ⟨htypes, hnodes⟩ := fields_recordTypes s
  constructor
  · rintro ⟨⟨said, hsaid, hreadable⟩, hlegal⟩
    have hfree : ∀ t ∈ s.recordTypes, t.name ∉ takenWords := fun t ht ↦ (hlegal t ht).free
    have hnames : ∀ node ∈ s.root.nodes,
        (node.declared.map fun name ↦ normal (fieldName name).toList).Nodup ∧
        ∀ name ∈ node.declared, isSpellable name = true ∧
          StringLiteral.isVerbatim name.toList = true := by
      intro node hnode
      obtain ⟨t, ht, hfields⟩ := hnodes node hnode
      exact ((RecordSource.legalClass_iff hfields).1 (hlegal t ht)).2
    exact
      { opening := by
          rw [← RecordSource.isReadable_about, RecordSource.moduleText_inj hsaid]
          exact hreadable
        classes := forall_name_not_mem_takenWords_iff.1 hfree
        fields := fun node hnode ↦ (hnames node hnode).1
        objects := fun node hnode ↦ (forall_declared_iff (h node hnode)).1 (hnames node hnode).2 }
  · intro hwritable
    refine ⟨⟨_, rfl, (RecordSource.isReadable_about named s.name).trans hwritable.opening⟩,
      fun t ht ↦ ?_⟩
    obtain ⟨node, hnode, hfields⟩ := htypes t ht
    refine (RecordSource.legalClass_iff hfields).2 ⟨⟨?_, ?_⟩, hwritable.fields node hnode,
      (forall_declared_iff (h node hnode)).2 (hwritable.objects node hnode)⟩
    · obtain ⟨source, -, hfor⟩ := exists_of_mem_forall₂ s.namedFor_recordTypes
        (List.mem_map_of_mem ht)
      exact isIdentifier_of_namedFor hfor
    · exact forall_name_not_mem_takenWords_iff.2 hwritable.classes t ht

end Schema

namespace Document

/-- The source of the records of an extracted schema is a legal module exactly if the names in the
schema make no trouble. `named` gives the characters that have a name, `normal` the form in which
identifiers are compared. -/
theorem legalModule_iff_writable (named : List Char → Option Char)
    (normal : List Char → List Char) {d : Document} {includeEmpty : Bool} {schema : Schema}
    (h : (d.extract includeEmpty).result = .ok (some schema)) :
    RecordSource.LegalModule named normal schema.recordTypes schema.recordSource ↔
      schema.Writable named normal :=
  schema.legalModule_recordSource_iff named normal (allWellDeclared_extract h).1

/-- A page whose component holds a property with a hyphen, a list of items that are called like a
reserved word but for its capital letter, and a single object with blanks in its name. -/
def shopPage : Document :=
  [.element ⟨"main", [(Mark.component, .plain "shop")]⟩
    [.element ⟨"b", [(Mark.textContent, .plain "opening-hours")]⟩ [],
      .element ⟨"ul", [(Mark.collection, .plain "shop.classes")]⟩
        [.element ⟨"li", [(Mark.collectionItem, .plain "class"),
          (Mark.textContent, .plain "class.title")]⟩ []],
      .element ⟨"p", [(Mark.component, .plain "owner of it")]⟩ []]]

/-- The schema of the page. -/
def shopSchema : Schema :=
  ⟨"shop", ⟨[("opening-hours", textType)],
    [("classes", ⟨[("title", textType)], [], true, some "class"⟩),
      ("owner of it", .empty false none)], false, none⟩, []⟩

theorem legalModule_iff_writable_shopPage :
    (shopPage.extract true).result = .ok (some shopSchema) ∧
      (RecordSource.LegalModule (fun _ ↦ none) id shopSchema.recordTypes shopSchema.recordSource ↔
        shopSchema.Writable (fun _ ↦ none) id) ∧
      shopSchema.Writable (fun _ ↦ none) id := by
  have hextract : (shopPage.extract true).result = .ok (some shopSchema) := by rfl
  refine ⟨hextract, legalModule_iff_writable _ _ hextract, ?_, ?_, ?_, ?_⟩
  · decide +kernel
  · decide +kernel
  · decide +kernel
  · decide +kernel

/-- A page with a single object whose name has a quote in it. -/
def quotedPage : Document :=
  [.element ⟨"div", [(Mark.component, .plain "root")]⟩
    [.element ⟨"p", [(Mark.component, .plain "a\"b")]⟩ []]]

/-- The schema of the page. -/
def quotedSchema : Schema :=
  ⟨"root", ⟨[], [("a\"b", .empty false none)], false, none⟩, []⟩

/-- Not every extracted schema gives a legal module: the quote in a name ends the literal. -/
theorem not_legalModule_quotedPage :
    ¬ ∀ (named : List Char → Option Char) (normal : List Char → List Char) (d : Document)
      (includeEmpty : Bool) (schema : Schema),
      (d.extract includeEmpty).result = .ok (some schema) →
        RecordSource.LegalModule named normal schema.recordTypes schema.recordSource := by
  intro hclaim
  have hextract : (quotedPage.extract true).result = .ok (some quotedSchema) := by rfl
  have hwritable : quotedSchema.Writable (fun _ ↦ none) id :=
    (quotedSchema.legalModule_recordSource_iff _ _ (allWellDeclared_extract hextract).1).1
      (hclaim _ _ quotedPage true quotedSchema hextract)
  obtain ⟨-, hverbatim⟩ := hwritable.objects quotedSchema.root (Component.mem_nodes_self _)
    ("a\"b", .empty false none) List.mem_cons_self rfl
  exact absurd hverbatim (by decide +kernel)

end Document

end MarkupBinding
