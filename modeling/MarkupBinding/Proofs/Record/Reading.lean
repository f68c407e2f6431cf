import MarkupBinding.Proofs.Record.Holders
import MarkupBinding.Proofs.Record.Typed

/-!
# Input read as a record

`Schema.fits` tells whether an input has exactly the shape of a schema: what the outermost component
takes, and nothing else but toggle flags. The fields of an input are those of the outermost
component, or one for it, and those for the flags that are kept (`fields_inputType`). An input that
fits is read as a record that it is related to (`Schema.exists_record`), if all names of the schema
are separate, none is empty (`Schema.Named`), each is declared once and the flags are apart from the
rest (`Schema.FlagsApart`): then every flag is kept (`keptFlags_eq_toggles`).
-/

set_option autoImplicit false
set_option relaxedAutoImplicit false

namespace MarkupBinding

namespace Schema

/-- All names of a schema: those of its components and properties at any depth and its flags. -/
def names (s : Schema) : List String :=
  s.name :: s.root.nodes.flatMap Component.declared ++ s.toggles

/-- Neither the outermost component nor what is declared in it, at any depth, has an empty name. -/
def Named (s : Schema) : Prop :=
  s.name ≠ "" ∧ s.root.Named

instance (s : Schema) : Decidable s.Named :=
  inferInstanceAs (Decidable (s.name ≠ "" ∧ s.root.Named))

/-- No toggle flag is called like the outermost component or like something that it declares. -/
def FlagsApart (s : Schema) : Prop :=
  ∀ flag ∈ s.toggles, flag ≠ s.name ∧ flag ∉ s.root.declared

instance (s : Schema) : Decidable s.FlagsApart :=
  inferInstanceAs (Decidable (∀ flag ∈ s.toggles, flag ≠ s.name ∧ flag ∉ s.root.declared))

/-- The names that the input of a schema declares beside toggle flags: those of the outermost
component if it is called like the root scope, else its name. -/
def declared (s : Schema) : List String :=
  if s.name == rootScope then s.root.declared else [s.name]

/-- The field names that no flag may take: those of what the input declares, and those in the
outermost component. -/
def takenFields (s : Schema) : List String :=
  (s.declared ++ s.root.declared).map RecordName.fieldName

/-- The flags that have a field in the input. -/
def keptFlags (s : Schema) : List String :=
  RecordLayout.newFlags s.takenFields s.toggles

/-- Whether entries have what the outermost component takes, or have it under its name. -/
def holds (s : Schema) (entries : List (String × Value)) : Bool :=
  if s.name == rootScope then s.root.holds entries
  else (entries.lookup s.name).any s.root.fits

/-- Whether an input has exactly the shape of a schema; toggle flags may be there as truth values or
nulls. -/
def fits (s : Schema) : Value → Bool
  | .object entries =>
    (entries.all fun entry ↦ s.declared.contains entry.1 ||
      s.toggles.contains entry.1 && entry.2.isFlag) && s.holds entries
  | _ => false

end Schema

namespace RecordLayout

open RecordName

variable {all : List String}

section Schema

variable {s : Schema}

/-- The fields of an input beside toggle flags: those of the outermost component, or one for it. -/
def IsOwn (s : Schema) (own : List (String × FieldKind)) : Prop :=
  if s.name == rootScope then fieldsOf own = settledFields [] s.rootType.fields
  else
    own = [(entryName s.name, .nested false s.rootType.name (settledFields [] s.rootType.fields))]

/-- The names of a schema hold its own, those of its components and its flags. -/
theorem subset_of_names (h : s.names ⊆ all) :
    s.name ∈ all ∧ (∀ node ∈ s.root.nodes, node.declared ⊆ all) ∧ s.toggles ⊆ all := by
  rw [Schema.names] at h
  refine ⟨h List.mem_cons_self, fun node hnode name hname ↦ h (List.mem_append_left _ ?_),
    fun flag hflag ↦ h (List.mem_append_right _ hflag)⟩
  exact List.mem_cons_of_mem _ (List.mem_flatMap.2 ⟨node, hnode, hname⟩)

theorem declared_subset_of_names (h : s.names ⊆ all) : s.declared ⊆ all := by
  obtain ⟨hname, hdeclared, -⟩ := subset_of_names h
  rw [Schema.declared]
  split
  · exact hdeclared _ (Component.mem_nodes_self s.root)
  · exact List.cons_subset.2 ⟨hname, List.nil_subset _⟩

theorem not_mem_declared (hflags : s.FlagsApart) {flag : String} (hflag : flag ∈ s.toggles) :
    flag ∉ s.declared := by
  rw [Schema.declared]
  split
  · exact (hflags flag hflag).2
  · exact fun hmem ↦ (hflags flag hflag).1 (List.mem_singleton.1 hmem)

theorem keys_flagFields (flags : List String) : Keyed.keys (flagFields flags) = flags := by
  rw [Keyed.keys, flagFields, List.map_map]
  exact List.map_id _

/-- Separate names give the outermost component the fields that it declares. -/
theorem exists_settled_rootType (hsep : Separate all) (hall : s.root.declared ⊆ all)
    (honce : s.root.declared.Nodup) :
    ∃ nested, settledFields [] s.rootType.fields =
        fieldsOf (settledPairs (nested ++ textFields s.root.properties)) ∧
      List.Forall₂ IsNested s.root.components nested :=
  exists_settled_typeOf (nodup_map_fieldName hsep hall honce) s.name [inputName]

/-- Separate names leave every flag its field. -/
theorem keptFlags_eq_toggles (hsep : Separate all) (hall : s.names ⊆ all)
    (hdistinct : s.toggles.Nodup) (hflags : s.FlagsApart) : s.keptFlags = s.toggles := by
  obtain ⟨-, hdeclared, htoggles⟩ := subset_of_names hall
  refine newFlags_eq_self (nodup_map_fieldName hsep htoggles hdistinct) fun flag hflag htaken ↦ ?_
  obtain ⟨name, hname, hfield⟩ := List.mem_map.1 htaken
  rcases List.mem_append.1 hname with hmem | hmem
  · have hne : name ≠ flag := fun heq ↦ not_mem_declared hflags hflag (heq ▸ hmem)
    exact (hsep _ (declared_subset_of_names hall hmem) _ (htoggles hflag) hne).2 hfield
  · have hne : name ≠ flag := fun heq ↦ (hflags flag hflag).2 (heq ▸ hmem)
    have hself := hdeclared _ (Component.mem_nodes_self s.root)
    exact (hsep _ (hself hmem) _ (htoggles hflag) hne).2 hfield

/-- The outermost component's fields have the field names of what it declares. -/
theorem mem_names_settled_rootType {field : String} :
    field ∈ s.rootType.settled.fields.map (fun field ↦ field.1.name) ↔
      field ∈ s.root.declared.map fieldName := by
  obtain ⟨nested, hfields, hnested⟩ := exists_fields_typeOf s.name [inputName] s.root
  rw [RecordType.settled, Schema.rootType, hfields, settledFields_eq_settled, map_name_fieldsOf,
    mem_map_keys_settled, keys_append_textFields hnested]

/-- The fields of an input are those beside the flags, and those for the flags that are kept. -/
theorem fields_inputType {own : List (String × FieldKind)} (hown : IsOwn s own) :
    s.inputType.fields = fieldsOf (own ++ flagFields s.keptFlags) := by
  have hfilter : (s.toggles.filter fun flag ↦
      !s.rootType.settled.fields.any fun field ↦ field.1.name == (fieldOf flag).name) =
        s.toggles.filter fun flag ↦ fieldName flag ∉ s.root.declared.map fieldName := by
    refine List.filter_congr fun flag _ ↦ ?_
    rw [Bool.eq_iff_iff, Bool.not_eq_true', List.any_eq_false, decide_eq_true_iff,
      ← mem_names_settled_rootType]
    simp [name_fieldOf]
  have hadded : ∀ pairs : List (String × FieldKind),
      (∀ field, field ∈ s.takenFields ↔ field ∈ (Keyed.keys pairs).map fieldName ∨
        field ∈ s.root.declared.map fieldName) →
      addFlags (s.toggles.filter fun flag ↦ fieldName flag ∉ s.root.declared.map fieldName)
        (fieldsOf pairs) = fieldsOf (pairs ++ flagFields s.keptFlags) := by
    intro pairs htaken
    rw [addFlags_fieldsOf_eq_newFlags fun _ ↦ Iff.rfl, newFlags_filter htaken]
    rfl
  have htaken : ∀ field, field ∈ s.takenFields ↔ field ∈ s.declared.map fieldName ∨
      field ∈ s.root.declared.map fieldName := fun field ↦ by
    rw [Schema.takenFields, List.map_append, List.mem_append]
  rw [Schema.declared, rootScope] at htaken
  rw [Schema.inputType]
  simp only [hfilter]
  rw [IsOwn, rootScope] at hown
  split at hown
  · next hcase =>
    rw [if_pos hcase] at htaken
    have hflagged := hadded [] fun field ↦ by
      rw [htaken, or_self_iff]
      exact (or_iff_right List.not_mem_nil).symm
    change addFlags _ [] = _ at hflagged
    simp only [if_pos hcase]
    rw [hflagged, List.nil_append, fieldsOf_append, hown]
    split
    · next hempty => rw [List.isEmpty_iff.1 hempty, List.append_nil]; rfl
    · rfl
  · next hcase =>
    rw [if_neg hcase] at htaken
    have hflagged := hadded own fun field ↦ by
      rw [htaken, hown, Keyed.keys, List.map_singleton, List.map_singleton, List.map_singleton,
        fieldName_entryName]
    rw [hown] at hflagged ⊢
    change addFlags _ [(fieldOf (entryName s.name), FieldKind.nested false s.rootType.settled.name
      s.rootType.settled.fields)] = _ at hflagged
    simp only [if_neg hcase, settledName_fieldOf]
    rw [hflagged]
    rfl

/-- The fields of an input beside the flags, from those of the outermost component's parts. -/
def ownFields (s : Schema) (nested : List (String × FieldKind)) : List (String × FieldKind) :=
  if s.name == rootScope then settled (nested ++ textFields s.root.properties)
  else [(entryName s.name, .nested false s.rootType.name (settledFields [] s.rootType.fields))]

theorem exists_isOwn (s : Schema) :
    ∃ nested, List.Forall₂ IsNested s.root.components nested ∧ IsOwn s (ownFields s nested) := by
  obtain ⟨nested, hfields, hnested⟩ := exists_fields_typeOf s.name [inputName] s.root
  refine ⟨nested, hnested, ?_⟩
  rw [IsOwn, ownFields]
  split
  · rw [Schema.rootType, hfields, settledFields_eq_settled]
  · rfl

/-- The fields of an input beside the flags have the field names of what the input declares. -/
theorem mem_map_keys_ownFields {nested : List (String × FieldKind)}
    (hnested : List.Forall₂ IsNested s.root.components nested) {field : String} :
    field ∈ (Keyed.keys (ownFields s nested)).map fieldName ↔ field ∈ s.declared.map fieldName := by
  rw [ownFields, Schema.declared]
  split
  · rw [mem_map_keys_settled, keys_append_textFields hnested]
  · rw [Keyed.keys, List.map_singleton, List.map_singleton, List.map_singleton,
      fieldName_entryName]

/-- The fields of a component's parts, as they are settled, are for texts, records and lists of
records, which are all needed. -/
theorem isRequired_of_mem_settled {c : Component} {nested : List (String × FieldKind)}
    (hnested : List.Forall₂ IsNested c.components nested) {field : String × FieldKind}
    (hfield : field ∈ settled (nested ++ textFields c.properties)) :
    field.2.isRequired = true := by
  obtain ⟨given, hmem, -, hkind⟩ := exists_of_mem_settled hfield
  rw [hkind]
  rcases List.mem_append.1 hmem with hin | hin
  · obtain ⟨pair, -, -, source, taken, hnestedKind⟩ := exists_of_mem_forall₂ hnested hin
    rw [hnestedKind, settledKind]
    rfl
  · obtain ⟨property, -, hproperty⟩ := List.mem_map.1 hin
    rw [← hproperty]
    rfl

theorem isRequired_of_mem_ownFields {nested : List (String × FieldKind)}
    (hnested : List.Forall₂ IsNested s.root.components nested) {field : String × FieldKind}
    (hfield : field ∈ ownFields s nested) : field.2.isRequired = true := by
  rw [ownFields] at hfield
  split at hfield
  · exact isRequired_of_mem_settled hnested hfield
  · rw [List.mem_singleton.1 hfield]
    rfl

/-- An object is read as the record of an input exactly where it has all its fields. -/
theorem checkInput_object_eq_ok_iff {own : List (String × FieldKind)} (hown : IsOwn s own)
    {entries : List (String × Value)} {record : Value} :
    s.checkInput (.object entries) = .ok record ↔
      ∃ results, record = .record s.inputType.name (fieldsOf results) ∧
        List.Forall₂ (ReadsField entries) (own ++ flagFields s.keptFlags) results := by
  have hmap : ∀ checked : Checked (List (FieldName × Value)),
      checked.map (Value.record s.inputType.name) = .ok record ↔
        ∃ fields, checked = .ok fields ∧ record = .record s.inputType.name fields := by
    intro checked
    cases checked <;> simp [Except.map, eq_comm]
  rw [Schema.checkInput, RecordType.check, fields_inputType hown, hmap]
  constructor
  · rintro ⟨fields, hfields, rfl⟩
    obtain ⟨results, rfl, hresults⟩ := checkFields_fieldsOf_eq_ok_iff.1 hfields
    exact ⟨results, rfl, hresults⟩
  · rintro ⟨results, rfl, hresults⟩
    exact ⟨_, checkFields_fieldsOf_eq_ok_iff.2 ⟨results, rfl, hresults⟩, rfl⟩

/-- Entries that hold what a schema takes have the fields beside the flags. -/
theorem exists_hasTyped_own (hsep : Separate all) (hall : s.names ⊆ all)
    (honce : s.root.DeclaresOnce) (hnamed : s.Named) {nested : List (String × FieldKind)}
    (hroot : settledFields [] s.rootType.fields =
      fieldsOf (settledPairs (nested ++ textFields s.root.properties)))
    (hnested : List.Forall₂ IsNested s.root.components nested)
    {entries : List (String × Value)} (h : s.holds entries = true) :
    ∃ own results, IsOwn s own ∧ Keyed.keys own = s.declared ∧
      List.Forall₂ (HasTyped all entries) own results := by
  have hdeclared := (subset_of_names hall).2.1
  have hreads : ∀ pair ∈ s.root.components, ReadsAs (Typed (askedOf all)) pair.2 := by
    intro pair hpair
    have hnodes := Component.nodes_subset_of_mem hpair
    exact readsTyped hsep pair.2 (fun node hnode ↦ honce node (hnodes hnode))
      (hnamed.2.below hpair) fun node hnode ↦ hdeclared node (hnodes hnode)
  rw [Schema.holds] at h
  by_cases hcase : (s.name == rootScope) = true
  · rw [if_pos hcase] at h
    have hnames := hnamed.2 _ (Component.mem_nodes_self s.root)
    obtain ⟨results, hresults⟩ := exists_hasTyped_of_holds hreads h hnested hnames
    refine ⟨_, results, ?_, ?_, hresults⟩
    · rw [IsOwn, if_pos hcase, hroot]
    · rw [← keys_append_textFields hnested] at hnames
      rw [keys_settledPairs hnames, keys_append_textFields hnested, Schema.declared, if_pos hcase]
  · rw [if_neg hcase] at h
    obtain ⟨value, hlookup, hfits⟩ := Option.any_eq_true _ _ |>.1 h
    obtain ⟨result, hresult, htyped⟩ := exists_checkKind_single
      (readsTyped hsep s.root honce hnamed.2 hdeclared) hfits s.name [inputName] s.rootType.name
    have hsingle : ∃ results, List.Forall₂ (HasTyped all entries) [(s.name,
        .nested false s.rootType.name (settledFields [] s.rootType.fields))] results := by
      refine exists_hasTyped fun field hfield ↦ ?_
      obtain rfl := List.mem_singleton.1 hfield
      exact ⟨value, result, hlookup, hresult, htyped⟩
    obtain ⟨results, hresults⟩ := hsingle
    refine ⟨_, results, ?_, ?_, hresults⟩
    · rw [IsOwn, if_neg hcase, entryName_of_ne hnamed.1]
    · rw [Schema.declared, if_neg hcase]
      rfl

/-- Entries that are truth values or nulls where they are called like flags have the fields for the
flags. -/
theorem exists_hasTyped_flags {entries : List (String × Value)} {flags : List String}
    (h : ∀ flag ∈ flags, ∀ value, entries.lookup flag = some value → value.isFlag = true) :
    ∃ results, List.Forall₂ (HasTyped all entries) (flagFields flags) results := by
  refine exists_forall₂ fun field hfield ↦ ?_
  obtain ⟨flag, hflag, rfl⟩ := List.mem_map.1 hfield
  cases hlookup : entries.lookup flag with
  | none =>
    refine ⟨(flag, .null), ⟨rfl, Or.inr ⟨hlookup, rfl, rfl⟩⟩, ?_⟩
    intro value hvalue
    rw [hlookup] at hvalue
    cases hvalue
  | some value =>
    have hisFlag := h flag hflag value hlookup
    have hcheck : RecordCheck.checkKind .flag value = .ok value ∧ value.isScalar = true := by
      cases value with
      | null | bool => exact ⟨rfl, rfl⟩
      | int | float | string | list | object | record => cases hisFlag
    refine ⟨(flag, value), ⟨rfl, Or.inl ⟨value, hlookup, hcheck.1⟩⟩, ?_⟩
    intro found hfound
    obtain rfl := Option.some.inj (hlookup.symm.trans hfound)
    exact .scalar hcheck.2

end Schema

end RecordLayout

open RecordName RecordLayout in
/-- An input of the shape of a schema is read as a record that it is related to, if all names of the
schema are separate, none that it declares is empty and each is declared once. -/
theorem Schema.exists_record {s : Schema} {all : List String} (hsep : Separate all)
    (hall : s.names ⊆ all) (honce : s.root.DeclaresOnce) (hnamed : s.Named)
    (hdistinct : s.toggles.Nodup)
    (hflags : s.FlagsApart) {input : Value} (h : s.fits input = true) :
    ∃ record, s.checkInput input = .ok record ∧ Typed (askedOf all) input record := by
  cases input with
  | null | bool | int | float | string | list | record => cases h
  | object entries =>
    rw [fits, Bool.and_eq_true, List.all_eq_true] at h
    obtain ⟨hkeys, hholds⟩ := h
    obtain ⟨-, hdeclared, htoggles⟩ := subset_of_names hall
    have hself := Component.mem_nodes_self s.root
    obtain ⟨nested, hroot, hnested⟩ :=
      exists_settled_rootType hsep (hdeclared _ hself) (honce _ hself)
    obtain ⟨own, results, hown, hownKeys, hresults⟩ :=
      exists_hasTyped_own hsep hall honce hnamed hroot hnested hholds
    -- an entry called like a flag is none of those that the schema declares
    have hisFlag : ∀ flag ∈ s.toggles, ∀ value, entries.lookup flag = some value →
        value.isFlag = true := by
      intro flag hflag value hlookup
      have hentry := hkeys _ (Keyed.mem_of_lookup hlookup)
      simpa [not_mem_declared hflags hflag, hflag] using hentry
    obtain ⟨flagResults, hflagResults⟩ := exists_hasTyped_flags hisFlag
    have hallKeys : Keyed.keys (own ++ flagFields s.toggles) = s.declared ++ s.toggles := by
      rw [Keyed.keys_append, hownKeys, keys_flagFields]
    obtain ⟨hcheck, htyped⟩ := checkFields_of_hasTyped hsep
      (by
        rw [hallKeys]
        exact List.append_subset.2 ⟨declared_subset_of_names hall, htoggles⟩)
      (by
        rw [hallKeys]
        intro key hkey
        obtain ⟨entry, hentry, rfl⟩ := List.mem_map.1 hkey
        rcases (by simpa using hkeys entry hentry) with hmem | ⟨hmem, -⟩
        · exact List.mem_append_left _ hmem
        · exact List.mem_append_right _ hmem)
      (List.rel_append hresults hflagResults)
    refine ⟨_, ?_, htyped s.inputType.name⟩
    rw [checkInput, RecordType.check,
      fields_inputType hown, keptFlags_eq_toggles hsep hall hdistinct hflags, hcheck]
    rfl

end MarkupBinding
