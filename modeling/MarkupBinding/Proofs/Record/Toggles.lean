import MarkupBinding.Proofs.Markup.ReachedFlags
import MarkupBinding.Proofs.Record.Rendering

/-!
# Toggles on a record

The record of an input has a field for a toggle flag only if the flag's field name is free
(`Schema.keptFlags`), and shows under a flag the field that is called so before the field of the
flag itself. So an element may be switched off by another flag than the one it is marked with, or by
none (`Schema.heard`), and the value of a flag may stand under its field name (`Schema.readsOff`).
`Schema.turnsOff` says so for every name, and is what the record does (`switchesOff_record`).

Hence the record removes from a document what the input removes exactly where the two agree on the
flags that are looked at (`Document.filterToggles_record_iff`); they do where each of these is heard
itself and stands in the input under its own name. A flag called like a property of an outermost
component that is not the root scope is not heard, although the record has room for its field
(`not_filterToggles_notedPage`).
-/

set_option autoImplicit false
set_option relaxedAutoImplicit false

namespace MarkupBinding

open RecordName RecordLayout

/-- Whether a value reads as `false`. -/
def Value.readsFalse (value : Value) : Bool :=
  match checkFlag value with
  | .ok b => !b
  | .error _ => false

/-- The flags that are looked at when what an input switches off is removed from a document. -/
def Document.reachedFlags (d : Document) (input : Value) : List String :=
  Node.reachedFlags input.switchesOff d

namespace Schema

/-- The flag whose field the record of an input shows under a name, if it shows one: the one whose
field is called so, else the one of that name; a name that is called like a field for something else
shows that. -/
def heard (s : Schema) (name : String) : Option String :=
  if name ∈ s.declared.map fieldName then none
  else
    match s.keptFlags.find? fun flag ↦ fieldName flag == name with
    | some flag => some flag
    | none => s.keptFlags.find? fun flag ↦ flag == name

/-- Whether an object has a value for a flag, under the flag itself or else under its field name,
that reads as `false`. -/
def readsOff (entries : List (String × Value)) (flag : String) : Bool :=
  ((entries.lookup flag).or (entries.lookup (fieldName flag))).any Value.readsFalse

/-- Whether the record of an object switches off the elements that are marked with a name. -/
def turnsOff (s : Schema) (entries : List (String × Value)) (name : String) : Bool :=
  (s.heard name).any (readsOff entries)

end Schema

theorem Value.switchesOff_eq_true_iff {input : Value} {flag : String} :
    input.switchesOff flag = true ↔ input.property? flag = some (.bool false) := by
  unfold switchesOff
  split <;> simp_all

/-- A record switches off a flag under which it shows `false`. -/
theorem Value.switchesOff_record_iff {type flag : String} {results : List (String × Value)} :
    (Value.record type (fieldsOf results)).switchesOff flag = true ↔
      (pairFor? flag results).map Prod.snd = some (.bool false) := by
  rw [switchesOff_eq_true_iff, property?, fieldValue?_fieldsOf_eq_pairFor?]
  cases (pairFor? flag results).map Prod.snd with
  | none => simp [present]
  | some value => cases value <;> simp [present]

namespace RecordLayout

variable {s : Schema} {entries : List (String × Value)}

/-- The entry of a flag is the one under the flag itself, or else under its field name. -/
theorem map_entry?_fieldOf (flag : String) :
    (RecordCheck.entry? (fieldOf flag) entries).map Prod.snd =
      (entries.lookup flag).or (entries.lookup (fieldName flag)) := by
  rw [RecordCheck.entry?, publicName_fieldOf, name_fieldOf]
  by_cases hself : fieldName flag = flag
  · rw [if_pos hself, hself]
    cases entries.lookup flag <;> rfl
  · rw [if_neg hself]
    cases hflag : entries.lookup flag with
    | none => cases entries.lookup (fieldName flag) <;> simp [hflag]
    | some value => simp [hflag]

/-- Only what is there for a flag is read as a truth value. -/
theorem checkKind_ne_bool {kind : FieldKind} (hkind : kind.isRequired = true) (found : Value)
    (b : Bool) : RecordCheck.checkKind kind found ≠ .ok (.bool b) := by
  have hmap : ∀ {α : Type} (checked : Checked α) (build : α → Value), (∀ x, build x ≠ .bool b) →
      checked.map build ≠ .ok (.bool b) := by
    intro α checked build hbuild h
    cases checked with
    | error issues => cases h
    | ok x => exact hbuild x (Except.ok.inj h)
  intro h
  cases kind with
  | text =>
    rw [RecordCheck.checkKind] at h
    cases found <;> cases h
  | flag => cases hkind
  | nested isList type fields =>
    cases isList <;> simp only [RecordCheck.checkKind] at h <;> split at h
    · exact hmap _ _ (fun _ ↦ Value.noConfusion) h
    · cases h
    · exact hmap _ _ (fun _ ↦ Value.noConfusion) h
    · cases h

theorem ne_bool_of_readsField {field : String × FieldKind} {result : String × Value}
    (hfield : field.2.isRequired = true) (h : ReadsField entries field result) (b : Bool) :
    result.2 ≠ .bool b := by
  obtain ⟨-, ⟨key, found, -, hcheck⟩ | ⟨-, hoptional, -⟩⟩ := h
  · exact fun hbool ↦ checkKind_ne_bool hfield found b (hbool ▸ hcheck)
  · rw [hfield] at hoptional
    cases hoptional

/-- What is there for a flag is null or read as a truth value. -/
theorem checkKind_flag_eq_ok_iff {found result : Value} :
    RecordCheck.checkKind .flag found = .ok result ↔
      found = .null ∧ result = .null ∨
        ∃ b, found ≠ .null ∧ checkFlag found = .ok b ∧ result = .bool b := by
  by_cases hnull : found = .null
  · subst hnull
    rw [RecordCheck.checkKind, RecordCheck.checkOptionalFlag]
    simp [eq_comm]
  · have hread : RecordCheck.checkKind .flag found = (checkFlag found).map .bool := by
      cases found <;> first | rfl | exact absurd rfl hnull
    rw [hread]
    cases checkFlag found <;> simp [Except.map, hnull, eq_comm]

/-- The field of a flag is read as `false` where its entry reads so. -/
theorem eq_false_iff_of_readsField_flag {flag : String} {result : String × Value}
    (h : ReadsField entries (flag, .flag) result) :
    result.2 = .bool false ↔ Schema.readsOff entries flag = true := by
  rw [Schema.readsOff, ← map_entry?_fieldOf]
  obtain ⟨-, ⟨key, found, hentry, hcheck⟩ | ⟨hentry, -, hnull⟩⟩ := h
  · simp only at hentry hcheck
    rw [hentry, Option.map_some, Option.any_some, Value.readsFalse]
    rcases checkKind_flag_eq_ok_iff.1 hcheck with ⟨rfl, hnull⟩ | ⟨b, -, hflag, hbool⟩
    · rw [hnull]
      simp [checkFlag, Checked.issue]
    · rw [hbool]
      simp [hflag]
  · simp only at hentry
    rw [hentry, hnull]
    simp

/-- A flag that is kept is called like no field beside the flags. -/
theorem not_mem_declared_of_mem_keptFlags {flag : String} (h : flag ∈ s.keptFlags) :
    fieldName flag ∉ s.declared.map fieldName := fun hmem ↦
  (mem_of_mem_newFlags h).2 (by
    rw [Schema.takenFields, List.map_append]
    exact List.mem_append_left _ hmem)

/-- Some flag is heard under the field name of a flag that is kept. -/
theorem exists_heard_fieldName {flag : String} (h : flag ∈ s.keptFlags) :
    ∃ other, s.heard (fieldName flag) = some other := by
  unfold Schema.heard
  rw [if_neg (not_mem_declared_of_mem_keptFlags h)]
  cases hfound : s.keptFlags.find? fun other ↦ fieldName other == fieldName flag with
  | some other => exact ⟨other, rfl⟩
  | none => exact absurd (beq_self_eq_true _) (List.find?_eq_none.1 hfound flag h)

/-- A flag that is heard is one of the schema's. -/
theorem mem_toggles_of_heard {name flag : String} (h : s.heard name = some flag) :
    flag ∈ s.toggles := by
  have hkept : flag ∈ s.keptFlags := by
    unfold Schema.heard at h
    split at h
    · cases h
    · split at h
      · next hfound => exact Option.some.inj h ▸ List.mem_of_find?_eq_some hfound
      · exact List.mem_of_find?_eq_some h
  exact (mem_of_mem_newFlags hkept).1

/-- What a record shows under a name is a field beside the flags, or that of the flag that is heard.
-/
theorem pairFor?_append_flagFields {own : List (String × FieldKind)}
    (hown : ∀ field, field ∈ (Keyed.keys own).map fieldName ↔ field ∈ s.declared.map fieldName)
    (name : String) :
    (s.heard name = none ∧
        ∃ field ∈ own, pairFor? name (own ++ flagFields s.keptFlags) = some field) ∨
      pairFor? name (own ++ flagFields s.keptFlags) =
        (s.heard name).map fun flag ↦ (flag, .flag) := by
  have hflags : ∀ test : String → Bool, ((flagFields s.keptFlags).find? fun pair ↦ test pair.1) =
      (s.keptFlags.find? test).map fun flag ↦ (flag, .flag) := fun test ↦ by
    rw [flagFields, List.find?_map]
    rfl
  unfold pairFor? Schema.heard
  rw [List.find?_append, List.find?_append, hflags fun key ↦ fieldName key == name,
    hflags fun key ↦ key == name]
  by_cases hdeclared : name ∈ s.declared.map fieldName
  · obtain ⟨key, hkey, hfield⟩ := List.mem_map.1 ((hown name).2 hdeclared)
    obtain ⟨pair, hpair, rfl⟩ := List.mem_map.1 hkey
    rw [if_pos hdeclared]
    cases hfirst : own.find? fun pair ↦ fieldName pair.1 == name with
    | some field => exact Or.inl ⟨rfl, field, List.mem_of_find?_eq_some hfirst, rfl⟩
    | none => exact absurd (beq_iff_eq.2 hfield) (List.find?_eq_none.1 hfirst pair hpair)
  · have hnone : (own.find? fun pair ↦ fieldName pair.1 == name) = none := by
      rw [List.find?_eq_none]
      intro pair hpair heq
      exact hdeclared ((hown name).1 (List.mem_map.2 ⟨pair.1, List.mem_map_of_mem hpair,
        eq_of_beq heq⟩))
    rw [if_neg hdeclared, hnone, Option.none_or]
    cases hcalled : s.keptFlags.find? fun flag ↦ fieldName flag == name with
    | some flag => exact Or.inr rfl
    | none =>
      cases hself : own.find? fun pair ↦ pair.1 == name with
      | none => exact Or.inr rfl
      | some field =>
        refine Or.inl ⟨?_, field, List.mem_of_find?_eq_some hself, rfl⟩
        -- a flag of that name has lost its field to the other one
        refine List.find?_eq_none.2 fun flag hflag heq ↦ ?_
        have hkey := List.find?_some hself
        have hsame : field.1 = flag := (eq_of_beq hkey).trans (eq_of_beq heq).symm
        have hmem : field.1 ∈ Keyed.keys own :=
          List.mem_map_of_mem (List.mem_of_find?_eq_some hself)
        refine not_mem_declared_of_mem_keptFlags hflag ((hown _).1 ?_)
        exact hsame ▸ List.mem_map_of_mem hmem

/-- The record of an object switches off what `Schema.turnsOff` says. -/
theorem switchesOff_record {record : Value} (h : s.checkInput (.object entries) = .ok record)
    (name : String) : record.switchesOff name = s.turnsOff entries name := by
  obtain ⟨nested, hnested, hown⟩ := exists_isOwn s
  obtain ⟨results, rfl, hresults⟩ := (checkInput_object_eq_ok_iff hown).1 h
  have hrel := rel_pairFor? (fun _ _ hread ↦ hread.1) hresults name
  rw [Bool.eq_iff_iff, Value.switchesOff_record_iff, Schema.turnsOff]
  rcases pairFor?_append_flagFields (fun _ ↦ mem_map_keys_ownFields hnested) name with
    ⟨hheard, field, hfield, hfound⟩ | hfound
  · rw [hfound] at hrel
    obtain ⟨result, hresult, hread⟩ := exists_of_rel_some hrel
    have hne := ne_bool_of_readsField (isRequired_of_mem_ownFields hnested hfield) hread false
    simp [hheard, hresult, hne]
  · rw [hfound] at hrel
    cases hheard : s.heard name with
    | none =>
      rw [hheard] at hrel
      simp [eq_none_of_rel_none hrel]
    | some flag =>
      rw [hheard] at hrel
      obtain ⟨result, hresult, hread⟩ := exists_of_rel_some hrel
      rw [hresult]
      simpa using eq_false_iff_of_readsField_flag hread

/-- A flag that is heard itself, and has a truth value or null under its own name or nothing that
reads as `false` under its field name, is switched off by the record where the object does so. -/
theorem turnsOff_eq_switchesOff {flag : String} (hheard : s.heard flag = some flag)
    (hflag : (entries.lookup flag).all Value.isFlag = true)
    (hfield : entries.lookup flag = none →
      (entries.lookup (fieldName flag)).any Value.readsFalse = false) :
    s.turnsOff entries flag = (Value.object entries).switchesOff flag := by
  rw [Bool.eq_iff_iff, Value.switchesOff_eq_true_iff, Schema.turnsOff, hheard, Option.any_some,
    Schema.readsOff, Value.property?]
  cases hlookup : entries.lookup flag with
  | none =>
    rw [Option.none_or, hfield hlookup]
    simp [Value.present]
  | some value =>
    rw [hlookup] at hflag
    cases value with
    | null => simp [Value.readsFalse, checkFlag, Checked.issue, Value.present]
    | bool b => simp [Value.readsFalse, checkFlag, Value.present]
    | int | float | string | list | object | record => cases hflag

end RecordLayout

/-- The record of an object removes from a document the elements that the object removes, and as
many, exactly where the two agree on the flags that are looked at. They do so if each of these is
heard itself, and where the object has no entry for it, none under its field name reads as `false`.
-/
theorem Document.filterToggles_record_iff {d : Document} {s : Schema}
    {entries : List (String × Value)} {record : Value}
    (hflags : ∀ flag ∈ s.toggles, (entries.lookup flag).all Value.isFlag = true)
    (h : s.checkInput (.object entries) = .ok record) :
    (d.filterToggles record = d.filterToggles (.object entries) ↔
      ∀ flag ∈ d.reachedFlags (.object entries),
        s.turnsOff entries flag = (Value.object entries).switchesOff flag) ∧
    ((∀ flag ∈ d.reachedFlags (.object entries), s.heard flag = some flag ∧
        (entries.lookup flag = none →
          (entries.lookup (fieldName flag)).any Value.readsFalse = false)) →
      d.filterToggles record = d.filterToggles (.object entries)) := by
  have hiff : d.filterToggles record = d.filterToggles (.object entries) ↔
      ∀ flag ∈ d.reachedFlags (.object entries),
        s.turnsOff entries flag = (Value.object entries).switchesOff flag := by
    rw [filterToggles, filterToggles, eq_comm, Node.filterOffAll_eq_iff, reachedFlags]
    simp only [switchesOff_record h, eq_comm]
  refine ⟨hiff, fun hheard ↦ hiff.2 fun flag hflag ↦ ?_⟩
  obtain ⟨hself, hfield⟩ := hheard flag hflag
  exact turnsOff_eq_switchesOff hself (hflags flag (mem_toggles_of_heard hself)) hfield

/-- A page with a title and a note, which is marked with a flag. -/
def notedPage (flag : String) : Document :=
  [.element ⟨"main", [(Mark.component, .plain "page")]⟩
    [.element ⟨"h1", [(Mark.textContent, .plain "title")]⟩ [],
      .element ⟨"p", [(Mark.toggleable, .plain flag)]⟩ [.text .characters "x"]]]

/-- A flag called like nothing else is heard, also by its own name where that is no field name. -/
theorem filterToggles_record_iff_notedPage :
    let entries := [("page", Value.object [("title", .string "x")]), ("is-new", .bool false)]
    ∃ schema record, ((notedPage "is-new").extract false).result = .ok (some schema) ∧
      (∀ flag ∈ schema.toggles, (entries.lookup flag).all Value.isFlag = true) ∧
      schema.checkInput (.object entries) = .ok record ∧
      (notedPage "is-new").reachedFlags (.object entries) = ["is-new"] ∧
      (notedPage "is-new").filterToggles record =
        (notedPage "is-new").filterToggles (.object entries) ∧
      ((notedPage "is-new").filterToggles record).2 = 1 := by
  intro entries
  obtain ⟨schema, hextract, hmeets⟩ := exists_schema_of_any (notedPage "is-new")
    (fun schema ↦ decide ((∀ flag ∈ schema.toggles, (entries.lookup flag).all Value.isFlag = true) ∧
      (schema.checkInput (.object entries)).toOption.isSome = true ∧
      schema.heard "is-new" = some "is-new"))
    (by decide +kernel)
  obtain ⟨hflags, haccepted, hheard⟩ := of_decide_eq_true hmeets
  have hreached : (notedPage "is-new").reachedFlags (.object entries) = ["is-new"] := by
    decide +kernel
  cases hcheck : schema.checkInput (.object entries) with
  | error issues => rw [hcheck] at haccepted; cases haccepted
  | ok record =>
    have hsame := (Document.filterToggles_record_iff (d := notedPage "is-new") hflags hcheck).2 (by
      rw [hreached]
      intro flag hflag
      obtain rfl := List.mem_singleton.1 hflag
      exact ⟨hheard, fun hnone ↦ nomatch hnone⟩)
    refine ⟨schema, record, hextract, hflags, hcheck, hreached, hsame, ?_⟩
    rw [hsame]
    decide +kernel

/-- A flag called like the title of the page has no field in the record of the input, although the
title's field is in the page: the record leaves what the input removes. -/
theorem not_filterToggles_notedPage :
    ¬ ∀ (d : Document) (schema : Schema) (entries : List (String × Value)) (record : Value),
      (d.extract false).result = .ok (some schema) →
        (∀ flag ∈ schema.toggles, (entries.lookup flag).all Value.isFlag = true) →
          schema.checkInput (.object entries) = .ok record →
            d.filterToggles record = d.filterToggles (.object entries) := by
  intro hclaim
  let entries := [("page", Value.object [("title", .string "x")]), ("title", .bool false)]
  obtain ⟨schema, hextract, hmeets⟩ := exists_schema_of_any (notedPage "title")
    (fun schema ↦ decide ((∀ flag ∈ schema.toggles, (entries.lookup flag).all Value.isFlag = true) ∧
      ((schema.checkInput (.object entries)).toOption.any fun record ↦
        ((notedPage "title").filterToggles record).2 = 0) = true))
    (by decide +kernel)
  obtain ⟨hflags, hnone⟩ := of_decide_eq_true hmeets
  cases hcheck : schema.checkInput (.object entries) with
  | error issues => rw [hcheck] at hnone; cases hnone
  | ok record =>
    have hsame := hclaim (notedPage "title") schema entries record hextract hflags hcheck
    rw [hcheck] at hnone
    simp only [Except.toOption, Option.any_some, decide_eq_true_eq] at hnone
    rw [hsame] at hnone
    exact absurd hnone (by decide +kernel)

end MarkupBinding
