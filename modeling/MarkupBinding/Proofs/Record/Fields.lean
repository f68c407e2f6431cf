import MarkupBinding.Record.Check
import Mathlib.Data.List.Find
import Mathlib.Data.List.Forall2
import Mathlib.Data.List.Nodup

/-!
# Record fields by template name

Records are laid out by template names: `fieldsOf` gives the fields for a list of such names. Such a
record shows under a name the field that is called so, else the one for the name itself (`pairFor?`,
`fieldValue?_fieldsOf_eq_pairFor?`), and an object is read field by field (`ReadsField`,
`checkFields_fieldsOf_eq_ok_iff`).

Where no name can be taken for the field name of another one (`RecordName.Separate`), a record
behaves like the list of pairs that it was made from: a template name looks up its own value
(`fieldValue?_fieldsOf`), an entry is read under its own name (`entry?_fieldOf`), no field replaces
another one (`settledFields_fieldsOf`), and an object with all entries is read as them
(`checkFields_fieldsOf`).
-/

set_option autoImplicit false
set_option relaxedAutoImplicit false

namespace MarkupBinding

namespace Checked

variable {α β : Type}

theorem both_eq_ok_iff {first : Checked α} {second : Checked β} {a : α} {b : β} :
    first.both second = .ok (a, b) ↔ first = .ok a ∧ second = .ok b := by
  cases first <;> cases second <;> simp [both]

theorem below_eq_ok_iff {step : PlaceStep} {result : Checked α} {a : α} :
    result.below step = .ok a ↔ result = .ok a := by
  cases result <;> simp [below]

end Checked

namespace RecordName

/-- No name is the field name of another one, and no two have the same field name. -/
def Separate (names : List String) : Prop :=
  ∀ n ∈ names, ∀ m ∈ names, n ≠ m → fieldName n ≠ m ∧ fieldName n ≠ fieldName m

instance (names : List String) : Decidable (Separate names) :=
  inferInstanceAs (Decidable (∀ n ∈ names, ∀ m ∈ names, n ≠ m →
    fieldName n ≠ m ∧ fieldName n ≠ fieldName m))

/-- A field has a name. -/
theorem fieldName_ne_empty (name : String) : fieldName name ≠ "" := by
  have hstarted : ∀ cs, started cs ≠ [] := by
    intro cs
    cases cs with
    | nil => decide
    | cons c rest =>
      simp only [started]
      split
      · exact List.append_ne_nil_of_left_ne_nil (by decide) _
      · exact List.cons_ne_nil _ _
  intro hempty
  have hchars := congrArg String.toList hempty
  simp only [fieldName, String.toList_ofList] at hchars
  split at hchars
  · exact absurd hchars (by simp)
  · exact hstarted _ hchars

/-- The name that stands for a template name where a record is built: the empty name is none, so
that the field's own name stands for it. -/
def entryName (name : String) : String :=
  if name = "" then fieldName name else name

theorem entryName_of_ne {name : String} (h : name ≠ "") : entryName name = name :=
  if_neg h

/-- Keys among which the empty name is not stand for themselves. -/
theorem entryName_of_mem {α : Type} {pairs : List (String × α)} (hnames : "" ∉ Keyed.keys pairs)
    {pair : String × α} (h : pair ∈ pairs) : entryName pair.1 = pair.1 :=
  entryName_of_ne fun hempty ↦ hnames (hempty ▸ List.mem_map_of_mem h)

/-- A name and the one that stands for it give the same field. -/
theorem fieldName_entryName (name : String) : fieldName (entryName name) = fieldName name := by
  by_cases hempty : name = ""
  · subst hempty
    decide +kernel
  · rw [entryName_of_ne hempty]

/-- Separate names have separate field names, so distinct names give distinct fields. -/
theorem nodup_map_fieldName {all names : List String} (h : Separate all) (hsub : names ⊆ all)
    (hnames : names.Nodup) : (names.map fieldName).Nodup :=
  List.Nodup.map_on (fun n hn m hm heq ↦ by
    by_contra hne
    exact (h n (hsub hn) m (hsub hm) hne).2 heq) hnames

end RecordName

namespace RecordLayout

open RecordName

variable {α β : Type}

/-- In lists that are related member by member, each member of the second has one in the first. -/
theorem exists_of_mem_forall₂ {rel : α → β → Prop} {xs : List α} {ys : List β}
    (h : List.Forall₂ rel xs ys) {y : β} (hy : y ∈ ys) : ∃ x ∈ xs, rel x y := by
  induction h with
  | nil => exact absurd hy List.not_mem_nil
  | @cons x _ _ _ hfirst _ ih =>
    rcases List.mem_cons.1 hy with rfl | hrest
    · exact ⟨x, List.mem_cons_self, hfirst⟩
    · obtain ⟨found, hfound, hrel⟩ := ih hrest
      exact ⟨found, List.mem_cons_of_mem x hfound, hrel⟩

/-- The fields for template names, each with what belongs to it. -/
def fieldsOf (pairs : List (String × α)) : List (FieldName × α) :=
  pairs.map fun pair ↦ (fieldOf pair.1, pair.2)

theorem fieldsOf_append (pairs others : List (String × α)) :
    fieldsOf (pairs ++ others) = fieldsOf pairs ++ fieldsOf others :=
  List.map_append

theorem name_fieldOf (name : String) : (fieldOf name).name = fieldName name := rfl

/-- The public name of a field is the template name, where it differs from the field's own. -/
theorem publicName_fieldOf (name : String) :
    (fieldOf name).publicName = if fieldName name = name then none else some name := by
  simp [fieldOf]

theorem settledName_fieldOf (name : String) :
    settledName (fieldOf name) = fieldOf (entryName name) := by
  by_cases hempty : name = ""
  · subst hempty
    decide +kernel
  · rw [entryName, if_neg hempty, settledName]
    simp only [publicName_fieldOf, name_fieldOf]
    rw [fieldOf]
    by_cases hself : fieldName name = name <;> simp [hself, hempty]

theorem map_name_fieldsOf (pairs : List (String × α)) :
    (fieldsOf pairs).map (fun field ↦ field.1.name) = (Keyed.keys pairs).map fieldName := by
  rw [fieldsOf, Keyed.keys, List.map_map, List.map_map]
  rfl

/-! ### Looking up -/

/-- The pair that a record of fields for pairs shows under a name: the first one whose field is
called so, else the one for the name itself. -/
def pairFor? (name : String) (pairs : List (String × α)) : Option (String × α) :=
  match pairs.find? fun pair ↦ fieldName pair.1 == name with
  | some pair => some pair
  | none => pairs.find? fun pair ↦ pair.1 == name

theorem mem_of_pairFor? {name : String} {pairs : List (String × α)} {pair : String × α}
    (h : pairFor? name pairs = some pair) : pair ∈ pairs := by
  unfold pairFor? at h
  split at h
  · next hfound => exact Option.some.inj h ▸ List.mem_of_find?_eq_some hfound
  · exact List.mem_of_find?_eq_some h

theorem fieldValue?_fieldsOf_eq_pairFor? (name : String) (pairs : List (String × Value)) :
    Value.fieldValue? name (fieldsOf pairs) = (pairFor? name pairs).map Prod.snd := by
  have hnames : ((fieldsOf pairs).find? fun field ↦ field.1.name == name) =
      (pairs.find? fun pair ↦ fieldName pair.1 == name).map fun pair ↦ (fieldOf pair.1, pair.2) :=
    List.find?_map ..
  unfold Value.fieldValue? pairFor?
  rw [hnames]
  cases hfound : pairs.find? fun pair ↦ fieldName pair.1 == name with
  | some pair => rfl
  | none =>
    -- a field that is not called so itself has the name for its public one
    have hpublic : ((fieldsOf pairs).find? fun field ↦ field.1.publicName == some name) =
        (pairs.find? fun pair ↦ pair.1 == name).map fun pair ↦ (fieldOf pair.1, pair.2) := by
      rw [fieldsOf, List.find?_map]
      refine congrArg _ (List.find?_congr fun pair hpair ↦ ?_)
      have hother : fieldName pair.1 ≠ name := by
        simpa using List.find?_eq_none.1 hfound pair hpair
      rw [Function.comp_apply, publicName_fieldOf]
      by_cases hself : fieldName pair.1 = pair.1
      · have hne : pair.1 ≠ name := fun heq ↦ hother (hself.trans heq)
        rw [if_pos hself, beq_false_of_ne hne]
        rfl
      · rw [if_neg hself]
        rfl
    rw [Option.map_none, hpublic, Option.map_map]
    rfl

/-- What corresponds to something is something. -/
theorem exists_of_rel_some {rel : α → β → Prop} {a : α} {found : Option β}
    (h : Option.Rel rel (some a) found) : ∃ b, found = some b ∧ rel a b := by
  cases h with
  | some hrel => exact ⟨_, rfl, hrel⟩

theorem eq_none_of_rel_none {rel : α → β → Prop} {found : Option β}
    (h : Option.Rel rel none found) : found = none := by
  cases h
  rfl

/-- Lists that correspond have corresponding members for a name. -/
theorem rel_pairFor? {rel : String × α → String × β → Prop}
    (hkeys : ∀ pair result, rel pair result → pair.1 = result.1) {pairs : List (String × α)}
    {results : List (String × β)} (h : List.Forall₂ rel pairs results) (name : String) :
    Option.Rel rel (pairFor? name pairs) (pairFor? name results) := by
  have hfind : ∀ test : String → Bool, Option.Rel rel (pairs.find? fun pair ↦ test pair.1)
      (results.find? fun pair ↦ test pair.1) := by
    intro test
    induction h with
    | nil => exact .none
    | @cons pair result _ _ hfirst _ ih =>
      rw [List.find?_cons, List.find?_cons, hkeys pair result hfirst]
      cases test result.1 with
      | true => exact .some hfirst
      | false => exact ih
  have hfields := hfind fun key ↦ fieldName key == name
  unfold pairFor?
  cases hpair : pairs.find? fun pair ↦ fieldName pair.1 == name with
  | some pair =>
    rw [hpair] at hfields
    obtain ⟨result, hresult, hrel⟩ := exists_of_rel_some hfields
    rw [hresult]
    exact .some hrel
  | none =>
    rw [hpair] at hfields
    rw [eq_none_of_rel_none hfields]
    exact hfind fun key ↦ key == name

/-- A template name looks up its own value in a record if no other name has it as field name. -/
theorem fieldValue?_fieldsOf {pairs : List (String × Value)} {name : String}
    (h : ∀ key ∈ Keyed.keys pairs, key ≠ name → fieldName key ≠ name) :
    Value.fieldValue? name (fieldsOf pairs) = pairs.lookup name := by
  have hlookup : (pairs.find? fun pair ↦ pair.1 == name).map Prod.snd = pairs.lookup name := by
    clear h
    induction pairs with
    | nil => rfl
    | cons pair rest ih =>
      rw [List.find?_cons, List.lookup_cons, BEq.comm]
      cases name == pair.1 with
      | true => rfl
      | false => exact ih
  rw [fieldValue?_fieldsOf_eq_pairFor?, ← hlookup]
  unfold pairFor?
  cases hfound : pairs.find? fun pair ↦ fieldName pair.1 == name with
  | none => rfl
  | some pair =>
    -- what is called so is the field of the name itself, and so the first one with that name
    have hcongr : (pairs.find? fun pair ↦ pair.1 == name) =
        pairs.find? fun pair ↦ fieldName pair.1 == name := by
      have hfield := List.find?_some hfound
      have hself : fieldName name = name := by
        by_contra hne
        have hkey : fieldName pair.1 = name := eq_of_beq hfield
        refine h pair.1 (List.mem_map_of_mem (List.mem_of_find?_eq_some hfound)) ?_ hkey
        exact fun heq ↦ hne (heq ▸ hkey)
      refine List.find?_congr fun other hother ↦ ?_
      by_cases heq : other.1 = name
      · rw [heq, hself]
      · rw [beq_false_of_ne heq, beq_false_of_ne (h other.1 (List.mem_map_of_mem hother) heq)]
    rw [hcongr, hfound]

/-- An object has the entry for a template name under that name, if it has none under the field
name. -/
theorem entry?_fieldOf {entries : List (String × Value)} {name : String}
    (h : fieldName name ≠ name → entries.lookup (fieldName name) = none) :
    RecordCheck.entry? (fieldOf name) entries =
      (entries.lookup name).map fun value ↦ (name, value) := by
  rw [RecordCheck.entry?, publicName_fieldOf, name_fieldOf]
  by_cases hself : fieldName name = name
  · rw [if_pos hself, hself]
  · rw [if_neg hself, h hself]
    cases hlookup : entries.lookup name with
    | none => simp [hlookup]
    | some value => simp [hlookup]

/-! ### Settling -/

/-- A field of a new name goes to the end. -/
theorem setField_of_not_mem {field : FieldName × FieldKind}
    {built : List (FieldName × FieldKind)}
    (h : field.1.name ∉ built.map fun other ↦ other.1.name) :
    setField field built = built ++ [field] := by
  induction built with
  | nil => rfl
  | cons other rest ih =>
    rw [List.map_cons, List.mem_cons, not_or] at h
    rw [setField, beq_false_of_ne (Ne.symm h.1), if_neg (by decide), ih h.2, List.cons_append]

/-- Fields of distinct names are settled each by itself. -/
theorem settledFields_of_nodup {fields : List (FieldName × FieldKind)} :
    ∀ {built : List (FieldName × FieldKind)},
      ((built ++ fields).map fun field ↦ field.1.name).Nodup →
        settledFields built fields =
          built ++ fields.map fun field ↦ (settledName field.1, settledKind field.2) := by
  induction fields with
  | nil => intro built _; rw [settledFields, List.map_nil, List.append_nil]
  | cons field rest ih =>
    intro built h
    obtain ⟨name, kind⟩ := field
    have hnew : name.name ∉ built.map fun other ↦ other.1.name := by
      rw [List.map_append, List.nodup_append] at h
      exact fun hmem ↦ h.2.2 _ hmem _ List.mem_cons_self rfl
    rw [settledFields, setField_of_not_mem (by exact hnew), ih, List.map_cons, List.append_assoc,
      List.singleton_append]
    simpa [settledName] using h

/-- The fields for pairs as they are settled, where no two have one field name. -/
def settledPairs (pairs : List (String × FieldKind)) : List (String × FieldKind) :=
  pairs.map fun pair ↦ (entryName pair.1, settledKind pair.2)

theorem settledFields_fieldsOf {pairs : List (String × FieldKind)}
    (h : ((Keyed.keys pairs).map fieldName).Nodup) :
    settledFields [] (fieldsOf pairs) = fieldsOf (settledPairs pairs) := by
  rw [settledFields_of_nodup (by rwa [List.nil_append, map_name_fieldsOf]), List.nil_append,
    fieldsOf, fieldsOf, settledPairs, List.map_map, List.map_map]
  exact List.map_congr_left fun pair _ ↦ congrArg (·, _) (settledName_fieldOf pair.1)

/-! ### Reading -/

/-- If every member of a list has something that corresponds to it, so has the list. -/
theorem exists_forall₂ {rel : α → β → Prop} {xs : List α} (h : ∀ x ∈ xs, ∃ y, rel x y) :
    ∃ ys, List.Forall₂ rel xs ys := by
  induction xs with
  | nil => exact ⟨[], .nil⟩
  | cons x rest ih =>
    obtain ⟨y, hy⟩ := h x List.mem_cons_self
    obtain ⟨ys, hys⟩ := ih fun other hother ↦ h other (List.mem_cons_of_mem x hother)
    exact ⟨y :: ys, .cons hy hys⟩

/-- What an object has for a field: the entry of the field reads as the field's kind, or there is
none where none is needed. -/
def ReadsField (entries : List (String × Value)) (field : String × FieldKind)
    (result : String × Value) : Prop :=
  field.1 = result.1 ∧
    ((∃ key value, RecordCheck.entry? (fieldOf field.1) entries = some (key, value) ∧
        RecordCheck.checkKind field.2 value = .ok result.2) ∨
      RecordCheck.entry? (fieldOf field.1) entries = none ∧ field.2.isRequired = false ∧
        result.2 = .null)

/-- What it takes to read a first field and the others. -/
theorem checkFields_cons_eq_ok_iff {entries : List (String × Value)} {field : FieldName}
    {kind : FieldKind} {rest : List (FieldName × FieldKind)} {fields : List (FieldName × Value)} :
    RecordCheck.checkFields ((field, kind) :: rest) entries = .ok fields ↔
      ∃ value others, fields = (field, value) :: others ∧
        ((∃ key found, RecordCheck.entry? field entries = some (key, found) ∧
            RecordCheck.checkKind kind found = .ok value) ∨
          RecordCheck.entry? field entries = none ∧ kind.isRequired = false ∧ value = .null) ∧
        RecordCheck.checkFields rest entries = .ok others := by
  constructor
  · intro h
    rw [RecordCheck.checkFields] at h
    split at h
    · next value others hboth =>
      obtain ⟨hvalue, hothers⟩ := Checked.both_eq_ok_iff.1 hboth
      refine ⟨value, others, (Except.ok.inj h).symm, ?_, hothers⟩
      split at hvalue
      · next key found hentry => exact Or.inl ⟨key, found, hentry, Checked.below_eq_ok_iff.1 hvalue⟩
      · next hentry =>
        split at hvalue
        · cases hvalue
        · next hneeded =>
          exact Or.inr ⟨hentry, Bool.eq_false_iff.2 hneeded, (Except.ok.inj hvalue).symm⟩
    · cases h
  · rintro ⟨value, others, rfl, ⟨key, found, hentry, hcheck⟩ | ⟨hentry, hneeded, rfl⟩, hothers⟩
    · simp only [RecordCheck.checkFields, hentry, hcheck, hothers, Checked.below, Checked.both]
    · simp only [RecordCheck.checkFields, hentry, hneeded, hothers, Checked.both,
        Bool.false_eq_true, if_false]

/-- An object is read as a record exactly where it has all fields. -/
theorem checkFields_fieldsOf_eq_ok_iff {entries : List (String × Value)}
    {pairs : List (String × FieldKind)} : ∀ {fields : List (FieldName × Value)},
      RecordCheck.checkFields (fieldsOf pairs) entries = .ok fields ↔
        ∃ results, fields = fieldsOf results ∧ List.Forall₂ (ReadsField entries) pairs results := by
  induction pairs with
  | nil =>
    intro fields
    change Except.ok [] = Except.ok fields ↔ _
    constructor
    · rintro ⟨⟩
      exact ⟨[], rfl, .nil⟩
    · rintro ⟨_, rfl, ⟨⟩⟩
      rfl
  | cons pair rest ih =>
    intro fields
    obtain ⟨name, kind⟩ := pair
    change RecordCheck.checkFields ((fieldOf name, kind) :: fieldsOf rest) entries = _ ↔ _
    rw [checkFields_cons_eq_ok_iff]
    constructor
    · rintro ⟨value, others, rfl, hvalue, hothers⟩
      obtain ⟨results, rfl, hresults⟩ := ih.1 hothers
      exact ⟨(name, value) :: results, rfl, .cons ⟨rfl, hvalue⟩ hresults⟩
    · rintro ⟨results, rfl, hresults⟩
      obtain ⟨⟨_, value⟩, others, ⟨rfl, hvalue⟩, hothers, rfl⟩ :=
        List.forall₂_cons_left_iff.1 hresults
      exact ⟨value, fieldsOf others, rfl, hvalue, ih.2 ⟨others, rfl, hothers⟩⟩

/-- What an object has for a field: an entry that reads as the field's kind, or none where none is
needed. -/
def HasField (entries : List (String × Value)) (field : String × FieldKind)
    (result : String × Value) : Prop :=
  field.1 = result.1 ∧
    ((∃ value, entries.lookup field.1 = some value ∧
        RecordCheck.checkKind field.2 value = .ok result.2) ∨
      entries.lookup field.1 = none ∧ field.2.isRequired = false ∧ result.2 = .null)

/-- An object that has all fields reads as the record of what it has. -/
theorem checkFields_fieldsOf {entries : List (String × Value)} {fields : List (String × FieldKind)}
    {results : List (String × Value)} (hfree : ∀ field ∈ fields, fieldName field.1 ≠ field.1 →
      entries.lookup (fieldName field.1) = none)
    (h : List.Forall₂ (HasField entries) fields results) :
    RecordCheck.checkFields (fieldsOf fields) entries = .ok (fieldsOf results) := by
  refine checkFields_fieldsOf_eq_ok_iff.2 ⟨results, rfl,
    ((List.forall₂_and_left _ _).2 ⟨hfree, h⟩).imp ?_⟩
  rintro field result ⟨hfield, hname, hcases⟩
  refine ⟨hname, ?_⟩
  rw [entry?_fieldOf hfield]
  rcases hcases with ⟨value, hlookup, hcheck⟩ | ⟨hlookup, hnull⟩
  · rw [hlookup]
    exact Or.inl ⟨field.1, value, rfl, hcheck⟩
  · rw [hlookup]
    exact Or.inr ⟨rfl, hnull⟩

end RecordLayout

end MarkupBinding
