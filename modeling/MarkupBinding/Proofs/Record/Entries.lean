import MarkupBinding.Proofs.Record.Toggles

/-!
# What records show of an input

`Shown` relates an object to a record that shows, under every name that a component declares, the
value of the name that answers for it, and so on in nested components; `ShownAt` is the same at one
name. The answer that a template expects is the name itself. The record that an object is read as
gives another one: a name is answered for by its holder among the names of the component
(`readsShown`), so that a value is lost where its field name is taken by a later name.

In the input itself the fields of toggle flags come behind those. No such field takes the place of
another one, but it may be called like something that the input declares; `Schema.FlagsKeepOut` says
that none is. Then an input that fits its schema is accepted and shown with holders for answers, and
with the names themselves where those of every component are separate; and if a flag does not keep
out, a name of the input shows a flag's value (`Schema.exists_record_shows`).
-/

set_option autoImplicit false
set_option relaxedAutoImplicit false

namespace MarkupBinding

open RecordName RecordLayout

mutual

/-- A record shows under each name of a component the value that an object has for the answer to the
name. -/
inductive Shown (answer : List String → String → Option String) : Component → Value → Value → Prop
  | intro {c : Component} {entries : List (String × Value)} {type : String}
      {fields : List (FieldName × Value)}
      (h : ∀ name ∈ c.declared, ShownAt answer c entries (answer c.declared name)
        ((Value.record type fields).property? name)) :
      Shown answer c (.object entries) (.record type fields)

/-- What is shown is nothing where there is no answer, else the value for it: a text, or a whole
number as its text, for a property; a record or a list of records for a nested component. -/
inductive ShownAt (answer : List String → String → Option String) :
    Component → List (String × Value) → Option String → Option Value → Prop
  | lost {c : Component} {entries : List (String × Value)} : ShownAt answer c entries none none
  | text {c : Component} {entries : List (String × Value)} {name s : String}
      (hproperty : name ∈ Keyed.keys c.properties)
      (hvalue : entries.lookup name = some (.string s)) :
      ShownAt answer c entries (some name) (some (.string s))
  | number {c : Component} {entries : List (String × Value)} {name : String} {n : Int}
      (hproperty : name ∈ Keyed.keys c.properties) (hvalue : entries.lookup name = some (.int n)) :
      ShownAt answer c entries (some name) (some (.string (intText n)))
  | single {c inner : Component} {entries : List (String × Value)} {name : String}
      {value result : Value} (hinner : (name, inner) ∈ c.components) (harray : inner.array = false)
      (hvalue : entries.lookup name = some value) (h : Shown answer inner value result) :
      ShownAt answer c entries (some name) (some result)
  | list {c inner : Component} {entries : List (String × Value)} {name : String}
      {items results : List Value} (hinner : (name, inner) ∈ c.components)
      (harray : inner.array = true) (hvalue : entries.lookup name = some (.list items))
      (hlength : items.length = results.length)
      (h : ∀ pair ∈ items.zip results, Shown answer inner pair.1 pair.2) :
      ShownAt answer c entries (some name) (some (.list results))

end

/-- What is shown for an answer is not null. -/
theorem ShownAt.present {answer : List String → String → Option String} {c : Component}
    {entries : List (String × Value)} {name : String} {result : Value}
    (h : ShownAt answer c entries (some name) (some result)) :
    Value.present (some result) = some result := by
  cases h with
  | text | number | list => rfl
  | single _ _ _ h =>
    cases h
    rfl

/-- What is shown for an answer hangs on what is shown of nested components. -/
theorem ShownAt.imp {answer other : List String → String → Option String} {c : Component}
    (hbelow : ∀ pair ∈ c.components, ∀ value result, Shown answer pair.2 value result →
      Shown other pair.2 value result)
    {entries : List (String × Value)} {found : Option String} {shown : Option Value}
    (h : ShownAt answer c entries found shown) : ShownAt other c entries found shown := by
  cases h with
  | lost => exact .lost
  | text hproperty hvalue => exact .text hproperty hvalue
  | number hproperty hvalue => exact .number hproperty hvalue
  | single hinner harray hvalue h => exact .single hinner harray hvalue (hbelow _ hinner _ _ h)
  | list hinner harray hvalue hlength h =>
    exact .list hinner harray hvalue hlength fun pair hpair ↦ hbelow _ hinner _ _ (h pair hpair)

/-- What is shown hangs on the answers for the names that components declare. -/
theorem Shown.congr {answer other : List String → String → Option String} {c : Component} :
    (∀ node ∈ c.nodes, ∀ name ∈ node.declared,
      answer node.declared name = other node.declared name) →
    ∀ value result, Shown answer c value result → Shown other c value result := by
  induction c using Component.induction_on_components with
  | step properties components array itemName ih =>
    intro hsame value result h
    have hself := Component.mem_nodes_self ⟨properties, components, array, itemName⟩
    have hbelow : ∀ pair ∈ components, ∀ value result,
        Shown answer pair.2 value result → Shown other pair.2 value result := fun pair hpair ↦
      ih pair hpair fun node hnode ↦ hsame node (Component.nodes_subset_of_mem
        (show pair ∈ Component.components ⟨properties, components, array, itemName⟩ from hpair)
        hnode)
    cases h with
    | intro h =>
      refine .intro fun name hname ↦ ?_
      rw [← hsame _ hself name hname]
      exact (h name hname).imp hbelow

namespace RecordLayout

variable {s : Schema} {entries : List (String × Value)}

/-- An object has a field, and what it is read as shows what a component declares under its name. -/
def ShowsField (c : Component) (entries : List (String × Value)) (field : String × FieldKind)
    (result : String × Value) : Prop :=
  ReadsField entries field result ∧ ShownAt holder c entries (some field.1) (some result.2)

/-- A value is found under its own name before it is looked for under the field name. -/
theorem entry?_of_lookup {name : String} {value : Value} (h : entries.lookup name = some value) :
    RecordCheck.entry? (fieldOf name) entries = some (name, value) := by
  rw [RecordCheck.entry?, publicName_fieldOf, name_fieldOf]
  by_cases hself : fieldName name = name
  · rw [if_pos hself, hself, h]
    rfl
  · rw [if_neg hself]
    simp only [h]

/-- A record of settled fields shows under a name what is shown for the holder of the name. -/
theorem shownAt_property? {c : Component} {pairs : List (String × FieldKind)}
    (hnames : "" ∉ Keyed.keys pairs) {rel : String × FieldKind → String × Value → Prop}
    (hshown : ∀ field ∈ settled pairs, ∀ result, rel field result →
      ShownAt holder c entries (some field.1) (some result.2))
    {type : String} {results : List (String × Value)} {name : String}
    (h : Option.Rel rel (pairFor? name (settled pairs)) (pairFor? name results)) :
    ShownAt holder c entries (holder (Keyed.keys pairs) name)
      ((Value.record type (fieldsOf results)).property? name) := by
  rw [← map_pairFor?_settled name hnames, Value.property?, fieldValue?_fieldsOf_eq_pairFor?]
  cases hfield : pairFor? name (settled pairs) with
  | none =>
    rw [hfield] at h
    rw [eq_none_of_rel_none h]
    exact .lost
  | some field =>
    rw [hfield] at h
    obtain ⟨result, hresult, hrel⟩ := exists_of_rel_some h
    have hat := hshown field (mem_of_pairFor? hfield) result hrel
    rw [hresult, Option.map_some, Option.map_some, hat.present]
    exact hat

/-- What an object holds for a component is read as the fields of its parts, and shown. -/
theorem exists_showsField {c : Component}
    (hreads : ∀ pair ∈ c.components, ReadsAs (Shown holder pair.2) pair.2)
    (h : c.holds entries = true) {nested : List (String × FieldKind)}
    (hnested : List.Forall₂ IsNested c.components nested) (hnamed : "" ∉ c.declared) :
    ∀ field ∈ settled (nested ++ textFields c.properties),
      ∃ result, ShowsField c entries field result := by
  intro field hfield
  rw [← keys_append_textFields hnested] at hnamed
  obtain ⟨kind, hmem, hkind⟩ := exists_of_mem_settled_of_named hnamed hfield
  -- a part has its value under its own name, so only what is shown for it depends on its kind
  have hpart : ∀ {value result : Value}, entries.lookup field.1 = some value →
      RecordCheck.checkKind field.2 value = .ok result →
      ShownAt holder c entries (some field.1) (some result) →
      ∃ result, ShowsField c entries field result := fun hvalue hcheck hshown ↦
    ⟨(field.1, _), ⟨rfl, Or.inl ⟨_, _, entry?_of_lookup hvalue, hcheck⟩⟩, hshown⟩
  obtain ⟨properties, components, array, itemName⟩ := c
  rw [Component.holds, Bool.and_eq_true, List.all_eq_true] at h
  rcases List.mem_append.1 hmem with hin | hin
  · obtain ⟨pair, hpair, hname, source, taken, hnestedKind⟩ := exists_of_mem_forall₂ hnested hin
    obtain ⟨value, hlookup, hvalue⟩ := exists_lookup_of_holdsAll h.2 hpair
    simp only at hname hnestedKind
    rw [hname] at hlookup
    have hinner : (field.1, pair.2) ∈ components := hname ▸ hpair
    rw [hnestedKind, settledKind] at hkind
    rcases hvalue with ⟨harray, hfits⟩ | ⟨harray, items, rfl, hitems⟩
    · obtain ⟨result, hcheck, hshown⟩ :=
        exists_checkKind_single (hreads pair hpair) hfits source taken
          (typeOf source taken pair.2).1.name
      rw [harray] at hkind
      exact hpart hlookup (hkind ▸ hcheck) (.single hinner harray hlookup hshown)
    · obtain ⟨results, hcheck, hshown⟩ :=
        exists_checkKind_list (hreads pair hpair) hitems source taken
          (typeOf source taken pair.2).1.name
      rw [harray] at hkind
      exact hpart hlookup (hkind ▸ hcheck) (.list hinner harray hlookup hshown.length_eq
        fun _ hmember ↦ List.forall₂_zip hshown hmember)
  · obtain ⟨property, hproperty, hsame⟩ := List.mem_map.1 hin
    obtain ⟨hname, rfl⟩ := Prod.mk.inj hsame
    obtain ⟨value, hlookup, htext⟩ := Option.any_eq_true _ _ |>.1 (h.1 property hproperty)
    rw [hname] at hlookup
    have hdeclared : field.1 ∈ Keyed.keys properties := hname ▸ List.mem_map_of_mem hproperty
    have hread : field.2 = .text := hkind
    cases value with
    | string s => exact hpart hlookup (by rw [hread]; rfl) (.text hdeclared hlookup)
    | int n => exact hpart hlookup (by rw [hread]; rfl) (.number hdeclared hlookup)
    | null | bool | float | list | object | record => cases htext

/-- An object of the shape of a component without empty names is read as a record that shows under
each name the value for its holder. -/
theorem readsShown (c : Component) : c.Named → ReadsAs (Shown holder c) c := by
  induction c using Component.induction_on_components with
  | step properties components array itemName ih =>
    intro hnamed source taken type entries hkeys hholds
    have hself := hnamed _ (Component.mem_nodes_self _)
    obtain ⟨nested, hfields, hnested⟩ := exists_fields_typeOf source taken
      ⟨properties, components, array, itemName⟩
    obtain ⟨results, hresults⟩ := exists_forall₂ (exists_showsField
      (fun pair hpair ↦ ih pair hpair (hnamed.below hpair)) hholds hnested hself)
    rw [hfields, settledFields_eq_settled]
    refine ⟨fieldsOf results, checkFields_fieldsOf_eq_ok_iff.2
      ⟨results, rfl, hresults.imp fun _ _ hfield ↦ hfield.1⟩, .intro fun name _ ↦ ?_⟩
    rw [← keys_append_textFields hnested] at hself ⊢
    exact shownAt_property? hself (fun _ _ _ hfield ↦ hfield.2)
      (rel_pairFor? (fun _ _ hfield ↦ hfield.1.1) hresults name)

end RecordLayout

/-! ### Inputs -/

namespace Schema

/-- No flag that is kept is called, by its field name, like something that the input declares. -/
def FlagsKeepOut (s : Schema) : Prop :=
  ∀ flag ∈ s.keptFlags, fieldName flag ∉ s.declared

instance (s : Schema) : Decidable s.FlagsKeepOut :=
  inferInstanceAs (Decidable (∀ flag ∈ s.keptFlags, fieldName flag ∉ s.declared))

/-- The record of an input shows what the outermost component declares, in itself if that is called
like the root scope, else under its name. -/
def Shows (s : Schema) (answer : List String → String → Option String)
    (entries : List (String × Value)) (record : Value) : Prop :=
  if s.name == rootScope then Shown answer s.root (.object entries) record
  else ∃ value result, entries.lookup s.name = some value ∧ record.property? s.name = some result ∧
    Shown answer s.root value result

theorem Shows.congr {s : Schema} {answer other : List String → String → Option String}
    {entries : List (String × Value)} {record : Value}
    (hsame : ∀ node ∈ s.root.nodes, ∀ name ∈ node.declared,
      answer node.declared name = other node.declared name)
    (h : s.Shows answer entries record) : s.Shows other entries record := by
  unfold Shows at h ⊢
  split at h
  · next hroot =>
    rw [if_pos hroot]
    exact Shown.congr hsame _ _ h
  · next hroot =>
    rw [if_neg hroot]
    obtain ⟨value, result, hvalue, hresult, h⟩ := h
    exact ⟨value, result, hvalue, hresult, Shown.congr hsame _ _ h⟩

end Schema

namespace RecordLayout

variable {s : Schema} {entries : List (String × Value)}

/-- Where flags keep out, a name that the input declares shows no field of a flag. -/
theorem pairFor?_append_of_flagsKeepOut (hkeep : s.FlagsKeepOut) {name : String}
    (hname : name ∈ s.declared) (own : List (String × FieldKind)) :
    pairFor? name (own ++ flagFields s.keptFlags) = pairFor? name own := by
  have hfields : ((flagFields s.keptFlags).find? fun pair ↦ fieldName pair.1 == name) = none := by
    rw [List.find?_eq_none]
    intro pair hpair heq
    obtain ⟨flag, hflag, rfl⟩ := List.mem_map.1 hpair
    exact hkeep flag hflag (eq_of_beq heq ▸ hname)
  have hkeys : ((flagFields s.keptFlags).find? fun pair ↦ pair.1 == name) = none := by
    rw [List.find?_eq_none]
    intro pair hpair heq
    obtain ⟨flag, hflag, rfl⟩ := List.mem_map.1 hpair
    obtain rfl : flag = name := eq_of_beq heq
    exact not_mem_declared_of_mem_keptFlags hflag (List.mem_map_of_mem hname)
  rw [pairFor?, pairFor?, List.find?_append, List.find?_append, hfields, hkeys, Option.or_none,
    Option.or_none]

/-- The entry of a flag stands under the flag itself or under its field name. -/
theorem mem_of_entry? {flag key : String} {value : Value}
    (h : RecordCheck.entry? (fieldOf flag) entries = some (key, value)) :
    (key, value) ∈ entries ∧ (key = flag ∨ key = fieldName flag) := by
  have hown : ∀ name, (entries.lookup name).map (fun found ↦ (name, found)) = some (key, value) →
      (key, value) ∈ entries ∧ key = name := by
    intro name hfound
    obtain ⟨found, hlookup, heq⟩ := Option.map_eq_some_iff.1 hfound
    obtain ⟨rfl, rfl⟩ := Prod.mk.inj heq
    exact ⟨Keyed.mem_of_lookup hlookup, rfl⟩
  rw [RecordCheck.entry?, publicName_fieldOf, name_fieldOf] at h
  split at h
  · exact (hown _ h).imp_right Or.inr
  · next shown hshown =>
    obtain rfl : flag = shown := by
      split at hshown
      · cases hshown
      · exact Option.some.inj hshown
    split at h
    · next found hlookup =>
      obtain ⟨rfl, rfl⟩ := Prod.mk.inj (Option.some.inj h)
      exact ⟨Keyed.mem_of_lookup hlookup, Or.inl rfl⟩
    · exact (hown _ h).imp_right Or.inr

/-- Where flags keep out, an input that fits has something for each of them. -/
theorem exists_readsField_flag (hkeep : s.FlagsKeepOut) (h : s.fits (.object entries) = true) :
    ∀ field ∈ flagFields s.keptFlags, ∃ result, ReadsField entries field result := by
  intro field hfield
  obtain ⟨flag, hflag, rfl⟩ := List.mem_map.1 hfield
  cases hentry : RecordCheck.entry? (fieldOf flag) entries with
  | none => exact ⟨(flag, .null), rfl, Or.inr ⟨hentry, rfl, rfl⟩⟩
  | some entry =>
    obtain ⟨key, value⟩ := entry
    obtain ⟨hmem, hkey⟩ := mem_of_entry? hentry
    rw [Schema.fits, Bool.and_eq_true, List.all_eq_true] at h
    have hnotDeclared : key ∉ s.declared := by
      rcases hkey with rfl | rfl
      · exact fun hdeclared ↦
          not_mem_declared_of_mem_keptFlags hflag (List.mem_map_of_mem hdeclared)
      · exact hkeep flag hflag
    have hisFlag : value.isFlag = true := by
      have hallowed := h.1 _ hmem
      simp [hnotDeclared] at hallowed
      exact hallowed.2
    refine ⟨(flag, value), rfl, Or.inl ⟨key, value, hentry, ?_⟩⟩
    cases value with
    | null | bool => rfl
    | int | float | string | list | object | record => cases hisFlag

/-- Fields that an object has, and flags behind them, are read together. -/
theorem exists_results {shows : String × FieldKind → String × Value → Prop}
    {own : List (String × FieldKind)}
    (hown : ∀ field ∈ own, ∃ result, ReadsField entries field result ∧ shows field result)
    (hkeep : s.FlagsKeepOut) (h : s.fits (.object entries) = true) :
    ∃ results, List.Forall₂
      (fun field result ↦ ReadsField entries field result ∧
        (field.2.isRequired = true → shows field result))
      (own ++ flagFields s.keptFlags) results := by
  refine exists_forall₂ fun field hfield ↦ ?_
  rcases List.mem_append.1 hfield with hin | hin
  · obtain ⟨result, hread, hshows⟩ := hown field hin
    exact ⟨result, hread, fun _ ↦ hshows⟩
  · obtain ⟨result, hread⟩ := exists_readsField_flag hkeep h field hin
    obtain ⟨flag, -, rfl⟩ := List.mem_map.1 hin
    exact ⟨result, hread, fun hneeded ↦ nomatch hneeded⟩

/-- Where flags keep out, an input of the root scope is read as a record that shows under each name
the value for its holder. -/
theorem exists_record_shown (hnamed : s.Named) (hkeep : s.FlagsKeepOut)
    (h : s.fits (.object entries) = true) (hroot : (s.name == rootScope) = true)
    (hholds : s.root.holds entries = true) :
    ∃ record, s.checkInput (.object entries) = .ok record ∧
      Shown holder s.root (.object entries) record := by
  obtain ⟨nested, hnested, hown⟩ := exists_isOwn s
  rw [ownFields, if_pos hroot] at hown
  have hself := hnamed.2 _ (Component.mem_nodes_self s.root)
  obtain ⟨results, hresults⟩ := exists_results (exists_showsField
    (fun pair hpair ↦ readsShown pair.2 (hnamed.2.below hpair)) hholds hnested hself) hkeep h
  refine ⟨_, (checkInput_object_eq_ok_iff hown).2
    ⟨results, rfl, hresults.imp fun _ _ hfield ↦ hfield.1⟩, .intro fun name hname ↦ ?_⟩
  have hdeclared : name ∈ s.declared := by rwa [Schema.declared, if_pos hroot]
  have hrel := rel_pairFor? (fun _ _ hfield ↦ hfield.1.1) hresults name
  rw [pairFor?_append_of_flagsKeepOut hkeep hdeclared] at hrel
  rw [← keys_append_textFields hnested] at hself ⊢
  exact shownAt_property? hself (fun _ hfield _ hread ↦
    hread.2 (isRequired_of_mem_settled hnested hfield)) hrel

/-- Where flags keep out, an input with the outermost component under its name is read as a record
that shows it there. -/
theorem exists_record_shown_nested (hnamed : s.Named) (hkeep : s.FlagsKeepOut)
    (h : s.fits (.object entries) = true) (hnested : (s.name == rootScope) = false) {value : Value}
    (hlookup : entries.lookup s.name = some value) (hfits : s.root.fits value = true) :
    ∃ record result, s.checkInput (.object entries) = .ok record ∧
      record.property? s.name = some result ∧ Shown holder s.root value result := by
  obtain ⟨nested, -, hown⟩ := exists_isOwn s
  rw [ownFields, hnested, entryName_of_ne hnamed.1] at hown
  change IsOwn s [_] at hown
  obtain ⟨result, hcheck, hshown⟩ := exists_checkKind_single (readsShown s.root hnamed.2) hfits
    s.name [inputName] s.rootType.name
  have hfields : ∀ field ∈ [(s.name, FieldKind.nested false s.rootType.name
      (settledFields [] s.rootType.fields))], ∃ result, ReadsField entries field result ∧
        Shown holder s.root value result.2 := by
    intro field hfield
    rw [List.mem_singleton.1 hfield]
    exact ⟨(s.name, result), ⟨rfl, Or.inl ⟨s.name, value, entry?_of_lookup hlookup, hcheck⟩⟩,
      hshown⟩
  obtain ⟨results, hresults⟩ := exists_results hfields hkeep h
  have hdeclared : s.name ∈ s.declared := by
    rw [Schema.declared, hnested]
    exact List.mem_singleton_self _
  have hrel := rel_pairFor? (fun _ _ hfield ↦ hfield.1.1) hresults s.name
  rw [pairFor?_append_of_flagsKeepOut hkeep hdeclared] at hrel
  have hself : ∀ kind : FieldKind, pairFor? s.name [(s.name, kind)] = some (s.name, kind) := by
    intro kind
    unfold pairFor?
    cases hfield : fieldName s.name == s.name <;> simp [hfield]
  rw [hself] at hrel
  obtain ⟨⟨name, found⟩, hresult, -, hshows⟩ := exists_of_rel_some hrel
  refine ⟨_, found, (checkInput_object_eq_ok_iff hown).2
    ⟨results, rfl, hresults.imp fun _ _ hfield ↦ hfield.1⟩, ?_, hshows rfl⟩
  rw [Value.property?, fieldValue?_fieldsOf_eq_pairFor?, hresult]
  cases hshows rfl
  rfl

/-- The field of a flag is read as a truth value or null. -/
theorem isFlag_of_readsField {flag : String} {result : String × Value}
    (h : ReadsField entries (flag, .flag) result) : result.2.isFlag = true := by
  obtain ⟨-, ⟨key, found, -, hcheck⟩ | ⟨-, -, hnull⟩⟩ := h
  · rcases checkKind_flag_eq_ok_iff.1 hcheck with ⟨-, hnull⟩ | ⟨b, -, -, hbool⟩
    · rw [hnull]
      rfl
    · rw [hbool]
      rfl
  · rw [hnull]
    rfl

/-- Where a flag does not keep out, a name of the input shows what is read for a flag. -/
theorem exists_property?_isFlag (hkeep : ¬ s.FlagsKeepOut) {record : Value}
    (h : s.checkInput (.object entries) = .ok record) :
    ∃ name ∈ s.declared, (record.property? name).all Value.isFlag = true := by
  simp only [Schema.FlagsKeepOut, not_forall, not_not] at hkeep
  obtain ⟨flag, hflag, hdeclared⟩ := hkeep
  refine ⟨fieldName flag, hdeclared, ?_⟩
  obtain ⟨nested, hnested, hown⟩ := exists_isOwn s
  obtain ⟨results, rfl, hresults⟩ := (checkInput_object_eq_ok_iff hown).1 h
  have hrel := rel_pairFor? (fun _ _ hread ↦ hread.1) hresults (fieldName flag)
  obtain ⟨other, hother⟩ := exists_heard_fieldName hflag
  rcases pairFor?_append_flagFields (fun _ ↦ mem_map_keys_ownFields hnested) (fieldName flag) with
    ⟨hnone, -⟩ | hfound
  · rw [hother] at hnone
    cases hnone
  rw [hfound, hother] at hrel
  rw [Value.property?, fieldValue?_fieldsOf_eq_pairFor?]
  obtain ⟨result, hresult, hread⟩ := exists_of_rel_some hrel
  have hisFlag := isFlag_of_readsField hread
  rw [hresult, Option.map_some]
  cases hvalue : result.2 with
  | null => rfl
  | bool b => rfl
  | int | float | string | list | object | record => rw [hvalue] at hisFlag; cases hisFlag

end RecordLayout

/-- An input of exactly the shape of a schema that is read off a document is accepted if the
schema's flags keep out, and then each name of a component shows the value for its holder there;
that is the name itself if the names of every component are separate. Otherwise a name of the input
shows the value of a flag. -/
theorem Schema.exists_record_shows {d : Document} {includeEmpty : Bool} {s : Schema}
    (hextract : (d.extract includeEmpty).result = .ok (some s)) {entries : List (String × Value)}
    (h : s.fits (.object entries) = true) :
    (s.FlagsKeepOut → ∃ record, s.checkInput (.object entries) = .ok record ∧
      s.Shows holder entries record ∧
      ((∀ node ∈ s.root.nodes, Separate node.declared) →
        s.Shows (fun _ name ↦ some name) entries record)) ∧
    (¬ s.FlagsKeepOut → ∀ record, s.checkInput (.object entries) = .ok record →
      ∃ name ∈ s.declared, (record.property? name).all Value.isFlag = true) := by
  refine ⟨fun hkeep ↦ ?_, fun hkeep record ↦ exists_property?_isFlag hkeep⟩
  have hnamed := d.named_extract hextract
  have hshows : ∃ record, s.checkInput (.object entries) = .ok record ∧
      s.Shows holder entries record := by
    have hholds : s.holds entries = true := by
      rw [fits, Bool.and_eq_true] at h
      exact h.2
    unfold holds at hholds
    unfold Shows
    cases hroot : s.name == rootScope with
    | true =>
      rw [hroot] at hholds
      exact exists_record_shown hnamed hkeep h hroot hholds
    | false =>
      rw [hroot] at hholds
      obtain ⟨value, hlookup, hfits⟩ := Option.any_eq_true _ _ |>.1 hholds
      obtain ⟨record, result, hcheck, hresult, hshown⟩ :=
        exists_record_shown_nested hnamed hkeep h hroot hlookup hfits
      exact ⟨record, hcheck, value, result, hlookup, hresult, hshown⟩
  obtain ⟨record, hcheck, hshows⟩ := hshows
  refine ⟨record, hcheck, hshows, fun hsep ↦ hshows.congr fun node hnode ↦ ?_⟩
  exact holder_eq_self_iff_separate.2 (hsep node hnode)

/-- A sheet with two numbers of an order. -/
def numberedSheet (first second : String) : Document :=
  [.element ⟨"main", [(Mark.component, .plain "root")]⟩
    [.element ⟨"b", [(Mark.textContent, .plain first)]⟩ [],
      .element ⟨"i", [(Mark.textContent, .plain second)]⟩ []]]

theorem exists_record_shows_numberedSheet :
    let entries := [("order-no", Value.string "1"), ("copy", .string "2")]
    ∃ schema, ((numberedSheet "order-no" "copy").extract false).result = .ok (some schema) ∧
      schema.fits (.object entries) = true ∧ schema.FlagsKeepOut ∧
      (∀ node ∈ schema.root.nodes, Separate node.declared) ∧
      ∃ record, schema.checkInput (.object entries) = .ok record ∧
        schema.Shows (fun _ name ↦ some name) entries record := by
  intro entries
  obtain ⟨schema, hextract, hmeets⟩ := exists_schema_of_any (numberedSheet "order-no" "copy")
    (fun schema ↦ decide (schema.fits (.object entries) = true ∧ schema.FlagsKeepOut ∧
      ∀ node ∈ schema.root.nodes, Separate node.declared))
    (by decide +kernel)
  obtain ⟨hfits, hkeep, hsep⟩ := of_decide_eq_true hmeets
  obtain ⟨record, hcheck, -, hshows⟩ := (Schema.exists_record_shows hextract hfits).1 hkeep
  exact ⟨schema, hextract, hfits, hkeep, hsep, record, hcheck, hshows hsep⟩

/-- Of two names with the same field name the first one is not there in the record. -/
theorem not_shows_numberedSheet :
    ¬ ∀ (d : Document) (schema : Schema) (entries : List (String × Value)),
      (d.extract false).result = .ok (some schema) → schema.fits (.object entries) = true →
        ∃ record, schema.checkInput (.object entries) = .ok record ∧
          schema.Shows (fun _ name ↦ some name) entries record := by
  intro hclaim
  let entries := [("order-no", Value.string "1"), ("order_no", .string "2")]
  obtain ⟨schema, hextract, hmeets⟩ := exists_schema_of_any (numberedSheet "order-no" "order_no")
    (fun schema ↦ decide (schema.fits (.object entries) = true ∧
      (schema.name == rootScope) = true ∧ "order-no" ∈ schema.root.declared ∧
      ((schema.checkInput (.object entries)).toOption.all fun record ↦
        (record.property? "order-no").isNone) = true))
    (by decide +kernel)
  obtain ⟨hfits, hroot, hdeclared, hlost⟩ := of_decide_eq_true hmeets
  obtain ⟨record, hcheck, hshows⟩ :=
    hclaim (numberedSheet "order-no" "order_no") schema entries hextract hfits
  rw [hcheck] at hlost
  have hnone : record.property? "order-no" = none := Option.isNone_iff_eq_none.1 hlost
  rw [Schema.Shows, if_pos hroot] at hshows
  cases hshows with
  | intro h =>
    have hat := h "order-no" hdeclared
    rw [hnone] at hat
    cases hat

end MarkupBinding
