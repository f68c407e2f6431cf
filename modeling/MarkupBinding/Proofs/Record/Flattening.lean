import MarkupBinding.Proofs.Record.Naming
import MarkupBinding.Proofs.Record.Typed

/-!
# The list of record types

A schema is flattened to a list of record types: the type of a component stands behind those of the
components nested in it, and its fields are one per nested component and then one per property
(`Flattens`). From that shape alone it follows that there are as many types as components
(`Flattens.length_eq`), that each use of a type stands behind the type (`Flattens.useEarlier`), and
that the uses are those of all types but the last, each once (`Flattens.targets_perm`).

That names do not clash is kept on the way down: a type claims its name before the types inside it
do, and the names claimed are then those of the types that are listed (`typeOf_claims`).
`Schema.recordTypes_flattening` puts both together.
-/

set_option autoImplicit false
set_option relaxedAutoImplicit false

namespace MarkupBinding

/-- The name of the type that a field of the kind uses. -/
def FieldKind.target? : FieldKind → Option String
  | nested _ type _ => some type
  | _ => none

/-- The names of the types that the fields of a type use, in order. -/
def RecordType.targets (t : RecordType) : List String :=
  t.fields.filterMap (·.2.target?)

/-- Every type that a type of the list uses stands strictly before it. -/
def RecordType.UseEarlier (types : List RecordType) : Prop :=
  ∀ i t, types[i]? = some t → ∀ target ∈ t.targets, ∃ used ∈ types.take i, used.name = target

/-- Uses stay behind what is used when further types are put behind, if these use only types that
stand before them. -/
theorem RecordType.UseEarlier.append {types others : List RecordType}
    (htypes : RecordType.UseEarlier types)
    (hothers : ∀ i t, others[i]? = some t → ∀ target ∈ t.targets,
      ∃ used ∈ types ++ others.take i, used.name = target) :
    RecordType.UseEarlier (types ++ others) := by
  intro i t ht target htarget
  rw [List.take_append]
  by_cases hi : i < types.length
  · rw [List.getElem?_append_left hi] at ht
    obtain ⟨used, hused, hname⟩ := htypes i t ht target htarget
    exact ⟨used, List.mem_append_left _ hused, hname⟩
  · rw [List.getElem?_append_right (Nat.le_of_not_lt hi)] at ht
    rw [List.take_of_length_le (Nat.le_of_not_lt hi)]
    exact hothers _ t ht target htarget

namespace RecordLayout

mutual

/-- The record type of a component, and before it those of the components nested in it. It is named
for the template name given; its fields are those for the nested components in order, then a text
for each property in order. -/
inductive Flattens : String → Component → List RecordType → RecordType → Prop
  | component {source : String} {properties : List (String × String)}
      {components : List (String × Component)}
      {array : Bool} {itemName : Option String} {before : List RecordType} {name : String}
      {fields : List (FieldName × FieldKind)} (hname : NamedFor source name)
      (hcomponents : FlattenAll components before fields) :
      Flattens source ⟨properties, components, array, itemName⟩ before
        ⟨name, fields ++ properties.map fun property ↦ (fieldOf property.1, .text)⟩

/-- The record types of nested components, each behind those of the components nested in it, and a
field for each of them: a list of records of its type if it is a list, else such a record. -/
inductive FlattenAll :
    List (String × Component) → List RecordType → List (FieldName × FieldKind) → Prop
  | nil : FlattenAll [] [] []
  | cons {name : String} {c : Component} {rest : List (String × Component)}
      {before others : List RecordType} {t : RecordType} {fields : List (FieldName × FieldKind)}
      (hfirst : Flattens (typeSource name c) c before t) (hrest : FlattenAll rest others fields) :
      FlattenAll ((name, c) :: rest) (before ++ t :: others)
        ((fieldOf name, .nested c.array t.name t.fields) :: fields)

end

/-! ### What the shape of the list says -/

section Shape

variable {source : String} {c : Component} {before : List RecordType} {t : RecordType}

theorem filterMap_target?_texts (properties : List (String × String)) :
    (properties.map fun property ↦ (fieldOf property.1, FieldKind.text)).filterMap
      (·.2.target?) = [] := by
  rw [List.filterMap_map]
  exact List.filterMap_eq_nil_iff.2 fun _ _ ↦ rfl

/-- The fields for nested components are those for their names. -/
theorem FlattenAll.map_fst : ∀ {components : List (String × Component)}
    {before : List RecordType} {fields : List (FieldName × FieldKind)},
    FlattenAll components before fields →
      fields.map Prod.fst = (Keyed.keys components).map fieldOf
  | _, _, _, .nil => rfl
  | _, _, _, .cons _ hrest => congrArg _ hrest.map_fst

mutual

/-- There is one type for each component. -/
theorem Flattens.length_eq : ∀ {source : String} {c : Component} {before : List RecordType}
    {t : RecordType}, Flattens source c before t → before.length + 1 = c.nodes.length
  | _, _, _, _, .component _ hcomponents => by
    rw [Component.nodes, List.length_cons, hcomponents.length_eq]

theorem FlattenAll.length_eq : ∀ {components : List (String × Component)}
    {before : List RecordType} {fields : List (FieldName × FieldKind)},
    FlattenAll components before fields →
      before.length = (Component.nodesAll components).length
  | _, _, _, .nil => rfl
  | _, _, _, .cons hfirst hrest => by
    rw [Component.nodesAll, List.length_append, List.length_append, ← hfirst.length_eq,
      ← hrest.length_eq, List.length_cons]
    omega

end

mutual

/-- The types that are used are all but the last, each once. -/
theorem Flattens.targets_perm : ∀ {source : String} {c : Component} {before : List RecordType}
    {t : RecordType}, Flattens source c before t →
      (before.flatMap RecordType.targets ++ t.targets).Perm (before.map RecordType.name)
  | _, _, _, _, .component _ hcomponents => by
    rw [RecordType.targets, List.filterMap_append, filterMap_target?_texts, List.append_nil]
    exact hcomponents.targets_perm

theorem FlattenAll.targets_perm : ∀ {components : List (String × Component)}
    {before : List RecordType} {fields : List (FieldName × FieldKind)},
    FlattenAll components before fields →
      (before.flatMap RecordType.targets ++ fields.filterMap (·.2.target?)).Perm
        (before.map RecordType.name)
  | _, _, _, .nil => .nil
  | _, _, _, @FlattenAll.cons name c rest before others t fields hfirst hrest => by
    have hfields : ((fieldOf name, FieldKind.nested c.array t.name t.fields) :: fields).filterMap
        (·.2.target?) = t.name :: fields.filterMap (·.2.target?) := rfl
    rw [hfields, List.flatMap_append, List.flatMap_cons, List.map_append, List.map_cons,
      ← List.append_assoc, List.append_assoc]
    apply hfirst.targets_perm.append
    exact List.perm_middle.trans (hrest.targets_perm.cons t.name)

end

/-- A type uses only types that stand before it. -/
theorem Flattens.mem_of_mem_targets (h : Flattens source c before t) {target : String}
    (htarget : target ∈ t.targets) : ∃ used ∈ before, used.name = target :=
  List.mem_map.1 (h.targets_perm.subset (List.mem_append_right _ htarget))

mutual

/-- Every use of a type stands behind it. -/
theorem Flattens.useEarlier : ∀ {source : String} {c : Component} {before : List RecordType}
    {t : RecordType}, Flattens source c before t → RecordType.UseEarlier (before ++ [t])
  | _, _, _, _, @Flattens.component source properties components array itemName before name fields
      hname hcomponents => by
    have hown : Flattens source ⟨properties, components, array, itemName⟩ before
        ⟨name, fields ++ properties.map fun property ↦ (fieldOf property.1, .text)⟩ :=
      .component hname hcomponents
    refine hcomponents.useEarlier.append fun i t ht target htarget ↦ ?_
    obtain rfl := List.mem_singleton.1 (List.mem_of_getElem? ht)
    obtain ⟨used, hused, hname⟩ := hown.mem_of_mem_targets htarget
    exact ⟨used, List.mem_append_left _ hused, hname⟩

theorem FlattenAll.useEarlier : ∀ {components : List (String × Component)}
    {before : List RecordType} {fields : List (FieldName × FieldKind)},
    FlattenAll components before fields → RecordType.UseEarlier before
  | _, _, _, .nil => fun _ _ h ↦ absurd h (by simp)
  | _, _, _, @FlattenAll.cons name c rest before others t fields hfirst hrest => by
    rw [← List.singleton_append, ← List.append_assoc]
    refine hfirst.useEarlier.append fun i u hu target htarget ↦ ?_
    obtain ⟨used, hused, hname⟩ := hrest.useEarlier i u hu target htarget
    exact ⟨used, List.mem_append_right _ hused, hname⟩

end

mutual

/-- The template names that the types of a component and of those nested in it are named for, in the
order of the types. -/
def sources (source : String) : Component → List String
  | ⟨_, components, _, _⟩ => sourcesAll components ++ [source]

/-- The template names that the types of nested components are named for. -/
def sourcesAll : List (String × Component) → List String
  | [] => []
  | (name, c) :: rest => sources (typeSource name c) c ++ sourcesAll rest

end

mutual

theorem Flattens.namedFor : ∀ {source : String} {c : Component} {before : List RecordType}
    {t : RecordType}, Flattens source c before t →
      List.Forall₂ NamedFor (sources source c) ((before ++ [t]).map RecordType.name)
  | _, _, _, _, .component hname hcomponents => by
    rw [sources, List.map_append]
    exact List.rel_append hcomponents.namedFor (.cons hname .nil)

theorem FlattenAll.namedFor : ∀ {components : List (String × Component)}
    {before : List RecordType} {fields : List (FieldName × FieldKind)},
    FlattenAll components before fields →
      List.Forall₂ NamedFor (sourcesAll components) (before.map RecordType.name)
  | _, _, _, .nil => .nil
  | _, _, _, .cons hfirst hrest => by
    rw [sourcesAll, ← List.singleton_append, ← List.append_assoc, List.map_append]
    exact List.rel_append hfirst.namedFor hrest.namedFor

end

mutual

/-- The types have the fields for what the components declare, each component for one type. -/
theorem Flattens.fields_perm : ∀ {source : String} {c : Component} {before : List RecordType}
    {t : RecordType}, Flattens source c before t →
      ((before ++ [t]).map fun u ↦ u.fields.map Prod.fst).Perm
        (c.nodes.map fun node ↦ node.declared.map fieldOf)
  | _, _, _, _, @Flattens.component _ properties components _ _ _ _ fields _ hcomponents => by
    have hown : (fields ++ properties.map fun property : String × String ↦
        (fieldOf property.1, FieldKind.text)).map Prod.fst =
          (Keyed.keys components ++ Keyed.keys properties).map fieldOf := by
      rw [List.map_append, List.map_append, hcomponents.map_fst, List.map_map]
      simp [Keyed.keys]
    rw [Component.nodes, List.map_cons, List.map_append, List.map_singleton, hown]
    exact List.perm_append_comm.trans (hcomponents.fields_perm.cons _)

theorem FlattenAll.fields_perm : ∀ {components : List (String × Component)}
    {before : List RecordType} {fields : List (FieldName × FieldKind)},
    FlattenAll components before fields →
      (before.map fun u ↦ u.fields.map Prod.fst).Perm
        ((Component.nodesAll components).map fun node ↦ node.declared.map fieldOf)
  | _, _, _, .nil => .nil
  | _, _, _, .cons hfirst hrest => by
    have hboth := hfirst.fields_perm.append hrest.fields_perm
    rw [← List.map_append, ← List.map_append, List.append_assoc, List.singleton_append] at hboth
    exact hboth

end

end Shape

/-! ### Which names are claimed -/

/-- The names taken after listing types: those of the types, none of which was taken. -/
structure Claims (taken : List String) (types : List RecordType) (after : List String) : Prop where
  perm : after.Perm (types.map RecordType.name ++ taken)
  nodup : taken.Nodup → after.Nodup

namespace Claims

variable {taken mid after : List String} {types others : List RecordType}

theorem nil (taken : List String) : Claims taken [] taken :=
  ⟨.refl _, id⟩

/-- Names that are claimed one after the other. -/
theorem append (hfirst : Claims taken types mid) (hsecond : Claims mid others after) :
    Claims taken (types ++ others) after := by
  constructor
  · calc after
      List.Perm _ (others.map RecordType.name ++ mid) := hsecond.perm
      List.Perm _ (others.map RecordType.name ++ (types.map RecordType.name ++ taken)) :=
        hfirst.perm.append_left _
      List.Perm _ (types.map RecordType.name ++ (others.map RecordType.name ++ taken)) :=
        List.perm_append_comm_assoc ..
      _ = (types ++ others).map RecordType.name ++ taken := by
        rw [List.map_append, List.append_assoc]
  · exact fun h ↦ hsecond.nodup (hfirst.nodup h)

/-- A type that claims its name before the types listed in front of it. -/
theorem own {t : RecordType} (hfree : t.name ∉ taken) (h : Claims (t.name :: taken) types after) :
    Claims taken (types ++ [t]) after := by
  constructor
  · refine h.perm.trans ?_
    rw [List.map_append, List.append_assoc]
    exact .refl _
  · exact fun hnodup ↦ h.nodup (List.nodup_cons.2 ⟨hfree, hnodup⟩)

end Claims

theorem typesOfFields_append (fields others : List (FieldName × FieldKind)) :
    typesOfFields (fields ++ others) = typesOfFields fields ++ typesOfFields others := by
  induction fields with
  | nil => rfl
  | cons field rest ih =>
    obtain ⟨name, kind⟩ := field
    rw [List.cons_append, typesOfFields, typesOfFields, ih, List.append_assoc]

theorem typesOfFields_texts (properties : List (String × String)) :
    typesOfFields (properties.map fun property ↦ (fieldOf property.1, .text)) = [] := by
  induction properties with
  | nil => rfl
  | cons property rest ih => simp [typesOfFields, typesOfKind, ih]

mutual

/-- The type of a component and those that it uses flatten the component, and claim their names. -/
theorem typeOf_claims : ∀ (c : Component) (source : String) (taken : List String),
    Flattens source c (typesOfFields (typeOf source taken c).1.fields) (typeOf source taken c).1 ∧
      Claims taken (typesOfFields (typeOf source taken c).1.fields ++ [(typeOf source taken c).1])
        (typeOf source taken c).2
  | ⟨properties, components, array, itemName⟩, source, taken => by
    obtain ⟨hfields, hclaims⟩ := nestedFields_claims components (freshName taken source :: taken)
    rw [typeOf]
    simp only [typesOfFields_append, typesOfFields_texts, List.append_nil]
    have hname := firstFree_freshName taken source
    exact ⟨.component hname.namedFor hfields, .own hname.not_mem hclaims⟩

theorem nestedFields_claims : ∀ (components : List (String × Component)) (taken : List String),
    FlattenAll components (typesOfFields (nestedFields taken components).1)
        (nestedFields taken components).1 ∧
      Claims taken (typesOfFields (nestedFields taken components).1)
        (nestedFields taken components).2
  | [], taken => ⟨.nil, .nil taken⟩
  | (name, c) :: rest, taken => by
    obtain ⟨hfirst, hclaims⟩ := typeOf_claims c (typeSource name c) taken
    obtain ⟨hrest, hothers⟩ := nestedFields_claims rest (typeOf (typeSource name c) taken c).2
    rw [nestedFields, typesOfFields, typesOfKind, List.append_assoc, List.singleton_append]
    refine ⟨.cons hfirst hrest, ?_⟩
    rw [← List.singleton_append, ← List.append_assoc]
    exact hclaims.append hothers

end

/-- What is taken stays taken. -/
theorem Claims.subset {taken after : List String} {types : List RecordType}
    (h : Claims taken types after) : taken ⊆ after :=
  fun _ hname ↦ h.perm.symm.subset (List.mem_append_right _ hname)

mutual

/-- The class name for every template name is taken in the end: by the type named for it, or by the
one that kept it from the name. -/
theorem className_mem_typeOf : ∀ (c : Component) (source : String) (taken : List String),
    ∀ name ∈ sources source c, RecordName.className name ∈ (typeOf source taken c).2
  | ⟨properties, components, array, itemName⟩, source, taken => by
    have hbelow := className_mem_nestedFields components (freshName taken source :: taken)
    obtain ⟨-, hclaims⟩ := nestedFields_claims components (freshName taken source :: taken)
    rw [typeOf, sources]
    intro name hname
    rcases List.mem_append.1 hname with hin | hown
    · exact hbelow name hin
    · rw [List.mem_singleton.1 hown]
      exact hclaims.subset (firstFree_freshName taken source).base_mem

theorem className_mem_nestedFields :
    ∀ (components : List (String × Component)) (taken : List String),
      ∀ name ∈ sourcesAll components,
        RecordName.className name ∈ (nestedFields taken components).2
  | [], taken => by simp [sourcesAll]
  | (name, c) :: rest, taken => by
    have hfirst := className_mem_typeOf c (typeSource name c) taken
    have hrest := className_mem_nestedFields rest (typeOf (typeSource name c) taken c).2
    obtain ⟨-, hclaims⟩ := nestedFields_claims rest (typeOf (typeSource name c) taken c).2
    rw [nestedFields, sourcesAll]
    intro other hother
    rcases List.mem_append.1 hother with hin | hin
    · exact hclaims.subset (hfirst other hin)
    · exact hrest other hin

end

end RecordLayout

/-! ### Whole schemas -/

open RecordLayout

/-- The list holds a record type for each component of the schema and nothing else. -/
structure Schema.Flattening (s : Schema) (types : List RecordType) : Prop where
  /-- Each type has the fields of its component, nested components in order and then properties in
  order; the last one is that of the outermost component. -/
  flattens : Flattens s.name s.root types.dropLast s.rootType
  last : types.getLast? = some s.rootType
  length : types.length = s.root.nodes.length
  distinct : (types.map RecordType.name).Nodup
  notInput : ∀ t ∈ types, t.name ≠ "Input"
  useEarlier : RecordType.UseEarlier types
  usedOnce : ∀ t ∈ types.dropLast, (types.flatMap RecordType.targets).count t.name = 1

/-- The template names that the record types of a schema are named for. -/
def Schema.typeSources (s : Schema) : List String :=
  sources s.name s.root

/-- A class name for a template name of the schema is that of a type, or the name of the input. -/
theorem Schema.exists_of_mem_typeSources {s : Schema} {source : String}
    (h : source ∈ s.typeSources) :
    (∃ t ∈ s.recordTypes, t.name = RecordName.className source) ∨
      RecordName.className source = "Input" := by
  have hmem := className_mem_typeOf s.root s.name [inputName] source h
  obtain ⟨-, hclaims⟩ := typeOf_claims s.root s.name [inputName]
  rcases List.mem_append.1 (hclaims.perm.subset hmem) with hname | hinput
  · exact Or.inl (List.mem_map.1 hname)
  · exact Or.inr (List.mem_singleton.1 hinput)

/-- A schema is flattened to record types with distinct names; and the search for a name always
finds the first one that is free. -/
theorem Schema.recordTypes_flattening (s : Schema) :
    s.Flattening s.recordTypes ∧
      ∀ taken name, FirstFree taken (RecordName.className name) (freshName taken name) := by
  refine ⟨?_, firstFree_freshName⟩
  obtain ⟨hflattens, hclaims⟩ := typeOf_claims s.root s.name [inputName]
  have hlist : s.recordTypes = typesOfFields s.rootType.fields ++ [s.rootType] := rfl
  have hbefore : s.recordTypes.dropLast = typesOfFields s.rootType.fields := by
    rw [hlist, List.dropLast_concat]
  have hdistinct : (s.recordTypes.map RecordType.name ++ [inputName]).Nodup :=
    hclaims.perm.nodup_iff.1 (hclaims.nodup (List.nodup_singleton _))
  have hnames := List.nodup_append.1 hdistinct
  constructor
  · rw [hbefore]
    exact hflattens
  · rw [hlist, List.getLast?_concat]
  · rw [hlist, List.length_append, List.length_singleton]
    exact hflattens.length_eq
  · exact hnames.1
  · intro t ht heq
    exact hnames.2.2 t.name (List.mem_map_of_mem ht) inputName List.mem_cons_self heq
  · exact hflattens.useEarlier
  · intro t ht
    rw [hbefore] at ht
    have hused : (s.recordTypes.flatMap RecordType.targets).Perm
        ((typesOfFields s.rootType.fields).map RecordType.name) := by
      rw [hlist, List.flatMap_append, List.flatMap_singleton]
      exact hflattens.targets_perm
    have hnodup : ((typesOfFields s.rootType.fields).map RecordType.name).Nodup := by
      refine hnames.1.sublist ?_
      rw [hlist, List.map_append]
      exact List.sublist_append_left _ _
    rw [hused.count_eq]
    exact List.count_eq_one_of_mem hnodup (List.mem_map_of_mem ht)

end MarkupBinding
