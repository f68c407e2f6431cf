import MarkupBinding.Proofs.Record.Fields
import Mathlib.Data.List.Induction

/-!
# Names that share a field name

Nothing is assumed of the template names here. Of the fields with one field name the last one is
built (`settled`, `settledFields_eq_settled`), so the built record shows under a name the value of
its holder (`RecordName.holder`, `map_pairFor?_settled`): the last of the names whose field is
called so, else the name itself if it is the last one with its field name. Every name is its own
holder exactly where the names are separate (`RecordName.holder_eq_self_iff_separate`). Of toggle
flags, those whose field name is new get a field (`newFlags`, `addFlags_fieldsOf_eq_newFlags`).
-/

set_option autoImplicit false
set_option relaxedAutoImplicit false

namespace MarkupBinding

namespace Keyed

variable {α β : Type} [BEq α] [LawfulBEq α]

/-- Of the pairs with a key, set one after the other, the last one is found. -/
theorem lookup_ofPairs (pairs : List (α × β)) (key : α) :
    (ofPairs pairs).lookup key = pairs.reverse.lookup key := by
  induction pairs using List.reverseRecOn with
  | nil => rfl
  | append_singleton pairs pair ih =>
    have hlast : ofPairs (pairs ++ [pair]) = set pair.1 pair.2 (ofPairs pairs) := by
      rw [ofPairs, List.foldl_append]
      rfl
    rw [hlast, List.reverse_append, List.reverse_singleton, List.singleton_append, List.lookup_cons]
    by_cases hkey : key = pair.1
    · rw [hkey, lookup_set_self, beq_self_eq_true]
    · rw [lookup_set_of_ne hkey, beq_false_of_ne hkey, ih]

/-- Setting pairs one after the other adds no other pair. -/
theorem mem_of_mem_ofPairs {pairs : List (α × β)} {pair : α × β} (h : pair ∈ ofPairs pairs) :
    pair ∈ pairs :=
  (mem_update h).resolve_left List.not_mem_nil

end Keyed

namespace RecordName

/-- The last of several names with a field name. -/
def latest (names : List String) (field : String) : Option String :=
  names.reverse.find? fun name ↦ fieldName name == field

/-- The name whose value a record of fields for the names shows under a name. -/
def holder (names : List String) (name : String) : Option String :=
  match latest names name with
  | some other => some other
  | none => if latest names (fieldName name) = some name then some name else none

theorem fieldName_of_latest {names : List String} {field name : String}
    (h : latest names field = some name) : fieldName name = field ∧ name ∈ names := by
  unfold latest at h
  have hfield := List.find?_some h
  exact ⟨eq_of_beq hfield, List.mem_reverse.1 (List.mem_of_find?_eq_some h)⟩

/-- Every one of the names is its own holder exactly where the names are separate. -/
theorem holder_eq_self_iff_separate {names : List String} :
    (∀ name ∈ names, holder names name = some name) ↔ Separate names := by
  constructor
  · intro h
    have hlatest : ∀ name ∈ names, latest names (fieldName name) = some name := by
      intro name hname
      have hself := h name hname
      unfold holder at hself
      split at hself
      · next other hother =>
        obtain rfl := Option.some.inj hself
        rw [(fieldName_of_latest hother).1]
        exact hother
      · split at hself
        · next hlast => exact hlast
        · cases hself
    intro n hn m hm hne
    refine ⟨fun heq ↦ hne ?_, fun heq ↦ hne ?_⟩
    · -- a name that is called like another one's field has another one as holder
      subst heq
      have hother := h _ hm
      rw [holder, hlatest n hn] at hother
      exact Option.some.inj hother
    · exact Option.some.inj ((hlatest n hn).symm.trans (heq ▸ hlatest m hm))
  · intro hsep name hname
    have hown : ∀ {other field : String}, latest names field = some other →
        field = name ∨ field = fieldName name → other = name := by
      intro other field hfound hfield
      obtain ⟨hother, hmem⟩ := fieldName_of_latest hfound
      by_contra hne
      rcases hfield with rfl | rfl
      · exact (hsep other hmem _ hname hne).1 hother
      · exact (hsep other hmem name hname hne).2 hother
    unfold holder
    cases hfirst : latest names name with
    | some other => rw [hown hfirst (Or.inl rfl)]
    | none =>
      cases hsecond : latest names (fieldName name) with
      | some other => rw [hown hsecond (Or.inr rfl), if_pos rfl]
      | none =>
        refine absurd (List.find?_eq_none.1 hsecond name (List.mem_reverse.2 hname)) ?_
        simp

end RecordName

namespace RecordLayout

open RecordName

/-! ### Settling -/

/-- The fields that are built for template names: of those with one field name the last, in the
place of the first. -/
def settled (pairs : List (String × FieldKind)) : List (String × FieldKind) :=
  (Keyed.ofPairs (pairs.map fun pair ↦
    (fieldName pair.1, entryName pair.1, settledKind pair.2))).map Prod.snd

/-- Setting a field sets the pair of its name. -/
theorem setField_map {built : List (String × String × FieldKind)}
    (hbuilt : ∀ entry ∈ built, entry.1 = fieldName entry.2.1) (name : String) (kind : FieldKind) :
    setField (fieldOf name, kind) (fieldsOf (built.map Prod.snd)) =
      fieldsOf ((Keyed.set (fieldName name) (name, kind) built).map Prod.snd) := by
  induction built with
  | nil => rfl
  | cons entry rest ih =>
    have hentry := hbuilt entry List.mem_cons_self
    have hrest := ih fun other hother ↦ hbuilt other (List.mem_cons_of_mem _ hother)
    obtain ⟨field, other, otherKind⟩ := entry
    obtain rfl : field = fieldName other := hentry
    rw [Keyed.set]
    by_cases hsame : (fieldName other == fieldName name) = true
    · rw [if_pos hsame]
      exact if_pos hsame
    · rw [if_neg hsame, List.map_cons, List.map_cons]
      exact (if_neg hsame).trans (congrArg _ hrest)

theorem settledFields_eq_settled (pairs : List (String × FieldKind)) :
    settledFields [] (fieldsOf pairs) = fieldsOf (settled pairs) := by
  have hbuilt : ∀ (rest : List (String × FieldKind)) (built : List (String × String × FieldKind)),
      (∀ entry ∈ built, entry.1 = fieldName entry.2.1) →
        settledFields (fieldsOf (built.map Prod.snd)) (fieldsOf rest) =
          fieldsOf ((Keyed.update built (rest.map fun pair ↦
            (fieldName pair.1, entryName pair.1, settledKind pair.2))).map Prod.snd) := by
    intro rest
    induction rest with
    | nil =>
      intro built _
      change settledFields _ [] = _
      rw [settledFields]
      rfl
    | cons pair rest ih =>
      intro built h
      change settledFields _ ((fieldOf pair.1, pair.2) :: fieldsOf rest) = _
      rw [settledFields, settledName_fieldOf, setField_map h, fieldName_entryName]
      refine ih _ fun entry hentry ↦ ?_
      rcases Keyed.mem_set hentry with rfl | hmem
      · exact (fieldName_entryName pair.1).symm
      · exact h entry hmem
  exact hbuilt pairs [] fun _ h ↦ absurd h List.not_mem_nil

/-- Among fields by field name, one is found by its key. -/
theorem find?_map_snd {entries : List (String × String × FieldKind)}
    (h : ∀ entry ∈ entries, entry.1 = fieldName entry.2.1) (field : String) :
    ((entries.map Prod.snd).find? fun pair ↦ fieldName pair.1 == field) =
      entries.lookup field := by
  induction entries with
  | nil => rfl
  | cons entry rest ih =>
    rw [List.map_cons, List.find?_cons, List.lookup_cons, ← h entry List.mem_cons_self,
      ih fun other hother ↦ h other (List.mem_cons_of_mem _ hother), BEq.comm]

/-- What is given by field name has the field name of its template name. -/
theorem eq_fieldName_of_mem {pairs : List (String × FieldKind)}
    {entry : String × String × FieldKind}
    (h : entry ∈ pairs.map fun pair ↦
      (fieldName pair.1, entryName pair.1, settledKind pair.2)) :
    entry.1 = fieldName entry.2.1 := by
  obtain ⟨pair, -, rfl⟩ := List.mem_map.1 h
  exact (fieldName_entryName pair.1).symm

/-- The built field with a field name is the last one with it. -/
theorem find?_settled (pairs : List (String × FieldKind)) (field : String) :
    ((settled pairs).find? fun pair ↦ fieldName pair.1 == field) =
      (pairs.reverse.find? fun pair ↦ fieldName pair.1 == field).map fun pair ↦
        (entryName pair.1, settledKind pair.2) := by
  rw [settled, find?_map_snd fun entry h ↦ eq_fieldName_of_mem (Keyed.mem_of_mem_ofPairs h),
    Keyed.lookup_ofPairs,
    ← find?_map_snd fun entry h ↦ eq_fieldName_of_mem (List.mem_reverse.1 h),
    ← List.map_reverse, List.map_map, List.find?_map]
  refine congrArg _ (List.find?_congr fun pair _ ↦ ?_)
  exact congrArg (· == field) (fieldName_entryName pair.1)

/-- The built fields have the field names of those given. -/
theorem mem_map_keys_settled {pairs : List (String × FieldKind)} {field : String} :
    field ∈ (Keyed.keys (settled pairs)).map fieldName ↔
      field ∈ (Keyed.keys pairs).map fieldName := by
  have hfind : ∀ given : List (String × FieldKind),
      field ∈ (Keyed.keys given).map fieldName ↔
        (given.find? fun pair ↦ fieldName pair.1 == field).isSome = true := by
    intro given
    rw [List.find?_isSome]
    simp [Keyed.keys]
  have hreverse : Keyed.keys pairs.reverse = (Keyed.keys pairs).reverse := List.map_reverse
  rw [hfind, find?_settled, Option.isSome_map, ← hfind, hreverse, List.map_reverse,
    List.mem_reverse]

/-- A built field is one of those given, settled. -/
theorem exists_of_mem_settled {pairs : List (String × FieldKind)} {pair : String × FieldKind}
    (h : pair ∈ settled pairs) :
    ∃ given ∈ pairs, pair.1 = entryName given.1 ∧ pair.2 = settledKind given.2 := by
  obtain ⟨entry, hentry, rfl⟩ := List.mem_map.1 h
  obtain ⟨given, hgiven, rfl⟩ := List.mem_map.1 (Keyed.mem_of_mem_ofPairs hentry)
  exact ⟨given, hgiven, rfl, rfl⟩

/-- A built field keeps its name, if no name is empty. -/
theorem exists_of_mem_settled_of_named {pairs : List (String × FieldKind)}
    (hnames : "" ∉ Keyed.keys pairs) {pair : String × FieldKind} (h : pair ∈ settled pairs) :
    ∃ kind, (pair.1, kind) ∈ pairs ∧ pair.2 = settledKind kind := by
  obtain ⟨given, hgiven, hname, hkind⟩ := exists_of_mem_settled h
  rw [hname, entryName_of_mem hnames hgiven]
  exact ⟨given.2, hgiven, hkind⟩

/-- A built field is the only one with its field name. -/
theorem find?_of_mem_settled {pairs : List (String × FieldKind)} {pair : String × FieldKind}
    (h : pair ∈ settled pairs) :
    ((settled pairs).find? fun other ↦ fieldName other.1 == fieldName pair.1) = some pair := by
  obtain ⟨entry, hentry, rfl⟩ := List.mem_map.1 h
  have hname := eq_fieldName_of_mem (Keyed.mem_of_mem_ofPairs hentry)
  rw [settled, find?_map_snd fun entry h ↦ eq_fieldName_of_mem (Keyed.mem_of_mem_ofPairs h),
    ← hname, Keyed.lookup_of_mem (Keyed.nodup_keys_ofPairs _) hentry]

/-- The name of the last pair with a field name. -/
theorem map_find?_reverse (pairs : List (String × FieldKind)) (field : String) :
    (pairs.reverse.find? fun pair ↦ fieldName pair.1 == field).map Prod.fst =
      latest (Keyed.keys pairs) field := by
  rw [latest, Keyed.keys, ← List.map_reverse, List.find?_map]
  rfl

/-- The built record shows under a name the value of its holder, if no name is empty. -/
theorem map_pairFor?_settled (name : String) {pairs : List (String × FieldKind)}
    (hnames : "" ∉ Keyed.keys pairs) :
    (pairFor? name (settled pairs)).map Prod.fst = holder (Keyed.keys pairs) name := by
  have hlatest : ∀ field, ((settled pairs).find? fun pair ↦ fieldName pair.1 == field).map
      Prod.fst = latest (Keyed.keys pairs) field := by
    intro field
    rw [find?_settled, Option.map_map, ← map_find?_reverse]
    exact Option.map_congr fun pair hpair ↦
      entryName_of_mem hnames (List.mem_reverse.1 (List.mem_of_find?_eq_some hpair))
  unfold pairFor? holder
  cases hfirst : (settled pairs).find? fun pair ↦ fieldName pair.1 == name with
  | some pair =>
    have hname := hlatest name
    rw [hfirst] at hname
    rw [← hname]
    rfl
  | none =>
    have hname := hlatest name
    have hown := hlatest (fieldName name)
    rw [hfirst] at hname
    rw [← hname, ← hown]
    simp only [Option.map_none]
    cases hfound : (settled pairs).find? fun pair ↦ pair.1 == name with
    | some pair =>
      have hkey := List.find?_some hfound
      obtain rfl : pair.1 = name := eq_of_beq hkey
      rw [find?_of_mem_settled (List.mem_of_find?_eq_some hfound)]
      simp
    | none =>
      refine (if_neg fun hlast ↦ ?_).symm
      obtain ⟨pair, hpair, rfl⟩ := Option.map_eq_some_iff.1 hlast
      exact List.find?_eq_none.1 hfound pair (List.mem_of_find?_eq_some hpair) (by simp)

/-! ### Flags -/

/-- The fields for toggle flags. -/
def flagFields (flags : List String) : List (String × FieldKind) :=
  flags.map fun flag ↦ (flag, .flag)

/-- The flags whose field name is neither in use nor that of an earlier flag. -/
def newFlags (used : List String) : List String → List String
  | [] => []
  | flag :: rest =>
    if fieldName flag ∈ used then newFlags used rest
    else flag :: newFlags (fieldName flag :: used) rest

/-- Adding flags to fields adds the new ones. -/
theorem addFlags_fieldsOf_eq_newFlags {flags : List String} :
    ∀ {pairs : List (String × FieldKind)} {used : List String},
      (∀ field, field ∈ used ↔ field ∈ (Keyed.keys pairs).map fieldName) →
        addFlags flags (fieldsOf pairs) =
          fieldsOf (pairs ++ flagFields (newFlags used flags)) := by
  induction flags with
  | nil => intro pairs used _; rw [newFlags, flagFields, List.map_nil, List.append_nil]; rfl
  | cons flag rest ih =>
    intro pairs used hused
    have hany : ((fieldsOf pairs).any fun field ↦ field.1.name == fieldName flag) = true ↔
        fieldName flag ∈ used := by
      rw [hused, ← map_name_fieldsOf]
      simp
    rw [newFlags]
    by_cases hmem : fieldName flag ∈ used
    · have hstep : addFlags (flag :: rest) (fieldsOf pairs) = addFlags rest (fieldsOf pairs) :=
        congrArg (addFlags rest) (if_pos (hany.2 hmem))
      rw [if_pos hmem, hstep, ih hused]
    · have hstep : addFlags (flag :: rest) (fieldsOf pairs) =
          addFlags rest (fieldsOf (pairs ++ [(flag, .flag)])) := by
        rw [fieldsOf_append]
        exact congrArg (addFlags rest) (if_neg (mt hany.1 hmem))
      have hmore : ∀ field, field ∈ fieldName flag :: used ↔
          field ∈ (Keyed.keys (pairs ++ [(flag, FieldKind.flag)])).map fieldName := by
        intro field
        rw [Keyed.keys_append, List.map_append, List.mem_append, ← hused, List.mem_cons, or_comm]
        simp [Keyed.keys]
      rw [if_neg hmem, hstep, ih hmore, List.append_assoc]
      rfl

/-- New flags among those whose field name is not in a second list. -/
theorem newFlags_filter {taken : List String} {flags : List String} :
    ∀ {used all : List String}, (∀ field, field ∈ all ↔ field ∈ used ∨ field ∈ taken) →
      newFlags used (flags.filter fun flag ↦ fieldName flag ∉ taken) = newFlags all flags := by
  induction flags with
  | nil => intro _ _ _; rfl
  | cons flag rest ih =>
    intro used all hall
    rw [newFlags]
    by_cases htaken : fieldName flag ∈ taken
    · rw [List.filter_cons_of_neg (by simpa using htaken), if_pos ((hall _).2 (Or.inr htaken)),
        ih hall]
    · have hsame : fieldName flag ∈ all ↔ fieldName flag ∈ used :=
        (hall _).trans (or_iff_left htaken)
      rw [List.filter_cons_of_pos (by simpa using htaken), newFlags]
      by_cases hused : fieldName flag ∈ used
      · rw [if_pos hused, if_pos (hsame.2 hused), ih hall]
      · rw [if_neg hused, if_neg (mt hsame.1 hused), ih fun field ↦ ?_]
        rw [List.mem_cons, List.mem_cons, hall, or_assoc]

/-- Flags with field names of their own that are not in use are all new. -/
theorem newFlags_eq_self {flags : List String} :
    ∀ {used : List String}, (flags.map fieldName).Nodup →
      (∀ flag ∈ flags, fieldName flag ∉ used) → newFlags used flags = flags := by
  induction flags with
  | nil => intro _ _ _; rfl
  | cons flag rest ih =>
    intro used hnodup hnew
    obtain ⟨hflag, hrest⟩ := List.nodup_cons.1 hnodup
    rw [newFlags, if_neg (hnew flag List.mem_cons_self), ih hrest fun other hother hmem ↦ ?_]
    rcases List.mem_cons.1 hmem with heq | hused
    · exact hflag (heq ▸ List.mem_map_of_mem hother)
    · exact hnew other (List.mem_cons_of_mem _ hother) hused

/-- A new flag is one of those given, and its field name is not in use. -/
theorem mem_of_mem_newFlags {flags : List String} :
    ∀ {used : List String} {flag : String}, flag ∈ newFlags used flags →
      flag ∈ flags ∧ fieldName flag ∉ used := by
  induction flags with
  | nil => intro _ _ h; exact absurd h List.not_mem_nil
  | cons first rest ih =>
    intro used flag h
    rw [newFlags] at h
    split at h
    · obtain ⟨hmem, hnew⟩ := ih h
      exact ⟨List.mem_cons_of_mem _ hmem, hnew⟩
    · next hfirst =>
      rcases List.mem_cons.1 h with rfl | hrest
      · exact ⟨List.mem_cons_self, hfirst⟩
      · obtain ⟨hmem, hnew⟩ := ih hrest
        exact ⟨List.mem_cons_of_mem _ hmem, fun hused ↦ hnew (List.mem_cons_of_mem _ hused)⟩

end RecordLayout

end MarkupBinding
