import MarkupBinding.Proofs.InputForm.Shape
import Mathlib.Data.List.Sigma

/-!
# The keys of lists

The key of a list is the names and row numbers on the way to it, put together with the characters
`.`, `[` and `]`. Where no component's name holds one of the first two, the way can be read off the
key, so that all lists of an input have different keys (`Component.spreadFrom_listSizes`): the keys
of what is nested in a component go on behind its own (`Extends`), and no key goes on behind those
of two components of one node, or of two rows of one list. An input of a schema with such names
comes back from its form whatever the sizes of its lists (`Schema.oneSizePerKey_of_isPlain`).
-/

set_option autoImplicit false
set_option relaxedAutoImplicit false

namespace MarkupBinding

namespace InputForm

/-- A name without the characters behind which a key goes on. -/
def IsPlain (name : String) : Prop :=
  ∀ c ∈ name.toList, c ≠ '.' ∧ c ≠ '['

instance (name : String) : Decidable (IsPlain name) :=
  inferInstanceAs (Decidable (∀ c ∈ name.toList, c ≠ '.' ∧ c ≠ '['))

/-- What stands before the first stop is the same where the whole is. -/
theorem eq_of_append_eq {stop : Char → Prop} {front other rest more : List Char}
    (h : front ++ rest = other ++ more) (hfront : ∀ c ∈ front, ¬ stop c)
    (hother : ∀ c ∈ other, ¬ stop c) (hrest : ∀ c ∈ rest.head?, stop c)
    (hmore : ∀ c ∈ more.head?, stop c) : front = other := by
  rcases List.append_eq_append_iff.1 h with
    ⟨between, hlonger, hbetween⟩ | ⟨between, hlonger, hbetween⟩
  · cases between with
    | nil => rw [hlonger, List.append_nil]
    | cons c between =>
      exact absurd (hrest c (by simp [hbetween])) (hother c (by simp [hlonger]))
  · cases between with
    | nil => rw [hlonger, List.append_nil]
    | cons c between =>
      exact absurd (hmore c (by simp [hbetween])) (hfront c (by simp [hlonger]))

/-- The key is another one, behind which it may go on with a name or a row. -/
def Extends (key other : String) : Prop :=
  ∃ rest : List Char, other.toList = key.toList ++ rest ∧ ∀ c ∈ rest.head?, c = '.' ∨ c = '['

theorem Extends.refl (key : String) : Extends key key :=
  ⟨[], by simp, by simp⟩

theorem Extends.trans {key other last : String} (h : Extends key other)
    (hother : Extends other last) : Extends key last := by
  obtain ⟨rest, hrest, hstop⟩ := h
  obtain ⟨more, hmore, hstops⟩ := hother
  refine ⟨rest ++ more, by rw [hmore, hrest, List.append_assoc], ?_⟩
  cases rest with
  | nil => exact hstops
  | cons c rest => exact hstop

theorem extends_partKey (key name : String) : Extends key (partKey key name) :=
  ⟨'.' :: name.toList, by simp [partKey], by simp⟩

theorem extends_rowKey (key : String) (index : Nat) : Extends key (rowKey key index) :=
  ⟨'[' :: ((toString index).toList ++ [']']), by simp [rowKey], by simp⟩

/-- No key goes on behind those of two components with plain names. -/
theorem eq_of_extends_partKey {key name other last : String} (hname : IsPlain name)
    (hother : IsPlain other) (h : Extends (partKey key name) last)
    (h' : Extends (partKey key other) last) : name = other := by
  obtain ⟨rest, hrest, hstop⟩ := h
  obtain ⟨more, hmore, hstops⟩ := h'
  have hkeys := hrest.symm.trans hmore
  simp only [partKey, String.toList_append, List.append_assoc, List.append_cancel_left_eq] at hkeys
  refine String.toList_injective
    (eq_of_append_eq hkeys (fun c hc ↦ ?_) (fun c hc ↦ ?_) hstop hstops)
  · simpa using hname c hc
  · simpa using hother c hc

/-- The number of a row can be read off what begins with the row's key. -/
theorem eq_of_rowKey_append_eq {key : String} {index other : Nat} {rest more : List Char}
    (h : (rowKey key index).toList ++ rest = (rowKey key other).toList ++ more) :
    index = other := by
  simp only [rowKey, String.toList_append, List.append_assoc, List.append_cancel_left_eq] at h
  have hdigits : ∀ n : Nat, ∀ c ∈ (toString n).toList, ¬ c = ']' := by
    rintro n c hc rfl
    rw [Nat.toString_eq_ofList_toDigits, String.toList_ofList] at hc
    exact absurd (Nat.isDigit_of_mem_toDigits (by omega) (by omega) hc) (by decide)
  have hsame := eq_of_append_eq h (hdigits index) (hdigits other) (by simp) (by simp)
  simp only [Nat.toString_eq_ofList_toDigits, String.toList_ofList] at hsame
  rw [← @Nat.ofDigitChars_ten_toDigits index, hsame, Nat.ofDigitChars_ten_toDigits]

/-- No key goes on behind those of two rows. -/
theorem eq_of_extends_rowKey {key last : String} {index other : Nat}
    (h : Extends (rowKey key index) last) (h' : Extends (rowKey key other) last) :
    index = other := by
  obtain ⟨rest, hrest, -⟩ := h
  obtain ⟨more, hmore, -⟩ := h'
  exact eq_of_rowKey_append_eq (hrest.symm.trans hmore)

theorem not_extends_rowKey (key : String) (index : Nat) : ¬ Extends (rowKey key index) key := by
  rintro ⟨rest, hrest, -⟩
  have hlength := congrArg List.length hrest
  simp [rowKey] at hlength

/-- The keys are different from each other and go on behind a key. -/
def SpreadFrom (key : String) (sizes : List (String × Nat)) : Prop :=
  (Keyed.keys sizes).Nodup ∧ ∀ other ∈ Keyed.keys sizes, Extends key other

/-- What is there for a nested component has different keys, if any object there has. -/
theorem spreadFrom_sizesIn {inner : String → List (String × Value) → List (String × Nat)}
    (hinner : ∀ key entries, SpreadFrom key (inner key entries)) (key : String) (value : Value) :
    SpreadFrom key (sizesIn inner key value) := by
  cases value with
  | object entries => exact hinner key entries
  | list items =>
    have hrows : ∀ other ∈ Keyed.keys (items.zipIdx.flatMap fun row ↦
        inner (rowKey key row.2) row.1.entries), ∃ index, Extends (rowKey key index) other := by
      intro other hother
      rw [Keyed.keys, List.map_flatMap] at hother
      obtain ⟨row, -, hrow⟩ := List.mem_flatMap.1 hother
      exact ⟨row.2, (hinner _ _).2 other hrow⟩
    refine ⟨List.nodup_cons.2 ⟨fun hkey ↦ ?_, ?_⟩, List.forall_mem_cons.2 ⟨.refl key, ?_⟩⟩
    · obtain ⟨index, hindex⟩ := hrows key hkey
      exact not_extends_rowKey key index hindex
    · rw [List.map_flatMap, List.nodup_flatMap]
      refine ⟨fun row _ ↦ (hinner _ _).1, ?_⟩
      refine (List.pairwise_map.1 (List.nodup_zipIdx_map_snd items)).imp
        fun hne other hrow hnext ↦ ?_
      exact hne (eq_of_extends_rowKey ((hinner _ _).2 other hrow) ((hinner _ _).2 other hnext))
    · intro other hother
      obtain ⟨index, hindex⟩ := hrows other hother
      exact (extends_rowKey key index).trans hindex
  | null | bool | int | float | string | record =>
    exact ⟨List.nodup_nil, fun _ hother ↦ absurd hother List.not_mem_nil⟩

end InputForm

namespace Component

open InputForm

/-- The lists in the data of nested components with plain names have different keys, each of which
goes on behind the key of one of the components. -/
theorem nodup_keys_listSizesAll (key : String) (entries : List (String × Value)) :
    ∀ {components : List (String × Component)}, (Keyed.keys components).Nodup →
      (∀ name ∈ Keyed.keys components, IsPlain name) →
      (∀ pair ∈ components, ∀ key entries, SpreadFrom key (pair.2.listSizes key entries)) →
        (Keyed.keys (listSizesAll components key entries)).Nodup ∧
          ∀ other ∈ Keyed.keys (listSizesAll components key entries),
            ∃ name ∈ Keyed.keys components, Extends (partKey key name) other
  | [], _, _, _ => ⟨List.nodup_nil, fun _ hother ↦ absurd hother List.not_mem_nil⟩
  | (name, c) :: rest, hkeys, hplain, hinner => by
    obtain ⟨hname, hrest⟩ := List.nodup_cons.1 hkeys
    obtain ⟨hplainName, hplainRest⟩ := List.forall_mem_cons.1 hplain
    obtain ⟨hinnerFirst, hinnerRest⟩ := List.forall_mem_cons.1 hinner
    have hfirst : SpreadFrom (partKey key name) (((entries.lookup name).map
        (sizesIn (fun key entries ↦ c.listSizes key entries) (partKey key name))).getD []) := by
      cases entries.lookup name with
      | none => exact ⟨List.nodup_nil, fun _ hother ↦ absurd hother List.not_mem_nil⟩
      | some value => exact spreadFrom_sizesIn hinnerFirst _ value
    obtain ⟨hnodup, hbehind⟩ := nodup_keys_listSizesAll key entries hrest hplainRest hinnerRest
    rw [listSizesAll, Keyed.keys_append]
    refine ⟨List.nodup_append.2 ⟨hfirst.1, hnodup, ?_⟩, fun other hother ↦ ?_⟩
    · rintro last hlast _ hlast' rfl
      obtain ⟨other, hother, hextends⟩ := hbehind last hlast'
      have hsame := eq_of_extends_partKey hplainName (hplainRest other hother)
        (hfirst.2 last hlast) hextends
      exact hname (hsame ▸ hother)
    · rcases List.mem_append.1 hother with hother | hother
      · exact ⟨name, List.mem_cons_self, hfirst.2 other hother⟩
      · obtain ⟨next, hnext, hextends⟩ := hbehind other hother
        exact ⟨next, List.mem_cons_of_mem _ hnext, hextends⟩

/-- The lists in the data of a component have different keys if the names of all nested components
are plain. -/
theorem spreadFrom_listSizes (c : Component) : c.WellKeyed →
    (∀ node ∈ c.nodes, ∀ name ∈ Keyed.keys node.components, IsPlain name) →
      ∀ key entries, SpreadFrom key (c.listSizes key entries) := by
  induction c using induction_on_components with
  | step properties components array itemName ih =>
    intro hkeyed hplain key entries
    obtain ⟨-, hkeys, hbelow⟩ := wellKeyed_iff.1 hkeyed
    have hinner : ∀ pair ∈ components, ∀ key entries,
        SpreadFrom key (pair.2.listSizes key entries) := fun pair hpair ↦
      ih pair hpair (hbelow pair hpair) fun node hnode ↦
        hplain node (nodes_subset_of_mem (c := ⟨properties, components, array, itemName⟩) hpair
          hnode)
    obtain ⟨hnodup, hbehind⟩ := nodup_keys_listSizesAll key entries hkeys
      (hplain _ (mem_nodes_self _)) hinner
    refine ⟨hnodup, fun other hother ↦ ?_⟩
    obtain ⟨name, -, hextends⟩ := hbehind other hother
    exact (extends_partKey key name).trans hextends

end Component

/-- Where the names of all nested components are plain, lists with one key have one size, since no
two have one key. -/
theorem Schema.oneSizePerKey_of_isPlain {s : Schema} (hkeyed : s.root.WellKeyed)
    (hplain : ∀ node ∈ s.root.nodes, ∀ name ∈ Keyed.keys node.components, InputForm.IsPlain name)
    (entries : List (String × Value)) : InputForm.OneSizePerKey (s.listSizes entries) := by
  obtain ⟨hnodup, -⟩ := s.root.spreadFrom_listSizes hkeyed hplain s.name
    (if s.name == rootScope then entries else ((entries.lookup s.name).getD .null).entries)
  rintro ⟨key, n⟩ hlist ⟨_, m⟩ hother rfl
  exact Option.some.inj
    ((Keyed.lookup_of_mem hnodup hlist).symm.trans (Keyed.lookup_of_mem hnodup hother))

end MarkupBinding
