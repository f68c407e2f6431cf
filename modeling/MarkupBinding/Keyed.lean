/-!
# Keyed lists

A keyed list is a list of pairs in insertion order. Setting a key that is there replaces its value
and keeps its place; a new key goes to the end. Looking up is `List.lookup`.

Setting is seen by looking up the key (`lookup_set_self`) and by no other key (`lookup_set_of_ne`),
and distinct keys stay distinct (`nodup_keys_set`, `nodup_keys_ofPairs`). Erasing a key leaves the
values of the others (`lookup_erase_of_ne`). After pairs with distinct keys are set, each key has
its new value, if there is one (`lookup_update`, `lookup_update_map`); the pairs that were there
stay in their places, and the new ones follow in order (`update_eq_append`). The distinct members of
a list are its members, each once (`distinct_spec`).
-/

set_option autoImplicit false
set_option relaxedAutoImplicit false

namespace MarkupBinding.Keyed

variable {α β : Type}

/-- Whether some pair has the key. -/
def has [BEq α] (key : α) (pairs : List (α × β)) : Bool :=
  pairs.any fun pair ↦ pair.1 == key

/-- The list with the key's value set, in place or at the end. -/
def set [BEq α] (key : α) (value : β) : List (α × β) → List (α × β)
  | [] => [(key, value)]
  | (k, v) :: rest => if k == key then (k, value) :: rest else (k, v) :: set key value rest

/-- The list without the pairs of the key. -/
def erase [BEq α] (key : α) (pairs : List (α × β)) : List (α × β) :=
  pairs.filter fun pair ↦ !(pair.1 == key)

/-- The pairs set one after the other: each key at its first place with its last value. -/
def ofPairs [BEq α] (pairs : List (α × β)) : List (α × β) :=
  pairs.foldl (fun built pair ↦ set pair.1 pair.2 built) []

/-- The pairs of the second list set into the first, in order. -/
def update [BEq α] (base pairs : List (α × β)) : List (α × β) :=
  pairs.foldl (fun built pair ↦ set pair.1 pair.2 built) base

/-- The keys in order. -/
def keys (pairs : List (α × β)) : List α :=
  pairs.map Prod.fst

/-- The distinct members of a list, in order of first occurrence. -/
def distinct [BEq α] (xs : List α) : List α :=
  xs.foldl (fun seen x ↦ if seen.contains x then seen else seen ++ [x]) []

theorem keys_append (pairs others : List (α × β)) :
    keys (pairs ++ others) = keys pairs ++ keys others :=
  List.map_append

section Laws

variable [BEq α] [LawfulBEq α]

/-- A key that was just set has its value. -/
@[simp] theorem lookup_set_self (key : α) (value : β) (pairs : List (α × β)) :
    (set key value pairs).lookup key = some value := by
  induction pairs with
  | nil => simp [set]
  | cons pair rest ih =>
    obtain ⟨k, v⟩ := pair
    by_cases h : k = key
    · simp [set, h]
    · have hne : (key == k) = false := beq_false_of_ne (Ne.symm h)
      simp [set, List.lookup_cons, h, ih, hne]

/-- Setting a key leaves the values of the others. -/
theorem lookup_set_of_ne {key other : α} (h : other ≠ key) (value : β) (pairs : List (α × β)) :
    (set key value pairs).lookup other = pairs.lookup other := by
  have hkey : (other == key) = false := beq_false_of_ne h
  induction pairs with
  | nil => simp [set, List.lookup_cons, hkey]
  | cons pair rest ih =>
    obtain ⟨k, v⟩ := pair
    by_cases hp : k = key
    · simp [set, List.lookup_cons, hp, hkey]
    · simp [set, List.lookup_cons, hp, ih]

/-- A list has exactly its keys. -/
theorem has_eq_true_iff (key : α) (pairs : List (α × β)) :
    has key pairs = true ↔ key ∈ keys pairs := by
  simp [has, keys]

/-- A key with a value is there. -/
theorem mem_keys_of_lookup {key : α} {value : β} {pairs : List (α × β)}
    (h : pairs.lookup key = some value) : key ∈ keys pairs := by
  induction pairs with
  | nil => simp at h
  | cons pair rest ih =>
    by_cases hp : key = pair.1
    · simp [keys, hp]
    · have hkey : (key == pair.1) = false := beq_false_of_ne hp
      rw [List.lookup_cons, hkey] at h
      exact List.mem_cons_of_mem _ (ih h)

/-- A value that is found under a key is there as a pair. -/
theorem mem_of_lookup {key : α} {value : β} {pairs : List (α × β)}
    (h : pairs.lookup key = some value) : (key, value) ∈ pairs := by
  obtain ⟨before, after, rfl, -⟩ := List.lookup_eq_some_iff.1 h
  exact List.mem_append_right _ List.mem_cons_self

/-- Where keys are distinct, a pair that is there is found under its key. -/
theorem lookup_of_mem {pairs : List (α × β)} (hkeys : (keys pairs).Nodup) {pair : α × β}
    (h : pair ∈ pairs) : pairs.lookup pair.1 = some pair.2 := by
  induction pairs with
  | nil => exact absurd h List.not_mem_nil
  | cons first rest ih =>
    obtain ⟨hfirst, hrest⟩ := List.nodup_cons.1 hkeys
    rw [List.lookup_cons]
    rcases List.mem_cons.1 h with rfl | hmem
    · rw [beq_self_eq_true]
    · have hne : pair.1 ≠ first.1 := fun heq ↦ hfirst (heq ▸ List.mem_map_of_mem hmem)
      rw [beq_false_of_ne hne, ih hrest hmem]

/-- A key under which nothing is found is not there. -/
theorem not_mem_keys_of_lookup {key : α} {pairs : List (α × β)} (h : pairs.lookup key = none) :
    key ∉ keys pairs := by
  intro hmem
  obtain ⟨pair, hpair, rfl⟩ := List.mem_map.1 hmem
  exact absurd (List.lookup_eq_none_iff.1 h pair hpair) (by simp)

/-- Nothing is found under a key that is not there. -/
theorem lookup_eq_none {key : α} {pairs : List (α × β)} (h : key ∉ keys pairs) :
    pairs.lookup key = none := by
  cases hfound : pairs.lookup key with
  | none => rfl
  | some value => exact absurd (mem_keys_of_lookup hfound) h

/-- Setting a key adds no other pair. -/
theorem mem_set {key : α} {value : β} {pairs : List (α × β)} {pair : α × β}
    (h : pair ∈ set key value pairs) : pair = (key, value) ∨ pair ∈ pairs := by
  induction pairs with
  | nil => exact Or.inl (List.mem_singleton.1 h)
  | cons first rest ih =>
    obtain ⟨k, v⟩ := first
    simp only [set] at h
    split at h
    · next hkey =>
      rcases List.mem_cons.1 h with rfl | hrest
      · exact Or.inl (by rw [eq_of_beq hkey])
      · exact Or.inr (List.mem_cons_of_mem _ hrest)
    · rcases List.mem_cons.1 h with rfl | hrest
      · exact Or.inr List.mem_cons_self
      · exact (ih hrest).imp_right (List.mem_cons_of_mem _)

/-- Erasing a key leaves the values of the others. -/
theorem lookup_erase_of_ne {key other : α} (h : other ≠ key) (pairs : List (α × β)) :
    (erase key pairs).lookup other = pairs.lookup other := by
  induction pairs with
  | nil => rfl
  | cons pair rest ih =>
    obtain ⟨k, v⟩ := pair
    rw [erase] at ih
    by_cases hp : k = key
    · have hother : (other == k) = false := beq_false_of_ne fun e ↦ h (e.trans hp)
      rw [List.lookup_cons, hother]
      simp [erase, hp, ih]
    · simp [erase, hp, List.lookup_cons, ih]

/-- Setting a key that is there moves nothing. -/
theorem keys_set_of_mem {key : α} {pairs : List (α × β)} (h : key ∈ keys pairs) (value : β) :
    keys (set key value pairs) = keys pairs := by
  induction pairs with
  | nil => simp [keys] at h
  | cons pair rest ih =>
    by_cases hp : pair.1 = key
    · simp [set, keys, hp]
    · have hr : key ∈ keys rest := by
        rcases List.mem_cons.1 h with e | e
        · exact absurd e.symm hp
        · exact e
      have := ih hr
      simp only [keys] at this
      simp [set, keys, hp, this]

/-- A key that is not there is set at the end. -/
theorem set_of_not_mem {key : α} {pairs : List (α × β)} (h : key ∉ keys pairs) (value : β) :
    set key value pairs = pairs ++ [(key, value)] := by
  induction pairs with
  | nil => rfl
  | cons pair rest ih =>
    obtain ⟨hne, hrest⟩ := not_or.1 (mt List.mem_cons.2 h)
    rw [set, if_neg (by simpa using Ne.symm hne), ih hrest, List.cons_append]

/-- A new key goes to the end. -/
theorem keys_set_of_not_mem {key : α} {pairs : List (α × β)} (h : key ∉ keys pairs) (value : β) :
    keys (set key value pairs) = keys pairs ++ [key] := by
  rw [set_of_not_mem h, keys_append]
  rfl

/-- The keys are those that were there and the one that was set. -/
theorem mem_keys_set {key other : α} {value : β} {pairs : List (α × β)} :
    other ∈ keys (set key value pairs) ↔ other = key ∨ other ∈ keys pairs := by
  by_cases h : key ∈ keys pairs
  · rw [keys_set_of_mem h]
    exact ⟨Or.inr, fun hor ↦ hor.elim (fun heq ↦ heq ▸ h) id⟩
  · rw [keys_set_of_not_mem h, List.mem_append, List.mem_singleton, or_comm]

/-- Where a value is set does not hang on the value. -/
theorem exists_set (key : α) (pairs : List (α × β)) :
    ∃ front back, ∀ value, set key value pairs = front ++ (key, value) :: back := by
  induction pairs with
  | nil => exact ⟨[], [], fun _ ↦ rfl⟩
  | cons pair rest ih =>
    obtain ⟨front, back, hset⟩ := ih
    by_cases h : pair.1 = key
    · refine ⟨[], rest, fun value ↦ ?_⟩
      rw [set, if_pos (by simpa using h), h, List.nil_append]
    · refine ⟨pair :: front, back, fun value ↦ ?_⟩
      rw [set, if_neg (by simpa using h), hset, List.cons_append]

/-- Setting a key to the value that it has changes nothing. -/
theorem set_of_lookup {key : α} {value : β} {pairs : List (α × β)}
    (h : pairs.lookup key = some value) : set key value pairs = pairs := by
  induction pairs with
  | nil => simp at h
  | cons pair rest ih =>
    obtain ⟨k, v⟩ := pair
    by_cases hp : k = key
    · subst hp
      rw [List.lookup_cons_self, Option.some.injEq] at h
      simp [set, h]
    · have hkey : (key == k) = false := beq_false_of_ne (Ne.symm hp)
      rw [List.lookup_cons, hkey] at h
      simp [set, hp, ih h]

/-- Setting a key again leaves the second value. -/
theorem set_set (key : α) (first second : β) (pairs : List (α × β)) :
    set key second (set key first pairs) = set key second pairs := by
  induction pairs with
  | nil => simp [set]
  | cons pair rest ih =>
    by_cases h : pair.1 = key
    · simp [set, h]
    · simp [set, h, ih]

/-- A key that is there can be set before or after another one. -/
theorem set_comm {key other : α} (hne : key ≠ other) {pairs : List (α × β)}
    (h : key ∈ keys pairs) (value value' : β) :
    set key value (set other value' pairs) = set other value' (set key value pairs) := by
  induction pairs with
  | nil => exact absurd h List.not_mem_nil
  | cons pair rest ih =>
    obtain ⟨k, v⟩ := pair
    by_cases hkey : k = key
    · have hother : k ≠ other := fun heq ↦ hne (hkey.symm.trans heq)
      simp [set, hkey, hne]
    · have hrest : key ∈ keys rest := (List.mem_cons.1 h).resolve_left fun heq ↦ hkey heq.symm
      by_cases hother : k = other
      · simp [set, hother, Ne.symm hne]
      · simp [set, hkey, hother, ih hrest]

omit [BEq α] [LawfulBEq α] in
/-- A new key at the end keeps keys distinct. -/
theorem nodup_keys_append {pairs : List (α × β)} (h : (keys pairs).Nodup) {key : α}
    (hnew : key ∉ keys pairs) (value : β) : (keys (pairs ++ [(key, value)])).Nodup := by
  rw [keys_append]
  refine List.nodup_append.2 ⟨h, by simp [keys], ?_⟩
  intro a ha b hb
  obtain rfl := List.mem_singleton.1 hb
  rintro rfl
  exact hnew ha

/-- Setting keeps keys distinct. -/
theorem nodup_keys_set {pairs : List (α × β)} (h : (keys pairs).Nodup) (key : α) (value : β) :
    (keys (set key value pairs)).Nodup := by
  by_cases hk : key ∈ keys pairs
  · rw [keys_set_of_mem hk]; exact h
  · have happend := nodup_keys_append h hk value
    rw [keys_append] at happend
    rwa [keys_set_of_not_mem hk]

/-- Updating keeps keys distinct. -/
theorem nodup_keys_update {base : List (α × β)} (h : (keys base).Nodup) (pairs : List (α × β)) :
    (keys (update base pairs)).Nodup := by
  induction pairs generalizing base with
  | nil => exact h
  | cons pair rest ih => exact ih (nodup_keys_set h pair.1 pair.2)

/-- The keys after an update are those that were there and those that were set. -/
theorem mem_keys_update {key : α} {base pairs : List (α × β)} :
    key ∈ keys (update base pairs) ↔ key ∈ keys base ∨ key ∈ keys pairs := by
  induction pairs generalizing base with
  | nil => simp [update, keys]
  | cons pair rest ih =>
    have hstep : update base (pair :: rest) = update (set pair.1 pair.2 base) rest := rfl
    rw [hstep, ih, mem_keys_set, or_comm (a := key = pair.1), or_assoc]
    simp [keys]

/-- An update adds no other pair. -/
theorem mem_update {base pairs : List (α × β)} {pair : α × β} (h : pair ∈ update base pairs) :
    pair ∈ base ∨ pair ∈ pairs := by
  induction pairs generalizing base with
  | nil => exact Or.inl h
  | cons first rest ih =>
    rcases ih h with hset | hrest
    · rcases mem_set hset with rfl | hbase
      · exact Or.inr List.mem_cons_self
      · exact Or.inl hbase
    · exact Or.inr (List.mem_cons_of_mem _ hrest)

/-- A pair that is set last need not be set before an update of keys that are there. -/
theorem set_update_set (key : α) (value : β) {base pairs : List (α × β)}
    (h : ∀ other ∈ keys pairs, other ∈ keys base) :
    set key value (update (set key value base) pairs) = set key value (update base pairs) := by
  induction pairs generalizing base with
  | nil => exact set_set key value value base
  | cons pair rest ih =>
    obtain ⟨hfirst, hrest⟩ := List.forall_mem_cons.1 h
    change set key value (update (set pair.1 pair.2 (set key value base)) rest) =
      set key value (update (set pair.1 pair.2 base) rest)
    by_cases heq : pair.1 = key
    · rw [heq, set_set]
    · rw [set_comm heq hfirst]
      exact ih fun other hother ↦ mem_keys_set.2 (Or.inr (hrest other hother))

/-- A key that is not among those set has the value it had. -/
theorem lookup_update_of_not_mem {key : α} {pairs : List (α × β)} (h : key ∉ keys pairs)
    (base : List (α × β)) : (update base pairs).lookup key = base.lookup key := by
  induction pairs generalizing base with
  | nil => rfl
  | cons pair rest ih =>
    obtain ⟨hfirst, hrest⟩ := not_or.1 (mt List.mem_cons.2 h)
    exact (ih hrest (set pair.1 pair.2 base)).trans (lookup_set_of_ne hfirst pair.2 base)

/-- After a value is set for each of several keys, these have theirs, and the others are as before.
-/
theorem lookup_update_map (base : List (α × β)) (names : List α) (f : α → β) (name : α) :
    (update base (names.map fun n ↦ (n, f n))).lookup name =
      if name ∈ names then some (f name) else base.lookup name := by
  induction names generalizing base with
  | nil => rfl
  | cons first rest ih =>
    rw [List.map_cons]
    refine (ih (set first (f first) base)).trans ?_
    by_cases hrest : name ∈ rest
    · rw [if_pos hrest, if_pos (List.mem_cons_of_mem _ hrest)]
    · rw [if_neg hrest]
      by_cases hfirst : name = first
      · subst hfirst
        rw [lookup_set_self, if_pos List.mem_cons_self]
      · rw [lookup_set_of_ne hfirst, if_neg (by simp [hfirst, hrest])]

/-- After pairs with distinct keys are set, a key has its new value, else the one before. -/
theorem lookup_update {pairs : List (α × β)} (h : (keys pairs).Nodup) (base : List (α × β))
    (name : α) : (update base pairs).lookup name = (pairs.lookup name).or (base.lookup name) := by
  induction pairs generalizing base with
  | nil => rfl
  | cons pair rest ih =>
    obtain ⟨hfirst, hrest⟩ := List.nodup_cons.1 h
    refine (ih hrest (set pair.1 pair.2 base)).trans ?_
    rw [List.lookup_cons]
    by_cases hname : name = pair.1
    · subst hname
      rw [lookup_eq_none hfirst, lookup_set_self, beq_self_eq_true]
      rfl
    · rw [lookup_set_of_ne hname, beq_false_of_ne hname]

/-- Pairs with distinct keys stay as they are when they are set one after the other. -/
theorem ofPairs_of_nodup {pairs : List (α × β)} (h : (keys pairs).Nodup) :
    ofPairs pairs = pairs := by
  have hfold : ∀ (rest base : List (α × β)), (keys (base ++ rest)).Nodup →
      rest.foldl (fun built pair ↦ set pair.1 pair.2 built) base = base ++ rest := by
    intro rest
    induction rest with
    | nil => exact fun base _ ↦ (List.append_nil base).symm
    | cons pair rest ih =>
      intro base hkeys
      have hnew : pair.1 ∉ keys base := by
        rw [keys_append] at hkeys
        exact fun hmem ↦ (List.nodup_append.1 hkeys).2.2 _ hmem _ List.mem_cons_self rfl
      rw [List.foldl_cons, set_of_not_mem hnew, ih _ (by simpa using hkeys), List.append_assoc,
        List.singleton_append]
  exact hfold pairs [] h

/-- An update gives the first pair its new value and goes on with the other pairs and keys. -/
theorem update_cons (pair : α × β) (base pairs : List (α × β)) (h : (keys pairs).Nodup) :
    update (pair :: base) pairs =
      (pair.1, (pairs.lookup pair.1).getD pair.2) ::
        update base (pairs.filter fun other ↦ !(other.1 == pair.1)) := by
  induction pairs generalizing pair base with
  | nil => rfl
  | cons first rest ih =>
    obtain ⟨hnew, hrest⟩ := List.nodup_cons.1 h
    obtain ⟨key, value⟩ := pair
    obtain ⟨name, new⟩ := first
    have hstep : update ((key, value) :: base) ((name, new) :: rest) =
        update (set name new ((key, value) :: base)) rest := rfl
    by_cases heq : key = name
    · subst heq
      have hnone : rest.lookup key = none := lookup_eq_none hnew
      rw [hstep, set, if_pos (beq_self_eq_true key), ih _ _ hrest, List.lookup_cons_self, hnone,
        List.filter_cons_of_neg (by simp)]
      rfl
    · have hlookup : ((name, new) :: rest).lookup key = rest.lookup key := by
        rw [List.lookup_cons, beq_false_of_ne heq]
      rw [hstep, set, if_neg (by simpa using heq), ih _ _ hrest, hlookup,
        List.filter_cons_of_pos (by simpa using Ne.symm heq)]
      rfl

/-- After an update with distinct keys each pair is where it was, with its new value if it has one,
and the new keys stand behind in order. -/
theorem update_eq_append {base pairs : List (α × β)} (hbase : (keys base).Nodup)
    (hpairs : (keys pairs).Nodup) :
    update base pairs =
      (base.map fun pair ↦ (pair.1, (pairs.lookup pair.1).getD pair.2)) ++
        pairs.filter fun pair ↦ !has pair.1 base := by
  induction base generalizing pairs with
  | nil =>
    have hall : pairs.filter (fun pair ↦ !has pair.1 ([] : List (α × β))) = pairs :=
      List.filter_eq_self.2 fun _ _ ↦ rfl
    rw [hall]
    exact ofPairs_of_nodup hpairs
  | cons pair rest ih =>
    obtain ⟨hnew, hrest⟩ := List.nodup_cons.1 hbase
    have hleft : (keys (pairs.filter fun other ↦ !(other.1 == pair.1))).Nodup :=
      hpairs.sublist (List.filter_sublist.map Prod.fst)
    rw [update_cons pair rest pairs hpairs, ih hrest hleft, List.map_cons, List.cons_append,
      List.filter_filter]
    congr 2
    · refine List.map_congr_left fun other hother ↦ ?_
      have hne : other.1 ≠ pair.1 := fun heq ↦ hnew (heq ▸ List.mem_map_of_mem hother)
      have herase : (pairs.filter fun p ↦ !(p.1 == pair.1)).lookup other.1 =
          pairs.lookup other.1 := lookup_erase_of_ne hne pairs
      rw [herase]
    · refine List.filter_congr fun other _ ↦ ?_
      simp [has, Bool.and_comm, BEq.comm]

/-- Pairs set one after the other have distinct keys. -/
theorem nodup_keys_ofPairs (pairs : List (α × β)) : (keys (ofPairs pairs)).Nodup :=
  nodup_keys_update (by simp [keys]) pairs

/-- The distinct members of a list are its members, each once. -/
theorem distinct_spec (xs : List α) : (distinct xs).Nodup ∧ ∀ x, x ∈ distinct xs ↔ x ∈ xs := by
  have hfold : ∀ (rest seen : List α), seen.Nodup →
      (rest.foldl (fun seen x ↦ if seen.contains x then seen else seen ++ [x]) seen).Nodup ∧
        ∀ x, x ∈ rest.foldl (fun seen x ↦ if seen.contains x then seen else seen ++ [x]) seen ↔
          x ∈ seen ∨ x ∈ rest := by
    intro rest
    induction rest with
    | nil => intro seen hseen; exact ⟨hseen, fun x ↦ by simp⟩
    | cons y rest ih =>
      intro seen hseen
      rw [List.foldl_cons]
      split
      · next hy =>
        obtain ⟨hnodup, hmem⟩ := ih seen hseen
        refine ⟨hnodup, fun x ↦ (hmem x).trans ⟨fun h ↦ h.imp_right (List.mem_cons_of_mem y), ?_⟩⟩
        rintro (h | h)
        · exact Or.inl h
        · rcases List.mem_cons.1 h with rfl | h
          · exact Or.inl (by simpa using hy)
          · exact Or.inr h
      · next hy =>
        have hnew : (seen ++ [y]).Nodup := by
          refine List.nodup_append.2 ⟨hseen, by simp, fun a ha b hb ↦ ?_⟩
          obtain rfl := List.mem_singleton.1 hb
          rintro rfl
          exact hy (by simpa using ha)
        obtain ⟨hnodup, hmem⟩ := ih (seen ++ [y]) hnew
        refine ⟨hnodup, fun x ↦ (hmem x).trans ?_⟩
        simp [or_assoc]
  simpa [distinct] using hfold xs [] (by simp)

end Laws

end MarkupBinding.Keyed
