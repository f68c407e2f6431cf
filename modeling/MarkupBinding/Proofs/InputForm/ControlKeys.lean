import MarkupBinding.Proofs.InputForm.Keys
import MarkupBinding.Proofs.InputForm.Structure

/-!
# The keys of controls

The key of a control is the names and row numbers on the way to it, like that of a list, with the
name of a property or what a button does to the rows at its end. Names that are identifiers hold
none of the characters behind which a key goes on (`IsStop`), so that the keys of controls in
different components of a node, or in different rows of a list, are different
(`eq_of_behind_partKey`, `eq_of_behind_rowKey`), and none is the key of a number of rows
(`IsControl`).

`Draws` says of a drawing that its controls have different keys in a region, and that numbers of
rows are only set for lists that may be. Drawings one below the other draw in both their regions, if
these are apart (`Draws.bind`). By induction on the component, its fields draw behind their key
(`draws_drawNode`), and a form draws behind the name of its outermost component and under the keys
of its flags (`draws_drawForm`).
-/

set_option autoImplicit false
set_option relaxedAutoImplicit false

namespace MarkupBinding.InputForm

/-! ### Keys -/

/-- A character behind which a key goes on. -/
def IsStop (c : Char) : Prop :=
  c = '.' ∨ c = '[' ∨ c = '#'

/-- A name without such characters. -/
def IsStopless (name : String) : Prop :=
  ∀ c ∈ name.toList, ¬ IsStop c

/-- The key goes on behind another one. -/
def Behind (key other : String) : Prop :=
  ∃ c rest, IsStop c ∧ other.toList = key.toList ++ c :: rest

/-- The key of a control behind another key, which is not one for a number of rows. -/
def IsControl (key other : String) : Prop :=
  Behind key other ∧ ∀ list, other ≠ countKey list

theorem isStopless_of_isIdentifier {name : String} (h : Path.isIdentifier name.toList = true) :
    IsStopless name := by
  rintro c hc hstop
  have hpart := Path.isIdentifierPart_of_mem h hc
  rcases hstop with rfl | rfl | rfl <;> cases hpart

theorem isStopless_toggle : IsStopless "toggle" :=
  isStopless_of_isIdentifier (by decide +kernel)

section Keys

variable {key name other last : String}

theorem Extends.behind (h : Extends key other) (hbehind : Behind other last) : Behind key last := by
  obtain ⟨rest, hrest, hstops⟩ := h
  obtain ⟨c, more, hc, hmore⟩ := hbehind
  cases rest with
  | nil => exact ⟨c, more, hc, by rw [hmore, hrest, List.append_nil]⟩
  | cons d rest =>
    exact ⟨d, rest ++ c :: more, (hstops d rfl).imp_right Or.inl, by rw [hmore, hrest]; simp⟩

theorem Extends.isControl (h : Extends key other) (hcontrol : IsControl other last) :
    IsControl key last :=
  ⟨h.behind hcontrol.1, hcontrol.2⟩

theorem partKey_injective (key : String) : Function.Injective (partKey key) := by
  intro name other h
  have hlists := congrArg String.toList h
  simp only [partKey, String.toList_append, List.append_assoc, List.append_cancel_left_eq] at hlists
  exact String.toList_injective hlists

theorem flagKey_injective : Function.Injective flagKey := by
  intro flag other h
  have hlists := congrArg String.toList h
  simp only [flagKey, String.toList_append, List.append_cancel_left_eq] at hlists
  exact String.toList_injective hlists

/-- The key of a part is one for a number of rows only if its name ends like such a key. -/
theorem suffix_of_partKey_eq_countKey {key name list : String}
    (h : partKey key name = countKey list) : "#count".toList <:+ name.toList := by
  have hlists : key.toList ++ '.' :: name.toList = list.toList ++ "#count".toList := by
    simpa [partKey, countKey] using congrArg String.toList h
  rcases List.append_eq_append_iff.1 hlists with ⟨between, -, hbetween⟩ | ⟨between, -, hbetween⟩
  · cases between with
    | nil => cases hbetween
    | cons c rest => exact ⟨rest, (List.cons.inj hbetween).2.symm⟩
  · have hmem : '.' ∈ "#count".toList := by
      rw [hbetween]
      exact List.mem_append_right _ List.mem_cons_self
    exact absurd hmem (by decide)

/-- The key of a text field is behind that of its component, and is none for a number of rows. -/
theorem isControl_partKey (key : String) (h : IsStopless name) :
    IsControl key (partKey key name) := by
  refine ⟨⟨'.', name.toList, Or.inl rfl, by simp [partKey]⟩, fun list heq ↦ ?_⟩
  exact h '#' ((suffix_of_partKey_eq_countKey heq).subset (by decide)) (Or.inr (Or.inr rfl))

theorem isControl_addKey (key : String) : IsControl key (addKey key) := by
  refine ⟨⟨'#', "add".toList, Or.inr (Or.inr rfl), by simp [addKey]⟩, fun list heq ↦ ?_⟩
  have hlast := congrArg (fun text ↦ text.toList.getLast?) heq
  simp [addKey, countKey] at hlast

theorem isControl_removeKey (key : String) : IsControl key (removeKey key) := by
  refine ⟨⟨'#', "remove".toList, Or.inr (Or.inr rfl), by simp [removeKey]⟩, fun list heq ↦ ?_⟩
  have hlast := congrArg (fun text ↦ text.toList.getLast?) heq
  simp [removeKey, countKey] at hlast

/-- No key is behind those of two parts of a component. -/
theorem eq_of_behind_partKey (hname : IsStopless name) (hother : IsStopless other)
    (h : Behind (partKey key name) last) (h' : Behind (partKey key other) last) : name = other := by
  obtain ⟨c, rest, hc, hrest⟩ := h
  obtain ⟨d, more, hd, hmore⟩ := h'
  have hkeys := hrest.symm.trans hmore
  simp only [partKey, String.toList_append, List.append_assoc, List.append_cancel_left_eq] at hkeys
  exact String.toList_injective (eq_of_append_eq hkeys hname hother (by simpa) (by simpa))

/-- The key of one part of a component is not behind that of another one. -/
theorem not_behind_partKey (name : String) (hother : IsStopless other) :
    ¬ Behind (partKey key name) (partKey key other) := by
  rintro ⟨c, rest, hc, hrest⟩
  simp only [partKey, String.toList_append, List.append_assoc, List.append_cancel_left_eq] at hrest
  have hmem : c ∈ other.toList := by
    rw [hrest]
    simp
  exact hother c hmem hc

/-- No key is behind those of two rows. -/
theorem eq_of_behind_rowKey {index next : Nat} (h : Behind (rowKey key index) last)
    (h' : Behind (rowKey key next) last) : index = next := by
  obtain ⟨c, rest, -, hrest⟩ := h
  obtain ⟨d, more, -, hmore⟩ := h'
  exact eq_of_rowKey_append_eq (hrest.symm.trans hmore)

theorem not_behind_addKey (key : String) (index : Nat) :
    ¬ Behind (rowKey key index) (addKey key) := by
  rintro ⟨c, rest, hc, hrest⟩
  simp [rowKey, addKey] at hrest

theorem not_behind_removeKey (key : String) (index : Nat) :
    ¬ Behind (rowKey key index) (removeKey key) := by
  rintro ⟨c, rest, hc, hrest⟩
  simp [rowKey, removeKey] at hrest

/-- Only behind the word before all flags there are keys of flags. -/
theorem eq_toggle_of_behind_flagKey {flag : String} (hname : IsStopless name)
    (h : Behind name (flagKey flag)) : name = "toggle" := by
  obtain ⟨c, rest, hc, hrest⟩ := h
  have hlists : "toggle".toList ++ '.' :: flag.toList = name.toList ++ c :: rest := by
    rw [← hrest]
    simp [flagKey]
  exact (String.toList_injective (eq_of_append_eq hlists isStopless_toggle hname (by simp [IsStop])
    (by simpa))).symm

/-- No key goes on behind two names without stops. -/
theorem eq_of_extends (hname : IsStopless name) (hother : IsStopless other) (h : Extends name last)
    (h' : Extends other last) : name = other := by
  obtain ⟨rest, hrest, hstop⟩ := h
  obtain ⟨more, hmore, hstops⟩ := h'
  exact String.toList_injective (eq_of_append_eq (hrest.symm.trans hmore) hname hother
    (fun c hc ↦ (hstop c hc).imp_right Or.inl) fun c hc ↦ (hstops c hc).imp_right Or.inl)

/-- What is a key of a flag and one for the number of rows of a list, is the latter for a list
behind the word before all flags. -/
theorem extends_toggle_of_countKey_eq_flagKey {list flag : String}
    (h : countKey list = flagKey flag) : Extends "toggle" list := by
  have hlists : list.toList ++ "#count".toList = "toggle".toList ++ '.' :: flag.toList := by
    simpa [countKey, flagKey] using congrArg String.toList h
  rcases List.append_eq_append_iff.1 hlists with ⟨between, -, hbetween⟩ | ⟨between, hlist, hbetween⟩
  · have hmem : '.' ∈ "#count".toList := by
      rw [hbetween]
      exact List.mem_append_right _ List.mem_cons_self
    exact absurd hmem (by decide)
  · refine ⟨between, hlist, fun c hc ↦ ?_⟩
    cases between with
    | nil => cases hc
    | cons d between =>
      obtain rfl := Option.some.inj hc
      exact Or.inl (List.cons.inj hbetween).1.symm

end Keys

/-! ### What is drawn -/

/-- The keys of the controls among what is drawn, in order. -/
def controls (drawn : List Drawn) : List String :=
  drawn.filterMap Drawn.key?

theorem controls_append (drawn more : List Drawn) :
    controls (drawn ++ more) = controls drawn ++ controls more :=
  List.filterMap_append

/-- The controls have different keys in a region, and what is true of the numbers of rows stays
true. -/
def Draws {α : Type} (inv : RowCounts → Prop) (region : String → Prop) (d : Drawing RowCounts α) :
    Prop :=
  ∀ answers before, inv before → (controls (d answers before).drawn).Nodup ∧
    (∀ key ∈ controls (d answers before).drawn, region key) ∧ inv (d answers before).state

/-- The drawing has no controls. -/
def DrawsNone {α : Type} (inv : RowCounts → Prop) (d : Drawing RowCounts α) : Prop :=
  Draws inv (fun _ ↦ False) d

section Draws

variable {α β : Type} {inv : RowCounts → Prop} {region other : String → Prop}
  {d : Drawing RowCounts α} {next : α → Drawing RowCounts β}

theorem Draws.mono (hd : Draws inv region d) (h : ∀ key, region key → other key) :
    Draws inv other d := fun answers before hbefore ↦
  (hd answers before hbefore).imp_right (And.imp_left fun hkeys key hkey ↦ h key (hkeys key hkey))

/-- Drawings one below the other have different keys if their regions are apart. -/
theorem Draws.bind (hd : Draws inv region d) (hnext : ∀ value, Draws inv other (next value))
    (hapart : ∀ key, region key → ¬ other key) :
    Draws inv (fun key ↦ region key ∨ other key) (d >>= next) := by
  intro answers before hbefore
  obtain ⟨hnodup, hregion, hafter⟩ := hd answers before hbefore
  cases hresult : (d answers before).result with
  | error interruption =>
    rw [Drawing.bind_apply_of_error hresult]
    exact ⟨hnodup, fun key hkey ↦ Or.inl (hregion key hkey), hafter⟩
  | ok value =>
    obtain ⟨hnodupNext, hother, hend⟩ := hnext value answers _ hafter
    rw [Drawing.bind_apply_of_ok hresult]
    dsimp only
    rw [controls_append]
    refine ⟨List.nodup_append.2 ⟨hnodup, hnodupNext, ?_⟩, fun key hkey ↦ ?_, hend⟩
    · rintro key hkey _ hmem rfl
      exact hapart key (hregion key hkey) (hother key hmem)
    · exact (List.mem_append.1 hkey).imp (hregion key) (hother key)

/-- What has no controls may stand above. -/
theorem DrawsNone.bind (hd : DrawsNone inv d) (hnext : ∀ value, Draws inv other (next value)) :
    Draws inv other (d >>= next) :=
  (Draws.bind hd hnext fun _ h ↦ h.elim).mono fun _ h ↦ h.resolve_left id

/-- What has no controls may stand below. -/
theorem Draws.above (hd : Draws inv region d) (hnext : ∀ value, DrawsNone inv (next value)) :
    Draws inv region (d >>= next) :=
  (hd.bind hnext fun _ _ h ↦ h).mono fun _ h ↦ h.resolve_right id

/-- What draws no control and changes numbers only to such of which the same is true. -/
theorem drawsNone_of_change (h : ∀ answers before, controls (d answers before).drawn = [] ∧
    (inv before → inv (d answers before).state)) : DrawsNone inv d := by
  intro answers before hbefore
  obtain ⟨hnone, hafter⟩ := h answers before
  rw [hnone]
  exact ⟨List.nodup_nil, fun _ hkey ↦ absurd hkey List.not_mem_nil, hafter hbefore⟩

theorem drawsNone_pure (value : α) : DrawsNone inv (pure value) :=
  drawsNone_of_change fun _ _ ↦ ⟨rfl, id⟩

theorem drawsNone_fail (fault : DrawingFault) : DrawsNone inv (Drawing.fail (α := α) fault) :=
  drawsNone_of_change fun _ _ ↦ ⟨rfl, id⟩

theorem drawsNone_say (tone : Tone) (text : String) : DrawsNone inv (Drawing.say tone text) :=
  drawsNone_of_change fun _ _ ↦ ⟨rfl, id⟩

theorem drawsNone_container : DrawsNone inv (Drawing.draw .container) :=
  drawsNone_of_change fun _ _ ↦ ⟨rfl, id⟩

theorem drawsNone_demand (fault : DrawingFault) (value : Option α) :
    DrawsNone inv (Drawing.demand fault value) := by
  cases value with
  | none => exact drawsNone_fail fault
  | some value => exact drawsNone_pure value

theorem drawsNone_state : DrawsNone inv (Drawing.state : Drawing RowCounts RowCounts) :=
  drawsNone_of_change fun _ _ ↦ ⟨rfl, id⟩

/-- A single control has its key. -/
theorem draws_textField (label value key : String) :
    Draws inv (· = key) (Drawing.textField label value key) := fun _ _ hbefore ↦
  ⟨List.nodup_singleton _, fun _ hkey ↦ List.mem_singleton.1 hkey, hbefore⟩

theorem draws_checkbox (label : String) (value : Bool) (key : String) :
    Draws inv (· = key) (Drawing.checkbox label value key) := fun _ _ hbefore ↦
  ⟨List.nodup_singleton _, fun _ hkey ↦ List.mem_singleton.1 hkey, hbefore⟩

theorem draws_button (label key : String) (disabled : Bool) :
    Draws inv (· = key) (Drawing.button label key disabled) := fun _ _ hbefore ↦
  ⟨List.nodup_singleton _, fun _ hkey ↦ List.mem_singleton.1 hkey, hbefore⟩

end Draws

/-- What is true of numbers of rows stays true when one is set for a list whose key goes on behind a
key. -/
def Settable (inv : RowCounts → Prop) (key : String) : Prop :=
  ∀ list, Extends key list → ∀ count counts, inv counts →
    inv (Keyed.set (countKey list) count counts)

theorem Settable.behind {inv : RowCounts → Prop} {key other : String} (h : Settable inv key)
    (hextends : Extends key other) : Settable inv other :=
  fun list hlist ↦ h list (hextends.trans hlist)

/-! ### Lists -/

section Lists

variable {inv : RowCounts → Prop} {key : String}

theorem drawsNone_startCount (hinv : Settable inv key) (defaults : Value) :
    DrawsNone inv (startCount key defaults) := by
  refine drawsNone_state.bind fun counts ↦ ?_
  split
  · exact drawsNone_pure ()
  · exact (drawsNone_demand _ _).bind fun rows ↦
      drawsNone_of_change fun _ before ↦ ⟨rfl, hinv key (.refl key) rows before⟩

theorem drawsNone_rowCount (key : String) : DrawsNone inv (rowCount key) :=
  drawsNone_state.bind fun _ ↦ drawsNone_pure _

theorem drawsNone_changeCount (hinv : Settable inv key) (change : Int) :
    DrawsNone inv (changeCount key change) :=
  (drawsNone_rowCount key).bind fun _ ↦
    (drawsNone_of_change fun _ before ↦ ⟨rfl, hinv key (.refl key) _ before⟩).bind fun _ ↦
      drawsNone_of_change fun _ _ ↦ ⟨rfl, id⟩

theorem draws_countButton (hinv : Settable inv key) (label other : String) (disabled : Bool)
    (change : Int) : Draws inv (· = other) (countButton label other key disabled change) := by
  refine (draws_button _ _ _).above fun isPressed ↦ ?_
  cases isPressed
  · exact drawsNone_pure ()
  · exact drawsNone_changeCount hinv change

/-- The two buttons have keys of their own. -/
theorem draws_listButtons (hinv : Settable inv key) (itemName : String) :
    Draws inv (fun other ↦ other = addKey key ∨ other = removeKey key)
      (listButtons key itemName) := by
  have hne : addKey key ≠ removeKey key := by
    intro h
    have hlength := congrArg String.length h
    simp only [addKey, removeKey, String.length_append, Nat.add_left_cancel_iff] at hlength
    exact absurd hlength (by decide)
  refine (draws_countButton hinv _ _ false 1).bind
    (fun _ ↦ (drawsNone_rowCount key).bind fun count ↦
      draws_countButton hinv _ _ (count == 0) (-1)) ?_
  rintro _ rfl
  exact hne

/-- Rows draw behind their keys if each of them does. -/
theorem draws_drawRows (itemName : String) {defaults : Value}
    {row : Nat → Value → Drawing RowCounts Value}
    (hrow : ∀ index fields, Draws inv (IsControl (rowKey key index)) (row index (.object fields)))
    (more : Nat) : ∀ index, Draws inv
      (fun other ↦ ∃ next, index ≤ next ∧ IsControl (rowKey key next) other)
      (drawRows itemName defaults row index more) := by
  induction more with
  | zero => exact fun index ↦ (drawsNone_pure []).mono fun _ h ↦ h.elim
  | succ more ih =>
    intro index
    rw [drawRows]
    rcases rowDefault_cases defaults index with ⟨fields, hfields⟩ | ⟨fault, hfault⟩
    · rw [hfields, pure_bind]
      refine (drawsNone_say _ _).bind fun _ ↦ ((hrow index fields).bind
        (fun first ↦ (ih (index + 1)).above fun others ↦ drawsNone_pure _) ?_).mono ?_
      · rintro other hfirst ⟨next, hnext, hother⟩
        have hsame := eq_of_behind_rowKey hfirst.1 hother.1
        omega
      · rintro other (hfirst | ⟨next, hnext, hother⟩)
        · exact ⟨index, le_rfl, hfirst⟩
        · exact ⟨next, by omega, hother⟩
    · rw [hfault, Drawing.fail_bind]
      exact (drawsNone_fail fault).mono fun _ h ↦ h.elim

/-- A list draws behind its key if its rows do. -/
theorem draws_drawList (hinv : Settable inv key) (name itemName : String) {defaults : Value}
    {row : Nat → Value → Drawing RowCounts Value}
    (hrow : ∀ index fields, Draws inv (IsControl (rowKey key index)) (row index (.object fields))) :
    Draws inv (IsControl key) (drawList name key itemName defaults row) := by
  rw [drawList_eq]
  refine (drawsNone_startCount hinv defaults).bind fun _ ↦ drawsNone_container.bind fun _ ↦
    (drawsNone_say _ _).bind fun _ ↦ (drawsNone_rowCount key).bind fun _ ↦
      ((draws_drawRows itemName hrow _ 0).bind (fun items ↦
        (draws_listButtons hinv itemName).above fun _ ↦ drawsNone_pure _) ?_).mono ?_
  · rintro other ⟨index, -, hother⟩ (rfl | rfl)
    · exact not_behind_addKey key index hother.1
    · exact not_behind_removeKey key index hother.1
  · rintro other (⟨index, -, hother⟩ | rfl | rfl)
    · exact (extends_rowKey key index).isControl hother
    · exact isControl_addKey key
    · exact isControl_removeKey key

end Lists

/-! ### Components -/

/-- The fields of a component draw behind their key, whatever object they have as defaults. -/
def DrawsBehind (inv : RowCounts → Prop) (c : Component) : Prop :=
  ∀ key fields, Settable inv key →
    Draws inv (IsControl key) (drawObject c.outline key (.object fields))

/-- The names of properties and of nested components hold no stops, at any depth. -/
def NamesStopless (c : Component) : Prop :=
  ∀ node ∈ c.nodes, ∀ name ∈ node.declared, IsStopless name

section Components

variable {inv : RowCounts → Prop} {key : String}

theorem draws_drawProperties (fields : List (String × Value)) :
    ∀ {names : List String}, names.Nodup → Draws inv (fun other ↦ ∃ name ∈ names,
      other = partKey key name) (drawProperties key (.object fields) names)
  | [], _ => (drawsNone_pure []).mono fun _ h ↦ h.elim
  | name :: rest, hnodup => by
    obtain ⟨hname, hrest⟩ := List.nodup_cons.1 hnodup
    rw [drawProperties, defaultOf, pure_bind]
    refine ((draws_textField _ _ _).bind (fun text ↦
      (draws_drawProperties fields hrest).above fun entries ↦ drawsNone_pure _) ?_).mono ?_
    · rintro _ rfl ⟨other, hother, hkey⟩
      exact hname (partKey_injective key hkey ▸ hother)
    · rintro other (rfl | ⟨next, hnext, rfl⟩)
      · exact ⟨name, List.mem_cons_self, rfl⟩
      · exact ⟨next, List.mem_cons_of_mem _ hnext, rfl⟩

theorem draws_drawComponent (hinv : Settable inv key) (name : String) (default : Option Value)
    {c : Component} (hinner : DrawsBehind inv c) :
    Draws inv (IsControl key)
      (drawComponent name key default (drawObject c.outline) c.outline) := by
  rw [drawComponent_outline]
  split
  · exact draws_drawList hinv name _ fun index fields ↦
      hinner (rowKey key index) fields (hinv.behind (extends_rowKey key index))
  · rw [objectOr_eq]
    exact drawsNone_container.bind fun _ ↦ (drawsNone_say _ _).bind fun _ ↦ hinner key _ hinv

/-- Components with different names draw behind different keys. -/
theorem draws_drawValues (hinv : Settable inv key) (fields : List (String × Value)) :
    ∀ {components : List (String × Component)}, (Keyed.keys components).Nodup →
      (∀ name ∈ Keyed.keys components, IsStopless name) →
      (∀ pair ∈ components, DrawsBehind inv pair.2) →
        Draws inv (fun other ↦ ∃ name ∈ Keyed.keys components, IsControl (partKey key name) other)
          (drawValues key fields (Component.outlines components))
  | [], _, _, _ => (drawsNone_pure []).mono fun _ h ↦ h.elim
  | (name, c) :: rest, hkeys, hstopless, hinner => by
    obtain ⟨hname, hkeysRest⟩ := List.nodup_cons.1 hkeys
    obtain ⟨hstoplessName, hstoplessRest⟩ := List.forall_mem_cons.1 hstopless
    obtain ⟨hfirst, hrest⟩ := List.forall_mem_cons.1 hinner
    rw [Component.outlines, drawValues]
    refine ((draws_drawComponent (hinv.behind (extends_partKey key name)) name _ hfirst).bind
      (fun value ↦ (draws_drawValues hinv fields hkeysRest hstoplessRest hrest).above fun values ↦
        drawsNone_pure _) ?_).mono ?_
    · rintro last hbehind ⟨other, hother, hbehindOther⟩
      exact hname (eq_of_behind_partKey hstoplessName (hstoplessRest other hother) hbehind.1
        hbehindOther.1 ▸ hother)
    · rintro last (hbehind | ⟨other, hother, hbehind⟩)
      · exact ⟨name, List.mem_cons_self, hbehind⟩
      · exact ⟨other, List.mem_cons_of_mem _ hother, hbehind⟩

/-- The fields of a component draw behind their key, by induction on the component. -/
theorem draws_drawNode (c : Component) : c.WellKeyed → NamesStopless c → ∀ {key : String} fields,
    Settable inv key → Draws inv (IsControl key) (drawNode key (.object fields) c.outline) := by
  induction c using Component.induction_on_components with
  | step properties components array itemName ih =>
    intro hkeyed hstopless key fields hinv
    obtain ⟨hproperties, hkeys, hbelow⟩ := Component.wellKeyed_iff.1 hkeyed
    obtain ⟨hown, hstoplessBelow⟩ := Component.forall_mem_nodes_iff.1 hstopless
    have hproperty : ∀ name ∈ Keyed.keys properties, IsStopless name :=
      fun name hname ↦ hown name (List.mem_append_right _ hname)
    have hcomponent : ∀ name ∈ Keyed.keys components, IsStopless name :=
      fun name hname ↦ hown name (List.mem_append_left _ hname)
    have hinner : ∀ pair ∈ components, DrawsBehind inv pair.2 := fun pair hpair key fields hinv ↦
      (ih pair hpair (hbelow pair hpair) (hstoplessBelow pair hpair) fields hinv).above
        fun entries ↦ drawsNone_pure _
    rw [drawNode_outline]
    refine ((draws_drawProperties fields hproperties).bind (fun entries ↦
      (draws_drawValues hinv fields hkeys hcomponent hinner).above fun values ↦ drawsNone_pure _)
        ?_).mono ?_
    · rintro _ ⟨name, hname, rfl⟩ ⟨other, hother, hbehind⟩
      exact not_behind_partKey other (hproperty name hname) hbehind.1
    · rintro last (⟨name, hname, rfl⟩ | ⟨name, hname, hbehind⟩)
      · exact isControl_partKey key (hproperty name hname)
      · exact (extends_partKey key name).isControl hbehind

end Components

/-! ### Forms -/

section Form

variable {s : Schema} {document : Value}

theorem draws_drawFlags {inv : RowCounts → Prop} (fields : List (String × Value)) :
    ∀ {flags : List String}, flags.Nodup → Draws inv (fun other ↦ ∃ flag ∈ flags,
      other = flagKey flag) (drawFlags (.object fields) flags)
  | [], _ => (drawsNone_pure []).mono fun _ h ↦ h.elim
  | flag :: rest, hnodup => by
    obtain ⟨hflag, hrest⟩ := List.nodup_cons.1 hnodup
    rw [drawFlags, defaultOf, pure_bind]
    refine ((draws_checkbox _ _ _).bind (fun isOn ↦
      (draws_drawFlags fields hrest).above fun entries ↦ drawsNone_pure _) ?_).mono ?_
    · rintro _ rfl ⟨other, hother, hkey⟩
      exact hflag (flagKey_injective hkey ▸ hother)
    · rintro other (rfl | ⟨next, hnext, rfl⟩)
      · exact ⟨flag, List.mem_cons_self, rfl⟩
      · exact ⟨next, List.mem_cons_of_mem _ hnext, rfl⟩

/-- The fields of the outermost component draw behind its name, also where there are none since the
defaults are no object. -/
theorem draws_drawRoot {inv : RowCounts → Prop} (hkeyed : s.root.WellKeyed)
    (hstopless : NamesStopless s.root) (hinv : Settable inv s.name) (defaults : Value) :
    Draws inv (IsControl s.name) (drawNode s.name defaults s.root.outline) := by
  rcases drawNode_cases s.root s.name defaults with ⟨fields, rfl⟩ | ⟨-, hempty⟩ | hfail
  · exact draws_drawNode s.root hkeyed hstopless fields hinv
  · rw [hempty]
    exact (drawsNone_pure []).mono fun _ h ↦ h.elim
  · rw [hfail]
    exact (drawsNone_fail _).mono fun _ h ↦ h.elim

/-- A form draws behind the name of its outermost component, and under the keys of its flags. -/
theorem draws_drawForm {inv : RowCounts → Prop} (hdocument : s.IsDrawnFrom document)
    (hkeyed : s.root.WellKeyed) (hname : IsStopless s.name) (htoggle : s.name ≠ "toggle")
    (hstopless : NamesStopless s.root) (hflags : s.toggles.Nodup) (hinv : Settable inv s.name)
    (fields : List (String × Value)) :
    Draws inv (fun key ↦ IsControl s.name key ∨ ∃ flag ∈ s.toggles, key = flagKey flag)
      (drawForm document (.object fields)) := by
  obtain ⟨heading, hheading, hform⟩ := exists_drawForm_eq hdocument
  have hboxes : Draws inv (fun key ↦ ∃ flag ∈ s.toggles, key = flagKey flag)
      (do heading; drawFlags (.object fields) s.toggles) := by
    refine DrawsNone.bind ?_ fun _ ↦ draws_drawFlags fields hflags
    rcases hheading with rfl | rfl
    · exact drawsNone_pure ()
    · exact drawsNone_say _ _
  rw [hform]
  refine (draws_drawRoot hkeyed hstopless hinv _).bind (fun entries ↦ hboxes.above fun flags ↦
    drawsNone_pure _) ?_
  rintro _ hcontrol ⟨flag, -, rfl⟩
  exact htoggle (eq_toggle_of_behind_flagKey hname hcontrol.1)

/-- The numbers of rows have different keys, none of which is that of a list in a form whose
outermost component is called like the boxes of flags. -/
structure HoldsCounts (counts : RowCounts) : Prop where
  nodup : (Keyed.keys counts).Nodup
  ofLists : ∀ key ∈ Keyed.keys counts, ∃ list, key = countKey list ∧ ¬ Extends "toggle" list

theorem settable_holdsCounts (hname : IsStopless s.name) (htoggle : s.name ≠ "toggle") :
    Settable HoldsCounts s.name := by
  intro list hlist count counts hcounts
  refine ⟨Keyed.nodup_keys_set hcounts.nodup _ _, fun key hkey ↦ ?_⟩
  obtain ⟨entry, hentry, rfl⟩ := List.mem_map.1 hkey
  rcases Keyed.mem_set hentry with rfl | hold
  · exact ⟨list, rfl, fun hother ↦ htoggle (eq_of_extends hname isStopless_toggle hlist hother)⟩
  · exact hcounts.ofLists _ (List.mem_map_of_mem hold)

/-- The keys of all controls of a form and those under which numbers of rows are remembered are
different. -/
theorem nodup_controls_drawForm (hdocument : s.IsDrawnFrom document)
    (hkeyed : s.root.WellKeyed) (hname : IsStopless s.name) (htoggle : s.name ≠ "toggle")
    (hstopless : NamesStopless s.root) (hflags : s.toggles.Nodup) (fields : List (String × Value))
    (answers : Answers) {before : RowCounts} (hbefore : HoldsCounts before) :
    (controls (drawForm document (.object fields) answers before).drawn ++
      Keyed.keys (drawForm document (.object fields) answers before).state).Nodup := by
  obtain ⟨hnodup, hregion, hafter⟩ := draws_drawForm hdocument hkeyed hname htoggle hstopless hflags
    (settable_holdsCounts hname htoggle) fields answers before hbefore
  refine List.nodup_append.2 ⟨hnodup, hafter.nodup, ?_⟩
  rintro key hkey _ hcount rfl
  obtain ⟨list, rfl, hlist⟩ := hafter.ofLists key hcount
  rcases hregion _ hkey with hcontrol | ⟨flag, -, hflag⟩
  · exact hcontrol.2 list rfl
  · exact hlist (extends_toggle_of_countKey_eq_flagKey hflag)

end Form

end MarkupBinding.InputForm
