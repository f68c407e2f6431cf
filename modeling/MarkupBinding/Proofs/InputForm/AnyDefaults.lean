import MarkupBinding.Proofs.InputForm.Completed
import MarkupBinding.Proofs.InputForm.Drawable

/-!
# Forms with any defaults

A form is drawn with some saved input as defaults, of whatever shape; nothing is entered and nothing
remembered. With defaults with which it can be drawn (`Schema.drawable`) it is drawn to its end and
gives an input of the shape of its schema. With all others it ends with a fault, as long as no two
lists have one key (`drawForm_completes`): otherwise a list may start with the rows of another one.

A list for which nothing is remembered takes the number of its rows from its defaults, and a fault
is met right there or in one of the rows (`failsOn_drawRows`, `failsOn_drawList`). What was drawn
before stored numbers, but for lists with other keys (`Untouched.append`). So of several components
the first one that cannot be drawn meets the fault (`failsOn_drawValues`), and the fields of a
component do so by induction (`failsOn_drawNode`).
-/

set_option autoImplicit false
set_option relaxedAutoImplicit false

namespace MarkupBinding.InputForm

/-- Nothing is remembered for lists whose keys go on behind a key. -/
def Untouched (key : String) (counts : RowCounts) : Prop :=
  ∀ other, Extends key other → countKey other ∉ Keyed.keys counts

/-- Where nothing is entered, the drawing ends with a fault. -/
def FailsOn {α : Type} (d : Drawing RowCounts α) (counts : RowCounts) : Prop :=
  ∃ fault, (d.answered .none counts).1 = .error (.fault fault)

section Rules

variable {α β : Type} {key : String} {counts : RowCounts}

theorem Untouched.behind {other : String} (h : Untouched key counts)
    (hextends : Extends key other) : Untouched other counts :=
  fun last hlast ↦ h last (hextends.trans hlast)

theorem Untouched.append (h : Untouched key counts) {met : List (String × Nat)}
    (hmet : ∀ list ∈ met, ¬ Extends key list.1) : Untouched key (counts ++ stored met) := by
  intro other hother hmem
  rw [Keyed.keys_append, List.mem_append] at hmem
  rcases hmem with hold | hnew
  · exact h other hother hold
  · obtain ⟨entry, hentry, hkey⟩ := List.mem_map.1 hnew
    obtain ⟨list, hlist, rfl⟩ := List.mem_map.1 hentry
    exact hmet list hlist (countKey_injective hkey ▸ hother)

theorem failsOn_fail (fault : DrawingFault) (counts : RowCounts) :
    FailsOn (Drawing.fail fault : Drawing RowCounts α) counts :=
  ⟨fault, rfl⟩

/-- What would be drawn below a fault is not. -/
theorem FailsOn.bind {d : Drawing RowCounts α} (h : FailsOn d counts)
    (next : α → Drawing RowCounts β) : FailsOn (d >>= next) counts := by
  obtain ⟨fault, hfault⟩ := h
  refine ⟨fault, ?_⟩
  rw [Drawing.answered_bind]
  cases hrun : d.answered .none counts with
  | mk result after =>
    rw [hrun] at hfault
    obtain rfl : result = .error (.fault fault) := hfault
    rfl

/-- A fault may be met below what has a result. -/
theorem failsOn_bind_of_ok {d : Drawing RowCounts α} {next : α → Drawing RowCounts β} {value : α}
    {after : RowCounts} (hrun : d.answered .none counts = (.ok value, after))
    (h : FailsOn (next value) after) : FailsOn (d >>= next) counts := by
  obtain ⟨fault, hfault⟩ := h
  exact ⟨fault, by rw [Drawing.answered_bind, hrun]; exact hfault⟩

/-- Where nothing is entered, what advances has a result. -/
theorem exists_ok_of_advances {start : String × Nat → Prop} {d : Drawing RowCounts α}
    (hd : Advances start d) (counts : RowCounts) :
    ∃ met : List (String × Nat), (∀ list ∈ met, start list) ∧
      ∃ value, d.answered .none counts = (.ok value, counts ++ stored met) := by
  obtain ⟨met, hmet, -, hvalue | ⟨⟨key, hpressed⟩, -⟩⟩ := hd .none counts
  · exact ⟨met, hmet, hvalue⟩
  · cases hpressed

end Rules

/-! ### Lists -/

section Lists

variable {inner : List (String × Value) → Bool} {key : String} {counts : RowCounts}
  {row : Nat → Value → Drawing RowCounts Value}

/-- The rows of a list meet a fault if one of them has an item as default with which it cannot be
drawn. -/
theorem failsOn_drawRows (itemName : String) (items : List Value)
    (hadvances : ∀ index fields, inner fields = true →
      Advances (fun list ↦ Extends (rowKey key index) list.1) (row index (.object fields)))
    (hfails : ∀ index fields counts, inner fields = false → Untouched (rowKey key index) counts →
      FailsOn (row index (.object fields)) counts) :
    ∀ (more index : Nat) (counts : RowCounts), index + more = items.length →
      (∃ item ∈ items.drop index, inner item.entries = false) →
      (∀ other, index ≤ other → Untouched (rowKey key other) counts) →
        FailsOn (drawRows itemName (.list items) row index more) counts := by
  intro more
  induction more with
  | zero =>
    rintro index counts hlength ⟨item, hitem, -⟩ -
    rw [List.drop_eq_nil_of_le (by omega)] at hitem
    exact absurd hitem List.not_mem_nil
  | succ more ih =>
    rintro index counts hlength ⟨item, hitem, hunfit⟩ huntouched
    have hindex : index < items.length := by omega
    have hdefault : rowDefault (.list items) index = pure (.object items[index].entries) := by
      rw [rowDefault_list, List.getElem?_eq_getElem hindex, objectOr_eq]
      rfl
    rw [drawRows, hdefault, pure_bind]
    refine failsOn_bind_of_ok (Drawing.answered_say _ _) ?_
    cases hfirst : inner items[index].entries with
    | false => exact (hfails index _ counts hfirst (huntouched index le_rfl)).bind _
    | true =>
      obtain ⟨met, hmet, value, hvalue⟩ := exists_ok_of_advances (hadvances index _ hfirst) counts
      refine failsOn_bind_of_ok hvalue ((ih (index + 1) _ (by omega) ?_ ?_).bind _)
      · rw [List.drop_eq_getElem_cons hindex] at hitem
        rcases List.mem_cons.1 hitem with rfl | hitem
        · rw [hfirst] at hunfit
          cases hunfit
        · exact ⟨item, hitem, hunfit⟩
      · intro other hother
        refine (huntouched other (by omega)).append fun list hlist hextends ↦ ?_
        have hsame := eq_of_extends_rowKey (hmet list hlist) hextends
        omega

/-- A list meets a fault if rows cannot be drawn for its default, which is no empty object. -/
theorem failsOn_drawList (name itemName : String) {defaults : Value}
    (hdefaults : defaults ≠ .object []) (h : drawsRows inner defaults = false)
    (hadvances : ∀ index fields, inner fields = true →
      Advances (fun list ↦ Extends (rowKey key index) list.1) (row index (.object fields)))
    (hfails : ∀ index fields counts, inner fields = false → Untouched (rowKey key index) counts →
      FailsOn (row index (.object fields)) counts)
    (huntouched : Untouched key counts) :
    FailsOn (drawList name key itemName defaults row) counts := by
  have hnew : countKey key ∉ Keyed.keys counts := huntouched key (.refl key)
  have hhas : ¬ Keyed.has (countKey key) counts = true := fun hhas ↦
    hnew ((Keyed.has_eq_true_iff _ _).1 hhas)
  rw [drawList_eq]
  cases hcount : defaults.count? with
  | none =>
    refine FailsOn.bind ⟨.notCountable, ?_⟩ _
    rw [answered_startCount, if_neg hhas, hcount]
  | some rows =>
    have hstored : Keyed.set (countKey key) (rows : Int) counts = counts ++ stored [(key, rows)] :=
      Keyed.set_of_not_mem hnew _
    have hstart : (startCount key defaults).answered .none counts =
        (.ok (), counts ++ stored [(key, rows)]) := by
      rw [answered_startCount, if_neg hhas, hcount, ← hstored]
    have hrows : (counts ++ stored [(key, rows)]).lookup (countKey key) = some (rows : Int) := by
      rw [← hstored, Keyed.lookup_set_self]
    have huntouchedRows : ∀ index,
        Untouched (rowKey key index) (counts ++ stored [(key, rows)]) := by
      refine fun index ↦ (huntouched.behind (extends_rowKey key index)).append fun list hlist ↦ ?_
      rw [List.mem_singleton.1 hlist]
      exact not_extends_rowKey key index
    refine failsOn_bind_of_ok hstart (failsOn_bind_of_ok (Drawing.answered_draw _)
      (failsOn_bind_of_ok (Drawing.answered_say _ _)
        (failsOn_bind_of_ok (answered_rowCount key .none _) (FailsOn.bind ?_ _))))
    rw [hrows, Option.getD_some, Int.toNat_natCast]
    cases defaults with
    | list items =>
      obtain rfl := Option.some.inj hcount
      rw [drawsRows, List.all_eq_false] at h
      exact failsOn_drawRows itemName items hadvances hfails _ 0 _ (by omega)
        (by simpa using h) fun index _ ↦ huntouchedRows index
    | object fields =>
      obtain rfl := Option.some.inj hcount
      cases fields with
      | nil => exact absurd rfl hdefaults
      | cons entry rest => exact (failsOn_fail (.noItem 0) _).bind _
    | string => cases h
    | null | bool | int | float | record => cases hcount

end Lists

/-! ### Components -/

theorem rowsOr_ne_object_nil (value : Option Value) : rowsOr value ≠ .object [] := by
  rw [rowsOr]
  split
  · next hholds =>
    intro heq
    rw [heq] at hholds
    cases hholds
  · exact fun heq ↦ by cases heq

/-- The fields of a component meet a fault with defaults with which they cannot be drawn. -/
def FailsPart (c : Component) : Prop :=
  ∀ key fields counts, c.drawable fields = false → Untouched key counts →
    FailsOn (drawObject c.outline key (.object fields)) counts

section Components

variable {fields : List (String × Value)} {counts : RowCounts}

theorem failsOn_drawComponent (name key : String) {c : Component} (hinner : FailsPart c)
    {default : Option Value} (h : c.drawsPart default = false) (huntouched : Untouched key counts) :
    FailsOn (drawComponent name key default (drawObject c.outline) c.outline) counts := by
  rw [Component.drawsPart] at h
  rw [drawComponent_outline]
  split
  · next harray =>
    rw [if_pos harray] at h
    exact failsOn_drawList name _ (rowsOr_ne_object_nil default) h
      (fun index fields ↦
        advances_drawObject c _ _ _ (startsBehind_extends (rowKey key index) fields))
      (fun index fields counts hfields ↦ hinner (rowKey key index) fields counts hfields) huntouched
  · next harray =>
    rw [if_neg harray] at h
    rw [objectOr_eq]
    exact failsOn_bind_of_ok (Drawing.answered_draw _)
      (failsOn_bind_of_ok (Drawing.answered_say _ _) (hinner key _ counts h huntouched))

/-- Of several components with plain names the first one that cannot be drawn meets a fault. -/
theorem failsOn_drawValues (key : String) :
    ∀ {components : List (String × Component)} {counts : RowCounts},
      (Keyed.keys components).Nodup → (∀ name ∈ Keyed.keys components, IsPlain name) →
      (∀ pair ∈ components, FailsPart pair.2) → Component.drawableAll components fields = false →
      (∀ name ∈ Keyed.keys components, Untouched (partKey key name) counts) →
        FailsOn (drawValues key fields (Component.outlines components)) counts
  | [], _, _, _, _, h, _ => by cases h
  | (name, c) :: rest, counts, hkeys, hplain, hinner, h, huntouched => by
    obtain ⟨hname, hkeysRest⟩ := List.nodup_cons.1 hkeys
    obtain ⟨hplainName, hplainRest⟩ := List.forall_mem_cons.1 hplain
    obtain ⟨hfirst, hrest⟩ := List.forall_mem_cons.1 hinner
    obtain ⟨huntouchedName, huntouchedRest⟩ := List.forall_mem_cons.1 huntouched
    rw [Component.outlines, drawValues]
    cases hdraws : c.drawsPart (fields.lookup name) with
    | false => exact (failsOn_drawComponent name _ hfirst hdraws huntouchedName).bind _
    | true =>
      obtain ⟨met, hmet, value, hvalue⟩ := exists_ok_of_advances (advances_drawComponent name _
        (advances_drawObject c) (startsBehind_extends (partKey key name) fields) hdraws) counts
      refine failsOn_bind_of_ok hvalue ((failsOn_drawValues key hkeysRest hplainRest hrest ?_
        fun other hother ↦ ?_).bind _)
      · rw [Component.drawableAll_cons, hdraws, Bool.true_and] at h
        exact h
      · refine (huntouchedRest other hother).append fun list hlist hextends ↦ hname ?_
        exact eq_of_extends_partKey hplainName (hplainRest other hother) (hmet list hlist)
          hextends ▸ hother

end Components

/-- The fields of a component meet a fault, by induction on the component. -/
theorem failsOn_drawNode (c : Component) : c.WellKeyed →
    (∀ node ∈ c.nodes, ∀ name ∈ Keyed.keys node.components, IsPlain name) →
      ∀ key fields counts, c.drawable fields = false → Untouched key counts →
        FailsOn (drawNode key (.object fields) c.outline) counts := by
  induction c using Component.induction_on_components with
  | step properties components array itemName ih =>
    intro hkeyed hplain key fields counts h huntouched
    obtain ⟨-, hkeys, hbelow⟩ := Component.wellKeyed_iff.1 hkeyed
    obtain ⟨hplainHere, hplainBelow⟩ := Component.forall_mem_nodes_iff.1 hplain
    have hinner : ∀ pair ∈ components, FailsPart pair.2 :=
      fun pair hpair key fields counts h huntouched ↦
        (ih pair hpair (hbelow pair hpair) (hplainBelow pair hpair) key fields counts h
          huntouched).bind _
    rw [Component.drawable] at h
    rw [drawNode_outline]
    exact failsOn_bind_of_ok (answered_drawProperties fields key _)
      ((failsOn_drawValues key hkeys hplainHere hinner h
        fun name _ ↦ huntouched.behind (extends_partKey key name)).bind _)

/-! ### Forms -/

section Form

variable {s : Schema} {document : Value} {fields : List (String × Value)}

/-- With defaults with which it cannot be drawn, a form whose components have plain names meets a
fault. -/
theorem failsOn_drawForm (hdocument : s.IsDrawnFrom document) (hkeyed : s.root.WellKeyed)
    (hplain : ∀ node ∈ s.root.nodes, ∀ name ∈ Keyed.keys node.components, IsPlain name)
    (h : s.drawable fields = false) : FailsOn (drawForm document (.object fields)) [] := by
  obtain ⟨heading, -, hform⟩ := exists_drawForm_eq hdocument
  rw [hform]
  refine FailsOn.bind ?_ _
  rw [Schema.drawable] at h
  cases hdefaults : rootDefaults s fields with
  | object entries =>
    rw [hdefaults] at h
    exact failsOn_drawNode s.root hkeyed hplain s.name entries [] h
      fun _ _ hmem ↦ absurd hmem List.not_mem_nil
  | null | bool | int | float | string | list | record =>
    rw [hdefaults] at h
    have hnonempty : ¬ s.root.isEmpty = true := by simpa using h
    rw [drawNode_of_not_object s.root s.name (fun _ heq ↦ by cases heq), if_neg hnonempty]
    exact failsOn_fail _ _

/-- A form with any saved input as defaults, with nothing entered and nothing remembered: if it can
be drawn with them, it is drawn to its end and gives an input of the shape of its schema; if not,
and if the names of its components are plain, it ends with a fault. -/
theorem drawForm_completes (hdocument : s.IsDrawnFrom document) (hkeyed : s.root.WellKeyed)
    (hapart : s.root.PartsApart) (hflags : ∀ flag ∈ s.toggles, flag ∉ s.declared)
    (fields : List (String × Value)) :
    (s.drawable fields = true → ∃ drawn,
      (drawForm document (.object fields) .none []).result = .ok drawn ∧ s.fills drawn = true) ∧
    (s.drawable fields = false →
      (∀ node ∈ s.root.nodes, ∀ name ∈ Keyed.keys node.components, IsPlain name) → ∃ fault,
        (drawForm document (.object fields) .none []).result = .error (.fault fault)) := by
  refine ⟨fun h ↦ ?_, fun h hplain ↦ failsOn_drawForm hdocument hkeyed hplain h⟩
  have hadvances := advances_drawForm hdocument (startsBehind_extends s.name fields) h
  obtain ⟨met, -, drawn, hdrawn⟩ := exists_ok_of_advances hadvances []
  exact ⟨drawn, congrArg Prod.fst hdrawn,
    (fills_of_answered_drawForm hdocument hkeyed hapart hflags (fun _ _ ↦ rfl) hdrawn).1⟩

end Form

/-- A list of things to buy. -/
def shoppingSchema : Schema :=
  ⟨"root", ⟨[], [("items", ⟨[("label", textType)], [], true, some "item"⟩)], false, none⟩, []⟩

theorem wellKeyed_shoppingSchema : shoppingSchema.root.WellKeyed := by
  unfold Component.WellKeyed
  decide +kernel

theorem isPlain_shoppingSchema :
    ∀ node ∈ shoppingSchema.root.nodes, ∀ name ∈ Keyed.keys node.components, IsPlain name := by
  simp [shoppingSchema, Component.nodes, Component.nodesAll, Keyed.keys, IsPlain]

/-- The characters of a text are rows without defaults, and a number has no rows. -/
theorem drawForm_completes_shopping :
    let s := shoppingSchema
    s.drawable [("items", .string "ab")] = true ∧ s.drawable [("items", .int 5)] = false ∧
      (∃ drawn, (drawForm s.toDocument (.object [("items", .string "ab")]) .none []).result =
        .ok drawn ∧ s.fills drawn = true) ∧
      ∃ fault, (drawForm s.toDocument (.object [("items", .int 5)]) .none []).result =
        .error (.fault fault) := by
  intro s
  have hcompletes := drawForm_completes s.isDrawnFrom_toDocument wellKeyed_shoppingSchema
    (by decide +kernel) (by decide +kernel)
  have htext : s.drawable [("items", .string "ab")] = true := by decide +kernel
  have hnumber : s.drawable [("items", .int 5)] = false := by decide +kernel
  exact ⟨htext, hnumber, (hcompletes _).1 htext, (hcompletes _).2 hnumber isPlain_shoppingSchema⟩

/-- A saved input that holds a number where the schema has a list cannot be loaded. -/
theorem not_drawForm_completes_shopping :
    ¬ ∀ (s : Schema) (fields : List (String × Value)), s.root.WellKeyed → s.root.PartsApart →
      s.FlagsApart → ∃ drawn, (drawForm s.toDocument (.object fields) .none []).result = .ok drawn ∧
        s.fills drawn = true := by
  intro hclaim
  have hnumber : shoppingSchema.drawable [("items", .int 5)] = false := by decide +kernel
  obtain ⟨drawn, hdrawn, -⟩ := hclaim shoppingSchema [("items", .int 5)] wellKeyed_shoppingSchema
    (by decide +kernel) (by decide +kernel)
  obtain ⟨fault, hfault⟩ := failsOn_drawForm shoppingSchema.isDrawnFrom_toDocument
    wellKeyed_shoppingSchema isPlain_shoppingSchema hnumber
  cases hdrawn.symm.trans hfault

end MarkupBinding.InputForm
