import MarkupBinding.InputForm.SessionState
import MarkupBinding.Proofs.InputForm.ControlKeys
import MarkupBinding.Proofs.InputForm.Session

/-!
# Sessions with one table

A session draws a form without defaults again and again, over one table that is empty at first. As
long as no property and no flag is called like the end of a key for a number of rows
(`Schema.CountsApart`), no control has such a key (`drawsApart_drawForm`), and the table holds
nothing but numbers that the form has stored (`SessionState.ofCounts`). Then no box heeds the table,
and drawing over it is drawing with the numbers in it (`SessionState.draw_ofCounts`). So what a
drawing makes of numbers of rows is what it makes of the table, and from drawing to drawing this
holds along the whole session (`row_counts_sound`).

A flag with the key of a list is answered with a number, and its box changes the number of rows
(`not_row_counts_sound_clashSchema`).
-/

set_option autoImplicit false
set_option relaxedAutoImplicit false

namespace MarkupBinding

/-- No control that holds something has a key of the form that numbers of rows have: neither a
property nor a flag is called like the end of such a key. -/
structure Schema.CountsApart (s : Schema) : Prop where
  properties : ∀ node ∈ s.root.nodes, ∀ name ∈ Keyed.keys node.properties,
    ¬ "#count".toList <:+ name.toList
  flags : ∀ flag ∈ s.toggles, ¬ "#count".toList <:+ flag.toList

namespace InputForm

/-! ### Controls apart from numbers of rows -/

/-- No control has the key of a number of rows. -/
def DrawsApart {α : Type} (d : Drawing RowCounts α) : Prop :=
  ∀ answers before, ∀ key ∈ controls (d answers before).drawn, ∀ list, key ≠ countKey list

section DrawsApart

variable {α β : Type} {d : Drawing RowCounts α} {key : String}

/-- Controls in a region are apart if no key there is one for a number of rows. -/
theorem Draws.apart {region : String → Prop} (hd : Draws (fun _ ↦ True) region d)
    (h : ∀ key, region key → ∀ list, key ≠ countKey list) : DrawsApart d :=
  fun answers before key hkey ↦ h key ((hd answers before trivial).2.1 key hkey)

theorem DrawsNone.apart (hd : DrawsNone (fun _ ↦ True) d) : DrawsApart d :=
  Draws.apart hd fun _ h ↦ h.elim

theorem drawsApart_pure (value : α) : DrawsApart (pure value) :=
  (drawsNone_pure value).apart

theorem DrawsApart.bind {next : α → Drawing RowCounts β} (hd : DrawsApart d)
    (hnext : ∀ value, DrawsApart (next value)) : DrawsApart (d >>= next) := by
  intro answers before key hkey
  cases hresult : (d answers before).result with
  | error interruption =>
    rw [Drawing.bind_apply_of_error hresult] at hkey
    exact hd answers before key hkey
  | ok value =>
    rw [Drawing.bind_apply_of_ok hresult] at hkey
    dsimp only at hkey
    rw [controls_append, List.mem_append] at hkey
    exact hkey.elim (hd answers before key) (hnext value answers _ key)

theorem settable_true (key : String) : Settable (fun _ ↦ True) key :=
  fun _ _ _ _ _ ↦ trivial

/-- Rows are apart if each of them is, and so is a list with its buttons. -/
theorem drawsApart_drawRows (itemName : String) {defaults : Value}
    {row : Nat → Value → Drawing RowCounts Value}
    (hrow : ∀ index fields, DrawsApart (row index (.object fields))) (more : Nat) :
    ∀ index, DrawsApart (drawRows itemName defaults row index more) := by
  induction more with
  | zero => exact fun index ↦ drawsApart_pure []
  | succ more ih =>
    intro index
    rw [drawRows]
    rcases rowDefault_cases defaults index with ⟨fields, hfields⟩ | ⟨fault, hfault⟩
    · rw [hfields, pure_bind]
      exact (drawsNone_say _ _).apart.bind fun _ ↦ (hrow index fields).bind fun _ ↦
        (ih (index + 1)).bind fun _ ↦ drawsApart_pure _
    · rw [hfault, Drawing.fail_bind]
      exact (drawsNone_fail fault).apart

theorem drawsApart_listButtons (key itemName : String) :
    DrawsApart (listButtons key itemName) := by
  refine (draws_listButtons (settable_true key) itemName).apart ?_
  rintro _ (rfl | rfl)
  · exact (isControl_addKey key).2
  · exact (isControl_removeKey key).2

theorem drawsApart_drawList (name key itemName : String) {defaults : Value}
    {row : Nat → Value → Drawing RowCounts Value}
    (hrow : ∀ index fields, DrawsApart (row index (.object fields))) :
    DrawsApart (drawList name key itemName defaults row) := by
  rw [drawList_eq]
  exact (drawsNone_startCount (settable_true key) defaults).apart.bind fun _ ↦
    drawsNone_container.apart.bind fun _ ↦ (drawsNone_say _ _).apart.bind fun _ ↦
      (drawsNone_rowCount key).apart.bind fun _ ↦
        (drawsApart_drawRows itemName hrow _ 0).bind fun _ ↦
          (drawsApart_listButtons key itemName).bind fun _ ↦ drawsApart_pure _

theorem drawsApart_drawProperties (fields : List (String × Value)) :
    ∀ {names : List String}, (∀ name ∈ names, ¬ "#count".toList <:+ name.toList) →
      DrawsApart (drawProperties key (.object fields) names)
  | [], _ => drawsApart_pure []
  | name :: rest, h => by
    obtain ⟨hname, hrest⟩ := List.forall_mem_cons.1 h
    rw [drawProperties, defaultOf, pure_bind]
    refine ((draws_textField _ _ _).apart ?_).bind fun _ ↦
      (drawsApart_drawProperties fields hrest).bind fun _ ↦ drawsApart_pure _
    rintro _ rfl list heq
    exact hname (suffix_of_partKey_eq_countKey heq)

/-- The key of a flag is one for a number of rows only if the flag is called like its end. -/
theorem flagKey_ne_countKey {flag : String} (h : ¬ "#count".toList <:+ flag.toList)
    (list : String) : flagKey flag ≠ countKey list := by
  have hkey : flagKey flag = partKey "toggle" flag := by
    rw [flagKey, partKey, ← String.toList_inj]
    simp
  exact fun heq ↦ h (suffix_of_partKey_eq_countKey (hkey.symm.trans heq))

theorem drawsApart_drawFlags (fields : List (String × Value)) :
    ∀ {flags : List String}, (∀ flag ∈ flags, ¬ "#count".toList <:+ flag.toList) →
      DrawsApart (drawFlags (.object fields) flags)
  | [], _ => drawsApart_pure []
  | flag :: rest, h => by
    obtain ⟨hflag, hrest⟩ := List.forall_mem_cons.1 h
    rw [drawFlags, defaultOf, pure_bind]
    refine ((draws_checkbox _ _ _).apart ?_).bind fun _ ↦
      (drawsApart_drawFlags fields hrest).bind fun _ ↦ drawsApart_pure _
    rintro _ rfl
    exact flagKey_ne_countKey hflag

/-- Components are apart, one below the other, if their fields are. -/
theorem drawsApart_drawValues (key : String) (fields : List (String × Value)) :
    ∀ {components : List (String × Component)},
      (∀ pair ∈ components, ∀ key fields,
        DrawsApart (drawNode key (.object fields) pair.2.outline)) →
        DrawsApart (drawValues key fields (Component.outlines components))
  | [], _ => drawsApart_pure []
  | (name, c) :: rest, hinner => by
    obtain ⟨hfirst, hrest⟩ := List.forall_mem_cons.1 hinner
    have hobject : ∀ key fields, DrawsApart (drawObject c.outline key (.object fields)) :=
      fun key fields ↦ (hfirst key fields).bind fun _ ↦ drawsApart_pure _
    rw [Component.outlines, drawValues, drawComponent_outline]
    refine DrawsApart.bind ?_ fun _ ↦
      (drawsApart_drawValues key fields hrest).bind fun _ ↦ drawsApart_pure _
    split
    · exact drawsApart_drawList _ _ _ fun index fields ↦ hobject _ fields
    · rw [objectOr_eq]
      exact drawsNone_container.apart.bind fun _ ↦ (drawsNone_say _ _).apart.bind fun _ ↦
        hobject _ _

/-- The fields of a component are apart, by induction on the component. -/
theorem drawsApart_drawNode (c : Component) :
    (∀ node ∈ c.nodes, ∀ name ∈ Keyed.keys node.properties, ¬ "#count".toList <:+ name.toList) →
      ∀ key fields, DrawsApart (drawNode key (.object fields) c.outline) := by
  induction c using Component.induction_on_components with
  | step properties components array itemName ih =>
    intro hnames key fields
    obtain ⟨hown, hbelow⟩ := Component.forall_mem_nodes_iff.1 hnames
    rw [drawNode_outline]
    exact (drawsApart_drawProperties fields hown).bind fun _ ↦
      (drawsApart_drawValues key fields fun pair hpair ↦ ih pair hpair (hbelow pair hpair)).bind
        fun _ ↦ drawsApart_pure _

end DrawsApart

section Form

variable {s : Schema} {document : Value}

/-- No control of a form has the key of a number of rows. -/
theorem drawsApart_drawForm (hdocument : s.IsDrawnFrom document) (hcounts : s.CountsApart) :
    DrawsApart (drawForm document (.object [])) := by
  obtain ⟨heading, hheading, hform⟩ := exists_drawForm_eq hdocument
  have hheaded : DrawsApart heading := by
    rcases hheading with rfl | rfl
    · exact drawsApart_pure ()
    · exact (drawsNone_say _ _).apart
  rw [hform, rootDefaults_nil]
  exact (drawsApart_drawNode s.root hcounts.properties s.name []).bind fun _ ↦
    (hheaded.bind fun _ ↦ drawsApart_drawFlags [] hcounts.flags).bind fun _ ↦ drawsApart_pure _

end Form

/-! ### Numbers of lists only -/

/-- Every key is that of a list. -/
def OfLists (counts : RowCounts) : Prop :=
  ∀ key ∈ Keyed.keys counts, ∃ list, key = countKey list

theorem OfLists.append_stored {counts : RowCounts} (h : OfLists counts)
    (met : List (String × Nat)) : OfLists (counts ++ stored met) := by
  intro key hkey
  rw [Keyed.keys_append, List.mem_append] at hkey
  rcases hkey with hold | hnew
  · exact h key hold
  · obtain ⟨_, hentry, rfl⟩ := List.mem_map.1 hnew
    obtain ⟨list, -, rfl⟩ := List.mem_map.1 hentry
    exact ⟨list.1, rfl⟩

theorem OfLists.changesOne {counts after : RowCounts} (h : OfLists counts)
    (hchanges : ChangesOne counts after) : OfLists after := by
  obtain ⟨list, count, change, -, -, rfl⟩ := hchanges
  intro key hkey
  obtain ⟨entry, hentry, rfl⟩ := List.mem_map.1 hkey
  rcases Keyed.mem_set hentry with rfl | hold
  · exact ⟨list, rfl⟩
  · exact h _ (List.mem_map_of_mem hold)

/-- A drawing that advances sets numbers of lists only. -/
theorem Advances.ofLists {α : Type} {start : String × Nat → Prop} {d : Drawing RowCounts α}
    (hd : Advances start d) {before : RowCounts} (h : OfLists before) (answers : Answers) :
    OfLists (d answers before).state := by
  obtain ⟨met, -, -, ⟨value, hend⟩ | ⟨-, after, hchanges, hend⟩⟩ := hd answers before
  · have hstate : (d answers before).state = before ++ stored met := congrArg Prod.snd hend
    exact hstate ▸ h.append_stored met
  · have hstate : (d answers before).state = after := congrArg Prod.snd hend
    exact hstate ▸ (h.append_stored met).changesOne hchanges

/-- No number is held under the key of a flag. -/
theorem OfLists.lookup_flagKey {counts : RowCounts} (h : OfLists counts) {flag : String}
    (hflag : ¬ "#count".toList <:+ flag.toList) : counts.lookup (flagKey flag) = none :=
  Keyed.lookup_eq_none fun hmem ↦ by
    obtain ⟨list, hlist⟩ := h _ hmem
    exact flagKey_ne_countKey hflag list hlist

/-! ### The table -/

namespace SessionState

/-- The table that holds numbers of rows and nothing else. -/
def ofCounts (counts : RowCounts) : SessionState :=
  counts.map fun (key, count) ↦ (key, .rows count)

theorem counts_ofCounts (counts : RowCounts) : (ofCounts counts).counts = counts := by
  rw [SessionState.counts, ofCounts, List.map_map]
  exact List.map_id counts

theorem numbers_ofCounts (counts : RowCounts) : (ofCounts counts).numbers = counts := by
  rw [numbers, ofCounts, List.filterMap_map]
  exact List.filterMap_some

theorem ticks_ofCounts (counts : RowCounts) : (ofCounts counts).ticks = [] := by
  rw [ticks, ofCounts, List.filterMap_map]
  exact List.filterMap_eq_nil_iff.2 fun _ _ ↦ rfl

/-- Where only numbers were held, only numbers are held after others were stored. -/
theorem store_ofCounts (before counts : RowCounts) :
    (ofCounts before).store counts = ofCounts counts := by
  refine List.map_congr_left fun ⟨key, count⟩ _ ↦ ?_
  dsimp only
  split
  · next held hheld =>
    obtain ⟨old, -, hold⟩ := List.mem_map.1 (Keyed.mem_of_lookup hheld)
    obtain rfl : held = .rows old.2 := (Prod.mk.inj hold).2.symm
    by_cases hsame : (Held.rows old.2).count = count
    · rw [if_pos hsame]
      exact congrArg (fun count ↦ (key, Held.rows count)) hsame
    · rw [if_neg hsame]
  · rfl

/-- No box that the user changes is one for a number of rows. -/
theorem enter_ofCounts {boxes : List String} {counts : RowCounts}
    (h : ∀ key ∈ Keyed.keys counts, key ∉ boxes) (answers : Answers) :
    (ofCounts counts).enter boxes answers = ofCounts counts := by
  rw [enter, ofCounts, List.map_map]
  refine List.map_congr_left fun entry hentry ↦ ?_
  have hbox : boxes.contains entry.1 = false :=
    Bool.eq_false_iff.2 (mt List.contains_iff_mem.1 (h _ (List.mem_map_of_mem hentry)))
  rw [Function.comp_apply]
  dsimp only
  rw [hbox]

/-- No box heeds a table with numbers of lists only. -/
theorem box_heed_ofCounts {answers : Answers} (hnone : answers.numbers = []) {counts : RowCounts}
    (before : RowCounts) {key : String} (hkey : counts.lookup key = none) (value : Bool) :
    ((ofCounts before).heed counts answers).box key value = answers.box key value := by
  rw [heed, store_ofCounts, ticks_ofCounts, numbers_ofCounts, List.append_nil, Answers.box,
    Answers.box, hnone]
  dsimp only
  rw [hkey, List.lookup_nil]

end SessionState

section Session

variable {s : Schema} {document : Value}

theorem boxKeys_of_isDrawnFrom (hdocument : s.IsDrawnFrom document) :
    SessionState.boxKeys document = s.toggles.map flagKey := by
  obtain ⟨node, rest, rfl, -, hflags⟩ := hdocument
  rw [SessionState.boxKeys]
  by_cases hholds : (flagsOf node).holds = true
  · rw [if_pos hholds] at hflags ⊢
    rw [hflags, Option.getD_some]
  · rw [if_neg hholds] at hflags ⊢
    rw [← Option.some.inj hflags, List.map_nil]

/-- The fields of the outermost component advance without defaults. -/
theorem advances_drawRoot (s : Schema) : Advances (fun list ↦ list.2 = 0)
    (drawNode s.name (rootDefaults s []) s.root.outline) := by
  rw [rootDefaults_nil]
  exact advances_drawNode s.root (fun _ _ ↦ ⟨rfl, Or.inl rfl⟩) s.root.drawable_nil

/-- Boxes that heed the numbers of rows draw the same as those that do not, if they answer the same
whatever numbers of lists there are. -/
theorem drawFormBy_eq_drawForm (hdocument : s.IsDrawnFrom document)
    {heed : RowCounts → Answers → Answers} {answers : Answers}
    (hsame : ∀ counts, OfLists counts → ∀ flag ∈ s.toggles, ∀ value,
      (heed counts answers).box (flagKey flag) value = answers.box (flagKey flag) value)
    {before : RowCounts} (hbefore : OfLists before) :
    drawFormBy heed document (.object []) answers before =
      drawForm document (.object []) answers before := by
  obtain ⟨heading, hheading, hform⟩ := exists_drawFormBy_eq hdocument
  have hmiddle := (advances_drawRoot s).ofLists hbefore answers
  rw [drawForm, hform, hform]
  refine Drawing.bind_congr rfl fun _ ↦ Drawing.bind_congr ?_ fun _ ↦ rfl
  refine Drawing.bind_congr ?_ fun _ ↦ drawFlags_congr [] (hsame _ hmiddle) _
  rcases hheading with rfl | rfl <;> rfl

/-- Drawing a form over a table that holds numbers of lists is drawing it with these numbers. -/
theorem SessionState.draw_ofCounts (hdocument : s.IsDrawnFrom document)
    (hapart : s.CountsApart) {counts : RowCounts} (hcounts : OfLists counts) (answers : Answers) :
    let outcome := drawForm document (.object []) { answers with numbers := [] } counts
    draw document (.object []) answers (ofCounts counts) =
      ⟨ofCounts outcome.state, outcome.drawn, outcome.result⟩ := by
  intro outcome
  have hentered : (ofCounts counts).enter (boxKeys document) answers = ofCounts counts := by
    refine enter_ofCounts (fun key hkey hbox ↦ ?_) answers
    rw [boxKeys_of_isDrawnFrom hdocument] at hbox
    obtain ⟨flag, hflag, rfl⟩ := List.mem_map.1 hbox
    obtain ⟨list, hlist⟩ := hcounts _ hkey
    exact flagKey_ne_countKey (hapart.flags flag hflag) list hlist
  have houtcome : drawFormBy (ofCounts counts).heed document (.object [])
      { answers with numbers := [] } counts = outcome := by
    refine drawFormBy_eq_drawForm hdocument (fun now hnow flag hflag value ↦ ?_) hcounts
    exact box_heed_ofCounts rfl counts (hnow.lookup_flagKey (hapart.flags flag hflag)) value
  rw [draw, hentered, counts_ofCounts, houtcome, store_ofCounts]

/-- The table after forms for a document were drawn without defaults, one after the other, with what
was entered each time. -/
def SessionState.after (document : Value) (runs : List Answers) : SessionState :=
  runs.foldl (fun state answers ↦ (draw document (.object []) answers state).state) []

/-- Whatever was entered in the drawings of a session, the table holds sound numbers of lists. -/
theorem SessionState.exists_ofCounts_after (hdocument : s.IsDrawnFrom document)
    (hkeyed : s.root.WellKeyed) (hapart : s.root.PartsApart)
    (hflags : ∀ flag ∈ s.toggles, flag ∉ s.declared) (hcounts : s.CountsApart)
    (runs : List Answers) :
    ∃ counts, after document runs = ofCounts counts ∧ OfLists counts ∧ SoundCounts counts := by
  rw [after]
  induction runs using List.reverseRecOn with
  | nil =>
    exact ⟨[], rfl, fun _ hkey ↦ absurd hkey List.not_mem_nil, List.nodup_nil,
      fun _ hentry ↦ absurd hentry List.not_mem_nil⟩
  | append_singleton runs answers ih =>
    obtain ⟨counts, hbefore, hlists, hsound⟩ := ih
    rw [List.foldl_append, List.foldl_cons, List.foldl_nil, hbefore,
      draw_ofCounts hdocument hcounts hlists]
    exact ⟨_, rfl, (advances_drawForm_nil hdocument).ofLists hlists _,
      (evolves_drawForm hdocument hkeyed hapart hflags hsound fun _ _ ↦ rfl).sound hsound⟩

/-- The table holds numbers that the form has stored, under different keys, and none is below
zero. -/
structure SessionState.Sound (state : SessionState) : Prop where
  nodup : (Keyed.keys state).Nodup
  rows : ∀ entry ∈ state, ∃ count : Nat, entry.2 = .rows count

theorem SoundCounts.ofCounts {counts : RowCounts} (h : SoundCounts counts) :
    (SessionState.ofCounts counts).Sound := by
  refine ⟨?_, fun entry hentry ↦ ?_⟩
  · rw [Keyed.keys, SessionState.ofCounts, List.map_map]
    exact h.nodup
  · obtain ⟨old, hold, rfl⟩ := List.mem_map.1 hentry
    exact ⟨old.2.toNat, congrArg Held.rows (Int.toNat_of_nonneg (h.nonneg old hold)).symm⟩

/-- Whatever is entered in the drawings of a session without defaults, the table holds sound numbers
of rows before and after each of them, none under the key of a control, and the drawing makes of
them what it may. No property and no flag may be called like the end of a key for a number of rows.
-/
theorem row_counts_sound (hdocument : s.IsDrawnFrom document) (hkeyed : s.root.WellKeyed)
    (hapart : s.root.PartsApart) (hflags : ∀ flag ∈ s.toggles, flag ∉ s.declared)
    (hcounts : s.CountsApart) (runs : List Answers) (answers : Answers) :
    let before := SessionState.after document runs
    let outcome := SessionState.draw document (.object []) answers before
    before.Sound ∧ outcome.state.Sound ∧
      (∀ key ∈ controls outcome.drawn, key ∉ Keyed.keys outcome.state) ∧
      Evolves s answers before.counts
        ⟨outcome.state.counts, outcome.drawn, outcome.result⟩ := by
  intro before outcome
  obtain ⟨counts, hbefore, hlists, hsound⟩ :=
    SessionState.exists_ofCounts_after hdocument hkeyed hapart hflags hcounts runs
  have houtcome := SessionState.draw_ofCounts hdocument hcounts hlists answers
  have hnone : ∀ flag ∈ s.toggles,
      { answers with numbers := [] : Answers }.numbers.lookup (flagKey flag) = none :=
    fun _ _ ↦ rfl
  have hevolves := evolves_drawForm hdocument hkeyed hapart hflags hsound hnone
  have hafter := (advances_drawForm_nil hdocument).ofLists hlists { answers with numbers := [] }
  have hstate : outcome = _ := (congrArg _ hbefore).trans houtcome
  rw [hstate, show before = _ from hbefore]
  refine ⟨hsound.ofCounts, (hevolves.sound hsound).ofCounts, fun key hkey hmem ↦ ?_, ?_⟩
  · rw [Keyed.keys, SessionState.ofCounts, List.map_map] at hmem
    obtain ⟨list, hlist⟩ := hafter key hmem
    exact drawsApart_drawForm hdocument hcounts _ counts key hkey list hlist
  · dsimp only
    rw [SessionState.counts_ofCounts, SessionState.counts_ofCounts]
    exact hevolves

/-- A row is added to the shelves of a museum, and the form is drawn to its end. -/
theorem row_counts_sound_museum :
    let s := museumSchema "museum" "west"
    let runs : List Answers := [⟨[], [("museum.west.shelves#add", true)], []⟩]
    let before := SessionState.after s.toDocument runs
    let outcome := SessionState.draw s.toDocument (.object []) .none before
    before = [("museum.west.shelves#count", .rows 1)] ∧ before.Sound ∧
      Evolves s .none before.counts ⟨outcome.state.counts, outcome.drawn, outcome.result⟩ := by
  intro s runs before outcome
  have hkeyed : s.root.WellKeyed := by
    unfold Component.WellKeyed
    decide +kernel
  have hcounts : s.CountsApart := ⟨by decide +kernel, by decide +kernel⟩
  have hsound := row_counts_sound s.isDrawnFrom_toDocument hkeyed (by decide +kernel)
    (by decide +kernel) hcounts runs .none
  exact ⟨by decide +kernel, hsound.1, hsound.2.2.2⟩

/-- A schema with a list and a flag, whose key is the one for the number of rows. -/
def clashSchema : Schema :=
  ⟨"toggle", ⟨[], [("items", ⟨[], [], true, none⟩)], false, none⟩, ["items#count"]⟩

/-- The first drawing gives a number for the flag. When the box is ticked then, which presses
nothing, the list has one row more, and the drawing comes to its end. -/
theorem not_row_counts_sound_clashSchema :
    let first := SessionState.draw clashSchema.toDocument (.object []) .none []
    let second := SessionState.draw clashSchema.toDocument (.object [])
      ⟨[], [("toggle.items#count", true)], []⟩ first.state
    clashSchema.root.WellKeyed ∧ clashSchema.root.PartsApart ∧
      (∀ flag ∈ clashSchema.toggles, flag ∉ clashSchema.declared) ∧
      first.result.toOption.any clashSchema.fills = false ∧
      first.state.counts = [("toggle.items#count", 0)] ∧
      second.state.counts = [("toggle.items#count", 1)] ∧ second.result.toBool = true := by
  intro first second
  have hkeyed : clashSchema.root.WellKeyed := by
    unfold Component.WellKeyed
    decide +kernel
  exact ⟨hkeyed, by decide +kernel, by decide +kernel, by decide +kernel, by decide +kernel,
    by decide +kernel, by decide +kernel⟩

end Session

end InputForm

end MarkupBinding
