import MarkupBinding.Proofs.InputForm.Keys
import MarkupBinding.Proofs.InputForm.Structure

/-!
# Loading a saved input

A form that is drawn for a saved input, with nothing entered and no numbers of rows remembered,
gives the input back if and only if lists with one key have one size (`drawForm_restores_iff`). Keys
are made by putting names together, and names may hold any characters, so that two lists can have
one key; the second one is then drawn with as many rows as the first one has. Where names are plain,
every input comes back (`drawForm_restores_of_isPlain`).

`Restores` says of a drawing that it comes to a good result if the sizes of its lists are what is
remembered, and that each size is remembered once it has come to one. Both halves go through
together, over the rows of a list (`restores_drawRows`), over a list with its number of rows
(`restores_drawList`), over the components of a node (`restores_drawValues`) and by induction on the
component (`restores_drawNode`).
-/

set_option autoImplicit false
set_option relaxedAutoImplicit false

namespace MarkupBinding

namespace InputForm

open RecordLayout (exists_entries_of_isExactly exists_lookup_of_holdsAll)
open Value (SameUpToOrder)

/-! ### Drawings that give back what they are drawn for -/

/-- What is remembered after a drawing was so before, or is new. -/
def Keeps (counts after : RowCounts) : Prop :=
  ∀ key n, remembered counts key = some n → remembered after key = some n

/-- What is remembered is the size for its key. -/
def Follows (counts : RowCounts) (size : String → Nat) : Prop :=
  ∀ key n, remembered counts key = some n → size key = n

section Restores

variable {α β γ : Type}

/-- A drawing over lists of the given sizes comes to a good result if what is remembered follows
sizes that are theirs; and where it comes to a good result, it keeps what is remembered and the
sizes are remembered in the end. -/
structure Restores (d : Drawing RowCounts α) (sizes : List (String × Nat)) (good : α → Prop) :
    Prop where
  recorded {counts after : RowCounts} {value : α} (h : d.unanswered counts = (.ok value, after))
    (hgood : good value) :
    Keeps counts after ∧ ∀ list ∈ sizes, remembered after list.1 = some list.2
  restored {counts : RowCounts} {size : String → Nat} (h : Follows counts size)
    (hsizes : ∀ list ∈ sizes, size list.1 = list.2) :
    ∃ value after, d.unanswered counts = (.ok value, after) ∧ good value ∧ Follows after size

variable {d e : Drawing RowCounts α} {sizes others : List (String × Nat)} {good : α → Prop}

theorem Restores.congr (h : ∀ counts, d.unanswered counts = e.unanswered counts)
    (he : Restores e sizes good) : Restores d sizes good where
  recorded := fun hrun ↦ he.recorded ((h _).symm.trans hrun)
  restored := fun hcounts hsizes ↦ by
    obtain ⟨value, after, hrun, hrest⟩ := he.restored hcounts hsizes
    exact ⟨value, after, (h _).trans hrun, hrest⟩

theorem restores_pure {value : α} (h : good value) : Restores (pure value) [] good where
  recorded := by
    intro counts after result hrun _
    obtain ⟨-, rfl⟩ := Prod.mk.inj hrun
    exact ⟨fun _ _ hkey ↦ hkey, fun _ hlist ↦ absurd hlist List.not_mem_nil⟩
  restored := fun hcounts _ ↦ ⟨value, _, rfl, h, hcounts⟩

theorem Restores.map {f : α → β} {good' : β → Prop} (hd : Restores d sizes good)
    (hgood : ∀ {counts after value}, d.unanswered counts = (.ok value, after) →
      (good' (f value) ↔ good value)) : Restores (f <$> d) sizes good' where
  recorded := by
    intro counts after result hrun hresult
    obtain ⟨value, hvalue, rfl⟩ := Drawing.unanswered_map_eq_ok_iff.1 hrun
    exact hd.recorded hvalue ((hgood hvalue).1 hresult)
  restored := by
    intro counts size hcounts hsizes
    obtain ⟨value, after, hvalue, hok, hafter⟩ := hd.restored hcounts hsizes
    exact ⟨f value, after, Drawing.unanswered_map_eq_ok_iff.2 ⟨value, hvalue, rfl⟩,
      (hgood hvalue).2 hok, hafter⟩

/-- Of two drawings, the second one below the first, the sizes of both are remembered. -/
theorem Restores.both {b : Drawing RowCounts β} {goodSecond : β → Prop} {f : α → β → γ}
    {goodBoth : γ → Prop} (hd : Restores d sizes good) (hb : Restores b others goodSecond)
    (hgood : ∀ first second, goodBoth (f first second) ↔ good first ∧ goodSecond second) :
    Restores (do let first ← d
                 let second ← b
                 pure (f first second)) (sizes ++ others) goodBoth where
  recorded := by
    intro counts after result hrun hresult
    obtain ⟨first, middle, second, hfirst, hsecond, rfl⟩ := Drawing.unanswered_both_eq_ok_iff.1 hrun
    obtain ⟨hgoodFirst, hgoodSecond⟩ := (hgood first second).1 hresult
    obtain ⟨hkeepsFirst, hsizes⟩ := hd.recorded hfirst hgoodFirst
    obtain ⟨hkeepsSecond, hothers⟩ := hb.recorded hsecond hgoodSecond
    refine ⟨fun key n hkey ↦ hkeepsSecond key n (hkeepsFirst key n hkey), fun list hlist ↦ ?_⟩
    rcases List.mem_append.1 hlist with hlist | hlist
    · exact hkeepsSecond _ _ (hsizes list hlist)
    · exact hothers list hlist
  restored := by
    intro counts size hcounts hsizes
    obtain ⟨first, middle, hfirst, hgoodFirst, hmiddle⟩ := hd.restored hcounts
      fun list hlist ↦ hsizes list (List.mem_append_left _ hlist)
    obtain ⟨second, after, hsecond, hgoodSecond, hafter⟩ := hb.restored hmiddle
      fun list hlist ↦ hsizes list (List.mem_append_right _ hlist)
    exact ⟨f first second, after,
      Drawing.unanswered_both_eq_ok_iff.2 ⟨first, middle, second, hfirst, hsecond, rfl⟩,
      (hgood first second).2 ⟨hgoodFirst, hgoodSecond⟩, hafter⟩

/-- Where nothing is remembered at first, a drawing comes to a good result exactly if lists with one
key have one size. -/
theorem Restores.exists_iff_oneSizePerKey (hd : Restores d sizes good) :
    (∃ value, (d .none []).result = .ok value ∧ good value) ↔ OneSizePerKey sizes := by
  constructor
  · rintro ⟨value, hvalue, hgood⟩ list hlist other hother hkey
    have hrun : d.unanswered [] = (.ok value, (d .none []).state) := Prod.ext hvalue rfl
    obtain ⟨-, hsizes⟩ := hd.recorded hrun hgood
    have hsize := (hsizes list hlist).symm.trans (hkey ▸ hsizes other hother)
    exact Option.some.inj hsize
  · intro hone
    have hsizes : ∀ list ∈ sizes, (sizes.lookup list.1).getD 0 = list.2 := by
      intro list hlist
      cases hfound : sizes.lookup list.1 with
      | none =>
        exact absurd (List.mem_map_of_mem hlist) (Keyed.not_mem_keys_of_lookup hfound)
      | some size => exact hone _ (Keyed.mem_of_lookup hfound) list hlist rfl
    have hnothing : Follows [] fun key ↦ (sizes.lookup key).getD 0 := fun _ _ hkey ↦ by cases hkey
    obtain ⟨value, after, hrun, hgood, -⟩ := hd.restored hnothing hsizes
    exact ⟨value, congrArg Prod.fst hrun, hgood⟩

end Restores

/-! ### Lists -/

section Lists

variable {items : List Value} {row : Nat → Value → Drawing RowCounts Value}
  {sizes : Value × Nat → List (String × Nat)}

/-- The rows of a list from an index on, each drawn for its item. -/
theorem restores_drawRows (itemName : String)
    (hobjects : ∀ item ∈ items, objectOr (some item) = item)
    (hrow : ∀ index item, items[index]? = some item →
      Restores (row index item) (sizes (item, index)) (SameUpToOrder item)) :
    ∀ (rest : List Value) (index : Nat), items.drop index = rest →
      Restores (drawRows itemName (.list items) row index rest.length)
        ((rest.zipIdx index).flatMap sizes) (List.Forall₂ SameUpToOrder rest)
  | [], index, _ => restores_pure List.Forall₂.nil
  | item :: rest, index, hdrop => by
    have hitem : items[index]? = some item := by
      rw [← List.head?_drop, hdrop, List.head?_cons]
    have hrest : items.drop (index + 1) = rest := by
      rw [← List.tail_drop, hdrop, List.tail_cons]
    refine Restores.congr (fun counts ↦ unanswered_drawRows_succ itemName items row index
      rest.length counts) ?_
    rw [hitem, hobjects item (List.mem_of_getElem? hitem)]
    exact (hrow index item hitem).both
      (restores_drawRows itemName hobjects hrow rest (index + 1) hrest)
      fun _ _ ↦ List.forall₂_cons

theorem sameUpToOrder_list_iff {result : Value} :
    SameUpToOrder (.list items) result ↔
      ∃ others, result = .list others ∧ List.Forall₂ SameUpToOrder items others := by
  constructor
  · intro h
    cases h with
    | scalar hscalar => cases hscalar
    | list hitems => exact ⟨_, rfl, hitems⟩
  · rintro ⟨others, rfl, hitems⟩
    exact .list hitems

/-- A list comes back if its rows do and so many are remembered for its key as it has items. -/
theorem restores_drawList (name key itemName : String) {below : List (String × Nat)}
    (hrows : Restores (drawRows itemName (.list items) row 0 items.length) below
      (List.Forall₂ SameUpToOrder items)) :
    Restores (drawList name key itemName (.list items) row) ((key, items.length) :: below)
      (SameUpToOrder (.list items)) where
  recorded := by
    intro counts after result hrun hresult
    rw [unanswered_drawList, bind_pure_comp, Drawing.unanswered_map_eq_ok_iff] at hrun
    obtain ⟨rows, hdrawn, rfl⟩ := hrun
    obtain ⟨others, hothers, hsame⟩ := sameUpToOrder_list_iff.1 hresult
    obtain rfl := Value.list.inj hothers
    -- as many rows were drawn as were remembered, and a good result has one for each item
    have hcount : (remembered counts key).getD items.length = items.length :=
      (length_of_unanswered_drawRows hdrawn).symm.trans hsame.length_eq.symm
    have hstarted := remembered_started_self key items.length counts
    rw [hcount] at hdrawn hstarted
    obtain ⟨hkeeps, hbelow⟩ := hrows.recorded hdrawn hsame
    have hfirst : remembered after key = some items.length := hkeeps _ _ hstarted
    refine ⟨fun other n hother ↦ ?_, List.forall_mem_cons.2 ⟨hfirst, hbelow⟩⟩
    -- the list's own number may have been remembered before, and is the same then
    by_cases hkey : other = key
    · subst hkey
      rw [hother, Option.getD_some] at hcount
      rw [hfirst, hcount]
    · exact hkeeps _ _ ((remembered_started_of_ne hkey _ _).trans hother)
  restored := by
    intro counts size hcounts hsizes
    obtain ⟨hsize, hbelow⟩ := List.forall_mem_cons.1 hsizes
    have hcount : (remembered counts key).getD items.length = items.length := by
      cases hfound : remembered counts key with
      | none => rfl
      | some n => exact (hcounts key n hfound).symm.trans hsize
    have hstarted : Follows (started key items.length counts) size := by
      intro other n hother
      by_cases hkey : other = key
      · subst hkey
        rw [remembered_started_self, hcount] at hother
        exact hsize.trans (Option.some.inj hother)
      · exact hcounts other n ((remembered_started_of_ne hkey _ _).symm.trans hother)
    obtain ⟨rows, after, hdrawn, hsame, hafter⟩ := hrows.restored hstarted hbelow
    refine ⟨.list rows, after, ?_, .list hsame, hafter⟩
    rw [unanswered_drawList, bind_pure_comp, Drawing.unanswered_map_eq_ok_iff, hcount]
    exact ⟨rows, hdrawn, rfl⟩

end Lists

/-! ### Components -/

/-- What fits a component and holds no numbers comes back from the fields of the component. -/
def RestoresFitting (c : Component) : Prop :=
  ∀ key entries, c.fits (.object entries) = true → (Value.object entries).numberFree = true →
    Restores (drawObject c.outline key (.object entries)) (c.listSizes key entries)
      (SameUpToOrder (.object entries))

/-- What is there for a nested component comes back. -/
theorem restores_drawComponent (name key : String) {c : Component} (hinner : RestoresFitting c)
    {value : Value} (hfree : value.numberFree = true)
    (h : c.array = false ∧ c.fits value = true ∨
      c.array = true ∧ ∃ items, value = .list items ∧ ∀ item ∈ items, c.fits item = true) :
    Restores (drawComponent name key (some value) (drawObject c.outline) c.outline)
      (sizesIn c.listSizes key value) (SameUpToOrder value) := by
  rw [drawComponent_outline]
  rcases h with ⟨harray, hfits⟩ | ⟨harray, items, rfl, hfits⟩
  · obtain ⟨entries, rfl, -, -⟩ := exists_entries_of_isExactly hfits
    rw [if_neg (by simp [harray])]
    exact Restores.congr (fun counts ↦ by simp [objectOr]) (hinner key entries hfits hfree)
  · have hobjects : ∀ item ∈ items, objectOr (some item) = item := by
      intro item hitem
      obtain ⟨entries, rfl, -, -⟩ := exists_entries_of_isExactly (hfits item hitem)
      rfl
    have hrow : ∀ index item, items[index]? = some item →
        Restores (drawObject c.outline (rowKey key index) item)
          (c.listSizes (rowKey key index) item.entries) (SameUpToOrder item) := by
      intro index item hindex
      have hitem := List.mem_of_getElem? hindex
      obtain ⟨entries, rfl, -, -⟩ := exists_entries_of_isExactly (hfits item hitem)
      exact hinner _ entries (hfits _ hitem) (Value.numberFree_of_mem hfree hitem)
    have hrows : Restores (drawRows (c.itemName.getD Outline.plainItemName) (.list items)
        (fun index row ↦ drawObject c.outline (rowKey key index) row) 0 items.length)
        (items.zipIdx.flatMap fun row ↦ c.listSizes (rowKey key row.2) row.1.entries)
        (List.Forall₂ SameUpToOrder items) :=
      restores_drawRows _ hobjects hrow items 0 List.drop_zero
    have hrowsOr : rowsOr (some (.list items)) = .list items := by
      cases items <;> rfl
    rw [if_pos harray, hrowsOr]
    exact restores_drawList name key _ hrows

/-- The values of the components come back, each under its name. -/
theorem restores_drawValues {key : String} {entries : List (String × Value)}
    (hfree : (Value.object entries).numberFree = true) :
    ∀ {components : List (String × Component)},
      (∀ pair ∈ components, RestoresFitting pair.2) →
      Component.holdsAll components entries = true →
        Restores (drawValues key entries (Component.outlines components))
          (Component.listSizesAll components key entries)
          (fun values ↦ ∀ pair ∈ values, ∃ value, entries.lookup pair.1 = some value ∧
            SameUpToOrder value pair.2)
  | [], _, _ => restores_pure fun _ hpair ↦ absurd hpair List.not_mem_nil
  | (name, c) :: rest, hinner, hholds => by
    obtain ⟨value, hvalue, hfits⟩ := exists_lookup_of_holdsAll hholds List.mem_cons_self
    obtain ⟨hfirst, hrest⟩ := List.forall_mem_cons.1 hinner
    rw [Component.holdsAll, Bool.and_eq_true] at hholds
    rw [Component.outlines, Component.listSizesAll, drawValues, hvalue]
    refine (restores_drawComponent name (partKey key name) hfirst
      (Value.numberFree_of_lookup hfree hvalue) hfits).both
      (restores_drawValues hfree hrest hholds.2) fun drawn others ↦ ?_
    rw [List.forall_mem_cons]
    simp [hvalue]

/-- The values under the names that a component declares are the same. -/
def SameParts (c : Component) (entries drawn : List (String × Value)) : Prop :=
  ∀ name ∈ c.declared, Option.Rel SameUpToOrder (entries.lookup name) (drawn.lookup name)

theorem lookup_text_of_holds {c : Component} {entries : List (String × Value)}
    (hholds : c.holds entries = true) (hfree : (Value.object entries).numberFree = true)
    {name : String} (hname : name ∈ Keyed.keys c.properties) :
    entries.lookup name = some (.string (startText entries name)) := by
  obtain ⟨properties, components, array, itemName⟩ := c
  rw [Component.holds, Bool.and_eq_true, List.all_eq_true] at hholds
  obtain ⟨property, hproperty, rfl⟩ := List.mem_map.1 hname
  obtain ⟨value, hvalue, htext⟩ := Option.any_eq_true _ _ |>.1 (hholds.1 property hproperty)
  cases value with
  | string text => rw [startText, hvalue]; rfl
  | int n => cases Value.numberFree_of_lookup hfree hvalue
  | null | bool | float | list | object | record => cases htext

/-- The fields of the properties always come back; those of the components must. -/
theorem sameParts_update_iff {c : Component} {entries values : List (String × Value)}
    (hkeys : (Keyed.keys c.components).Nodup) (hholds : c.holds entries = true)
    (hfree : (Value.object entries).numberFree = true)
    (hvalues : Keyed.keys values = Keyed.keys c.components) :
    SameParts c entries (Keyed.update
        (Keyed.ofPairs (startEntries entries (Keyed.keys c.properties))) values) ↔
      ∀ pair ∈ values, ∃ value, entries.lookup pair.1 = some value ∧
        SameUpToOrder value pair.2 := by
  have hnodup : (Keyed.keys values).Nodup := hvalues ▸ hkeys
  unfold SameParts
  simp only [Keyed.lookup_update hnodup]
  constructor
  · intro h pair hpair
    have hname : pair.1 ∈ c.declared :=
      List.mem_append_left _ (hvalues ▸ List.mem_map_of_mem hpair)
    have hrel := h pair.1 hname
    rw [Keyed.lookup_of_mem hnodup hpair, Option.some_or] at hrel
    cases hfound : entries.lookup pair.1 with
    | none => rw [hfound] at hrel; cases hrel
    | some value =>
      rw [hfound] at hrel
      cases hrel with
      | some hsame => exact ⟨value, rfl, hsame⟩
  · intro h name hname
    cases hfound : values.lookup name with
    | some result =>
      obtain ⟨value, hvalue, hsame⟩ := h _ (Keyed.mem_of_lookup hfound)
      rw [hvalue, Option.some_or]
      exact .some hsame
    | none =>
      have hproperty : name ∈ Keyed.keys c.properties := (List.mem_append.1 hname).resolve_left
        (hvalues ▸ Keyed.not_mem_keys_of_lookup hfound)
      rw [Option.none_or, lookup_ofPairs_startEntries, if_pos hproperty,
        lookup_text_of_holds hholds hfree hproperty]
      exact .some (.scalar rfl)

theorem unanswered_drawNode_outline (c : Component) (key : String)
    (entries : List (String × Value)) (counts : RowCounts) :
    (drawNode key (.object entries) c.outline).unanswered counts =
      (Keyed.update (Keyed.ofPairs (startEntries entries (Keyed.keys c.properties))) <$>
        drawValues key entries (Component.outlines c.components)).unanswered counts := by
  obtain ⟨properties, components, array, itemName⟩ := c
  rw [Component.outline, unanswered_drawNode, bind_pure_comp]

/-- The fields of a component give no other names than it declares. -/
theorem lookup_of_unanswered_drawNode {c : Component} {key : String}
    {entries drawn : List (String × Value)} {counts after : RowCounts}
    (hkeys : (Keyed.keys c.components).Nodup)
    (h : (drawNode key (.object entries) c.outline).unanswered counts = (.ok drawn, after))
    {name : String} (hname : name ∉ c.declared) : drawn.lookup name = none := by
  rw [unanswered_drawNode_outline, Drawing.unanswered_map_eq_ok_iff] at h
  obtain ⟨values, hvalues, rfl⟩ := h
  have hnames := (keys_of_unanswered_drawValues hvalues).trans (Component.keys_outlines _)
  have hcomponent : values.lookup name = none := Keyed.lookup_eq_none fun hmem ↦
    hname (List.mem_append_left _ (hnames ▸ hmem))
  have hproperty : name ∉ Keyed.keys c.properties := fun hmem ↦
    hname (List.mem_append_right _ hmem)
  rw [Keyed.lookup_update (hnames ▸ hkeys), hcomponent, Option.none_or,
    lookup_ofPairs_startEntries, if_neg hproperty]

theorem sameUpToOrder_object_iff {entries drawn : List (String × Value)} :
    SameUpToOrder (.object entries) (.object drawn) ↔
      ∀ name, Option.Rel SameUpToOrder (entries.lookup name) (drawn.lookup name) := by
  constructor
  · intro h
    cases h with
    | scalar hscalar => cases hscalar
    | object hentries => exact hentries
  · exact .object

/-- Entries come back as an object if those that the component declares come back and there are no
others. -/
theorem sameUpToOrder_iff_sameParts {c : Component} {key : String}
    {entries drawn : List (String × Value)} {counts after : RowCounts}
    (hkeys : (Keyed.keys c.components).Nodup) (hentries : Keyed.keys entries ⊆ c.declared)
    (hrun : (drawNode key (.object entries) c.outline).unanswered counts = (.ok drawn, after)) :
    SameUpToOrder (.object entries) (.object drawn) ↔ SameParts c entries drawn := by
  rw [sameUpToOrder_object_iff]
  refine ⟨fun hsame name _ ↦ hsame name, fun hsame name ↦ ?_⟩
  by_cases hname : name ∈ c.declared
  · exact hsame name hname
  · have hnone : entries.lookup name = none := Keyed.lookup_eq_none fun hmem ↦ hname (hentries hmem)
    rw [hnone, lookup_of_unanswered_drawNode hkeys hrun hname]
    exact .none

/-- What holds what a component declares comes back from its fields, by induction on the component.
-/
theorem restores_drawNode (c : Component) : c.WellKeyed → ∀ key entries, c.holds entries = true →
    (Value.object entries).numberFree = true →
      Restores (drawNode key (.object entries) c.outline) (c.listSizes key entries)
        (SameParts c entries) := by
  induction c using Component.induction_on_components with
  | step properties components array itemName ih =>
    intro hkeyed key entries hholds hfree
    obtain ⟨-, hkeys, hbelow⟩ := Component.wellKeyed_iff.1 hkeyed
    have hinner : ∀ pair ∈ components, RestoresFitting pair.2 := by
      intro pair hpair key entries hfits hfree
      obtain ⟨_, heq, hsubset, hholds⟩ := exists_entries_of_isExactly hfits
      obtain rfl := Value.object.inj heq
      obtain ⟨-, hkeys, -⟩ := Component.wellKeyed_iff.1 (hbelow pair hpair)
      rw [drawObject, bind_pure_comp]
      exact (ih pair hpair (hbelow pair hpair) key entries hholds hfree).map
        (sameUpToOrder_iff_sameParts hkeys hsubset)
    have hholdsAll : Component.holdsAll components entries = true := by
      rw [Component.holds, Bool.and_eq_true] at hholds
      exact hholds.2
    refine Restores.congr (unanswered_drawNode_outline _ key entries)
      ((restores_drawValues hfree hinner hholdsAll).map fun hrun ↦ ?_)
    exact sameParts_update_iff hkeys hholds hfree
      ((keys_of_unanswered_drawValues hrun).trans (Component.keys_outlines _))

/-! ### Forms -/

section Form

variable {s : Schema} {document : Value} {entries : List (String × Value)}

/-- The boxes of the toggle flags as they are at first. -/
def startFlags (s : Schema) (entries : List (String × Value)) : List (String × Value) :=
  s.toggles.map fun flag ↦ (flag, .bool (tickedAtFirst (entries.lookup flag)))

/-- What a form gives: the fields of the outermost component, under its name if it is not called
like the root scope, and the boxes of the flags. -/
theorem unanswered_drawForm (hdocument : s.IsDrawnFrom document) {inner : List (String × Value)}
    (hinner : (if s.name == rootScope then Value.object entries
      else (entries.lookup s.name).getD (.object [])) = .object inner) (counts : RowCounts) :
    (drawForm document (.object entries)).unanswered counts =
      ((fun drawn ↦ Keyed.update (if s.name == rootScope then drawn else [(s.name, .object drawn)])
          (startFlags s entries)) <$>
        drawNode s.name (.object inner) s.root.outline).unanswered counts := by
  obtain ⟨heading, hheading, hform⟩ := exists_drawForm_eq hdocument
  have hboxes : ∀ counts, (do heading; drawFlags (.object entries) s.toggles).unanswered counts =
      (.ok (startFlags s entries), counts) := by
    intro counts
    rcases hheading with rfl | rfl <;> simp [unanswered_drawFlags, startFlags]
  rw [hform, rootDefaults, hinner, Drawing.unanswered_bind, Drawing.unanswered_map]
  cases (drawNode s.name (.object inner) s.root.outline).unanswered counts with
  | mk result after =>
    cases result with
    | error interruption => rfl
    | ok drawn =>
      simp only [Drawing.unanswered_bind (heading >>= fun _ ↦ _), hboxes]
      rfl

/-- What entries hold under a name that a component declares is no truth value. -/
theorem ne_bool_of_holds {c : Component} (hholds : c.holds entries = true)
    (hfree : (Value.object entries).numberFree = true) {name : String} (hname : name ∈ c.declared)
    (b : Bool) : entries.lookup name ≠ some (.bool b) := by
  intro hbool
  rcases List.mem_append.1 hname with hcomponent | hproperty
  · obtain ⟨properties, components, array, itemName⟩ := c
    rw [Component.holds, Bool.and_eq_true] at hholds
    obtain ⟨pair, hpair, rfl⟩ := List.mem_map.1 hcomponent
    obtain ⟨value, hvalue, hfits⟩ := exists_lookup_of_holdsAll hholds.2 hpair
    obtain rfl := Option.some.inj (hvalue.symm.trans hbool)
    rcases hfits with ⟨-, hfits⟩ | ⟨-, items, hitems, -⟩
    · cases hfits
    · cases hitems
  · rw [lookup_text_of_holds hholds hfree hproperty] at hbool
    cases hbool

/-- An input of the shape of a schema has a truth value for each flag, something else for each
declared name, and nothing more. -/
theorem shape_of_fills (h : s.fills entries = true) :
    (∀ name ∈ s.declared, name ∉ s.toggles) ∧
      (∀ flag ∈ s.toggles, ∃ b, entries.lookup flag = some (.bool b)) ∧
      ∀ name ∉ s.declared, name ∉ s.toggles → entries.lookup name = none := by
  rw [Schema.fills, Bool.and_eq_true, Bool.and_eq_true, List.all_eq_true] at h
  obtain ⟨⟨hfits, hfree⟩, hbools⟩ := h
  rw [Schema.fits, Bool.and_eq_true, List.all_eq_true] at hfits
  obtain ⟨hkeys, hholds⟩ := hfits
  have hflags : ∀ flag ∈ s.toggles, ∃ b, entries.lookup flag = some (.bool b) := by
    intro flag hflag
    obtain ⟨value, hvalue, hbool⟩ := Option.any_eq_true _ _ |>.1 (hbools flag hflag)
    cases value with
    | bool b => exact ⟨b, hvalue⟩
    | null | int | float | string | list | object | record => cases hbool
  refine ⟨fun name hname hflag ↦ ?_, hflags, fun name hname hflag ↦ Keyed.lookup_eq_none ?_⟩
  · obtain ⟨b, hb⟩ := hflags name hflag
    rw [Schema.declared] at hname
    rw [Schema.holds] at hholds
    split at hname
    · next hroot =>
      rw [if_pos hroot] at hholds
      exact ne_bool_of_holds hholds hfree hname b hb
    · next hroot =>
      rw [if_neg hroot, ← List.mem_singleton.1 hname, hb] at hholds
      cases hholds
  · intro hmem
    obtain ⟨entry, hentry, rfl⟩ := List.mem_map.1 hmem
    have hkey := hkeys entry hentry
    simp [hname, hflag] at hkey

/-- The input comes back from a form if what it declares comes back; the flags always do. -/
theorem sameUpToOrder_update_iff (h : s.fills entries = true) (drawn : List (String × Value))
    (hdrawn : ∀ name ∉ s.declared, drawn.lookup name = none) :
    SameUpToOrder (.object entries) (.object (Keyed.update drawn (startFlags s entries))) ↔
      ∀ name ∈ s.declared,
        Option.Rel SameUpToOrder (entries.lookup name) (drawn.lookup name) := by
  obtain ⟨hapart, hflags, hnothing⟩ := shape_of_fills h
  rw [sameUpToOrder_object_iff]
  simp only [startFlags, Keyed.lookup_update_map]
  constructor
  · intro hsame name hname
    have hrel := hsame name
    rwa [if_neg (hapart name hname)] at hrel
  · intro hsame name
    by_cases hflag : name ∈ s.toggles
    · obtain ⟨b, hb⟩ := hflags name hflag
      have hticked : tickedAtFirst (some (.bool b)) = b := by cases b <;> rfl
      rw [if_pos hflag, hb, hticked]
      exact .some (.scalar rfl)
    · rw [if_neg hflag]
      by_cases hname : name ∈ s.declared
      · exact hsame name hname
      · rw [hnothing name hname hflag, hdrawn name hname]
        exact .none

/-- An input of the shape of a schema comes back from a form that is drawn for the schema. -/
theorem restores_drawForm (hdocument : s.IsDrawnFrom document) (hkeyed : s.root.WellKeyed)
    (h : s.fills entries = true) :
    Restores (drawForm document (.object entries)) (s.listSizes entries)
      (fun drawn ↦ SameUpToOrder (.object entries) (.object drawn)) := by
  obtain ⟨-, hkeys, -⟩ := Component.wellKeyed_iff.1 hkeyed
  have hshape := h
  rw [Schema.fills, Bool.and_eq_true, Bool.and_eq_true, Schema.fits, Bool.and_eq_true] at hshape
  obtain ⟨⟨⟨-, hholds⟩, hfree⟩, -⟩ := hshape
  rw [Schema.holds] at hholds
  have hupdate := sameUpToOrder_update_iff h
  rw [Schema.declared] at hupdate
  rw [Schema.listSizes]
  by_cases hroot : (s.name == rootScope) = true
  · rw [if_pos hroot] at hholds hupdate ⊢
    have hinner : (if s.name == rootScope then Value.object entries
        else (entries.lookup s.name).getD (.object [])) = .object entries := if_pos hroot
    refine Restores.congr (unanswered_drawForm hdocument hinner)
      ((restores_drawNode s.root hkeyed s.name entries hholds hfree).map fun hrun ↦ ?_)
    rw [if_pos hroot]
    exact hupdate _ fun name hname ↦ lookup_of_unanswered_drawNode hkeys hrun hname
  · rw [if_neg hroot] at hholds hupdate ⊢
    obtain ⟨value, hvalue, hfits⟩ := Option.any_eq_true _ _ |>.1 hholds
    obtain ⟨inner, rfl, hinner, hholds⟩ := exists_entries_of_isExactly hfits
    have hdefault : (entries.lookup s.name).getD (.object []) = .object inner := by rw [hvalue]; rfl
    rw [hvalue]
    refine Restores.congr (unanswered_drawForm hdocument ((if_neg hroot).trans hdefault))
      ((restores_drawNode s.root hkeyed s.name inner hholds
        (Value.numberFree_of_lookup hfree hvalue)).map fun {counts after drawn} hrun ↦ ?_)
    rw [if_neg hroot, hupdate [(s.name, .object drawn)] fun name hname ↦ Keyed.lookup_eq_none hname,
      ← sameUpToOrder_iff_sameParts hkeys hinner hrun]
    simp [hvalue]

end Form

end InputForm

/-- A form that is drawn for an input of the shape of its schema, with nothing entered and no number
of rows remembered, is drawn to its end and gives the input back up to the order of entries, if and
only if those lists of the input that have one key in the form have one size. -/
theorem InputForm.drawForm_restores_iff {s : Schema} {document : Value}
    {entries : List (String × Value)} (hdocument : s.IsDrawnFrom document)
    (hkeyed : s.root.WellKeyed) (hfills : s.fills entries = true) :
    (∃ drawn, (drawForm document (.object entries) .none []).result = .ok drawn ∧
      Value.SameUpToOrder (.object entries) (.object drawn)) ↔
        OneSizePerKey (s.listSizes entries) :=
  (restores_drawForm hdocument hkeyed hfills).exists_iff_oneSizePerKey

/-- Where the names of all nested components are plain, every input of the shape of the schema comes
back from the schema's own form. -/
theorem InputForm.drawForm_restores_of_isPlain {s : Schema} {entries : List (String × Value)}
    (hkeyed : s.root.WellKeyed)
    (hplain : ∀ node ∈ s.root.nodes, ∀ name ∈ Keyed.keys node.components, IsPlain name)
    (hfills : s.fills entries = true) :
    ∃ drawn, (drawForm s.toDocument (.object entries) .none []).result = .ok drawn ∧
      Value.SameUpToOrder (.object entries) (.object drawn) :=
  (restores_drawForm s.isDrawnFrom_toDocument hkeyed hfills).exists_iff_oneSizePerKey.2
    (s.oneSizePerKey_of_isPlain hkeyed hplain entries)

/-- The shelves in a wing of a museum and in the eastern part of its hall, with a flag for a notice.
-/
def museumSchema (name wing : String) : Schema :=
  let shelves := Component.mk [("label", textType)] [] true (some "shelf")
  let part := Component.mk [] [("shelves", shelves)] false none
  ⟨name, ⟨[("title", textType)], [(wing, part), ("hall", ⟨[], [("east", part)], false, none⟩)],
    false, none⟩, ["notice"]⟩

/-- A museum with one shelf, which is in the wing. -/
def museumInput (wing : String) : List (String × Value) :=
  [(wing, .object [("shelves", .list [.object [("label", .string "coins")]])]),
    ("hall", .object [("east", .object [("shelves", .list [])])]), ("title", .string "Museum")]

/-- Both lists have one key. -/
example : (museumSchema "root" "hall.east").listSizes (museumInput "hall.east") =
    [("root.hall.east.shelves", 1), ("root.hall.east.shelves", 0)] := by
  decide +kernel

theorem InputForm.drawForm_restores_iff_museum :
    let s := museumSchema "museum" "west"
    let entries := [("museum", Value.object (museumInput "west")), ("notice", .bool false)]
    s.IsDrawnFrom s.toDocument ∧ s.root.WellKeyed ∧ s.fills entries = true ∧
      ∃ drawn, (drawForm s.toDocument (.object entries) .none []).result = .ok drawn ∧
        Value.SameUpToOrder (.object entries) (.object drawn) := by
  intro s entries
  have hdocument : s.IsDrawnFrom s.toDocument := s.isDrawnFrom_toDocument
  have hkeyed : s.root.WellKeyed := by
    unfold Component.WellKeyed
    decide +kernel
  have hfills : s.fills entries = true := by decide +kernel
  exact ⟨hdocument, hkeyed, hfills,
    (drawForm_restores_iff hdocument hkeyed hfills).2 (by decide +kernel)⟩

/-- With a wing that is called as if it were in the hall, the saved input does not come back. -/
theorem InputForm.not_restores_museum :
    ¬ ∀ (s : Schema) (entries : List (String × Value)), s.root.WellKeyed → s.root.PartsApart →
      s.FlagsApart → s.fills entries = true →
        ∃ drawn, (drawForm s.toDocument (.object entries) .none []).result = .ok drawn ∧
          Value.SameUpToOrder (.object entries) (.object drawn) := by
  intro hclaim
  let s := museumSchema "root" "hall.east"
  let entries := museumInput "hall.east" ++ [("notice", .bool true)]
  have hkeyed : s.root.WellKeyed := by
    unfold Component.WellKeyed
    decide +kernel
  have hfills : s.fills entries = true := by decide +kernel
  have hrestored := hclaim s entries hkeyed (by decide +kernel) (by decide +kernel) hfills
  have hone : OneSizePerKey (s.listSizes entries) :=
    (restores_drawForm s.isDrawnFrom_toDocument hkeyed hfills).exists_iff_oneSizePerKey.1 hrestored
  exact absurd hone (by decide +kernel)

end MarkupBinding
