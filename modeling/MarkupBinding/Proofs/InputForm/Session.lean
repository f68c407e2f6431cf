import MarkupBinding.Proofs.InputForm.Completed
import MarkupBinding.Proofs.InputForm.Drawable

/-!
# From one drawing to the next

A form that starts without defaults is drawn with numbers of rows that are remembered, whatever is
entered. The drawing stores zero for lists that are met for the first time; then it either gives an
input of the shape of the schema with the remembered numbers of rows, or it changes one number by
one and asks for the next drawing (`evolves_drawForm`). So the numbers that are remembered stay
sound: there is one for a list, and none is below zero (`Evolves.sound`).

A drawing is abandoned where a button is pressed. Since this may be any button, and several may be
pressed at once, the statements cover every point at which a drawing can be abandoned; between two
such points it only stores zeros behind the numbers that there are.
-/

set_option autoImplicit false
set_option relaxedAutoImplicit false

namespace MarkupBinding.InputForm

/-- The numbers of rows are remembered under different keys, and none is below zero. -/
structure SoundCounts (counts : RowCounts) : Prop where
  nodup : (Keyed.keys counts).Nodup
  nonneg : ∀ entry ∈ counts, 0 ≤ entry.2

/-- The input has the shape of the schema, and each list in it as many rows as are remembered. -/
structure Completes (s : Schema) (counts : RowCounts) (drawn : List (String × Value)) : Prop where
  fills : s.fills drawn = true
  rows : ∀ list ∈ s.listSizes drawn, counts.lookup (countKey list.1) = some (list.2 : Int)

/-- What a drawing makes of numbers of rows: for the lists `new`, for which nothing was remembered,
the number zero is stored. Then there is a completed input, or something is pressed, one number is
changed by one and the form is to be drawn anew. -/
def Evolves (s : Schema) (answers : Answers) (before : RowCounts)
    (outcome : Outcome RowCounts (List (String × Value))) : Prop :=
  ∃ new : List String, (∀ key ∈ new, countKey key ∉ Keyed.keys before) ∧ new.Nodup ∧
    let started := before ++ new.map fun key ↦ (countKey key, (0 : Int))
    (∃ drawn, outcome.result = .ok drawn ∧ outcome.state = started ∧ Completes s started drawn) ∨
      (∃ key, answers.ticks.lookup key = some true) ∧ outcome.result = .error .rerun ∧
        ChangesOne started outcome.state

section Sound

variable {counts : RowCounts}

theorem keys_started (new : List String) :
    Keyed.keys (new.map fun key ↦ (countKey key, (0 : Int))) = new.map countKey :=
  List.map_map

theorem SoundCounts.append (h : SoundCounts counts) {new : List String}
    (hnew : ∀ key ∈ new, countKey key ∉ Keyed.keys counts) (hnodup : new.Nodup) :
    SoundCounts (counts ++ new.map fun key ↦ (countKey key, (0 : Int))) := by
  refine ⟨?_, fun entry hentry ↦ ?_⟩
  · rw [Keyed.keys_append, keys_started, List.nodup_append]
    refine ⟨h.nodup, hnodup.map countKey_injective, ?_⟩
    rintro _ hold _ hmem rfl
    obtain ⟨key, hkey, rfl⟩ := List.mem_map.1 hmem
    exact hnew key hkey hold
  · rcases List.mem_append.1 hentry with hentry | hentry
    · exact h.nonneg entry hentry
    · obtain ⟨key, -, rfl⟩ := List.mem_map.1 hentry
      exact le_refl 0

theorem SoundCounts.changesOne (h : SoundCounts counts) {after : RowCounts}
    (hchanges : ChangesOne counts after) : SoundCounts after := by
  obtain ⟨key, count, change, hcount, hchange, rfl⟩ := hchanges
  refine ⟨Keyed.nodup_keys_set h.nodup _ _, fun entry hentry ↦ ?_⟩
  rcases Keyed.mem_set hentry with rfl | hold
  · have hnonneg : 0 ≤ count := h.nonneg _ (Keyed.mem_of_lookup hcount)
    change 0 ≤ count + change
    omega
  · exact h.nonneg entry hold

/-- Sound numbers stay sound. -/
theorem Evolves.sound {s : Schema} {answers : Answers}
    {outcome : Outcome RowCounts (List (String × Value))}
    (hevolves : Evolves s answers counts outcome) (h : SoundCounts counts) :
    SoundCounts outcome.state := by
  obtain ⟨new, hnew, hnodup, ⟨drawn, -, hstate, -⟩ | ⟨-, -, hchanges⟩⟩ := hevolves
  · exact hstate ▸ h.append hnew hnodup
  · exact (h.append hnew hnodup).changesOne hchanges

/-- Where no number is below zero, the one that is remembered for a list is found as it is. -/
theorem SoundCounts.lookup_of_remembered (h : SoundCounts counts) {key : String} {rows : Nat}
    (hrows : remembered counts key = some rows) :
    counts.lookup (countKey key) = some (rows : Int) := by
  obtain ⟨count, hcount, hnat⟩ := Option.map_eq_some_iff.1 hrows
  have hnonneg : 0 ≤ count := h.nonneg _ (Keyed.mem_of_lookup hcount)
  rw [hcount, ← hnat, Int.toNat_of_nonneg hnonneg]

end Sound

section Session

variable {s : Schema} {document : Value}

/-- One drawing without defaults, whatever is entered. -/
theorem evolves_drawForm (hdocument : s.IsDrawnFrom document) (hkeyed : s.root.WellKeyed)
    (hapart : s.root.PartsApart) (hflags : ∀ flag ∈ s.toggles, flag ∉ s.declared)
    {before : RowCounts} (hbefore : SoundCounts before) {answers : Answers}
    (hnone : ∀ flag ∈ s.toggles, answers.numbers.lookup (flagKey flag) = none) :
    Evolves s answers before (drawForm document (.object []) answers before) := by
  obtain ⟨met, hzero, hnodup, hend⟩ := advances_drawForm_nil hdocument answers before
  have hstored : stored met = (Keyed.keys met).map fun key ↦ (countKey key, (0 : Int)) := by
    rw [stored, Keyed.keys, List.map_map]
    exact List.map_congr_left fun list hlist ↦ by rw [hzero list hlist]; rfl
  rw [hstored] at hnodup hend
  have hkeys := hnodup hbefore.nodup
  rw [Keyed.keys_append, keys_started, List.nodup_append] at hkeys
  obtain ⟨-, hnew, hdisjoint⟩ := hkeys
  have hnotBefore : ∀ key ∈ Keyed.keys met, countKey key ∉ Keyed.keys before :=
    fun key hkey hold ↦ hdisjoint _ hold _ (List.mem_map_of_mem hkey) rfl
  refine ⟨Keyed.keys met, hnotBefore, hnew.of_map countKey, ?_⟩
  rcases hend with ⟨drawn, hdrawn⟩ | ⟨hpressed, after, hchanges, hrerun⟩
  · obtain ⟨hfills, hsizes⟩ := fills_of_answered_drawForm hdocument hkeyed hapart hflags hnone
      hdrawn
    obtain ⟨hresult, hstate⟩ := Prod.mk.inj hdrawn
    have hsound := hbefore.append hnotBefore (hnew.of_map countKey)
    exact Or.inl ⟨drawn, hresult, hstate, hfills, fun list hlist ↦
      hsound.lookup_of_remembered (hsizes list hlist)⟩
  · obtain ⟨hresult, rfl⟩ := Prod.mk.inj hrerun
    exact Or.inr ⟨hpressed, hresult, hchanges⟩

end Session

end MarkupBinding.InputForm
