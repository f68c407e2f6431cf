import MarkupBinding.Proofs.Storage.Loading

/-!
# Changes of one entry of a folder

A change at the end of a way goes down the way and leaves a folder there, whose entries are the old
ones with one set or erased (`Entry.AtChild`). What is set in the place of a folder has the entries
of that folder (`SparesFolders`), and what is erased is a file, so no folder is taken away: a way
that led to a folder before the change leads to one afterwards (`atChild_changeAt`,
`atChild_removeFile`). Making the folders of a way ends at the folder that was there or at an empty
one (`find_makeFolders`).
-/

set_option autoImplicit false
set_option relaxedAutoImplicit false

namespace MarkupBinding

namespace Entry

/-- Makes an empty folder where nothing is. -/
def putFolder (time : Int) : Option Entry → Except PathFault Entry
  | none => .ok (folder time [])
  | some _ => .error .present

/-- A change takes no folder away, and at the end of a way it alters one folder by one name, leaving
distinct names distinct. -/
structure AtChild (way : List FileName) (e e' : Entry) : Prop where
  folders : ∀ other, e.HasFolder other → e'.HasFolder other
  altered : ∃ time entries entries', e.find way = .ok (folder time entries) ∧
    e'.find way = .ok (folder time entries') ∧
      ((Keyed.keys entries).Nodup → (Keyed.keys entries').Nodup)

/-- What stands in the place of a folder is a folder with the same entries. -/
def SparesFolders (change : Option Entry → Except PathFault Entry) : Prop :=
  ∀ time entries e, change (some (folder time entries)) = .ok e → ∃ time', e = folder time' entries

section Child

variable {change : Option Entry → Except PathFault Entry} {name : FileName} {way : List FileName}
  {e e' child child' : Entry} {time : Int} {entries : List (FileName × Entry)}

theorem sparesFolders_putFile (time : Int) (bytes : List UInt8) :
    SparesFolders (putFile time bytes) := by
  intro made entries e h
  cases h

theorem sparesFolders_putFolder (time : Int) : SparesFolders (putFolder time) := by
  intro made entries e h
  cases h

/-- A folder whose time is changed leads where it led. -/
theorem HasFolder.of_time {time time' : Int} {way : List FileName}
    (h : (folder time entries).HasFolder way) : (folder time' entries).HasFolder way := by
  cases way with
  | nil => exact ⟨time', entries, rfl⟩
  | cons name rest => exact h

/-- A change behind a name is one of the folder that has the name. -/
theorem AtChild.cons (hthere : lookUp name entries = .ok (some child))
    (h : child.AtChild way child') :
    (folder time entries).AtChild (name :: way)
      (folder time (Keyed.set name child' entries)) := by
  have hway : ∀ more, (folder time entries).find (name :: more) = child.find more :=
    find_of_lookUp hthere time
  have hway' : ∀ more, (folder time (Keyed.set name child' entries)).find (name :: more) =
      child'.find more := find_set_self hthere (not_null_of_lookUp hthere) time child'
  refine ⟨fun other ↦ HasFolder.set hthere fun old hold ↦ ?_, ?_⟩
  · obtain rfl := Option.some.inj hold
    exact h.folders
  · rw [hway, hway']
    exact h.altered

/-- Changing what a name leads to alters the folder that has the name. -/
theorem atChild_changeAt (hspares : SparesFolders change)
    (h : changeAt change (way ++ [name]) e = .ok e') : e.AtChild way e' := by
  induction way generalizing e e' with
  | nil =>
    rcases e with ⟨made, content⟩ | ⟨made, entries⟩
    · cases h
    rw [List.nil_append, changeAt] at h
    split at h
    · cases h
    next there hthere =>
    cases hnew : change there with
    | error fault => rw [hnew] at h; cases h
    | ok new =>
      rw [hnew] at h
      obtain rfl := Except.ok.inj h
      refine ⟨fun other ↦ HasFolder.set hthere fun old hold rest hrest ↦ ?_,
        made, entries, _, rfl, rfl, fun hnodup ↦ Keyed.nodup_keys_set hnodup name new⟩
      subst hold
      rcases old with ⟨_, _⟩ | ⟨_, inner⟩
      · exact absurd hrest (not_hasFolder_file _ _ _)
      · obtain ⟨time', rfl⟩ := hspares _ inner new hnew
        exact hrest.of_time
  | cons part rest ih =>
    rcases e with ⟨made, content⟩ | ⟨made, entries⟩
    · cases h
    rw [List.cons_append, changeAt] at h
    · split at h
      · cases h
      · cases h
      next child hthere =>
      cases hchange : changeAt change (rest ++ [name]) child with
      | error fault => rw [hchange] at h; cases h
      | ok child' =>
        rw [hchange] at h
        obtain rfl := Except.ok.inj h
        exact (ih hchange).cons hthere
    · simp

/-- Erasing the name of a file takes no folder away. -/
theorem HasFolder.erase {bytes : List UInt8} {made : Int}
    (hthere : lookUp name entries = .ok (some (file made bytes)))
    (h : (folder time entries).HasFolder way) :
    (folder time (Keyed.erase name entries)).HasFolder way := by
  rcases way with - | ⟨part, more⟩
  · exact ⟨time, _, rfl⟩
  by_cases hpart : part = name
  · subst hpart
    unfold HasFolder at h
    rw [find_of_lookUp hthere] at h
    exact absurd h (not_hasFolder_file _ _ _)
  · unfold HasFolder
    rw [find_folder_cons, lookUp, Keyed.lookup_erase_of_ne hpart, ← lookUp, ← find_folder_cons]
    exact h

/-- A file directly in a folder is removed by erasing its name. -/
theorem removeFile_singleton (h : removeFile [name] (folder time entries) = .ok e') :
    (∃ made bytes, lookUp name entries = .ok (some (file made bytes))) ∧
      e' = folder time (Keyed.erase name entries) := by
  unfold removeFile at h
  rcases hthere : lookUp name entries with fault | - | ⟨made, bytes⟩ | ⟨made, inner⟩ <;>
    rw [hthere] at h
  · cases h
  · cases h
  · exact ⟨⟨made, bytes, rfl⟩, (Except.ok.inj h).symm⟩
  · cases h

/-- A file further down is removed from what the first name leads to. -/
theorem removeFile_cons {next : FileName} {rest : List FileName}
    (h : removeFile (name :: next :: rest) (folder time entries) = .ok e') :
    ∃ child child', lookUp name entries = .ok (some child) ∧
      removeFile (next :: rest) child = .ok child' ∧
        e' = folder time (Keyed.set name child' entries) := by
  rw [removeFile.eq_def] at h
  dsimp only at h
  rcases hthere : lookUp name entries with fault | - | child <;> rw [hthere] at h
  · cases h
  · cases h
  · have hstep : (removeFile (next :: rest) child).map
        (fun e ↦ folder time (Keyed.set name e entries)) = .ok e' := by
      cases child <;> exact h
    cases hremove : removeFile (next :: rest) child with
    | error fault => rw [hremove] at hstep; cases hstep
    | ok child' =>
      rw [hremove] at hstep
      exact ⟨child, child', rfl, hremove, (Except.ok.inj hstep).symm⟩

/-- Removing a file alters the folder that has its name. -/
theorem atChild_removeFile (h : removeFile (way ++ [name]) e = .ok e') : e.AtChild way e' := by
  induction way generalizing e e' with
  | nil =>
    rcases e with ⟨made, content⟩ | ⟨made, entries⟩
    · cases h
    obtain ⟨⟨_, _, hthere⟩, rfl⟩ := removeFile_singleton h
    refine ⟨fun other hfolder ↦ hfolder.erase hthere, made, entries, _, rfl, rfl, fun hnodup ↦ ?_⟩
    exact hnodup.sublist (List.filter_sublist.map Prod.fst)
  | cons part rest ih =>
    rcases e with ⟨made, content⟩ | ⟨made, entries⟩
    · cases h
    obtain ⟨next, more, hmore⟩ : ∃ next more, rest ++ [name] = next :: more := by
      cases rest <;> exact ⟨_, _, rfl⟩
    rw [List.cons_append, hmore] at h
    obtain ⟨child, child', hthere, hremove, rfl⟩ := removeFile_cons h
    rw [← hmore] at hremove
    exact (ih hremove).cons hthere

/-- Nothing is in an empty folder. -/
theorem find_empty_ne_ok (rest : List FileName) : (folder time []).find (name :: rest) ≠ .ok e := by
  intro hfind
  rw [find_folder_cons] at hfind
  split at hfind
  · cases hfind
  · cases hfind
  · next hthere => exact absurd (mem_of_lookUp hthere) List.not_mem_nil

/-- Where a folder was made there is a folder: the one that was there, or an empty one. A name that
nothing can have leads nowhere after it was set as before. -/
theorem find_makeFolders (h : makeFolders way e = .ok e') :
    e'.find way = .error .absent ∨ ∃ time entries, e'.find way = .ok (folder time entries) ∧
      (e.find way = .ok (folder time entries) ∨ entries = []) := by
  induction way generalizing e e' with
  | nil =>
    rcases e with ⟨made, content⟩ | ⟨made, entries⟩
    · cases h
    · obtain rfl := Except.ok.inj h
      exact Or.inr ⟨made, entries, rfl, Or.inl rfl⟩
  | cons part rest ih =>
    rcases e with ⟨made, content⟩ | ⟨made, entries⟩
    · cases h
    rw [makeFolders] at h
    split at h
    · cases h
    next there hthere =>
    cases hmade : makeFolders rest (there.getD (folder 0 [])) with
    | error fault => rw [hmade] at h; cases h
    | ok child =>
      rw [hmade] at h
      obtain rfl := Except.ok.inj h
      by_cases hnull : 0 ∈ part.bytes
      · exact Or.inl (find_of_null hnull _ _ _)
      rw [find_set_self hthere hnull]
      rcases ih hmade with habsent | ⟨time, inner, hfind, hold⟩
      · exact Or.inl habsent
      refine Or.inr ⟨time, inner, hfind, ?_⟩
      cases there with
      | some old =>
        rw [find_of_lookUp hthere]
        exact hold
      | none =>
        -- the folder is new, and nothing is in it
        refine Or.inr (hold.elim (fun hempty ↦ ?_) id)
        rw [Option.getD_none] at hempty
        cases rest with
        | nil => exact ((Entry.folder.inj (Except.ok.inj hempty)).2).symm
        | cons next more => exact absurd hempty (find_empty_ne_ok more)

end Child

end Entry

end MarkupBinding
