import MarkupBinding.Proofs.Storage.Folders
import MarkupBinding.Proofs.Storage.Listing

/-!
# The listing over a history

Whatever is saved, put into the folder of a store, made, touched or removed there, and whatever else
is done to the files in between, listing the saved inputs and reading the one saved last agree
(`FormStore.listing_agrees_with_latest`). They agree in every orderly tree, and an orderly tree
stays one (`orderly_step`, `orderly_run`), as no change directly in the folder of the store takes a
folder away or gives a name twice (`Entry.AtChild`): double dots in the location of the store are
followed to the same folder before and after.
-/

set_option autoImplicit false
set_option relaxedAutoImplicit false

namespace MarkupBinding

namespace FormStore

/-! ### Changes of the folder of a store -/

section Change

variable {s : FormStore} {t t' : FileTree} {name : FileName}

/-- The store is orderly after a change of one entry of its folder. -/
theorem orderly_change {f : List FileName → Entry → Except PathFault Entry} (h : s.Orderly t)
    (hname : Location.IsEntryName name)
    (hf : ∀ {way e e'}, f (way ++ [name]) e = .ok e' → e.AtChild way e')
    (hchange : t.change (s.folder.child name) f = .ok t') : s.Orderly t' := by
  obtain ⟨whole, top, hwhole, htop, rfl⟩ := FileTree.change_eq_ok hchange
  rw [FileTree.wayTo_child hname] at hwhole
  cases hway : t.wayTo s.folder with
  | error fault => rw [hway] at hwhole; cases hwhole
  | ok way =>
    rw [hway] at hwhole
    obtain rfl := Except.ok.inj hwhole
    obtain ⟨hfolders, time, entries, entries', hfind, hfind', hnodup⟩ := hf htop
    have hway' : FileTree.wayTo { t with top := top } s.folder = .ok way :=
      FileTree.followFrom_of_folders hfolders hway
    unfold Orderly at h ⊢
    simp only [FileTree.find, hway, hway', hfind, hfind'] at h ⊢
    exact hnodup h

/-- The store is orderly after its folder was made. -/
theorem orderly_ensureFolder (h : s.Orderly t) (hmade : s.ensureFolder t = .ok t') :
    s.Orderly t' := by
  rw [ensureFolder] at hmade
  split at hmade
  · obtain rfl := Except.ok.inj hmade
    exact h
  obtain ⟨way, top, hway, htop, rfl⟩ := FileTree.change_eq_ok hmade
  have hway' : FileTree.wayTo { t with top := top } s.folder = .ok way :=
    FileTree.followFrom_of_folders (fun other ↦ (Entry.makeFolders_spec htop).2 other) hway
  unfold Orderly at h ⊢
  simp only [FileTree.find, hway, hway'] at h ⊢
  rcases Entry.find_makeFolders htop with habsent | ⟨time, entries, hfind, hold | rfl⟩
  · rw [habsent]
    exact fun hlong ↦ by cases hlong
  · rw [hold] at h
    rw [hfind]
    exact h
  · rw [hfind]
    exact List.nodup_nil

/-- The store is orderly after a text was saved, or was not. -/
theorem orderly_save (h : s.Orderly t) (time : Int) (ids : List String) (content : String) :
    s.Orderly (s.save t time ids content).tree := by
  rw [save]
  split
  · exact h
  next made hmade =>
  have hready := orderly_ensureFolder h hmade
  split
  · exact hready
  next id rest hfirst =>
  dsimp only
  split
  · exact hready
  next written hwritten =>
  exact orderly_change hready (isEntryName_fileName id)
    (Entry.atChild_changeAt (Entry.sparesFolders_putFile time _)) hwritten

end Change

/-! ### Histories -/

/-- What can happen to the files of a store. Behind its back files are put into its folder and
folders made there, their times are changed and files removed, under any names that entries have;
anything else may be done outside that leaves the store orderly. -/
inductive Event (s : FormStore) where
  /-- A text is saved, with identifiers to choose from. -/
  | save (time : Int) (ids : List String) (content : String)
  /-- The folder of the store is made, if nothing is there. -/
  | ready
  | put (name : FileName) (hname : Location.IsEntryName name) (time : Int) (bytes : List UInt8)
  | makeFolder (name : FileName) (hname : Location.IsEntryName name) (time : Int)
  | touch (name : FileName) (hname : Location.IsEntryName name) (time : Int)
  | remove (name : FileName) (hname : Location.IsEntryName name)
  | outside (tree : FileTree) (horderly : s.Orderly tree)

/-- The files after a change, which are the same if it cannot be made. -/
def changed (t : FileTree) (result : Except PathFault FileTree) : FileTree :=
  match result with
  | .ok t' => t'
  | .error _ => t

/-- The files after an event. -/
def step (s : FormStore) (t : FileTree) : s.Event → FileTree
  | .save time ids content => (s.save t time ids content).tree
  | .ready => changed t (s.ensureFolder t)
  | .put name _ time bytes => changed t (t.write (s.folder.child name) time bytes)
  | .makeFolder name _ time =>
    changed t (t.change (s.folder.child name) (Entry.changeAt (Entry.putFolder time)))
  | .touch name _ time => changed t (t.setTime (s.folder.child name) time)
  | .remove name _ => changed t (t.remove (s.folder.child name))
  | .outside tree _ => tree

/-- The files after events in order. -/
def run (s : FormStore) (t : FileTree) (events : List s.Event) : FileTree :=
  events.foldl s.step t

section Histories

variable {s : FormStore} {t : FileTree}

/-- The store is orderly where each way to change it leaves it so. -/
theorem orderly_changed {result : Except PathFault FileTree} (h : s.Orderly t)
    (hresult : ∀ t', result = .ok t' → s.Orderly t') : s.Orderly (changed t result) := by
  cases result with
  | error fault => exact h
  | ok t' => exact hresult t' rfl

/-- An event leaves the store orderly. -/
theorem orderly_step (h : s.Orderly t) (e : s.Event) : s.Orderly (s.step t e) := by
  cases e with
  | save time ids content => exact orderly_save h time ids content
  | ready => exact orderly_changed h fun t' ↦ orderly_ensureFolder h
  | put name hname time bytes =>
    exact orderly_changed h fun t' ↦ orderly_change h hname
      (Entry.atChild_changeAt (Entry.sparesFolders_putFile time bytes))
  | makeFolder name hname time =>
    exact orderly_changed h fun t' ↦ orderly_change h hname
      (Entry.atChild_changeAt (Entry.sparesFolders_putFolder time))
  | touch name hname time =>
    refine orderly_changed h fun t' ↦ orderly_change h hname (Entry.atChild_changeAt ?_)
    rintro made entries e he
    exact ⟨time, (Except.ok.inj he).symm⟩
  | remove name hname =>
    exact orderly_changed h fun t' ↦ orderly_change h hname Entry.atChild_removeFile
  | outside tree horderly => exact horderly

/-- Events leave the store orderly. -/
theorem orderly_run (h : s.Orderly t) (events : List s.Event) : s.Orderly (s.run t events) := by
  induction events generalizing t with
  | nil => exact h
  | cons e rest ih => exact ih (orderly_step h e)

/-- After every history the saved inputs are listed, in order and each once: the files directly in
the folder whose names end in the suffix, in letters of either case, behind something else. Reading
the input saved last finds none exactly when the listing is empty, and else reads a listed file that
no other was changed after: what is read is the text in that file, if it is text. -/
theorem listing_agrees_with_latest (h : s.Orderly t) (events : List s.Event) :
    let now := s.run t events
    ∃ names, s.Lists now names ∧
      ((∃ fault, s.load now latestName = .error fault ∧ fault.IsAbsence) ↔ names = []) ∧
      (names ≠ [] → ∃ name time bytes, name ∈ names ∧ s.HasFile now name time bytes ∧
        (∀ other ∈ names, ∀ time' bytes', s.HasFile now other time' bytes' → time' ≤ time) ∧
        s.load now latestName = (Text.Encoding.utf8.read bytes).mapError .unreadable) := by
  intro now
  have hnow : s.Orderly now := orderly_run h events
  obtain ⟨names, hnames⟩ := exists_lists hnow
  exact ⟨names, hnames, load_latestName hnow hnames⟩

/-- A store in a folder below `/srv` that is not there yet. -/
def noteStore : FormStore := ⟨⟨"/", ["srv", "forms"]⟩⟩

/-- Two inputs are saved and one with a capital suffix is put beside them; a hidden file and a
folder with the suffix are none, and the second input is removed again. The others were changed at
the same time. -/
def noteHistory : List noteStore.Event :=
  [.save 3 ["00000001"] "first", .save 9 ["00000001", "00000002"] "second",
    .put "NOTE.JSON" (by decide +kernel) 3 [0x6E, 0x6F, 0x74, 0x65],
    .put ".json" (by decide +kernel) 8 [],
    .makeFolder "folder.json" (by decide +kernel) 9, .touch "folder.json" (by decide +kernel) 10,
    .remove "00000002.json" (by decide +kernel)]

/-- What is listed after that, and what is read. -/
theorem listing_agrees_with_latest_noteHistory :
    noteStore.Orderly (.empty ⟨"/", ["srv"]⟩) ∧
      noteStore.Lists (noteStore.run (.empty ⟨"/", ["srv"]⟩) noteHistory)
        ["00000001.json", "NOTE.JSON"] ∧
      (∃ (name : FileName) (time : Int) (bytes : List UInt8),
        name ∈ [FileName.ofText "00000001.json", FileName.ofText "NOTE.JSON"] ∧
        noteStore.HasFile (noteStore.run (.empty ⟨"/", ["srv"]⟩) noteHistory) name time bytes ∧
        noteStore.load (noteStore.run (.empty ⟨"/", ["srv"]⟩) noteHistory) latestName =
          (Text.Encoding.utf8.read bytes).mapError .unreadable) := by
  have horderly : noteStore.Orderly (.empty ⟨"/", ["srv"]⟩) := by decide +kernel
  obtain ⟨names, hlists, -, hlatest⟩ := listing_agrees_with_latest horderly noteHistory
  have hsaved : noteStore.saved (noteStore.run (.empty ⟨"/", ["srv"]⟩) noteHistory) =
      .ok [("00000001.json", 3, Text.utf8Encode "first"),
        ("NOTE.JSON", 3, [0x6E, 0x6F, 0x74, 0x65])] := by rfl
  obtain rfl := Except.ok.inj
    (hlists.listed.symm.trans (names_of_saved hsaved (by decide +kernel)))
  obtain ⟨name, time, bytes, hname, hfile, -, hload⟩ := hlatest (by simp)
  exact ⟨horderly, hlists, name, time, bytes, hname, hfile, hload⟩

end Histories

end FormStore

end MarkupBinding
