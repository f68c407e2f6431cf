import MarkupBinding.Proofs.Storage.Saving

/-!
# Writing a file

A file is written where a name fits into a folder and no folder has the name
(`FileTree.Writable`); a file that is there is replaced. Afterwards the file is read with the bytes
that were written, and the folders are the ones there were, no more and no fewer
(`Entry.changeAt_putFile`), so every location leads where it led, and where a file can be written it
still can (`FileTree.write_spec`). That is what lets one command write what the next one reads.
-/

set_option autoImplicit false
set_option relaxedAutoImplicit false

namespace MarkupBinding

namespace Entry

/-- A name that a file can have. -/
def Fits (name : FileName) : Prop :=
  0 ∉ name.bytes ∧ name.bytes.length ≤ nameLimit

/-- A name that a file can have is looked up among the entries. -/
theorem lookUp_of_fits {name : FileName} (h : Fits name) (entries : List (FileName × Entry)) :
    lookUp name entries = .ok (entries.lookup name) := by
  rw [lookUp, if_neg (mt List.contains_iff_mem.1 h.1), if_neg (Nat.not_lt.2 h.2)]

/-- A way through a name leads to a folder when that name leads to something from where the rest
does. -/
theorem hasFolder_cons_iff {name : FileName} (hname : Fits name) {time : Int}
    {entries : List (FileName × Entry)} {rest : List FileName} :
    (folder time entries).HasFolder (name :: rest) ↔
      ∃ e, entries.lookup name = some e ∧ e.HasFolder rest := by
  have hlook := lookUp_of_fits hname entries
  cases hthere : entries.lookup name with
  | none =>
    rw [hthere] at hlook
    unfold HasFolder
    rw [find_of_lookUp_none hlook]
    simp
  | some e =>
    rw [hthere] at hlook
    unfold HasFolder
    rw [find_of_lookUp hlook]
    simp

/-- A name set to a file leads to no folder, and as before under other names. -/
theorem hasFolder_set_file {name : FileName} (hname : Fits name) {made time : Int}
    {bytes : List UInt8} {entries : List (FileName × Entry)}
    (hfree : ¬ (folder made entries).HasFolder [name]) (way : List FileName) :
    (folder made (Keyed.set name (file time bytes) entries)).HasFolder way ↔
      (folder made entries).HasFolder way := by
  rcases way with - | ⟨part, more⟩
  · exact ⟨fun _ ↦ ⟨made, _, rfl⟩, fun _ ↦ ⟨made, _, rfl⟩⟩
  by_cases hpart : part = name
  · subst hpart
    rw [hasFolder_cons_iff hname, hasFolder_cons_iff hname, Keyed.lookup_set_self]
    constructor
    · rintro ⟨e, he, hfolder⟩
      cases he
      exact absurd hfolder (not_hasFolder_file _ _ _)
    · rintro ⟨e, he, hfolder⟩
      rcases e with ⟨time', bytes'⟩ | ⟨time', inner⟩
      · exact absurd hfolder (not_hasFolder_file _ _ _)
      · exact absurd ((hasFolder_cons_iff hname).2 ⟨_, he, time', inner, rfl⟩) hfree
  · unfold HasFolder
    rw [find_set_of_ne hpart]

/-- Setting a name to something with the folders of what was there changes no folders. -/
theorem hasFolder_set_iff {part : FileName} {made : Int} {entries : List (FileName × Entry)}
    {child child' : Entry} (hlook : lookUp part entries = .ok (some child))
    (hchild : ∀ way, child'.HasFolder way ↔ child.HasFolder way) (way : List FileName) :
    (folder made (Keyed.set part child' entries)).HasFolder way ↔
      (folder made entries).HasFolder way := by
  rcases way with - | ⟨first, more⟩
  · exact ⟨fun _ ↦ ⟨made, _, rfl⟩, fun _ ↦ ⟨made, _, rfl⟩⟩
  by_cases hfirst : first = part
  · subst hfirst
    unfold HasFolder
    rw [find_set_self hlook (not_null_of_lookUp hlook), find_of_lookUp hlook]
    exact hchild more
  · unfold HasFolder
    rw [find_set_of_ne hfirst]

/-- A file is put at the end of a way that leads into a folder, where its name is no folder's. Then
it is there, and the folders are those there were. -/
theorem changeAt_putFile {front : List FileName} {name : FileName} {e : Entry} (time : Int)
    (bytes : List UInt8) (hname : Fits name) (hfolder : e.HasFolder front)
    (hfree : ¬ e.HasFolder (front ++ [name])) :
    ∃ e', changeAt (putFile time bytes) (front ++ [name]) e = .ok e' ∧
      e'.file? (front ++ [name]) = some (time, bytes) ∧
      ∀ way, e'.HasFolder way ↔ e.HasFolder way := by
  induction front generalizing e with
  | nil =>
    obtain ⟨made, entries, hfind⟩ := hfolder
    obtain rfl := Except.ok.inj hfind
    have hlook := lookUp_of_fits hname entries
    refine ⟨folder made (Keyed.set name (file time bytes) entries), ?_, ?_,
      hasFolder_set_file hname hfree⟩
    · rw [List.nil_append, changeAt, hlook]
      rcases hthere : entries.lookup name with - | ⟨time', bytes'⟩ | ⟨time', inner⟩
      · rfl
      · rfl
      · exact absurd ((hasFolder_cons_iff hname).2 ⟨_, hthere, time', inner, rfl⟩) hfree
    · rw [List.nil_append, file?, find_set_self hlook hname.1, find]
  | cons part rest ih =>
    obtain ⟨time', inner, hfind⟩ := hfolder
    rcases e with ⟨made, content⟩ | ⟨made, entries⟩
    · cases hfind
    rw [find] at hfind
    split at hfind
    · cases hfind
    · cases hfind
    next child hlook =>
    have hbelow : ¬ child.HasFolder (rest ++ [name]) := by
      unfold HasFolder at hfree ⊢
      rwa [List.cons_append, find_of_lookUp hlook] at hfree
    obtain ⟨child', hchange, hfile, hfolders⟩ := ih ⟨time', inner, hfind⟩ hbelow
    refine ⟨folder made (Keyed.set part child' entries), ?_, ?_, hasFolder_set_iff hlook hfolders⟩
    · rw [List.cons_append, changeAt, hlook]
      · simp only [hchange]
        rfl
      · simp
    · rw [List.cons_append, file?, find_set_self hlook (not_null_of_lookUp hlook)]
      exact hfile

end Entry

namespace FileTree

variable {t t' : FileTree} {l : Location}

/-- A file can be written at a location: its way leads into a folder, under a name that a file can
have and no folder there has. -/
def Writable (t : FileTree) (l : Location) : Prop :=
  ∃ front name, t.wayTo l = .ok (front ++ [name]) ∧ Entry.Fits name ∧ t.top.HasFolder front ∧
    ¬ t.top.HasFolder (front ++ [name])

/-- The trees have the same folders, and one is in the same. -/
structure SameFolders (t t' : FileTree) : Prop where
  folder : t'.folder = t.folder
  top : ∀ way, t'.top.HasFolder way ↔ t.top.HasFolder way

/-- With the same folders a location leads where it led. -/
theorem SameFolders.wayTo (h : t.SameFolders t') {way : List FileName}
    (hway : t.wayTo l = .ok way) : t'.wayTo l = .ok way := by
  unfold FileTree.wayTo at hway ⊢
  rw [h.folder]
  exact followFrom_of_folders (fun way ↦ (h.top way).2) hway

/-- With the same folders a file can be written where it could be. -/
theorem SameFolders.writable (h : t.SameFolders t') (hwritable : t.Writable l) : t'.Writable l := by
  obtain ⟨front, name, hway, hname, hfolder, hfree⟩ := hwritable
  exact ⟨front, name, h.wayTo hway, hname, (h.top front).2 hfolder, mt (h.top _).1 hfree⟩

/-- Where a file can be written, writing gives a tree with the same folders in which the file is
read with its bytes, at every location with the same way. -/
theorem write_spec (h : t.Writable l) (time : Int) (bytes : List UInt8) :
    ∃ t', t.write l time bytes = .ok t' ∧ t.SameFolders t' ∧
      ∀ m : Location, t.wayTo m = t.wayTo l → t'.read m = .ok bytes := by
  obtain ⟨front, name, hway, hname, hfolder, hfree⟩ := h
  obtain ⟨top, hchange, hfile, hfolders⟩ :=
    Entry.changeAt_putFile time bytes hname hfolder hfree
  have hsame : t.SameFolders { t with top := top } := ⟨rfl, hfolders⟩
  refine ⟨{ t with top := top }, ?_, hsame, fun m hm ↦ ?_⟩
  · simp only [write, change, hway, hchange]
    rfl
  · exact read_eq_ok_iff.2 ⟨front ++ [name], time, hsame.wayTo (hm.trans hway), hfile⟩

end FileTree

end MarkupBinding
