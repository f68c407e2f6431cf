import MarkupBinding.Proofs.Storage.FileNames
import MarkupBinding.Storage.FileTree

/-!
# Files that stay

Making folders changes no file, and putting a file where nothing is adds that file and changes no
other (`makeFolders_spec`, `putFile_spec`). Both leave folders folders, and that is all that the way
to a location depends on: so once files and folders stay (`Kept`), every location leads where it led
and every file is read as before (`FileTree.Kept.wayTo`, `FileTree.Kept.read`). Both changes go down
one way and set one entry at each level, so each proof is an induction on the way, the entries
beside the way are found as before (`find_set_of_ne`), and so are the folders behind it
(`Entry.HasFolder.set`).
-/

set_option autoImplicit false
set_option relaxedAutoImplicit false

namespace MarkupBinding

namespace Entry

/-- The time and the bytes of the file at the end of a way. -/
def file? (e : Entry) (way : List FileName) : Option (Int × List UInt8) :=
  match e.find way with
  | .ok (file time bytes) => some (time, bytes)
  | _ => none

/-- A way leads to a folder. -/
def HasFolder (e : Entry) (way : List FileName) : Prop :=
  ∃ time entries, e.find way = .ok (folder time entries)

/-- All files and folders stay: a file with its time and bytes, a folder as some folder. -/
structure Kept (e e' : Entry) : Prop where
  files : ∀ {way : List FileName} {content : Int × List UInt8},
    e.file? way = some content → e'.file? way = some content
  folders : ∀ {way : List FileName}, e.HasFolder way → e'.HasFolder way

theorem Kept.refl (e : Entry) : e.Kept e :=
  ⟨id, id⟩

theorem Kept.trans {e f g : Entry} (hf : e.Kept f) (hg : f.Kept g) : e.Kept g :=
  ⟨fun h ↦ hg.files (hf.files h), fun h ↦ hg.folders (hf.folders h)⟩

/-! ### Names among entries -/

/-- A name under which something is found has no null byte. -/
theorem not_null_of_lookUp {name : FileName} {entries : List (FileName × Entry)} {e : Entry}
    (h : lookUp name entries = .ok (some e)) : 0 ∉ name.bytes := by
  intro hnull
  rw [lookUp, if_pos (List.contains_iff_mem.2 hnull)] at h
  cases h

/-- What is set under a name is found under it. -/
theorem lookUp_set_self {name : FileName} {entries : List (FileName × Entry)} {there : Option Entry}
    (h : lookUp name entries = .ok there) (hname : 0 ∉ name.bytes) (e : Entry) :
    lookUp name (Keyed.set name e entries) = .ok (some e) := by
  rw [lookUp, if_neg (mt List.contains_iff_mem.1 hname)] at h ⊢
  split at h
  · cases h
  · next hshort => rw [if_neg hshort, Keyed.lookup_set_self]

/-- Under other names the same is found. -/
theorem lookUp_set_of_ne {name other : FileName} (h : other ≠ name) (e : Entry)
    (entries : List (FileName × Entry)) :
    lookUp other (Keyed.set name e entries) = lookUp other entries := by
  rw [lookUp, lookUp, Keyed.lookup_set_of_ne h]

/-- A way into a folder goes on in what is found under its first name. -/
theorem find_folder_cons (name : FileName) (rest : List FileName) (time : Int)
    (entries : List (FileName × Entry)) :
    (folder time entries).find (name :: rest) =
      match lookUp name entries with
      | .error fault => .error fault
      | .ok none => .error .absent
      | .ok (some e) => e.find rest := rfl

/-- The way through a name that was set leads into what was set. -/
theorem find_set_self {name : FileName} {entries : List (FileName × Entry)} {there : Option Entry}
    (h : lookUp name entries = .ok there) (hname : 0 ∉ name.bytes) (time : Int) (e : Entry)
    (rest : List FileName) :
    (folder time (Keyed.set name e entries)).find (name :: rest) = e.find rest := by
  rw [find_folder_cons, lookUp_set_self h hname]

/-- Ways through other names lead where they led. -/
theorem find_set_of_ne {name other : FileName} (h : other ≠ name) (time : Int) (e : Entry)
    (entries : List (FileName × Entry)) (rest : List FileName) :
    (folder time (Keyed.set name e entries)).find (other :: rest) =
      (folder time entries).find (other :: rest) := by
  rw [find_folder_cons, find_folder_cons, lookUp_set_of_ne h]

/-- The way through a name leads into what is found under it. -/
theorem find_of_lookUp {name : FileName} {entries : List (FileName × Entry)} {e : Entry}
    (h : lookUp name entries = .ok (some e)) (time : Int) (rest : List FileName) :
    (folder time entries).find (name :: rest) = e.find rest := by
  rw [find_folder_cons, h]

/-- The way through a name under which nothing is leads nowhere. -/
theorem find_of_lookUp_none {name : FileName} {entries : List (FileName × Entry)}
    (h : lookUp name entries = .ok none) (time : Int) (rest : List FileName) :
    (folder time entries).find (name :: rest) = .error .absent := by
  rw [find_folder_cons, h]

/-- A name with a null byte is never found, whatever is set under it. -/
theorem find_of_null {name : FileName} (hname : 0 ∈ name.bytes) (time : Int)
    (entries : List (FileName × Entry)) (rest : List FileName) :
    (folder time entries).find (name :: rest) = .error .absent := by
  rw [find_folder_cons, lookUp, if_pos (List.contains_iff_mem.2 hname)]

/-- No file is in an empty folder. -/
theorem file?_empty (time : Int) (way : List FileName) : (folder time []).file? way = none := by
  rcases way with - | ⟨name, rest⟩
  · rfl
  · rw [file?, find_folder_cons]
    by_cases hname : name.bytes.contains 0 = true
    · rw [lookUp, if_pos hname]
    · by_cases hlong : nameLimit < name.bytes.length
      · rw [lookUp, if_neg hname, if_pos hlong]
      · rw [lookUp, if_neg hname, if_neg hlong, List.lookup_nil]

/-! ### Folders behind a name -/

/-- No way through a file leads to a folder. -/
theorem not_hasFolder_file (time : Int) (bytes : List UInt8) (way : List FileName) :
    ¬ (file time bytes).HasFolder way := by
  rintro ⟨_, _, hfind⟩
  cases way <;> cases hfind

/-- Setting a name takes no folder away if what was there loses none. -/
theorem HasFolder.set {name : FileName} {way : List FileName} {time : Int} {child : Entry}
    {entries : List (FileName × Entry)} {there : Option Entry}
    (hthere : lookUp name entries = .ok there)
    (hchild : ∀ old, there = some old → ∀ rest, old.HasFolder rest → child.HasFolder rest)
    (h : (folder time entries).HasFolder way) :
    (folder time (Keyed.set name child entries)).HasFolder way := by
  rcases way with - | ⟨part, more⟩
  · exact ⟨time, _, rfl⟩
  by_cases hpart : part = name
  · subst hpart
    cases there with
    | none =>
      obtain ⟨_, _, hfind⟩ := h
      rw [find_of_lookUp_none hthere] at hfind
      cases hfind
    | some old =>
      unfold HasFolder at h ⊢
      rw [find_of_lookUp hthere] at h
      rw [find_set_self hthere (not_null_of_lookUp hthere)]
      exact hchild old rfl more h
  · unfold HasFolder
    rw [find_set_of_ne hpart]
    exact h

/-! ### Making folders -/

/-- Making folders changes no file and leaves all folders. -/
theorem makeFolders_spec {way : List FileName} {e e' : Entry} (h : makeFolders way e = .ok e') :
    (∀ other, e'.file? other = e.file? other) ∧
      ∀ other, e.HasFolder other → e'.HasFolder other := by
  induction way generalizing e e' with
  | nil =>
    rcases e with ⟨time, bytes⟩ | ⟨time, entries⟩
    · cases h
    · cases h
      exact ⟨fun _ ↦ rfl, fun _ ↦ id⟩
  | cons name rest ih =>
    rcases e with ⟨time, bytes⟩ | ⟨time, entries⟩
    · cases h
    rw [makeFolders] at h
    split at h
    · cases h
    next there hthere =>
    rcases hmade : makeFolders rest (there.getD (folder 0 [])) with fault | child
    · rw [hmade] at h
      cases h
    rw [hmade] at h
    cases h
    obtain ⟨hfiles, hfolders⟩ := ih hmade
    constructor
    · rintro (- | ⟨part, more⟩)
      · rfl
      by_cases hpart : part = name
      · subst hpart
        -- A name with a null byte is set but never found, so nothing changes for its ways.
        by_cases hname : 0 ∈ part.bytes
        · rw [file?, file?, find_of_null hname, find_of_null hname]
        · rw [file?, find_set_self hthere hname, ← file?, hfiles]
          rcases there with - | there
          · rw [Option.getD_none, file?_empty, file?, find_of_lookUp_none hthere]
          · rw [Option.getD_some, file?, file?, find_of_lookUp hthere]
      · rw [file?, file?, find_set_of_ne hpart]
    · refine fun other ↦ HasFolder.set hthere fun old hold ↦ ?_
      subst hold
      exact hfolders

/-! ### Putting a file -/

/-- A file put into a folder under a name that is free. -/
theorem putFile_here {time time' : Int} {bytes : List UInt8} {name : FileName}
    {entries : List (FileName × Entry)} (hthere : lookUp name entries = .ok none)
    (hname : 0 ∉ name.bytes) :
    (∀ other, (folder time' (Keyed.set name (file time bytes) entries)).file? other =
      if other = [name] then some (time, bytes) else (folder time' entries).file? other) ∧
      ∀ other, (folder time' entries).HasFolder other →
        (folder time' (Keyed.set name (file time bytes) entries)).HasFolder other := by
  constructor
  · rintro (- | ⟨part, more⟩)
    · rfl
    by_cases hpart : part = name
    · subst hpart
      rw [file?, find_set_self hthere hname, file?, find_of_lookUp_none hthere]
      rcases more with - | ⟨next, more⟩
      · rw [if_pos rfl, find]
      · rw [if_neg (by simp), find]
    · rw [file?, file?, find_set_of_ne hpart, if_neg fun h ↦ hpart (List.cons.inj h).1]
  · exact fun other ↦ HasFolder.set hthere fun old hold ↦ by cases hold

/-- Putting a file where nothing is adds that file, changes no other and leaves all folders. -/
theorem putFile_spec {time : Int} {bytes : List UInt8} {way : List FileName} {name : FileName}
    {e e' : Entry} (h : changeAt (putFile time bytes) (way ++ [name]) e = .ok e')
    (hname : 0 ∉ name.bytes) (hfree : ∀ x, e.find (way ++ [name]) ≠ .ok x) :
    (∀ other, e'.file? other =
      if other = way ++ [name] then some (time, bytes) else e.file? other) ∧
      ∀ other, e.HasFolder other → e'.HasFolder other := by
  induction way generalizing e e' with
  | nil =>
    rcases e with ⟨time', bytes'⟩ | ⟨time', entries⟩
    · cases h
    rw [List.nil_append, changeAt] at h
    split at h
    · cases h
    · next there hthere =>
      cases there with
      | none =>
        cases h
        exact putFile_here hthere hname
      | some there => exact absurd (find_of_lookUp hthere time' []) (hfree there)
  | cons part rest ih =>
    rcases e with ⟨time', bytes'⟩ | ⟨time', entries⟩
    · cases h
    rw [List.cons_append, changeAt] at h
    · split at h
      · cases h
      · cases h
      · next there hthere =>
        rcases hput : changeAt (putFile time bytes) (rest ++ [name]) there with fault | child
        · rw [hput] at h
          cases h
        rw [hput] at h
        cases h
        have hself := find_set_self hthere (not_null_of_lookUp hthere) time' child
        obtain ⟨hfiles, hfolders⟩ := ih hput fun x hx ↦
          hfree x (by rw [List.cons_append, find_of_lookUp hthere, hx])
        constructor
        · rintro (- | ⟨first, more⟩)
          · rfl
          by_cases hfirst : first = part
          · subst hfirst
            rw [file?, hself, ← file?, hfiles, file?, file?, find_of_lookUp hthere]
            simp only [List.cons_append, List.cons.injEq, true_and]
          · rw [file?, file?, find_set_of_ne hfirst, List.cons_append,
              if_neg fun h ↦ hfirst (List.cons.inj h).1]
        · refine fun other ↦ HasFolder.set hthere fun old hold ↦ ?_
          obtain rfl := Option.some.inj hold
          exact hfolders
    · simp

end Entry

namespace FileTree

/-- All files and folders stay, and the folder one is in. -/
structure Kept (t t' : FileTree) : Prop where
  folder : t'.folder = t.folder
  top : t.top.Kept t'.top

theorem Kept.refl (t : FileTree) : t.Kept t :=
  ⟨rfl, .refl _⟩

theorem Kept.trans {t t' t'' : FileTree} (h : t.Kept t') (h' : t'.Kept t'') : t.Kept t'' :=
  ⟨h'.folder.trans h.folder, h.top.trans h'.top⟩

/-- A way behind which every double dot takes back a folder is followed as before where folders
stay.
-/
theorem followFrom_of_folders {e e' : Entry} (h : ∀ way, e.HasFolder way → e'.HasFolder way)
    {gone parts way : List FileName} (hway : followFrom e gone parts = .ok way) :
    followFrom e' gone parts = .ok way := by
  induction parts generalizing gone with
  | nil => exact hway
  | cons part rest ih =>
    rw [followFrom] at hway ⊢
    split at hway
    · next habove =>
      rw [if_pos habove]
      split at hway
      · cases hway
      · cases hway
      · next hfind =>
        obtain ⟨_, _, hfind'⟩ := h gone ⟨_, _, hfind⟩
        rw [hfind']
        exact ih hway
    · next habove =>
      rw [if_neg habove]
      exact ih hway

/-- A location leads where it led. -/
theorem Kept.wayTo {t t' : FileTree} (h : t.Kept t') {l : Location} {way : List FileName}
    (hway : t.wayTo l = .ok way) : t'.wayTo l = .ok way := by
  rw [FileTree.wayTo, h.folder]
  exact followFrom_of_folders (fun _ ↦ h.top.folders) hway

/-- The bytes of a file at a location, by the way to it. -/
theorem read_eq_ok_iff {t : FileTree} {l : Location} {bytes : List UInt8} :
    t.read l = .ok bytes ↔
      ∃ way time, t.wayTo l = .ok way ∧ t.top.file? way = some (time, bytes) := by
  rw [read, find]
  constructor
  · intro h
    split at h
    · cases h
    · cases h
    · next time _ hfind =>
      cases h
      split at hfind
      · cases hfind
      · next way hway => exact ⟨way, time, hway, by rw [Entry.file?, hfind]⟩
  · rintro ⟨way, time, hway, hfile⟩
    rw [hway]
    rw [Entry.file?] at hfile
    split at hfile
    · next hfind =>
      cases hfile
      simp only [hfind]
    · cases hfile

/-- A file is read as before. -/
theorem Kept.read {t t' : FileTree} (h : t.Kept t') {l : Location} {bytes : List UInt8}
    (hread : t.read l = .ok bytes) : t'.read l = .ok bytes := by
  obtain ⟨way, time, hway, hfile⟩ := read_eq_ok_iff.1 hread
  exact read_eq_ok_iff.2 ⟨way, time, h.wayTo hway, h.top.files hfile⟩

/-- Something is at a location where its way leads to something. -/
theorem has_eq_true_iff {t : FileTree} {l : Location} :
    t.has l = true ↔ ∃ way e, t.wayTo l = .ok way ∧ t.top.find way = .ok e := by
  rw [has, find]
  constructor
  · intro h
    split at h
    · next e hfind =>
      split at hfind
      · cases hfind
      · next way hway => exact ⟨way, e, hway, hfind⟩
    · cases h
  · rintro ⟨way, e, hway, hfind⟩
    simp only [hway, hfind]

/-- What was somewhere is still there. -/
theorem Kept.has {t t' : FileTree} (h : t.Kept t') {l : Location} (hhas : t.has l = true) :
    t'.has l = true := by
  obtain ⟨way, e, hway, hfind⟩ := has_eq_true_iff.1 hhas
  rcases e with ⟨time, bytes⟩ | ⟨time, entries⟩
  · have hfile : t'.top.file? way = some (time, bytes) := h.top.files (by rw [Entry.file?, hfind])
    rw [Entry.file?] at hfile
    split at hfile
    · next hfind' => exact has_eq_true_iff.2 ⟨way, _, h.wayTo hway, hfind'⟩
    · cases hfile
  · obtain ⟨_, _, hfind'⟩ := h.top.folders ⟨time, entries, hfind⟩
    exact has_eq_true_iff.2 ⟨way, _, h.wayTo hway, hfind'⟩

/-- A last part that is no double dot is the last part of the way. -/
theorem followFrom_append {e : Entry} {name : FileName} (hname : name ≠ Location.above)
    (gone parts : List FileName) :
    followFrom e gone (parts ++ [name]) = (followFrom e gone parts).map (· ++ [name]) := by
  induction parts generalizing gone with
  | nil =>
    simp only [List.nil_append, followFrom, beq_iff_eq, hname, if_false, Except.map]
  | cons part rest ih =>
    rw [List.cons_append, followFrom, followFrom]
    split
    · split
      · rfl
      · rfl
      · exact ih _
    · exact ih _

/-- The way to something in a folder, by the name that it has there. -/
theorem wayTo_child {name : FileName} (hname : Location.IsEntryName name) (t : FileTree)
    (l : Location) : t.wayTo (l.child name) = (t.wayTo l).map (· ++ [name]) := by
  rw [Location.child_of_leadsOn hname.1]
  exact followFrom_append hname.2 _ _

end FileTree

end MarkupBinding
