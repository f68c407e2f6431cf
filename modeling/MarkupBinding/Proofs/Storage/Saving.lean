import MarkupBinding.Storage.FormStore
import MarkupBinding.Proofs.Storage.Files

/-!
# Saving adds one file

Saving a text either fails and changes no file, or adds one file under a name that was free and
changes no other (`FormStore.save_cases`). The name is the first of the supply that is free, however
often taken names come before it (`firstFree_eq_some`), and for want of a name saving fails only if
all are taken (`firstFree_eq_none_iff`). The folder of the store may have to be made first, so
"free" is carried back from the tree with the folder to the tree before it: whatever was there still
is.
-/

set_option autoImplicit false
set_option relaxedAutoImplicit false

namespace MarkupBinding

namespace FileTree

/-- Each file of either tree is in the other, with its time and bytes. -/
def SameFiles (t t' : FileTree) : Prop :=
  ∀ way, t'.top.file? way = t.top.file? way

/-- The second tree has one file more, at a location where nothing was, and the same files
elsewhere. -/
def AddsFile (t t' : FileTree) (l : Location) (time : Int) (bytes : List UInt8) : Prop :=
  t.has l = false ∧ ∃ way, t'.wayTo l = .ok way ∧
    ∀ other, t'.top.file? other = if other = way then some (time, bytes) else t.top.file? other

/-- The file that was added is read with its bytes. -/
theorem AddsFile.read {t t' : FileTree} {l : Location} {time : Int} {bytes : List UInt8}
    (h : t.AddsFile t' l time bytes) : t'.read l = .ok bytes := by
  obtain ⟨-, way, hway, hfiles⟩ := h
  exact read_eq_ok_iff.2 ⟨way, time, hway, by rw [hfiles, if_pos rfl]⟩

/-- The top of a tree is changed on the way to a location. -/
theorem change_eq_ok {t t' : FileTree} {l : Location}
    {f : List FileName → Entry → Except PathFault Entry} (h : t.change l f = .ok t') :
    ∃ way top, t.wayTo l = .ok way ∧ f way t.top = .ok top ∧ t' = { t with top := top } := by
  rw [change] at h
  split at h
  · cases h
  · next way hway =>
    rcases hf : f way t.top with fault | top
    · rw [hf] at h
      cases h
    · rw [hf] at h
      cases h
      exact ⟨way, top, hway, hf, rfl⟩

/-- Making a folder changes no file. -/
theorem makeFolders_same {t t' : FileTree} {l : Location} (h : t.makeFolders l = .ok t') :
    t.SameFiles t' ∧ t.Kept t' := by
  obtain ⟨way, top, -, hmade, rfl⟩ := change_eq_ok h
  obtain ⟨hfiles, hfolders⟩ := Entry.makeFolders_spec hmade
  exact ⟨hfiles, rfl, fun hfile ↦ (hfiles _).trans hfile, fun {way} ↦ hfolders way⟩

/-- Writing where nothing is adds a file to a folder. -/
theorem write_adds {t t' : FileTree} {l : Location} {name : FileName} {time : Int}
    {bytes : List UInt8} (hname : Location.IsEntryName name) (hnull : 0 ∉ name.bytes)
    (hfree : t.has (l.child name) = false) (h : t.write (l.child name) time bytes = .ok t') :
    t.AddsFile t' (l.child name) time bytes ∧ t.Kept t' := by
  obtain ⟨way, top, hway, hput, rfl⟩ := change_eq_ok h
  have hnone : ∀ x, t.top.find way ≠ .ok x := fun x hx ↦
    Bool.false_ne_true (hfree.symm.trans (has_eq_true_iff.2 ⟨way, x, hway, hx⟩))
  obtain ⟨front, rfl⟩ : ∃ front, way = front ++ [name] := by
    rw [wayTo_child hname] at hway
    rcases hfront : t.wayTo l with fault | front
    · rw [hfront] at hway
      cases hway
    · rw [hfront] at hway
      cases hway
      exact ⟨front, rfl⟩
  obtain ⟨hfiles, hfolders⟩ := Entry.putFile_spec hput hnull hnone
  -- The file that is new was none before, so no file that was there is the new one.
  have hkept : t.Kept { t with top := top } := by
    refine ⟨rfl, fun {other content} hfile ↦ ?_, fun {other} ↦ hfolders other⟩
    rw [hfiles, if_neg]
    · exact hfile
    · rintro rfl
      rw [Entry.file?] at hfile
      split at hfile
      · next hfind => exact hnone _ hfind
      · cases hfile
  exact ⟨⟨hfree, front ++ [name], hkept.wayTo hway, hfiles⟩, hkept⟩

end FileTree

namespace FormStore

/-! ### Names of saved inputs -/

/-- Eight hexadecimal digits. -/
def isId (id : String) : Bool :=
  id.toList.length == 8 && id.toList.all fun c ↦ (Text.hexValue? c).isSome

theorem toList_fileName (id : String) :
    (fileName id).toList = id.toList ++ ['.', 'j', 's', 'o', 'n'] := by
  rw [fileName, String.toList_append]
  rfl

/-- A name is eight digits and the suffix. -/
theorem length_fileName {id : String} (hid : isId id = true) :
    (fileName id).toList.length = 13 := by
  simp only [isId, Bool.and_eq_true, beq_iff_eq] at hid
  rw [toList_fileName, List.length_append, hid.1]
  rfl

/-- A character that is no digit is not in an identifier. -/
theorem not_mem_of_isId {id : String} (hid : isId id = true) {c : Char}
    (hc : Text.hexValue? c = none) : c ∉ id.toList := by
  intro hmem
  simp only [isId, Bool.and_eq_true, List.all_eq_true] at hid
  have hsome := hid.2 c hmem
  rw [hc] at hsome
  cases hsome

/-- A character that is neither a digit nor in the suffix is not in a name. -/
theorem not_mem_fileName {id : String} (hid : isId id = true) {c : Char}
    (hc : Text.hexValue? c = none) (hsuffix : c ∉ ['.', 'j', 's', 'o', 'n']) :
    c ∉ (fileName id).toList := by
  rw [toList_fileName, List.mem_append, not_or]
  exact ⟨not_mem_of_isId hid hc, hsuffix⟩

theorem contains_fileName_eq_false {id : String} (hid : isId id = true) {c : Char}
    (hc : Text.hexValue? c = none) (hsuffix : c ∉ ['.', 'j', 's', 'o', 'n']) :
    (fileName id).toList.contains c = false :=
  Bool.eq_false_iff.2 (mt List.contains_iff_mem.1 (not_mem_fileName hid hc hsuffix))

theorem isEmpty_fileName (id : String) : (fileName id).toList.isEmpty = false := by
  rw [toList_fileName]
  exact List.isEmpty_eq_false_iff.2 (by simp)

/-- A name is none of a shorter text. -/
theorem fileName_ne {id other : String} (hid : isId id = true) (hother : other.toList.length < 13) :
    fileName id ≠ other := by
  rintro rfl
  exact absurd (length_fileName hid) (Nat.ne_of_lt hother)

/-- What ends in the suffix is the name of an entry. -/
theorem isEntryName_fileName (id : String) : Location.IsEntryName (fileName id) := by
  have hlong : ∀ other : String, other.toList.length < 5 → fileName id ≠ other := by
    rintro other hother rfl
    rw [toList_fileName, List.length_append] at hother
    exact absurd hother (by simp)
  exact Location.isEntryName_ofText_iff.2
    ⟨hlong _ (by decide), hlong _ (by decide), hlong _ (by decide)⟩

/-- Two dots are not in a text with a single dot. -/
theorem occursIn_dots_of_not_mem {cs : List Char} (h : '.' ∉ cs) :
    Text.occursIn ['.', '.'] (cs ++ ['.', 'j', 's', 'o', 'n']) = false := by
  induction cs with
  | nil => rfl
  | cons c rest ih =>
    obtain ⟨hc, hrest⟩ := not_or.1 (mt List.mem_cons.2 h)
    rw [List.cons_append, Text.occursIn, ih hrest, Text.startsWith, beq_false_of_ne hc]
    rfl

/-- The name of a saved input does not lead out of the folder. -/
theorem isBadName_fileName {id : String} (hid : isId id = true) :
    isBadName (fileName id) = false := by
  have hslash : (fileName id).toList.contains '/' = false :=
    contains_fileName_eq_false hid rfl (by decide)
  have hback : (fileName id).toList.contains '\\' = false :=
    contains_fileName_eq_false hid rfl (by decide)
  have hdots : Text.occursIn "..".toList (fileName id).toList = false := by
    rw [toList_fileName]
    exact occursIn_dots_of_not_mem (not_mem_of_isId hid rfl)
  simp only [isBadName, FileName.shown_ofText, isEmpty_fileName, hdots, hslash, hback,
    Bool.or_false]

/-! ### The supply of identifiers -/

/-- The first identifier that passes comes behind those that do not. -/
theorem firstFree_eq_some {free : String → Bool} {ids rest : List String} {id : String}
    (h : firstFree free ids = some (id, rest)) :
    free id = true ∧ ∃ taken, ids = taken ++ id :: rest ∧ ∀ other ∈ taken, free other = false := by
  induction ids with
  | nil => cases h
  | cons first ids ih =>
    rw [firstFree] at h
    split at h
    · next hfirst =>
      cases h
      exact ⟨hfirst, [], rfl, by simp⟩
    · next hfirst =>
      obtain ⟨hid, taken, rfl, htaken⟩ := ih h
      refine ⟨hid, first :: taken, rfl, ?_⟩
      rintro other (- | ⟨_, hother⟩)
      · exact Bool.eq_false_iff.2 hfirst
      · exact htaken other hother

/-- Looking for a free identifier ends without one only where the supply holds none. -/
theorem firstFree_eq_none_iff {free : String → Bool} {ids : List String} :
    firstFree free ids = none ↔ ∀ id ∈ ids, free id = false := by
  induction ids with
  | nil => simp [firstFree]
  | cons first ids ih =>
    rw [firstFree, List.forall_mem_cons]
    split
    · next hfirst => simp [hfirst]
    · next hfirst => simp [ih, hfirst]

/-! ### Saving -/

/-- The folder of a store is made without changing a file. -/
theorem ensureFolder_same {s : FormStore} {t t' : FileTree} (h : s.ensureFolder t = .ok t') :
    t.SameFiles t' ∧ t.Kept t' := by
  rw [ensureFolder] at h
  split at h
  · cases h
    exact ⟨fun _ ↦ rfl, .refl t⟩
  · exact FileTree.makeFolders_same h

/-- What saving a text comes to. No file or folder goes, and the supply loses identifiers at its
front only. Either saving fails and no file changes; for want of a name it fails only if everything
in the supply is taken. Or one file is added, under the first identifier of the supply that is not
taken. -/
theorem save_cases {s : FormStore} {t : FileTree} {time : Int} {ids : List String}
    (hids : ∀ id ∈ ids, isId id = true) {content : String} {saving : Saving}
    (h : s.save t time ids content = saving) :
    t.Kept saving.tree ∧ saving.ids <:+ ids ∧
      ((∃ fault, saving.result = .error fault ∧ t.SameFiles saving.tree ∧
          (fault = .noFreeName →
            ∀ id ∈ ids, saving.tree.has (s.folder.child (fileName id)) = true)) ∨
        ∃ taken id, ids = taken ++ id :: saving.ids ∧ saving.result = .ok (fileName id) ∧
          (∀ other ∈ taken, saving.tree.has (s.folder.child (fileName other)) = true) ∧
          t.AddsFile saving.tree (s.folder.child (fileName id)) time
            (Text.utf8Encode content)) := by
  subst h
  rw [save]
  split
  · exact ⟨.refl t, List.suffix_rfl, .inl ⟨_, rfl, fun _ ↦ rfl, fun h ↦ by cases h⟩⟩
  next made hmade =>
  obtain ⟨hsame, hkept⟩ := ensureFolder_same hmade
  split
  · next hnone =>
    refine ⟨hkept, List.nil_suffix, .inl ⟨_, rfl, hsame, fun _ id hid ↦ ?_⟩⟩
    simpa using firstFree_eq_none_iff.1 hnone id hid
  next id rest hfirst =>
  obtain ⟨hfree, taken, rfl, htaken⟩ := firstFree_eq_some hfirst
  have hnull : 0 ∉ (FileName.ofText (fileName id)).bytes :=
    mt FileName.zero_mem_ofText_iff.1 (not_mem_fileName (hids id (by simp)) rfl (by decide))
  have hsuffix : rest <:+ taken ++ id :: rest := ⟨taken ++ [id], by simp⟩
  dsimp only
  split
  · exact ⟨hkept, hsuffix, .inl ⟨_, rfl, hsame, fun h ↦ by cases h⟩⟩
  next written hwritten =>
  obtain ⟨⟨-, way, hway, hfiles⟩, hkept'⟩ := FileTree.write_adds (isEntryName_fileName id) hnull
    (by simpa using hfree) hwritten
  -- Nothing was there before the folder was made either: whatever was there would still be.
  refine ⟨hkept.trans hkept', hsuffix, .inr ⟨taken, id, rfl, rfl, fun other hother ↦ ?_,
    ?_, way, hway, fun other ↦ ?_⟩⟩
  · exact hkept'.has (by simpa using htaken other hother)
  · exact Bool.eq_false_iff.2 fun hhas ↦ by simp [hkept.has hhas] at hfree
  · rw [hfiles, hsame]

end FormStore

end MarkupBinding
