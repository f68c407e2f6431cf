import MarkupBinding.Proofs.Storage.Saving

/-!
# Loading stays in one folder

A name is refused exactly when it is empty or holds two dots in a row, a slash or a backslash
(`FormStore.load_eq_badName_iff`); the name of the input saved last is never refused. Whatever other
name is given, the bytes that are read are those of a file directly in the folder of the store
(`FormStore.hasFile_of_bytesOf`), unless the name is a single dot and a file stands in the place of
the folder: the dot is no part of a location, so it is that file which is read
(`FormStore.load_of_isFile`).

That nothing else is opened is a statement about two trees. `FormStore.view` is what the store is to
see of a tree: the entries of its folder, a file with its time and bytes, a folder without what is
in it. Trees with one view give the same text or the same fault for every name, but for the dot
where it leads to a file (`FormStore.load_congr`), so no byte of any other file has a part in what
is loaded.
-/

set_option autoImplicit false
set_option relaxedAutoImplicit false

namespace MarkupBinding

namespace Text

theorem startsWith_eq_true_iff {needle cs : List Char} :
    startsWith needle cs = true ↔ needle <+: cs := by
  induction needle generalizing cs with
  | nil => simp [startsWith]
  | cons p needle ih =>
    cases cs with
    | nil => simp [startsWith]
    | cons c cs => simp [startsWith, ih, List.cons_prefix_cons]

/-- Occurring anywhere is being a part without gaps. -/
theorem occursIn_eq_true_iff {needle cs : List Char} :
    occursIn needle cs = true ↔ needle <:+: cs := by
  induction cs with
  | nil => simp [occursIn]
  | cons c cs ih =>
    rw [occursIn, Bool.or_eq_true, startsWith_eq_true_iff, ih, List.infix_cons_iff]

end Text

namespace Entry

/-- An entry without what is in it, if it is a folder. -/
def shallow : Entry → Entry
  | file time bytes => file time bytes
  | folder time _ => folder time []

/-- Entries without what is in the folders among them. -/
def shallowAll (entries : List (FileName × Entry)) : List (FileName × Entry) :=
  entries.map fun entry ↦ (entry.1, entry.2.shallow)

@[simp] theorem shallow_file (time : Int) (bytes : List UInt8) :
    (file time bytes).shallow = file time bytes := rfl

@[simp] theorem shallow_folder (time : Int) (entries : List (FileName × Entry)) :
    (folder time entries).shallow = folder time [] := rfl

theorem lookup_shallowAll (name : FileName) (entries : List (FileName × Entry)) :
    (shallowAll entries).lookup name = (entries.lookup name).map shallow := by
  induction entries with
  | nil => rfl
  | cons entry rest ih =>
    unfold shallowAll at ih ⊢
    rw [List.map_cons, List.lookup_cons, List.lookup_cons]
    cases name == entry.1
    · exact ih
    · rfl

/-- A name leads to the same entry, but for what is in a folder. -/
theorem lookUp_shallowAll (name : FileName) (entries : List (FileName × Entry)) :
    lookUp name (shallowAll entries) = (lookUp name entries).map (Option.map shallow) := by
  unfold lookUp
  rw [lookup_shallowAll]
  by_cases hnull : name.bytes.contains 0 = true
  · rw [if_pos hnull, if_pos hnull]
    rfl
  · rw [if_neg hnull, if_neg hnull]
    by_cases hlong : nameLimit < name.bytes.length
    · rw [if_pos hlong, if_pos hlong]
      rfl
    · rw [if_neg hlong, if_neg hlong]
      rfl

/-- What is found under a name is among the entries. -/
theorem mem_of_lookUp {name : FileName} {entries : List (FileName × Entry)} {e : Entry}
    (h : lookUp name entries = .ok (some e)) : (name, e) ∈ entries := by
  unfold lookUp at h
  split at h
  · cases h
  · split at h
    · cases h
    · exact Keyed.mem_of_lookup (Except.ok.inj h)

/-- The way through one name more. -/
theorem find_append_singleton (name : FileName) (way : List FileName) (e : Entry) :
    e.find (way ++ [name]) =
      match e.find way with
      | .error fault => .error fault
      | .ok e => e.find [name] := by
  induction way generalizing e with
  | nil => rfl
  | cons part way ih =>
    rcases e with ⟨time, bytes⟩ | ⟨time, entries⟩
    · rfl
    · rw [List.cons_append, find, find]
      rcases lookUp part entries with fault | - | inner
      · rfl
      · rfl
      · exact ih inner

end Entry

namespace FormStore

variable {s : FormStore} {t t' : FileTree} {name : FileName}

/-! ### Names that are refused -/

/-- A name that is empty or might lead to another folder. -/
def MayLeave (name : String) : Prop :=
  name = "" ∨ ['.', '.'] <:+: name.toList ∨ '/' ∈ name.toList ∨ '\\' ∈ name.toList

theorem isBadName_eq_true_iff : isBadName name = true ↔ MayLeave name.shown := by
  have hempty : name.shown.toList.isEmpty = true ↔ name.shown = "" := by
    rw [List.isEmpty_iff, String.toList_eq_nil_iff]
  have hdots : "..".toList = ['.', '.'] := rfl
  unfold isBadName MayLeave
  simp only [Bool.or_eq_true, hempty, hdots, Text.occursIn_eq_true_iff, List.contains_iff_mem,
    or_assoc]

/-- The name of the input saved last gives the newest input. -/
theorem bytesOf_latestName :
    s.bytesOf t latestName =
      match s.saved t with
      | .error fault => .error (.unreachable fault)
      | .ok files =>
        match newest files with
        | none => .error .noneSaved
        | some f => .ok f.2.2 := by
  unfold bytesOf
  exact if_pos (beq_self_eq_true latestName)

/-- Any other name is refused if it may lead out. -/
theorem bytesOf_of_mayLeave (hname : name ≠ latestName) (hleave : MayLeave name.shown) :
    s.bytesOf t name = .error (.badName name) := by
  unfold bytesOf
  rw [beq_false_of_ne hname, if_neg (by decide), if_pos (isBadName_eq_true_iff.2 hleave)]

/-- A name that may not lead out is looked up in the folder of the store. -/
theorem bytesOf_of_not_mayLeave (hname : name ≠ latestName) (hstay : ¬ MayLeave name.shown) :
    s.bytesOf t name =
      match t.find (s.folder.child name) with
      | .ok (.file _ bytes) => .ok bytes
      | .error .nameTooLong => .error (.unreachable .nameTooLong)
      | _ => .error (.unknown name) := by
  have hother : ¬ (name == latestName) = true := mt eq_of_beq hname
  unfold bytesOf
  exact (if_neg hother).trans (if_neg (mt isBadName_eq_true_iff.1 hstay))

theorem bytesOf_eq_badName_iff {bad : FileName} :
    s.bytesOf t name = .error (.badName bad) ↔
      bad = name ∧ name ≠ latestName ∧ MayLeave name.shown := by
  by_cases hlatest : name = latestName
  · subst hlatest
    rw [bytesOf_latestName]
    refine ⟨fun h ↦ ?_, fun h ↦ absurd rfl h.2.1⟩
    split at h
    · cases h
    · split at h <;> cases h
  · by_cases hleave : MayLeave name.shown
    · rw [bytesOf_of_mayLeave hlatest hleave]
      constructor
      · intro h
        cases h
        exact ⟨rfl, hlatest, hleave⟩
      · rintro ⟨rfl, -⟩
        rfl
    · rw [bytesOf_of_not_mayLeave hlatest hleave]
      refine ⟨fun h ↦ ?_, fun h ↦ absurd h.2.2 hleave⟩
      split at h <;> cases h

/-- A name is refused as one that might lead out of the folder exactly when it is not the name of
the input saved last and may lead out; the fault holds the name. -/
theorem load_eq_badName_iff {bad : FileName} :
    s.load t name = .error (.badName bad) ↔
      bad = name ∧ name ≠ latestName ∧ MayLeave name.shown := by
  rw [← bytesOf_eq_badName_iff (s := s) (t := t)]
  unfold load
  cases s.bytesOf t name with
  | error fault => simp
  | ok bytes =>
    -- bytes that are no text are another fault
    refine ⟨fun h ↦ ?_, fun h ↦ by cases h⟩
    change (Text.Encoding.utf8.read bytes).mapError _ = _ at h
    cases hread : Text.Encoding.utf8.read bytes with
    | error e => rw [hread] at h; cases h
    | ok text => rw [hread] at h; cases h

/-! ### What is read -/

/-- The file is directly in the folder of the store. -/
def HasFile (s : FormStore) (t : FileTree) (name : FileName) (time : Int) (bytes : List UInt8) :
    Prop :=
  ∃ made entries, t.find s.folder = .ok (.folder made entries) ∧
    (name, Entry.file time bytes) ∈ entries

theorem mem_of_mem_inputs {entries : List (FileName × Entry)} {f : FileName × Int × List UInt8}
    (h : f ∈ inputs entries) : (f.1, Entry.file f.2.1 f.2.2) ∈ entries := by
  fun_induction inputs entries with
  | case1 => cases h
  | case2 name time bytes rest hname ih =>
    rcases List.mem_cons.1 h with rfl | hrest
    · exact List.mem_cons_self
    · exact List.mem_cons_of_mem _ (ih hrest)
  | case3 name time bytes rest hname ih => exact List.mem_cons_of_mem _ (ih h)
  | case4 name time inner rest ih => exact List.mem_cons_of_mem _ (ih h)

theorem mem_of_newest {files : List (FileName × Int × List UInt8)} {f : FileName × Int × List UInt8}
    (h : newest files = some f) : f ∈ files := by
  induction files generalizing f with
  | nil => cases h
  | cons first rest ih =>
    unfold newest at h
    split at h
    · cases h
      exact List.mem_cons_self
    · next g hg =>
      split at h
      · cases h
        exact List.mem_cons_of_mem _ (ih hg)
      · cases h
        exact List.mem_cons_self

/-- What is found under a name in the folder of the store: what the folder has under that name. -/
theorem find_child (hname : Location.IsEntryName name) :
    t.find (s.folder.child name) =
      match t.find s.folder with
      | .error fault => .error fault
      | .ok e => e.find [name] := by
  unfold FileTree.find
  rw [FileTree.wayTo_child hname]
  cases t.wayTo s.folder with
  | error fault => rfl
  | ok way => exact Entry.find_append_singleton name way t.top

/-- A name that may not lead out is that of an entry, or a single dot. -/
theorem isEntryName_or_of_not_mayLeave (hstay : ¬ MayLeave name.shown) :
    Location.IsEntryName name ∨ name = "." := by
  by_cases hleads : Location.leadsOn name = true
  · refine .inl ⟨hleads, ?_⟩
    rintro rfl
    exact hstay (.inr (.inl (List.infix_refl _)))
  · refine .inr ((Location.leadsOn_eq_false_iff.1 (Bool.eq_false_iff.2 hleads)).resolve_left ?_)
    rintro rfl
    exact hstay (.inl rfl)

/-- What is found under a single dot is what stands in the place of the folder. -/
theorem find_child_dot : t.find (s.folder.child ".") = t.find s.folder := by
  rw [Location.child_of_not_leadsOn (by decide +kernel)]

/-- A file that is found under a name in the folder is directly in it. -/
theorem hasFile_of_find_child (hname : Location.IsEntryName name) {time : Int} {bytes : List UInt8}
    (h : t.find (s.folder.child name) = .ok (.file time bytes)) : s.HasFile t name time bytes := by
  rw [find_child hname] at h
  split at h
  · cases h
  next e hfolder =>
  rcases e with ⟨made, content⟩ | ⟨made, entries⟩
  · cases h
  unfold Entry.find at h
  split at h
  · cases h
  · cases h
  next e hthere =>
  cases h
  exact ⟨made, entries, hfolder, Entry.mem_of_lookUp hthere⟩

/-- A saved input is a file directly in the folder. -/
theorem hasFile_of_saved {files : List (FileName × Int × List UInt8)}
    (hfiles : s.saved t = .ok files) {f : FileName × Int × List UInt8} (hf : f ∈ files) :
    s.HasFile t f.1 f.2.1 f.2.2 := by
  unfold saved at hfiles
  split at hfiles
  · next made entries hfolder =>
    cases hfiles
    exact ⟨made, entries, hfolder, mem_of_mem_inputs hf⟩
  · cases hfiles
  · cases hfiles
  · cases hfiles
    cases hf

/-- A file stands in the place of the folder of the store. -/
def IsFile (s : FormStore) (t : FileTree) (time : Int) (bytes : List UInt8) : Prop :=
  t.find s.folder = .ok (.file time bytes)

/-- The name leads to a file that stands in the place of the folder. -/
def Exposed (s : FormStore) (t : FileTree) (name : FileName) : Prop :=
  name = "." ∧ ∃ time bytes, s.IsFile t time bytes

/-- A single dot is looked up as the place of the folder. -/
theorem bytesOf_dot :
    s.bytesOf t "." =
      match t.find s.folder with
      | .ok (.file _ bytes) => .ok bytes
      | .error .nameTooLong => .error (.unreachable .nameTooLong)
      | _ => .error (.unknown ".") := by
  have hother : FileName.ofText "." ≠ latestName := by decide +kernel
  have hstay : ¬ MayLeave (FileName.ofText ".").shown := by
    rw [← isBadName_eq_true_iff]
    decide +kernel
  rw [bytesOf_of_not_mayLeave hother hstay, find_child_dot]

/-- The bytes that are read for a name are those of a file directly in the folder, and unless the
input saved last was asked for, of the file of that name; or the name leads to the place of the
folder, and they are those of the file there. -/
theorem hasFile_of_bytesOf {bytes : List UInt8} (h : s.bytesOf t name = .ok bytes) :
    (∃ found time, s.HasFile t found time bytes ∧ (name ≠ latestName → found = name)) ∨
      name = "." ∧ ∃ time, s.IsFile t time bytes := by
  by_cases hlatest : name = latestName
  · subst hlatest
    rw [bytesOf_latestName] at h
    split at h
    · cases h
    next files hfiles =>
    split at h
    · cases h
    next f hf =>
    cases h
    exact .inl
      ⟨f.1, f.2.1, hasFile_of_saved hfiles (mem_of_newest hf), fun hne ↦ absurd rfl hne⟩
  · by_cases hleave : MayLeave name.shown
    · rw [bytesOf_of_mayLeave hlatest hleave] at h
      cases h
    · rw [bytesOf_of_not_mayLeave hlatest hleave] at h
      split at h
      · next time _ hfind =>
        cases h
        rcases isEntryName_or_of_not_mayLeave hleave with hname | rfl
        · exact .inl ⟨name, time, hasFile_of_find_child hname hfind, fun _ ↦ rfl⟩
        · exact .inr ⟨rfl, time, find_child_dot.symm.trans hfind⟩
      · cases h
      · cases h

/-- A text that is loaded was read from bytes that are there. -/
theorem read_of_load {text : String} (h : s.load t name = .ok text) :
    ∃ bytes, s.bytesOf t name = .ok bytes ∧ Text.Encoding.utf8.read bytes = .ok text := by
  unfold load at h
  split at h
  · cases h
  next bytes hbytes =>
  refine ⟨bytes, hbytes, ?_⟩
  cases hread : Text.Encoding.utf8.read bytes with
  | error fault =>
    rw [hread] at h
    cases h
  | ok kept =>
    rw [hread] at h
    cases h
    rfl

/-- A text that is loaded is that of a file directly in the folder, or of the file in the place of
the folder. -/
theorem hasFile_of_load {text : String} (h : s.load t name = .ok text) :
    ∃ bytes, Text.Encoding.utf8.read bytes = .ok text ∧
      ((∃ found time, s.HasFile t found time bytes ∧ (name ≠ latestName → found = name)) ∨
        name = "." ∧ ∃ time, s.IsFile t time bytes) := by
  obtain ⟨bytes, hbytes, hread⟩ := read_of_load h
  exact ⟨bytes, hread, hasFile_of_bytesOf hbytes⟩

/-- A file in the place of the folder is loaded under a single dot. -/
theorem load_of_isFile {time : Int} {bytes : List UInt8} (h : s.IsFile t time bytes) :
    s.load t "." = (Text.Encoding.utf8.read bytes).mapError .unreadable := by
  have hfind : t.find s.folder = .ok (.file time bytes) := h
  unfold load
  rw [bytesOf_dot, hfind]

/-! ### What has no part in it -/

/-- What the store is to see of a tree: the entries of its folder, a file with its time and bytes, a
folder without what is in it. Nothing where a file is in the place of the folder. -/
def view (s : FormStore) (t : FileTree) : Except PathFault (Option (List (FileName × Entry))) :=
  match t.find s.folder with
  | .error fault => .error fault
  | .ok (.file _ _) => .ok none
  | .ok (.folder _ entries) => .ok (some (Entry.shallowAll entries))

theorem inputs_shallowAll (entries : List (FileName × Entry)) :
    inputs (Entry.shallowAll entries) = inputs entries := by
  unfold Entry.shallowAll
  fun_induction inputs entries with
  | case1 => rfl
  | case2 name time bytes rest hname ih =>
    rw [List.map_cons, Entry.shallow_file, inputs, if_pos hname, ih]
  | case3 name time bytes rest hname ih =>
    rw [List.map_cons, Entry.shallow_file, inputs, if_neg hname, ih]
  | case4 name time inner rest ih => rw [List.map_cons, Entry.shallow_folder, inputs, ih]

/-- The saved inputs are seen. -/
theorem saved_eq_of_view :
    s.saved t =
      match s.view t with
      | .ok (some entries) => .ok (inputs entries)
      | .ok none => .error .notFolder
      | .error .nameTooLong => .error .nameTooLong
      | .error _ => .ok [] := by
  unfold saved view
  rcases t.find s.folder with fault | ⟨time, content⟩ | ⟨time, entries⟩
  · cases fault <;> rfl
  · rfl
  · exact congrArg Except.ok (inputs_shallowAll entries).symm

/-- What is found under a name in the folder is seen, but for what is in a folder. -/
theorem shallow_find_child (hname : Location.IsEntryName name) :
    (t.find (s.folder.child name)).map Entry.shallow =
      match s.view t with
      | .error fault => .error fault
      | .ok none => .error .notFolder
      | .ok (some entries) => (Entry.folder 0 entries).find [name] := by
  rw [find_child hname]
  unfold view
  rcases t.find s.folder with fault | ⟨time, content⟩ | ⟨time, entries⟩
  · rfl
  · rfl
  · simp only [Entry.find, Entry.lookUp_shallowAll]
    rcases Entry.lookUp name entries with fault | - | e <;> rfl

/-- What is in a folder that a name leads to does not matter for the bytes that are read. -/
theorem bytesOf_eq_of_shallow (hname : name ≠ latestName) (hstay : ¬ MayLeave name.shown) :
    s.bytesOf t name =
      match (t.find (s.folder.child name)).map Entry.shallow with
      | .ok (.file _ bytes) => .ok bytes
      | .error .nameTooLong => .error (.unreachable .nameTooLong)
      | _ => .error (.unknown name) := by
  rw [bytesOf_of_not_mayLeave hname hstay]
  rcases hfind : t.find (s.folder.child name) with fault | ⟨time, bytes⟩ | ⟨time, inner⟩
  · cases fault <;> rfl
  · rfl
  · rfl

/-- Whether a file stands in the place of the folder is seen. -/
theorem view_eq_none_iff : s.view t = .ok none ↔ ∃ time bytes, s.IsFile t time bytes := by
  unfold view IsFile
  rcases t.find s.folder with fault | ⟨time, content⟩ | ⟨time, entries⟩ <;> simp

/-- Where no file stands in the place of the folder, nothing is found under a single dot. -/
theorem bytesOf_dot_of_not_exposed (h : ¬ s.Exposed t ".") :
    s.bytesOf t "." =
      match s.view t with
      | .error .nameTooLong => .error (.unreachable .nameTooLong)
      | _ => .error (.unknown ".") := by
  rw [bytesOf_dot]
  unfold view
  rcases hfind : t.find s.folder with fault | ⟨time, content⟩ | ⟨time, entries⟩
  · cases fault <;> rfl
  · exact absurd ⟨rfl, time, content, hfind⟩ h
  · rfl

/-- Trees that look the same to the store give the same bytes for every name, unless the name leads
to a file in the place of the folder. -/
theorem bytesOf_congr (h : s.view t' = s.view t) (hname : ¬ s.Exposed t name) :
    s.bytesOf t' name = s.bytesOf t name := by
  by_cases hlatest : name = latestName
  · subst hlatest
    rw [bytesOf_latestName, bytesOf_latestName, saved_eq_of_view, saved_eq_of_view, h]
  · by_cases hleave : MayLeave name.shown
    · rw [bytesOf_of_mayLeave hlatest hleave, bytesOf_of_mayLeave hlatest hleave]
    · rcases isEntryName_or_of_not_mayLeave hleave with hentry | rfl
      · rw [bytesOf_eq_of_shallow hlatest hleave, bytesOf_eq_of_shallow hlatest hleave,
          shallow_find_child hentry, shallow_find_child hentry, h]
      · have hname' : ¬ s.Exposed t' "." := fun hexposed ↦
          hname ⟨rfl, view_eq_none_iff.1 (h ▸ view_eq_none_iff.2 hexposed.2)⟩
        rw [bytesOf_dot_of_not_exposed hname, bytesOf_dot_of_not_exposed hname', h]

/-- Trees that look the same to the store give the same text, or the same fault, for every name that
does not lead to a file in the place of the folder. -/
theorem load_congr (h : s.view t' = s.view t) (hname : ¬ s.Exposed t name) :
    s.load t' name = s.load t name := by
  unfold load
  rw [bytesOf_congr h hname]

/-- Trees that look the same to the store have the same saved inputs. -/
theorem names_congr (h : s.view t' = s.view t) : s.names t' = s.names t := by
  unfold names
  rw [saved_eq_of_view, saved_eq_of_view, h]

end FormStore

end MarkupBinding
