import MarkupBinding.Proofs.Storage.InputNames
import MarkupBinding.Proofs.Storage.Loading

/-!
# Listing and the input saved last

Two readers go through the folder of a store: one lists the names of the saved inputs, the other
picks the one saved last. Where the place of the folder is taken by no file (`FormStore.Orderly`),
both see the same files: those directly in the folder whose names have the suffix of saved inputs
(`mem_inputs_iff`). The listing is these names in order, each once (`exists_lists`), and the one
picked is changed last of all (`newest_eq_none_iff`, `le_of_newest`), so that nothing is found under
the name of the input saved last exactly when nothing is listed (`load_latestName`).
-/

set_option autoImplicit false
set_option relaxedAutoImplicit false

namespace MarkupBinding

/-- Nothing of the name is there. -/
def FormFault.IsAbsence : FormFault → Prop
  | .noneSaved | .unknown _ => True
  | .badName _ | .unreadable _ | .unreachable _ => False

namespace FormStore

variable {s : FormStore} {t : FileTree}

/-- Where the folder of the store is to be there is a folder whose entries have distinct names, or
nothing. -/
def Orderly (s : FormStore) (t : FileTree) : Prop :=
  match t.find s.folder with
  | .ok (.folder _ entries) => (Keyed.keys entries).Nodup
  | .ok (.file _ _) => False
  | .error fault => fault ≠ .nameTooLong

instance (s : FormStore) (t : FileTree) : Decidable (s.Orderly t) := by
  unfold Orderly
  split <;> infer_instance

/-- The names are the listing of the store: in order, each once, and those of the files directly in
the folder that have the suffix of saved inputs. -/
structure Lists (s : FormStore) (t : FileTree) (names : List FileName) : Prop where
  listed : s.names t = .ok names
  sorted : names.Pairwise (· < ·)
  mem_iff : ∀ name, name ∈ names ↔
    HasInputSuffix name.shown ∧ ∃ time bytes, s.HasFile t name time bytes

/-! ### The saved inputs among entries -/

theorem mem_inputs_iff {entries : List (FileName × Entry)} {name : FileName} {time : Int}
    {bytes : List UInt8} :
    (name, time, bytes) ∈ inputs entries ↔
      HasInputSuffix name.shown ∧ (name, Entry.file time bytes) ∈ entries := by
  rw [← isInputName_eq_true_iff]
  fun_induction inputs entries with
  | case1 => simp
  | case2 other time' bytes' rest hother ih =>
    simp only [List.mem_cons, ih, Prod.mk.injEq, Entry.file.injEq]
    constructor
    · rintro (⟨rfl, rfl, rfl⟩ | ⟨hname, hmem⟩)
      · exact ⟨hother, Or.inl ⟨rfl, rfl, rfl⟩⟩
      · exact ⟨hname, Or.inr hmem⟩
    · rintro ⟨hname, ⟨rfl, rfl, rfl⟩ | hmem⟩
      · exact Or.inl ⟨rfl, rfl, rfl⟩
      · exact Or.inr ⟨hname, hmem⟩
  | case3 other time' bytes' rest hother ih =>
    simp only [List.mem_cons, ih, Prod.mk.injEq]
    constructor
    · rintro ⟨hname, hmem⟩
      exact ⟨hname, Or.inr hmem⟩
    · rintro ⟨hname, ⟨rfl, -⟩ | hmem⟩
      · exact absurd hname hother
      · exact ⟨hname, hmem⟩
  | case4 other time' inner rest ih => simp [ih]

/-- The names of the saved inputs are names of entries, in the order of these. -/
theorem inputs_sublist (entries : List (FileName × Entry)) :
    List.Sublist ((inputs entries).map (·.1)) (Keyed.keys entries) := by
  unfold Keyed.keys
  fun_induction inputs entries with
  | case1 => exact List.Sublist.slnil
  | case2 name time bytes rest hname ih => exact ih.cons_cons name
  | case3 name time bytes rest hname ih => exact ih.cons name
  | case4 name time inner rest ih => exact ih.cons name

/-- In an orderly tree the saved inputs are the files directly in the folder with the suffix, of
distinct names. -/
theorem saved_of_orderly (h : s.Orderly t) :
    ∃ files, s.saved t = .ok files ∧ (files.map (·.1)).Nodup ∧
      ∀ name time bytes, (name, time, bytes) ∈ files ↔
        HasInputSuffix name.shown ∧ s.HasFile t name time bytes := by
  unfold Orderly at h
  unfold saved HasFile
  generalize t.find s.folder = found at h ⊢
  rcases found with fault | ⟨made, content⟩ | ⟨made, entries⟩
  · refine ⟨[], ?_, by simp, fun name time bytes ↦ ⟨fun hmem ↦ absurd hmem List.not_mem_nil, ?_⟩⟩
    · cases fault <;> first | rfl | exact absurd rfl h
    · rintro ⟨-, _, _, hfolder, -⟩
      cases hfolder
  · exact h.elim
  · refine ⟨inputs entries, rfl, h.sublist (inputs_sublist entries), fun name time bytes ↦ ?_⟩
    rw [mem_inputs_iff]
    constructor
    · rintro ⟨hname, hmem⟩
      exact ⟨hname, made, entries, rfl, hmem⟩
    · rintro ⟨hname, _, _, hfolder, hmem⟩
      cases hfolder
      exact ⟨hname, hmem⟩

/-! ### The listing -/

/-- An orderly tree has a listing. -/
theorem exists_lists (h : s.Orderly t) : ∃ names, s.Lists t names := by
  obtain ⟨files, hfiles, hnodup, hmem⟩ := saved_of_orderly h
  have hperm := List.mergeSort_perm (files.map (·.1)) fun a b ↦ decide (a ≤ b)
  refine ⟨_, by rw [names, hfiles]; rfl, ?_, fun name ↦ ?_⟩
  · have hle : ((files.map (·.1)).mergeSort fun a b ↦ decide (a ≤ b)).Pairwise
        fun a b ↦ decide (a ≤ b) = true := by
      refine List.pairwise_mergeSort (fun a b c hab hbc ↦ ?_) (fun a b ↦ ?_) _
      · exact decide_eq_true (FileName.le_trans (of_decide_eq_true hab) (of_decide_eq_true hbc))
      · simpa using FileName.le_total a b
    have hne := List.nodup_iff_pairwise_ne.1 (hperm.nodup_iff.2 hnodup)
    -- of two names in order that differ, the first is the smaller one
    refine List.Pairwise.imp₂ (fun a b hab hdiffer ↦ ?_) hle hne
    exact FileName.not_le.1 fun hba ↦ hdiffer (FileName.le_antisymm (of_decide_eq_true hab) hba)
  · rw [hperm.mem_iff, List.mem_map]
    constructor
    · rintro ⟨⟨name, time, bytes⟩, hfile, rfl⟩
      obtain ⟨hname, hhas⟩ := (hmem name time bytes).1 hfile
      exact ⟨hname, time, bytes, hhas⟩
    · rintro ⟨hname, time, bytes, hhas⟩
      exact ⟨(name, time, bytes), (hmem name time bytes).2 ⟨hname, hhas⟩, rfl⟩

/-- Saved inputs that are in order are listed as they are. -/
theorem names_of_saved {files : List (FileName × Int × List UInt8)} (hfiles : s.saved t = .ok files)
    (hsorted : (files.map (·.1)).Pairwise (· ≤ ·)) : s.names t = .ok (files.map (·.1)) := by
  have hpairwise : (files.map (·.1)).Pairwise fun a b ↦ decide (a ≤ b) = true :=
    hsorted.imp fun hle ↦ decide_eq_true hle
  rw [names, hfiles]
  exact congrArg Except.ok (List.mergeSort_of_pairwise hpairwise)

/-! ### The input saved last -/

theorem newest_eq_none_iff {files : List (FileName × Int × List UInt8)} :
    newest files = none ↔ files = [] := by
  cases files with
  | nil => simp [newest]
  | cons f rest =>
    rw [newest]
    split
    · simp
    · split <;> simp

/-- No file is changed later than the one that is picked. -/
theorem le_of_newest {files : List (FileName × Int × List UInt8)} {f : FileName × Int × List UInt8}
    (h : newest files = some f) : ∀ g ∈ files, g.2.1 ≤ f.2.1 := by
  induction files generalizing f with
  | nil => cases h
  | cons first rest ih =>
    rw [newest] at h
    split at h
    · next hnone =>
      obtain rfl := Option.some.inj h
      rw [newest_eq_none_iff.1 hnone]
      simp
    · next g hg =>
      have hrest := ih hg
      split at h
      · next hlater =>
        obtain rfl := Option.some.inj h
        exact List.forall_mem_cons.2 ⟨Int.le_of_lt hlater, hrest⟩
      · next hnot =>
        obtain rfl := Option.some.inj h
        refine List.forall_mem_cons.2 ⟨Int.le_refl _, fun other hother ↦ ?_⟩
        exact Int.le_trans (hrest other hother) (Int.not_lt.1 hnot)

/-- In an orderly tree the input saved last is absent exactly when nothing is listed; else it is a
listed file that no other was changed after, and what is read is the text in it. -/
theorem load_latestName {names : List FileName} (h : s.Orderly t) (hnames : s.Lists t names) :
    ((∃ fault, s.load t latestName = .error fault ∧ fault.IsAbsence) ↔ names = []) ∧
      (names ≠ [] → ∃ name time bytes, name ∈ names ∧ s.HasFile t name time bytes ∧
        (∀ other ∈ names, ∀ time' bytes', s.HasFile t other time' bytes' → time' ≤ time) ∧
        s.load t latestName = (Text.Encoding.utf8.read bytes).mapError .unreadable) := by
  obtain ⟨files, hfiles, -, hmem⟩ := saved_of_orderly h
  have hlisted : ∀ name, name ∈ names ↔ ∃ time bytes, (name, time, bytes) ∈ files := by
    intro name
    simp only [hnames.mem_iff, hmem, exists_and_left]
  have hload : s.load t latestName = (newest files).elim (.error .noneSaved)
      fun f ↦ (Text.Encoding.utf8.read f.2.2).mapError .unreadable := by
    rw [load, bytesOf_latestName, hfiles]
    dsimp only
    cases newest files <;> rfl
  cases hnewest : newest files with
  | none =>
    have hempty : names = [] := by
      rw [List.eq_nil_iff_forall_not_mem]
      intro name hname
      obtain ⟨time, bytes, hfile⟩ := (hlisted name).1 hname
      rw [newest_eq_none_iff.1 hnewest] at hfile
      cases hfile
    refine ⟨⟨fun _ ↦ hempty, fun _ ↦ ⟨.noneSaved, ?_, trivial⟩⟩, fun hne ↦ absurd hempty hne⟩
    rw [hload, hnewest, Option.elim_none]
  | some f =>
    obtain ⟨name, time, bytes⟩ := f
    have hfile := mem_of_newest hnewest
    have hname : name ∈ names := (hlisted name).2 ⟨time, bytes, hfile⟩
    have hread : s.load t latestName =
        (Text.Encoding.utf8.read bytes).mapError .unreadable := by
      rw [hload, hnewest, Option.elim_some]
    refine ⟨⟨?_, fun hempty ↦ absurd (hempty ▸ hname) List.not_mem_nil⟩, fun _ ↦
      ⟨name, time, bytes, hname, ((hmem name time bytes).1 hfile).2, ?_, hread⟩⟩
    · rintro ⟨fault, hfault, habsence⟩
      rw [hread] at hfault
      cases hdecoded : Text.Encoding.utf8.read bytes with
      | error e =>
        rw [hdecoded] at hfault
        obtain rfl := Except.error.inj hfault
        exact habsence.elim
      | ok text => rw [hdecoded] at hfault; cases hfault
    · intro other hother time' bytes' hhas
      exact le_of_newest hnewest _
        ((hmem other time' bytes').2 ⟨((hnames.mem_iff other).1 hother).1, hhas⟩)

end FormStore

end MarkupBinding
