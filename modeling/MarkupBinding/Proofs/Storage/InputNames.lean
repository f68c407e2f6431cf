import MarkupBinding.Proofs.Text.Utf8
import MarkupBinding.Storage.FormStore

/-!
# Names of saved inputs

Which names are listed, by their characters: something, a dot, and the letters of the suffix, each
of them small or capital (`FormStore.isInputName_eq_true_iff`). The suffix begins at the last dot of
a name, and there is none when that dot is the first character or the last (`suffixOf_append_cons`,
`exists_of_suffixOf_ne`). Small forms are taken from a table of all letters, and of the letters
beyond the first 128 none has a small form in the suffix (`Text.not_mem_lowerChar`).
-/

set_option autoImplicit false
set_option relaxedAutoImplicit false

namespace MarkupBinding

/-! ### Small forms of letters -/

namespace Text

/-- The capital letters beyond the first 128 have small forms beyond them as well, but for the sign
that stands for a capital `k`. -/
theorem shift_of_mem_lowerRuns :
    ∀ run ∈ lowerRuns, run.last < 128 ∨ run.first = run.last ∧ (run.first : Int) + run.shift = 107 ∨
      128 ≤ (run.first : Int) + run.shift := by
  decide +kernel

theorem mapCase_lowerRuns {n : Nat} (h : 128 ≤ n) :
    128 ≤ mapCase lowerRuns n ∨ mapCase lowerRuns n = 107 := by
  rw [mapCase]
  split
  · next run hrun =>
    have hfits := List.find?_some hrun
    simp only [Bool.and_eq_true, decide_eq_true_eq] at hfits
    obtain ⟨⟨hfirst, hlast⟩, -⟩ := hfits
    rw [Int.ofNat_eq_natCast]
    rcases shift_of_mem_lowerRuns run (List.mem_of_find?_eq_some hrun) with
      hsmall | ⟨honly, hsign⟩ | hlarge
    · omega
    · right
      omega
    · left
      omega
  · exact Or.inl h

/-- A letter of the suffix is not in the small form of a character beyond the first 128. -/
theorem not_mem_lowerChar {c letter : Char} (h : 128 ≤ c.toNat)
    (hletter : letter ∈ ['j', 's', 'o', 'n']) : letter ∉ lowerChar c := by
  rw [lowerChar, if_neg (Nat.not_lt.2 h)]
  simp only [List.mem_cons, List.not_mem_nil, or_false] at hletter
  split
  · rcases hletter with rfl | rfl | rfl | rfl <;> decide
  · intro hmem
    have hcodes : letter.toNat ≠ 0 ∧ letter.toNat ≠ 107 ∧ letter.toNat < 128 := by
      rcases hletter with rfl | rfl | rfl | rfl <;> decide
    obtain ⟨hzero, hsign, hsmall⟩ := hcodes
    rw [List.mem_singleton.1 hmem, toNat_charOfNat] at hzero hsign hsmall
    by_cases hvalid : (mapCase lowerRuns c.toNat).isValidChar
    · rw [if_pos hvalid] at hsign hsmall
      rcases mapCase_lowerRuns h with hlarge | hk
      · exact absurd hsmall (Nat.not_lt.2 hlarge)
      · exact hsign hk
    · exact hzero (if_neg hvalid)

theorem lowerChar_of_lt {c : Char} (h : c.toNat < 128) : lowerChar c = [c.toLower] :=
  if_pos h

theorem lowerChar_ne_nil (c : Char) : lowerChar c ≠ [] := by
  rw [lowerChar]
  split
  · exact List.cons_ne_nil _ _
  · split <;> exact List.cons_ne_nil _ _

/-- Where all small forms are letters of the suffix, each is that of one letter of the alphabet. -/
theorem flatMap_lowerChar {cs : List Char}
    (h : ∀ letter ∈ cs.flatMap lowerChar, letter ∈ ['j', 's', 'o', 'n']) :
    cs.flatMap lowerChar = cs.map Char.toLower := by
  induction cs with
  | nil => rfl
  | cons c rest ih =>
    rw [List.flatMap_cons] at h ⊢
    have hsmall : c.toNat < 128 := by
      refine Nat.lt_of_not_le fun hlarge ↦ ?_
      obtain ⟨letter, more, hmore⟩ := List.exists_cons_of_ne_nil (lowerChar_ne_nil c)
      have hmem : letter ∈ lowerChar c := by rw [hmore]; exact List.mem_cons_self
      exact not_mem_lowerChar hlarge (h letter (List.mem_append_left _ hmem)) hmem
    rw [lowerChar_of_lt hsmall, ih fun letter hletter ↦ h letter (List.mem_append_right _ hletter)]
    rfl

/-- A character whose small form in the alphabet is a letter of the suffix is a letter of the
alphabet. -/
theorem lt_of_toLower_mem {c : Char} (h : c.toLower ∈ ['j', 's', 'o', 'n']) : c.toNat < 128 := by
  by_cases hcapital : c ≥ 'A' ∧ c ≤ 'Z'
  · exact Nat.lt_of_le_of_lt hcapital.2 (by decide : 'Z'.toNat < 128)
  · have hself : c.toLower = c := dif_neg hcapital
    rw [hself] at h
    simp only [List.mem_cons, List.not_mem_nil, or_false] at h
    rcases h with rfl | rfl | rfl | rfl <;> decide

theorem flatMap_lowerChar_of_map {cs : List Char} (h : ∀ c ∈ cs, c.toLower ∈ ['j', 's', 'o', 'n']) :
    cs.flatMap lowerChar = cs.map Char.toLower := by
  induction cs with
  | nil => rfl
  | cons c rest ih =>
    rw [List.flatMap_cons, lowerChar_of_lt (lt_of_toLower_mem (h c List.mem_cons_self)),
      ih fun d hd ↦ h d (List.mem_cons_of_mem _ hd)]
    rfl

end Text

/-! ### The suffix -/

namespace FormStore

/-- The name is something, a dot and the letters of the suffix, small or capital. -/
def HasInputSuffix (name : String) : Prop :=
  ∃ stem ending, name.toList = stem ++ '.' :: ending ∧ stem ≠ [] ∧
    ending.map Char.toLower = ['j', 's', 'o', 'n']

section Suffix

variable {name : String} {stem ending : List Char}

/-- The suffix of a name begins at its last dot. -/
theorem suffixOf_append_cons (hname : name.toList = stem ++ '.' :: ending) (hstem : stem ≠ [])
    (hending : ending ≠ []) (hdot : '.' ∉ ending) :
    suffixOf name = String.ofList ('.' :: ending) := by
  have hreverse : name.toList.reverse = ending.reverse ++ '.' :: stem.reverse := by simp [hname]
  have htail : name.toList.reverse.takeWhile (· != '.') = ending.reverse := by
    rw [hreverse, List.takeWhile_append_of_pos]
    · simp
    · intro c hc
      have hne : c ≠ '.' := fun heq ↦ hdot (heq ▸ List.mem_reverse.1 hc)
      simpa using hne
  have hlength : ¬ name.toList.length ≤ ending.length + 1 := by
    have hpositive := List.length_pos_iff.2 hstem
    rw [hname, List.length_append, List.length_cons]
    omega
  simp [suffixOf, htail, hending, hlength]

/-- A name with a suffix has a dot that is neither its first character nor its last. -/
theorem exists_of_suffixOf_ne (h : suffixOf name ≠ "") :
    ∃ stem ending, name.toList = stem ++ '.' :: ending ∧ stem ≠ [] ∧
      suffixOf name = String.ofList ('.' :: ending) := by
  rw [suffixOf] at h ⊢
  generalize htail : name.toList.reverse.takeWhile (· != '.') = tail at h ⊢
  generalize hback : name.toList.reverse.dropWhile (· != '.') = back
  have hname : name.toList.reverse = tail ++ back := by
    rw [← htail, ← hback, List.takeWhile_append_dropWhile]
  have hlength : name.toList.length = tail.length + back.length := by
    rw [← List.length_reverse, hname, List.length_append]
  split at h
  · exact absurd rfl h
  next hlong =>
  simp only [Bool.or_eq_true, decide_eq_true_eq, not_or] at hlong
  match back, hback with
  | [], _ => simp at hlength; omega
  | [dot], _ => simp at hlength; omega
  | dot :: last :: more, hback =>
    obtain rfl : dot = '.' := by
      have hne : name.toList.reverse.dropWhile (· != '.') ≠ [] := by simp [hback]
      have hdot := List.head_dropWhile_not (· != '.') hne
      simpa [hback] using hdot
    refine ⟨(last :: more).reverse, tail.reverse, ?_, by simp,
      by rw [if_neg (by simpa using hlong)]⟩
    rw [← List.reverse_reverse name.toList, hname]
    simp

end Suffix

/-- The names of saved inputs end in the suffix, in letters of either case. -/
theorem isInputName_eq_true_iff {name : FileName} :
    isInputName name = true ↔ HasInputSuffix name.shown := by
  rw [isInputName, beq_iff_eq]
  generalize name.shown = name
  constructor
  · intro h
    have hne : suffixOf name ≠ "" := by
      intro hnone
      rw [hnone] at h
      exact absurd h (by decide)
    obtain ⟨stem, ending, hname, hstem, hsuffix⟩ := exists_of_suffixOf_ne hne
    rw [hsuffix, Text.lower, String.toList_ofList, ← String.toList_inj, String.toList_ofList,
      List.flatMap_cons] at h
    have hletters : ending.flatMap Text.lowerChar = ['j', 's', 'o', 'n'] := (List.cons.inj h).2
    refine ⟨stem, ending, hname, hstem, ?_⟩
    rw [← Text.flatMap_lowerChar (by rw [hletters]; exact fun _ ↦ id), hletters]
  · rintro ⟨stem, ending, hname, hstem, hletters⟩
    have hmem : ∀ c ∈ ending, c.toLower ∈ ['j', 's', 'o', 'n'] := fun c hc ↦
      hletters ▸ List.mem_map_of_mem hc
    have hdot : '.' ∉ ending := fun hdot ↦ absurd (hmem _ hdot) (by decide)
    have hending : ending ≠ [] := by
      rintro rfl
      cases hletters
    rw [suffixOf_append_cons hname hstem hending hdot, Text.lower, String.toList_ofList,
      List.flatMap_cons, Text.flatMap_lowerChar_of_map hmem, hletters]
    rfl

end FormStore

end MarkupBinding
