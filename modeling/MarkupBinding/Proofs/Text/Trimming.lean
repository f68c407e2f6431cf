import Mathlib.Data.List.DropRight
import MarkupBinding.Proofs.Expression.Written

/-!
# Trimmed texts

A label is a text as an annotation gives it: something besides blanks is in it, and trimming leaves
it as it is. What trimming makes of a text that is not blank is a label (`isLabel_trim`), and so is
every identifier (`isLabel_of_isIdentifier`).

A text is padded when blanks stand around a core. Every text pads what trimming makes of it
(`padded_trimChars`), and it is trimmed as its core is (`Padded.trimChars_eq`). Trimming a text with
a solid separator in it works on the two sides from without (`trimChars_append_cons`).
-/

set_option autoImplicit false
set_option relaxedAutoImplicit false

namespace MarkupBinding.Text

/-- A text that is not blank, without blanks at either end. -/
structure IsLabel (s : String) : Prop where
  notBlank : isBlankText s = false
  trimmed : trim s = s

theorem IsLabel.ne_empty {s : String} (h : IsLabel s) : s ≠ "" := by
  rintro rfl
  exact absurd h.notBlank (by decide)

/-- A text is blank when nothing in it is solid. -/
theorem isBlankText_eq_true_iff (s : String) : isBlankText s = true ↔ solid s.toList = [] := by
  simp [isBlankText, solid]

/-- Trimming again changes nothing. -/
theorem trimChars_trimChars (cs : List Char) : trimChars (trimChars cs) = trimChars cs := by
  have hpart : trimChars cs <+: cs.dropWhile isBlank := List.rdropWhile_prefix isBlank _
  -- the trimmed text begins like the text without the blanks at its front
  have hfront : (trimChars cs).dropWhile isBlank = trimChars cs := by
    rw [List.dropWhile_eq_self_iff]
    intro hlength
    rw [hpart.getElem hlength]
    exact List.dropWhile_get_zero_not isBlank cs (Nat.lt_of_lt_of_le hlength hpart.length_le)
  change ((trimChars cs).dropWhile isBlank).rdropWhile isBlank = trimChars cs
  rw [hfront]
  exact List.rdropWhile_idempotent isBlank _

/-- A text that is not blank is trimmed to a label. -/
theorem isLabel_trim {s : String} (h : isBlankText s = false) : IsLabel (trim s) := by
  constructor
  · rw [Bool.eq_false_iff, ne_eq, isBlankText_eq_true_iff, trim, String.toList_ofList,
      solid_trimChars, ← isBlankText_eq_true_iff, h]
    exact Bool.false_ne_true
  · rw [trim, trim, String.toList_ofList, trimChars_trimChars]

/-- An identifier is a label: it has a first character, and none is a blank. -/
theorem isLabel_of_isIdentifier {s : String} (h : Path.isIdentifier s.toList = true) :
    IsLabel s := by
  have hsolid : ∀ c ∈ s.toList, isBlank c = false := fun c hc ↦
    Path.isBlank_of_isIdentifierPart (Path.isIdentifierPart_of_mem h hc)
  have hne : s.toList ≠ [] := by
    intro hnil
    rw [hnil] at h
    exact absurd h Bool.false_ne_true
  constructor
  · rw [Bool.eq_false_iff, ne_eq, isBlankText_eq_true_iff, Path.solid_of_isIdentifier h]
    exact hne
  · have hfront : s.toList.dropWhile isBlank = s.toList := by
      rw [List.dropWhile_eq_self_iff]
      intro hlength
      simp [hsolid _ (List.getElem_mem hlength)]
    have hback : s.toList.rdropWhile isBlank = s.toList := by
      rw [List.rdropWhile_eq_self_iff]
      intro hlast
      simp [hsolid _ (List.getLast_mem hlast)]
    change String.ofList ((s.toList.dropWhile isBlank).rdropWhile isBlank) = s
    rw [hfront, hback, String.ofList_toList]

/-! ### Blanks around a core -/

/-- The text is the core with blanks around it. -/
def Padded (cs core : List Char) : Prop :=
  ∃ front back, cs = front ++ core ++ back ∧ (∀ c ∈ front, isBlank c = true) ∧
    ∀ c ∈ back, isBlank c = true

section Padding

variable {cs core front back : List Char}

theorem Padded.refl (cs : List Char) : Padded cs cs :=
  ⟨[], [], by simp, by simp, by simp⟩

/-- More blanks at the front. -/
theorem Padded.blanks_append (h : Padded cs core) (hfront : ∀ c ∈ front, isBlank c = true) :
    Padded (front ++ cs) core := by
  obtain ⟨inner, back, rfl, hinner, hback⟩ := h
  refine ⟨front ++ inner, back, by simp, fun c hc ↦ ?_, hback⟩
  exact (List.mem_append.1 hc).elim (hfront c) (hinner c)

/-- More blanks at the back. -/
theorem Padded.append_blanks (h : Padded cs core) (hback : ∀ c ∈ back, isBlank c = true) :
    Padded (cs ++ back) core := by
  obtain ⟨front, inner, rfl, hfront, hinner⟩ := h
  refine ⟨front, inner ++ back, by simp, hfront, fun c hc ↦ ?_⟩
  exact (List.mem_append.1 hc).elim (hinner c) (hback c)

/-- Trimming takes blanks from the two ends. -/
theorem padded_trimChars (cs : List Char) : Padded cs (trimChars cs) := by
  have hfront : cs.takeWhile isBlank ++ cs.dropWhile isBlank = cs := List.takeWhile_append_dropWhile
  have hback : (cs.dropWhile isBlank).rdropWhile isBlank ++
      (cs.dropWhile isBlank).rtakeWhile isBlank = cs.dropWhile isBlank :=
    List.rdropWhile_append_rtakeWhile
  refine ⟨cs.takeWhile isBlank, (cs.dropWhile isBlank).rtakeWhile isBlank, ?_,
    fun c hc ↦ List.mem_takeWhile_imp hc, fun c hc ↦ List.mem_rtakeWhile_imp hc⟩
  change cs = _ ++ (cs.dropWhile isBlank).rdropWhile isBlank ++ _
  rw [List.append_assoc, hback, hfront]

theorem dropWhile_blanks_append (hfront : ∀ c ∈ front, isBlank c = true) (cs : List Char) :
    (front ++ cs).dropWhile isBlank = cs.dropWhile isBlank := by
  rw [List.dropWhile_append, List.dropWhile_eq_nil_iff.2 hfront]
  rfl

theorem rdropWhile_append_blanks (hback : ∀ c ∈ back, isBlank c = true) (cs : List Char) :
    (cs ++ back).rdropWhile isBlank = cs.rdropWhile isBlank := by
  have hreverse : ∀ c ∈ back.reverse, isBlank c = true := fun c hc ↦ hback c (List.mem_reverse.1 hc)
  rw [List.rdropWhile, List.reverse_append, dropWhile_blanks_append hreverse]
  rfl

/-- A padded text is trimmed as its core is. -/
theorem Padded.trimChars_eq (h : Padded cs core) : trimChars cs = trimChars core := by
  obtain ⟨front, back, rfl, hfront, hback⟩ := h
  change ((front ++ core ++ back).dropWhile isBlank).rdropWhile isBlank =
    (core.dropWhile isBlank).rdropWhile isBlank
  rw [List.append_assoc, dropWhile_blanks_append hfront, List.dropWhile_append]
  cases hcore : core.dropWhile isBlank with
  | nil =>
    -- the core is blank as well, and nothing is left
    rw [List.isEmpty_nil, if_pos rfl, List.dropWhile_eq_nil_iff.2 hback]
  | cons c rest => rw [List.isEmpty_cons, if_neg Bool.false_ne_true, rdropWhile_append_blanks hback]

theorem dropWhile_append_cons {separator : Char} (h : isBlank separator = false)
    (front back : List Char) :
    (front ++ separator :: back).dropWhile isBlank =
      front.dropWhile isBlank ++ separator :: back := by
  have hstop : (separator :: back).dropWhile isBlank = separator :: back :=
    List.dropWhile_cons_of_neg (by simp [h])
  rw [List.dropWhile_append, hstop]
  cases front.dropWhile isBlank <;> rfl

/-- A text with a solid character in it is trimmed on the outer sides of what stands around that
character. -/
theorem trimChars_append_cons {separator : Char} (h : isBlank separator = false)
    (front back : List Char) :
    trimChars (front ++ separator :: back) =
      front.dropWhile isBlank ++ separator :: back.rdropWhile isBlank := by
  have hreverse : (front.dropWhile isBlank ++ separator :: back).reverse =
      back.reverse ++ separator :: (front.dropWhile isBlank).reverse := by simp
  rw [trimChars, dropWhile_append_cons h, hreverse, dropWhile_append_cons h]
  simp [List.rdropWhile]

end Padding

end MarkupBinding.Text
