import MarkupBinding.Text.Blank
import MarkupBinding.Text.Split
import MarkupBinding.Proofs.Text.Utf8

/-!
# Unified line ends

Reading a file puts one line feed in the place of every line end. What the text begins with is then
the same character, or a line feed for a carriage return (`unifyLineEnds_front`), so whatever a
reader cuts off the front comes out the same as long as it holds no line ends, and whatever it drops
is dropped from both texts if it takes line ends in. A text written as a file is read back with
unified line ends.
-/

set_option autoImplicit false
set_option relaxedAutoImplicit false

namespace MarkupBinding.Text

/-- A character that is no carriage return stays in front. -/
@[simp] theorem unifyLineEnds_cons {c : Char} (h : c ≠ '\r') (rest : List Char) :
    unifyLineEnds (c :: rest) = c :: unifyLineEnds rest := by
  rw [unifyLineEnds, if_neg h]
  rintro tail rfl
  exact absurd rfl h

/-- What text with unified line ends begins with: nothing, the character that was there, or a line
feed for a carriage return. -/
theorem unifyLineEnds_front (cs : List Char) :
    (cs = [] ∧ unifyLineEnds cs = []) ∨
      (∃ c rest, c ≠ '\r' ∧ cs = c :: rest ∧ unifyLineEnds cs = c :: unifyLineEnds rest) ∨
      ∃ rest tail, cs = '\r' :: rest ∧ unifyLineEnds cs = '\n' :: tail := by
  rcases cs with - | ⟨c, rest⟩
  · exact Or.inl ⟨rfl, rfl⟩
  · by_cases hc : c = '\r'
    · subst hc
      rcases rest with - | ⟨d, rest⟩
      · exact Or.inr (Or.inr ⟨[], [], rfl, rfl⟩)
      · by_cases hd : d = '\n'
        · subst hd
          exact Or.inr (Or.inr ⟨'\n' :: rest, unifyLineEnds rest, rfl, rfl⟩)
        · refine Or.inr (Or.inr ⟨d :: rest, unifyLineEnds (d :: rest), rfl, ?_⟩)
          rw [unifyLineEnds, if_pos rfl]
          rintro tail - ⟨⟩
          exact hd rfl
    · exact Or.inr (Or.inl ⟨c, rest, hc, rfl, unifyLineEnds_cons hc rest⟩)

/-- Text is empty with unified line ends where it was empty before. -/
@[simp] theorem isEmpty_unifyLineEnds (cs : List Char) :
    (unifyLineEnds cs).isEmpty = cs.isEmpty := by
  rcases unifyLineEnds_front cs with ⟨rfl, -⟩ | ⟨c, rest, -, rfl, h⟩ | ⟨rest, tail, rfl, h⟩
  · rfl
  · rw [h]; rfl
  · rw [h]; rfl

/-- A run of characters without line ends is in front of both texts. -/
theorem takeWhile_unifyLineEnds {p : Char → Bool} (hreturn : p '\r' = false)
    (hfeed : p '\n' = false) (cs : List Char) :
    (unifyLineEnds cs).takeWhile p = cs.takeWhile p := by
  induction cs with
  | nil => rfl
  | cons c rest ih =>
    rcases unifyLineEnds_front (c :: rest) with ⟨h, -⟩ | ⟨_, _, hc, ⟨⟩, h⟩ | ⟨_, tail, ⟨⟩, h⟩
    · simp at h
    · rw [h, List.takeWhile_cons, List.takeWhile_cons, ih]
    · rw [h, List.takeWhile_cons, List.takeWhile_cons, hreturn, hfeed]
      rfl

/-- What is behind a run of characters without line ends. -/
theorem dropWhile_unifyLineEnds {p : Char → Bool} (hreturn : p '\r' = false)
    (hfeed : p '\n' = false) (cs : List Char) :
    (unifyLineEnds cs).dropWhile p = unifyLineEnds (cs.dropWhile p) := by
  induction cs with
  | nil => rfl
  | cons c rest ih =>
    rcases unifyLineEnds_front (c :: rest) with ⟨h, -⟩ | ⟨_, _, hc, ⟨⟩, h⟩ | ⟨_, tail, ⟨⟩, h⟩
    · simp at h
    · rw [h, List.dropWhile_cons, List.dropWhile_cons, ih]
      split
      · rfl
      · exact h.symm
    · rw [h, List.dropWhile_cons, List.dropWhile_cons, hreturn, hfeed]
      exact h.symm

/-- A run of characters that takes all line ends in is dropped from both texts. -/
theorem dropWhile_unifyLineEnds_of_blank {p : Char → Bool} (hreturn : p '\r' = true)
    (hfeed : p '\n' = true) (cs : List Char) :
    (unifyLineEnds cs).dropWhile p = unifyLineEnds (cs.dropWhile p) := by
  fun_induction unifyLineEnds cs with
  | case1 => rfl
  | case2 rest ih =>
    rw [List.dropWhile_cons_of_pos hfeed, List.dropWhile_cons_of_pos hreturn,
      List.dropWhile_cons_of_pos hfeed, ih]
  | case3 c rest hnext ih =>
    by_cases hc : c = '\r'
    · rw [if_pos hc, List.dropWhile_cons_of_pos hfeed, hc, List.dropWhile_cons_of_pos hreturn, ih]
    · rw [if_neg hc, List.dropWhile_cons, List.dropWhile_cons, ih]
      split
      · rfl
      · exact (unifyLineEnds_cons hc rest).symm

/-- A property that line ends have holds of all characters of both texts or of neither. -/
theorem all_unifyLineEnds {p : Char → Bool} (hreturn : p '\r' = true) (hfeed : p '\n' = true)
    (cs : List Char) : (unifyLineEnds cs).all p = cs.all p := by
  fun_induction unifyLineEnds cs with
  | case1 => rfl
  | case2 rest ih => simp only [List.all_cons, hreturn, hfeed, ih, Bool.true_and]
  | case3 c rest hnext ih =>
    by_cases hc : c = '\r'
    · simp only [hc, if_true, List.all_cons, hreturn, hfeed, ih]
    · simp only [hc, if_false, List.all_cons, ih]

/-- An initial part and what is behind it make up the text. -/
theorem after?_eq_some_iff {word cs rest : List Char} :
    after? word cs = some rest ↔ cs = word ++ rest := by
  fun_induction after? word cs with
  | case1 => simp
  | case2 => simp
  | case3 p ps cs ih => simp [ih]
  | case4 p ps c cs hne => simp [Ne.symm hne]

/-- An initial part without line ends is in front of both texts. -/
theorem after?_unifyLineEnds {word : List Char} (hword : '\r' ∉ word ∧ '\n' ∉ word)
    (cs : List Char) :
    after? word (unifyLineEnds cs) = (after? word cs).map unifyLineEnds := by
  induction word generalizing cs with
  | nil => rfl
  | cons p word ih =>
    obtain ⟨hreturn, hfeed⟩ := hword
    simp only [List.mem_cons, not_or] at hreturn hfeed
    rcases unifyLineEnds_front cs with ⟨rfl, -⟩ | ⟨c, rest, -, rfl, h⟩ | ⟨rest, tail, rfl, h⟩
    · rfl
    · rw [h, after?, after?]
      split
      · exact ih ⟨hreturn.2, hfeed.2⟩ rest
      · rfl
    · rw [h, after?, after?, if_neg (Ne.symm hfeed.1), if_neg (Ne.symm hreturn.1)]
      rfl

/-- The file of a text gives it back with unified line ends. -/
theorem read_utf8Encode (s : String) :
    Encoding.utf8.read (utf8Encode s) = .ok (String.ofList (unifyLineEnds s.toList)) := by
  rw [Encoding.read, Encoding.decode, utf8Decode_utf8Encode]
  rfl

end MarkupBinding.Text
