import Mathlib.Data.List.Nodup
import Mathlib.Data.List.Perm.Subperm
import Mathlib.Data.Nat.Find
import MarkupBinding.Record.Layout

/-!
# Free type names

A type takes the class name for its template name, or that name with the first number from two on
behind it that nobody has taken (`FirstFree`). The search for the number is bounded by how many
names are taken, and that is enough (`firstFree_freshName`): numbers give distinct names, so the
taken ones cannot cover as many candidates as the search tries (`exists_free`).
-/

set_option autoImplicit false
set_option relaxedAutoImplicit false

namespace MarkupBinding.RecordLayout

/-- The name is the base if that is free, else the base with the least number from two on that is.
-/
inductive FirstFree (taken : List String) (base : String) : String → Prop
  | plain (hfree : base ∉ taken) : FirstFree taken base base
  | numbered {n : Nat} (htaken : base ∈ taken) (hn : 2 ≤ n)
      (hbelow : ∀ k, 2 ≤ k → k < n → base ++ toString k ∈ taken)
      (hfree : base ++ toString n ∉ taken) : FirstFree taken base (base ++ toString n)

/-- The name is the class name for a template name, or that with a number from two on behind it. -/
def NamedFor (source name : String) : Prop :=
  name = RecordName.className source ∨
    ∃ n : Nat, 2 ≤ n ∧ name = RecordName.className source ++ toString n

section Laws

variable {taken : List String} {base name : String}

/-- A first free name is free. -/
theorem FirstFree.not_mem (h : FirstFree taken base name) : name ∉ taken := by
  cases h with
  | plain hfree => exact hfree
  | numbered _ _ _ hfree => exact hfree

/-- What makes a first free name other than the base is that the base is taken. -/
theorem FirstFree.base_mem (h : FirstFree taken base name) : base ∈ name :: taken := by
  cases h with
  | plain hfree => exact List.mem_cons_self
  | numbered htaken _ _ _ => exact List.mem_cons_of_mem _ htaken

theorem FirstFree.namedFor {source : String}
    (h : FirstFree taken (RecordName.className source) name) : NamedFor source name := by
  cases h with
  | plain _ => exact Or.inl rfl
  | numbered _ hn _ _ => exact Or.inr ⟨_, hn, rfl⟩

/-- Behind one base, other numbers give other names. -/
theorem append_toString_injective (base : String) :
    Function.Injective fun n : Nat ↦ base ++ toString n := by
  intro m n h
  have hdigits : Nat.toDigits 10 m = Nat.toDigits 10 n := by
    have hchars := congrArg String.toList h
    simp only [String.toList_append] at hchars
    simpa [Nat.toString_eq_ofList_toDigits] using List.append_cancel_left hchars
  have hvalue := congrArg (fun digits ↦ Nat.ofDigitChars 10 digits 0) hdigits
  simpa using hvalue

/-- Among one number more than there are taken names, one gives a free name. -/
theorem exists_free (taken : List String) (base : String) (start : Nat) :
    ∃ n, start ≤ n ∧ n ≤ start + taken.length ∧ base ++ toString n ∉ taken := by
  by_contra hnone
  push Not at hnone
  have hcovered : (List.range' start (taken.length + 1)).map (base ++ toString ·) ⊆ taken := by
    intro candidate hcandidate
    obtain ⟨n, hn, rfl⟩ := List.mem_map.1 hcandidate
    obtain ⟨hlow, hhigh⟩ := List.mem_range'_1.1 hn
    exact hnone n hlow (by omega)
  have hdistinct : ((List.range' start (taken.length + 1)).map (base ++ toString ·)).Nodup :=
    (List.nodup_range' 1 (by decide)).map (append_toString_injective base)
  have hlength := (hdistinct.subperm hcovered).length_le
  rw [List.length_map, List.length_range'] at hlength
  omega

/-- Trying numbers finds the first that gives a free name, if it is among those tried. -/
theorem numbered_eq {fuel start n : Nat} (hstart : start ≤ n) (hfuel : n ≤ start + fuel)
    (hbelow : ∀ k, start ≤ k → k < n → base ++ toString k ∈ taken)
    (hfree : base ++ toString n ∉ taken) : numbered base taken fuel start = base ++ toString n := by
  induction fuel generalizing start with
  | zero =>
    have hsame : start = n := by omega
    rw [numbered, hsame]
  | succ fuel ih =>
    rw [numbered]
    by_cases hsame : start = n
    · rw [hsame, if_neg (by simpa using hfree)]
    · have htaken : base ++ toString start ∈ taken := hbelow start (Nat.le_refl _) (by omega)
      rw [if_pos (by simpa using htaken)]
      exact ih (by omega) (by omega) fun k hk hlt ↦ hbelow k (by omega) hlt

/-- A type takes the first free name. -/
theorem firstFree_freshName (taken : List String) (name : String) :
    FirstFree taken (RecordName.className name) (freshName taken name) := by
  rw [freshName]
  by_cases htaken : RecordName.className name ∈ taken
  · rw [if_pos (by simpa using htaken)]
    obtain ⟨bound, hlow, hhigh, hfree⟩ := exists_free taken (RecordName.className name) 2
    have hexists : ∃ n, 2 ≤ n ∧ RecordName.className name ++ toString n ∉ taken :=
      ⟨bound, hlow, hfree⟩
    obtain ⟨hn, hfirst⟩ := Nat.find_spec hexists
    have hbelow : ∀ k, 2 ≤ k → k < Nat.find hexists →
        RecordName.className name ++ toString k ∈ taken := by
      intro k hk hlt
      by_contra hfreeBelow
      exact Nat.find_min hexists hlt ⟨hk, hfreeBelow⟩
    -- the least number that will do is no greater than the one that is there
    have hleast : Nat.find hexists ≤ bound := Nat.find_min' hexists ⟨hlow, hfree⟩
    rw [numbered_eq hn (Nat.le_trans hleast hhigh) hbelow hfirst]
    exact .numbered htaken hn hbelow hfirst
  · rw [if_neg (by simpa using htaken)]
    exact .plain htaken

end Laws

end MarkupBinding.RecordLayout
