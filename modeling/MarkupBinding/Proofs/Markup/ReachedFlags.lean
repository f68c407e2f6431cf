import MarkupBinding.Proofs.Markup.Elements

/-!
# The flags that decide what is removed

Removing what is switched off goes down the trees and leaves out what is inside a removed element.
The flags that it looks at are the reached ones (`Node.reachedFlags`): two ways of switching flags
off remove the same elements exactly where they agree on them (`Node.filterOffAll_eq_iff`). In one
direction the trees are followed as they are; in the other, an element that only one of the two
removes would be left by the other with a flag that the first switches off, and no such element is
left (`Node.isOff_of_mem_filterOffAll`).
-/

set_option autoImplicit false
set_option relaxedAutoImplicit false

namespace MarkupBinding

namespace Node

/-- The flag that an element is marked with. -/
def flag? : Node → Option String
  | element tag _ => tag.attr? Mark.toggleable
  | text _ _ => none

mutual

/-- The flags that are looked at below a node. -/
def flagsBelow (off : String → Bool) : Node → List String
  | element _ children => reachedFlags off children
  | text _ _ => []

/-- The flags that are looked at when what is switched off is removed: those of all elements that
are not inside a removed one. -/
def reachedFlags (off : String → Bool) : List Node → List String
  | [] => []
  | n :: rest =>
    n.flag?.toList ++ (if n.flag?.any off then [] else flagsBelow off n) ++ reachedFlags off rest

end

variable {off other : String → Bool}

theorem isOff_eq (n : Node) : n.isOff off = n.flag?.any off := by
  cases n <;> rfl

/-- A node is removed, or what is switched off below it is. -/
theorem filterOffAll_cons (n : Node) (rest : List Node) :
    filterOffAll off (n :: rest) =
      if n.isOff off then ((filterOffAll off rest).1, (filterOffAll off rest).2 + 1)
      else ((filterOff off n).1 :: (filterOffAll off rest).1,
        (filterOff off n).2 + (filterOffAll off rest).2) := by
  cases n with
  | element tag children => rw [filterOffAll, isOff]
  | text kind content => simp [filterOffAll, filterOff, isOff]

/-- No node that is left is switched off. -/
theorem isOff_of_mem_filterOffAll {nodes : List Node} {n : Node}
    (h : n ∈ (filterOffAll off nodes).1) : n.isOff off = false := by
  obtain ⟨original, -, hoff, rfl⟩ := (mem_filterOffAll_fst off).1 h
  cases original with
  | element tag children => rwa [filterOff_element_fst]
  | text kind content => rwa [filterOff_text_fst]

/-- What is left of a node carries the same flag. -/
theorem isOff_filterOff (off test : String → Bool) (n : Node) :
    (filterOff off n).1.isOff test = n.isOff test := by
  cases n with
  | element tag children => rw [filterOff_element_fst, isOff, isOff]
  | text kind content => rw [filterOff_text_fst]

/-- Where two ways of switching flags off leave the same, what one leaves the other does not remove.
-/
theorem isOff_of_filterOffAll_eq {nodes : List Node}
    (h : (filterOffAll off nodes).1 = (filterOffAll other nodes).1) {n : Node} (hn : n ∈ nodes)
    (hother : n.isOff other = false) : n.isOff off = false := by
  have hleft : (filterOff other n).1 ∈ (filterOffAll off nodes).1 := by
    rw [h]
    exact (mem_filterOffAll_fst other).2 ⟨n, hn, hother, rfl⟩
  rw [← isOff_filterOff other off n]
  exact isOff_of_mem_filterOffAll hleft

/-- Two ways of switching flags off that leave the same switch the same nodes off. -/
theorem isOff_eq_of_filterOffAll_eq {nodes : List Node}
    (h : (filterOffAll off nodes).1 = (filterOffAll other nodes).1) {n : Node} (hn : n ∈ nodes) :
    n.isOff off = n.isOff other := by
  cases hother : n.isOff other with
  | false => exact isOff_of_filterOffAll_eq h hn hother
  | true =>
    cases hoff : n.isOff off with
    | true => rfl
    | false =>
      rw [isOff_of_filterOffAll_eq h.symm hn hoff] at hother
      cases hother

/-- A flag that marks a node is switched off in the same two ways as the node. -/
theorem off_eq_of_mem_flag? {n : Node} (h : n.isOff off = n.isOff other) {flag : String}
    (hflag : flag ∈ n.flag?.toList) : off flag = other flag := by
  rw [Option.mem_toList] at hflag
  rw [isOff_eq, isOff_eq, hflag, Option.any_some, Option.any_some] at h
  exact h

/-- Agreement of two ways of switching flags off below a node, where they leave the same. -/
def AgreeBelow (off other : String → Bool) (n : Node) : Prop :=
  (filterOff off n).1 = (filterOff other n).1 → ∀ flag ∈ flagsBelow off n, off flag = other flag

theorem agree_of_filterOffAll_eq {nodes : List Node} (hbelow : ∀ n ∈ nodes, AgreeBelow off other n)
    (h : (filterOffAll off nodes).1 = (filterOffAll other nodes).1) :
    ∀ flag ∈ reachedFlags off nodes, off flag = other flag := by
  induction nodes with
  | nil => exact fun _ hflag ↦ absurd hflag List.not_mem_nil
  | cons n rest ih =>
    have hrest := ih fun m hm ↦ hbelow m (List.mem_cons_of_mem _ hm)
    have hsame := isOff_eq_of_filterOffAll_eq h List.mem_cons_self
    rw [filterOffAll_cons, filterOffAll_cons, ← hsame] at h
    intro flag hflag
    rw [reachedFlags, ← isOff_eq, List.mem_append, List.mem_append, or_assoc] at hflag
    rcases hflag with hown | hothers
    · exact off_eq_of_mem_flag? hsame hown
    cases hoff : n.isOff off with
    | true =>
      rw [hoff] at h hothers
      exact hrest h flag (hothers.resolve_left List.not_mem_nil)
    | false =>
      rw [hoff] at h hothers
      obtain ⟨hfirst, hlater⟩ := List.cons.inj h
      exact hothers.elim (hbelow n List.mem_cons_self hfirst flag) (hrest hlater flag)

theorem agreeBelow (n : Node) : AgreeBelow off other n := by
  induction n using induction_on_children with
  | text kind content => exact fun _ _ hflag ↦ absurd hflag List.not_mem_nil
  | element tag children ih =>
    intro h
    rw [filterOff_element_fst, filterOff_element_fst] at h
    exact agree_of_filterOffAll_eq ih (Node.element.inj h).2

theorem filterOffAll_congr {nodes : List Node}
    (hbelow : ∀ n ∈ nodes, (∀ flag ∈ flagsBelow off n, off flag = other flag) →
      filterOff off n = filterOff other n)
    (h : ∀ flag ∈ reachedFlags off nodes, off flag = other flag) :
    filterOffAll off nodes = filterOffAll other nodes := by
  induction nodes with
  | nil => rfl
  | cons n rest ih =>
    simp only [reachedFlags, ← isOff_eq, List.mem_append, or_assoc] at h
    have hrest := ih (fun m hm ↦ hbelow m (List.mem_cons_of_mem _ hm))
      fun flag hflag ↦ h flag (Or.inr (Or.inr hflag))
    have hsame : n.isOff off = n.isOff other := by
      rw [isOff_eq, isOff_eq]
      cases hflag : n.flag? with
      | none => rfl
      | some flag => exact h flag (Or.inl (by rw [hflag]; exact List.mem_singleton_self _))
    rw [filterOffAll_cons, filterOffAll_cons, ← hsame, hrest]
    cases hoff : n.isOff off with
    | true => rfl
    | false =>
      have hn := hbelow n List.mem_cons_self fun flag hflag ↦ h flag (Or.inr (Or.inl (by
        rw [hoff]
        exact hflag)))
      rw [hn]

theorem filterOff_congr (n : Node) :
    (∀ flag ∈ flagsBelow off n, off flag = other flag) → filterOff off n = filterOff other n := by
  induction n using induction_on_children with
  | text kind content => exact fun _ ↦ rfl
  | element tag children ih =>
    intro h
    rw [filterOff, filterOff, filterOffAll_congr ih h]

/-- Two ways of switching flags off remove the same elements, and as many, exactly where they agree
on the reached flags. -/
theorem filterOffAll_eq_iff {nodes : List Node} :
    filterOffAll off nodes = filterOffAll other nodes ↔
      ∀ flag ∈ reachedFlags off nodes, off flag = other flag :=
  ⟨fun h ↦ agree_of_filterOffAll_eq (fun n _ ↦ agreeBelow n) (congrArg Prod.fst h),
    filterOffAll_congr fun n _ ↦ filterOff_congr n⟩

end Node

end MarkupBinding
