import MarkupBinding.Proofs.Markup.ReachedFlags

/-!
# Removing listed elements one by one

What is switched off may also be removed by a loop: all elements are listed with their places before
anything is taken out; the loop then goes through the list, passes over what already went with an
element taken out before, and takes out each of the others that is switched off (`Node.sweep`).

Where no place taken out so far lies on the way to a tree, the loop takes out of this tree the
places of its outermost switched off elements (`foldl_sweepStep_placed`). Hence the loop leaves the
same trees as the removal that goes down the trees, and its count is the number of places taken out
(`filterOffAll_eq_sweep`).
-/

set_option autoImplicit false
set_option relaxedAutoImplicit false

namespace MarkupBinding.Node

/-! ### The loop -/

mutual

/-- The elements of a tree at a place in document order, each with its own place. -/
def placed (here : Place) : Node → List (Place × Tag)
  | element tag children => (here, tag) :: placedAll here 0 children
  | text _ _ => []

/-- The elements of siblings below a place, the first of which is child number `i`. -/
def placedAll (above : Place) (i : Nat) : List Node → List (Place × Tag)
  | [] => []
  | n :: rest => n.placed (above ++ [i]) ++ placedAll above (i + 1) rest

end

/-- What the loop does with a listed element, where `out` are the places taken out so far. -/
def sweepStep (off : String → Bool) (out : List Place) (listed : Place × Tag) : List Place :=
  if ∃ gone ∈ out, gone <+: listed.1 then out
  else if listed.2.isOff off then out ++ [listed.1] else out

/-- The places that the loop over all elements takes out. -/
def sweep (off : String → Bool) (nodes : List Node) : List Place :=
  (placedAll [] 0 nodes).foldl (sweepStep off) []

mutual

/-- The tree at a place without the nodes at the places that were taken out. -/
def without (out : List Place) (here : Place) : Node → Node
  | element tag children => element tag (withoutAll out here 0 children)
  | text kind content => text kind content

/-- The siblings below a place without the nodes at the places that were taken out. -/
def withoutAll (out : List Place) (above : Place) (i : Nat) : List Node → List Node
  | [] => []
  | n :: rest =>
    if above ++ [i] ∈ out then withoutAll out above (i + 1) rest
    else n.without out (above ++ [i]) :: withoutAll out above (i + 1) rest

end

/-! ### The outermost switched off elements -/

mutual

/-- The places of the switched off elements of a tree at a place that are inside no other. -/
def outermostOff (off : String → Bool) (here : Place) : Node → List Place
  | element tag children =>
    if tag.isOff off then [here] else outermostOffAll off here 0 children
  | text _ _ => []

/-- The places of the switched off elements of siblings below a place that are inside no other. -/
def outermostOffAll (off : String → Bool) (above : Place) (i : Nat) : List Node → List Place
  | [] => []
  | n :: rest => n.outermostOff off (above ++ [i]) ++ outermostOffAll off above (i + 1) rest

end

variable {off : String → Bool} {here above p : Place} {i : Nat} {nodes children : List Node}
  {tag : Tag} {out : List Place}

/-- Places below two siblings are not the same. -/
theorem eq_of_below {j : Nat} (hi : above ++ [i] <+: p) (hj : above ++ [j] <+: p) : i = j := by
  have hsame : above ++ [i] <+: above ++ [j] :=
    List.prefix_of_prefix_length_le hi hj (by simp)
  simpa using hsame.eq_of_length (by simp)

/-- A place below some sibling from number `i` on. -/
def LiesFrom (above : Place) (i : Nat) (p : Place) : Prop :=
  ∃ j, i ≤ j ∧ above ++ [j] <+: p

theorem LiesFrom.of_succ (h : LiesFrom above (i + 1) p) : LiesFrom above i p :=
  h.imp fun _ hj ↦ ⟨by omega, hj.2⟩

theorem LiesFrom.of_below (h : above ++ [i] <+: p) : LiesFrom above i p :=
  ⟨i, Nat.le_refl i, h⟩

/-- What lies below later siblings does not lie below an earlier one. -/
theorem LiesFrom.not_below (h : LiesFrom above (i + 1) p) : ¬ above ++ [i] <+: p := by
  obtain ⟨j, hle, hj⟩ := h
  intro hi
  have := eq_of_below hi hj
  omega

theorem LiesFrom.inside (h : LiesFrom above i p) : above <+: p := by
  obtain ⟨j, -, hj⟩ := h
  exact (List.prefix_append above [j]).trans hj

/-- No element lies at the place of its own parent. -/
theorem not_liesFrom_self : ¬ LiesFrom above i above := by
  rintro ⟨j, -, hj⟩
  have := hj.length_le
  rw [List.length_append, List.length_singleton] at this
  omega

theorem liesFrom_of_mem_outermostOffAll_of_forall
    (h : ∀ n ∈ nodes, ∀ {here p : Place}, p ∈ n.outermostOff off here → here <+: p) :
    ∀ {i : Nat}, p ∈ outermostOffAll off above i nodes → LiesFrom above i p := by
  induction nodes with
  | nil => exact fun hp ↦ absurd hp List.not_mem_nil
  | cons n rest ih =>
    intro i hp
    rcases List.mem_append.1 hp with hfirst | hrest
    · exact .of_below (h n List.mem_cons_self hfirst)
    · exact (ih (fun m hm ↦ h m (List.mem_cons_of_mem n hm)) hrest).of_succ

/-- Outermost switched off elements lie in the tree. -/
theorem prefix_of_mem_outermostOff (n : Node) :
    ∀ {here p : Place}, p ∈ n.outermostOff off here → here <+: p := by
  induction n using induction_on_children with
  | text kind content => exact fun hp ↦ absurd hp List.not_mem_nil
  | element tag children ih =>
    intro here p hp
    rw [outermostOff] at hp
    split at hp
    · obtain rfl := List.mem_singleton.1 hp
      exact List.prefix_rfl
    · exact (liesFrom_of_mem_outermostOffAll_of_forall ih hp).inside

theorem liesFrom_of_mem_outermostOffAll (hp : p ∈ outermostOffAll off above i nodes) :
    LiesFrom above i p :=
  liesFrom_of_mem_outermostOffAll_of_forall (fun n _ ↦ prefix_of_mem_outermostOff n) hp

/-! ### What the loop takes out -/

section Loop

/-- What is listed of siblings lies below them. -/
theorem liesFrom_of_mem_placedAll_of_forall {e : Place × Tag}
    (h : ∀ n ∈ nodes, ∀ {here : Place}, e ∈ n.placed here → here <+: e.1) :
    ∀ {i : Nat}, e ∈ placedAll above i nodes → LiesFrom above i e.1 := by
  induction nodes with
  | nil => exact fun he ↦ absurd he List.not_mem_nil
  | cons n rest ih =>
    intro i he
    rcases List.mem_append.1 he with hfirst | hrest
    · exact .of_below (h n List.mem_cons_self hfirst)
    · exact (ih (fun m hm ↦ h m (List.mem_cons_of_mem n hm)) hrest).of_succ

theorem prefix_of_mem_placed (n : Node) {e : Place × Tag} :
    ∀ {here : Place}, e ∈ n.placed here → here <+: e.1 := by
  induction n using induction_on_children with
  | text kind content => exact fun he ↦ absurd he List.not_mem_nil
  | element tag children ih =>
    intro here he
    rcases List.mem_cons.1 he with rfl | hbelow
    · exact List.prefix_rfl
    · exact (liesFrom_of_mem_placedAll_of_forall ih hbelow).inside

/-- The loop passes over all that is inside an element taken out before. -/
theorem foldl_sweepStep_of_gone {gone : Place} (hgone : gone ∈ out) :
    ∀ {listed : List (Place × Tag)}, (∀ e ∈ listed, gone <+: e.1) →
      listed.foldl (sweepStep off) out = out := by
  intro listed
  induction listed with
  | nil => exact fun _ ↦ rfl
  | cons e rest ih =>
    intro h
    rw [List.foldl_cons, sweepStep, if_pos ⟨gone, hgone, h e List.mem_cons_self⟩]
    exact ih fun e' he' ↦ h e' (List.mem_cons_of_mem e he')

/-- No place taken out so far is that of a node at or inside the place, or of one around it. -/
def Clear (out : List Place) (here : Place) : Prop :=
  ∀ gone ∈ out, ∀ p, here <+: p → ¬ gone <+: p

/-- Where the way to a tree is clear, the loop takes out its outermost switched off elements. -/
def Sweeps (off : String → Bool) (n : Node) : Prop :=
  ∀ (here : Place) (out : List Place), Clear out here →
    (n.placed here).foldl (sweepStep off) out = out ++ n.outermostOff off here

theorem foldl_sweepStep_placedAll_of_forall (h : ∀ n ∈ nodes, Sweeps off n) :
    ∀ {i : Nat} {out : List Place},
      (∀ gone ∈ out, ∀ p, LiesFrom above i p → ¬ gone <+: p) →
      (placedAll above i nodes).foldl (sweepStep off) out =
        out ++ outermostOffAll off above i nodes := by
  induction nodes with
  | nil => exact fun _ ↦ (List.append_nil _).symm
  | cons n rest ih =>
    intro i out hclear
    rw [placedAll, List.foldl_append, outermostOffAll,
      h n List.mem_cons_self _ out fun gone hgone p hp ↦ hclear gone hgone p (.of_below hp)]
    -- what was just taken out lies below the first sibling, so the way to the others stays clear
    rw [ih (fun m hm ↦ h m (List.mem_cons_of_mem n hm)) ?_, List.append_assoc]
    intro gone hgone p hp hway
    rcases List.mem_append.1 hgone with hold | hnew
    · exact hclear gone hold p hp.of_succ hway
    · exact hp.not_below ((prefix_of_mem_outermostOff n hnew).trans hway)

theorem foldl_sweepStep_placed (n : Node) : Sweeps off n := by
  induction n using induction_on_children with
  | text kind content => exact fun _ _ _ ↦ (List.append_nil _).symm
  | element tag children ih =>
    intro here out hclear
    have hfree : ¬ ∃ gone ∈ out, gone <+: here := by
      rintro ⟨gone, hgone, hway⟩
      exact hclear gone hgone here List.prefix_rfl hway
    rw [placed, List.foldl_cons, sweepStep, if_neg hfree, outermostOff]
    split
    · exact foldl_sweepStep_of_gone (List.mem_append_right _ (List.mem_singleton_self here))
        fun e he ↦ (liesFrom_of_mem_placedAll_of_forall
          (fun n _ ↦ prefix_of_mem_placed n) he).inside
    · exact foldl_sweepStep_placedAll_of_forall ih fun gone hgone p hp ↦
        hclear gone hgone p hp.inside

/-- The loop takes out the outermost switched off elements. -/
theorem sweep_eq (off : String → Bool) (nodes : List Node) :
    sweep off nodes = outermostOffAll off [] 0 nodes :=
  foldl_sweepStep_placedAll_of_forall (fun n _ ↦ foldl_sweepStep_placed n)
    fun _ hgone ↦ absurd hgone List.not_mem_nil

end Loop

/-! ### What the loop leaves -/

section Left

/-- As many elements are removed as there are outermost switched off ones. -/
theorem length_outermostOffAll_of_forall
    (h : ∀ n ∈ nodes, ∀ here, n.isOff off = false →
      (n.outermostOff off here).length = (filterOff off n).2) :
    ∀ {i : Nat}, (outermostOffAll off above i nodes).length = (filterOffAll off nodes).2 := by
  induction nodes with
  | nil => exact fun {_} ↦ rfl
  | cons n rest ih =>
    intro i
    rw [outermostOffAll, List.length_append,
      ih fun m hm ↦ h m (List.mem_cons_of_mem n hm), filterOffAll_cons]
    cases hoff : n.isOff off with
    | false => rw [if_neg Bool.false_ne_true, h n List.mem_cons_self _ hoff]
    | true =>
      cases n with
      | text kind content => cases hoff
      | element tag children =>
        have htag : tag.isOff off = true := hoff
        rw [if_pos rfl, outermostOff, if_pos htag, List.length_singleton, Nat.add_comm]

theorem length_outermostOff (n : Node) (here : Place) (hoff : n.isOff off = false) :
    (n.outermostOff off here).length = (filterOff off n).2 := by
  induction n using induction_on_children generalizing here with
  | text kind content => rfl
  | element tag children ih =>
    have htag : tag.isOff off = false := hoff
    rw [outermostOff, if_neg (ne_true_of_eq_false htag), filterOff]
    exact length_outermostOffAll_of_forall fun n hn here hn' ↦ ih n hn here hn'

/-- The places taken out are, from a place on, those of the outermost switched off elements. -/
def TakesOut (off : String → Bool) (out : List Place) (n : Node) : Prop :=
  ∀ here, n.isOff off = false → (∀ p, here <+: p → (p ∈ out ↔ p ∈ n.outermostOff off here)) →
    n.without out here = (filterOff off n).1

theorem withoutAll_of_forall (h : ∀ n ∈ nodes, TakesOut off out n) :
    ∀ {i : Nat}, (∀ p, LiesFrom above i p → (p ∈ out ↔ p ∈ outermostOffAll off above i nodes)) →
      withoutAll out above i nodes = (filterOffAll off nodes).1 := by
  induction nodes with
  | nil => exact fun _ ↦ rfl
  | cons n rest ih =>
    intro i hout
    have hrest : withoutAll out above (i + 1) rest = (filterOffAll off rest).1 := by
      refine ih (fun m hm ↦ h m (List.mem_cons_of_mem n hm)) fun p hp ↦ ?_
      rw [hout p hp.of_succ, outermostOffAll, List.mem_append]
      exact or_iff_right fun hfirst ↦ hp.not_below (prefix_of_mem_outermostOff n hfirst)
    have hown : above ++ [i] ∈ out ↔ above ++ [i] ∈ n.outermostOff off (above ++ [i]) := by
      rw [hout _ (.of_below List.prefix_rfl), outermostOffAll, List.mem_append]
      refine or_iff_left fun hlater ↦ ?_
      exact (liesFrom_of_mem_outermostOffAll hlater).not_below List.prefix_rfl
    rw [withoutAll, filterOffAll_cons, hrest]
    cases n with
    | text kind content =>
      rw [if_neg fun hin ↦ absurd (hown.1 hin) List.not_mem_nil]
      simp [isOff, without]
    | element tag children =>
      cases htag : tag.isOff off with
      | true =>
        have hgone : above ++ [i] ∈ out := by
          rw [hown, outermostOff, if_pos htag]
          exact List.mem_singleton_self _
        have hnode : (Node.element tag children).isOff off = true := htag
        rw [if_pos hgone, if_pos hnode]
      | false =>
        have hnode : (Node.element tag children).isOff off = false := htag
        have hstays : above ++ [i] ∉ out := by
          rw [hown, outermostOff, if_neg (ne_true_of_eq_false htag)]
          exact fun hin ↦ not_liesFrom_self (liesFrom_of_mem_outermostOffAll hin)
        rw [if_neg hstays, if_neg (ne_true_of_eq_false hnode),
          h _ List.mem_cons_self _ hnode fun p hp ↦ ?_]
        rw [hout p (.of_below hp), outermostOffAll, List.mem_append]
        exact or_iff_left fun hlater ↦ (liesFrom_of_mem_outermostOffAll hlater).not_below hp

theorem takesOut (n : Node) : TakesOut off out n := by
  induction n using induction_on_children with
  | text kind content => exact fun _ _ _ ↦ by rw [without, filterOff]
  | element tag children ih =>
    intro here hoff hout
    have htag : tag.isOff off = false := hoff
    rw [outermostOff, if_neg (ne_true_of_eq_false htag)] at hout
    rw [without, filterOff_element_fst, withoutAll_of_forall ih fun p hp ↦ hout p hp.inside]

/-- Taking out listed elements one by one leaves the trees, and counts the elements, that removing
what is switched off on the way down the trees does. -/
theorem filterOffAll_eq_sweep (off : String → Bool) (nodes : List Node) :
    filterOffAll off nodes =
      (withoutAll (sweep off nodes) [] 0 nodes, (sweep off nodes).length) := by
  rw [sweep_eq, withoutAll_of_forall (fun n _ ↦ takesOut n) fun _ _ ↦ Iff.rfl,
    length_outermostOffAll_of_forall fun n _ here hoff ↦ length_outermostOff n here hoff]

end Left

end MarkupBinding.Node
