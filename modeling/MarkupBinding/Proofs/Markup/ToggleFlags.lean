import Mathlib.Data.List.Induction
import MarkupBinding.Proofs.Markup.Elements

/-!
# The toggle flags of a document

The toggle flags of a document are the flags that its elements carry, but for the empty one, each
once and in the order in which they first occur (`Document.listsFlags_toggleFlags`).
-/

set_option autoImplicit false
set_option relaxedAutoImplicit false

namespace MarkupBinding

namespace Keyed

variable {α γ : Type} [BEq α]

/-- A further member goes to the end if it is new. -/
theorem distinct_concat (xs : List α) (x : α) :
    distinct (xs ++ [x]) =
      if (distinct xs).contains x then distinct xs else distinct xs ++ [x] := by
  rw [distinct, List.foldl_append]
  rfl

/-- The distinct values of a list come in the order in which they first occur. -/
theorem pairwise_distinct_filterMap [LawfulBEq α] (f : γ → Option α) (ts : List γ) :
    (distinct (ts.filterMap f)).Pairwise fun first second ↦
      ts.findIdx (f · == some first) < ts.findIdx (f · == some second) := by
  induction ts using List.reverseRecOn with
  | nil => exact List.Pairwise.nil
  | append_singleton ts t ih =>
    -- a value that occurs already has its first occurrence where it was
    have hseen : ∀ x ∈ distinct (ts.filterMap f),
        (ts ++ [t]).findIdx (f · == some x) = ts.findIdx (f · == some x) ∧
          ts.findIdx (f · == some x) < ts.length := by
      intro x hx
      obtain ⟨s, hs, hfs⟩ := List.mem_filterMap.1 (((distinct_spec _).2 x).1 hx)
      have hlt : ts.findIdx (f · == some x) < ts.length :=
        List.findIdx_lt_length_of_exists ⟨s, hs, by rw [hfs, beq_self_eq_true]⟩
      exact ⟨by rw [List.findIdx_append, if_pos hlt], hlt⟩
    have hold : (distinct (ts.filterMap f)).Pairwise fun first second ↦
        (ts ++ [t]).findIdx (f · == some first) < (ts ++ [t]).findIdx (f · == some second) := by
      refine ih.imp_of_mem fun hfirst hsecond hlt ↦ ?_
      rw [(hseen _ hfirst).1, (hseen _ hsecond).1]
      exact hlt
    rw [List.filterMap_append]
    cases hf : f t with
    | none =>
      rw [List.filterMap_cons_none hf, List.filterMap_nil, List.append_nil]
      exact hold
    | some x =>
      rw [List.filterMap_cons_some hf, List.filterMap_nil, distinct_concat]
      split
      · exact hold
      · next hnew =>
        refine List.pairwise_append.2 ⟨hold, List.pairwise_singleton _ _, fun y hy z hz ↦ ?_⟩
        obtain rfl := List.mem_singleton.1 hz
        have hend : ts.findIdx (f · == some z) = ts.length := by
          refine List.findIdx_eq_length.2 fun s hs ↦ beq_false_of_ne fun hfs ↦ hnew ?_
          rw [List.contains_iff_mem, (distinct_spec _).2]
          exact List.mem_filterMap.2 ⟨s, hs, hfs⟩
        rw [(hseen y hy).1, List.findIdx_append, hend, if_neg (Nat.lt_irrefl _)]
        exact Nat.lt_of_lt_of_le (hseen y hy).2 (Nat.le_add_left _ _)

end Keyed

namespace Document

/-- The flags are those that elements of the document carry, but for the empty one, each once, in
the order in which they first occur. -/
structure ListsFlags (d : Document) (flags : List String) : Prop where
  nodup : flags.Nodup
  mem_iff : ∀ flag, flag ∈ flags ↔ flag ≠ "" ∧ ∃ t ∈ d.tags, t.attr? Mark.toggleable = some flag
  ordered : flags.Pairwise fun first second ↦
    d.tags.findIdx (·.attr? Mark.toggleable == some first) <
      d.tags.findIdx (·.attr? Mark.toggleable == some second)

theorem mem_toggleFlags_iff {d : Document} {flag : String} :
    flag ∈ d.toggleFlags ↔ flag ≠ "" ∧ ∃ t ∈ d.tags, t.attr? Mark.toggleable = some flag := by
  rw [toggleFlags, (Keyed.distinct_spec _).2, List.mem_filter, List.mem_filterMap, and_comm]
  simp

theorem listsFlags_toggleFlags (d : Document) : d.ListsFlags d.toggleFlags where
  nodup := (Keyed.distinct_spec _).1
  mem_iff _ := mem_toggleFlags_iff
  ordered := by
    have hflags : d.toggleFlags = Keyed.distinct (d.tags.filterMap fun t ↦
        (t.attr? Mark.toggleable).filter (!·.isEmpty)) := by
      rw [toggleFlags, List.filter_filterMap]
    -- the flag of an element is left out only if it is empty
    have hkept : ∀ flag ∈ d.toggleFlags, ∀ t : Tag,
        ((t.attr? Mark.toggleable).filter (!·.isEmpty) == some flag) =
          (t.attr? Mark.toggleable == some flag) := by
      intro flag hflag t
      have hne := (mem_toggleFlags_iff.1 hflag).1
      rw [Bool.eq_iff_iff, beq_iff_eq, beq_iff_eq, Option.filter_eq_some_iff]
      simp [hne]
    have hordered := Keyed.pairwise_distinct_filterMap
      (fun t : Tag ↦ (t.attr? Mark.toggleable).filter (!·.isEmpty)) d.tags
    rw [← hflags] at hordered
    refine hordered.imp_of_mem fun hfirst hsecond hlt ↦ ?_
    rw [funext (hkept _ hfirst), funext (hkept _ hsecond)] at hlt
    exact hlt

end Document

end MarkupBinding
