import MarkupBinding.Proofs.Binding.Coupling
import MarkupBinding.Proofs.Binding.Origin

/-!
# Texts of the input are never read

What binding does with a document hangs on the shape of the input, not on what its texts say.
`SameShape` relates two inputs that differ in the contents of texts only. Binding them stops at the
same error, or gives trees that differ in bound texts and bound attribute values only
(`result_bind_of_sameShape`): no text of the input is looked at for placeholders, names or markup.

The proof is a `Coupling` that lets any two texts stand for each other.
-/

set_option autoImplicit false
set_option relaxedAutoImplicit false

namespace MarkupBinding

/-- Two pieces of data have the same keys, list lengths, truth values, numbers and nulls in the same
places; their texts may differ. -/
inductive SameShape : Value → Value → Prop
  | null : SameShape .null .null
  | bool (b : Bool) : SameShape (.bool b) (.bool b)
  | int (n : Int) : SameShape (.int n) (.int n)
  | float (x : Binary64) : SameShape (.float x) (.float x)
  | string (x y : String) : SameShape (.string x) (.string y)
  | list {items others : List Value} (h : List.Forall₂ SameShape items others) :
      SameShape (.list items) (.list others)
  | object {fields others : List (String × Value)} (hkeys : Keyed.keys fields = Keyed.keys others)
      (h : List.Forall₂ SameShape (fields.map Prod.snd) (others.map Prod.snd)) :
      SameShape (.object fields) (.object others)

namespace SameShape

variable {v w : Value}

/-- Fields with the same keys and values of the same shape have such values under each key. -/
theorem lookup {others : List (String × Value)} (name : String) :
    ∀ {fields : List (String × Value)}, Keyed.keys fields = Keyed.keys others →
      List.Forall₂ SameShape (fields.map Prod.snd) (others.map Prod.snd) →
        Option.Rel SameShape (fields.lookup name) (others.lookup name) := by
  induction others with
  | nil =>
    intro fields hkeys _
    obtain rfl := List.map_eq_nil_iff.1 hkeys
    exact .none
  | cons b others ih =>
    intro fields hkeys h
    obtain ⟨a, fields, rfl, hkey, hrest⟩ := List.map_eq_cons_iff.1 hkeys
    cases h with
    | cons hfirst hbelow =>
      rw [List.lookup_cons, List.lookup_cons, hkey]
      split
      · exact .some hfirst
      · exact ih hrest hbelow

/-- Values of the same shape have properties of the same shape under the same names. -/
theorem property? (h : SameShape v w) (name : String) :
    Option.Rel SameShape (v.property? name) (w.property? name) := by
  cases h with
  | null | bool | int | float | string | list => exact .none
  | object hkeys h =>
    change Option.Rel SameShape (Value.present _) (Value.present _)
    rcases rel_cases (lookup name hkeys h) with ⟨hv, hw⟩ | ⟨x, y, hv, hw, hxy⟩
    · rw [hv, hw]
      exact .none
    · rw [hv, hw]
      cases hxy with
      | null => exact .none
      | bool b => exact .some (.bool b)
      | int n => exact .some (.int n)
      | float x => exact .some (.float x)
      | string x y => exact .some (.string x y)
      | list h => exact .some (.list h)
      | object hkeys h => exact .some (.object hkeys h)

/-- Lists have the same shape as lists only. -/
theorem items (h : SameShape v w) :
    (∃ items others, v = .list items ∧ w = .list others ∧ List.Forall₂ SameShape items others) ∨
      (∀ items, v ≠ .list items) ∧ ∀ items, w ≠ .list items := by
  cases h with
  | list h => exact Or.inl ⟨_, _, rfl, rfl, h⟩
  | null | bool | int | float | string | object =>
    exact Or.inr ⟨fun _ h ↦ Value.noConfusion h, fun _ h ↦ Value.noConfusion h⟩

theorem eq_false_iff (h : SameShape v w) : v = .bool false ↔ w = .bool false := by
  cases h with
  | bool b => exact Iff.rfl
  | null | int | float | string | list | object => simp

end SameShape

namespace Binding

/-- Inputs of the same shape stand for each other, whatever their texts are. -/
def Coupling.shape : Coupling where
  values := SameShape
  texts _ _ := True
  names _ := True
  shown _ := True
  property h _ := h.property? _
  items h := h.items
  flag h := h.eq_false_iff
  display _ _ := trivial
  refl _ := trivial
  append _ _ := trivial

end Binding

open Binding

/-- Where no attribute binding sets a mark, binding two inputs that differ in the contents of texts
only stops at the same error, or gives trees that differ only in the texts of elements with a text
binding and in the values of attributes that are bound. -/
theorem Document.result_bind_of_sameShape {d : Document} (hmarks : ∀ t ∈ d.tags, t.KeepsMarks)
    {input other : Value} (h : SameShape input other) :
    (∃ e, (d.bind input).result = .error e ∧ (d.bind other).result = .error e) ∨
      ∃ bound bound', (d.bind input).result = .ok bound ∧ (d.bind other).result = .ok bound' ∧
        List.Forall₂ (Node.Alike (fun _ _ ↦ True) false) bound bound' := by
  have hgood : ∀ entry ∈ (d.bind input).reports, Coupling.shape.Good entry := by
    intro entry hentry
    cases entry with
    | visited tag children stack =>
      obtain ⟨hold, -, hv⟩ := Document.visits_of_visited hentry
      have hkeeps := (Document.from_of_visits hv).keepsMarks
        (Document.keepsMarks_filterToggles hmarks input)
      exact ⟨fun _ _ ↦ trivial, fun _ _ _ _ ↦ trivial, Or.inl hkeeps⟩
    | leftUnbound | contentRemoved => trivial
  have hvalues : Coupling.shape.values input other := h
  obtain ⟨hfault, hvalue⟩ := Coupling.parallel_bind hvalues (fun _ _ _ _ ↦ trivial) hgood
  rw [Walk.result, Walk.result, ← hfault]
  cases hend : (d.bind input).fault with
  | some e => exact Or.inl ⟨e, rfl, rfl⟩
  | none => exact Or.inr ⟨_, _, rfl, rfl, hvalue hend⟩

/-- A page that greets by name and links to a profile. -/
def greeting : Document :=
  [.element ⟨"h1", [(Mark.textContent, .plain "name")]⟩ [],
    .element ⟨"a", [("data-attribute-href", .plain "/u/$\x7bname\x7d")]⟩ []]

theorem result_bind_of_sameShape_greeting :
    let input := Value.object [("name", .string "Ada")]
    let other := Value.object [("name", .string "$\x7bsecret.key\x7d<b data-collection=\"x\">")]
    (∀ t ∈ greeting.tags, t.KeepsMarks) ∧ SameShape input other ∧
      ∃ bound bound', (greeting.bind input).result = .ok bound ∧
        (greeting.bind other).result = .ok bound' ∧
          List.Forall₂ (Node.Alike (fun _ _ ↦ True) false) bound bound' := by
  intro input other
  have hmarks : ∀ t ∈ greeting.tags, t.KeepsMarks := by decide +kernel
  have hshape : SameShape input other := .object rfl (.cons (.string _ _) .nil)
  refine ⟨hmarks, hshape, (Document.result_bind_of_sameShape hmarks hshape).resolve_left ?_⟩
  rintro ⟨e, he, -⟩
  have hends : (greeting.bind input).result.isOk = true := by decide +kernel
  rw [he] at hends
  cases hends

end MarkupBinding
