import MarkupBinding.Proofs.Markup.Marks
import MarkupBinding.Proofs.Markup.Elements
import MarkupBinding.Markup.Place
import Mathlib.Data.List.Forall2

/-!
# Trees that differ in bound texts only

Two trees are alike (`Node.Alike`) when they differ in no more than what bindings fill in: the text
of an element with a text binding, and the values of the attributes that an element's attribute
bindings set. The texts that may stand in one place of the two trees are those that a given
relation allows; if it allows only equal texts, the trees are equal (`eq_of_alike`).

Nodes that are alike may take the places of nodes of the trees (`forall₂_alike_replaceAt`).
-/

set_option autoImplicit false
set_option relaxedAutoImplicit false

namespace MarkupBinding

variable {texts : String → String → Prop}

/-- Two attributes are the same, or have the same name, which is one of those given, and texts that
may stand for each other. -/
inductive AttrAlike (texts : String → String → Prop) (names : List String) :
    String × AttrValue → String × AttrValue → Prop
  | same (attr : String × AttrValue) : AttrAlike texts names attr attr
  | bound {name x y : String} (hname : name ∈ names) (h : texts x y) :
      AttrAlike texts names (name, .plain x) (name, .plain y)

namespace Tag

variable {names : List String} {t u : Tag}

/-- The attributes that the attribute bindings of the tag set. -/
def targets (t : Tag) : List String :=
  t.attributeBindings.map Prod.fst

/-- Two tags have the same name and the same attributes but for the texts of those given. -/
structure Alike (texts : String → String → Prop) (names : List String) (t u : Tag) : Prop where
  name : t.name = u.name
  attrs : List.Forall₂ (AttrAlike texts names) t.attrs u.attrs

theorem Alike.refl (texts : String → String → Prop) (names : List String) (t : Tag) :
    t.Alike texts names t :=
  ⟨rfl, List.forall₂_same.2 fun attr _ ↦ .same attr⟩

/-- Setting one of the given attributes to texts that may stand for each other. -/
theorem Alike.set (h : t.Alike texts names u) {attr x y : String} (hattr : attr ∈ names)
    (htexts : texts x y) : (t.set attr x).Alike texts names (u.set attr y) := by
  obtain ⟨name, attrs⟩ := t
  obtain ⟨other, others⟩ := u
  refine ⟨h.name, ?_⟩
  have hattrs : List.Forall₂ (AttrAlike texts names) attrs others := h.attrs
  change List.Forall₂ _ (Keyed.set attr (.plain x) attrs) (Keyed.set attr (.plain y) others)
  induction hattrs with
  | nil => exact .cons (.bound hattr htexts) .nil
  | @cons a b rest rest' hfirst hrest ih =>
    obtain ⟨key, value⟩ := a
    obtain ⟨key', value'⟩ := b
    obtain rfl : key = key' := by cases hfirst <;> rfl
    simp only [Keyed.set]
    split
    · next hkey =>
      obtain rfl := eq_of_beq hkey
      exact .cons (.bound hattr htexts) hrest
    · exact .cons hfirst (ih ⟨h.name, hrest⟩)

/-- Tags that may differ in equal texts only are equal. -/
theorem Alike.eq (h : t.Alike texts names u) (htexts : ∀ x y, texts x y → x = y) : t = u := by
  obtain ⟨name, attrs⟩ := t
  obtain ⟨other, others⟩ := u
  obtain rfl : name = other := h.name
  have hattrs : attrs = others := List.forall₂_eq_eq_eq ▸ h.attrs.imp fun a b hab ↦ by
    cases hab with
    | same => rfl
    | bound _ hxy => rw [htexts _ _ hxy]
  rw [hattrs]

end Tag

namespace Node

mutual

/-- Two trees are alike but for bound texts; `below` tells whether the place of the trees is right
below an element with a text binding. -/
def Alike (texts : String → String → Prop) (below : Bool) : Node → Node → Prop
  | text kind x, text kind' y =>
    kind = kind' ∧ (x = y ∨ below = true ∧ kind = .characters ∧ texts x y)
  | element t children, element u others =>
    t.Alike texts t.targets u ∧ AlikeAll texts (t.mark? Mark.textContent).isSome children others
  | _, _ => False

/-- Two lists of trees are alike, one by one. -/
def AlikeAll (texts : String → String → Prop) (below : Bool) : List Node → List Node → Prop
  | [], [] => True
  | n :: rest, m :: others => Alike texts below n m ∧ AlikeAll texts below rest others
  | _, _ => False

end

variable {below : Bool}

theorem alikeAll_iff {nodes others : List Node} :
    AlikeAll texts below nodes others ↔ List.Forall₂ (Alike texts below) nodes others := by
  induction nodes generalizing others with
  | nil => cases others <;> simp [AlikeAll]
  | cons n rest ih => cases others <;> simp [AlikeAll, ih]

theorem alike_element {t : Tag} {children : List Node} {m : Node} :
    Alike texts below (.element t children) m ↔
      ∃ u others, m = .element u others ∧ t.Alike texts t.targets u ∧
        List.Forall₂ (Alike texts (t.mark? Mark.textContent).isSome) children others := by
  cases m with
  | text kind content => simp [Alike]
  | element u others =>
    rw [Alike, alikeAll_iff]
    constructor
    · exact fun h ↦ ⟨u, others, rfl, h⟩
    · rintro ⟨u', others', hnode, h⟩
      obtain ⟨rfl, rfl⟩ := element.inj hnode
      exact h

theorem alike_refl (n : Node) : ∀ below, Alike texts below n n := by
  induction n using induction_on_children with
  | text kind content => exact fun _ ↦ ⟨rfl, Or.inl rfl⟩
  | element tag children ih =>
    exact fun _ ↦ alike_element.2 ⟨tag, children, rfl, .refl texts _ tag,
      List.forall₂_same.2 fun n hn ↦ ih n hn _⟩

/-- Trees that are alike anywhere are so below an element with a text binding. -/
theorem Alike.mono {n m : Node} (h : Alike texts false n m) : Alike texts below n m := by
  cases n with
  | text kind x =>
    cases m with
    | text kind' y => exact ⟨h.1, h.2.imp_right fun hbelow ↦ by cases hbelow.1⟩
    | element u others => exact h
  | element t children => exact alike_element.2 (alike_element.1 h)

/-- Trees that may differ in equal texts only are equal. -/
theorem eq_of_alike (htexts : ∀ x y, texts x y → x = y) (n : Node) :
    ∀ {below : Bool} {m : Node}, Alike texts below n m → n = m := by
  induction n using induction_on_children with
  | text kind x =>
    intro below m h
    cases m with
    | element u others => exact h.elim
    | text kind' y =>
      obtain ⟨rfl, rfl | ⟨-, -, hxy⟩⟩ := h
      · rfl
      · rw [htexts x y hxy]
  | element t children ih =>
    intro below m h
    obtain ⟨u, others, rfl, htag, hchildren⟩ := alike_element.1 h
    obtain rfl := htag.eq htexts
    have hequal : children = others := by
      clear h
      induction hchildren with
      | nil => rfl
      | @cons n m rest others hfirst _ ihrest =>
        rw [ih n List.mem_cons_self hfirst, ihrest fun n hn ↦ ih n (List.mem_cons_of_mem _ hn)]
    rw [hequal]

/-- Trees that are alike stay so when nodes that are alike take the place of a node. -/
theorem forall₂_alike_replaceAt {new other : List Node}
    (hnew : List.Forall₂ (Alike texts false) new other) (place : Place) :
    ∀ {below : Bool} {nodes others : List Node}, List.Forall₂ (Alike texts below) nodes others →
      List.Forall₂ (Alike texts below) (replaceAt new nodes place)
        (replaceAt other others place) := by
  induction place with
  | nil => exact fun h ↦ h
  | cons i rest ih =>
    intro below nodes others h
    cases rest with
    | nil =>
      rw [replaceAt, replaceAt]
      exact List.rel_append (List.rel_append (List.forall₂_take i h)
        (hnew.imp fun _ _ hab ↦ hab.mono)) (List.forall₂_drop (i + 1) h)
    | cons j place =>
      rw [replaceAt.eq_3 _ _ _ _ (List.cons_ne_nil j place),
        replaceAt.eq_3 _ _ _ _ (List.cons_ne_nil j place)]
      by_cases hi : i < nodes.length
      · have hi' : i < others.length := h.length_eq ▸ hi
        have hat : Alike texts below nodes[i] others[i] := h.get hi hi'
        rw [List.getElem?_eq_getElem hi, List.getElem?_eq_getElem hi']
        refine List.rel_append (List.forall₂_take i h) (.cons ?_ (List.forall₂_drop (i + 1) h))
        cases hn : nodes[i] with
        | text kind x =>
          rw [hn] at hat
          cases hm : others[i] with
          | text kind' y => rw [hm] at hat; exact hat
          | element u others => rw [hm] at hat; exact hat.elim
        | element t children =>
          rw [hn] at hat
          obtain ⟨u, others', hm, htag, hchildren⟩ := alike_element.1 hat
          rw [hm]
          exact alike_element.2 ⟨u, _, rfl, htag, ih hchildren⟩
      · have hi' : ¬ i < others.length := h.length_eq ▸ hi
        rw [List.getElem?_eq_none (Nat.le_of_not_lt hi),
          List.getElem?_eq_none (Nat.le_of_not_lt hi')]
        exact h

end Node

end MarkupBinding
