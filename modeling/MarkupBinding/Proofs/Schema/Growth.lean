import MarkupBinding.Schema.Component

/-!
# Growing components

Extracting a schema only ever adds to it. `Component.GrowsTo` says so: what a component has at an
address is there in the grown one too, of the same kind and with at least the same properties.
Declaring a property or a nested component makes a component grow (`growsTo_addProperty`,
`addComponent_eq_ok`), and so does changing a nested component that grows itself
(`growsTo_modifyAt`).
-/

set_option autoImplicit false
set_option relaxedAutoImplicit false

namespace MarkupBinding.Component

/-- The component has a property of the name. -/
def Takes (c : Component) (name : String) : Prop :=
  Keyed.has name c.properties = true

/-- What the one component has at an address, the other has there too. -/
def GrowsTo (c grown : Component) : Prop :=
  ∀ address inner, c.at? address = some inner →
    ∃ later, grown.at? address = some later ∧ later.array = inner.array ∧
      later.itemName = inner.itemName ∧ ∀ name, inner.Takes name → later.Takes name

section Laws

variable {c d e inner later : Component} {name : String} {address : Address}

theorem GrowsTo.refl (c : Component) : c.GrowsTo c :=
  fun _ inner h ↦ ⟨inner, h, rfl, rfl, fun _ hname ↦ hname⟩

theorem GrowsTo.trans (hfirst : c.GrowsTo d) (hsecond : d.GrowsTo e) : c.GrowsTo e := by
  intro address inner h
  obtain ⟨middle, hmiddle, harray, hitem, hproperties⟩ := hfirst address inner h
  obtain ⟨later, hlater, harray', hitem', hproperties'⟩ := hsecond address middle hmiddle
  exact ⟨later, hlater, harray'.trans harray, hitem'.trans hitem,
    fun name hname ↦ hproperties' name (hproperties name hname)⟩

/-- An address that is there stays there. -/
theorem GrowsTo.isSome_at? (h : c.GrowsTo d) (haddress : (c.at? address).isSome = true) :
    (d.at? address).isSome = true := by
  obtain ⟨inner, hinner⟩ := Option.isSome_iff_exists.1 haddress
  obtain ⟨later, hlater, -⟩ := h address inner hinner
  rw [hlater, Option.isSome_some]

@[simp] theorem at?_nil (c : Component) : c.at? [] = some c := rfl

theorem at?_cons (c : Component) (name : String) (address : Address) :
    c.at? (name :: address) = (c.components.lookup name).bind (·.at? address) := by
  rw [at?]
  cases c.components.lookup name <;> rfl

/-- An address is followed one part after the other. -/
theorem at?_append (c : Component) (address rest : Address) :
    c.at? (address ++ rest) = (c.at? address).bind (·.at? rest) := by
  induction address generalizing c with
  | nil => rfl
  | cons name address ih =>
    rw [List.cons_append, at?_cons, at?_cons]
    cases c.components.lookup name with
    | none => rfl
    | some inner => exact ih inner

/-- What is at an address one name longer is a nested component of what is at the address. -/
theorem lookup_of_at?_append (hc : c.at? address = some d)
    (h : c.at? (address ++ [name]) = some e) : d.components.lookup name = some e := by
  rw [at?_append, hc, Option.bind_some, at?_cons] at h
  obtain ⟨found, hfound, hsame⟩ := Option.bind_eq_some_iff.1 h
  rw [hfound, ← hsame, at?_nil]

/-- Changing a nested component changes what is at its address. -/
theorem at?_modifyAt (f : Component → Component) (c : Component) (address : Address) :
    (modifyAt f address c).at? address = (c.at? address).map f := by
  induction address generalizing c with
  | nil => rfl
  | cons name address ih =>
    rw [modifyAt, at?_cons]
    cases h : c.components.lookup name with
    | none => rw [at?_cons, h]; rfl
    | some inner =>
      rw [at?_cons, Keyed.lookup_set_self, h]
      exact ih inner

/-- A component grows with a nested one. -/
theorem growsTo_set (h : c.components.lookup name = some inner) (hinner : inner.GrowsTo later) :
    c.GrowsTo { c with components := Keyed.set name later c.components } := by
  intro address found hfound
  cases address with
  | nil =>
    obtain rfl := Option.some.inj hfound
    exact ⟨_, rfl, rfl, rfl, fun _ hname ↦ hname⟩
  | cons other address =>
    rw [at?_cons] at hfound
    rw [at?_cons]
    by_cases heq : other = name
    · subst heq
      rw [h] at hfound
      rw [Keyed.lookup_set_self]
      exact hinner address found hfound
    · rw [Keyed.lookup_set_of_ne heq]
      exact ⟨found, hfound, rfl, rfl, fun _ hname ↦ hname⟩

/-- A component grows when the nested one at an address is changed to one that has grown. -/
theorem growsTo_modifyAt {f : Component → Component}
    (h : ∀ inner, c.at? address = some inner → inner.GrowsTo (f inner)) :
    c.GrowsTo (modifyAt f address c) := by
  induction address generalizing c with
  | nil => exact h c rfl
  | cons name address ih =>
    rw [modifyAt]
    cases hlookup : c.components.lookup name with
    | none => exact GrowsTo.refl c
    | some inner =>
      refine growsTo_set hlookup (ih fun found hfound ↦ h found ?_)
      rw [at?_cons, hlookup]
      exact hfound

/-- A declared property is there. -/
theorem takes_addProperty (c : Component) (name : String) : (c.addProperty name).Takes name := by
  rw [addProperty]
  split
  · next h => exact h
  · rw [Takes, Keyed.has_eq_true_iff, Keyed.keys, List.map_append]
    exact List.mem_append_right _ List.mem_cons_self

theorem growsTo_addProperty (c : Component) (name : String) : c.GrowsTo (c.addProperty name) := by
  rw [addProperty]
  split
  · exact GrowsTo.refl c
  · intro address inner h
    cases address with
    | nil =>
      obtain rfl := Option.some.inj h
      refine ⟨_, rfl, rfl, rfl, fun other hother ↦ ?_⟩
      rw [Takes, Keyed.has_eq_true_iff, Keyed.keys] at hother ⊢
      rw [List.map_append]
      exact List.mem_append_left _ hother
    | cons other address =>
      rw [at?_cons] at h
      exact ⟨inner, by rw [at?_cons]; exact h, rfl, rfl, fun _ hname ↦ hname⟩

/-- A nested component that was declared is there and of the kind asked for. -/
theorem addComponent_eq_ok {array : Bool} {itemName : Option String}
    (h : c.addComponent name array itemName = .ok d) :
    c.GrowsTo d ∧ ∃ inner, d.components.lookup name = some inner ∧ inner.array = array := by
  rw [addComponent] at h
  cases hlookup : c.components.lookup name with
  | some declared =>
    simp only [hlookup] at h
    split at h
    · next hsame =>
      obtain rfl := Except.ok.inj h
      exact ⟨GrowsTo.refl c, declared, hlookup, hsame.1⟩
    · cases h
  | none =>
    simp only [hlookup] at h
    obtain rfl := Except.ok.inj h
    refine ⟨fun address inner hinner ↦ ?_, empty array itemName, ?_, rfl⟩
    · cases address with
      | nil =>
        obtain rfl := Option.some.inj hinner
        exact ⟨_, rfl, rfl, rfl, fun _ hname ↦ hname⟩
      | cons other address =>
        rw [at?_cons] at hinner
        refine ⟨inner, ?_, rfl, rfl, fun _ hname ↦ hname⟩
        obtain ⟨found, hfound, hrest⟩ := Option.bind_eq_some_iff.1 hinner
        rw [at?_cons, List.lookup_append, hfound]
        exact hrest
    · rw [List.lookup_append, hlookup]
      simp

end Laws

end MarkupBinding.Component
