import MarkupBinding.Proofs.Schema.Coverage

/-!
# What extraction declares

A walk of extraction that reached its end and dropped nothing declares what it has seen, and
whatever is declared later takes nothing of it back. `Ensures` says both of a walk that starts at a
component: the component only grew, and a property holds of every component that the result may
still grow to. The rules of `Ensures` follow the way walks are put together (`Ensures.andThen`,
`ensures_forEach`, `ensures_visitChildren`), and each declaration has its own statement
(`ensures_declareProperty`, `ensures_declareComponent`, `ensures_declareBindings`).
-/

set_option autoImplicit false
set_option relaxedAutoImplicit false

namespace MarkupBinding.Extraction

/-- If the walk reached its end and reported nothing but elements that count as seen, then it made
the component grow, and the property holds of all that the result grows to. -/
def Ensures (seen : Tag → Ancestors → Prop) (root : Component) (w : Walk Component)
    (post : Component → Prop) : Prop :=
  w.fault = none →
    (∀ entry ∈ w.reports, ∃ tag ancestors, entry = .visited tag ancestors ∧ seen tag ancestors) →
    root.GrowsTo w.value ∧ ∀ final, w.value.GrowsTo final → post final

/-- Every scope has its component. -/
def Placed (root : Component) (ancestors : Ancestors) : Prop :=
  ∀ a ∈ ancestors.list, (root.at? a.address).isSome = true

variable {seen : Tag → Ancestors → Prop} {root : Component} {ancestors : Ancestors}

theorem Placed.grow {later : Component} (h : Placed root ancestors) (hgrows : root.GrowsTo later) :
    Placed later ancestors :=
  fun a ha ↦ hgrows.isSome_at? (h a ha)

theorem Placed.push {name : String} {address : Address} (h : Placed root ancestors)
    (haddress : (root.at? address).isSome = true) : Placed root (ancestors.push name address) := by
  intro a ha
  rcases List.mem_cons.1 ha with rfl | hin
  · exact haddress
  · exact h a hin

/-- The scope of the outermost component has its component at the outset. -/
theorem placed_outermost (name : String) : Placed (.empty false none) ⟨⟨name, []⟩, []⟩ := by
  intro a ha
  obtain rfl := List.mem_singleton.1 ha
  rfl

/-! ### Rules -/

section Rules

variable {w : Walk Component} {p q : Component → Prop}

theorem ensures_done (root : Component) : Ensures seen root (.done root) fun _ ↦ True :=
  fun _ _ ↦ ⟨Component.GrowsTo.refl root, fun _ _ ↦ trivial⟩

/-- Of a walk that stops, anything can be said. -/
theorem ensures_stop (fault : BindError) : Ensures seen root (.stop root fault) p :=
  fun hfault _ ↦ by cases hfault

theorem Ensures.imp (h : Ensures seen root w p) (hpq : ∀ final, p final → q final) :
    Ensures seen root w q := by
  intro hfault hreports
  obtain ⟨hgrows, hp⟩ := h hfault hreports
  exact ⟨hgrows, fun final hfinal ↦ hpq final (hp final hfinal)⟩

/-- What the first part ensures is there for the second and stays. -/
theorem Ensures.andThen {next : Component → Walk Component} (h : Ensures seen root w p)
    (hnext : ∀ value, root.GrowsTo value → p value → Ensures seen value (next value) q) :
    Ensures seen root (w.andThen next) fun final ↦ p final ∧ q final := by
  intro hfault hreports
  obtain ⟨hfirst, hsecond⟩ := (Walk.fault_chain_eq_none_iff w id next).1 hfault
  rw [Walk.andThen, Walk.reports_chain hfirst] at hreports
  rw [Walk.andThen, Walk.value_chain hfirst]
  obtain ⟨hgrows, hp⟩ := h hfirst fun entry hentry ↦
    hreports entry (List.mem_append_left _ hentry)
  obtain ⟨hgrows', hq⟩ := hnext w.value hgrows (hp w.value (Component.GrowsTo.refl w.value)) hsecond
    fun entry hentry ↦ hreports entry (List.mem_append_right _ hentry)
  exact ⟨hgrows.trans hgrows', fun final hfinal ↦
    ⟨hp final (hgrows'.trans hfinal), hq final hfinal⟩⟩

/-- What each step ensures for its item, all steps ensure for all items. -/
theorem ensures_forEach {ι : Type} {step : ι → Component → Walk Component}
    {p : ι → Component → Prop} {items : List ι} :
    ∀ {root : Component},
      (∀ i ∈ items, ∀ value, root.GrowsTo value → Ensures seen value (step i value) (p i)) →
      Ensures seen root (.forEach step items root) fun final ↦ ∀ i ∈ items, p i final := by
  induction items with
  | nil =>
    intro root _
    exact (ensures_done root).imp fun _ _ _ hi ↦ absurd hi List.not_mem_nil
  | cons i rest ih =>
    intro root hstep
    have hfirst := hstep i List.mem_cons_self root (Component.GrowsTo.refl root)
    refine (hfirst.andThen fun value hgrows _ ↦ ih fun j hj later hlater ↦
      hstep j (List.mem_cons_of_mem i hj) later (hgrows.trans hlater)).imp ?_
    rintro final ⟨hhead, htail⟩
    exact List.forall_mem_cons.2 ⟨hhead, htail⟩

/-- What each visit ensures for its node, the walk over siblings ensures for all of them. -/
theorem ensures_visitChildren {visit : Option Place → Node → Component → Walk Component}
    {hold : Option Place} {p : Option Place → Node → Component → Prop} {nodes : List Node} :
    ∀ {first : Nat} {root : Component},
      (∀ n ∈ nodes, ∀ hold value, root.GrowsTo value →
        Ensures seen value (visit hold n value) (p hold n)) →
      Ensures seen root (visitChildren visit hold first nodes root) fun final ↦
        ∀ i n, nodes[i]? = some n → p (Binding.holdBelow (first + i) hold) n final := by
  induction nodes with
  | nil =>
    intro first root _
    exact (ensures_done root).imp fun _ _ i n hn ↦ by simp at hn
  | cons m rest ih =>
    intro first root hvisit
    have hfirst := hvisit m List.mem_cons_self (Binding.holdBelow first hold) root
      (Component.GrowsTo.refl root)
    refine (hfirst.andThen fun value hgrows _ ↦ ih fun n hn hold later hlater ↦
      hvisit n (List.mem_cons_of_mem m hn) hold later (hgrows.trans hlater)).imp ?_
    rintro final ⟨hhead, htail⟩ i n hn
    cases i with
    | zero =>
      obtain rfl := Option.some.inj hn
      exact hhead
    | succ i =>
      have hrest := htail i n hn
      rwa [← Nat.add_assoc, Nat.add_right_comm]

end Rules

/-! ### Declarations -/

section Declarations

variable {tag : Tag}

/-- The owner of a path is one of the scopes, and the innermost one of its name for a dotted path.
-/
theorem mem_of_owner {declares : String → Component → Bool} {path : Path} {a : Ancestor}
    (h : owner declares root ancestors path = some a) :
    a ∈ ancestors.list ∧ ∀ scope, path.scope = some scope → ancestors.named scope = some a := by
  rw [owner] at h
  split at h
  · next scope hscope =>
    refine ⟨List.mem_of_find?_eq_some h, fun other hother ↦ ?_⟩
    obtain rfl := Option.some.inj (hscope.symm.trans hother)
    exact h
  · next hbare =>
    have hmem : a ∈ ancestors.list := by
      split at h
      · next found hfound =>
        obtain rfl := Option.some.inj h
        exact List.mem_of_find?_eq_some hfound
      · obtain rfl := Option.some.inj h
        exact List.mem_cons_self
    exact ⟨hmem, fun scope hscope ↦ by rw [hbare] at hscope; cases hscope⟩

/-- A path that is not dropped declares its property on its owner. -/
theorem ensures_declareProperty (source : String) (path : Path) (hplaced : Placed root ancestors) :
    Ensures seen root (declareProperty ancestors source path root) fun final ↦
      Declares final ancestors path := by
  intro _ hreports
  rw [declareProperty] at hreports ⊢
  cases howner : owner hasProperty root ancestors path with
  | none =>
    simp only [howner, Walk.reports_report] at hreports
    obtain ⟨_, _, hentry, -⟩ := hreports _ List.mem_cons_self
    cases hentry
  | some a =>
    refine ⟨Component.growsTo_modifyAt fun inner _ ↦ Component.growsTo_addProperty inner _,
      fun final hfinal ↦ ?_⟩
    obtain ⟨hmem, hnamed⟩ := mem_of_owner howner
    obtain ⟨c, hc⟩ := Option.isSome_iff_exists.1 (hplaced a hmem)
    have hthere : (root.modifyAt (·.addProperty path.name) a.address).at? a.address =
        some (c.addProperty path.name) := by rw [Component.at?_modifyAt, hc, Option.map_some]
    obtain ⟨later, hlater, -, -, hproperties⟩ := hfinal a.address _ hthere
    exact ⟨a, hmem, hnamed, later, hlater, hproperties _ (Component.takes_addProperty c path.name)⟩

/-- A nested component that is declared at an address is there, and of its kind. -/
theorem ensures_declareComponent {address : Address} (name : String) (array : Bool)
    (itemName : Option String) (haddress : (root.at? address).isSome = true) :
    Ensures seen root (declareComponent address name array itemName root) fun final ↦
      ∃ c, final.at? (address ++ [name]) = some c ∧ c.array = array := by
  obtain ⟨outer, houter⟩ := Option.isSome_iff_exists.1 haddress
  simp only [declareComponent, houter]
  cases hadd : outer.addComponent name array itemName with
  | error e => exact ensures_stop _
  | ok changed =>
    obtain ⟨hgrows, inner, hinner, harray⟩ := Component.addComponent_eq_ok hadd
    intro _ _
    refine ⟨Component.growsTo_modifyAt fun found hfound ↦ ?_, fun final hfinal ↦ ?_⟩
    · obtain rfl := Option.some.inj (houter.symm.trans hfound)
      exact hgrows
    · have hthere : (root.modifyAt (fun _ ↦ changed) address).at? (address ++ [name]) =
          some inner := by
        rw [Component.at?_append, Component.at?_modifyAt, houter]
        exact (Component.at?_cons changed name []).trans (by rw [hinner]; rfl)
      obtain ⟨later, hlater, hsame, -⟩ := hfinal _ inner hthere
      exact ⟨later, hlater, hsame.trans harray⟩

/-- The path of a text binding is declared. -/
theorem ensures_declareText (tag : Tag) (hplaced : Placed root ancestors) :
    Ensures seen root (declareText ancestors tag root) fun final ↦
      ∀ raw, tag.mark? Mark.textContent = some raw →
        ∃ path, Path.ofBinding raw = .ok path ∧ Declares final ancestors path := by
  cases hmark : tag.mark? Mark.textContent with
  | none =>
    simp only [declareText, hmark]
    exact (ensures_done root).imp fun _ _ raw hraw ↦ by cases hraw
  | some raw =>
    cases hpath : Path.ofBinding raw with
    | error e =>
      simp only [declareText, hmark, hpath]
      exact ensures_stop _
    | ok path =>
      simp only [declareText, hmark, hpath]
      refine (ensures_declareProperty raw path hplaced).imp fun final h other hraw ↦ ?_
      obtain rfl := Option.some.inj hraw
      exact ⟨path, hpath, h⟩

/-- The paths of an attribute binding are declared. -/
theorem ensures_declareAttribute (binding : String × String) (hplaced : Placed root ancestors) :
    Ensures seen root (declareAttribute ancestors binding root) fun final ↦
      ∃ segments, TemplateText.parse binding.2 = .ok segments ∧
        ∀ path ∈ segments.paths, Declares final ancestors path := by
  cases hparse : TemplateText.parse binding.2 with
  | error e =>
    simp only [declareAttribute, hparse]
    exact ensures_stop _
  | ok segments =>
    simp only [declareAttribute, hparse]
    refine (ensures_forEach fun path _ later hlater ↦
      ensures_declareProperty binding.2 path (hplaced.grow hlater)).imp ?_
    exact fun final h ↦ ⟨segments, rfl, h⟩

/-- The bindings of an element that is reached are declared. -/
theorem ensures_declareBindings (tag : Tag) (hplaced : Placed root ancestors) :
    Ensures seen root (declareBindings ancestors tag root) fun final ↦
      Declared seen final ancestors tag := by
  have hself : Ensures seen root (Walk.report root (.visited tag ancestors)) fun _ ↦
      seen tag ancestors := by
    intro _ hreports
    refine ⟨Component.GrowsTo.refl root, fun _ _ ↦ ?_⟩
    obtain ⟨_, _, hentry, hseen⟩ := hreports _ List.mem_cons_self
    obtain ⟨rfl, rfl⟩ := Report.visited.inj hentry
    exact hseen
  refine ((hself.andThen fun value hgrows _ ↦
    ensures_declareText tag (hplaced.grow hgrows)).andThen fun value hgrows _ ↦
      ensures_forEach fun binding _ later hlater ↦
        ensures_declareAttribute binding (hplaced.grow (hgrows.trans hlater))).imp ?_
  rintro final ⟨⟨hseen, htext⟩, hattributes⟩
  exact ⟨hseen, htext, hattributes⟩

end Declarations

end MarkupBinding.Extraction
