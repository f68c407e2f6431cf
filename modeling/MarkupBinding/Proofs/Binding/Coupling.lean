import MarkupBinding.Proofs.Binding.Visit
import MarkupBinding.Proofs.Markup.Alike

/-!
# Binding two inputs side by side

Two inputs that templates cannot tell apart are bound alike. A `Coupling` says which values of the
two stand for each other: they have the same properties under the names that are read, the same
items, and are switched off alike; and where a value is shown, the texts shown may stand for each
other. `Coupling.Reads` says that an element reads no more than that.

Each step of the walk then does the same on both sides (`parallel_resolve`,
`parallel_bindAttributes`, `parallel_expand`), and so does the walk over a node (`parallel_run`) and
over a document (`parallel_bind`): it stops at the same fault, or it reaches its end with trees that
are alike.
-/

set_option autoImplicit false
set_option relaxedAutoImplicit false

namespace MarkupBinding

/-- Two options that are related are both empty or both hold related values. -/
theorem rel_cases {α β : Type} {rel : α → β → Prop} {a : Option α} {b : Option β}
    (h : Option.Rel rel a b) : a = none ∧ b = none ∨ ∃ x y, a = some x ∧ b = some y ∧ rel x y := by
  cases h with
  | none => exact Or.inl ⟨rfl, rfl⟩
  | some hxy => exact Or.inr ⟨_, _, rfl, rfl, hxy⟩

namespace Tag

/-- The paths whose values an element shows: that of its text binding and those in the placeholders
of its attribute bindings. -/
def shownPaths (t : Tag) : List Path :=
  (t.mark? Mark.textContent).toList.flatMap (fun raw ↦ (Path.ofBinding raw).toOption.toList) ++
    t.attributeBindings.flatMap fun binding ↦
      ((TemplateText.parse binding.2).toOption.getD []).paths

/-- The names under which the component mark and the collection mark of an element look up values.
-/
def markNames (t : Tag) : List String :=
  (t.mark? Mark.component).toList ++
    ((t.mark? Mark.collection).toList.flatMap fun raw ↦
      (Path.ofBinding raw).toOption.toList).map Path.name

/-- The names under which an element looks up values; `bound` is its tag after its attribute
bindings. -/
def asked (t bound : Tag) : List String :=
  t.shownPaths.map Path.name ++ bound.markNames

variable {t bound : Tag} {raw target : String} {path : Path} {segments : TemplateText}

theorem mem_shownPaths_of_text (hmark : t.mark? Mark.textContent = some raw)
    (hpath : Path.ofBinding raw = .ok path) : path ∈ t.shownPaths := by
  simp [shownPaths, hmark, hpath, Except.toOption]

theorem mem_shownPaths_of_placeholder (hbinding : (target, raw) ∈ t.attributeBindings)
    (hparse : TemplateText.parse raw = .ok segments) (hpath : path ∈ segments.paths) :
    path ∈ t.shownPaths := by
  refine List.mem_append_right _ (List.mem_flatMap.2 ⟨_, hbinding, ?_⟩)
  simpa [hparse, Except.toOption] using hpath

theorem mem_asked_of_shown (h : path ∈ t.shownPaths) : path.name ∈ t.asked bound :=
  List.mem_append_left _ (List.mem_map_of_mem h)

theorem mem_asked_of_component {component : String}
    (h : bound.mark? Mark.component = some component) : component ∈ t.asked bound := by
  simp [asked, markNames, h]

theorem mem_asked_of_collection (hmark : bound.mark? Mark.collection = some raw)
    (hpath : Path.ofBinding raw = .ok path) : path.name ∈ t.asked bound := by
  simp [asked, markNames, hmark, hpath, Except.toOption]

end Tag

namespace Binding

/-! ### Parallel walks -/

/-- If all that the first walk reports is good, the two walks stop at the same fault, or both reach
their end with related values. -/
def Parallel {α β : Type} (good : Report → Prop) (rel : α → β → Prop) (w : Walk α) (u : Walk β) :
    Prop :=
  (∀ entry ∈ w.reports, good entry) →
    w.fault = u.fault ∧ (w.fault = none → rel w.value u.value)

namespace Parallel

variable {α β γ δ ι : Type} {good : Report → Prop} {rel : α → β → Prop} {rel' : γ → δ → Prop}
  {w : Walk α} {u : Walk β}

theorem done {a : α} {b : β} (h : rel a b) : Parallel good rel (.done a) (.done b) :=
  fun _ ↦ ⟨rfl, fun _ ↦ h⟩

theorem stop (a : α) (b : β) (e : BindError) : Parallel good rel (.stop a e) (.stop b e) :=
  fun _ ↦ ⟨rfl, fun h ↦ by cases h⟩

theorem report {a : α} {b : β} (h : rel a b) (entry other : Report) :
    Parallel good rel (.report a entry) (.report b other) :=
  fun _ ↦ ⟨rfl, fun _ ↦ h⟩

theorem map (h : Parallel good rel w u) {f : α → γ} {g : β → δ}
    (hmap : ∀ a b, rel a b → rel' (f a) (g b)) : Parallel good rel' (w.map f) (u.map g) := by
  intro hgood
  obtain ⟨hfault, hvalue⟩ := h hgood
  exact ⟨hfault, fun hend ↦ hmap _ _ (hvalue hend)⟩

/-- Chains are parallel when their first parts do and, at the values these reach, their second
parts. -/
theorem chain (h : Parallel good rel w u) {stopped : α → γ} {stopped' : β → δ} {next : α → Walk γ}
    {next' : β → Walk δ}
    (hnext : rel w.value u.value → Parallel good rel' (next w.value) (next' u.value)) :
    Parallel good rel' (w.chain stopped next) (u.chain stopped' next') := by
  intro hgood
  obtain ⟨hfault, hvalue⟩ := h fun entry hentry ↦
    hgood entry (Walk.reports_subset_chain w stopped next hentry)
  rw [Walk.fault_chain, Walk.fault_chain, ← hfault]
  cases hend : w.fault with
  | some e => exact ⟨rfl, fun h ↦ by cases h⟩
  | none =>
    have hsecond := hnext (hvalue hend) fun entry hentry ↦
      hgood entry (Walk.reports_next_subset_chain hend stopped next hentry)
    rw [Walk.value_chain hend, Walk.value_chain (hfault ▸ hend)]
    exact hsecond

/-- Steps one behind the other are parallel when each does from related values. -/
theorem forEach {step : ι → α → Walk α} {step' : ι → β → Walk β} {items : List ι}
    (hstep : ∀ i ∈ items, ∀ a b, rel a b → Parallel good rel (step i a) (step' i b)) :
    ∀ {a : α} {b : β}, rel a b →
      Parallel good rel (Walk.forEach step items a) (Walk.forEach step' items b) := by
  induction items with
  | nil => exact fun hab ↦ .done hab
  | cons i rest ih =>
    exact fun {a b} hab ↦ chain (hstep i List.mem_cons_self a b hab) fun hvalue ↦
      ih (fun j hj ↦ hstep j (List.mem_cons_of_mem i hj)) hvalue

end Parallel

/-- Which values of two inputs stand for each other when they are bound. -/
structure Coupling where
  values : Value → Value → Prop
  /-- Texts that may stand for each other in the bound trees. -/
  texts : String → String → Prop
  /-- The names under which values are read. -/
  names : String → Prop
  /-- The values of the first input that may be shown. -/
  shown : Value → Prop
  property : ∀ {v w : Value} {name : String}, values v w → names name →
    Option.Rel values (v.property? name) (w.property? name)
  items : ∀ {v w : Value}, values v w →
    (∃ items others, v = .list items ∧ w = .list others ∧ List.Forall₂ values items others) ∨
      (∀ items, v ≠ .list items) ∧ ∀ items, w ≠ .list items
  flag : ∀ {v w : Value}, values v w → (v = .bool false ↔ w = .bool false)
  display : ∀ {v w : Value}, values v w → shown v → texts v.display w.display
  refl : ∀ x, texts x x
  append : ∀ {x y x' y' : String}, texts x y → texts x' y' → texts (x ++ x') (y ++ y')

namespace Coupling

variable (C : Coupling)

/-- Two stacks have the same scope names, and values that stand for each other. -/
def Stacks (s t : Stack) : Prop :=
  List.Forall₂ (fun a b ↦ a.name = b.name ∧ C.values a.value b.value) s.scopes t.scopes

/-- An element reads values under the names of the coupling only, and shows values that may be shown
only; its attribute bindings set no marks, or only equal texts may stand for each other. -/
structure Reads (stack : Stack) (tag : Tag) : Prop where
  asked : ∀ name ∈ tag.asked (bindAttributes stack tag).value, C.names name
  shown : ∀ path ∈ tag.shownPaths, ∀ value, stack.resolve path = .ok value → C.shown value
  steady : tag.KeepsMarks ∨ ∀ x y, C.texts x y → x = y

/-- What is reported of an element says that it reads no more than the coupling allows. -/
def Good : Report → Prop
  | .visited tag _ stack => C.Reads stack tag
  | .leftUnbound _ _ => True
  | .contentRemoved _ _ => True

variable {C} {s t : Stack} {tag : Tag} {source raw : String} {path : Path}

section Stacks

theorem Stacks.root {v w : Value} (h : C.values v w) : C.Stacks (.root v) (.root w) :=
  .cons ⟨rfl, h⟩ .nil

theorem Stacks.push (h : C.Stacks s t) (name : String) {v w : Value} (hv : C.values v w) :
    C.Stacks (s.push name v) (t.push name w) :=
  .cons ⟨rfl, hv⟩ h

theorem Stacks.names_eq (h : C.Stacks s t) : s.names = t.names := by
  have hnames : s.scopes.map Scope.name = t.scopes.map Scope.name :=
    List.forall₂_eq_eq_eq ▸ List.forall₂_map_left_iff.2
      (List.forall₂_map_right_iff.2 (h.imp fun _ _ hscope ↦ hscope.1))
  rw [Stack.names, Stack.names, hnames]

theorem Stacks.isRoot_eq (h : C.Stacks s t) : s.isRoot = t.isRoot := by
  have hlength : s.outer.length = t.outer.length := Nat.succ.inj h.length_eq
  rw [Stack.isRoot, Stack.isRoot, Bool.eq_iff_iff, List.isEmpty_iff_length_eq_zero,
    List.isEmpty_iff_length_eq_zero, hlength]

theorem Stacks.lookup (h : C.Stacks s t) (name : String) :
    Option.Rel (fun a b ↦ C.values a.value b.value) (s.lookup name) (t.lookup name) := by
  rw [Stacks] at h
  rw [Stack.lookup, Stack.lookup]
  generalize s.scopes = scopes, t.scopes = others at h
  induction h with
  | nil => exact .none
  | cons hfirst _ ih =>
    rw [List.find?_cons, List.find?_cons, hfirst.1]
    split
    · exact .some hfirst.2
    · exact ih

theorem Stacks.findProperty (h : C.Stacks s t) {name : String} (hname : C.names name) :
    Option.Rel (fun a b ↦ C.values a.2 b.2) (s.findProperty name) (t.findProperty name) := by
  rw [Stacks] at h
  rw [Stack.findProperty, Stack.findProperty]
  generalize s.scopes = scopes, t.scopes = others at h
  induction h with
  | nil => exact .none
  | @cons a b _ _ hfirst _ ih =>
    rw [List.findSome?_cons, List.findSome?_cons]
    rcases rel_cases (C.property hfirst.2 hname) with ⟨hv, hw⟩ | ⟨v, w, hv, hw, hvalue⟩
    · rw [hv, hw]
      exact ih
    · rw [hv, hw]
      exact .some hvalue

/-- A path has values that stand for each other, or the same error. -/
theorem Stacks.resolve (h : C.Stacks s t) (hname : C.names path.name) :
    (∃ v w, s.resolve path = .ok v ∧ t.resolve path = .ok w ∧ C.values v w) ∨
      ∃ e, s.resolve path = .error e ∧ t.resolve path = .error e := by
  simp only [Stack.resolve, h.names_eq]
  cases path.scope with
  | some scope =>
    rcases rel_cases (h.lookup scope) with ⟨ha, hb⟩ | ⟨a, b, ha, hb, hscope⟩
    · simp [ha, hb]
    · rcases rel_cases (C.property hscope hname) with ⟨hv, hw⟩ | ⟨v, w, hv, hw, hvalue⟩
      · simp [ha, hb, hv, hw]
      · simp [ha, hb, hv, hw, hvalue]
  | none =>
    rcases rel_cases (h.findProperty hname) with ⟨ha, hb⟩ | ⟨a, b, ha, hb, hvalue⟩
    · simp [ha, hb]
    · simp [ha, hb, hvalue]

end Stacks

/-! ### Bindings of an element -/

section Bindings

theorem parallel_resolve (h : C.Stacks s t) (hname : C.names path.name) (source : String) :
    Parallel C.Good (Option.Rel fun v w ↦ C.values v w ∧ s.resolve path = .ok v)
      (Binding.resolve s source path) (Binding.resolve t source path) := by
  rcases h.resolve hname with ⟨v, w, hv, hw, hvalue⟩ | ⟨e, hs, ht⟩
  · rw [Binding.resolve, Binding.resolve, hv, hw]
    exact .done (.some ⟨hvalue, rfl⟩)
  · rw [Binding.resolve, Binding.resolve, hs, ht]
    cases path.isDotted with
    | true => exact .stop none none _
    | false => exact .report .none _ _

theorem parallel_boundText (h : C.Stacks s t) (hreads : C.Reads s tag) :
    Parallel C.Good
      (Option.Rel fun x y ↦ ∃ a b, x = [.text .characters a] ∧ y = [.text .characters b] ∧
        C.texts a b) (boundText s tag) (boundText t tag) := by
  cases hmark : tag.mark? Mark.textContent with
  | none =>
    rw [boundText_of_mark?_eq_none hmark, boundText_of_mark?_eq_none hmark]
    exact .done .none
  | some raw =>
    cases hpath : Path.ofBinding raw with
    | error e =>
      simp only [boundText, hmark, hpath]
      exact .stop none none _
    | ok path =>
      simp only [boundText, hmark, hpath]
      have hmem := Tag.mem_shownPaths_of_text hmark hpath
      refine (parallel_resolve h (hreads.asked _ (Tag.mem_asked_of_shown hmem)) raw).map ?_
      rintro _ _ (⟨hvalue, hresolve⟩ | _)
      · exact .some ⟨_, _, rfl, rfl, C.display hvalue (hreads.shown path hmem _ hresolve)⟩
      · exact .none

theorem parallel_fillSegments (h : C.Stacks s t) (source : String) {segments : TemplateText}
    (hnames : ∀ path ∈ segments.paths, C.names path.name)
    (hshown : ∀ path ∈ segments.paths, ∀ value, s.resolve path = .ok value → C.shown value) :
    Parallel C.Good (Option.Rel C.texts) (fillSegments s source segments)
      (fillSegments t source segments) := by
  induction segments with
  | nil => exact .done (.some (C.refl ""))
  | cons segment rest ih =>
    cases segment with
    | literal text =>
      rw [fillSegments, fillSegments]
      refine (ih hnames hshown).map ?_
      rintro _ _ (htexts | _)
      · exact .some (C.append (C.refl text) htexts)
      · exact .none
    | placeholder path shown =>
      have hrest : ∀ p ∈ TemplateText.paths rest,
          p ∈ TemplateText.paths (.placeholder path shown :: rest) :=
        fun p hp ↦ List.mem_cons_of_mem path hp
      have hself : path ∈ TemplateText.paths (.placeholder path shown :: rest) :=
        List.mem_cons_self
      rw [fillSegments, fillSegments]
      refine (parallel_resolve h (hnames path hself) source).chain fun hvalue ↦ ?_
      rcases rel_cases hvalue with ⟨hv, hw⟩ | ⟨v, w, hv, hw, hvalues, hresolve⟩
      · rw [hv, hw]
        exact .done .none
      · rw [hv, hw]
        refine (ih (fun p hp ↦ hnames p (hrest p hp))
          fun p hp ↦ hshown p (hrest p hp)).map ?_
        rintro _ _ (htexts | _)
        · exact .some (C.append (C.display hvalues (hshown path hself v hresolve)) htexts)
        · exact .none

theorem parallel_bindAttributes (h : C.Stacks s t) (hreads : C.Reads s tag) :
    Parallel C.Good (Tag.Alike C.texts tag.targets) (bindAttributes s tag)
      (bindAttributes t tag) := by
  refine .forEach (fun binding hbinding b b' halike ↦ ?_) (.refl C.texts tag.targets tag)
  obtain ⟨target, raw⟩ := binding
  rw [bindAttribute, bindAttribute]
  cases hparse : TemplateText.parse raw with
  | error e => exact .stop b b' _
  | ok segments =>
    have hmem : ∀ path ∈ segments.paths, path ∈ tag.shownPaths := fun path hpath ↦
      Tag.mem_shownPaths_of_placeholder hbinding hparse hpath
    refine (parallel_fillSegments h raw
      (fun path hpath ↦ hreads.asked _ (Tag.mem_asked_of_shown (hmem path hpath)))
      fun path hpath ↦ hreads.shown path (hmem path hpath)).map ?_
    rintro _ _ (htexts | _)
    · exact halike.set (List.mem_map_of_mem hbinding) htexts
    · exact halike

/-- After its attribute bindings an element has the same marks on both sides. -/
theorem mark?_bound (hreads : C.Reads s tag)
    (halike : (bindAttributes s tag).value.Alike C.texts tag.targets (bindAttributes t tag).value)
    {name : String} (hname : Mark.isMark name = true) :
    (bindAttributes s tag).value.mark? name = (bindAttributes t tag).value.mark? name := by
  rcases hreads.steady with hmarks | hequal
  · rw [mark?_bindAttributes_of_keepsMarks hmarks hname,
      mark?_bindAttributes_of_keepsMarks hmarks hname]
  · rw [halike.eq hequal]

/-- Attribute bindings that set no marks leave the attribute bindings. -/
theorem targets_bound {stack : Stack} (h : tag.KeepsMarks) :
    (bindAttributes stack tag).value.targets = tag.targets := by
  rw [Tag.targets, Tag.targets, attributeBindings_bindAttributes h]

/-- After its attribute bindings an element differs in what they set only. -/
theorem alike_bound (hreads : C.Reads s tag)
    (halike : (bindAttributes s tag).value.Alike C.texts tag.targets (bindAttributes t tag).value) :
    (bindAttributes s tag).value.Alike C.texts (bindAttributes s tag).value.targets
      (bindAttributes t tag).value := by
  rcases hreads.steady with hmarks | hequal
  · rwa [targets_bound hmarks]
  · rw [← halike.eq hequal]
    exact .refl C.texts _ _

theorem parallel_itemsFor (h : C.Stacks s t)
    (hname : ∀ path, Path.ofBinding raw = .ok path → C.names path.name) :
    Parallel C.Good (Option.Rel (List.Forall₂ C.values)) (itemsFor s raw) (itemsFor t raw) := by
  rw [itemsFor, itemsFor]
  cases hpath : Path.ofBinding raw with
  | error e => exact .stop none none _
  | ok path =>
    refine (parallel_resolve h (hname path hpath) raw).chain fun hvalue ↦ ?_
    rcases rel_cases hvalue with ⟨hv, hw⟩ | ⟨v, w, hv, hw, hvalues, -⟩
    · rw [hv, hw]
      exact .done (.some .nil)
    · rw [hv, hw]
      rcases C.items hvalues with ⟨items, others, rfl, rfl, hitems⟩ | ⟨hv, hw⟩
      · exact .done (.some hitems)
      · split
        · next heq => cases heq
        · next heq => exact absurd (Option.some.inj heq) (hv _)
        · exact .report .none _ _

/-- A component opens the scope of values that stand for each other. -/
theorem Stacks.enter (h : C.Stacks s t) {b b' : Tag}
    (hmark : b.mark? Mark.component = b'.mark? Mark.component)
    (hname : ∀ component, b.mark? Mark.component = some component → C.names component) :
    C.Stacks (Binding.enter s b) (Binding.enter t b') := by
  rw [Binding.enter, Binding.enter, ← hmark, h.isRoot_eq]
  cases hcomponent : b.mark? Mark.component with
  | none => exact h
  | some component =>
    simp only
    split
    · exact h
    · rcases rel_cases (h.findProperty (hname component hcomponent)) with
        ⟨ha, hb⟩ | ⟨a, b, ha, hb, hvalue⟩
      · rw [ha, hb]
        exact h
      · rw [ha, hb]
        exact h.push component hvalue

end Bindings

/-! ### Siblings and collections -/

section Parts

/-- Two walked nodes are alike, and the same became of the stencil that is held back below them. -/
def VisitedAlike (C : Coupling) (a b : Visited) : Prop :=
  a.node.Alike C.texts false b.node ∧ a.held = b.held

/-- Two walked lists of siblings are alike, and the same became of the stencil held back below them.
-/
def AroundAlike (C : Coupling) (a b : List Node × Held) : Prop :=
  List.Forall₂ (Node.Alike C.texts false) a.1 b.1 ∧ a.2 = b.2

theorem parallel_visitChildren {visit other : Option Place → Node → Walk Visited}
    {nodes : List Node} (h : ∀ n ∈ nodes, ∀ hold,
      Parallel C.Good C.VisitedAlike (visit hold n) (other hold n)) (hold : Option Place) :
    ∀ i, Parallel C.Good C.AroundAlike (visitChildren visit hold i nodes)
      (visitChildren other hold i nodes) := by
  induction nodes with
  | nil => exact fun _ ↦ .done ⟨.nil, rfl⟩
  | cons n rest ih =>
    intro i
    rw [visitChildren_eq_chain, visitChildren_eq_chain]
    refine (h n List.mem_cons_self _).chain fun hfirst ↦ ?_
    refine (ih (fun m hm ↦ h m (List.mem_cons_of_mem n hm)) (i + 1)).map ?_
    rintro ⟨nodes, held⟩ ⟨nodes', held'⟩ ⟨hnodes, hheld⟩
    obtain rfl : held = held' := hheld
    exact ⟨.cons hfirst.1 hnodes, by rw [hfirst.2]⟩

variable {visit : Stack → Node → Walk Visited} {stencil : Stencil} {items others : List Value}

theorem parallel_copies
    (hvisit : ∀ {s t : Stack}, C.Stacks s t → Parallel C.Good C.VisitedAlike
      (visit s (copyOf stencil.node)) (visit t (copyOf stencil.node)))
    (h : C.Stacks s t) (hitems : List.Forall₂ C.values items others) :
    Parallel C.Good (List.Forall₂ (Node.Alike C.texts false)) (copies visit s stencil items)
      (copies visit t stencil others) := by
  induction hitems with
  | nil => exact .done .nil
  | cons hitem _ ih =>
    rw [copies_cons, copies_cons]
    exact (hvisit (h.push stencil.item hitem)).chain fun hfirst ↦
      ih.map fun _ _ hrest ↦ .cons hfirst.1 hrest

/-- Collections whose surroundings are alike are filled alike. -/
theorem parallel_fill
    (hvisit : ∀ {s t : Stack}, C.Stacks s t → Parallel C.Good C.VisitedAlike
      (visit s (copyOf stencil.node)) (visit t (copyOf stencil.node)))
    (h : C.Stacks s t) (hitems : List.Forall₂ C.values items others) {a b : List Node × Held}
    (haround : C.AroundAlike a b) :
    Parallel C.Good (List.Forall₂ (Node.Alike C.texts false)) (fill visit s stencil items a)
      (fill visit t stencil others b) := by
  obtain ⟨nodes, held⟩ := a
  obtain ⟨nodes', held'⟩ := b
  obtain ⟨hnodes, rfl⟩ : _ ∧ held = held' := haround
  have hcopies := parallel_copies hvisit h hitems
  cases held with
  | kept =>
    exact hcopies.chain fun hmade ↦
      .done (Node.forall₂_alike_replaceAt hmade stencil.place hnodes)
  | adrift =>
    simp only [fill]
    exact hcopies.chain fun _ ↦ .done hnodes
  | detached =>
    cases hitems with
    | nil => exact .stop nodes nodes' _
    | cons hitem _ =>
      simp only [fill]
      exact (parallel_copies hvisit h (.cons hitem .nil)).chain fun _ ↦ .stop nodes nodes' _
  | destroyed =>
    cases hitems with
    | nil => exact .stop nodes nodes' _
    | cons _ _ => exact .stop nodes nodes' _

variable {visit : Stack → Option Place → Node → Walk Visited} {children : List Node}

/-- Collections with the same mark and children are expanded alike. -/
theorem parallel_expand
    (hvisit : ∀ {s t : Stack}, C.Stacks s t → ∀ hold n, n.height ≤ Node.heightAll children →
      Parallel C.Good C.VisitedAlike (visit s hold n) (visit t hold n))
    (h : C.Stacks s t) {b b' : Tag} (hmark : b.mark? Mark.collection = b'.mark? Mark.collection)
    (hname : ∀ path, Path.ofBinding raw = .ok path → C.names path.name) :
    Parallel C.Good (List.Forall₂ (Node.Alike C.texts false)) (expand visit s raw b children)
      (expand visit t raw b' children) := by
  have hstencil : Stencil.of b children = Stencil.of b' children := by
    simp only [Stencil.of, hmark]
  rw [expand, expand, ← hstencil]
  cases hof : Stencil.of b children with
  | error e => exact .stop children children _
  | ok stencil =>
    refine (parallel_itemsFor h hname).chain fun hitems ↦ ?_
    rcases rel_cases hitems with ⟨hv, hw⟩ | ⟨items, others, hv, hw, hvalues⟩
    · rw [hv, hw]
      exact .done .nil
    · rw [hv, hw]
      refine (parallel_visitChildren (fun n hn hold ↦
        hvisit h hold n (Node.height_le_heightAll hn)) (some stencil.place) 0).chain ?_
      exact fun halike ↦ parallel_fill
        (fun hstacks ↦ hvisit hstacks none _ (by
          rw [height_copyOf]
          exact Stencil.height_le hof)) h hvalues halike

/-- Elements with the same marks and children are walked alike once their own bindings are. -/
theorem parallel_visitContent
    (hvisit : ∀ {s t : Stack}, C.Stacks s t → ∀ hold n, n.height ≤ Node.heightAll children →
      Parallel C.Good C.VisitedAlike (visit s hold n) (visit t hold n))
    (h : C.Stacks s t) {b b' : Tag} (halike : b.Alike C.texts b.targets b')
    (hcollection : b.mark? Mark.collection = b'.mark? Mark.collection)
    (hcomponent : b.mark? Mark.component = b'.mark? Mark.component)
    (hnames : ∀ name ∈ tag.asked b, C.names name) (hold : Option Place) :
    Parallel C.Good C.VisitedAlike (visitContent visit s hold b children)
      (visitContent visit t hold b' children) := by
  have helement : ∀ {nodes nodes' : List Node},
      List.Forall₂ (Node.Alike C.texts false) nodes nodes' →
        Node.Alike C.texts false (.element b nodes) (.element b' nodes') := fun hnodes ↦
    Node.alike_element.2 ⟨b', _, rfl, halike, hnodes.imp fun _ _ hab ↦ hab.mono⟩
  rw [visitContent, visitContent, ← hcollection]
  cases hmark : b.mark? Mark.collection with
  | some raw =>
    exact (parallel_expand hvisit h hcollection fun path hpath ↦
      hnames _ (Tag.mem_asked_of_collection hmark hpath)).map
        fun _ _ hnodes ↦ ⟨helement hnodes, rfl⟩
  | none =>
    have hstacks := h.enter hcomponent fun component hmark ↦
      hnames _ (Tag.mem_asked_of_component hmark)
    refine (parallel_visitChildren (fun n hn hold ↦
      hvisit hstacks hold n (Node.height_le_heightAll hn)) hold 0).map ?_
    rintro ⟨nodes, held⟩ ⟨nodes', held'⟩ ⟨hnodes, hheld⟩
    exact ⟨helement hnodes, hheld⟩

end Parts

/-! ### Whole runs -/

section Runs

/-- A text in the place of the children of an element is not walked. -/
theorem visitContent_text (stack : Stack) (bound : Tag) (x : String) :
    visitContent (fun s hold n ↦ Visit.run ⟨s, hold, n⟩) stack none bound [.text .characters x] =
      if (bound.mark? Mark.collection).isSome then
        .stop ⟨.element bound [.text .characters x], .kept⟩
          (.structural (.noStencil (bound.mark? Mark.collection)))
      else .done ⟨.element bound [.text .characters x], .kept⟩ := by
  rw [visitContent]
  cases hmark : bound.mark? Mark.collection with
  | some raw =>
    have hstencil : Stencil.of bound [.text .characters x] =
        .error (.noStencil (bound.mark? Mark.collection)) := by
      simp [Stencil.of, Node.stencilAmong, Node.stencilIn]
    simp [expand, hstencil, hmark, Walk.map, Walk.stop, Held.under]
  | none => simp [visitChildren, Walk.chain, Walk.map, Walk.done]

/-- The content of an element whose own bindings were carried out alike. -/
theorem parallel_content {children : List Node} (h : C.Stacks s t) (hreads : C.Reads s tag)
    (htext : Option.Rel (fun x y ↦ ∃ a b, x = [.text .characters a] ∧ y = [.text .characters b] ∧
      C.texts a b) (boundText s tag).value (boundText t tag).value)
    (htags : (bindAttributes s tag).value.Alike C.texts tag.targets (bindAttributes t tag).value)
    (hbelow : ∀ {s t : Stack}, C.Stacks s t → ∀ hold n, n.height ≤ Node.heightAll children →
      Parallel C.Good C.VisitedAlike (Visit.run ⟨s, hold, n⟩) (Visit.run ⟨t, hold, n⟩))
    (hold : Option Place) :
    Parallel C.Good C.VisitedAlike (Visit.content s hold tag children)
      (Visit.content t hold tag children) := by
  have halike := alike_bound hreads htags
  have hcollection := mark?_bound hreads htags (by decide : Mark.isMark Mark.collection = true)
  have hcomponent := mark?_bound hreads htags (by decide : Mark.isMark Mark.component = true)
  rw [Visit.content, Visit.content]
  rcases rel_cases htext with ⟨hs, ht⟩ | ⟨_, _, hs, ht, x, y, rfl, rfl, hxy⟩
  · rw [Visit.shown_of_value_eq_none hs, Visit.shown_of_value_eq_none ht,
      Visit.holdShown_of_value_eq_none hs, Visit.holdShown_of_value_eq_none ht]
    exact parallel_visitContent hbelow h halike hcollection hcomponent hreads.asked hold
  · have hplaced : Node.Alike C.texts
        ((bindAttributes s tag).value.mark? Mark.textContent).isSome (.text .characters x)
          (.text .characters y) := by
      refine ⟨rfl, ?_⟩
      rcases hreads.steady with hmarks | hequal
      · refine Or.inr ⟨?_, rfl, hxy⟩
        rw [mark?_bindAttributes_of_keepsMarks hmarks (by decide)]
        cases hmark : tag.mark? Mark.textContent with
        | some raw => rfl
        | none =>
          rw [boundText_of_mark?_eq_none hmark] at hs
          cases hs
      · exact Or.inl (hequal x y hxy)
    have hvisited : C.VisitedAlike ⟨.element (bindAttributes s tag).value [.text .characters x],
        .kept⟩ ⟨.element (bindAttributes t tag).value [.text .characters y], .kept⟩ :=
      ⟨Node.alike_element.2 ⟨_, _, rfl, halike, .cons hplaced .nil⟩, rfl⟩
    simp only [Visit.shown, Visit.holdShown, hs, ht, Option.getD_some, Option.isSome_some,
      if_true]
    rw [visitContent_text, visitContent_text, ← hcollection]
    split
    · exact .stop _ _ _
    · exact .done hvisited

/-- The walk over a node under two stacks whose values stand for each other. -/
theorem parallel_run (n : Node) : ∀ {s t : Stack}, C.Stacks s t → ∀ hold,
    Parallel C.Good C.VisitedAlike (Visit.run ⟨s, hold, n⟩) (Visit.run ⟨t, hold, n⟩) := by
  induction hheight : n.height using Nat.strongRecOn generalizing n with
  | ind height ih =>
    intro s t h hold
    cases n with
    | text kind content =>
      rw [Visit.run_text, Visit.run_text]
      exact .done ⟨Node.alike_refl _ _, rfl⟩
    | element tag children =>
      cases hheld : isHeld hold with
      | true =>
        rw [Visit.run_of_isHeld hheld, Visit.run_of_isHeld hheld]
        exact .done ⟨Node.alike_refl _ _, rfl⟩
      | false =>
        intro hgood
        have hreads : C.Reads s tag := hgood _ (Visit.visited_mem_run hheld)
        revert hgood
        have hbelow : ∀ {s t : Stack}, C.Stacks s t → ∀ hold n,
            n.height ≤ Node.heightAll children → Parallel C.Good C.VisitedAlike
              (Visit.run ⟨s, hold, n⟩) (Visit.run ⟨t, hold, n⟩) := by
          intro s t h hold n hn
          refine ih n.height ?_ n rfl h hold
          rw [Node.height_element] at hheight
          omega
        rw [Visit.run_element hheld, Visit.run_element hheld]
        have hreported : Parallel C.Good (fun _ _ : Unit ↦ True)
            (.report () (.visited tag children s)) (.report () (.visited tag children t)) :=
          .report trivial _ _
        refine hreported.chain fun _ ↦ ?_
        refine (parallel_boundText h hreads).chain fun htext ↦ ?_
        refine (parallel_bindAttributes h hreads).chain fun htags ↦ ?_
        refine (parallel_content h hreads htext htags hbelow hold).map fun a b hab ↦ ?_
        rcases rel_cases htext with ⟨hs, ht⟩ | ⟨_, _, hs, ht, -⟩
        · rw [hs, ht]
          exact hab
        · rw [hs, ht]
          exact ⟨hab.1, rfl⟩

/-- Inputs that stand for each other switch the same flags off. -/
theorem switchesOff_eq {v w : Value} (h : C.values v w) {flag : String} (hflag : C.names flag) :
    v.switchesOff flag = w.switchesOff flag := by
  rw [Value.switchesOff, Value.switchesOff]
  rcases rel_cases (C.property h hflag) with ⟨hv, hw⟩ | ⟨x, y, hv, hw, hvalue⟩
  · rw [hv, hw]
  · rw [hv, hw]
    have hfalse := C.flag hvalue
    split
    · next heq =>
      obtain rfl := Option.some.inj heq
      rw [hfalse.1 rfl]
    · next hx =>
      split
      · next heq =>
        obtain rfl := Option.some.inj heq
        exact absurd (congrArg some (hfalse.2 rfl)) hx
      · rfl

/-- Binding inputs that stand for each other stops at the same fault, or gives trees that are
alike. -/
theorem parallel_bind {d : Document} {input other : Value} (h : C.values input other)
    (hflags : ∀ t ∈ d.tags, ∀ flag, t.attr? Mark.toggleable = some flag → C.names flag) :
    Parallel C.Good (List.Forall₂ (Node.Alike C.texts false)) (d.bind input) (d.bind other) := by
  have hleft : (d.filterToggles input).1 = (d.filterToggles other).1 := by
    refine Node.filterOffAll_fst_congr fun t ht ↦ ?_
    rw [Tag.isOff, Tag.isOff]
    cases hflag : t.attr? Mark.toggleable with
    | none => rfl
    | some flag => exact switchesOff_eq h (hflags t ht flag hflag)
  rw [Document.bind_eq, Document.bind_eq, ← hleft]
  exact (parallel_visitChildren (fun n _ hold ↦ parallel_run n (.root h) hold) none 0).map
    fun _ _ haround ↦ haround.1

end Runs

end Coupling

end Binding

end MarkupBinding
