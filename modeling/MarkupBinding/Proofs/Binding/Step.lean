import MarkupBinding.Binding.Bind
import MarkupBinding.Proofs.Markup.StencilPlace

/-!
# The steps of binding

What each step of the walk that binds data can do, one step at a time: resolving a path
(`resolve_cases`), the text binding of an element (`boundText_cases`), its attribute bindings
(`fault_bindAttribute`, `mark?_bindAttributes`), the items of a collection (`itemsFor_cases`), the
walk over siblings (`visitChildren`), the copies of a stencil (`copies`) and filling a collection
(`fill`). The statements about siblings, copies and fillings are about any way of visiting a single
node: a fault or a report comes from one of the nodes, and a walk that reached its end did so at
each of them.
-/

set_option autoImplicit false
set_option relaxedAutoImplicit false

namespace MarkupBinding

/-- A path has a value under a stack of scopes. -/
def Stack.Resolves (s : Stack) (path : Path) : Prop :=
  ∃ value, s.resolve path = .ok value

/-- The path that cannot be resolved is the one that was asked for. -/
theorem Stack.path_of_resolve {stack : Stack} {path : Path} {e : ResolutionError}
    (h : stack.resolve path = .error e) : e.path = path := by
  simp only [resolve] at h
  repeat' split at h
  all_goals first
    | (obtain rfl := Except.error.inj h; rfl)
    | cases h

namespace Binding

/-- A stencil that is held back is not in the list of any parent any more. -/
def Held.Lost (held : Held) : Prop :=
  held = .detached ∨ held = .destroyed

/-! ### Bindings of an element -/

section Bindings

variable {stack : Stack} {tag : Tag} {source raw : String} {path : Path}

/-- A path for a binding either has its value; or it is dotted and stops the walk; or it is bare and
is reported as left unbound. -/
theorem resolve_cases (stack : Stack) (source : String) (path : Path) :
    (∃ value, stack.resolve path = .ok value ∧ resolve stack source path = .done (some value)) ∨
      ∃ e, stack.resolve path = .error e ∧
        (path.isDotted = true ∧ resolve stack source path = .stop none (.resolution e) ∨
          path.isDotted = false ∧
            resolve stack source path = .report none (.leftUnbound source stack.names)) := by
  cases hresolve : stack.resolve path with
  | ok value => exact Or.inl ⟨value, rfl, by simp [resolve, hresolve]⟩
  | error e =>
    refine Or.inr ⟨e, rfl, ?_⟩
    cases hdotted : path.isDotted with
    | true => exact Or.inl ⟨rfl, by simp [resolve, hresolve, hdotted]⟩
    | false => exact Or.inr ⟨rfl, by simp [resolve, hresolve, hdotted]⟩

/-- Resolving a path visits nothing. -/
theorem visited_not_mem_resolve {t : Tag} {children : List Node} {s : Stack} :
    Report.visited t children s ∉ (resolve stack source path).reports := by
  rcases resolve_cases stack source path with ⟨_, _, h⟩ | ⟨_, _, ⟨_, h⟩ | ⟨_, h⟩⟩ <;> simp [h]

/-- The walk goes on after a path unless the path is dotted and cannot be resolved. -/
theorem fault_resolve_eq_none_iff :
    (resolve stack source path).fault = none ↔ (path.isDotted = true → stack.Resolves path) := by
  rcases resolve_cases stack source path with
    ⟨value, hvalue, h⟩ | ⟨e, he, ⟨hdotted, h⟩ | ⟨hbare, h⟩⟩
  · simp [Stack.Resolves, h, hvalue]
  · simp [Stack.Resolves, h, he, hdotted]
  · simp [Stack.Resolves, h, hbare]

/-- The only fault of resolving a path is that a dotted path cannot be resolved. -/
theorem fault_resolve_eq_some {e : BindError} (h : (resolve stack source path).fault = some e) :
    path.isDotted = true ∧ ∃ error, stack.resolve path = .error error ∧ e = .resolution error := by
  rcases resolve_cases stack source path with
    ⟨value, hvalue, hrun⟩ | ⟨error, herror, ⟨hdotted, hrun⟩ | ⟨hbare, hrun⟩⟩
  · simp [hrun] at h
  · rw [hrun] at h
    exact ⟨hdotted, error, herror, (Option.some.inj h).symm⟩
  · simp [hrun] at h

/-- The text binding of an element: there is none, or its path is no path, or it is resolved. -/
theorem boundText_cases (stack : Stack) (tag : Tag) :
    tag.mark? Mark.textContent = none ∧ boundText stack tag = .done none ∨
      (∃ raw e, tag.mark? Mark.textContent = some raw ∧ Path.ofBinding raw = .error e ∧
        boundText stack tag = .stop none (.expression e)) ∨
      ∃ raw path, tag.mark? Mark.textContent = some raw ∧ Path.ofBinding raw = .ok path ∧
        boundText stack tag = (resolve stack raw path).map
          (·.map fun value ↦ [.text .characters value.display]) := by
  cases hmark : tag.mark? Mark.textContent with
  | none => exact Or.inl ⟨rfl, by simp [boundText, hmark]⟩
  | some raw =>
    refine Or.inr ?_
    cases hpath : Path.ofBinding raw with
    | error e => exact Or.inl ⟨raw, e, rfl, hpath, by simp [boundText, hmark, hpath]⟩
    | ok path => exact Or.inr ⟨raw, path, rfl, hpath, by simp [boundText, hmark, hpath]⟩

/-- A text binding stops the walk when its path is no path or cannot be resolved. -/
theorem fault_boundText_eq_some {e : BindError} (h : (boundText stack tag).fault = some e) :
    ∃ raw, tag.mark? Mark.textContent = some raw ∧
      ((∃ error, Path.ofBinding raw = .error error ∧ e = .expression error) ∨
        ∃ path, Path.ofBinding raw = .ok path ∧ (resolve stack raw path).fault = some e) := by
  rcases boundText_cases stack tag with
    ⟨-, hrun⟩ | ⟨raw, error, hmark, hbad, hrun⟩ | ⟨raw, path, hmark, hpath, hrun⟩
  · rw [hrun] at h
    cases h
  · rw [hrun] at h
    exact ⟨raw, hmark, Or.inl ⟨error, hbad, (Option.some.inj h).symm⟩⟩
  · rw [hrun, Walk.fault_map] at h
    exact ⟨raw, hmark, Or.inr ⟨path, hpath, h⟩⟩

theorem visited_not_mem_boundText {t : Tag} {children : List Node} {s : Stack} :
    Report.visited t children s ∉ (boundText stack tag).reports := by
  rcases boundText_cases stack tag with ⟨_, h⟩ | ⟨_, _, _, _, h⟩ | ⟨_, _, _, _, h⟩
  · simp [h]
  · simp [h]
  · rw [h, Walk.reports_map]
    exact visited_not_mem_resolve

/-- What a text binding puts in the place of the children is one text. -/
theorem boundText_value {replacement : List Node}
    (h : (boundText stack tag).value = some replacement) :
    ∃ content, replacement = [.text .characters content] := by
  rcases boundText_cases stack tag with ⟨_, hrun⟩ | ⟨_, _, _, _, hrun⟩ | ⟨_, _, _, _, hrun⟩
  · simp [hrun] at h
  · simp [hrun] at h
  · rw [hrun, Walk.value_map] at h
    obtain ⟨value, _, rfl⟩ := Option.map_eq_some_iff.1 h
    exact ⟨value.display, rfl⟩

/-- An element without a text binding keeps its children. -/
theorem boundText_of_mark?_eq_none (h : tag.mark? Mark.textContent = none) :
    boundText stack tag = .done none := by
  rw [boundText, h]

theorem fillSegments_literal (text : String) (rest : TemplateText) :
    fillSegments stack source (.literal text :: rest) =
      (fillSegments stack source rest).map (·.map (text ++ ·)) :=
  rfl

theorem fillSegments_placeholder (path : Path) (shown : String) (rest : TemplateText) :
    fillSegments stack source (.placeholder path shown :: rest) =
      (resolve stack source path).chain (fun _ ↦ none) fun
        | none => .done none
        | some value =>
          (fillSegments stack source rest).map (·.map (value.display ++ ·)) :=
  rfl

/-- The fault of filling in segments is one of resolving a placeholder. -/
theorem fault_fillSegments_eq_some {segments : TemplateText} {e : BindError}
    (h : (fillSegments stack source segments).fault = some e) :
    ∃ path ∈ segments.paths, (resolve stack source path).fault = some e := by
  induction segments with
  | nil => simp [fillSegments] at h
  | cons segment rest ih =>
    cases segment with
    | literal text =>
      rw [fillSegments_literal, Walk.fault_map] at h
      obtain ⟨path, hpath, hfault⟩ := ih h
      exact ⟨path, by simpa [TemplateText.paths, Segment.path?] using hpath, hfault⟩
    | placeholder path shown =>
      rw [fillSegments_placeholder, Walk.fault_chain_eq_some_iff] at h
      rcases h with hfirst | ⟨_, hrest⟩
      · exact ⟨path, by simp [TemplateText.paths, Segment.path?], hfirst⟩
      · cases hvalue : (resolve stack source path).value with
        | none => simp [hvalue] at hrest
        | some value =>
          rw [hvalue, Walk.fault_map] at hrest
          obtain ⟨path', hpath', hfault⟩ := ih hrest
          refine ⟨path', ?_, hfault⟩
          exact List.mem_filterMap.2 ((List.mem_filterMap.1 hpath').imp fun _ hin ↦
            ⟨List.mem_cons_of_mem _ hin.1, hin.2⟩)

/-- Some placeholder of a template text stops the walk: its path is dotted and has no value, and all
placeholders before it have one. -/
def Unfillable (stack : Stack) (segments : TemplateText) : Prop :=
  ∃ before path after, segments.paths = before ++ path :: after ∧
    (∀ p ∈ before, stack.Resolves p) ∧ path.isDotted = true ∧ ¬ stack.Resolves path

theorem not_unfillable_nil : ¬ Unfillable stack [] := by
  rintro ⟨before, path, after, hpaths, -⟩
  cases before <;> simp [TemplateText.paths] at hpaths

/-- Behind a placeholder with a value, the rest decides; a placeholder without one decides by
itself. -/
theorem unfillable_placeholder {shown : String} {rest : TemplateText} :
    Unfillable stack (.placeholder path shown :: rest) ↔
      stack.Resolves path ∧ Unfillable stack rest ∨
        ¬ stack.Resolves path ∧ path.isDotted = true := by
  have hcons : TemplateText.paths (.placeholder path shown :: rest) =
      path :: TemplateText.paths rest := rfl
  constructor
  · rintro ⟨before, stuck, after, hpaths, hbefore, hdotted, hstuck⟩
    rw [hcons] at hpaths
    cases before with
    | nil =>
      obtain ⟨rfl, -⟩ := List.cons.inj hpaths
      exact Or.inr ⟨hstuck, hdotted⟩
    | cons p before =>
      obtain ⟨rfl, hrest⟩ := List.cons.inj hpaths
      exact Or.inl ⟨hbefore path List.mem_cons_self, before, stuck, after, hrest,
        fun q hq ↦ hbefore q (List.mem_cons_of_mem path hq), hdotted, hstuck⟩
  · rintro (⟨hpath, before, stuck, after, hpaths, hbefore, hdotted, hstuck⟩ | ⟨hpath, hdotted⟩)
    · refine ⟨path :: before, stuck, after, by rw [hcons, hpaths, List.cons_append], ?_, hdotted,
        hstuck⟩
      exact List.forall_mem_cons.2 ⟨hpath, hbefore⟩
    · exact ⟨[], path, TemplateText.paths rest, hcons, fun _ hp ↦ absurd hp List.not_mem_nil,
        hdotted, hpath⟩

/-- Filling in segments reaches its end unless a dotted placeholder has no value while all before it
have one; a bare placeholder without a value ends it early, whatever comes behind. -/
theorem fault_fillSegments_eq_none_iff {segments : TemplateText} :
    (fillSegments stack source segments).fault = none ↔ ¬ Unfillable stack segments := by
  induction segments with
  | nil => simp [fillSegments, not_unfillable_nil]
  | cons segment rest ih =>
    cases segment with
    | literal text => rwa [fillSegments_literal, Walk.fault_map]
    | placeholder path shown =>
      rw [unfillable_placeholder, fillSegments_placeholder, Walk.fault_chain_eq_none_iff]
      rcases resolve_cases stack source path with
        ⟨value, hvalue, h⟩ | ⟨e, he, ⟨hdotted, h⟩ | ⟨hbare, h⟩⟩
      · have hpath : stack.Resolves path := ⟨value, hvalue⟩
        simp [h, hpath, ih]
      · have hpath : ¬ stack.Resolves path := by simp [Stack.Resolves, he]
        simp [h, hpath, hdotted]
      · have hpath : ¬ stack.Resolves path := by simp [Stack.Resolves, he]
        simp [h, hpath, hbare]

theorem visited_not_mem_fillSegments {segments : TemplateText} {t : Tag} {children : List Node}
    {s : Stack} : Report.visited t children s ∉ (fillSegments stack source segments).reports := by
  induction segments with
  | nil => simp [fillSegments]
  | cons segment rest ih =>
    cases segment with
    | literal text => rwa [fillSegments_literal, Walk.reports_map]
    | placeholder path shown =>
      rw [fillSegments_placeholder]
      intro hmem
      rcases Walk.mem_reports_chain hmem with hfirst | ⟨_, hrest⟩
      · exact visited_not_mem_resolve hfirst
      · cases hvalue : (resolve stack source path).value with
        | none => simp [hvalue] at hrest
        | some value =>
          rw [hvalue, Walk.reports_map] at hrest
          exact ih hrest

/-- The fault of an attribute binding does not hang on the tag that it is carried out on. -/
theorem fault_bindAttribute (stack : Stack) (binding : String × String) (tag other : Tag) :
    (bindAttribute stack binding tag).fault = (bindAttribute stack binding other).fault := by
  cases hparse : TemplateText.parse binding.2 with
  | error e => simp [bindAttribute, hparse]
  | ok segments => simp [bindAttribute, hparse]

/-- The attribute bindings of an element stop at the first of them that has a fault. -/
theorem fault_bindAttributes (stack : Stack) (tag : Tag) :
    (bindAttributes stack tag).fault =
      tag.attributeBindings.findSome? fun binding ↦ (bindAttribute stack binding tag).fault :=
  Walk.fault_forEach _ (fun binding other ↦ fault_bindAttribute stack binding other tag) _ _

/-- The attribute bindings of an element stop the walk when one of them is no template text or has a
path that cannot be resolved. -/
theorem fault_bindAttributes_eq_some {e : BindError}
    (h : (bindAttributes stack tag).fault = some e) :
    ∃ binding ∈ tag.attributeBindings,
      (∃ error, TemplateText.parse binding.2 = .error error ∧ e = .expression error) ∨
        ∃ segments, TemplateText.parse binding.2 = .ok segments ∧
          ∃ path ∈ segments.paths, (resolve stack binding.2 path).fault = some e := by
  rw [fault_bindAttributes] at h
  obtain ⟨binding, hbinding, hstop⟩ := List.exists_of_findSome?_eq_some h
  refine ⟨binding, hbinding, ?_⟩
  cases hparse : TemplateText.parse binding.2 with
  | error error =>
    simp only [bindAttribute, hparse, Walk.fault_stop] at hstop
    exact Or.inl ⟨error, rfl, (Option.some.inj hstop).symm⟩
  | ok segments =>
    simp only [bindAttribute, hparse, Walk.fault_map] at hstop
    exact Or.inr ⟨segments, rfl, fault_fillSegments_eq_some hstop⟩

theorem visited_not_mem_bindAttributes {t : Tag} {children : List Node} {s : Stack} :
    Report.visited t children s ∉ (bindAttributes stack tag).reports := by
  intro hmem
  obtain ⟨binding, _, other, hin⟩ := Walk.mem_reports_forEach _ _ hmem
  cases hparse : TemplateText.parse binding.2 with
  | error e => simp [bindAttribute, hparse] at hin
  | ok segments =>
    simp only [bindAttribute, hparse, Walk.reports_map] at hin
    exact visited_not_mem_fillSegments hin

/-- Carrying out an attribute binding leaves the tag, or sets the attribute that is bound. -/
theorem bindAttribute_value (stack : Stack) (binding : String × String) (tag : Tag) :
    (bindAttribute stack binding tag).value = tag ∨
      ∃ text, (bindAttribute stack binding tag).value = tag.set binding.1 text := by
  cases hparse : TemplateText.parse binding.2 with
  | error e => simp [bindAttribute, hparse]
  | ok segments =>
    simp only [bindAttribute, hparse, Walk.value_map]
    cases (fillSegments stack binding.2 segments).value with
    | none => exact Or.inl rfl
    | some text => exact Or.inr ⟨text, rfl⟩

/-- An attribute that no attribute binding of the element sets is left as it was. -/
theorem attr?_bindAttributes {name : String}
    (h : ∀ binding ∈ tag.attributeBindings, binding.1 ≠ name) :
    (bindAttributes stack tag).value.attr? name = tag.attr? name := by
  refine Walk.forEach_value (fun bound : Tag ↦ bound.attr? name = tag.attr? name) _ _ ?_ rfl
  intro binding hbinding bound hbound
  rcases bindAttribute_value stack binding bound with hvalue | ⟨text, hvalue⟩
  · rw [hvalue, hbound]
  · rw [hvalue, Tag.attr?_set_of_ne (h binding hbinding).symm, hbound]

/-- A mark that no attribute binding of the element sets is left as it was. -/
theorem mark?_bindAttributes {name : String}
    (h : ∀ binding ∈ tag.attributeBindings, binding.1 ≠ name) :
    (bindAttributes stack tag).value.mark? name = tag.mark? name := by
  rw [Tag.mark?, Tag.mark?, attr?_bindAttributes h]

/-- Attribute bindings that set no marks set no attribute that is one. -/
theorem ne_of_keepsMarks {name : String} (h : tag.KeepsMarks) (hname : Mark.isMark name = true) :
    ∀ binding ∈ tag.attributeBindings, binding.1 ≠ name := by
  intro binding hbinding heq
  have hmark := h binding hbinding
  rw [heq, hname] at hmark
  exact Bool.noConfusion hmark

/-- An element whose attribute bindings set no marks has the marks it had. -/
theorem mark?_bindAttributes_of_keepsMarks {name : String} (h : tag.KeepsMarks)
    (hname : Mark.isMark name = true) :
    (bindAttributes stack tag).value.mark? name = tag.mark? name :=
  mark?_bindAttributes (ne_of_keepsMarks h hname)

/-- An element whose attribute bindings set no marks has the attribute bindings it had. -/
theorem attributeBindings_bindAttributes (h : tag.KeepsMarks) :
    (bindAttributes stack tag).value.attributeBindings = tag.attributeBindings := by
  refine Walk.forEach_value (fun bound : Tag ↦ bound.attributeBindings = tag.attributeBindings)
    _ _ ?_ rfl
  intro binding hbinding bound hbound
  rcases bindAttribute_value stack binding bound with hvalue | ⟨text, hvalue⟩
  · rw [hvalue, hbound]
  · have hplain : Tag.boundAttribute? binding.1 = none :=
      Option.isSome_eq_false_iff.1 (Bool.or_eq_false_iff.1 (h binding hbinding)).2 |>
        Option.isNone_iff_eq_none.1
    rw [hvalue, Tag.attributeBindings_set hplain, hbound]

/-- The scope that a component opens hangs on its component mark alone. -/
theorem enter_congr {other : Tag} (h : other.mark? Mark.component = tag.mark? Mark.component) :
    enter stack other = enter stack tag := by
  rw [enter, enter, h]

/-- What a collection takes its items from: its path is no path; or the path stops the walk; or a
bare path finds nothing and there are no items; or it has a list as value; or it has another value
and no answer is given. -/
theorem itemsFor_cases (stack : Stack) (raw : String) :
    (∃ e, Path.ofBinding raw = .error e ∧ itemsFor stack raw = .stop none (.expression e)) ∨
      ∃ path, Path.ofBinding raw = .ok path ∧
        ((∃ e, stack.resolve path = .error e ∧ path.isDotted = true ∧
            (itemsFor stack raw).fault = some (.resolution e) ∧ (itemsFor stack raw).value = none) ∨
          (∃ e, stack.resolve path = .error e ∧ path.isDotted = false ∧
            (itemsFor stack raw).fault = none ∧ (itemsFor stack raw).value = some []) ∨
          (∃ items, stack.resolve path = .ok (.list items) ∧
            (itemsFor stack raw).fault = none ∧ (itemsFor stack raw).value = some items) ∨
          ∃ value, stack.resolve path = .ok value ∧ (∀ items, value ≠ .list items) ∧
            (itemsFor stack raw).fault = none ∧ (itemsFor stack raw).value = none) := by
  cases hpath : Path.ofBinding raw with
  | error e => exact Or.inl ⟨e, rfl, by simp [itemsFor, hpath]⟩
  | ok path =>
    refine Or.inr ⟨path, rfl, ?_⟩
    rcases resolve_cases stack raw path with
      ⟨value, hvalue, h⟩ | ⟨e, he, ⟨hdotted, h⟩ | ⟨hbare, h⟩⟩
    · cases value with
      | list items =>
        exact Or.inr (Or.inr (Or.inl ⟨items, hvalue, by simp [itemsFor, hpath, h, Walk.fault_chain],
          by simp [itemsFor, hpath, h, Walk.chain]⟩))
      | null | bool | int | float | string | object | record =>
        exact Or.inr (Or.inr (Or.inr ⟨_, hvalue, fun _ heq ↦ Value.noConfusion heq,
          by simp [itemsFor, hpath, h, Walk.fault_chain],
          by simp [itemsFor, hpath, h, Walk.chain]⟩))
    · exact Or.inl ⟨e, he, hdotted, by simp [itemsFor, hpath, h, Walk.fault_chain],
        by simp [itemsFor, hpath, h, Walk.chain]⟩
    · exact Or.inr (Or.inl ⟨e, he, hbare, by simp [itemsFor, hpath, h, Walk.fault_chain],
        by simp [itemsFor, hpath, h, Walk.chain]⟩)

/-- A collection stops the walk for its items when its path is no path or cannot be resolved. -/
theorem fault_itemsFor_eq_some {e : BindError} (h : (itemsFor stack raw).fault = some e) :
    (∃ error, Path.ofBinding raw = .error error ∧ e = .expression error) ∨
      ∃ path, Path.ofBinding raw = .ok path ∧ (resolve stack raw path).fault = some e := by
  rcases itemsFor_cases stack raw with
    ⟨error, hbad, hrun⟩ | ⟨path, hpath, ⟨error, herror, hdotted, hrun, -⟩ | ⟨_, -, -, hrun, -⟩ |
      ⟨_, -, hrun, -⟩ | ⟨_, -, -, hrun, -⟩⟩
  · rw [hrun] at h
    exact Or.inl ⟨error, hbad, (Option.some.inj h).symm⟩
  · have hstop : (resolve stack raw path).fault = some (.resolution error) := by
      simp [resolve, herror, hdotted]
    rw [hrun] at h
    exact Or.inr ⟨path, hpath, hstop.trans h⟩
  all_goals simp [hrun] at h

/-- A collection path with a list as value gives its items. -/
theorem itemsFor_of_list {items : List Value} (hpath : Path.ofBinding raw = .ok path)
    (hvalue : stack.resolve path = .ok (.list items)) :
    (itemsFor stack raw).fault = none ∧ (itemsFor stack raw).value = some items := by
  have hresolve : resolve stack raw path = .done (some (.list items)) := by simp [resolve, hvalue]
  constructor
  · simp [itemsFor, hpath, hresolve, Walk.fault_chain]
  · simp [itemsFor, hpath, hresolve, Walk.chain]

theorem visited_not_mem_itemsFor {t : Tag} {children : List Node} {s : Stack} :
    Report.visited t children s ∉ (itemsFor stack raw).reports := by
  intro hmem
  cases hpath : Path.ofBinding raw with
  | error e => simp [itemsFor, hpath] at hmem
  | ok path =>
    simp only [itemsFor, hpath] at hmem
    rcases Walk.mem_reports_chain hmem with hfirst | ⟨_, hrest⟩
    · exact visited_not_mem_resolve hfirst
    · split at hrest <;> simp at hrest

end Bindings

/-! ### Siblings -/

section Siblings

variable {visit other : Option Place → Node → Walk Visited} {hold : Option Place}

/-- The place that is held back at a node that is not held back itself leads on below the node. -/
theorem ne_nil_of_isHeld_eq_false {place : Place} (h : isHeld (some place) = false) :
    place ≠ [] := by
  rintro rfl
  cases h

/-- The first sibling is visited, then the others are walked. -/
theorem visitChildren_eq_chain (n : Node) (rest : List Node) (first : Nat) :
    visitChildren visit hold first (n :: rest) =
      (visit (holdBelow first hold) n).chain (fun v ↦ (v.node :: rest, v.held)) fun v ↦
        (visitChildren visit hold (first + 1) rest).map fun (nodes, held) ↦
          (v.node :: nodes, if v.held = .kept then held else v.held) :=
  rfl

/-- The walk over siblings hangs on the visits of the siblings alone. -/
theorem visitChildren_congr {nodes : List Node}
    (h : ∀ n ∈ nodes, ∀ hold, visit hold n = other hold n) :
    ∀ first, visitChildren visit hold first nodes = visitChildren other hold first nodes := by
  induction nodes with
  | nil => intro first; rfl
  | cons n rest ih =>
    intro first
    rw [visitChildren_eq_chain, visitChildren_eq_chain, h n List.mem_cons_self,
      ih fun m hm ↦ h m (List.mem_cons_of_mem n hm)]

/-- A fault of the walk over siblings is that of visiting one of them, whose reports belong to the
walk. -/
theorem fault_visitChildren_eq_some {e : BindError} {nodes : List Node} :
    ∀ {first : Nat}, (visitChildren visit hold first nodes).fault = some e →
      ∃ i n, nodes[i]? = some n ∧ (visit (holdBelow (first + i) hold) n).fault = some e ∧
        (visit (holdBelow (first + i) hold) n).reports ⊆
          (visitChildren visit hold first nodes).reports := by
  induction nodes with
  | nil => intro first h; cases h
  | cons n rest ih =>
    intro first h
    rw [visitChildren_eq_chain, Walk.fault_chain_eq_some_iff] at h
    rcases h with hfirst | ⟨hend, hrest⟩
    · exact ⟨0, n, rfl, hfirst, Walk.reports_subset_chain _ _ _⟩
    · obtain ⟨i, m, hm, hfault, hreports⟩ := ih hrest
      rw [Nat.add_assoc, Nat.add_comm 1 i] at hfault hreports
      refine ⟨i + 1, m, hm, hfault, ?_⟩
      rw [visitChildren_eq_chain, Walk.reports_chain hend, Walk.reports_map]
      exact List.subset_append_of_subset_right _ hreports

/-- A walk over siblings that reached its end did so at each of them. -/
theorem fault_visitChildren_eq_none {nodes : List Node} :
    ∀ {first : Nat}, (visitChildren visit hold first nodes).fault = none →
      ∀ i n, nodes[i]? = some n → (visit (holdBelow (first + i) hold) n).fault = none := by
  induction nodes with
  | nil => intro first _ i n hn; simp at hn
  | cons m rest ih =>
    intro first h i n hn
    rw [visitChildren_eq_chain, Walk.fault_chain_eq_none_iff] at h
    cases i with
    | zero =>
      obtain rfl := Option.some.inj hn
      exact h.1
    | succ i =>
      have hrest := ih h.2 i n hn
      rwa [← Nat.add_assoc, Nat.add_right_comm]

/-- Where nothing is held back, the walk over siblings stops at the first of them that has a fault.
-/
theorem fault_visitChildren_none {nodes : List Node} :
    ∀ {first : Nat}, (visitChildren visit none first nodes).fault =
      nodes.findSome? fun n ↦ (visit none n).fault := by
  induction nodes with
  | nil => intro first; rfl
  | cons n rest ih =>
    intro first
    rw [visitChildren_eq_chain, Walk.fault_chain, Walk.fault_map, ih, List.findSome?_cons]
    have hnone : holdBelow first none = none := rfl
    rw [hnone]
    cases (visit none n).fault with
    | none => rfl
    | some e => rfl

/-- A report of the walk over siblings comes from visiting one of them. -/
theorem mem_reports_visitChildren {entry : Report} {nodes : List Node} :
    ∀ {first : Nat}, entry ∈ (visitChildren visit hold first nodes).reports →
      ∃ i n, nodes[i]? = some n ∧ entry ∈ (visit (holdBelow (first + i) hold) n).reports := by
  induction nodes with
  | nil => intro first h; cases h
  | cons n rest ih =>
    intro first h
    rw [visitChildren_eq_chain] at h
    rcases Walk.mem_reports_chain h with hfirst | ⟨_, hrest⟩
    · exact ⟨0, n, rfl, hfirst⟩
    · obtain ⟨i, m, hm, hentry⟩ := ih hrest
      refine ⟨i + 1, m, hm, ?_⟩
      rwa [← Nat.add_assoc, Nat.add_right_comm]

/-- A walk over siblings that reached its end visited the first and then walked the others. -/
theorem visitChildren_cons {n : Node} {rest : List Node} {first : Nat}
    (h : (visitChildren visit hold first (n :: rest)).fault = none) :
    (visit (holdBelow first hold) n).fault = none ∧
      (visitChildren visit hold (first + 1) rest).fault = none ∧
      (visitChildren visit hold first (n :: rest)).value.1 =
        (visit (holdBelow first hold) n).value.node ::
          (visitChildren visit hold (first + 1) rest).value.1 := by
  rw [visitChildren_eq_chain, Walk.fault_chain_eq_none_iff, Walk.fault_map] at h
  rw [visitChildren_eq_chain, Walk.value_chain h.1]
  exact ⟨h.1, h.2, rfl⟩

/-- A stencil that is not kept at the first sibling has met its fate there. -/
theorem held_visitChildren_cons {n : Node} {rest : List Node} {first : Nat}
    (h : (visitChildren visit hold first (n :: rest)).fault = none) :
    (visitChildren visit hold first (n :: rest)).value.2 =
      if (visit (holdBelow first hold) n).value.held = .kept then
        (visitChildren visit hold (first + 1) rest).value.2
      else (visit (holdBelow first hold) n).value.held := by
  rw [visitChildren_eq_chain, Walk.fault_chain_eq_none_iff] at h
  rw [visitChildren_eq_chain, Walk.value_chain h.1]
  rfl

/-- The siblings after a walk that reached its end: each of them as it was visited. -/
theorem getElem?_visitChildren {nodes : List Node} :
    ∀ {first : Nat}, (visitChildren visit hold first nodes).fault = none → ∀ i,
      (visitChildren visit hold first nodes).value.1[i]? =
        nodes[i]?.map fun n ↦ (visit (holdBelow (first + i) hold) n).value.node := by
  induction nodes with
  | nil => intro first _ i; rfl
  | cons m rest ih =>
    intro first h i
    obtain ⟨_, hfault, hvalue⟩ := visitChildren_cons h
    rw [hvalue]
    cases i with
    | zero => rfl
    | succ i =>
      rw [List.getElem?_cons_succ, List.getElem?_cons_succ, ih hfault i, Nat.add_assoc,
        Nat.add_comm 1 i]

/-- A stencil that is kept at every sibling is kept. -/
theorem held_visitChildren {nodes : List Node} :
    ∀ {first : Nat}, (visitChildren visit hold first nodes).fault = none →
      (∀ i n, nodes[i]? = some n → (visit (holdBelow (first + i) hold) n).value.held = .kept) →
      (visitChildren visit hold first nodes).value.2 = .kept := by
  induction nodes with
  | nil => intro first _ _; rfl
  | cons m rest ih =>
    intro first h hkept
    have hfirst : (visit (holdBelow first hold) m).value.held = .kept := hkept 0 m rfl
    rw [held_visitChildren_cons h, if_pos hfirst]
    refine ih (visitChildren_cons h).2.1 fun i n hn ↦ ?_
    have hlater := hkept (i + 1) n hn
    rwa [← Nat.add_assoc, Nat.add_right_comm] at hlater

end Siblings

/-! ### Copies of a stencil -/

section Copies

variable {visit other : Stack → Node → Walk Visited} {stack : Stack} {stencil : Stencil}

/-- A copy of a stencil is as high as the stencil. -/
@[simp] theorem height_copyOf (n : Node) : (copyOf n).height = n.height := by
  cases n with
  | text kind content => rfl
  | element tag children => rfl

/-- The copy for the first item is bound, then the copies for the others. -/
theorem copies_cons (item : Value) (items : List Value) :
    copies visit stack stencil (item :: items) =
      (visit (stack.push stencil.item item) (copyOf stencil.node)).chain (fun _ ↦ []) fun v ↦
        (copies visit stack stencil items).map (v.node :: ·) :=
  rfl

/-- The bound copies hang on the visits of the copy alone. -/
theorem copies_congr (h : ∀ s, visit s (copyOf stencil.node) = other s (copyOf stencil.node))
    (items : List Value) : copies visit stack stencil items = copies other stack stencil items := by
  induction items with
  | nil => rfl
  | cons item rest ih => rw [copies_cons, copies_cons, h, ih]

/-- A fault of binding copies is that of binding the copy for one of the items, whose reports belong
to the walk. -/
theorem fault_copies_eq_some {e : BindError} {items : List Value}
    (h : (copies visit stack stencil items).fault = some e) :
    ∃ item ∈ items,
      (visit (stack.push stencil.item item) (copyOf stencil.node)).fault = some e ∧
        (visit (stack.push stencil.item item) (copyOf stencil.node)).reports ⊆
          (copies visit stack stencil items).reports := by
  induction items with
  | nil => cases h
  | cons item rest ih =>
    rw [copies_cons, Walk.fault_chain_eq_some_iff] at h
    rcases h with hfirst | ⟨hend, hrest⟩
    · exact ⟨item, List.mem_cons_self, hfirst, Walk.reports_subset_chain _ _ _⟩
    · obtain ⟨later, hlater, hfault, hreports⟩ := ih hrest
      refine ⟨later, List.mem_cons_of_mem item hlater, hfault, ?_⟩
      rw [copies_cons, Walk.reports_chain hend, Walk.reports_map]
      exact List.subset_append_of_subset_right _ hreports

/-- Binding copies that reached its end did so for every item, and gives one copy for each. -/
theorem copies_of_fault_eq_none {items : List Value}
    (h : (copies visit stack stencil items).fault = none) :
    (∀ item ∈ items,
        (visit (stack.push stencil.item item) (copyOf stencil.node)).fault = none) ∧
      (copies visit stack stencil items).value = items.map fun item ↦
        (visit (stack.push stencil.item item) (copyOf stencil.node)).value.node := by
  induction items with
  | nil => exact ⟨fun _ hitem ↦ absurd hitem List.not_mem_nil, rfl⟩
  | cons item rest ih =>
    rw [copies_cons, Walk.fault_chain_eq_none_iff] at h
    obtain ⟨hrest, hvalue⟩ := ih h.2
    refine ⟨?_, ?_⟩
    · intro other hother
      rcases List.mem_cons.1 hother with rfl | hlater
      · exact h.1
      · exact hrest other hlater
    · rw [copies_cons, Walk.value_chain h.1, Walk.value_map, hvalue, List.map_cons]

/-- A report of binding copies comes from binding the copy for one of the items. -/
theorem mem_reports_copies {entry : Report} {items : List Value}
    (h : entry ∈ (copies visit stack stencil items).reports) :
    ∃ item ∈ items,
      entry ∈ (visit (stack.push stencil.item item) (copyOf stencil.node)).reports := by
  induction items with
  | nil => cases h
  | cons item rest ih =>
    rw [copies_cons] at h
    rcases Walk.mem_reports_chain h with hfirst | ⟨_, hrest⟩
    · exact ⟨item, List.mem_cons_self, hfirst⟩
    · obtain ⟨later, hlater, hentry⟩ := ih hrest
      exact ⟨later, List.mem_cons_of_mem item hlater, hentry⟩

/-- Filling a collection hangs on the visits of the copy alone. -/
theorem fill_congr (h : ∀ s, visit s (copyOf stencil.node) = other s (copyOf stencil.node))
    (items : List Value) (around : List Node × Held) :
    fill visit stack stencil items around = fill other stack stencil items around := by
  obtain ⟨nodes, held⟩ := around
  cases held <;> cases items <;> simp only [fill, copies_congr h]

/-- A fault of filling a collection is that of binding a copy, or the stencil is no longer there. -/
theorem fault_fill_eq_some {e : BindError} {items : List Value} {around : List Node × Held}
    (h : (fill visit stack stencil items around).fault = some e) :
    (∃ item ∈ items,
        (visit (stack.push stencil.item item) (copyOf stencil.node)).fault = some e ∧
          (visit (stack.push stencil.item item) (copyOf stencil.node)).reports ⊆
            (fill visit stack stencil items around).reports) ∨
      around.2.Lost ∧ e = .lostStencil (!items.isEmpty) := by
  obtain ⟨nodes, held⟩ := around
  cases held with
  | kept =>
    simp only [fill, fillIn, Walk.fault_chain_eq_some_iff, Walk.fault_done] at h
    obtain ⟨item, hitem, hfault, hreports⟩ := fault_copies_eq_some (by simpa using h)
    exact Or.inl ⟨item, hitem, hfault,
      List.Subset.trans hreports (Walk.reports_subset_chain _ _ _)⟩
  | adrift =>
    simp only [fill, Walk.fault_chain_eq_some_iff, Walk.fault_done] at h
    obtain ⟨item, hitem, hfault, hreports⟩ := fault_copies_eq_some (by simpa using h)
    exact Or.inl ⟨item, hitem, hfault,
      List.Subset.trans hreports (Walk.reports_subset_chain _ _ _)⟩
  | detached =>
    cases items with
    | nil => exact Or.inr ⟨Or.inl rfl, by simpa [fill] using h.symm⟩
    | cons item rest =>
      simp only [fill, Walk.fault_chain_eq_some_iff, Walk.fault_stop] at h
      rcases h with hcopy | ⟨_, hlost⟩
      · obtain ⟨first, hfirst, hfault, hreports⟩ := fault_copies_eq_some hcopy
        obtain rfl := List.mem_singleton.1 hfirst
        exact Or.inl ⟨first, List.mem_cons_self, hfault,
          List.Subset.trans hreports (Walk.reports_subset_chain _ _ _)⟩
      · exact Or.inr ⟨Or.inl rfl, (Option.some.inj hlost).symm⟩
  | destroyed =>
    cases items with
    | nil => exact Or.inr ⟨Or.inr rfl, by simpa [fill] using h.symm⟩
    | cons item rest => exact Or.inr ⟨Or.inr rfl, by simpa [fill] using h.symm⟩

/-- Filling a collection that reached its end bound a copy for every item; if the stencil was kept,
the copies stand in its place. -/
theorem fill_of_fault_eq_none {items : List Value} {around : List Node × Held}
    (h : (fill visit stack stencil items around).fault = none) :
    (∀ item ∈ items,
        (visit (stack.push stencil.item item) (copyOf stencil.node)).fault = none) ∧
      (around.2 = .kept → (fill visit stack stencil items around).value =
        Node.replaceAt (items.map fun item ↦
          (visit (stack.push stencil.item item) (copyOf stencil.node)).value.node)
          around.1 stencil.place) := by
  obtain ⟨nodes, held⟩ := around
  cases held with
  | kept =>
    simp only [fill, fillIn, Walk.fault_chain_eq_none_iff, Walk.fault_done, and_true] at h
    obtain ⟨hitems, hvalue⟩ := copies_of_fault_eq_none h
    refine ⟨hitems, fun _ ↦ ?_⟩
    simp only [fill, fillIn, Walk.value_chain h, Walk.value_done, hvalue]
  | adrift =>
    simp only [fill, Walk.fault_chain_eq_none_iff, Walk.fault_done, and_true] at h
    exact ⟨(copies_of_fault_eq_none h).1, fun hkept ↦ Held.noConfusion hkept⟩
  | detached =>
    cases items <;> simp [fill, Walk.fault_chain_eq_none_iff] at h
  | destroyed =>
    cases items <;> simp [fill] at h

/-- A collection whose stencil is lost cannot be filled. -/
theorem not_lost_of_fault_fill {items : List Value} {around : List Node × Held}
    (h : (fill visit stack stencil items around).fault = none) : ¬ around.2.Lost := by
  obtain ⟨nodes, held⟩ := around
  rintro (rfl | rfl)
  · cases items <;> simp [fill, Walk.fault_chain_eq_none_iff] at h
  · cases items <;> simp [fill] at h

/-- A report of filling a collection comes from binding the copy for one of the items. -/
theorem mem_reports_fill {entry : Report} {items : List Value} {around : List Node × Held}
    (h : entry ∈ (fill visit stack stencil items around).reports) :
    ∃ item ∈ items,
      entry ∈ (visit (stack.push stencil.item item) (copyOf stencil.node)).reports := by
  obtain ⟨nodes, held⟩ := around
  cases held with
  | kept =>
    rcases Walk.mem_reports_chain h with hcopies | ⟨_, hdone⟩
    · exact mem_reports_copies hcopies
    · simp at hdone
  | adrift =>
    rcases Walk.mem_reports_chain h with hcopies | ⟨_, hdone⟩
    · exact mem_reports_copies hcopies
    · simp at hdone
  | detached =>
    cases items with
    | nil => simp [fill] at h
    | cons item rest =>
      rcases Walk.mem_reports_chain h with hcopies | ⟨_, hstop⟩
      · obtain ⟨first, hfirst, hentry⟩ := mem_reports_copies hcopies
        obtain rfl := List.mem_singleton.1 hfirst
        exact ⟨first, List.mem_cons_self, hentry⟩
      · simp at hstop
  | destroyed =>
    cases items <;> simp [fill] at h

/-- An expansion that reached its end has a stencil and items, or its value is no list and its
content is removed; with items, the nodes around the stencil were bound and the collection was
filled. -/
theorem expand_of_fault_eq_none {visit : Stack → Option Place → Node → Walk Visited} {raw : String}
    {tag : Tag} {children : List Node}
    (h : (expand visit stack raw tag children).fault = none) :
    ∃ stencil, Stencil.of tag children = .ok stencil ∧ (itemsFor stack raw).fault = none ∧
      ((itemsFor stack raw).value = none ∧ (expand visit stack raw tag children).value = [] ∨
        ∃ items around, (itemsFor stack raw).value = some items ∧
          around = visitChildren (visit stack) (some stencil.place) 0 children ∧
          around.fault = none ∧
          (fill (fun s n ↦ visit s none n) stack stencil items around.value).fault = none ∧
          (expand visit stack raw tag children).value =
            (fill (fun s n ↦ visit s none n) stack stencil items around.value).value) := by
  simp only [expand] at h ⊢
  split at h
  · simp at h
  · next stencil hstencil =>
    rw [Walk.fault_chain_eq_none_iff] at h
    refine ⟨stencil, hstencil, h.1, ?_⟩
    rw [Walk.value_chain h.1]
    cases hitems : (itemsFor stack raw).value with
    | none => exact Or.inl ⟨rfl, rfl⟩
    | some items =>
      have hrest := h.2
      simp only [hitems, Walk.fault_chain_eq_none_iff] at hrest
      exact Or.inr ⟨items, _, rfl, rfl, hrest.1, hrest.2, Walk.value_chain hrest.1 _ _⟩

end Copies

end Binding

end MarkupBinding
