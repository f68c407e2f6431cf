import MarkupBinding.Proofs.Binding.Step
import MarkupBinding.Proofs.Markup.Alike
import MarkupBinding.Proofs.Text.LineEnds
import Mathlib.Data.List.Induction

/-!
# What attribute bindings set

An attribute binding sets its target to the text of its template with the values of the
placeholders, and only when all of them have one (`setting?`, `value_bindAttribute`). The settings
of an element are read off before any of them is made, so carrying out the attribute bindings of an
element is updating its attributes with its settings (`value_bindAttributes`). Each target is set
once, as the names of attributes are distinct (`Tag.nodup_targets`).

Where no binding sets a mark, the element has the same settings afterwards, and setting them again
changes nothing (`bindAttributes_again`).
-/

set_option autoImplicit false
set_option relaxedAutoImplicit false

namespace MarkupBinding

/-! ### Setting keys twice -/

/-- Updating a second time with the same pairs changes nothing. -/
theorem Keyed.update_update {α β : Type} [BEq α] [LawfulBEq α] (base pairs : List (α × β)) :
    update (update base pairs) pairs = update base pairs := by
  induction pairs using List.reverseRecOn with
  | nil => rfl
  | append_singleton rest pair ih =>
    have hlast : ∀ start : List (α × β),
        update start (rest ++ [pair]) = set pair.1 pair.2 (update start rest) :=
      fun start ↦ List.foldl_append
    rw [hlast, hlast, set_update_set pair.1 pair.2 fun other hother ↦
      mem_keys_update.2 (Or.inr hother), ih]

/-! ### The targets of attribute bindings -/

namespace Tag

/-- Two attributes that bind the same attribute have the same name. -/
theorem boundAttribute?_inj {name other target : String} (h : boundAttribute? name = some target)
    (hother : boundAttribute? other = some target) : name = other := by
  have hname : ∀ {name : String}, boundAttribute? name = some target →
      name.toList = Mark.attributeStart.toList ++ target.toList := by
    intro name h
    simp only [boundAttribute?] at h
    split at h
    · next c cs hafter =>
      obtain rfl := Option.some.inj h
      rw [Text.after?_eq_some_iff.1 hafter, String.toList_ofList]
    · cases h
  exact String.toList_inj.1 ((hname h).trans (hname hother).symm)

/-- The attributes that are bound are distinct where the names of the attributes are. -/
theorem nodup_targets {t : Tag} (h : (Keyed.keys t.attrs).Nodup) : t.targets.Nodup := by
  obtain ⟨name, attrs⟩ := t
  have htargets : targets ⟨name, attrs⟩ = (Keyed.keys attrs).filterMap boundAttribute? := by
    rw [targets, attributeBindings, List.map_filterMap, Keyed.keys, List.filterMap_map]
    refine List.filterMap_congr fun pair _ ↦ ?_
    rw [Function.comp_apply, Option.map_map]
    exact congrFun Option.map_id _
  rw [htargets]
  refine List.Pairwise.filterMap boundAttribute? (fun name other hne target htarget ↦ ?_) h
  rintro _ hother rfl
  exact hne (boundAttribute?_inj htarget hother)

end Tag

/-- The text that a path's value is shown as; empty where the path has no value. -/
def Stack.shown (s : Stack) (path : Path) : String :=
  match s.resolve path with
  | .ok value => value.display
  | .error _ => ""

instance (s : Stack) (path : Path) : Decidable (s.Resolves path) :=
  decidable_of_iff ((s.resolve path).isOk = true) <| by
    cases h : s.resolve path with
    | ok value => simp [Stack.Resolves, h, Except.isOk, Except.toBool]
    | error e => simp [Stack.Resolves, h, Except.isOk, Except.toBool]

namespace Binding

variable {stack : Stack} {tag : Tag} {source : String}

/-! ### One attribute binding -/

/-- The target of an attribute binding with the text that it is set to: that of the template with
the values of its placeholders, where all of them have one. -/
def setting? (stack : Stack) (binding : String × String) : Option (String × AttrValue) :=
  match TemplateText.parse binding.2 with
  | .error _ => none
  | .ok segments =>
    if ∀ path ∈ segments.paths, stack.Resolves path then
      some (binding.1, .plain (segments.render stack.shown))
    else none

/-- What the attribute bindings of an element set, in order. -/
def settings (stack : Stack) (tag : Tag) : List (String × AttrValue) :=
  tag.attributeBindings.filterMap (setting? stack)

/-- Filling in segments gives their text with the values of the placeholders, where all of them have
one. -/
theorem value_fillSegments (segments : TemplateText) :
    (fillSegments stack source segments).value =
      if ∀ path ∈ segments.paths, stack.Resolves path then some (segments.render stack.shown)
      else none := by
  induction segments with
  | nil => rfl
  | cons segment rest ih =>
    cases segment with
    | literal text =>
      have hpaths : TemplateText.paths (.literal text :: rest) = TemplateText.paths rest := rfl
      have hrender : TemplateText.render stack.shown (.literal text :: rest) =
          text ++ TemplateText.render stack.shown rest := String.join_cons
      rw [fillSegments, Walk.value_map, ih, hpaths, hrender]
      split <;> rfl
    | placeholder path shown =>
      have hpaths : TemplateText.paths (.placeholder path shown :: rest) =
          path :: TemplateText.paths rest := rfl
      have hrender : TemplateText.render stack.shown (.placeholder path shown :: rest) =
          stack.shown path ++ TemplateText.render stack.shown rest := String.join_cons
      rw [fillSegments, hpaths, hrender]
      simp only [List.forall_mem_cons]
      rcases resolve_cases stack source path with ⟨value, hvalue, h⟩ | ⟨e, he, ⟨-, h⟩ | ⟨-, h⟩⟩
      · have hshown : stack.shown path = value.display := by rw [Stack.shown, hvalue]
        have hpath : stack.Resolves path := ⟨value, hvalue⟩
        rw [h, Walk.value_chain rfl, Walk.value_done, Walk.value_map, ih, hshown]
        simp only [hpath, true_and]
        split <;> rfl
      -- a path without a value leaves no text, whether it stops the walk or not
      · have hpath : ¬ stack.Resolves path := by simp [Stack.Resolves, he]
        simp [h, Walk.chain, hpath]
      · have hpath : ¬ stack.Resolves path := by simp [Stack.Resolves, he]
        simp [h, Walk.chain, hpath]

/-- Carrying out an attribute binding makes its setting, if it has one. -/
theorem value_bindAttribute (stack : Stack) (binding : String × String) (tag : Tag) :
    (bindAttribute stack binding tag).value =
      ⟨tag.name, Keyed.update tag.attrs (setting? stack binding).toList⟩ := by
  rw [bindAttribute, setting?]
  cases TemplateText.parse binding.2 with
  | error e => rfl
  | ok segments =>
    dsimp only
    rw [Walk.value_map, value_fillSegments]
    by_cases hall : ∀ path ∈ segments.paths, stack.Resolves path
    · rw [if_pos hall, if_pos hall]
      rfl
    · rw [if_neg hall, if_neg hall]
      rfl

/-- Carrying out attribute bindings one behind the other makes their settings in order. -/
theorem value_forEach_bindAttribute {bindings : List (String × String)} :
    ∀ {tag : Tag}, (Walk.forEach (bindAttribute stack) bindings tag).fault = none →
      (Walk.forEach (bindAttribute stack) bindings tag).value =
        ⟨tag.name, Keyed.update tag.attrs (bindings.filterMap (setting? stack))⟩ := by
  induction bindings with
  | nil => exact fun _ ↦ rfl
  | cons binding rest ih =>
    intro tag h
    rw [Walk.forEach, Walk.andThen, Walk.fault_chain_eq_none_iff] at h
    rw [Walk.forEach, Walk.andThen, Walk.value_chain h.1, ih h.2, value_bindAttribute,
      List.filterMap_cons]
    cases setting? stack binding <;> rfl

/-- Carrying out the attribute bindings of an element updates its attributes with its settings. -/
theorem value_bindAttributes (h : (bindAttributes stack tag).fault = none) :
    (bindAttributes stack tag).value = ⟨tag.name, Keyed.update tag.attrs (settings stack tag)⟩ :=
  value_forEach_bindAttribute h

/-- What an attribute binding sets is its target. -/
theorem fst_of_setting? {binding : String × String} {setting : String × AttrValue}
    (h : setting? stack binding = some setting) : setting.1 = binding.1 := by
  rw [setting?] at h
  split at h
  · cases h
  · split at h
    · rw [← Option.some.inj h]
    · cases h

/-- The settings of attribute bindings are for some of the targets, in order. -/
theorem keys_settings_sublist (stack : Stack) (bindings : List (String × String)) :
    (Keyed.keys (bindings.filterMap (setting? stack))).Sublist (bindings.map Prod.fst) := by
  induction bindings with
  | nil => exact List.Sublist.refl _
  | cons binding rest ih =>
    rw [List.filterMap_cons, List.map_cons]
    cases hsetting : setting? stack binding with
    | none => exact ih.cons binding.1
    | some setting =>
      rw [← fst_of_setting? hsetting]
      exact ih.cons_cons setting.1

/-- Where the names of the attributes are distinct, each attribute is set at most once. -/
theorem nodup_keys_settings (stack : Stack) (hnames : (Keyed.keys tag.attrs).Nodup) :
    (Keyed.keys (settings stack tag)).Nodup :=
  (Tag.nodup_targets hnames).sublist (keys_settings_sublist stack tag.attributeBindings)

/-- Where the names of the attributes are distinct, carrying out the attribute bindings leaves each
attribute in its place, with what is set for it if anything is, and the attributes that were not
there follow in the order of their bindings. -/
theorem attrs_bindAttributes (h : (bindAttributes stack tag).fault = none)
    (hnames : (Keyed.keys tag.attrs).Nodup) :
    (bindAttributes stack tag).value.attrs =
      (tag.attrs.map fun attr ↦ (attr.1, ((settings stack tag).lookup attr.1).getD attr.2)) ++
        (settings stack tag).filter fun setting ↦ !tag.has setting.1 := by
  rw [value_bindAttributes h]
  exact Keyed.update_eq_append hnames (nodup_keys_settings stack hnames)

/-! ### Binding again -/

/-- Where no attribute binding sets a mark, carrying the bindings out a second time reaches its end
and changes nothing. -/
theorem bindAttributes_again (hmarks : tag.KeepsMarks)
    (h : (bindAttributes stack tag).fault = none) :
    (bindAttributes stack (bindAttributes stack tag).value).fault = none ∧
      (bindAttributes stack (bindAttributes stack tag).value).value =
        (bindAttributes stack tag).value := by
  have hbindings := @attributeBindings_bindAttributes stack tag hmarks
  have hfault : (bindAttributes stack (bindAttributes stack tag).value).fault = none := by
    rw [fault_bindAttributes, List.findSome?_eq_none_iff] at h ⊢
    intro binding hbinding
    rw [hbindings] at hbinding
    rw [fault_bindAttribute stack binding _ tag]
    exact h binding hbinding
  have hsettings : settings stack (bindAttributes stack tag).value = settings stack tag := by
    rw [settings, settings, hbindings]
  refine ⟨hfault, ?_⟩
  rw [value_bindAttributes hfault, hsettings, value_bindAttributes h, Keyed.update_update]

end Binding

end MarkupBinding
