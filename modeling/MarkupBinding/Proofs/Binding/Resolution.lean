import MarkupBinding.Proofs.Binding.Step
import Mathlib.Data.List.Induction

/-!
# Which scope a path is resolved in

A path is resolved in the innermost scope that decides it: for a dotted path the innermost scope of
its name, whether or not that scope has the property, and for a bare path the innermost scope whose
value has the property (`Stack.resolve_eq_ok_iff`). So there are two rules of shadowing over the
same scopes, and what they have in common is that scopes which do not decide a path may be pushed
without effect: the innermost scope that decides it stays the innermost one.

A value has a property where it is an object or a record with such a field and the field is not
`null`; scalars and lists have none (`Value.property?_eq_some_iff`).

`Stack.resolve_scoped` puts this together, with what the error of a path carries. The words of an
error list the names of all scopes of the stack, so they do change when scopes are pushed, and
nothing else does (`Stack.resolve_pushAll`): that is what an outcome leaves out.
-/

set_option autoImplicit false
set_option relaxedAutoImplicit false

namespace MarkupBinding

/-! ### Properties of values -/

namespace Value

/-- The value has a field of a name, with whatever value: an entry of an object, or the field of a
record that has the name, or else has it as its public name. -/
inductive HasField (name : String) (value : Value) : Value → Prop
  | entry {fields : List (String × Value)} (h : fields.lookup name = some value) :
      HasField name value (.object fields)
  | own {type : String} {fields : List (FieldName × Value)} {field : FieldName}
      (h : fields.find? (fun f ↦ f.1.name == name) = some (field, value)) :
      HasField name value (.record type fields)
  | shown {type : String} {fields : List (FieldName × Value)} {field : FieldName}
      (hown : fields.find? (fun f ↦ f.1.name == name) = none)
      (h : fields.find? (fun f ↦ f.1.publicName == some name) = some (field, value)) :
      HasField name value (.record type fields)

/-- The value has a field of a name that is not `null`. -/
def Exposes (v : Value) (name : String) (value : Value) : Prop :=
  HasField name value v ∧ value ≠ .null

theorem present_eq_some_iff {found : Option Value} {value : Value} :
    present found = some value ↔ found = some value ∧ value ≠ .null := by
  unfold present
  split
  · constructor
    · intro h
      cases h
    · rintro ⟨h, hnull⟩
      exact absurd (Option.some.inj h).symm hnull
  · next hnull =>
    refine ⟨fun h ↦ ⟨h, ?_⟩, And.left⟩
    rintro rfl
    exact hnull h

/-- A field of a record goes by its own name before any goes by its public name. -/
theorem fieldValue?_eq_some_iff {type name : String} {fields : List (FieldName × Value)}
    {value : Value} :
    fieldValue? name fields = some value ↔ HasField name value (.record type fields) := by
  unfold fieldValue?
  cases hown : fields.find? fun f ↦ f.1.name == name with
  | some field =>
    constructor
    · intro h
      obtain rfl := Option.some.inj h
      exact .own hown
    · intro h
      cases h with
      | own h => exact congrArg (Option.map Prod.snd) (hown.symm.trans h)
      | shown hnone _ => cases hown.symm.trans hnone
  | none =>
    constructor
    · intro h
      obtain ⟨⟨field, found⟩, hfound, rfl⟩ := Option.map_eq_some_iff.1 h
      exact .shown hown hfound
    · intro h
      cases h with
      | own h => cases hown.symm.trans h
      | shown _ h => exact congrArg (Option.map Prod.snd) h

/-- What is read of a value under a name is the field that it has there, unless that is `null`. -/
theorem property?_eq_some_iff {v : Value} {name : String} {value : Value} :
    v.property? name = some value ↔ v.Exposes name value := by
  unfold Exposes
  cases v with
  | object fields =>
    refine present_eq_some_iff.trans (and_congr_left fun _ ↦ ⟨.entry, fun h ↦ ?_⟩)
    cases h with
    | entry h => exact h
  | record type fields =>
    exact present_eq_some_iff.trans (and_congr_left fun _ ↦ fieldValue?_eq_some_iff)
  | null | bool | int | float | string | list =>
    constructor
    · intro h
      cases h
    · rintro ⟨h, -⟩
      cases h

end Value

/-! ### The innermost scope -/

/-- The scope decides a path, whether or not it has a value for it: a dotted path is decided where
its scope name is, a bare one where its property is. -/
def Scope.Decides (scope : Scope) (path : Path) : Prop :=
  match path.scope with
  | some name => scope.name = name
  | none => ∃ value, scope.value.Exposes path.name value

namespace Stack

variable {s : Stack} {path : Path} {scope : Scope} {value : Value}

/-- The innermost scope that passes a test. -/
def Innermost (s : Stack) (test : Scope → Prop) (scope : Scope) : Prop :=
  ∃ inner outer, s.scopes = inner ++ scope :: outer ∧ test scope ∧ ∀ other ∈ inner, ¬ test other

/-- Looking a name up finds the innermost scope of the name. -/
theorem lookup_eq_some_iff {name : String} :
    s.lookup name = some scope ↔ s.Innermost (·.name = name) scope := by
  simp only [lookup, List.find?_eq_some_iff_append, Innermost, beq_iff_eq, Bool.not_eq_true',
    beq_eq_false_iff_ne]
  constructor
  · rintro ⟨hname, inner, outer, hscopes, hinner⟩
    exact ⟨inner, outer, hscopes, hname, hinner⟩
  · rintro ⟨inner, outer, hscopes, hname, hinner⟩
    exact ⟨hname, inner, outer, hscopes, hinner⟩

/-- Looking a property up finds the innermost scope that has it. -/
theorem findProperty_eq_some_iff {name : String} :
    s.findProperty name = some (scope, value) ↔
      s.Innermost (fun scope ↦ ∃ value, scope.value.Exposes name value) scope ∧
        scope.value.Exposes name value := by
  have hnone : ∀ other : Scope,
      (other.value.property? name).map (fun value ↦ (other, value)) = none ↔
        ¬ ∃ value, other.value.Exposes name value := by
    intro other
    simp only [← Value.property?_eq_some_iff, Option.map_eq_none_iff]
    exact Option.eq_none_iff_forall_ne_some.trans not_exists.symm
  unfold findProperty Innermost
  rw [List.findSome?_eq_some_iff]
  constructor
  · rintro ⟨inner, found, outer, hscopes, hfound, hinner⟩
    obtain ⟨shown, hshown, heq⟩ := Option.map_eq_some_iff.1 hfound
    obtain ⟨rfl, rfl⟩ := Prod.mk.inj heq
    have hexposes := Value.property?_eq_some_iff.1 hshown
    exact ⟨⟨inner, outer, hscopes, ⟨_, hexposes⟩, fun other h ↦ (hnone other).1 (hinner other h)⟩,
      hexposes⟩
  · rintro ⟨⟨inner, outer, hscopes, -, hinner⟩, hexposes⟩
    exact ⟨inner, scope, outer, hscopes,
      congrArg (Option.map _) (Value.property?_eq_some_iff.2 hexposes),
      fun other h ↦ (hnone other).2 (hinner other h)⟩

/-- A path has the value that the innermost scope deciding it has for it, if there is such a scope
and it has one. -/
theorem resolve_eq_ok_iff :
    s.resolve path = .ok value ↔
      ∃ scope, s.Innermost (·.Decides path) scope ∧ scope.value.Exposes path.name value := by
  obtain ⟨name, - | scopeName⟩ := path
  · have hresolve : s.resolve ⟨name, none⟩ = .ok value ↔
        ∃ scope, s.findProperty name = some (scope, value) := by
      simp only [resolve]
      cases s.findProperty name with
      | none => simp
      | some found => simp [Prod.ext_iff]
    simp only [hresolve, findProperty_eq_some_iff]
    rfl
  · have hresolve : s.resolve ⟨name, some scopeName⟩ = .ok value ↔
        ∃ scope, s.lookup scopeName = some scope ∧ scope.value.property? name = some value := by
      simp only [resolve]
      cases s.lookup scopeName with
      | none => simp
      | some scope => cases hvalue : scope.value.property? name <;> simp [hvalue]
    simp only [hresolve, lookup_eq_some_iff, Value.property?_eq_some_iff]
    rfl

/-- A path without a value is an error that carries the path and the scope that the path names. -/
theorem exists_error_of_not_ok (h : ∀ value, s.resolve path ≠ .ok value) :
    ∃ e, s.resolve path = .error e ∧ e.path = path ∧ e.scope = path.scope.getD "" := by
  cases hresolve : s.resolve path with
  | ok value => exact absurd hresolve (h value)
  | error e =>
    have hpath := path_of_resolve hresolve
    exact ⟨e, rfl, hpath, by rw [ResolutionError.scope, hpath]⟩

end Stack

/-! ### Pushing and popping -/

/-- The fault with other scope names listed. -/
def ResolutionFault.amid (names : List String) : ResolutionFault → ResolutionFault
  | unknownScope scope _ => unknownScope scope names
  | missingProperty scope name => missingProperty scope name
  | nowhere name _ => nowhere name names

/-- The error with other scope names listed. -/
def ResolutionError.amid (names : List String) (e : ResolutionError) : ResolutionError :=
  { e with fault := e.fault.amid names }

@[simp] theorem ResolutionError.amid_amid (names others : List String) (e : ResolutionError) :
    (e.amid names).amid others = e.amid others := by
  obtain ⟨path, fault⟩ := e
  cases fault <;> rfl

namespace Stack

variable {s : Stack} {path : Path} {scope : Scope} {test : Scope → Prop}

/-- The stack with more scopes inside; the last one is the innermost. -/
def pushAll (s : Stack) (frames : List Scope) : Stack :=
  frames.foldl (fun s frame ↦ s.push frame.name frame.value) s

/-- The stack without a number of its innermost scopes. -/
def popMany? : Nat → Stack → Option Stack
  | 0, s => some s
  | n + 1, s => s.pop?.bind (popMany? n)

/-- What resolving a path comes to: its value, or the error but for the scope names that its words
list. -/
def outcome (s : Stack) (path : Path) : Except ResolutionError Value :=
  (s.resolve path).mapError (·.amid [])

/-- An error lists the names of the scopes of its stack. -/
theorem mapError_amid_names (s : Stack) (path : Path) :
    (s.resolve path).mapError (·.amid s.names) = s.resolve path := by
  obtain ⟨name, - | scopeName⟩ := path
  · simp only [resolve]
    cases s.findProperty name <;> rfl
  · simp only [resolve]
    cases s.lookup scopeName with
    | none => rfl
    | some scope => cases hvalue : scope.value.property? name <;> simp only [hvalue] <;> rfl

/-- Pushing a scope that does not decide a path changes nothing but the names that an error lists.
-/
theorem resolve_push {frame : Scope} (h : ¬ frame.Decides path) :
    (s.push frame.name frame.value).resolve path =
      (s.resolve path).mapError (·.amid (s.push frame.name frame.value).names) := by
  obtain ⟨name, - | scopeName⟩ := path
  · have hnone : frame.value.property? name = none :=
      Option.eq_none_iff_forall_ne_some.2 fun found hfound ↦
        h ⟨found, Value.property?_eq_some_iff.1 hfound⟩
    have hfind : (s.push frame.name frame.value).findProperty name = s.findProperty name :=
      List.findSome?_cons_of_isNone (by simp [push, hnone])
    simp only [resolve, hfind]
    cases s.findProperty name <;> rfl
  · have hfind : (s.push frame.name frame.value).lookup scopeName = s.lookup scopeName :=
      List.find?_cons_of_neg (mt eq_of_beq h)
    simp only [resolve, hfind]
    cases s.lookup scopeName with
    | none => rfl
    | some scope => cases hvalue : scope.value.property? name <;> simp only [hvalue] <;> rfl

/-- Pushing any number of scopes that do not decide a path changes nothing but the names that an
error lists. -/
theorem resolve_pushAll {frames : List Scope} (h : ∀ frame ∈ frames, ¬ frame.Decides path) :
    (s.pushAll frames).resolve path =
      (s.resolve path).mapError (·.amid (s.pushAll frames).names) := by
  induction frames generalizing s with
  | nil => exact (mapError_amid_names s path).symm
  | cons frame rest ih =>
    obtain ⟨hframe, hrest⟩ := List.forall_mem_cons.1 h
    have hpushed := @ih (s.push frame.name frame.value) hrest
    rw [resolve_push hframe] at hpushed
    refine hpushed.trans ?_
    cases s.resolve path with
    | ok value => rfl
    | error e => exact congrArg Except.error (e.amid_amid _ _)

/-- Scopes that do not decide a path make no difference to its outcome. -/
theorem outcome_pushAll {frames : List Scope} (h : ∀ frame ∈ frames, ¬ frame.Decides path) :
    (s.pushAll frames).outcome path = s.outcome path := by
  unfold outcome
  rw [resolve_pushAll h]
  cases s.resolve path with
  | ok value => rfl
  | error e => exact congrArg Except.error (e.amid_amid _ _)

/-- As many pops as pushes lead back to the stack. -/
theorem popMany?_pushAll (s : Stack) (frames : List Scope) :
    (s.pushAll frames).popMany? frames.length = some s := by
  induction frames using List.reverseRecOn with
  | nil => rfl
  | append_singleton frames frame ih =>
    have hpop : (s.pushAll (frames ++ [frame])).pop? = some (s.pushAll frames) := by
      rw [pushAll, List.foldl_append]
      rfl
    rw [List.length_append, List.length_singleton, popMany?, hpop]
    exact ih

/-- Scoped resolution. A dotted path has a value exactly where the innermost scope of its name has
that value under the path's name, whatever scopes of the same name are further out; a bare path has
the value of the innermost scope that has any under its name. Otherwise the error carries the path
and its scope, which is empty for a bare path. So any number of scopes of other names may be pushed
without effect on the outcome of a dotted path, and any number of scopes without the property
without effect on that of a bare one; and popping what was pushed leads back to the stack, and so to
every outcome that it had. -/
theorem resolve_scoped (s : Stack) (name : String) :
    (∀ scopeName,
      (∀ value, s.resolve ⟨name, some scopeName⟩ = .ok value ↔
        ∃ scope, s.Innermost (·.name = scopeName) scope ∧ scope.value.Exposes name value) ∧
      ((∀ scope value, s.Innermost (·.name = scopeName) scope → ¬ scope.value.Exposes name value) →
        ∃ e, s.resolve ⟨name, some scopeName⟩ = .error e ∧
          e.path.text = Path.text ⟨name, some scopeName⟩ ∧ e.scope = scopeName) ∧
      ∀ frames : List Scope, (∀ frame ∈ frames, frame.name ≠ scopeName) →
        (s.pushAll frames).outcome ⟨name, some scopeName⟩ = s.outcome ⟨name, some scopeName⟩) ∧
    ((∀ value, s.resolve ⟨name, none⟩ = .ok value ↔
        ∃ scope, s.Innermost (fun scope ↦ ∃ value, scope.value.Exposes name value) scope ∧
          scope.value.Exposes name value) ∧
      ((∀ scope ∈ s.scopes, ∀ value, ¬ scope.value.Exposes name value) →
        ∃ e, s.resolve ⟨name, none⟩ = .error e ∧ e.path.text = name ∧ e.scope = "") ∧
      ∀ frames : List Scope, (∀ frame ∈ frames, ∀ value, ¬ frame.value.Exposes name value) →
        (s.pushAll frames).outcome ⟨name, none⟩ = s.outcome ⟨name, none⟩) ∧
    ∀ frames : List Scope, (s.pushAll frames).popMany? frames.length = some s := by
  refine ⟨fun scopeName ↦ ⟨fun value ↦ resolve_eq_ok_iff, fun hnone ↦ ?_, fun frames h ↦ ?_⟩,
    ⟨fun value ↦ resolve_eq_ok_iff, fun hnone ↦ ?_, fun frames h ↦ ?_⟩, s.popMany?_pushAll⟩
  · obtain ⟨e, he, hpath, hscope⟩ := @exists_error_of_not_ok s ⟨name, some scopeName⟩
      fun value hvalue ↦ by
        obtain ⟨scope, hinnermost, hexposes⟩ := resolve_eq_ok_iff.1 hvalue
        exact hnone scope value hinnermost hexposes
    exact ⟨e, he, by rw [hpath], hscope⟩
  · exact outcome_pushAll h
  · obtain ⟨e, he, hpath, hscope⟩ := @exists_error_of_not_ok s ⟨name, none⟩
      fun value hvalue ↦ by
        obtain ⟨scope, ⟨inner, outer, hscopes, -⟩, hexposes⟩ := resolve_eq_ok_iff.1 hvalue
        exact hnone scope (by rw [hscopes]; simp) value hexposes
    exact ⟨e, he, by rw [hpath]; rfl, hscope⟩
  · exact outcome_pushAll fun frame hframe ⟨value, hvalue⟩ ↦ h frame hframe value hvalue

/-- Around an item without a name lies an item with one: the dotted path stops at the inner item,
and the bare path passes it by. -/
example :
    let s := ((root .null).push "item" (.object [("name", .string "A")])).push "item"
      (.object [("name", .null)])
    s.resolve ⟨"name", some "item"⟩ =
        .error ⟨⟨"name", some "item"⟩, .missingProperty "item" "name"⟩ ∧
      s.resolve ⟨"name", none⟩ = .ok (.string "A") :=
  ⟨rfl, rfl⟩

end Stack

end MarkupBinding
