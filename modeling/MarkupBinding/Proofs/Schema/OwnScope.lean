import MarkupBinding.Proofs.Schema.Outermost
import Mathlib.Tactic.ByContra

/-!
# Outermost components that read their own scope

Extraction has the scope of the outermost component when it reads the bindings of the component's
own element; binding has it for the children only, unless it is the root scope. So a page whose
outermost component is called differently can ask for data that conforms to its schema and still not
be bound: its own element names a scope that is not there yet (`ReadsOwnScope`). This is the only
way in which conforming data can fail on such a page (`exists_resolution_iff_readsOwnScope`).
-/

set_option autoImplicit false
set_option relaxedAutoImplicit false

namespace MarkupBinding.Binding

open Extraction

/-- The bindings of an element itself are stuck under the root scope: its text has a dotted path; or
a placeholder of an attribute has one, and all in front of it have a value; or it is a collection
whose children its text has not replaced. -/
inductive ReadsOwnScope (input : Value) (tag : Tag) (children : List Node) : Prop
  | text {raw : String} {path : Path} (hmark : tag.mark? Mark.textContent = some raw)
      (hpath : Path.ofBinding raw = .ok path) (hdotted : path.isDotted = true)
  | placeholder {target raw : String} {segments : TemplateText}
      (hbinding : (target, raw) ∈ tag.attributeBindings)
      (hparse : TemplateText.parse raw = .ok segments)
      (hstuck : Unfillable (.root input) segments)
  | collection {raw : String} {stencil : Stencil} (hmark : tag.mark? Mark.collection = some raw)
      (htext : (boundText (.root input) tag).value = none)
      (hstencil : Stencil.of tag children = .ok stencil)

section Declared

variable {seen : Tag → Ancestors → Prop} {root : Component} {ancestors : Ancestors} {stack : Stack}
  {tag : Tag} {e : BindError}

/-- A declared text binding stops the walk at its path only. -/
theorem resolution_of_fault_boundText (h : Declared seen root ancestors tag)
    (hfault : (boundText stack tag).fault = some e) :
    ∃ raw path error, tag.mark? Mark.textContent = some raw ∧ Path.ofBinding raw = .ok path ∧
      path.isDotted = true ∧ e = .resolution error := by
  obtain ⟨raw, hmark, ⟨error, hbad, -⟩ | ⟨path, hpath, hstop⟩⟩ := fault_boundText_eq_some hfault
  · obtain ⟨path, hpath, -⟩ := h.text raw hmark
    rw [hpath] at hbad
    cases hbad
  · obtain ⟨hdotted, error, -, rfl⟩ := fault_resolve_eq_some hstop
    exact ⟨raw, path, error, hmark, hpath, hdotted, rfl⟩

/-- Declared attribute bindings stop the walk at a placeholder only. -/
theorem resolution_of_fault_bindAttributes (h : Declared seen root ancestors tag)
    (hfault : (bindAttributes stack tag).fault = some e) :
    ∃ target raw segments error, (target, raw) ∈ tag.attributeBindings ∧
      TemplateText.parse raw = .ok segments ∧ Unfillable stack segments ∧
      e = .resolution error := by
  rw [fault_bindAttributes] at hfault
  obtain ⟨⟨target, raw⟩, hbinding, hstop⟩ := List.exists_of_findSome?_eq_some hfault
  obtain ⟨segments, hparse, -⟩ := h.attributes _ hbinding
  simp only [bindAttribute, hparse, Walk.fault_map] at hstop
  have hstuck : Unfillable stack segments := by
    by_contra hfine
    rw [fault_fillSegments_eq_none_iff.2 hfine] at hstop
    cases hstop
  obtain ⟨path, -, hresolve⟩ := fault_fillSegments_eq_some hstop
  obtain ⟨-, error, -, rfl⟩ := fault_resolve_eq_some hresolve
  exact ⟨target, raw, segments, error, hbinding, hparse, hstuck, rfl⟩

/-- An attribute binding that is stuck stops the walk. -/
theorem fault_bindAttributes_of_unfillable {target raw : String} {segments : TemplateText}
    (hbinding : (target, raw) ∈ tag.attributeBindings)
    (hparse : TemplateText.parse raw = .ok segments) (hstuck : Unfillable stack segments) :
    (bindAttributes stack tag).fault ≠ none := by
  intro hfault
  rw [fault_bindAttributes, List.findSome?_eq_none_iff] at hfault
  have hnone := hfault _ hbinding
  simp only [bindAttribute, hparse, Walk.fault_map] at hnone
  exact fault_fillSegments_eq_none_iff.1 hnone hstuck

/-- If the bindings of an element are declared and a path of theirs fails, the walk stops at one. -/
theorem exists_resolution_of_fails {children : List Node} {error : ResolutionError}
    (h : Declared seen root ancestors tag)
    (hfails : Visit.Fails ⟨stack, none, .element tag children⟩ (.resolution error)) :
    ∃ error, (Visit.run ⟨stack, none, .element tag children⟩).fault =
      some (.resolution error) := by
  rw [Visit.fault_run_element rfl]
  cases htext : (boundText stack tag).fault with
  | some stop =>
    obtain ⟨_, _, error, -, -, -, rfl⟩ := resolution_of_fault_boundText h htext
    exact ⟨error, rfl⟩
  | none =>
    cases hattributes : (bindAttributes stack tag).fault with
    | some stop =>
      obtain ⟨_, _, _, error, -, -, -, rfl⟩ := resolution_of_fault_bindAttributes h hattributes
      exact ⟨error, rfl⟩
    | none =>
      cases hfails with
      | text _ hfault =>
        rw [htext] at hfault
        cases hfault
      | attributes _ hfault =>
        rw [hattributes] at hfault
        cases hfault
      | items _ hkept hcollection hstencil hfault =>
        replace hstencil := Stencil.of_congr hstencil (bindAttributes stack tag).value
        rw [Visit.content_of_collection hcollection, Walk.fault_map,
          Visit.shown_of_value_eq_none hkept]
        simp only [expand, hstencil, Walk.fault_chain, hfault, Option.some_or, Option.none_or]
        exact ⟨error, rfl⟩

end Declared

section RootScope

variable {name : String} (input : Value) {root : Component} {path : Path}

/-- No other scope than the root scope is found at the outset. -/
theorem lookup_root_of_ne (h : name ≠ rootScope) : (Stack.root input).lookup name = none := by
  simp [Stack.lookup, Stack.root, Stack.scopes, h.symm]

/-- A path in a scope of another name does not resolve at the outset. -/
theorem not_resolves_of_scope_eq (hname : name ≠ rootScope) (hscope : path.scope = some name) :
    ¬ (Stack.root input).Resolves path := by
  rintro ⟨value, hvalue⟩
  simp only [Stack.resolve, hscope, lookup_root_of_ne input hname] at hvalue
  cases hvalue

/-- A single scope is the only one that can be named. -/
theorem eq_of_named_singleton {scope : String} {a : Ancestor} {address : Address}
    (h : Ancestors.named ⟨⟨name, address⟩, []⟩ scope = some a) : scope = name := by
  have hfound := List.find?_some h
  obtain rfl := List.mem_singleton.1 (List.mem_of_find?_eq_some h)
  exact (eq_of_beq hfound).symm

/-- A dotted path that is declared on the one scope of another name does not resolve at the outset.
-/
theorem not_resolves_of_declares (hname : name ≠ rootScope)
    (h : Declares root ⟨⟨name, []⟩, []⟩ path) (hdotted : path.isDotted = true) :
    ¬ (Stack.root input).Resolves path := by
  obtain ⟨scope, hscope⟩ := Option.isSome_iff_exists.1 hdotted
  obtain ⟨a, -, hnamed, -⟩ := h
  obtain rfl := eq_of_named_singleton (hnamed scope hscope)
  exact not_resolves_of_scope_eq input hname hscope

/-- A list that is declared on the one scope of another name has no items at the outset: its path
stops the walk. -/
theorem itemsFor_root_of_declaresList (hname : name ≠ rootScope) {raw : String} {address : Address}
    (h : DeclaresList root ⟨⟨name, []⟩, []⟩ raw address) :
    ∃ error, (itemsFor (.root input) raw).fault = some (.resolution error) ∧
      (itemsFor (.root input) raw).value = none := by
  obtain ⟨path, scope, a, _, hpath, hscope, hnamed, -⟩ := h
  obtain rfl := eq_of_named_singleton hnamed
  have hmissing := not_resolves_of_scope_eq input hname hscope
  rcases itemsFor_cases (.root input) raw with ⟨_, hbad, -⟩ | ⟨other, hother, hcases⟩
  · rw [hpath] at hbad
    cases hbad
  · obtain rfl := Except.ok.inj (hpath.symm.trans hother)
    rcases hcases with
      ⟨error, -, -, hfault, hvalue⟩ | ⟨_, -, hbare, -⟩ | ⟨_, hlist, -⟩ | ⟨_, hfound, -⟩
    · exact ⟨error, hfault, hvalue⟩
    · rw [Path.isDotted, hscope] at hbare
      cases hbare
    · exact absurd ⟨_, hlist⟩ hmissing
    · exact absurd ⟨_, hfound⟩ hmissing

end RootScope

variable {schema : Schema} {d : Document} {tag : Tag} {children : List Node} {input value : Value}

/-- The outermost component stops the walk at a path of its own bindings exactly where it reads its
own scope. -/
theorem fails_iff_readsOwnScope (h : schema.Describes d tag children)
    (hname : schema.name ≠ rootScope) (off : String → Bool) :
    (∃ e, Visit.Fails ⟨.root input, none, .element tag (Node.filterOffAll off children).1⟩
      (.resolution e)) ↔ ReadsOwnScope input tag (Node.filterOffAll off children).1 := by
  have hdeclared := h.covers.declared
  have hbound : (bindAttributes (.root input) tag).value.mark? Mark.collection =
      tag.mark? Mark.collection := mark?_bindAttributes_of_keepsMarks h.keepsMarks (by decide)
  constructor
  · rintro ⟨e, hfails⟩
    cases hfails with
    | text _ hfault =>
      obtain ⟨raw, path, _, hmark, hpath, hdotted, -⟩ :=
        resolution_of_fault_boundText hdeclared hfault
      exact .text hmark hpath hdotted
    | attributes _ hfault =>
      obtain ⟨target, raw, segments, _, hbinding, hparse, hstuck, -⟩ :=
        resolution_of_fault_bindAttributes hdeclared hfault
      exact .placeholder hbinding hparse hstuck
    | items _ htext hcollection hstencil _ =>
      exact .collection (hbound.symm.trans hcollection) htext hstencil
  · intro hreads
    cases hreads with
    | @text raw path hmark hpath hdotted =>
      obtain ⟨path', hpath', hdeclares⟩ := hdeclared.text raw hmark
      obtain rfl := Except.ok.inj (hpath.symm.trans hpath')
      have hmissing := not_resolves_of_declares input hname hdeclares hdotted
      cases hfault : (boundText (.root input) tag).fault with
      | none =>
        simp only [boundText, hmark, hpath, Walk.fault_map] at hfault
        exact absurd (fault_resolve_eq_none_iff.1 hfault hdotted) hmissing
      | some stop =>
        obtain ⟨_, _, error, -, -, -, rfl⟩ := resolution_of_fault_boundText hdeclared hfault
        exact ⟨error, .text rfl hfault⟩
    | placeholder hbinding hparse hstuck =>
      cases hfault : (bindAttributes (.root input) tag).fault with
      | none => exact absurd hfault (fault_bindAttributes_of_unfillable hbinding hparse hstuck)
      | some stop =>
        obtain ⟨_, _, _, error, -, -, -, rfl⟩ := resolution_of_fault_bindAttributes hdeclared hfault
        exact ⟨error, .attributes rfl hfault⟩
    | collection hmark htext hstencil =>
      obtain ⟨_, hlist, -⟩ := h.covers.collection _ hmark
      obtain ⟨error, hfault, -⟩ := itemsFor_root_of_declaresList input hname hlist
      exact ⟨error, .items rfl htext (hbound.trans hmark) hstencil hfault⟩

/-- Data that conforms to the schema of a document whose outermost component is not called like the
root scope: a path stops the walk exactly where the toggles leave the outermost component and its
own bindings read its scope. -/
theorem exists_resolution_iff_readsOwnScope (h : schema.Describes d tag children)
    (hname : schema.name ≠ rootScope) (hvalue : input.property? schema.name = some value)
    (hconforms : schema.root.conforms value = true) :
    (∃ e, (d.bind input).fault = some (.resolution e)) ↔
      (Document.outermostComponent? (d.filterToggles input).1).isSome = true ∧
        ReadsOwnScope input tag (Node.filterOffAll input.switchesOff children).1 := by
  have hdotted : ∀ raw items, tag.mark? Mark.collection = some raw →
      (itemsFor (.root input) raw).value ≠ some items := by
    intro raw items hmark hitems
    obtain ⟨_, hlist, -⟩ := h.covers.collection raw hmark
    obtain ⟨_, -, hnone⟩ := itemsFor_root_of_declaresList input hname hlist
    rw [hnone] at hitems
    cases hitems
  have hopen : Mirrors schema.root [⟨rootScope, input⟩] (enter (.root input) tag)
      ⟨⟨schema.name, []⟩, []⟩ := by
    have hfind : (Stack.root input).findProperty schema.name =
        some (⟨rootScope, input⟩, value) := by
      simp [Stack.findProperty, Stack.root, Stack.scopes, hvalue]
    have henter : enter (.root input) tag = (Stack.root input).push schema.name value := by
      simp only [enter, h.mark?_component, beq_false_of_ne hname, Bool.false_and,
        Bool.false_eq_true, if_false, hfind]
    rw [henter]
    exact ⟨[⟨schema.name, value⟩], rfl, .cons ⟨rfl, schema.root, rfl, hconforms⟩ .nil⟩
  have hsuitable : Suitable (Node.filterOffAll input.switchesOff children).1
      [⟨rootScope, input⟩] := h.suitable input.switchesOff fun hnil ↦ by cases hnil
  have hfirst : ∀ u, Visit.LeadsTo ⟨.root input, none,
      .element tag (Node.filterOffAll input.switchesOff children).1⟩ u →
      Agrees d.Sees schema.root [⟨rootScope, input⟩] u ∧
        u.From (Node.filterOffAll input.switchesOff children).1 := by
    intro u hu
    apply h.agrees_of_leadsTo input.switchesOff hopen _ hu
    intro raw items hmark hitems
    exact absurd hitems (hdotted raw items hmark)
  rw [← fails_iff_readsOwnScope h hname, h.fault_bind]
  constructor
  · rintro ⟨e, hfault⟩
    split at hfault
    · next hleft => exact ⟨hleft, e, fails_of_fault_run hfirst hsuitable hfault⟩
    · cases hfault
  · rintro ⟨hleft, e, hfails⟩
    rw [if_pos hleft]
    exact exists_resolution_of_fails h.covers.declared hfails

/-- The element of a game that shows the game's own title. -/
def gameTag : Tag :=
  ⟨"div", [(Mark.component, .plain "game"), (Mark.textContent, .plain "game.title")]⟩

/-- A page with this element only. -/
def gamePage : Document :=
  [.element gameTag [.text .characters "x"]]

/-- The schema of the page. -/
def gameSchema : Schema :=
  ⟨"game", ⟨[("title", textType)], [], false, none⟩, []⟩

theorem gameSchema_describes : gameSchema.Describes gamePage gameTag [.text .characters "x"] where
  outermost := by rfl
  extracted := ⟨by decide +kernel, by rfl⟩
  complete := by decide +kernel
  confined := fun n hn ↦ by
    obtain rfl := List.mem_singleton.1 hn
    exact .self
  regular := by decide +kernel
  marks := by decide +kernel

theorem exists_resolution_iff_readsOwnScope_gamePage :
    let game := Value.object [("title", .string "Chess")]
    let input := Value.object [("game", game)]
    gameSchema.name ≠ rootScope ∧ input.property? "game" = some game ∧
      gameSchema.root.conforms game = true ∧
      ((∃ e, (gamePage.bind input).fault = some (.resolution e)) ↔
        (Document.outermostComponent? (gamePage.filterToggles input).1).isSome = true ∧
          ReadsOwnScope input gameTag [.text .characters "x"]) := by
  intro game input
  have hname : gameSchema.name ≠ rootScope := by decide
  have hvalue : input.property? "game" = some game := by rfl
  have hconforms : gameSchema.root.conforms game = true := by decide +kernel
  exact ⟨hname, hvalue, hconforms,
    exists_resolution_iff_readsOwnScope gameSchema_describes hname hvalue hconforms⟩

/-- The data has the title that the schema asks for, yet binding stops: the scope of the game is not
there when the text of its own element is bound. -/
theorem gamePage_not_bound :
    ¬ ∀ (schema : Schema) (d : Document) (tag : Tag) (children : List Node) (input value : Value),
      schema.Describes d tag children → schema.name ≠ rootScope →
        input.property? schema.name = some value → schema.root.conforms value = true →
          ∀ e, (d.bind input).fault ≠ some (.resolution e) := by
  intro hclaim
  refine hclaim gameSchema gamePage gameTag [.text .characters "x"]
    (.object [("game", .object [("title", .string "Chess")])])
    (.object [("title", .string "Chess")]) gameSchema_describes (by decide) (by rfl)
    (by decide +kernel) ⟨⟨"title", some "game"⟩, .unknownScope "game" ["root"]⟩ ?_
  decide +kernel

end MarkupBinding.Binding
