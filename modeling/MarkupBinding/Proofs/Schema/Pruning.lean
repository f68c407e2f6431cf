import MarkupBinding.Proofs.Schema.Contract
import MarkupBinding.Proofs.Schema.Keys

/-!
# Schemas without empty components

Pruning a schema drops the components that take nothing. Data that conforms to what is left need not
have anything for a component that is dropped, and extraction opens a scope for it all the same. So
the scopes of binding stand for those of extraction only as far as components are kept
(`MirrorsKept`): for a dropped one binding may open a scope with any value, or none.

That is enough for all that templates read. What is declared in a scope keeps its component
(`isEmpty_prune_of_takes`, `isEmpty_prune_of_lookup`), so declared paths resolve, kept components
open their scope, and kept lists have conforming items (`tracks_mirrorsKept`). What is left is a
collection whose list is dropped, because its items take nothing: its path is resolved all the same,
and it is the only thing at which binding can stop (`resolution_of_conforms_pruned`).
-/

set_option autoImplicit false
set_option relaxedAutoImplicit false

namespace MarkupBinding

namespace Component

variable {c inner : Component} {name : String} {address : Address}

/-- Pruning keeps the properties. -/
theorem takes_prune_iff : c.prune.Takes name ↔ c.Takes name := by
  obtain ⟨properties, components, array, itemName⟩ := c
  rw [prune]
  exact Iff.rfl

/-- What takes a property is not empty. -/
theorem isEmpty_prune_of_takes (h : c.Takes name) : c.prune.isEmpty = false := by
  rw [← takes_prune_iff, Takes, Keyed.has_eq_true_iff] at h
  rw [isEmpty, Bool.and_eq_false_iff, List.isEmpty_eq_false_iff]
  refine Or.inl fun hnil ↦ ?_
  rw [hnil] at h
  exact absurd h List.not_mem_nil

theorem lookup_pruneAll {components : List (String × Component)}
    (h : components.lookup name = some inner) (hkept : inner.prune.isEmpty = false) :
    (pruneAll components).lookup name = some inner.prune := by
  induction components with
  | nil => cases h
  | cons first rest ih =>
    obtain ⟨key, c⟩ := first
    rw [pruneAll]
    rw [List.lookup_cons] at h
    split at h
    · next heq =>
      obtain rfl := Option.some.inj h
      rw [hkept, if_neg Bool.false_ne_true, List.lookup_cons, heq]
    · next hne =>
      split
      · exact ih h
      · rw [List.lookup_cons, hne, ih h]

/-- A nested component that is not dropped is there, pruned itself. -/
theorem lookup_components_prune (h : c.components.lookup name = some inner)
    (hkept : inner.prune.isEmpty = false) : c.prune.components.lookup name = some inner.prune := by
  obtain ⟨properties, components, array, itemName⟩ := c
  rw [prune]
  exact lookup_pruneAll h hkept

/-- What has a nested component that is not dropped is not empty. -/
theorem isEmpty_prune_of_lookup (h : c.components.lookup name = some inner)
    (hkept : inner.prune.isEmpty = false) : c.prune.isEmpty = false := by
  have hlookup := lookup_components_prune h hkept
  rw [isEmpty, Bool.and_eq_false_iff, List.isEmpty_eq_false_iff (l := c.prune.components)]
  refine Or.inr fun hnil ↦ ?_
  rw [hnil] at hlookup
  cases hlookup

/-- Pruning drops what is at the address. -/
def Loses (c : Component) (address : Address) : Prop :=
  ∃ inner, c.at? address = some inner ∧ inner.prune.isEmpty = true

/-- What is at an address is kept or lost. -/
theorem kept_or_loses (h : c.at? address = some inner) :
    inner.prune.isEmpty = false ∨ c.Loses address := by
  cases hempty : inner.prune.isEmpty with
  | true => exact Or.inr ⟨inner, h, hempty⟩
  | false => exact Or.inl rfl

theorem not_loses (h : c.at? address = some inner) (hkept : inner.prune.isEmpty = false) :
    ¬ c.Loses address := by
  rintro ⟨other, hother, hempty⟩
  obtain rfl := Option.some.inj (h.symm.trans hother)
  rw [hkept] at hempty
  cases hempty

/-- What is at an address one name longer is a nested component of something at the address. -/
theorem exists_lookup_of_at?_append (h : c.at? (address ++ [name]) = some inner) :
    ∃ parent, c.at? address = some parent ∧ parent.components.lookup name = some inner := by
  cases hparent : c.at? address with
  | none =>
    rw [at?_append, hparent] at h
    cases h
  | some parent => exact ⟨parent, rfl, lookup_of_at?_append hparent h⟩

end Component

namespace Binding

open Extraction

/-- The scopes of binding are those of extraction with values that conform to their pruned
components; a scope whose component is lost has any value, or is not there. -/
inductive MirrorsKept (root : Component) : List Scope → List Ancestor → Prop
  | nil : MirrorsKept root [] []
  | kept {scope : Scope} {a : Ancestor} {c : Component} {scopes : List Scope}
      {list : List Ancestor} (hname : scope.name = a.name) (hc : root.at? a.address = some c)
      (hvalue : c.prune.conforms scope.value = true) (h : MirrorsKept root scopes list) :
      MirrorsKept root (scope :: scopes) (a :: list)
  | opened {scope : Scope} {a : Ancestor} {scopes : List Scope} {list : List Ancestor}
      (hname : scope.name = a.name) (hlost : root.Loses a.address)
      (h : MirrorsKept root scopes list) : MirrorsKept root (scope :: scopes) (a :: list)
  | skipped {a : Ancestor} {scopes : List Scope} {list : List Ancestor}
      (hlost : root.Loses a.address) (h : MirrorsKept root scopes list) :
      MirrorsKept root scopes (a :: list)

namespace MirrorsKept

variable {root c : Component} {scopes : List Scope} {list : List Ancestor} {a : Ancestor}
  {name : String}

/-- A scope of extraction whose component is kept is found under its name. -/
theorem exists_find? (h : MirrorsKept root scopes list)
    (hnamed : (list.find? fun a ↦ a.name == name) = some a) (hc : root.at? a.address = some c)
    (hkept : c.prune.isEmpty = false) :
    ∃ scope, (scopes.find? fun scope ↦ scope.name == name) = some scope ∧
      c.prune.conforms scope.value = true := by
  have hnot := Component.not_loses hc hkept
  induction h with
  | nil => cases hnamed
  | @kept scope other _ _ _ hname hother hvalue _ ih =>
    rw [List.find?_cons] at hnamed ⊢
    rw [hname]
    split at hnamed
    · obtain rfl := Option.some.inj hnamed
      obtain rfl := Option.some.inj (hc.symm.trans hother)
      exact ⟨scope, rfl, hvalue⟩
    · exact ih hnamed
  | opened hname hlost _ ih =>
    rw [List.find?_cons] at hnamed ⊢
    rw [hname]
    split at hnamed
    · obtain rfl := Option.some.inj hnamed
      exact absurd hlost hnot
    · exact ih hnamed
  | skipped hlost _ ih =>
    rw [List.find?_cons] at hnamed
    split at hnamed
    · obtain rfl := Option.some.inj hnamed
      exact absurd hlost hnot
    · exact ih hnamed

/-- A scope of extraction whose component is kept has its scope in binding. -/
theorem exists_mem (h : MirrorsKept root scopes list) (ha : a ∈ list)
    (hc : root.at? a.address = some c) (hkept : c.prune.isEmpty = false) :
    ∃ scope ∈ scopes, c.prune.conforms scope.value = true := by
  have hnot := Component.not_loses hc hkept
  induction h with
  | nil => cases ha
  | @kept scope _ _ _ _ hname hother hvalue _ ih =>
    rcases List.mem_cons.1 ha with rfl | hin
    · obtain rfl := Option.some.inj (hc.symm.trans hother)
      exact ⟨scope, List.mem_cons_self, hvalue⟩
    · obtain ⟨found, hfound, hconforms⟩ := ih hin
      exact ⟨found, List.mem_cons_of_mem _ hfound, hconforms⟩
  | opened _ hlost _ ih =>
    rcases List.mem_cons.1 ha with rfl | hin
    · exact absurd hlost hnot
    · obtain ⟨found, hfound, hconforms⟩ := ih hin
      exact ⟨found, List.mem_cons_of_mem _ hfound, hconforms⟩
  | skipped hlost _ ih =>
    rcases List.mem_cons.1 ha with rfl | hin
    · exact absurd hlost hnot
    · exact ih hin

variable {stack : Stack} {ancestors : Ancestors} {path : Path}

/-- The innermost scope is the one of extraction, if its component is kept. -/
theorem conforms_top (h : MirrorsKept root stack.scopes ancestors.list)
    (hc : root.at? ancestors.top.address = some c) (hkept : c.prune.isEmpty = false) :
    c.prune.conforms stack.top.value = true := by
  have hnot := Component.not_loses hc hkept
  cases h with
  | kept _ hother hvalue _ =>
    obtain rfl := Option.some.inj (hc.symm.trans hother)
    exact hvalue
  | opened _ hlost _ => exact absurd hlost hnot
  | skipped hlost _ => exact absurd hlost hnot

/-- A path that the schema declares resolves: what takes a property is kept. -/
theorem resolves (h : MirrorsKept root stack.scopes ancestors.list)
    (hpath : Declares root ancestors path) : stack.Resolves path := by
  obtain ⟨a, ha, hnamed, c, hc, htakes⟩ := hpath
  have hkept := Component.isEmpty_prune_of_takes htakes
  have hproperty : ∀ {value : Value}, c.prune.conforms value = true →
      ∃ found, value.property? path.name = some found := fun hvalue ↦
    Component.exists_property_of_conforms hvalue (Component.takes_prune_iff.2 htakes)
  cases hscope : path.scope with
  | some name =>
    obtain ⟨scope, hlookup, hvalue⟩ := h.exists_find? (hnamed name hscope) hc hkept
    obtain ⟨found, hfound⟩ := hproperty hvalue
    exact ⟨found, by simp only [Stack.resolve, hscope, Stack.lookup, hlookup, hfound]⟩
  | none =>
    obtain ⟨scope, hscopeMem, hvalue⟩ := h.exists_mem ha hc hkept
    obtain ⟨found, hfound⟩ := hproperty hvalue
    have hsome : (stack.findProperty path.name).isSome = true := by
      rw [Stack.findProperty, List.findSome?_isSome_iff]
      exact ⟨scope, hscopeMem, by rw [hfound]; rfl⟩
    obtain ⟨⟨_, value⟩, hfind⟩ := Option.isSome_iff_exists.1 hsome
    exact ⟨value, by simp only [Stack.resolve, hscope, hfind]⟩

/-- A nested component opens its scope if it is kept, and may open one if it is lost. -/
theorem enter (h : MirrorsKept root stack.scopes ancestors.list) {tag : Tag}
    (hmark : tag.mark? Mark.component = some name)
    (hnested : root.at? (ancestors.top.address ++ [name]) = some c) (hsingle : c.array = false)
    (hroot : name ≠ rootScope) :
    MirrorsKept root (Binding.enter stack tag).scopes
      (ancestors.push name (ancestors.top.address ++ [name])).list := by
  have henter : Binding.enter stack tag =
      (stack.findProperty name).elim stack fun found ↦ stack.push name found.2 := by
    rw [Binding.enter, hmark]
    refine (if_neg (by rw [beq_false_of_ne hroot, Bool.false_and]; exact Bool.false_ne_true)).trans
      ?_
    cases stack.findProperty name <;> rfl
  rw [henter]
  rcases Component.kept_or_loses hnested with hkept | hlost
  · obtain ⟨parent, hparent, hlookup⟩ := Component.exists_lookup_of_at?_append hnested
    have htop := h.conforms_top hparent (Component.isEmpty_prune_of_lookup hlookup hkept)
    obtain ⟨value, hvalue, hobject, -⟩ := Component.exists_component_of_conforms htop
      (Component.lookup_components_prune hlookup hkept)
    have hfind : stack.findProperty name = some (stack.top, value) := by
      rw [Stack.findProperty, Stack.scopes, List.findSome?_cons, hvalue]
      rfl
    rw [hfind]
    exact .kept rfl hnested (hobject ((Component.array_prune c).trans hsingle)) h
  · cases stack.findProperty name with
    | none => exact .skipped hlost h
    | some found => exact .opened rfl hlost h

/-- A collection whose list is kept has a list of items that conform to it. -/
theorem exists_items_or_loses (h : MirrorsKept root stack.scopes ancestors.list) {raw : String}
    {address : Address} (hlist : DeclaresList root ancestors raw address) :
    (∃ path items c, Path.ofBinding raw = .ok path ∧ stack.resolve path = .ok (.list items) ∧
      root.at? address = some c ∧ ∀ item ∈ items, c.prune.conforms item = true) ∨
      root.Loses address := by
  obtain ⟨path, scopeName, a, c, hpath, hname, hnamed, rfl, hc, harray⟩ := hlist
  refine (Component.kept_or_loses hc).imp_left fun hkept ↦ ?_
  obtain ⟨parent, hparent, hlookup⟩ := Component.exists_lookup_of_at?_append hc
  obtain ⟨scope, hscope, hvalue⟩ := h.exists_find? hnamed hparent
    (Component.isEmpty_prune_of_lookup hlookup hkept)
  obtain ⟨value, hproperty, -, hvalues⟩ := Component.exists_component_of_conforms hvalue
    (Component.lookup_components_prune hlookup hkept)
  obtain ⟨items, rfl, hconforms⟩ := hvalues ((Component.array_prune c).trans harray)
  have hresolve : stack.resolve path = .ok (.list items) := by
    simp only [Stack.resolve, hname, Stack.lookup, hscope, hproperty]
  exact ⟨path, items, c, hpath, hresolve, hc, hconforms⟩

/-- An item of a collection opens its scope: it conforms to the list, if that is kept. -/
theorem item (h : MirrorsKept root stack.scopes ancestors.list) {raw : String} {address : Address}
    (hlist : DeclaresList root ancestors raw address) {items : List Value} {item : Value}
    (hitems : (itemsFor stack raw).value = some items) (hitem : item ∈ items) (name : String) :
    MirrorsKept root (stack.push name item).scopes (ancestors.push name address).list := by
  rcases h.exists_items_or_loses hlist with ⟨path, found, c, hpath, hvalue, hc, hconforms⟩ | hlost
  · obtain rfl := Option.some.inj ((itemsFor_of_list hpath hvalue).2.symm.trans hitems)
    exact .kept rfl hc (hconforms item hitem) h
  · exact .opened rfl hlost h

/-- A collection that stops the walk at its path has a list that is lost. -/
theorem loses_of_fault (h : MirrorsKept root stack.scopes ancestors.list) {raw : String}
    {address : Address} (hlist : DeclaresList root ancestors raw address) {e : ResolutionError}
    (hfault : (itemsFor stack raw).fault = some (.resolution e)) :
    Path.ofBinding raw = .ok e.path ∧ ¬ stack.Resolves e.path ∧ root.Loses address := by
  have hlost : root.Loses address := by
    rcases h.exists_items_or_loses hlist with ⟨path, items, c, hpath, hvalue, -, -⟩ | hlost
    · rw [(itemsFor_of_list hpath hvalue).1] at hfault
      cases hfault
    · exact hlost
  rcases fault_itemsFor_eq_some hfault with ⟨error, -, hbad⟩ | ⟨path, hpath, hstop⟩
  · cases hbad
  · obtain ⟨-, error, herror, heq⟩ := fault_resolve_eq_some hstop
    obtain rfl := BindError.resolution.inj heq
    obtain rfl := Stack.path_of_resolve herror
    refine ⟨hpath, ?_, hlost⟩
    rintro ⟨value, hvalue⟩
    rw [hvalue] at herror
    cases herror

end MirrorsKept

/-- Scopes of data for a pruned schema are kept by opening scopes, and all paths that the schema
declared before it was pruned resolve under them. -/
theorem tracks_mirrorsKept (root : Component) :
    Tracks root [] fun stack ancestors ↦ MirrorsKept root stack.scopes ancestors.list where
  resolves h hdeclares := h.resolves hdeclares
  enter h hmark hnested hsingle hroot := h.enter hmark hnested hsingle (hroot rfl)
  item h hlist hitems hitem name := h.item hlist hitems hitem name

end Binding

/-! ### Whole documents -/

open Binding Extraction in
/-- The error is about the path of a collection that was visited, which has no value there, and the
list of the collection is lost when the schema is pruned. -/
def Document.MissesLostList (d : Document) (input : Value) (root : Component)
    (e : ResolutionError) : Prop :=
  ∃ t cs stack raw original ancestors address,
    Report.visited t cs stack ∈ (d.bind input).reports ∧ t.mark? Mark.collection = some raw ∧
      Path.ofBinding raw = .ok e.path ∧ ¬ stack.Resolves e.path ∧ d.Sees original ancestors ∧
      (t = original ∨ t = original.erase Mark.collectionItem) ∧
      DeclaresList root ancestors raw address ∧ root.Loses address

namespace Binding

open Extraction

variable {schema pruned : Schema} {d : Document} {tag : Tag} {children : List Node} {input : Value}

/-- The schema without empty components has the outermost component pruned. -/
theorem root_of_extract_false (h : schema.Describes d tag children)
    (hpruned : (d.extract false).result = .ok (some pruned)) : pruned.root = schema.root.prune := by
  have hfull := h.extracted.2
  rw [h.extract_eq, Walk.value_map] at hfull
  have hvalue : (d.extract false).value = some pruned := by
    rw [Walk.result] at hpruned
    split at hpruned
    · cases hpruned
    · exact Except.ok.inj hpruned
  rw [h.extract_eq, Walk.value_map] at hvalue
  rw [← Option.some.inj hfull, ← Option.some.inj hvalue]
  rfl

/-- A collection at which a visit under scopes of data for a pruned schema stops is one of a list
that is lost. -/
theorem exists_lostList {stack : Stack} {hold : Option Place} {t : Tag} {cs : List Node}
    {root : Component} {ancestors : Ancestors} (hpaths : PathsResolve stack t)
    (hkeeps : t.KeepsMarks) (hrel : MirrorsKept root stack.scopes ancestors.list)
    (hlist : ∀ raw, t.mark? Mark.collection = some raw →
      ∃ address, DeclaresList root ancestors raw address) {e : ResolutionError}
    (hfails : Visit.Fails ⟨stack, hold, .element t cs⟩ (.resolution e)) :
    ∃ raw address, t.mark? Mark.collection = some raw ∧ Path.ofBinding raw = .ok e.path ∧
      ¬ stack.Resolves e.path ∧ DeclaresList root ancestors raw address ∧ root.Loses address := by
  obtain ⟨raw, hcollection, hfault⟩ := hpaths.exists_items_of_fails hfails
  rw [mark?_bindAttributes_of_keepsMarks hkeeps (by decide)] at hcollection
  obtain ⟨address, hdeclares⟩ := hlist raw hcollection
  obtain ⟨hpath, hmissing, hlost⟩ := hrel.loses_of_fault hdeclares hfault
  exact ⟨raw, address, hcollection, hpath, hmissing, hdeclares, hlost⟩

/-- Data that conforms to the pruned schema of a document whose outermost component is called like
the root scope: a path stops the walk only if it is that of a collection whose list is dropped, and
none does so if no list is dropped. -/
theorem resolution_of_conforms_pruned (h : schema.Describes d tag children)
    (hname : schema.name = rootScope)
    (honly : ∀ t ∈ Node.tagsAll children, t.mark? Mark.component ≠ some rootScope)
    (hpruned : (d.extract false).result = .ok (some pruned))
    (hinput : pruned.root.conforms input = true) :
    (∀ e, (d.bind input).fault = some (.resolution e) → d.MissesLostList input schema.root e) ∧
      ((∀ c ∈ schema.root.nodes, c.array = true → c.prune.isEmpty = false) →
        ∀ e, (d.bind input).fault ≠ some (.resolution e)) := by
  have htracks := tracks_mirrorsKept schema.root
  have hmirrors : MirrorsKept schema.root (Stack.root input).scopes
      (⟨⟨schema.name, []⟩, []⟩ : Ancestors).list := by
    rw [root_of_extract_false h hpruned] at hinput
    exact .kept hname.symm rfl hinput .nil
  -- the outermost component does not open its scope a second time
  have henter : enter (.root input) tag = .root input := by
    rw [enter, h.mark?_component, hname]
    rfl
  have hsuitable : Suitable (Node.filterOffAll input.switchesOff children).1 [] :=
    h.suitable input.switchesOff fun _ ↦ honly
  have hfirst : ∀ u, Visit.LeadsTo ⟨.root input, none,
      .element tag (Node.filterOffAll input.switchesOff children).1⟩ u →
      Follows (fun stack ancestors ↦ MirrorsKept schema.root stack.scopes ancestors.list) d.Sees
        schema.root u ∧ u.From (Node.filterOffAll input.switchesOff children).1 := by
    intro u hu
    exact h.follows_of_leadsTo htracks input.switchesOff (henter.symm ▸ hmirrors)
      (fun _ _ _ _ ↦ hmirrors) hu
  have hstops : ∀ e, (d.bind input).fault = some (.resolution e) →
      d.MissesLostList input schema.root e := by
    intro e hfault
    obtain ⟨stack, hold, t, cs, -, -, hvisited, hfails⟩ :=
      Document.exists_fails_of_fault_bind hfault
    rcases Document.visited_of_confinedTo (h.confinedTo_filterOff input) hvisited with
      ⟨hplain, -⟩ | hmem
    · have hkeeps : t.KeepsMarks := by
        rw [Tag.KeepsMarks, (Tag.marks_of_not_isAnnotated hplain).2.2.1]
        exact fun _ hbinding ↦ absurd hbinding List.not_mem_nil
      exact absurd hfails ((fulfilled_of_not_isAnnotated hplain).not_fails hkeeps e)
    · obtain ⟨_, hheld, hv⟩ := Visit.leadsTo_of_visited hmem
      rcases htracks.follows_of_reflTransGen hfirst hsuitable hv with heq | ⟨hfollows, hfrom⟩
      · obtain ⟨rfl, -, hnode⟩ := Visit.mk.inj heq
        obtain ⟨rfl, -⟩ := Node.element.inj hnode
        have hpaths : PathsResolve (.root input) t :=
          htracks.pathsResolve hmirrors h.covers.declared (Or.inl rfl)
        obtain ⟨raw, address, hmark, hpath, hmissing, hdeclares, hlost⟩ := exists_lostList hpaths
          h.keepsMarks hmirrors
          (fun raw hmark ↦ (h.covers.collection raw hmark).imp fun _ hlist ↦ hlist.1) hfails
        exact ⟨t, _, _, raw, t, _, address, hvisited, hmark, hpath, hmissing,
          h.covers.declared.seen, Or.inl rfl, hdeclares, hlost⟩
      · obtain ⟨hpaths, ancestors, original, hrel, hsame, hseen, hlist⟩ :=
          hfollows.bindings htracks hfrom.hold hheld
        obtain ⟨raw, address, hmark, hpath, hmissing, hdeclares, hlost⟩ := exists_lostList hpaths
          (hfrom.keepsMarks hsuitable.marks) hrel hlist hfails
        exact ⟨t, cs, stack, raw, original, ancestors, address, hvisited, hmark, hpath, hmissing,
          hseen, hsame, hdeclares, hlost⟩
  refine ⟨hstops, fun hkept e hfault ↦ ?_⟩
  obtain ⟨_, _, _, _, _, _, address, -, -, -, -, -, -, hdeclares, hlost⟩ := hstops e hfault
  obtain ⟨_, _, _, c, -, -, -, -, hc, harray⟩ := hdeclares
  exact Component.not_loses hc (hkept c (Component.mem_nodes_of_at? hc) harray) hlost

/-- A page with a title, a component that takes nothing, and a list of posts. -/
def adornedParts : List Node :=
  [.element ⟨"h1", [(Mark.textContent, .plain "title")]⟩ [],
    .element ⟨"aside", [(Mark.component, .plain "badge")]⟩ [.text .characters "New"],
    .element ⟨"ul", [(Mark.collection, .plain "root.posts")]⟩
      [.element ⟨"li", [(Mark.collectionItem, .plain "post"),
        (Mark.textContent, .plain "post.title")]⟩ []]]

/-- The page as a document. -/
def adornedPage : Document :=
  [.element ⟨"main", [(Mark.component, .plain "root")]⟩ adornedParts]

/-- The schema of the page. -/
def adornedSchema : Schema :=
  ⟨"root", ⟨[("title", textType)], [("badge", ⟨[], [], false, none⟩),
    ("posts", ⟨[("title", textType)], [], true, some "post"⟩)], false, none⟩, []⟩

theorem adornedSchema_describes : adornedSchema.Describes adornedPage
    ⟨"main", [(Mark.component, .plain "root")]⟩ adornedParts where
  outermost := by rfl
  extracted := ⟨by decide +kernel, by rfl⟩
  complete := by decide +kernel
  confined := fun n hn ↦ by
    obtain rfl := List.mem_singleton.1 hn
    exact .self
  regular := by decide +kernel
  marks := by decide +kernel

/-- The data has nothing for the component that is dropped, and the page is bound to its end. -/
theorem resolution_of_conforms_pruned_adornedPage :
    let pruned : Schema := ⟨"root", adornedSchema.root.prune, []⟩
    let input := Value.object [("title", .string "Log"),
      ("posts", .list [.object [("title", .string "One")]])]
    adornedSchema.Describes adornedPage ⟨"main", [(Mark.component, .plain "root")]⟩ adornedParts ∧
      (adornedPage.extract false).result = .ok (some pruned) ∧
      adornedSchema.root.conforms input = false ∧ pruned.root.conforms input = true ∧
      ∀ e, (adornedPage.bind input).fault ≠ some (.resolution e) := by
  intro pruned input
  have hpruned : (adornedPage.extract false).result = .ok (some pruned) := by rfl
  have hinput : pruned.root.conforms input = true := by decide +kernel
  refine ⟨adornedSchema_describes, hpruned, by decide +kernel, hinput, ?_⟩
  obtain ⟨-, hnever⟩ := resolution_of_conforms_pruned adornedSchema_describes (by decide)
    (by decide +kernel) hpruned hinput
  exact hnever (by decide +kernel)

/-- The element of a list whose item takes nothing. -/
def bulletParts : List Node :=
  [.element ⟨"ul", [(Mark.collection, .plain "root.items")]⟩
    [.element ⟨"li", [(Mark.collectionItem, .plain "item")]⟩ [.text .characters "static"]]]

/-- A page with this list only. -/
def bulletPage : Document :=
  [.element ⟨"main", [(Mark.component, .plain "root")]⟩ bulletParts]

/-- The schema of the page before it is pruned. -/
def bulletSchema : Schema :=
  ⟨"root", ⟨[], [("items", ⟨[], [], true, some "item"⟩)], false, none⟩, []⟩

/-- Nothing is left of the schema of the page, so that the empty object conforms to it, yet binding
asks for the list. -/
theorem bulletPage_not_bound :
    ¬ ∀ (schema pruned : Schema) (d : Document) (tag : Tag) (children : List Node) (input : Value),
      schema.Describes d tag children → schema.name = rootScope →
        (∀ t ∈ Node.tagsAll children, t.mark? Mark.component ≠ some rootScope) →
          (d.extract false).result = .ok (some pruned) → pruned.root.conforms input = true →
            ∀ e, (d.bind input).fault ≠ some (.resolution e) := by
  intro hclaim
  have hdescribes : bulletSchema.Describes bulletPage ⟨"main", [(Mark.component, .plain "root")]⟩
      bulletParts :=
    { outermost := by rfl
      extracted := ⟨by decide +kernel, by rfl⟩
      complete := by decide +kernel
      confined := fun n hn ↦ by
        obtain rfl := List.mem_singleton.1 hn
        exact .self
      regular := by decide +kernel
      marks := by decide +kernel }
  refine hclaim bulletSchema ⟨"root", .empty false none, []⟩ bulletPage
    ⟨"main", [(Mark.component, .plain "root")]⟩ bulletParts (.object []) hdescribes (by decide)
    (by decide +kernel) (by rfl) (by decide +kernel)
    ⟨⟨"items", some "root"⟩, .missingProperty "root" "items"⟩ ?_
  decide +kernel

end Binding

end MarkupBinding
