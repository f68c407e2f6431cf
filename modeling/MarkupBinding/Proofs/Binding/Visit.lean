import MarkupBinding.Proofs.Binding.Step
import Mathlib.Logic.Relation

/-!
# Visits

A visit is a node with the scopes it is walked under and the place that is held back below it;
`Visit.run` walks it to its full depth. The bound on the depth never shows: walking a node with any
bound that is at least its height is `Visit.run` (`visit_of_height_le`), and a run of an element is
made of runs of other visits (`run_element`): what comes behind its own bindings is the walk over
its children (`content_of_plain`) or, at a collection, its expansion (`content_of_collection`).

`Visit.LeadsTo` says which visits these are: those of the children of an element, those of the nodes
around the stencil of a collection, and those of the copies of the stencil. A property of visits
that is kept along `LeadsTo` holds of every visit of a run. Three statements lift what one step does
to a whole run:

* a visit that a run reports was led to (`leadsTo_of_visited`);
* the fault of a run arises at a visit that was led to (`exists_fails_of_fault`), and
  `Visit.Fails` lists the ways in which a fault arises;
* a run that reached its end did so at every visit that it led to (`fault_eq_none_of_leadsTo`).
-/

set_option autoImplicit false
set_option relaxedAutoImplicit false

namespace MarkupBinding

namespace Binding

/-- A node to walk, with the scopes around it and the place held back at or below it. -/
structure Visit where
  stack : Stack
  hold : Option Place
  node : Node

namespace Visit

/-- The walk over a node to its full depth. -/
def run (v : Visit) : Walk Visited :=
  visit v.node.height v.stack v.hold v.node

/-! ### The bound on the depth -/

section Depth

variable {visit other : Stack → Option Place → Node → Walk Visited} {stack : Stack}
  {hold : Option Place} {tag : Tag} {children : List Node}

theorem expand_congr
    (h : ∀ s hold n, n.height ≤ Node.heightAll children → visit s hold n = other s hold n)
    (raw : String) :
    expand visit stack raw tag children = expand other stack raw tag children := by
  simp only [expand]
  split
  · rfl
  · next stencil hstencil =>
    have hcopy : ∀ s, visit s none (copyOf stencil.node) = other s none (copyOf stencil.node) :=
      fun s ↦ h s none _ (by rw [height_copyOf]; exact Stencil.height_le hstencil)
    have haround : visitChildren (visit stack) (some stencil.place) 0 children =
        visitChildren (other stack) (some stencil.place) 0 children :=
      visitChildren_congr (fun n hn hold ↦ h stack hold n (Node.height_le_heightAll hn)) 0
    simp only [haround, fill_congr hcopy]

theorem visitContent_congr
    (h : ∀ s hold n, n.height ≤ Node.heightAll children → visit s hold n = other s hold n) :
    visitContent visit stack hold tag children = visitContent other stack hold tag children := by
  simp only [visitContent]
  split
  · rw [expand_congr h]
  · rw [visitChildren_congr fun n hn hold ↦ h _ hold n (Node.height_le_heightAll hn)]

end Depth

/-- Two bounds that are at least the height of a node give the same walk. -/
theorem visit_congr_depth :
    ∀ (first second : Nat) (stack : Stack) (hold : Option Place) (n : Node),
      n.height ≤ first → n.height ≤ second →
        visit first stack hold n = visit second stack hold n := by
  intro first
  induction first with
  | zero =>
    intro second stack hold n hfirst _
    cases n with
    | text kind content => cases second <;> rfl
    | element tag children => rw [Node.height_element] at hfirst; omega
  | succ first ih =>
    intro second stack hold n hfirst hsecond
    cases n with
    | text kind content => cases second <;> rfl
    | element tag children =>
      rw [Node.height_element] at hfirst hsecond
      obtain ⟨second, rfl⟩ : ∃ k, second = k + 1 := ⟨second - 1, by omega⟩
      have hbelow : ∀ s hold n, n.height ≤ Node.heightAll children →
          visit first s hold n = visit second s hold n :=
        fun s hold n hn ↦ ih second s hold n (by omega) (by omega)
      have htext : ∀ content s hold n,
          n.height ≤ Node.heightAll [.text .characters content] →
            visit first s hold n = visit second s hold n :=
        fun content s hold n hn ↦ ih second s hold n
          (by simp only [Node.heightAll, Node.height] at hn; omega)
          (by simp only [Node.heightAll, Node.height] at hn; omega)
      simp only [visit, visitContent_congr hbelow]
      cases hreplaced : (boundText stack tag).value with
      | none => simp only [Walk.chain, hreplaced]
      | some replacement =>
        obtain ⟨content, rfl⟩ := boundText_value hreplaced
        simp only [Walk.chain, hreplaced, visitContent_congr (htext content)]

/-- A bound that is at least the height of a node does not show. -/
theorem visit_of_height_le {depth : Nat} {n : Node} (h : n.height ≤ depth) (stack : Stack)
    (hold : Option Place) : visit depth stack hold n = run ⟨stack, hold, n⟩ :=
  visit_congr_depth depth n.height stack hold n h (Nat.le_refl _)

/-! ### The parts of a run -/

/-- The children of an element after its text binding. -/
def shown (stack : Stack) (tag : Tag) (children : List Node) : List Node :=
  (boundText stack tag).value.getD children

/-- The place that is held back below an element after its text binding. -/
def holdShown (stack : Stack) (hold : Option Place) (tag : Tag) : Option Place :=
  if (boundText stack tag).value.isSome then none else hold

/-- What a run does with an element whose own bindings were carried out. -/
def content (stack : Stack) (hold : Option Place) (tag : Tag) (children : List Node) :
    Walk Visited :=
  visitContent (fun s hold n ↦ run ⟨s, hold, n⟩) stack (holdShown stack hold tag)
    (bindAttributes stack tag).value (shown stack tag children)

section Parts

variable {stack : Stack} {hold : Option Place} {tag : Tag} {children : List Node}

@[simp] theorem run_text (kind : TextKind) (text : String) :
    run ⟨stack, hold, .text kind text⟩ = .done ⟨.text kind text, .kept⟩ :=
  rfl

theorem run_of_isHeld (h : isHeld hold = true) :
    run ⟨stack, hold, .element tag children⟩ = .done ⟨.element tag children, .kept⟩ :=
  if_pos h

/-- A run of an element reports it, binds its text, then its attributes, and then goes on with its
content. -/
theorem run_element (h : isHeld hold = false) :
    run ⟨stack, hold, .element tag children⟩ =
      (Walk.report () (.visited tag children stack)).chain
        (fun _ ↦ ⟨.element tag children, .kept⟩) fun _ ↦
      (boundText stack tag).chain (fun _ ↦ ⟨.element tag children, .kept⟩) fun replaced ↦
      (bindAttributes stack tag).chain
        (fun tag ↦ ⟨.element tag (replaced.getD children), .kept⟩) fun _ ↦
      (content stack hold tag children).map fun v ↦
        if replaced.isSome then ⟨v.node, .replaced hold⟩ else v := by
  have hbelow : visitContent (visit (Node.heightAll children)) stack hold
        (bindAttributes stack tag).value children =
      visitContent (fun s hold n ↦ run ⟨s, hold, n⟩) stack hold
        (bindAttributes stack tag).value children :=
    visitContent_congr fun s hold n hn ↦ visit_of_height_le hn s hold
  have htext : ∀ text, visitContent (visit (Node.heightAll children)) stack none
        (bindAttributes stack tag).value [.text .characters text] =
      visitContent (fun s hold n ↦ run ⟨s, hold, n⟩) stack none
        (bindAttributes stack tag).value [.text .characters text] :=
    fun text ↦ visitContent_congr fun s hold n hn ↦ visit_of_height_le
      (by simp only [Node.heightAll, Node.height] at hn; omega) s hold
  simp only [run, Node.height_element, visit, h]
  cases hreplaced : (boundText stack tag).value with
  | none =>
    simp [Walk.chain, hreplaced, content, shown, holdShown, hbelow, Walk.map]
  | some replacement =>
    obtain ⟨text, rfl⟩ := boundText_value hreplaced
    simp [Walk.chain, hreplaced, content, shown, holdShown, htext, Walk.map]

/-- A run of an element stops at the first fault of its text binding, its attribute bindings and its
content. -/
theorem fault_run_element (h : isHeld hold = false) :
    (run ⟨stack, hold, .element tag children⟩).fault =
      (boundText stack tag).fault.or
        ((bindAttributes stack tag).fault.or (content stack hold tag children).fault) := by
  rw [run_element h]
  simp only [Walk.fault_chain, Walk.fault_report, Walk.fault_map, Option.none_or]

/-- A run of an element reaches its end when its text binding, its attribute bindings and its
content do. -/
theorem fault_run_element_eq_none_iff (h : isHeld hold = false) :
    (run ⟨stack, hold, .element tag children⟩).fault = none ↔
      (boundText stack tag).fault = none ∧ (bindAttributes stack tag).fault = none ∧
        (content stack hold tag children).fault = none := by
  rw [fault_run_element h, Option.or_eq_none_iff, Option.or_eq_none_iff]

/-- A run of an element whose bindings were carried out and kept its children is that of its
content. -/
theorem value_run_element (h : isHeld hold = false)
    (hfault : (run ⟨stack, hold, .element tag children⟩).fault = none)
    (htext : (boundText stack tag).value = none) :
    (run ⟨stack, hold, .element tag children⟩).value = (content stack hold tag children).value := by
  rw [fault_run_element_eq_none_iff h] at hfault
  rw [run_element h, Walk.value_chain rfl, Walk.value_chain hfault.1, Walk.value_chain hfault.2.1,
    Walk.value_map, htext]
  rfl

/-- The node that a run of an element gives is that of its content. -/
theorem node_run_element (h : isHeld hold = false)
    (hfault : (run ⟨stack, hold, .element tag children⟩).fault = none) :
    (run ⟨stack, hold, .element tag children⟩).value.node =
      (content stack hold tag children).value.node := by
  rw [fault_run_element_eq_none_iff h] at hfault
  rw [run_element h, Walk.value_chain rfl, Walk.value_chain hfault.1, Walk.value_chain hfault.2.1,
    Walk.value_map]
  split <;> rfl

/-- A run of an element gives an element, with the tag as its attribute bindings left it. -/
theorem exists_node_run_element (h : isHeld hold = false)
    (hfault : (run ⟨stack, hold, .element tag children⟩).fault = none) :
    ∃ result, (run ⟨stack, hold, .element tag children⟩).value.node =
      .element (bindAttributes stack tag).value result := by
  rw [node_run_element h hfault]
  simp only [content, visitContent]
  split
  · exact ⟨_, rfl⟩
  · exact ⟨_, rfl⟩

/-- Of a list with a text in the place of the children nothing is walked. -/
theorem stencil_of_text (tag : Tag) (text : String) :
    ∃ e, Stencil.of tag [.text .characters text] = .error e := by
  simp [Stencil.of, Node.stencilAmong, Node.stencilIn]

theorem shown_of_value_eq_none (h : (boundText stack tag).value = none) :
    shown stack tag children = children := by
  rw [shown, h, Option.getD_none]

theorem holdShown_of_value_eq_none (h : (boundText stack tag).value = none) :
    holdShown stack hold tag = hold := by
  rw [holdShown, h]
  rfl

theorem holdShown_none : holdShown stack none tag = none := by
  rw [holdShown, ite_self]

/-- The content of an element that is no collection is its children, inside the scope that it
opens. -/
theorem content_of_plain
    (hplain : (bindAttributes stack tag).value.mark? Mark.collection = none) :
    content stack hold tag children =
      (visitChildren (fun hold n ↦ run ⟨enter stack (bindAttributes stack tag).value, hold, n⟩)
        (holdShown stack hold tag) 0 (shown stack tag children)).map fun below ↦
          ⟨.element (bindAttributes stack tag).value below.1, below.2⟩ := by
  simp only [content, visitContent, hplain]

/-- The content of a collection is what it expands to. -/
theorem content_of_collection {raw : String}
    (hcollection : (bindAttributes stack tag).value.mark? Mark.collection = some raw) :
    content stack hold tag children =
      (expand (fun s hold n ↦ run ⟨s, hold, n⟩) stack raw (bindAttributes stack tag).value
        (shown stack tag children)).map fun result ↦
          ⟨.element (bindAttributes stack tag).value result,
            .under (holdShown stack hold tag) .destroyed⟩ := by
  simp only [content, visitContent, hcollection]

/-- A node that a run goes on to below an element is an old child of the element, or a text. -/
theorem getElem?_shown {i : Nat} {n : Node} (h : (shown stack tag children)[i]? = some n) :
    ((boundText stack tag).value = none ∧ children[i]? = some n) ∨
      ∃ text, n = .text .characters text := by
  cases hvalue : (boundText stack tag).value with
  | none => exact Or.inl ⟨rfl, by rwa [shown_of_value_eq_none hvalue] at h⟩
  | some replacement =>
    obtain ⟨text, rfl⟩ := boundText_value hvalue
    rw [shown, hvalue, Option.getD_some] at h
    have hmem := List.mem_of_getElem? h
    exact Or.inr ⟨text, List.mem_singleton.1 hmem⟩

/-- A collection that has a stencil when its turn comes still has the children it had. -/
theorem boundText_value_of_stencil {other : Tag} {stencil : Stencil}
    (h : Stencil.of other (shown stack tag children) = .ok stencil) :
    (boundText stack tag).value = none := by
  cases hvalue : (boundText stack tag).value with
  | none => rfl
  | some replacement =>
    obtain ⟨text, rfl⟩ := boundText_value hvalue
    obtain ⟨e, he⟩ := stencil_of_text other text
    rw [shown, hvalue, Option.getD_some, he] at h
    cases h

/-- What a text that replaces the children of an element means for a stencil held back below it. -/
theorem held_run_of_text (h : isHeld hold = false)
    (hfault : (run ⟨stack, hold, .element tag children⟩).fault = none) {text : List Node}
    (htext : (boundText stack tag).value = some text) :
    (run ⟨stack, hold, .element tag children⟩).value.held = .replaced hold := by
  rw [fault_run_element_eq_none_iff h] at hfault
  rw [run_element h, Walk.value_chain rfl, Walk.value_chain hfault.1, Walk.value_chain hfault.2.1,
    Walk.value_map, htext]
  rfl

/-- A run of an element that is no collection walks its children inside the component's scope. -/
theorem run_of_plain (h : isHeld hold = false)
    (hfault : (run ⟨stack, hold, .element tag children⟩).fault = none)
    (htext : (boundText stack tag).value = none)
    (hplain : (bindAttributes stack tag).value.mark? Mark.collection = none) :
    let below := visitChildren
      (fun hold n ↦ run ⟨enter stack (bindAttributes stack tag).value, hold, n⟩) hold 0 children
    below.fault = none ∧ (run ⟨stack, hold, .element tag children⟩).value =
      ⟨.element (bindAttributes stack tag).value below.value.1, below.value.2⟩ := by
  have hvalue := value_run_element h hfault htext
  rw [fault_run_element_eq_none_iff h] at hfault
  have hcontent := hfault.2.2
  rw [content_of_plain hplain, shown_of_value_eq_none htext, holdShown_of_value_eq_none htext]
    at hcontent hvalue
  exact ⟨hcontent, hvalue⟩

/-- A run of a collection that reached its end expanded it. -/
theorem run_of_collection (h : isHeld hold = false)
    (hfault : (run ⟨stack, hold, .element tag children⟩).fault = none) {raw : String}
    (hcollection : (bindAttributes stack tag).value.mark? Mark.collection = some raw) :
    let expanded := expand (fun s hold n ↦ run ⟨s, hold, n⟩) stack raw
      (bindAttributes stack tag).value children
    (boundText stack tag).value = none ∧ expanded.fault = none ∧
      (run ⟨stack, hold, .element tag children⟩).value =
        ⟨.element (bindAttributes stack tag).value expanded.value, .under hold .destroyed⟩ := by
  have hparts := hfault
  rw [fault_run_element_eq_none_iff h] at hparts
  have hcontent := hparts.2.2
  rw [content_of_collection hcollection, Walk.fault_map] at hcontent
  obtain ⟨stencil, hstencil, _⟩ := expand_of_fault_eq_none hcontent
  have htext := boundText_value_of_stencil hstencil
  rw [shown_of_value_eq_none htext] at hcontent
  refine ⟨htext, hcontent, ?_⟩
  rw [value_run_element h hfault htext, content_of_collection hcollection,
    shown_of_value_eq_none htext, holdShown_of_value_eq_none htext, Walk.value_map]

/-- A run of a collection with items that reached its end walked the nodes around the stencil and
filled the items in. -/
theorem fill_of_fault_run (h : isHeld hold = false)
    (hfault : (run ⟨stack, hold, .element tag children⟩).fault = none) {raw : String}
    (hcollection : (bindAttributes stack tag).value.mark? Mark.collection = some raw)
    {stencil : Stencil} (hstencil : Stencil.of tag children = .ok stencil) {items : List Value}
    (hitems : (itemsFor stack raw).value = some items) :
    let around := visitChildren (fun hold n ↦ run ⟨stack, hold, n⟩) (some stencil.place) 0 children
    let filled := fill (fun s n ↦ run ⟨s, none, n⟩) stack stencil items around.value
    around.fault = none ∧ filled.fault = none ∧
      (run ⟨stack, hold, .element tag children⟩).value =
        ⟨.element (bindAttributes stack tag).value filled.value, .under hold .destroyed⟩ := by
  obtain ⟨-, hexpanded, hvalue⟩ := run_of_collection h hfault hcollection
  obtain ⟨found, hfound, -, ⟨hnone, -⟩ | ⟨items', _, hitems', rfl, haround, hfill, hresult⟩⟩ :=
    expand_of_fault_eq_none hexpanded
  · rw [hitems] at hnone
    cases hnone
  · obtain rfl : found = stencil :=
      Except.ok.inj (hfound.symm.trans (Stencil.of_congr hstencil _))
    obtain rfl : items = items' := Option.some.inj (hitems.symm.trans hitems')
    exact ⟨haround, hfill, by rw [hvalue, hresult]⟩

/-- A run of an element that is not held back reports the element. -/
theorem visited_mem_run (h : isHeld hold = false) :
    Report.visited tag children stack ∈ (run ⟨stack, hold, .element tag children⟩).reports := by
  rw [run_element h]
  exact Walk.reports_subset_chain _ _ _ List.mem_cons_self

/-- What the content of an element reports, a run that comes as far as the content reports. -/
theorem reports_content_subset (h : isHeld hold = false)
    (htext : (boundText stack tag).fault = none)
    (hattributes : (bindAttributes stack tag).fault = none) :
    (content stack hold tag children).reports ⊆
      (run ⟨stack, hold, .element tag children⟩).reports := by
  rw [run_element h, Walk.reports_chain rfl, Walk.reports_chain htext,
    Walk.reports_chain hattributes, Walk.reports_map]
  exact List.subset_append_of_subset_right _
    (List.subset_append_of_subset_right _ (List.subset_append_right _ _))

/-- What a run of an element reports as visited is the element itself or within its content. -/
theorem visited_mem_run_element (h : isHeld hold = false) {t : Tag} {cs : List Node} {s : Stack}
    (hmem : Report.visited t cs s ∈ (run ⟨stack, hold, .element tag children⟩).reports) :
    (t = tag ∧ cs = children ∧ s = stack) ∨
      Report.visited t cs s ∈ (content stack hold tag children).reports := by
  rw [run_element h] at hmem
  rcases Walk.mem_reports_chain hmem with hself | ⟨_, hmem⟩
  · rw [Walk.reports_report, List.mem_singleton] at hself
    obtain ⟨rfl, rfl, rfl⟩ := Report.visited.inj hself
    exact Or.inl ⟨rfl, rfl, rfl⟩
  · rcases Walk.mem_reports_chain hmem with htext | ⟨_, hmem⟩
    · exact absurd htext visited_not_mem_boundText
    · rcases Walk.mem_reports_chain hmem with hattributes | ⟨_, hmem⟩
      · exact absurd hattributes visited_not_mem_bindAttributes
      · exact Or.inr (by simpa using hmem)

end Parts

/-! ### The visits that a visit leads to -/

/-- A visit leads to the visits of the children of its element, with the scope of a component
opened; at a collection, to those of the nodes around the stencil and of the copies for the
items. -/
inductive LeadsTo : Visit → Visit → Prop
  | child {stack : Stack} {hold : Option Place} {tag : Tag} {children : List Node} {i : Nat}
      {n : Node} (hheld : isHeld hold = false) (htext : (boundText stack tag).value = none)
      (hplain : (bindAttributes stack tag).value.mark? Mark.collection = none)
      (hn : children[i]? = some n) :
      LeadsTo ⟨stack, hold, .element tag children⟩
        ⟨enter stack (bindAttributes stack tag).value, holdBelow i hold, n⟩
  | around {stack : Stack} {hold : Option Place} {tag : Tag} {children : List Node} {raw : String}
      {stencil : Stencil} {items : List Value} {i : Nat} {n : Node}
      (hheld : isHeld hold = false) (htext : (boundText stack tag).value = none)
      (hcollection : (bindAttributes stack tag).value.mark? Mark.collection = some raw)
      (hstencil : Stencil.of tag children = .ok stencil)
      (hitems : (itemsFor stack raw).value = some items) (hn : children[i]? = some n) :
      LeadsTo ⟨stack, hold, .element tag children⟩ ⟨stack, holdBelow i (some stencil.place), n⟩
  | copy {stack : Stack} {hold : Option Place} {tag : Tag} {children : List Node} {raw : String}
      {stencil : Stencil} {items : List Value} {item : Value}
      (hheld : isHeld hold = false) (htext : (boundText stack tag).value = none)
      (hcollection : (bindAttributes stack tag).value.mark? Mark.collection = some raw)
      (hstencil : Stencil.of tag children = .ok stencil)
      (hitems : (itemsFor stack raw).value = some items) (hitem : item ∈ items) :
      LeadsTo ⟨stack, hold, .element tag children⟩
        ⟨stack.push stencil.item item, none, copyOf stencil.node⟩

/-- The ways in which a fault arises at a visit itself: in the text binding, in an attribute
binding, because a collection has no stencil, in the path of a collection, and because the stencil
of a collection is gone when its turn comes. -/
inductive Fails : Visit → BindError → Prop
  | text {stack : Stack} {hold : Option Place} {tag : Tag} {children : List Node} {e : BindError}
      (hheld : isHeld hold = false) (h : (boundText stack tag).fault = some e) :
      Fails ⟨stack, hold, .element tag children⟩ e
  | attributes {stack : Stack} {hold : Option Place} {tag : Tag} {children : List Node}
      {e : BindError} (hheld : isHeld hold = false)
      (h : (bindAttributes stack tag).fault = some e) :
      Fails ⟨stack, hold, .element tag children⟩ e
  | structural {stack : Stack} {hold : Option Place} {tag : Tag} {children : List Node}
      {raw : String} {e : StructureError} (hheld : isHeld hold = false)
      (hcollection : (bindAttributes stack tag).value.mark? Mark.collection = some raw)
      (h : Stencil.of (bindAttributes stack tag).value (shown stack tag children) = .error e) :
      Fails ⟨stack, hold, .element tag children⟩ (.structural e)
  | items {stack : Stack} {hold : Option Place} {tag : Tag} {children : List Node} {raw : String}
      {stencil : Stencil} {e : BindError} (hheld : isHeld hold = false)
      (htext : (boundText stack tag).value = none)
      (hcollection : (bindAttributes stack tag).value.mark? Mark.collection = some raw)
      (hstencil : Stencil.of tag children = .ok stencil) (h : (itemsFor stack raw).fault = some e) :
      Fails ⟨stack, hold, .element tag children⟩ e
  | lost {stack : Stack} {hold : Option Place} {tag : Tag} {children : List Node} {raw : String}
      {stencil : Stencil} {items : List Value} (hheld : isHeld hold = false)
      (htext : (boundText stack tag).value = none)
      (hcollection : (bindAttributes stack tag).value.mark? Mark.collection = some raw)
      (hstencil : Stencil.of tag children = .ok stencil)
      (hitems : (itemsFor stack raw).value = some items)
      (haround : (visitChildren (fun hold n ↦ run ⟨stack, hold, n⟩) (some stencil.place) 0
        children).fault = none)
      (h : (visitChildren (fun hold n ↦ run ⟨stack, hold, n⟩) (some stencil.place) 0
        children).value.2.Lost) :
      Fails ⟨stack, hold, .element tag children⟩ (.lostStencil (!items.isEmpty))

section Steps

variable {v w : Visit} {e : BindError} {stack s : Stack} {hold : Option Place} {tag t : Tag}
  {children cs : List Node} {raw : String}

/-- A visit leads to visits of lower nodes only. -/
theorem height_lt_of_leadsTo (h : v.LeadsTo w) : w.node.height < v.node.height := by
  cases h with
  | child _ _ _ hn => exact Node.height_lt_of_mem_children _ (List.mem_of_getElem? hn)
  | around _ _ _ _ _ hn => exact Node.height_lt_of_mem_children _ (List.mem_of_getElem? hn)
  | copy _ _ _ hstencil _ _ =>
    have hle := Stencil.height_le hstencil
    simp only [height_copyOf, Node.height]
    omega

/-- A visit at which a fault arises is that of an element, which its run reports. -/
theorem Fails.exists_visited (h : v.Fails e) :
    ∃ stack hold tag children, v = ⟨stack, hold, .element tag children⟩ ∧ isHeld hold = false ∧
      Report.visited tag children stack ∈ v.run.reports := by
  cases h with
  | text hheld _ => exact ⟨_, _, _, _, rfl, hheld, visited_mem_run hheld⟩
  | attributes hheld _ => exact ⟨_, _, _, _, rfl, hheld, visited_mem_run hheld⟩
  | structural hheld _ _ => exact ⟨_, _, _, _, rfl, hheld, visited_mem_run hheld⟩
  | items hheld _ _ _ _ => exact ⟨_, _, _, _, rfl, hheld, visited_mem_run hheld⟩
  | lost hheld _ _ _ _ _ _ => exact ⟨_, _, _, _, rfl, hheld, visited_mem_run hheld⟩

/-- The fault of the content of an element that is no collection arises at a child. -/
theorem leadsTo_of_fault_plain (hheld : isHeld hold = false)
    (hplain : (bindAttributes stack tag).value.mark? Mark.collection = none)
    (h : (content stack hold tag children).fault = some e) :
    ∃ w, LeadsTo ⟨stack, hold, .element tag children⟩ w ∧ w.run.fault = some e ∧
      w.run.reports ⊆ (content stack hold tag children).reports := by
  rw [content_of_plain hplain, Walk.fault_map] at h
  obtain ⟨i, n, hn, hfault, hbelow⟩ := fault_visitChildren_eq_some h
  rw [content_of_plain hplain, Walk.reports_map]
  rw [Nat.zero_add] at hfault hbelow
  rcases getElem?_shown hn with ⟨htext, hn⟩ | ⟨text, rfl⟩
  · rw [holdShown_of_value_eq_none htext] at hfault hbelow ⊢
    exact ⟨_, .child hheld htext hplain hn, hfault, hbelow⟩
  · simp at hfault

/-- The fault of the expansion of a collection arises in the collection itself, in the nodes around
its stencil or in a copy. -/
theorem fails_or_leadsTo_of_fault_expand (hheld : isHeld hold = false)
    (hcollection : (bindAttributes stack tag).value.mark? Mark.collection = some raw)
    (h : (expand (fun s hold n ↦ run ⟨s, hold, n⟩) stack raw (bindAttributes stack tag).value
      (shown stack tag children)).fault = some e) :
    Fails ⟨stack, hold, .element tag children⟩ e ∨
      ∃ w, LeadsTo ⟨stack, hold, .element tag children⟩ w ∧ w.run.fault = some e ∧
        w.run.reports ⊆ (expand (fun s hold n ↦ run ⟨s, hold, n⟩) stack raw
          (bindAttributes stack tag).value (shown stack tag children)).reports := by
  cases hfound : Stencil.of (bindAttributes stack tag).value (shown stack tag children) with
  | error error =>
    simp only [expand, hfound, Walk.fault_stop] at h
    obtain rfl := Option.some.inj h
    exact Or.inl (.structural hheld hcollection hfound)
  | ok stencil =>
    -- there is a stencil, so the children are those that the collection had
    have htext := boundText_value_of_stencil hfound
    rw [shown_of_value_eq_none htext] at hfound h ⊢
    have hstencil := Stencil.of_congr hfound tag
    simp only [expand, hfound] at h ⊢
    rw [Walk.fault_chain_eq_some_iff] at h
    rcases h with hitems | ⟨hitemsEnd, hrest⟩
    · exact Or.inl (.items hheld htext hcollection hstencil hitems)
    · rw [Walk.reports_chain hitemsEnd]
      cases hitems : (itemsFor stack raw).value with
      | none => simp [hitems] at hrest
      | some items =>
        simp only [hitems, Walk.fault_chain_eq_some_iff] at hrest
        rcases hrest with haround | ⟨haroundEnd, hfill⟩
        · obtain ⟨i, n, hn, hfault, hbelow⟩ := fault_visitChildren_eq_some haround
          rw [Nat.zero_add] at hfault hbelow
          exact Or.inr ⟨_, .around hheld htext hcollection hstencil hitems hn, hfault,
            List.subset_append_of_subset_right _
              (List.Subset.trans hbelow (Walk.reports_subset_chain _ _ _))⟩
        · rcases fault_fill_eq_some hfill with ⟨item, hitem, hfault, hbelow⟩ | ⟨hlost, rfl⟩
          · exact Or.inr ⟨_, .copy hheld htext hcollection hstencil hitems hitem, hfault,
              List.subset_append_of_subset_right _
                (List.Subset.trans hbelow (Walk.reports_next_subset_chain haroundEnd _ _))⟩
          · exact Or.inl (.lost hheld htext hcollection hstencil hitems haroundEnd hlost)

/-- The fault of a run arises at the visit itself or in the run of a visit that it leads to, whose
reports belong to the run. -/
theorem fails_or_leadsTo_of_fault (h : v.run.fault = some e) :
    v.Fails e ∨ ∃ w, v.LeadsTo w ∧ w.run.fault = some e ∧ w.run.reports ⊆ v.run.reports := by
  obtain ⟨stack, hold, node⟩ := v
  cases node with
  | text kind text => simp at h
  | element tag children =>
    cases hheld : isHeld hold with
    | true => simp [run_of_isHeld hheld] at h
    | false =>
      rw [fault_run_element hheld, Option.or_eq_some_iff, Option.or_eq_some_iff] at h
      rcases h with htext | ⟨htextEnd, hattributes | ⟨hattributesEnd, hcontent⟩⟩
      · exact Or.inl (.text hheld htext)
      · exact Or.inl (.attributes hheld hattributes)
      · have hreports : (content stack hold tag children).reports ⊆
            (run ⟨stack, hold, .element tag children⟩).reports :=
          reports_content_subset hheld htextEnd hattributesEnd
        cases hmark : (bindAttributes stack tag).value.mark? Mark.collection with
        | none =>
          obtain ⟨w, hw, hfault, hbelow⟩ := leadsTo_of_fault_plain hheld hmark hcontent
          exact Or.inr ⟨w, hw, hfault, List.Subset.trans hbelow hreports⟩
        | some raw =>
          rw [content_of_collection hmark, Walk.fault_map] at hcontent
          rw [content_of_collection hmark, Walk.reports_map] at hreports
          exact (fails_or_leadsTo_of_fault_expand hheld hmark hcontent).imp_right
            fun ⟨w, hw, hfault, hbelow⟩ ↦ ⟨w, hw, hfault, List.Subset.trans hbelow hreports⟩

/-- What the content of an element that is no collection reports as visited, a child does. -/
theorem leadsTo_of_visited_plain (hheld : isHeld hold = false)
    (hplain : (bindAttributes stack tag).value.mark? Mark.collection = none)
    (h : Report.visited t cs s ∈ (content stack hold tag children).reports) :
    ∃ w, LeadsTo ⟨stack, hold, .element tag children⟩ w ∧
      Report.visited t cs s ∈ w.run.reports := by
  rw [content_of_plain hplain, Walk.reports_map] at h
  obtain ⟨i, n, hn, hentry⟩ := mem_reports_visitChildren h
  rw [Nat.zero_add] at hentry
  rcases getElem?_shown hn with ⟨htext, hn⟩ | ⟨text, rfl⟩
  · rw [holdShown_of_value_eq_none htext] at hentry
    exact ⟨_, .child hheld htext hplain hn, hentry⟩
  · simp at hentry

/-- What the expansion of a collection reports as visited, a node around its stencil or a copy
does. -/
theorem leadsTo_of_visited_expand (hheld : isHeld hold = false)
    (hcollection : (bindAttributes stack tag).value.mark? Mark.collection = some raw)
    (h : Report.visited t cs s ∈ (expand (fun s hold n ↦ run ⟨s, hold, n⟩) stack raw
      (bindAttributes stack tag).value (shown stack tag children)).reports) :
    ∃ w, LeadsTo ⟨stack, hold, .element tag children⟩ w ∧
      Report.visited t cs s ∈ w.run.reports := by
  cases hfound : Stencil.of (bindAttributes stack tag).value (shown stack tag children) with
  | error error =>
    simp only [expand, hfound, Walk.reports_stop, List.not_mem_nil] at h
  | ok stencil =>
    have htext := boundText_value_of_stencil hfound
    rw [shown_of_value_eq_none htext] at hfound h
    have hstencil := Stencil.of_congr hfound tag
    simp only [expand, hfound] at h
    rcases Walk.mem_reports_chain h with hitems | ⟨-, hrest⟩
    · exact absurd hitems visited_not_mem_itemsFor
    · cases hitems : (itemsFor stack raw).value with
      | none => simp [hitems] at hrest
      | some items =>
        rw [hitems] at hrest
        rcases Walk.mem_reports_chain hrest with haround | ⟨-, hfill⟩
        · obtain ⟨i, n, hn, hentry⟩ := mem_reports_visitChildren haround
          rw [Nat.zero_add] at hentry
          exact ⟨_, .around hheld htext hcollection hstencil hitems hn, hentry⟩
        · obtain ⟨item, hitem, hentry⟩ := mem_reports_fill hfill
          exact ⟨_, .copy hheld htext hcollection hstencil hitems hitem, hentry⟩

/-- A visit that a run reports is the run's own or one reported in the run of a visit that it leads
to. -/
theorem self_or_leadsTo_of_visited (h : Report.visited t cs s ∈ v.run.reports) :
    (∃ hold, isHeld hold = false ∧ v = ⟨s, hold, .element t cs⟩) ∨
      ∃ w, v.LeadsTo w ∧ Report.visited t cs s ∈ w.run.reports := by
  obtain ⟨stack, hold, node⟩ := v
  cases node with
  | text kind text => simp at h
  | element tag children =>
    cases hheld : isHeld hold with
    | true => simp [run_of_isHeld hheld] at h
    | false =>
      rcases visited_mem_run_element hheld h with ⟨rfl, rfl, rfl⟩ | hcontent
      · exact Or.inl ⟨hold, hheld, rfl⟩
      · cases hmark : (bindAttributes stack tag).value.mark? Mark.collection with
        | none => exact Or.inr (leadsTo_of_visited_plain hheld hmark hcontent)
        | some raw =>
          rw [content_of_collection hmark, Walk.reports_map] at hcontent
          exact Or.inr (leadsTo_of_visited_expand hheld hmark hcontent)

/-- A run that reached its end did so at every visit that its visit leads to. -/
theorem fault_eq_none_of_leadsTo (h : v.run.fault = none) (hw : v.LeadsTo w) :
    w.run.fault = none := by
  cases hw with
  | child hheld htext hplain hn =>
    have hchild := fault_visitChildren_eq_none (run_of_plain hheld h htext hplain).1 _ _ hn
    rwa [Nat.zero_add] at hchild
  | around hheld htext hcollection hstencil hitems hn =>
    obtain ⟨haround, -, -⟩ := fill_of_fault_run hheld h hcollection hstencil hitems
    have hchild := fault_visitChildren_eq_none haround _ _ hn
    rwa [Nat.zero_add] at hchild
  | copy hheld htext hcollection hstencil hitems hitem =>
    obtain ⟨-, hfill, -⟩ := fill_of_fault_run hheld h hcollection hstencil hitems
    exact (fill_of_fault_eq_none hfill).1 _ hitem

end Steps

/-! ### Whole runs -/

section Runs

open Relation

variable {v w : Visit} {e : BindError}

/-- The fault of a run arises at a visit that it led to, whose reports belong to the run. -/
theorem exists_fails_of_fault (h : v.run.fault = some e) :
    ∃ w, ReflTransGen LeadsTo v w ∧ w.Fails e ∧ w.run.reports ⊆ v.run.reports := by
  induction hheight : v.node.height using Nat.strongRecOn generalizing v with
  | ind height ih =>
    rcases fails_or_leadsTo_of_fault h with hfails | ⟨w, hw, hfault, hreports⟩
    · exact ⟨v, .refl, hfails, List.Subset.refl _⟩
    · obtain ⟨u, hu, hfails, hbelow⟩ := ih _ (hheight ▸ height_lt_of_leadsTo hw) hfault rfl
      exact ⟨u, .head hw hu, hfails, List.Subset.trans hbelow hreports⟩

/-- A visit that a run reports is one that it led to. -/
theorem leadsTo_of_visited {t : Tag} {cs : List Node} {s : Stack}
    (h : Report.visited t cs s ∈ v.run.reports) :
    ∃ hold, isHeld hold = false ∧ ReflTransGen LeadsTo v ⟨s, hold, .element t cs⟩ := by
  induction hheight : v.node.height using Nat.strongRecOn generalizing v with
  | ind height ih =>
    rcases self_or_leadsTo_of_visited h with ⟨hold, hheld, rfl⟩ | ⟨w, hw, hentry⟩
    · exact ⟨hold, hheld, .refl⟩
    · obtain ⟨hold, hheld, hu⟩ := ih _ (hheight ▸ height_lt_of_leadsTo hw) hentry rfl
      exact ⟨hold, hheld, .head hw hu⟩

/-- A run that reached its end did so at every visit that it led to. -/
theorem fault_eq_none_of_reflTransGen (h : v.run.fault = none) (hw : ReflTransGen LeadsTo v w) :
    w.run.fault = none := by
  induction hw with
  | refl => exact h
  | tail _ hstep ih => exact fault_eq_none_of_leadsTo ih hstep

/-- A property that every visit hands on to those it leads to holds all along a run. -/
theorem of_reflTransGen {kept : Visit → Prop} (hstep : ∀ v w, kept v → v.LeadsTo w → kept w)
    (h : kept v) (hw : ReflTransGen LeadsTo v w) : kept w := by
  induction hw with
  | refl => exact h
  | tail _ hlast ih => exact hstep _ _ ih hlast

end Runs

end Visit

end Binding

/-! ### The walk over a document -/

namespace Document

open Binding Relation

variable {d : Document} {input : Value}

/-- The visits of the walk that binds an input into a document: those that the visits of what the
toggles leave, under the root scope, lead to. -/
def Visits (d : Document) (input : Value) (v : Visit) : Prop :=
  ∃ n ∈ (d.filterToggles input).1, ReflTransGen Visit.LeadsTo ⟨.root input, none, n⟩ v

/-- Binding an input walks what the toggles leave. -/
theorem bind_eq (d : Document) (input : Value) :
    d.bind input =
      (visitChildren (fun hold n ↦ Visit.run ⟨.root input, hold, n⟩) none 0
        (d.filterToggles input).1).map (·.1) := by
  have hvisits : ∀ n ∈ (d.filterToggles input).1, ∀ hold,
      visit (Node.heightAll (d.filterToggles input).1) (.root input) hold n =
        Visit.run ⟨.root input, hold, n⟩ :=
    fun n hn hold ↦ Visit.visit_of_height_le (Node.height_le_heightAll hn) (.root input) hold
  exact congrArg (Walk.map (·.1)) (visitChildren_congr hvisits 0)

/-- The fault of binding arises at a visit of the walk, that of an element which binding reports. -/
theorem exists_fails_of_fault_bind {e : BindError} (h : (d.bind input).fault = some e) :
    ∃ stack hold tag children, d.Visits input ⟨stack, hold, .element tag children⟩ ∧
      isHeld hold = false ∧ Report.visited tag children stack ∈ (d.bind input).reports ∧
      Visit.Fails ⟨stack, hold, .element tag children⟩ e := by
  rw [bind_eq, Walk.fault_map] at h
  obtain ⟨i, n, hn, hfault, hreports⟩ := fault_visitChildren_eq_some h
  obtain ⟨v, hv, hfails, hbelow⟩ := Visit.exists_fails_of_fault hfault
  obtain ⟨stack, hold, tag, children, rfl, hheld, hvisited⟩ := hfails.exists_visited
  refine ⟨stack, hold, tag, children, ⟨n, List.mem_of_getElem? hn, hv⟩, hheld, ?_, hfails⟩
  rw [bind_eq, Walk.reports_map]
  exact hreports (hbelow hvisited)

/-- What binding reports as visited is a visit of the walk. -/
theorem visits_of_visited {tag : Tag} {children : List Node} {stack : Stack}
    (h : Report.visited tag children stack ∈ (d.bind input).reports) :
    ∃ hold, isHeld hold = false ∧ d.Visits input ⟨stack, hold, .element tag children⟩ := by
  rw [bind_eq, Walk.reports_map] at h
  obtain ⟨i, n, hn, hentry⟩ := mem_reports_visitChildren h
  obtain ⟨hold, hheld, hv⟩ := Visit.leadsTo_of_visited hentry
  exact ⟨hold, hheld, n, List.mem_of_getElem? hn, hv⟩

/-- Binding that reached its end did so at every visit of the walk. -/
theorem fault_run_eq_none_of_visits (h : (d.bind input).fault = none) {v : Visit}
    (hv : d.Visits input v) : v.run.fault = none := by
  obtain ⟨n, hn, hv⟩ := hv
  rw [bind_eq, Walk.fault_map] at h
  obtain ⟨i, hi⟩ := List.getElem?_of_mem hn
  exact Visit.fault_eq_none_of_reflTransGen (fault_visitChildren_eq_none h i n hi) hv

/-- A property of the visits under the root scope that every visit hands on to those it leads to
holds of every visit of the walk. -/
theorem of_visits {kept : Visit → Prop}
    (hroot : ∀ n ∈ (d.filterToggles input).1, kept ⟨.root input, none, n⟩)
    (hstep : ∀ v w, kept v → v.LeadsTo w → kept w) {v : Visit} (hv : d.Visits input v) :
    kept v := by
  obtain ⟨n, hn, hv⟩ := hv
  exact Visit.of_reflTransGen hstep (hroot n hn) hv

end Document

end MarkupBinding
