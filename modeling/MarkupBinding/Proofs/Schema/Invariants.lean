import MarkupBinding.Proofs.Markup.StencilPlace
import MarkupBinding.Proofs.Text.Trimming
import MarkupBinding.Schema.Extraction

/-!
# What extraction keeps

Extraction changes a component in two ways only: it declares a property below an address, and it
declares a nested component there. What both ways keep (`Kept`), all of extraction keeps: the
bindings of one element (`Kept.declareBindings`), a visit at any depth (`Kept.visit`), and the walk
over a document (`Document.kept_extract`). The walk may stop at a fault; what it has reached then is
kept too.

The names that are declared are those that annotations give, so `Kept` asks for no more than they
allow (`Declarable`): a property and a list are named by an identifier, a single object and the
scope of an item by a label.
-/

set_option autoImplicit false
set_option relaxedAutoImplicit false

namespace MarkupBinding

/-- A mark that counts has a label for its value. -/
theorem Tag.isLabel_of_mark? {t : Tag} {name value : String} (h : t.mark? name = some value) :
    Text.IsLabel value := by
  rw [mark?] at h
  split at h
  · next raw _ =>
    cases hblank : Text.isBlankText raw with
    | true => simp [hblank] at h
    | false =>
      rw [hblank, if_neg Bool.false_ne_true] at h
      rw [← Option.some.inj h]
      exact Text.isLabel_trim hblank
  · cases h

namespace Extraction

/-- The nested components that annotations can declare: lists with a scope for their items, and
single objects. -/
inductive Declarable : String → Bool → Option String → Prop
  | list {name item : String} (hname : Path.isIdentifier name.toList = true)
      (hitem : Text.IsLabel item) : Declarable name true (some item)
  | single {name : String} (hname : Text.IsLabel name) : Declarable name false none

/-- Every declaration keeps a property of components, wherever it declares. -/
structure Kept (kept : Component → Prop) : Prop where
  property : ∀ {root : Component} {name : String} (address : Address),
    Path.isIdentifier name.toList = true → kept root →
      kept (root.modifyAt (·.addProperty name) address)
  component : ∀ {root c changed : Component} {address : Address} {name : String} {array : Bool}
    {itemName : Option String}, Declarable name array itemName → root.at? address = some c →
      c.addComponent name array itemName = .ok changed → kept root →
        kept (root.modifyAt (fun _ ↦ changed) address)

namespace Kept

variable {kept : Component → Prop} {root : Component} {ancestors : Ancestors} {tag : Tag}

theorem declareProperty (h : Kept kept) {path : Path}
    (hname : Path.isIdentifier path.name.toList = true) (source : String) (hroot : kept root) :
    kept (declareProperty ancestors source path root).value := by
  unfold Extraction.declareProperty
  split
  · exact hroot
  · exact h.property _ hname hroot

theorem declareComponent (h : Kept kept) {name : String} {array : Bool} {itemName : Option String}
    (hdeclarable : Declarable name array itemName) (address : Address) (hroot : kept root) :
    kept (declareComponent address name array itemName root).value := by
  unfold Extraction.declareComponent
  split
  · exact hroot
  · next c hc =>
    split
    · next changed hchanged => exact h.component hdeclarable hc hchanged hroot
    · exact hroot

theorem declareText (h : Kept kept) (hroot : kept root) :
    kept (declareText ancestors tag root).value := by
  unfold Extraction.declareText
  split
  · exact hroot
  · split
    · exact hroot
    · next path hpath =>
      obtain ⟨source, -, hparse⟩ := Path.ofBinding_eq_ok hpath
      exact h.declareProperty (Path.isIdentifier_name hparse) _ hroot

theorem declareAttribute (h : Kept kept) (binding : String × String) (hroot : kept root) :
    kept (declareAttribute ancestors binding root).value := by
  unfold Extraction.declareAttribute
  split
  · exact hroot
  · next segments hparse =>
    refine Walk.forEach_value kept _ _ (fun path hpath c hc ↦ ?_) hroot
    exact h.declareProperty (TemplateText.isIdentifier_of_mem_paths hparse hpath) _ hc

theorem declareBindings (h : Kept kept) (hroot : kept root) :
    kept (declareBindings ancestors tag root).value := by
  unfold Extraction.declareBindings
  refine Walk.andThen_value kept (Walk.andThen_value kept hroot fun c hc ↦ h.declareText hc)
    fun c hc ↦ ?_
  exact Walk.forEach_value kept _ _ (fun binding _ d hd ↦ h.declareAttribute binding hd) hc

/-- Walking siblings keeps what walking each of them keeps. -/
theorem visitChildren {visit : Option Place → Node → Component → Walk Component}
    (hvisit : ∀ hold n c, kept c → kept (visit hold n c).value) {hold : Option Place}
    {nodes : List Node} {i : Nat} (hroot : kept root) :
    kept (visitChildren visit hold i nodes root).value := by
  induction nodes generalizing i root with
  | nil => exact hroot
  | cons n rest ih =>
    unfold Extraction.visitChildren
    exact Walk.andThen_value kept (hvisit _ n root hroot) fun c hc ↦ ih hc

/-- A collection declares its list under an identifier, with a label for the scope of an item. -/
theorem visitCollection (h : Kept kept)
    {visit : Ancestors → Option Place → Node → Component → Walk Component}
    (hvisit : ∀ ancestors hold n c, kept c → kept (visit ancestors hold n c).value)
    {raw : String} {children : List Node} (hroot : kept root) :
    kept (visitCollection visit ancestors raw tag children root).value := by
  unfold Extraction.visitCollection
  split
  · exact hroot
  · next path hpath =>
    obtain ⟨source, -, hparse⟩ := Path.ofBinding_eq_ok hpath
    split
    · exact hroot
    · next stencil hstencil =>
      obtain ⟨_, _, _, _, -, hitem⟩ := Stencil.of_eq_ok hstencil
      refine Walk.andThen_value kept ?_ fun c hc ↦ visitChildren (hvisit ancestors) hc
      split
      · exact hroot
      · have hlist := Declarable.list (Path.isIdentifier_name hparse) (Tag.isLabel_of_mark? hitem)
        exact Walk.andThen_value kept (h.declareComponent hlist _ hroot) fun c hc ↦
          hvisit _ _ _ c hc

theorem visit (h : Kept kept) (depth : Nat) (ancestors : Ancestors) (hold : Option Place)
    (n : Node) (root : Component) (hroot : kept root) :
    kept (visit depth ancestors hold n root).value := by
  induction depth generalizing ancestors hold n root with
  | zero => exact hroot
  | succ depth ih =>
    cases n with
    | text kind content => exact hroot
    | element tag children =>
      unfold Extraction.visit
      split
      · exact hroot
      · refine Walk.andThen_value kept (h.declareBindings hroot) fun c hc ↦ ?_
        split
        · exact h.visitCollection ih hc
        · split
          · exact visitChildren (ih ancestors) hc
          · next hname =>
            have hsingle := Declarable.single (Tag.isLabel_of_mark? hname)
            exact Walk.andThen_value kept (h.declareComponent hsingle _ hc) fun d hd ↦
              visitChildren (ih _) hd

/-- The walk over the outermost component keeps what holds of a component that takes nothing. -/
theorem visitOutermost (h : Kept kept) (hempty : kept (.empty false none)) (name : String)
    (tag : Tag) (children : List Node) : kept (visitOutermost name tag children).value := by
  unfold Extraction.visitOutermost
  refine Walk.andThen_value kept (h.declareBindings hempty) fun c hc ↦ ?_
  split
  · exact h.visitCollection (h.visit _) hc
  · exact visitChildren (h.visit _ _) hc

end Kept

end Extraction

namespace Document

variable {d : Document} {includeEmpty : Bool} {schema : Schema}

/-- A schema that is read off a document is that of its outermost component, and has the toggle
flags of the document. -/
theorem exists_of_extract (h : (d.extract includeEmpty).result = .ok (some schema)) :
    ∃ tag children, d.outermostComponent? = some (.element tag children) ∧
      tag.mark? Mark.component = some schema.name ∧
      (Extraction.visitOutermost schema.name tag children).fault = none ∧
      schema.root = (if includeEmpty
        then (Extraction.visitOutermost schema.name tag children).value
        else (Extraction.visitOutermost schema.name tag children).value.prune) ∧
      schema.toggles = d.toggleFlags := by
  rw [extract] at h
  split at h
  · next tag children houtermost =>
    obtain ⟨t, cs, heq, -, hdeclares⟩ := exists_of_outermostComponent? houtermost
    obtain ⟨rfl, rfl⟩ := Node.element.inj heq
    obtain ⟨name, hname⟩ := Option.isSome_iff_exists.1 hdeclares
    obtain ⟨hfault, hvalue⟩ := Walk.result_eq_ok_iff.1 h
    rw [Walk.fault_map, hname, Option.getD_some] at hfault
    rw [Walk.value_map, hname, Option.getD_some] at hvalue
    obtain rfl := Option.some.inj hvalue
    exact ⟨tag, children, houtermost, hname, hfault, rfl, rfl⟩
  · cases h

/-- Nothing is read off a document only if no element declares a component. -/
theorem extract_eq_ok_none_iff :
    (d.extract includeEmpty).result = .ok none ↔ d.outermostComponent? = none := by
  rw [extract]
  split
  · next tag children houtermost =>
    rw [houtermost, Walk.result_eq_ok_iff, Walk.value_map]
    simp
  · next hnot =>
    cases houtermost : d.outermostComponent? with
    | none => simp [Walk.result]
    | some x =>
      obtain ⟨tag, children, rfl, -⟩ := exists_of_outermostComponent? houtermost
      exact absurd houtermost (hnot tag children)

/-- What declaring and pruning keep holds of every schema that is read off a document. -/
theorem kept_extract {kept : Component → Prop} (hkept : Extraction.Kept kept)
    (hempty : kept (.empty false none)) (hprune : ∀ c : Component, kept c → kept c.prune)
    (h : (d.extract includeEmpty).result = .ok (some schema)) : kept schema.root := by
  obtain ⟨tag, children, -, -, -, hroot, -⟩ := exists_of_extract h
  have hwalk := hkept.visitOutermost hempty schema.name tag children
  rw [hroot]
  split
  · exact hwalk
  · exact hprune _ hwalk

end Document

end MarkupBinding
