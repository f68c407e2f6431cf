import MarkupBinding.Proofs.Binding.Construction
import MarkupBinding.Proofs.Markup.StyleClasses
import MarkupBinding.Proofs.Service.FormRequests
import MarkupBinding.Proofs.Storage.Listing

/-!
# The page of saved inputs shows them all

What the template of the page is bound to is known for every list of names (`IndexPage.page`): the
toggles leave the summary and the list, or else the message for an empty store
(`filterToggles_template`), and what they leave is bound piece by piece, a copy of the stencil to
the name and to the call that sends it (`bound_copyOf_item`, `bound_pageWith`). So binding names
into the template reaches its end, whatever the names are (`bind_template`), and a request for the
page is answered with the page of the names that the store lists (`Service.answerIndex_of_texts`),
unless one of them is no text and cannot be written (`Service.answerIndex_of_not_text`).

In the answer are as many listed inputs as there are names, in the order of these, and a summary
with their number; or the message, if there are none (`Service.index_mirrors_store`).
-/

set_option autoImplicit false
set_option relaxedAutoImplicit false

namespace MarkupBinding

open Binding

namespace IndexPage

variable {names : List String} {stack : Stack} {content content' items : List Node}
  {count style : String}

/-! ### What the template is bound to -/

/-- The call that sends a saved input to be bound. -/
def call (name : String) : String :=
  sendFunction ++ "('" ++ name ++ "')"

/-- The tag of a copy of the stencil. -/
def copyTag : Tag :=
  ⟨"li", [("class", .words ["file-item"]), (Mark.textContent, .plain "file.name"),
    ("data-attribute-onclick", .plain (sendFunction ++ "('$\x7bfile.name\x7d')"))]⟩

/-- The tag of a listed input. -/
def listedTag (name : String) : Tag :=
  copyTag.set "onclick" (call name)

/-- A listed input. -/
def listed (name : String) : Node :=
  .element (listedTag name) [text name]

/-- What is in the line that tells how many inputs are listed. -/
def summaryContent (count : String) : List Node :=
  [element "span" [(Mark.textContent, "root.count")] [text count], text " saved form(s)"]

/-- The tag of that line. -/
def summaryTag : Tag :=
  ⟨"p", [("class", .words ["summary"]), (Mark.toggleable, .plain "showList")]⟩

/-- The line that tells how many inputs are listed. -/
def summary (count : String) : Node :=
  .element summaryTag (summaryContent count)

/-- The tag of the list. -/
def listTag : Tag :=
  ⟨"ul", [("class", .words ["file-list"]), (Mark.toggleable, .plain "showList"),
    (Mark.collection, .plain "root.files")]⟩

/-- The list of the nodes for the inputs. -/
def list (items : List Node) : Node :=
  .element listTag (line :: items ++ [line])

/-- The words for an empty store. -/
def noFiles : String := "No forms found in the forms directory."

/-- The message for an empty store. -/
def message : Node :=
  styled "div" "no-files" [(Mark.toggleable, "showEmpty")] [text noFiles]

/-- The heading of the page. -/
def heading : Node :=
  element "h1" [] [text "Saved Forms"]

/-- The place for errors. -/
def errors : Node :=
  styled "div" "error" [("id", "error")] []

/-- The component with the nodes between the heading and the place for errors. -/
def containerWith (content : List Node) : Node :=
  styled "div" "container" [(Mark.component, "root")]
    (line :: heading :: line :: content ++ [line, errors, line])

/-- The page with the nodes that the component holds between its heading and its place for errors.
-/
def pageWith (content : List Node) : Document :=
  [.text .doctype "html", line,
    element "html" [("lang", "en")] (lines [
      head,
      element "body" [] (lines [
        containerWith content, form, element "script" [] [text script]])]),
    line]

/-- What the toggles leave of the component, with the given number and nodes for the inputs. -/
def contentOf (names : List String) (count : String) (items : List Node) : List Node :=
  if names.isEmpty then [line, line, message] else [summary count, line, list items, line]

/-- The page for names. -/
def page (names : List String) : Document :=
  pageWith (contentOf names (intText names.length) (names.map listed))

theorem filterToggles_template (names : List String) :
    (Document.filterToggles template (input names)).1 = pageWith (contentOf names "0" [item]) := by
  cases names with
  | nil => rfl
  | cons name rest => rfl

/-! ### Binding the list -/

theorem bound_line : Bound stack line line :=
  bound_self line (by decide)

/-- The scopes around a copy of the stencil for a name. -/
def itemStack (stack : Stack) (name : String) : Stack :=
  stack.push "file" (.object [("name", .string name)])

/-- The attribute binding of a copy sets the call for the name. -/
theorem bindAttributes_copyTag (name : String) :
    bindAttributes (itemStack stack name) copyTag = .done (listedTag name) := by
  have hbindings : copyTag.attributeBindings =
      [("onclick", sendFunction ++ "('$\x7bfile.name\x7d')")] := by
    decide +kernel
  have hparse : TemplateText.parse (sendFunction ++ "('$\x7bfile.name\x7d')") =
      .ok [.literal (sendFunction ++ "('"), .placeholder ⟨"name", some "file"⟩ "file.name",
        .literal "')"] := by
    decide +kernel
  have hvalue : (itemStack stack name).resolve ⟨"name", some "file"⟩ = .ok (.string name) := rfl
  have hcall : sendFunction ++ "('" ++ (name ++ ("')" ++ "")) = call name := by
    simp only [call, String.append_empty, String.append_assoc]
  rw [bindAttributes, hbindings, Walk.forEach, bindAttribute, hparse]
  simp only [fillSegments, resolve, hvalue]
  change Walk.done (copyTag.set "onclick" (sendFunction ++ "('" ++ (name ++ ("')" ++ "")))) = _
  rw [hcall, listedTag]

/-- A copy of the stencil is bound to the listed input. -/
theorem bound_copyOf_item (name : String) :
    Bound (itemStack stack name) (copyOf item) (listed name) := by
  have hcopy : copyOf item = .element copyTag [text "form.json"] := rfl
  have hbound := @bindAttributes_copyTag stack name
  rw [hcopy]
  exact bound_of_text ⟨"file.name", ⟨"name", some "file"⟩, .string name, rfl, rfl, rfl, rfl⟩
    (by rw [hbound]; rfl) (by rw [hbound, Walk.value_done]) rfl

/-- The list is bound to the listed inputs, one for each name. -/
theorem bound_list : Bound (.root (input names)) (list [item]) (list (names.map listed)) := by
  have hcollection : listTag.mark? Mark.collection = some "root.files" := by decide
  refine bound_collection (by decide) (by decide) hcollection ?_
  refine @expand_of_bound _ _ _ ⟨"files", some "root"⟩ ⟨[1], item, "file"⟩
    (names.map fun name ↦ .object [("name", .string name)]) [line] [line] [line] [line]
    (names.map listed) rfl rfl rfl rfl (.cons bound_line .nil) (.cons bound_line .nil) ?_
  rw [List.forall₂_map_left_iff, List.forall₂_map_right_iff]
  exact List.forall₂_same.2 fun name _ ↦ bound_copyOf_item name

/-! ### Binding the page -/

/-- The summary is bound to the number of the names. -/
theorem bound_summary :
    Bound (.root (input names)) (summary "0") (summary (intText names.length)) := by
  refine bound_of_children (by decide) (by decide) (by decide) ?_
  rw [enter_of_plain (by decide)]
  exact .cons (bound_of_text ⟨"root.count", ⟨"count", some "root"⟩, .string _, rfl, rfl, rfl, rfl⟩
    rfl rfl (by decide)) (.cons (bound_self _ (by decide)) .nil)

/-- What the toggles leave of the component is bound node by node. -/
theorem bound_contentOf :
    List.Forall₂ (Bound (.root (input names))) (contentOf names "0" [item])
      (contentOf names (intText names.length) (names.map listed)) := by
  unfold contentOf
  split
  · exact .cons bound_line (.cons bound_line (.cons (bound_self message (by decide)) .nil))
  · exact .cons bound_summary (.cons bound_line (.cons bound_list (.cons bound_line .nil)))

theorem bound_lines {nodes results : List Node} (h : List.Forall₂ (Bound stack) nodes results) :
    List.Forall₂ (Bound stack) (lines nodes) (lines results) := by
  induction h with
  | nil => exact .cons bound_line .nil
  | cons hn _ ih => exact .cons bound_line (.cons hn ih)

/-- A page is bound by binding what the component holds, which opens no scope of its own. -/
theorem bound_pageWith {data : Value} (h : List.Forall₂ (Bound (.root data)) content content') :
    List.Forall₂ (Bound (.root data)) (pageWith content) (pageWith content') := by
  have hcontainer : Bound (.root data) (containerWith content) (containerWith content') := by
    refine bound_of_children (by decide) (by decide) (by decide) ?_
    have hafter : List.Forall₂ (Bound (.root data)) [line, errors, line] [line, errors, line] :=
      .cons bound_line (.cons (bound_self errors (by decide)) (.cons bound_line .nil))
    exact .cons bound_line (.cons (bound_self heading (by decide)) (.cons bound_line
      (List.rel_append h hafter)))
  have hbody : Bound (.root data)
      (element "body" []
        (lines [containerWith content, form, element "script" [] [text script]]))
      (element "body" []
        (lines [containerWith content', form, element "script" [] [text script]])) :=
    bound_of_children (by decide) (by decide) (by decide) (bound_lines (.cons hcontainer
      (.cons (bound_self form (by decide)) (.cons (bound_self _ (by decide)) .nil))))
  refine .cons (bound_self _ (by decide)) (.cons bound_line (.cons ?_ (.cons bound_line .nil)))
  exact bound_of_children (by decide) (by decide) (by decide)
    (bound_lines (.cons (bound_self head (by decide)) (.cons hbody .nil)))

/-- Binding names into the template reaches its end with the page for the names. -/
theorem bind_template (names : List String) :
    (template.bind (input names)).fault = none ∧
      (template.bind (input names)).value = page names := by
  refine Document.bind_of_bound ?_
  rw [filterToggles_template]
  exact bound_pageWith bound_contentOf

/-! ### What the page shows -/

theorem ofClass_line (rest : List Node) :
    Document.ofClass (line :: rest) style = Document.ofClass rest style := rfl

theorem ofClass_containerWith (h : style ∉ ["container", "error"]) (rest : List Node) :
    Document.ofClass (containerWith content :: rest) style =
      Document.ofClass content style ++ Document.ofClass rest style := by
  have hnone : ∀ own ∈ ["container", "error"], ∀ attrs : List (String × AttrValue),
      (⟨"div", ("class", .words [own]) :: attrs⟩ : Tag).hasClass style = false := by
    intro own hown attrs
    have hne : style ≠ own := fun heq ↦ h (heq ▸ hown)
    have hlookup : (("class", AttrValue.words [own]) :: attrs).lookup "class" =
        some (.words [own]) := rfl
    simp [Tag.hasClass, hlookup, hne]
  have hafter : Document.ofClass [line, errors, line] style = [] :=
    Document.ofClass_element_of_not (hnone "error" (by decide) _) [] [line]
  have hinside : Document.ofClass (line :: heading :: line :: content ++ [line, errors, line])
      style = Document.ofClass content style := by
    rw [Document.ofClass_append, hafter, List.append_nil, ofClass_line,
      Document.ofClass_cons_of_classless (by decide), ofClass_line]
  rw [containerWith, styled, Document.ofClass_element_of_not (hnone "container" (by decide) _),
    hinside]

theorem ofClass_lines (nodes : List Node) :
    Document.ofClass (lines nodes) style = Document.ofClass nodes style := by
  induction nodes with
  | nil => rfl
  | cons n rest ih =>
    have hsplit : ∀ more, Document.ofClass (n :: more) style =
        Document.ofClass [n] style ++ Document.ofClass more style := Document.ofClass_append [n]
    rw [lines, ofClass_line, hsplit (lines rest), hsplit rest, ih]

/-- Outside the style classes of its frame, the page has the elements of the content. -/
theorem ofClass_pageWith (h : style ∉ ["container", "error"]) :
    (pageWith content).ofClass style = Document.ofClass content style := by
  have hbody : Document.ofClass (lines [containerWith content, form,
      element "script" [] [text script]]) style = Document.ofClass content style := by
    rw [ofClass_lines, ofClass_containerWith h, Document.ofClass_cons_of_classless (by decide),
      Document.ofClass_cons_of_classless (by decide), Document.ofClass_nil, List.append_nil]
  have htop : Document.ofClass (lines [head, element "body" [] (lines [containerWith content, form,
      element "script" [] [text script]])]) style = Document.ofClass content style := by
    rw [ofClass_lines, Document.ofClass_cons_of_classless (by decide), element,
      Document.ofClass_element_of_not rfl, hbody, Document.ofClass_nil, List.append_nil]
  rw [pageWith, Document.ofClass_text, ofClass_line, element, Document.ofClass_element_of_not rfl,
    htop, ofClass_line, Document.ofClass_nil, List.append_nil]

/-- The elements of a style class in a content with summary and list. -/
theorem ofClass_full :
    Document.ofClass [summary count, line, list items, line] style =
      (if summaryTag.hasClass style then [(summaryTag, summaryContent count)] else []) ++
        ((if listTag.hasClass style then [(listTag, line :: items ++ [line])] else []) ++
          Document.ofClass items style) := by
  have hsummary : Document.ofClass (summaryContent count) style = [] := by
    rw [summaryContent, element, Document.ofClass_element_of_not rfl]
    rfl
  have hlist : Document.ofClass (line :: items ++ [line]) style = Document.ofClass items style := by
    rw [Document.ofClass_append, ofClass_line]
    exact List.append_nil _
  have hrest : Document.ofClass [line] style = [] := rfl
  rw [summary, Document.ofClass_element, hsummary, List.nil_append, ofClass_line, list,
    Document.ofClass_element, hlist, hrest, List.append_nil]

/-- The listed inputs are the elements of their style class, and of no other. -/
theorem ofClass_listed (names : List String) :
    Document.ofClass (names.map listed) style =
      if style = "file-item" then names.map fun name ↦ (listedTag name, [text name]) else [] := by
  have hclass : ∀ name, (listedTag name).hasClass style = decide (style = "file-item") := by
    intro name
    have hlookup : (listedTag name).attrs.lookup "class" = some (.words ["file-item"]) := rfl
    simp [Tag.hasClass, hlookup]
  induction names with
  | nil => simp
  | cons name rest ih =>
    rw [List.map_cons, listed, Document.ofClass_element, hclass, ih]
    by_cases hstyle : style = "file-item" <;> simp [hstyle, text]

/-- The element stands for a saved input: it shows the name, and a click on it makes the call for
the name. -/
def Shows (e : Tag × List Node) (name : String) : Prop :=
  e.2 = [.text .characters name] ∧ e.1.attr? "onclick" = some (call name)

/-- The page shows the names: as many listed inputs, in the order of the names, below a summary that
tells their number, and no message that there are none. -/
structure ShowsAll (page : Document) (names : List String) : Prop where
  items : List.Forall₂ Shows (page.ofClass "file-item") names
  summary : ∃ tag, page.ofClass "summary" = [(tag, summaryContent (toString names.length))]
  list : ∃ tag inside, page.ofClass "file-list" = [(tag, inside)] ∧
    Document.ofClass inside "file-item" = page.ofClass "file-item"
  noMessage : page.ofClass "no-files" = []

/-- The page shows a message that there are no saved inputs, and neither list nor summary. -/
structure ShowsNone (page : Document) : Prop where
  message : ∃ tag, page.ofClass "no-files" = [(tag, [.text .characters noFiles])]
  noItems : page.ofClass "file-item" = []
  noSummary : page.ofClass "summary" = []
  noList : page.ofClass "file-list" = []

theorem showsAll_page (h : names ≠ []) : ShowsAll (page names) names := by
  have hcontent : page names = pageWith
      [summary (intText names.length), line, list (names.map listed), line] := by
    rw [page, contentOf, if_neg (by simpa using h)]
  have hofClass : ∀ style, style ∉ ["container", "error"] → (page names).ofClass style =
      (if summaryTag.hasClass style then [(summaryTag, summaryContent (intText names.length))]
        else []) ++
      ((if listTag.hasClass style then [(listTag, line :: names.map listed ++ [line])] else []) ++
        if style = "file-item" then names.map fun name ↦ (listedTag name, [text name])
        else []) := by
    intro style hstyle
    rw [hcontent, ofClass_pageWith hstyle, ofClass_full, ofClass_listed]
  have hinside : Document.ofClass (line :: names.map listed ++ [line]) "file-item" =
      (page names).ofClass "file-item" := by
    rw [hofClass _ (by decide), Document.ofClass_append, ofClass_line, ofClass_listed]
    exact List.append_nil _
  have hcount : intText names.length = toString names.length := rfl
  refine ⟨?_, ⟨summaryTag, ?_⟩, ⟨listTag, _, hofClass _ (by decide), hinside⟩,
    hofClass _ (by decide)⟩
  · rw [hofClass _ (by decide)]
    exact List.forall₂_map_left_iff.2 (List.forall₂_same.2 fun name _ ↦ ⟨rfl, rfl⟩)
  · rw [← hcount]
    exact hofClass _ (by decide)

theorem showsNone_page : ShowsNone (page []) where
  message := ⟨⟨"div", [("class", .words ["no-files"]), (Mark.toggleable, .plain "showEmpty")]⟩,
    ofClass_pageWith (by decide)⟩
  noItems := ofClass_pageWith (by decide)
  noSummary := ofClass_pageWith (by decide)
  noList := ofClass_pageWith (by decide)

end IndexPage

namespace Service

variable {s : Service} {r : Request}

/-- A request for the page is handled by making it. -/
theorem answer_index (hverb : r.verb = "GET") (hroute : Route.ofPath? r.path = some .index)
    (time : Int) : s.answer time r = responseOf s.answerIndex.result := by
  rw [answer_eq hverb, handle_of_route hverb hroute s time]
  rfl

/-- Names that are all texts are answered with the page for these texts. -/
theorem answerIndex_of_texts {names : List String}
    (hnames : s.store.names s.tree = .ok (names.map FileName.ofText)) :
    s.answerIndex.result = .ok (.good .html (IndexPage.page names).print) := by
  obtain ⟨hfault, hvalue⟩ := IndexPage.bind_template names
  have hresult : (IndexPage.template.bind (IndexPage.input names)).result =
      .ok (IndexPage.page names) := by
    rw [Walk.result, hfault, hvalue]
  have htexts : (names.map FileName.ofText).mapM FileName.text? = some names :=
    FileName.mapM_text?_eq_some_iff.2 rfl
  rw [answerIndex, withNames, hnames]
  dsimp only
  rw [htexts]
  dsimp only
  rw [hresult]

/-- A name that is no text is answered with a failure. -/
theorem answerIndex_of_not_text {names : List FileName} (hnames : s.store.names s.tree = .ok names)
    {name : FileName} (hname : name ∈ names) (hnone : name.text? = none) :
    s.answerIndex.result = .error unwritable := by
  have htexts : names.mapM FileName.text? = none := by
    refine Option.eq_none_iff_forall_ne_some.2 fun texts htexts ↦ ?_
    rw [FileName.mapM_text?_eq_some_iff] at htexts
    obtain ⟨text, -, rfl⟩ := List.mem_map.1 (htexts ▸ hname)
    rw [FileName.text?_ofText] at hnone
    cases hnone
  rw [answerIndex, withNames, hnames]
  dsimp only
  rw [htexts]

/-- The page of saved inputs mirrors the store. Where the saved inputs cannot be listed, a request
for the page fails. Else the store lists their names; if one of them is no text, the request fails,
and if all are texts, it is answered with status 200 and a page for these. If there are some, there
are exactly as many listed inputs, in the same order, each showing its name and carrying it in the
call that a click makes; the summary tells their number, and there is no message for an empty store.
If there are none, there is the message, and neither list nor summary. -/
theorem index_mirrors_store (hverb : r.verb = "GET")
    (hroute : Route.ofPath? r.path = some .index) (time : Int) :
    (∀ fault, s.store.names s.tree = .error fault → s.answer time r = .failure) ∧
      (s.store.Orderly s.tree → ∃ names, s.store.Lists s.tree names ∧
        ((∃ name ∈ names, name.text? = none) → s.answer time r = .failure) ∧
        ∀ texts : List String, names = texts.map FileName.ofText →
          ∃ page, s.answer time r = .good .html (Document.print page) ∧
            (texts ≠ [] → IndexPage.ShowsAll page texts) ∧
            (texts = [] → IndexPage.ShowsNone page)) := by
  rw [answer_index hverb hroute]
  refine ⟨fun fault hfault ↦ ?_, fun hstore ↦ ?_⟩
  · rw [answerIndex, withNames, hfault]
    rfl
  obtain ⟨names, hnames⟩ := FormStore.exists_lists hstore
  refine ⟨names, hnames, ?_, ?_⟩
  · rintro ⟨name, hname, hnone⟩
    rw [answerIndex_of_not_text hnames.listed hname hnone]
    rfl
  · rintro texts rfl
    refine ⟨IndexPage.page texts, ?_, IndexPage.showsAll_page, ?_⟩
    · rw [answerIndex_of_texts hnames.listed]
      rfl
    · rintro rfl
      exact IndexPage.showsNone_page

/-- A service with two saved inputs and a note in its folder. -/
def shelfService : Service :=
  serviceBelow [("forms", .folder 0
    [("a<b>.json", .file 1 []), ("it's.JSON", .file 2 []), ("note.txt", .file 3 [])])]

/-- The two are shown, as their names are spelled. -/
theorem index_mirrors_store_shelfService :
    let asked : Request := ⟨"get", "/index", [], []⟩
    shelfService.store.Orderly shelfService.tree ∧ asked.verb = "GET" ∧
      Route.ofPath? asked.path = some .index ∧
      ∃ page, shelfService.answer 0 asked = .good .html (Document.print page) ∧
        IndexPage.ShowsAll page ["a<b>.json", "it's.JSON"] := by
  intro asked
  have hstore : shelfService.store.Orderly shelfService.tree := by decide +kernel
  have hverb : asked.verb = "GET" := by decide +kernel
  have hroute : Route.ofPath? asked.path = some .index := by decide +kernel
  obtain ⟨names, hlists, -, htexts⟩ := (index_mirrors_store hverb hroute 0).2 hstore
  have hsaved : shelfService.store.saved shelfService.tree =
      .ok [("a<b>.json", 1, []), ("it's.JSON", 2, [])] := by rfl
  obtain rfl := Except.ok.inj
    (hlists.listed.symm.trans (FormStore.names_of_saved hsaved (by decide +kernel)))
  obtain ⟨page, hanswer, hall, -⟩ := htexts ["a<b>.json", "it's.JSON"] rfl
  exact ⟨hstore, hverb, hroute, page, hanswer, hall (List.cons_ne_nil _ _)⟩

/-- The name of a saved input that begins with a byte which is part of no character. -/
def brokenName : FileName :=
  ⟨[0xFF, 0x2E, 0x6A, 0x73, 0x6F, 0x6E]⟩

/-- A saved input under such a name is listed, and no page is answered; no more is one where a file
stands in the place of the folder. -/
theorem not_index_mirrors_store_brokenName :
    let asked : Request := ⟨"get", "/index", [], []⟩
    let service := serviceBelow [("forms", .folder 0 [(brokenName, .file 1 [])])]
    let misplaced := serviceBelow [("forms", .file 1 [])]
    asked.verb = "GET" ∧ Route.ofPath? asked.path = some .index ∧
      service.store.Orderly service.tree ∧ service.store.names service.tree = .ok [brokenName] ∧
      service.answer 0 asked = .failure ∧ misplaced.answer 0 asked = .failure ∧
      Response.failure.status = 500 := by
  intro asked service misplaced
  exact ⟨by decide +kernel, by decide +kernel, by decide +kernel, by decide +kernel,
    by decide +kernel, by decide +kernel, rfl⟩

end Service

end MarkupBinding
