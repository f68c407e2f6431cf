import Mathlib.Data.List.TakeWhile
import MarkupBinding.Service.Route
import MarkupBinding.Proofs.Expression.Written
import MarkupBinding.Proofs.Json.LineEnds
import MarkupBinding.Proofs.Storage.Saving

/-!
# What requests change

Only a request to save touches the files of the service and its supply of identifiers: every other
answer hands the service on with at most another template source and the mark that the page of saved
inputs was read (`handleRoute_sameStore`). A request to save is answered with status 200 exactly
when it adds a file (`answerSave_cases`, `respond_cases`). A request for a saved input reaches the
store under its name, since nothing in the name is escaped or cut off on the way
(`Request.path_formTarget`, `Route.ofPath?_formTarget`), and gets text of the document in the file
(`answer_formTarget`).
-/

set_option autoImplicit false
set_option relaxedAutoImplicit false

namespace MarkupBinding

namespace Service

/-- The files, the supply of identifiers and the settings are the same. -/
structure SameStore (s s' : Service) : Prop where
  tree : s'.tree = s.tree
  ids : s'.ids = s.ids
  settings : s'.settings = s.settings

theorem SameStore.refl (s : Service) : s.SameStore s :=
  ⟨rfl, rfl, rfl⟩

theorem SameStore.trans {s t u : Service} (h : s.SameStore t) (h' : t.SameStore u) :
    s.SameStore u :=
  ⟨h'.tree.trans h.tree, h'.ids.trans h.ids, h'.settings.trans h.settings⟩

/-! ### Answers that leave the store alone -/

theorem refuseFault_sameStore (s : Service) (notices : List Notice) (fault : UseFault) :
    s.SameStore (s.refuseFault notices fault).service := by
  rw [refuseFault]
  split <;> exact .refl s

/-- Using the template changes nothing that what follows does not change. -/
theorem withUse_sameStore {α : Type} {next : Service → α → Handled}
    (hnext : ∀ s a, SameStore s (next s a).service) (s : Service) (u : TemplateUse α) :
    s.SameStore (s.withUse u next).service := by
  have hsource : s.SameStore { s with source := u.source } := ⟨rfl, rfl, rfl⟩
  rw [withUse]
  split
  · exact hsource.trans (refuseFault_sameStore _ _ _)
  · exact hsource.trans (hnext _ _)

theorem withSchema_sameStore {next : Service → Schema → Handled}
    (hnext : ∀ s schema, SameStore s (next s schema).service) (s : Service) :
    s.SameStore (s.withSchema next).service := by
  refine withUse_sameStore (fun s schema ↦ ?_) s _
  rcases schema with - | schema
  · exact .refl s
  · exact hnext s schema

theorem answerMarkup_sameStore (s : Service) (data : Value) :
    s.SameStore (s.answerMarkup data).service :=
  withUse_sameStore (fun s _ ↦ .refl s) s _

theorem answerTyped_sameStore (s : Service) (input : Value) :
    s.SameStore (s.answerTyped input).service := by
  refine withSchema_sameStore (fun s schema ↦ ?_) s
  split
  · exact answerMarkup_sameStore s _
  · exact .refl s

theorem refusePayload_sameStore (s : Service) (fault : PayloadFault) :
    s.SameStore (s.refusePayload fault).service := by
  rw [refusePayload.eq_def]
  split <;> exact .refl s

theorem answerRender_sameStore (s : Service) (r : Request) :
    s.SameStore (s.answerRender r).service := by
  rw [answerRender]
  split
  · exact refusePayload_sameStore s _
  · split
    · exact .refl s
    · split
      · exact refuseFault_sameStore s _ _
      · split
        · exact answerTyped_sameStore s _
        · exact answerMarkup_sameStore s _

theorem withNames_sameStore {s : Service} {next : List FileName → Handled}
    (hnext : ∀ names, s.SameStore (next names).service) :
    s.SameStore (s.withNames next).service := by
  rw [withNames]
  split
  · exact .refl s
  · exact hnext _

theorem answerIndex_sameStore (s : Service) : s.SameStore s.answerIndex.service := by
  refine withNames_sameStore fun names ↦ ?_
  have hread : s.SameStore { s with indexRead := true } := ⟨rfl, rfl, rfl⟩
  dsimp only
  split
  · exact hread
  · split
    · exact hread
    · exact hread.trans (refuseFault_sameStore _ _ _)

theorem answerForms_sameStore (s : Service) : s.SameStore s.answerForms.service := by
  refine withNames_sameStore fun names ↦ ?_
  split <;> exact .refl s

theorem answerForm_sameStore (s : Service) (name : String) :
    s.SameStore (s.answerForm name).service := by
  rw [answerForm]
  split
  · exact .refl s
  · exact .refl s
  · exact .refl s
  · exact .refl s
  · split <;> exact .refl s

/-- Only the route of saving changes the files and the supply. -/
theorem handleRoute_sameStore {route : Route} (h : route ≠ .save) (s : Service) (time : Int)
    (r : Request) : s.SameStore (s.handleRoute time r route).service := by
  cases route with
  | liveness => exact .refl s
  | health => exact .refl s
  | render => exact answerRender_sameStore s r
  | schema => exact withSchema_sameStore (fun s _ ↦ .refl s) s
  | recordSource => exact withSchema_sameStore (fun s _ ↦ .refl s) s
  | index => exact answerIndex_sameStore s
  | forms => exact answerForms_sameStore s
  | form name => exact answerForm_sameStore s name
  | save => exact absurd rfl h

/-! ### Saving -/

/-- The location of the input saved under an identifier. -/
def fileOf (s : Service) (id : String) : Location :=
  s.store.folder.child (FormStore.fileName id)

/-- The body of the request is an input document, and between the two states of the service exactly
its file was added, under an identifier of the supply. Identifiers in front of it name something
that is there; they and the identifier itself are used up. -/
structure Saved (s s' : Service) (time : Int) (r : Request) (id : String) (data : Value) :
    Prop where
  supply : ∃ taken, s.ids = taken ++ id :: s'.ids ∧
    ∀ other ∈ taken, s'.tree.has (s.fileOf other) = true
  file : ∃ text, Text.utf8Decode r.body = .ok text ∧ decodeInput text = .ok data ∧
    s.tree.AddsFile s'.tree (s.fileOf id) time (Text.utf8Encode text)

/-- The answer to a saved input. -/
def savedAs (name : String) : Response :=
  ⟨200, ContentKind.json.type, Json.write Json.compact (.object [("filename", .string name),
    ("message", .string ("Form data saved successfully as " ++ name))])⟩

/-- What a request leaves of the store: the settings, all files and folders, and an end of the
supply. -/
structure Keeps (s s' : Service) : Prop where
  settings : s'.settings = s.settings
  tree : s.tree.Kept s'.tree
  ids : s'.ids <:+ s.ids

theorem SameStore.keeps {s s' : Service} (h : s.SameStore s') : s.Keeps s' :=
  ⟨h.settings, h.tree ▸ .refl _, h.ids ▸ List.suffix_rfl⟩

/-- A request to save is answered with another status than 200 and changes no file, or it carries an
input document that is saved. -/
theorem answerSave_cases {s : Service} (hids : ∀ id ∈ s.ids, FormStore.isId id = true) (time : Int)
    (r : Request) :
    s.Keeps (s.answerSave time r).service ∧
      ((∃ refusal, (s.answerSave time r).result = .error refusal ∧ refusal.response.status ≠ 200 ∧
          s.tree.SameFiles (s.answerSave time r).service.tree) ∨
        ∃ id data, (s.answerSave time r).result = .ok (savedAs (FormStore.fileName id)) ∧
          s.Saved (s.answerSave time r).service time r id data) := by
  have hsame : s.tree.SameFiles s.tree := fun _ ↦ rfl
  have hkeeps : s.Keeps s := (SameStore.refl s).keeps
  have hinput : ∀ detail, (Refusal.because 400 detail).response.status ≠ 200 := fun _ ↦
    show (400 : Nat) ≠ 200 by decide
  have hfailed : ∀ reason, (Refusal.failed reason).response.status ≠ 200 := fun _ ↦
    show (500 : Nat) ≠ 200 by decide
  have hstore : ∀ detail, (Refusal.because 500 detail).response.status ≠ 200 := fun _ ↦
    show (500 : Nat) ≠ 200 by decide
  rw [answerSave]
  split
  · exact ⟨hkeeps, .inl ⟨_, rfl, hinput _, hsame⟩⟩
  next text htext =>
  split
  · exact ⟨hkeeps, .inl ⟨_, rfl, hfailed _, hsame⟩⟩
  · exact ⟨hkeeps, .inl ⟨_, rfl, hinput _, hsame⟩⟩
  next data hdata =>
  obtain ⟨hkept, hsuffix, hsaving⟩ :=
    FormStore.save_cases hids (rfl : s.store.save s.tree time s.ids text = _)
  rcases hsaving with ⟨fault, hfault, hfiles, -⟩ | ⟨taken, id, hsupply, hname, htaken, hadds⟩
  · simp only [hfault]
    exact ⟨⟨rfl, hkept, hsuffix⟩, .inl ⟨_, rfl, hstore _, hfiles⟩⟩
  · simp only [hname]
    exact ⟨⟨rfl, hkept, hsuffix⟩,
      .inr ⟨id, data, rfl, ⟨taken, hsupply, htaken⟩, text, htext, hdata, hadds⟩⟩

/-! ### Handling a request -/

/-- Only the question of pages of other origins is answered before the routes. -/
theorem sharing?_eq_none {r : Request} (h : r.verb ≠ "OPTIONS") : sharing? r = none := by
  rw [sharing?, beq_false_of_ne h]

/-- A request for a route is handled by the route. -/
theorem handle_of_route {r : Request} {route : Route} (hverb : r.verb = route.method)
    (hroute : Route.ofPath? r.path = some route) (s : Service) (time : Int) :
    s.handle time r = s.handleRoute time r route := by
  have hoptions : r.verb ≠ "OPTIONS" := by
    rw [hverb, Route.method.eq_def]
    split <;> decide
  rw [handle, sharing?_eq_none hoptions, hroute]
  simp only [hverb, beq_self_eq_true, if_true]

end Service

/-- The request asks for its body to be saved. -/
def Request.IsSave (r : Request) : Prop :=
  r.verb = "POST" ∧ Route.ofPath? r.path = some .save

namespace Service

/-- A request that does not ask to save something changes neither the files nor the supply. -/
theorem handle_sameStore {r : Request} (h : ¬ r.IsSave) (s : Service) (time : Int) :
    s.SameStore (s.handle time r).service := by
  rw [handle]
  split
  · exact .refl s
  · split
    · exact .refl s
    · next route hroute =>
      split
      · next hverb =>
        refine handleRoute_sameStore ?_ s time r
        rintro rfl
        exact h ⟨eq_of_beq hverb, hroute⟩
      · exact .refl s

/-- The answer to a request. -/
def answer (s : Service) (time : Int) (r : Request) : Response :=
  (s.respond time r).2.2

/-- The service after a request. -/
def after (s : Service) (time : Int) (r : Request) : Service :=
  (s.respond time r).1

/-- A request to save is answered with status 200 exactly when it saves its body, and no other
request changes a file. -/
theorem respond_cases {s : Service} (hids : ∀ id ∈ s.ids, FormStore.isId id = true) (time : Int)
    (r : Request) :
    s.Keeps (s.after time r) ∧
      (¬ (r.IsSave ∧ (s.answer time r).status = 200) → s.tree.SameFiles (s.after time r).tree) ∧
      (r.IsSave ∧ (s.answer time r).status = 200 → ∃ id data,
        s.answer time r = savedAs (FormStore.fileName id) ∧
          s.Saved (s.after time r) time r id data) := by
  by_cases hsave : r.IsSave
  · have hhandle : s.handle time r = s.answerSave time r :=
      handle_of_route hsave.1 hsave.2 s time
    have hafter : s.after time r = (s.answerSave time r).service := congrArg (·.service) hhandle
    have hhead : (r.verb == "HEAD") = false := by rw [hsave.1]; rfl
    obtain ⟨hkeeps, hcases⟩ := answerSave_cases hids time r
    rw [hafter]
    refine ⟨hkeeps, ?_⟩
    rcases hcases with ⟨refusal, hresult, hstatus, hfiles⟩ | ⟨id, data, hresult, hsaved⟩
    · have hanswer : s.answer time r = refusal.response := by
        simp only [answer, respond, hhandle, hresult, hhead]
        rfl
      rw [hanswer]
      exact ⟨fun _ ↦ hfiles, fun h ↦ absurd h.2 hstatus⟩
    · have hanswer : s.answer time r = savedAs (FormStore.fileName id) := by
        simp only [answer, respond, hhandle, hresult, hhead]
        rfl
      rw [hanswer]
      exact ⟨fun h ↦ absurd ⟨hsave, rfl⟩ h, fun _ ↦ ⟨id, data, rfl, hsaved⟩⟩
  · have hsame : s.SameStore (s.after time r) := handle_sameStore hsave s time
    refine ⟨hsame.keeps, fun _ way ↦ ?_, fun h ↦ absurd h.1 hsave⟩
    rw [hsame.tree]

end Service

/-! ### Asking for a saved input -/

namespace Request

/-- The address of a saved input. -/
def formTarget (name : String) : String :=
  "/forms/" ++ name

theorem toList_formTarget (name : String) :
    (formTarget name).toList = ['/', 'f', 'o', 'r', 'm', 's', '/'] ++ name.toList := by
  rw [formTarget, String.toList_append]
  rfl

/-- A character that is neither in a name nor in the address of the folder. -/
theorem not_mem_formTarget {id : String} (hid : FormStore.isId id = true) {c : Char}
    (hc : Text.hexValue? c = none)
    (hplain : c ∉ ['/', 'f', 'o', 'r', 'm', 's', '/', '.', 'j', 's', 'o', 'n']) :
    c ∉ (formTarget (FormStore.fileName id)).toList := by
  rw [toList_formTarget, List.mem_append, not_or]
  refine ⟨fun h ↦ hplain (List.mem_append_left ['.', 'j', 's', 'o', 'n'] h), ?_⟩
  exact FormStore.not_mem_fileName hid hc fun h ↦
    hplain (List.mem_append_right ['/', 'f', 'o', 'r', 'm', 's', '/'] h)

/-- The path of a request for a saved input is the address of that input. -/
theorem path_formTarget {r : Request} {id : String} (hid : FormStore.isId id = true)
    (htarget : r.target = formTarget (FormStore.fileName id)) :
    r.path = formTarget (FormStore.fileName id) := by
  have hwhole : ∀ {c : Char}, Text.hexValue? c = none →
      c ∉ ['/', 'f', 'o', 'r', 'm', 's', '/', '.', 'j', 's', 'o', 'n'] →
      (formTarget (FormStore.fileName id)).toList.takeWhile (· != c) =
        (formTarget (FormStore.fileName id)).toList := fun {c} hc hplain ↦ by
    refine List.takeWhile_eq_self_iff.2 fun d hd ↦ ?_
    simpa using fun h : d = c ↦ not_mem_formTarget hid hc hplain (h ▸ hd)
  rw [path, address, htarget, hwhole (c := '#') rfl (by decide), hwhole (c := '?') rfl (by decide),
    String.ofList_toList]
  exact Text.percentDecode_of_not_mem (not_mem_formTarget hid rfl (by decide))

end Request

/-- The path of a saved input names the route to it. -/
theorem Route.ofPath?_formTarget {id : String} (hid : FormStore.isId id = true) :
    ofPath? (Request.formTarget (FormStore.fileName id)) = some (form (FormStore.fileName id)) := by
  have hend : ∃ rest,
      (Request.formTarget (FormStore.fileName id)).toList.reverse = 'n' :: rest := by
    rw [Request.toList_formTarget, FormStore.toList_fileName, ← List.append_assoc,
      List.reverse_append]
    exact ⟨_, rfl⟩
  have hfeed : withoutLineFeed (Request.formTarget (FormStore.fileName id)) =
      Request.formTarget (FormStore.fileName id) := by
    obtain ⟨rest, hrest⟩ := hend
    rw [withoutLineFeed, hrest]
    rfl
  have hlong : (Request.formTarget (FormStore.fileName id)).toList.length = 20 := by
    rw [Request.toList_formTarget, List.length_append, FormStore.length_fileName hid]
    rfl
  -- No fixed path is as long as the address of a saved input.
  have hfixed : fixed.lookup (Request.formTarget (FormStore.fileName id)) = none := by
    refine List.lookup_eq_none_iff.2 fun entry hentry ↦ bne_iff_ne.2 fun h ↦ ?_
    have hshort : entry.1.toList.length < 20 :=
      (by decide : ∀ entry ∈ fixed, entry.1.toList.length < 20) entry hentry
    rw [← h, hlong] at hshort
    exact Nat.lt_irrefl _ hshort
  have hslash : (FormStore.fileName id).toList.contains '/' = false :=
    FormStore.contains_fileName_eq_false hid rfl (by decide)
  have hform : form? (Request.formTarget (FormStore.fileName id)) =
      some (form (FormStore.fileName id)) := by
    have hbehind : Text.after? "/forms/".toList
        (Request.formTarget (FormStore.fileName id)).toList =
          some (FormStore.fileName id).toList :=
      Text.after?_eq_some_iff.2 (Request.toList_formTarget _)
    rw [form?, hbehind]
    simp only [FormStore.isEmpty_fileName, hslash, Bool.or_self, Bool.false_eq_true, if_false,
      String.ofList_toList]
  rw [ofPath?, strict?, hfeed, hfixed, hform]

/-- A file of the store that holds an input document is loaded as text of the same document. -/
theorem FormStore.load_fileName {s : FormStore} {t : FileTree} {id text : String} {data : Value}
    (hid : isId id = true)
    (hread : t.read (s.folder.child (fileName id)) = .ok (Text.utf8Encode text))
    (hdata : decodeInput text = .ok data) :
    ∃ kept, s.load t (fileName id) = .ok kept ∧ decodeInput kept = .ok data := by
  obtain ⟨kept, hkept, hsame⟩ := decodeInput_of_file hdata
  have hlatest : (FileName.ofText (fileName id) == FileName.ofText latestName) = false :=
    beq_false_of_ne (mt FileName.ofText_injective (fileName_ne hid (by decide)))
  have hbytes : s.bytesOf t (fileName id) = .ok (Text.utf8Encode text) := by
    rw [FileTree.read] at hread
    rw [bytesOf, hlatest, isBadName_fileName hid]
    split at hread
    · cases hread
    · cases hread
    · next hfind =>
      cases hread
      simp only [Bool.false_eq_true, if_false, hfind]
  refine ⟨kept, ?_, hsame⟩
  have hreadable : (Text.Encoding.utf8.read (Text.utf8Encode text)).mapError
      FormFault.unreadable = .ok kept := by
    rw [hkept]
    rfl
  rw [load, hbytes]
  exact hreadable

/-- A request for a saved input whose file holds an input document is answered with text of the same
document. -/
theorem Service.answer_formTarget {s : Service} {id text : String} {data : Value}
    (hid : FormStore.isId id = true)
    (hread : s.tree.read (s.fileOf id) = .ok (Text.utf8Encode text))
    (hdata : decodeInput text = .ok data) (time : Int) {r : Request} (hverb : r.verb = "GET")
    (htarget : r.target = Request.formTarget (FormStore.fileName id)) :
    ∃ kept, s.answer time r = .good .json kept ∧ decodeInput kept = .ok data := by
  obtain ⟨kept, hload, hkept⟩ := FormStore.load_fileName (s := s.store) hid hread hdata
  have hroute : Route.ofPath? r.path = some (.form (FormStore.fileName id)) := by
    rw [Request.path_formTarget hid htarget]
    exact Route.ofPath?_formTarget hid
  have hhandle := handle_of_route hverb hroute s time
  have hresult : (s.handle time r).result = .ok (.good .json kept) := by
    rw [hhandle, handleRoute, answerForm, hload]
    simp only [hkept]
    rfl
  have hhead : (r.verb == "HEAD") = false := by rw [hverb]; rfl
  refine ⟨kept, ?_, hkept⟩
  simp only [answer, respond, hresult, hhead]
  rfl

end MarkupBinding
