import MarkupBinding.Proofs.Service.Requests
import MarkupBinding.Proofs.Storage.Loading

/-!
# Requests for saved inputs stay in the folder

A path that begins like the address of a saved input names the route to one saved input, the route
to the list of them, or none: a line feed or slashes at its end do not take it elsewhere
(`Route.ofPath?_of_underForms`). Whatever is escaped in the target is decoded before a route is
looked for, so these are all the ways in which a request can get at a file by its name.

On all of them the service looks at its files through the store alone. Two trees that look the same
to the store get the same answer (`Service.answer_congr`), and an answer with status 200 is the text
of a file directly in the folder or the list of the saved inputs (`Service.answer_cases`).
`Service.forms_confined` puts this together with what the store does for every name. One name is not
confined: a single dot, where a file stands in the place of the folder (`Service.Exposes`).
-/

set_option autoImplicit false
set_option relaxedAutoImplicit false

namespace MarkupBinding

namespace Route

/-- Dropping from the front what passes leaves an end that begins with what does not pass. -/
theorem cons_suffix_dropWhile {α : Type} (drops : α → Bool) {a : α} {tail xs : List α}
    (ha : drops a = false) (h : a :: tail <:+ xs) : a :: tail <:+ xs.dropWhile drops := by
  induction xs with
  | nil => exact h
  | cons x xs ih =>
    rw [List.dropWhile_cons]
    by_cases hx : drops x = true
    · rw [if_pos hx]
      rcases List.suffix_cons_iff.1 h with heq | hrest
      · cases heq
        rw [ha] at hx
        cases hx
      · exact ih hrest
    · rw [if_neg hx]
      exact h

/-- The characters of the address of the folder of saved inputs. -/
def formsAddress : List Char :=
  ['/', 'f', 'o', 'r', 'm', 's']

/-- The path begins with the address of the folder of saved inputs. -/
def UnderForms (path : String) : Prop :=
  formsAddress <+: path.toList

theorem underForms_withoutLineFeed {path : String} (h : UnderForms path) :
    UnderForms (withoutLineFeed path) := by
  unfold withoutLineFeed
  split
  · next rest hrest =>
    have hpath : path.toList = rest.reverse ++ ['\n'] := by
      rw [← List.reverse_reverse path.toList, hrest, List.reverse_cons]
    unfold UnderForms at h ⊢
    rw [hpath, List.prefix_concat_iff] at h
    rw [String.toList_ofList]
    -- the address itself does not end in a line feed
    refine h.resolve_left fun hall ↦ ?_
    have hlast : formsAddress.getLast? = some '\n' := by rw [hall, List.getLast?_concat]
    exact absurd hlast (by decide)
  · exact h

/-- A path under the folder of saved inputs names no other route as it stands. -/
theorem strict?_of_underForms {path : String} (h : UnderForms path) {route : Route}
    (hroute : strict? path = some route) : route = forms ∨ ∃ name, route = form name := by
  unfold strict? at hroute
  split at hroute
  · next found hfound =>
    cases hroute
    have hfixed : ∀ entry ∈ fixed, formsAddress <+: entry.1.toList → entry.2 = forms := by
      decide
    exact .inl (hfixed _ (Keyed.mem_of_lookup hfound) (underForms_withoutLineFeed h))
  · unfold form? at hroute
    split at hroute
    · next name _ =>
      split at hroute
      · cases hroute
      · exact .inr ⟨String.ofList name, (Option.some.inj hroute).symm⟩
    · cases hroute

/-- A path under the folder of saved inputs names the route to the list of them or to one of them,
if any. -/
theorem ofPath?_of_underForms {path : String} (h : UnderForms path) {route : Route}
    (hroute : ofPath? path = some route) : route = forms ∨ ∃ name, route = form name := by
  unfold ofPath? at hroute
  split at hroute
  · next found hfound =>
    cases hroute
    exact strict?_of_underForms h hfound
  · split at hroute
    · next rest hrest =>
      refine strict?_of_underForms ?_ hroute
      have hsuffix : formsAddress.reverse <:+ '/' :: rest := by
        rw [← hrest, List.reverse_suffix]
        exact h
      have hrest' : formsAddress.reverse <:+ rest := by
        refine (List.suffix_cons_iff.1 hsuffix).resolve_left fun hall ↦ ?_
        have hhead : formsAddress.reverse.head? = some '/' := by rw [hall, List.head?_cons]
        exact absurd hhead (by decide)
      have hdropped := cons_suffix_dropWhile (· == '/') (by decide) hrest'
      unfold UnderForms
      rw [String.toList_ofList, ← List.reverse_suffix, List.reverse_reverse]
      exact hdropped
    · cases hroute

end Route

namespace Service

/-! ### Answers seen through the store -/

/-- The answer that lists saved inputs. -/
def listing (names : List String) : Response :=
  ⟨200, ContentKind.json.type, Json.write Json.compact (.object
    [("forms", .list (names.map .string)), ("total", .int names.length)])⟩

/-- The path of a request names a saved input by a single dot, which leads to a file in the place of
the folder. -/
def Exposes (s : Service) (r : Request) : Prop :=
  ∃ name, Route.ofPath? r.path = some (.form name) ∧ s.store.Exposed s.tree name

/-- Giving a saved input back looks at the files through the store alone. -/
theorem answerForm_congr {s : Service} {tree : FileTree}
    (h : s.store.view tree = s.store.view s.tree) {name : String}
    (hname : ¬ s.store.Exposed s.tree name) :
    ({ s with tree := tree }.answerForm name).result = (s.answerForm name).result := by
  have hload : { s with tree := tree }.store.load tree name = s.store.load s.tree name :=
    FormStore.load_congr h hname
  unfold answerForm
  rw [hload]
  rcases s.store.load s.tree name with fault | text
  · cases fault <;> rfl
  · dsimp only
    rcases decodeInput text with fault | data
    · cases fault <;> rfl
    · rfl

/-- Listing the saved inputs looks at the files through the store alone. -/
theorem answerForms_congr {s : Service} {tree : FileTree}
    (h : s.store.view tree = s.store.view s.tree) :
    { s with tree := tree }.answerForms.result = s.answerForms.result := by
  have hnames : { s with tree := tree }.store.names tree = s.store.names s.tree :=
    FormStore.names_congr h
  unfold answerForms withNames
  rw [hnames]
  rcases s.store.names s.tree with fault | names
  · rfl
  · dsimp only
    rcases names.mapM FileName.text? with - | texts <;> rfl

/-- How requests under the folder of saved inputs are handled, whatever the service: no route, the
list, or one saved input. -/
theorem handle_of_underForms {r : Request} (hverb : r.verb = "GET")
    (hunder : Route.UnderForms r.path) (time : Int) :
    (∀ s : Service, s.handle time r = s.answered (.error (.because 404 "Not Found"))) ∨
      (∀ s : Service, s.handle time r = s.answerForms) ∨
      ∃ name, Route.ofPath? r.path = some (.form name) ∧
        ∀ s : Service, s.handle time r = s.answerForm name := by
  have hoptions : r.verb ≠ "OPTIONS" := by
    rw [hverb]
    decide
  by_cases hnone : Route.ofPath? r.path = none
  · refine .inl fun s ↦ ?_
    rw [handle, sharing?_eq_none hoptions, hnone]
  · obtain ⟨route, hroute⟩ := Option.ne_none_iff_exists'.1 hnone
    rcases Route.ofPath?_of_underForms hunder hroute with rfl | ⟨name, rfl⟩
    · exact .inr (.inl fun s ↦ handle_of_route hverb hroute s time)
    · exact .inr (.inr ⟨name, hroute, fun s ↦ handle_of_route hverb hroute s time⟩)

/-- The response that a result stands for. -/
def responseOf : Except Refusal Response → Response
  | .ok response => response
  | .error refusal => refusal.response

/-- A request for content is answered with the result. -/
theorem answer_eq {r : Request} (hverb : r.verb = "GET") (s : Service) (time : Int) :
    s.answer time r = responseOf (s.handle time r).result := by
  have hhead : (r.verb == "HEAD") = false := by
    rw [hverb]
    rfl
  unfold answer respond
  simp only [hhead]
  rfl

/-- Files that the store does not see have no part in the answer to a request under its folder. -/
theorem answer_congr {s : Service} {r : Request} (hverb : r.verb = "GET")
    (hunder : Route.UnderForms r.path) (hexposes : ¬ s.Exposes r) (time : Int) {tree : FileTree}
    (h : s.store.view tree = s.store.view s.tree) :
    { s with tree := tree }.answer time r = s.answer time r := by
  rw [answer_eq hverb, answer_eq hverb]
  refine congrArg responseOf ?_
  rcases handle_of_underForms hverb hunder time with hnone | hlist | ⟨name, hroute, hform⟩
  · rw [hnone, hnone]
    rfl
  · rw [hlist, hlist]
    exact answerForms_congr h
  · rw [hform, hform]
    exact answerForm_congr h fun hname ↦ hexposes ⟨name, hroute, hname⟩

/-- The result of asking for a saved input is a refusal or the text in the store. -/
theorem result_answerForm_cases (s : Service) (name : String) :
    (∃ refusal, (s.answerForm name).result = .error refusal ∧ refusal.response.status ≠ 200) ∨
      ∃ text, (s.answerForm name).result = .ok (.good .json text) ∧
        s.store.load s.tree name = .ok text := by
  have hfailed : ∀ reason, (Refusal.failed reason).response.status ≠ 200 := fun _ ↦
    show (500 : Nat) ≠ 200 by decide
  have hbecause : ∀ {status : Nat} {detail : String}, status ≠ 200 →
      (Refusal.because status detail).response.status ≠ 200 := fun h ↦ h
  unfold answerForm
  split
  · exact .inl ⟨_, rfl, hbecause (by decide)⟩
  · exact .inl ⟨_, rfl, hfailed _⟩
  · exact .inl ⟨_, rfl, hfailed _⟩
  · exact .inl ⟨_, rfl, hbecause (by decide)⟩
  · next text hload =>
    split
    · exact .inr ⟨text, rfl, hload⟩
    · exact .inl ⟨_, rfl, hfailed _⟩
    · exact .inl ⟨_, rfl, hbecause (by decide)⟩

/-- The result of asking for the list is a refusal or the list. -/
theorem result_answerForms_cases (s : Service) :
    (∃ refusal, s.answerForms.result = .error refusal ∧ refusal.response.status ≠ 200) ∨
      ∃ names, s.answerForms.result = .ok (listing names) ∧
        s.store.names s.tree = .ok (names.map FileName.ofText) := by
  have hfailed : ∀ reason, (Refusal.failed reason).response.status ≠ 200 := fun _ ↦
    show (500 : Nat) ≠ 200 by decide
  unfold answerForms withNames
  split
  · exact .inl ⟨_, rfl, hfailed _⟩
  · next names hnames =>
    dsimp only
    split
    · exact .inl ⟨_, rfl, hfailed _⟩
    · next texts htexts =>
      rw [FileName.mapM_text?_eq_some_iff] at htexts
      dsimp only [answered, Response.json]
      split
      · exact .inr ⟨texts, rfl, hnames.trans (congrArg Except.ok htexts)⟩
      · exact .inl ⟨_, rfl, hfailed _⟩

/-- A request under the folder of saved inputs that is answered with status 200 gets text from the
store, or the list of saved inputs. -/
theorem answer_cases {s : Service} {r : Request} (hverb : r.verb = "GET")
    (hunder : Route.UnderForms r.path) (time : Int) (hstatus : (s.answer time r).status = 200) :
    (∃ name text, Route.ofPath? r.path = some (.form name) ∧
      s.answer time r = .good .json text ∧ s.store.load s.tree name = .ok text) ∨
      ∃ names, s.answer time r = listing names ∧
        s.store.names s.tree = .ok (names.map FileName.ofText) := by
  rw [answer_eq hverb] at hstatus ⊢
  rcases handle_of_underForms hverb hunder time with hnone | hlist | ⟨name, hroute, hform⟩
  · rw [hnone] at hstatus
    exact absurd hstatus (show (404 : Nat) ≠ 200 by decide)
  · rw [hlist] at hstatus ⊢
    rcases result_answerForms_cases s with ⟨refusal, hresult, hrefused⟩ | ⟨names, hresult, hnames⟩
    · rw [hresult] at hstatus
      exact absurd hstatus hrefused
    · exact .inr ⟨names, congrArg responseOf hresult, hnames⟩
  · rw [hform] at hstatus ⊢
    rcases result_answerForm_cases s name with ⟨refusal, hresult, hrefused⟩ | ⟨text, hresult, hload⟩
    · rw [hresult] at hstatus
      exact absurd hstatus hrefused
    · exact .inl ⟨name, text, hroute, congrArg responseOf hresult, hload⟩

/-- Loading a saved input is confined to the folder of the store. For every tree and every name:
exactly a name other than that of the input saved last that is empty or holds two dots in a row, a
slash or a backslash is refused as one that might lead out. Unless the name is a single dot and a
file stands in the place of the folder, a text that is loaded is that of a file directly in the
folder, of the file of the name unless the input saved last was asked for, and whatever differs in
another tree that looks the same to the store, the outcome is the same; in the place of the folder a
file is loaded under the dot. For every service and every request under the folder of saved inputs,
however its target is escaped, unless it asks for that file: nothing that the store does not see has
a part in the answer, and an answer with status 200 is the text of a file directly in the folder or
the list of the saved inputs. -/
theorem forms_confined (store : FormStore) (tree : FileTree) (name : FileName) (s : Service)
    (time : Int) (r : Request) :
    (((∃ bad, store.load tree name = .error (.badName bad)) ↔
        name ≠ FormStore.latestName ∧ FormStore.MayLeave name.shown) ∧
      (¬ store.Exposed tree name →
        (∀ text, store.load tree name = .ok text → ∃ found made bytes,
          store.HasFile tree found made bytes ∧ (name ≠ FormStore.latestName → found = name) ∧
            Text.Encoding.utf8.read bytes = .ok text) ∧
        ∀ tree', store.view tree' = store.view tree →
          store.load tree' name = store.load tree name) ∧
      ∀ made bytes, store.IsFile tree made bytes →
        store.load tree "." = (Text.Encoding.utf8.read bytes).mapError .unreadable) ∧
    (r.verb = "GET" → Route.UnderForms r.path → ¬ s.Exposes r →
      (∀ tree, s.store.view tree = s.store.view s.tree →
        { s with tree := tree }.answer time r = s.answer time r) ∧
      ((s.answer time r).status = 200 →
        (∃ found made bytes text, s.store.HasFile s.tree found made bytes ∧
          Text.Encoding.utf8.read bytes = .ok text ∧ s.answer time r = .good .json text) ∨
        ∃ names : List String, s.store.names s.tree = .ok (names.map FileName.ofText) ∧
          s.answer time r = listing names)) := by
  -- what is loaded is the text of a file in the folder, unless it is the one in its place
  have hinside : ∀ {store : FormStore} {tree : FileTree} {name : FileName} {text : String},
      ¬ store.Exposed tree name → store.load tree name = .ok text →
      ∃ found made bytes, store.HasFile tree found made bytes ∧
        (name ≠ FormStore.latestName → found = name) ∧
          Text.Encoding.utf8.read bytes = .ok text := by
    intro store tree name text hname hload
    obtain ⟨bytes, hread, ⟨found, made, hfile, hfound⟩ | ⟨hdot, made, hplace⟩⟩ :=
      FormStore.hasFile_of_load hload
    · exact ⟨found, made, bytes, hfile, hfound, hread⟩
    · exact absurd ⟨hdot, made, bytes, hplace⟩ hname
  refine ⟨⟨⟨?_, ?_⟩, fun hname ↦ ⟨fun text htext ↦ hinside hname htext,
    fun tree' hview ↦ FormStore.load_congr hview hname⟩,
    fun made bytes hplace ↦ FormStore.load_of_isFile hplace⟩, fun hverb hunder hexposes ↦
    ⟨fun tree hview ↦ answer_congr hverb hunder hexposes time hview, fun hstatus ↦ ?_⟩⟩
  · rintro ⟨bad, hbad⟩
    exact (FormStore.load_eq_badName_iff.1 hbad).2
  · intro hname
    exact ⟨name, FormStore.load_eq_badName_iff.2 ⟨rfl, hname⟩⟩
  · rcases answer_cases hverb hunder time hstatus with
      ⟨name, text, hroute, hanswer, hload⟩ | ⟨names, hanswer, hnames⟩
    · obtain ⟨found, made, bytes, hfile, -, hread⟩ :=
        hinside (fun hname ↦ hexposes ⟨name, hroute, hname⟩) hload
      exact .inl ⟨found, made, bytes, text, hfile, hread, hanswer⟩
    · exact .inr ⟨names, hnames, hanswer⟩

/-- A service below `/srv` with the given entries there; the folder of saved inputs is `forms`. -/
def serviceBelow (entries : List (FileName × Entry)) : Service where
  settings :=
    { templateLocation := ⟨"/", ["srv", "page.html"]⟩
      reader := Markup.readerName
      cacheTemplates := true
      includeEmpty := true
      formsFolder := ⟨"/", ["srv", "forms"]⟩
      logLevel := "INFO"
      logFolder := ⟨"", ["logs"]⟩ }
  tree := { folder := ⟨"/", ["srv"]⟩, top := .folder 0 [("srv", .folder 0 entries)] }
  source := .fresh ⟨"/", ["srv", "page.html"]⟩ Markup.readerName templateEncoding true
  indexRead := false
  ids := []

/-- A service with one saved input, and a file with the given bytes beside the folder of saved
inputs. -/
def lockedService (secret : List UInt8) : Service :=
  serviceBelow [("secret.json", .file 1 secret),
    ("forms", .folder 0 [("a.json", .file 2 [0x34, 0x32])])]

/-- The saved input is given back under an escaped name, whatever the file beside the folder holds;
the way up to that file is refused, and escaped in the target it leads nowhere. -/
theorem forms_confined_lockedService :
    let asked : Request := ⟨"get", "/forms/%61.json", [], []⟩
    let service := lockedService [0x31]
    asked.verb = "GET" ∧ Route.UnderForms asked.path ∧ ¬ service.Exposes asked ∧
      (service.answer 0 asked).status = 200 ∧
      { service with tree := (lockedService [0x32]).tree }.answer 0 asked = service.answer 0 asked ∧
      (∃ found made bytes, service.store.HasFile service.tree found made bytes ∧
        Text.Encoding.utf8.read bytes = .ok "42" ∧ service.answer 0 asked = .good .json "42") ∧
      (∃ bad, service.store.load service.tree "../secret.json" = .error (.badName bad)) ∧
      (service.answer 0 ⟨"get", "/forms/%2e%2e%2Fsecret.json", [], []⟩).status = 404 := by
  intro asked service
  have hverb : asked.verb = "GET" := by decide +kernel
  have hunder : Route.UnderForms asked.path := by
    have hpath : asked.path = "/forms/a.json" := by decide +kernel
    rw [hpath]
    exact ⟨"/a.json".toList, rfl⟩
  have hstatus : (service.answer 0 asked).status = 200 := by decide +kernel
  have hexposes : ¬ service.Exposes asked := by
    rintro ⟨name, -, -, time, bytes, hplace⟩
    cases hplace
  have hview : service.store.view (lockedService [0x32]).tree = service.store.view service.tree :=
    rfl
  obtain ⟨⟨hbad, -, -⟩, hrequest⟩ :=
    forms_confined service.store service.tree "../secret.json" service 0 asked
  obtain ⟨hsame, hcases⟩ := hrequest hverb hunder hexposes
  have hleaves : FormStore.MayLeave (FileName.ofText "../secret.json").shown := by
    rw [FileName.shown_ofText]
    exact .inr (.inl (by decide))
  refine ⟨hverb, hunder, hexposes, hstatus, hsame _ hview, ?_,
    hbad.2 ⟨by decide +kernel, hleaves⟩,
    by decide +kernel⟩
  have hbody : (service.answer 0 asked).body = "42" := by decide +kernel
  rcases hcases hstatus with ⟨found, made, bytes, text, hfile, hread, hanswer⟩ | ⟨names, -, hanswer⟩
  · obtain rfl : text = "42" := by rwa [hanswer] at hbody
    exact ⟨found, made, bytes, hfile, hread, hanswer⟩
  · -- a list is no number
    rw [hanswer] at hbody
    have hfirst := congrArg (·.toList.head?) hbody
    simp [listing, Json.write] at hfirst

/-- A file in the place of the folder of saved inputs, in which no file can be, is given back to a
request for the dot. -/
theorem not_forms_confined_misplacedService :
    let asked : Request := ⟨"get", "/forms/%2E", [], []⟩
    let service := serviceBelow [("forms", .file 1 [0x34, 0x32])]
    asked.verb = "GET" ∧ Route.UnderForms asked.path ∧
      service.answer 0 asked = .good .json "42" ∧
      service.store.load service.tree "." = .ok "42" ∧
      ¬ ∃ found made bytes, service.store.HasFile service.tree found made bytes := by
  intro asked service
  refine ⟨by decide +kernel, ?_, by decide +kernel, by decide +kernel, ?_⟩
  · have hpath : asked.path = "/forms/." := by decide +kernel
    rw [hpath]
    exact ⟨"/.".toList, rfl⟩
  · rintro ⟨found, made, bytes, _, entries, hfolder, -⟩
    cases hfolder

end Service

end MarkupBinding
