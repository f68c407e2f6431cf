import MarkupBinding.Proofs.Service.Requests

/-!
# Saved inputs are kept

Over every sequence of requests, and of changes made to the files from outside in between, a request
to save that is answered with status 200 adds exactly one file, under a new name of eight digits,
and no other request changes a file; and as long as nobody outside touches that file, asking for it
is answered with text of the same input document (`saved_inputs_kept`). One request keeps all files
and folders and the settings, and uses up the supply of identifiers from its front
(`respond_cases`), so what holds of a file after the request that added it holds after any number of
further ones (`read_run`).

The supply is a list, as long as a run needs it: what is drawn in a run of finitely many requests is
the beginning of any unending source, and a source that goes on to yield free identifiers is one of
which some beginning is enough.
-/

set_option autoImplicit false
set_option relaxedAutoImplicit false

namespace MarkupBinding.Service

/-- What can happen to the service and its files. -/
inductive Event where
  /-- A request at a time. -/
  | request (time : Int) (r : Request)
  /-- The files are changed from outside. -/
  | outside (tree : FileTree)

/-- The service after an event. -/
def step (s : Service) : Event → Service
  | .request time r => s.after time r
  | .outside tree => { s with tree := tree }

/-- The service after events in order. -/
def run (s : Service) (events : List Event) : Service :=
  events.foldl step s

/-- All identifiers of the supply are eight digits each. -/
def GoodSupply (s : Service) : Prop :=
  ∀ id ∈ s.ids, FormStore.isId id = true

instance (s : Service) : Decidable s.GoodSupply :=
  inferInstanceAs (Decidable (∀ id ∈ s.ids, FormStore.isId id = true))

/-- An event leaves the settings, and of the supply an end. -/
theorem step_keeps {s : Service} (hids : s.GoodSupply) (e : Event) :
    (s.step e).settings = s.settings ∧ (s.step e).GoodSupply := by
  cases e with
  | request time r =>
    obtain ⟨hkeeps, -⟩ := respond_cases hids time r
    exact ⟨hkeeps.settings, fun id hid ↦ hids id (hkeeps.ids.subset hid)⟩
  | outside tree => exact ⟨rfl, hids⟩

/-- Events leave the settings, and of the supply an end. -/
theorem run_keeps {s : Service} (hids : s.GoodSupply) (events : List Event) :
    (s.run events).settings = s.settings ∧ (s.run events).GoodSupply := by
  induction events generalizing s with
  | nil => exact ⟨rfl, hids⟩
  | cons e rest ih =>
    obtain ⟨hsettings, hgood⟩ := step_keeps hids e
    obtain ⟨hsettings', hgood'⟩ := ih hgood
    exact ⟨hsettings'.trans hsettings, hgood'⟩

/-- A file that is not touched from outside is read as before. -/
theorem read_run {s : Service} (hids : s.GoodSupply) {l : Location} {bytes : List UInt8}
    (hread : s.tree.read l = .ok bytes) {events : List Event}
    (houtside : ∀ tree, .outside tree ∈ events → tree.read l = .ok bytes) :
    (s.run events).tree.read l = .ok bytes := by
  induction events generalizing s with
  | nil => exact hread
  | cons e rest ih =>
    refine ih (step_keeps hids e).2 ?_ fun tree h ↦ houtside tree (List.mem_cons_of_mem _ h)
    cases e with
    | request time r => exact (respond_cases hids time r).1.tree.read hread
    | outside tree => exact houtside tree List.mem_cons_self

/-- A request that is not a save answered with status 200 changes no file. A save answered with
status 200 adds exactly the file of its body, under a name of eight digits and the suffix at which
nothing was, and for as long as the file is not touched from outside, a request for it is answered
with status 200 and text of the same input document. -/
theorem saved_inputs_kept {s : Service} (hids : s.GoodSupply) (before : List Event) (time : Int)
    (r : Request) :
    let now := s.run before
    let next := now.after time r
    (¬ (r.IsSave ∧ (now.answer time r).status = 200) → now.tree.SameFiles next.tree) ∧
      (r.IsSave ∧ (now.answer time r).status = 200 → ∃ id data,
        FormStore.isId id = true ∧ now.answer time r = savedAs (FormStore.fileName id) ∧
          now.Saved next time r id data ∧
          ∀ later : List Event,
            (∀ tree, .outside tree ∈ later →
              tree.read (now.fileOf id) = next.tree.read (now.fileOf id)) →
            ∀ (time' : Int) (g : Request), g.verb = "GET" →
              g.target = Request.formTarget (FormStore.fileName id) →
              ∃ kept, (next.run later).answer time' g = .good .json kept ∧
                decodeInput kept = .ok data) := by
  intro now next
  have hnow : now.GoodSupply := (run_keeps hids before).2
  obtain ⟨hkeeps, hother, hsave⟩ := respond_cases hnow time r
  refine ⟨hother, fun h ↦ ?_⟩
  obtain ⟨id, data, hanswer, hsaved⟩ := hsave h
  obtain ⟨taken, hsupply, -⟩ := hsaved.supply
  obtain ⟨text, -, hdata, hadds⟩ := hsaved.file
  have hid : FormStore.isId id = true := hnow id (by rw [hsupply]; simp)
  refine ⟨id, data, hid, hanswer, hsaved, fun later houtside time' g hverb htarget ↦ ?_⟩
  have hnext : next.GoodSupply := fun other h ↦ hnow other (hkeeps.ids.subset h)
  have hread : next.tree.read (now.fileOf id) = .ok (Text.utf8Encode text) := hadds.read
  have hlater := read_run hnext hread fun tree h ↦ (houtside tree h).trans hread
  have hsettings : (next.run later).settings = now.settings :=
    (run_keeps hnext later).1.trans hkeeps.settings
  have hfile : (next.run later).fileOf id = now.fileOf id := by
    simp only [fileOf, store, hsettings]
  rw [← hfile] at hlater
  exact answer_formTarget hid hlater hdata time' hverb htarget

/-- A service below `/srv` whose source of identifiers yields the first one twice. -/
def noteService : Service where
  settings :=
    { templateLocation := ⟨"/", ["srv", "page.html"]⟩
      reader := Markup.readerName
      cacheTemplates := true
      includeEmpty := true
      formsFolder := ⟨"/", ["srv", "forms"]⟩
      logLevel := "INFO"
      logFolder := ⟨"", ["logs"]⟩ }
  tree := .empty ⟨"/", ["srv"]⟩
  source := .fresh ⟨"/", ["srv", "page.html"]⟩ Markup.readerName templateEncoding true
  indexRead := false
  ids := ["0a1b2c3d", "0a1b2c3d", "deadbeef"]

/-- A request that saves a text. -/
def saveRequest (text : String) : Request :=
  ⟨"post", "/save", [], Text.utf8Encode text⟩

/-- A list of two numbers, with line ends of both kinds around the second. -/
def windowsList : String := "[1,\r\n2]\r"

/-- The first save takes the first identifier. -/
def firstSave : List Event := [.request 1 (saveRequest "\x7b\"a\": true\x7d")]

/-- The service after the second save, of the list. -/
def listSaved : Service :=
  (noteService.run firstSave).after 2 (saveRequest windowsList)

/-- A note put beside the saved inputs from outside, and a save for which no identifier is left. -/
def afterwards : List Event :=
  [.outside ((listSaved.tree.write ⟨"/", ["srv", "forms", "note.txt"]⟩ 3 [0x6F, 0x6B]).toOption.getD
      listSaved.tree),
    .request 4 (saveRequest "0")]

/-- The list is saved under the first identifier not taken, and after a note was put beside it and
another save failed, asking for it gives the list, with other line ends. -/
theorem saved_inputs_kept_windowsList :
    noteService.GoodSupply ∧ (saveRequest windowsList).IsSave ∧
      ((noteService.run firstSave).answer 2 (saveRequest windowsList)).status = 200 ∧
      ∃ kept,
        (listSaved.run afterwards).answer 5 ⟨"get", "/forms/deadbeef.json", [], []⟩ =
          .good .json kept ∧
        decodeInput kept = .ok (.list [.int 1, .int 2]) := by
  have hids : noteService.GoodSupply := by decide
  have hsave : (saveRequest windowsList).IsSave := by
    constructor <;> decide +kernel
  have hstatus : ((noteService.run firstSave).answer 2 (saveRequest windowsList)).status = 200 := by
    decide +kernel
  obtain ⟨id, data, hid, -, ⟨⟨taken, hsupply, -⟩, text, htext, hdata, -⟩, hlater⟩ :=
    (saved_inputs_kept hids firstSave 2 (saveRequest windowsList)).2 ⟨hsave, hstatus⟩
  obtain rfl : id = "deadbeef" := by
    have hbefore : (noteService.run firstSave).ids = ["0a1b2c3d", "deadbeef"] := by decide +kernel
    have hafter : ((noteService.run firstSave).after 2 (saveRequest windowsList)).ids = [] := by
      decide +kernel
    rw [hbefore, hafter] at hsupply
    simpa using (congrArg List.getLast? hsupply).symm
  have hlist : decodeInput windowsList = .ok (.list [.int 1, .int 2]) := by
    have hchars : windowsList.toList = ['[', '1', ',', '\r', '\n', '2', ']', '\r'] := by decide
    rw [decodeInput, Json.parse, Text.isBlankText, hchars]
    rfl
  have hbody : text = windowsList :=
    Except.ok.inj (htext.symm.trans (Text.utf8Decode_utf8Encode windowsList))
  rw [hbody, hlist] at hdata
  cases hdata
  refine ⟨hids, hsave, hstatus, hlater afterwards (fun tree htree ↦ ?_) 5
    ⟨"get", "/forms/deadbeef.json", [], []⟩ (by decide +kernel) (by decide +kernel)⟩
  have hnoted : tree = (listSaved.tree.write ⟨"/", ["srv", "forms", "note.txt"]⟩ 3
      [0x6F, 0x6B]).toOption.getD listSaved.tree := by
    simpa [afterwards] using htree
  rw [hnoted]
  decide +kernel

end MarkupBinding.Service
