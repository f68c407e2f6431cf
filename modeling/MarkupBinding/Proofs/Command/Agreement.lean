import MarkupBinding.Command.Run
import MarkupBinding.Proofs.Json.RoundTrip
import MarkupBinding.Proofs.Schema.Inference
import MarkupBinding.Proofs.Schema.RoundTrip
import MarkupBinding.Proofs.Service.Requests
import MarkupBinding.Proofs.Storage.Writing
import MarkupBinding.Proofs.Template.Caching

/-!
# The commands and the service agree

The command for schemas writes a file, the command for record types reads that file and writes the
source text of the types, and the service answers with the source text straight from the template.
Both give the same text (`Command.commands_agree_with_service`). The schema that goes the long way
is turned into a document, the document into characters and bytes, and back again: the names in the
schema of a template are distinct (`Document.wellKeyed_extract`), so its document has distinct keys
at every depth (`Schema.plain_toDocument`), such a document is read back from its indented text
(`Json.parse_writeDocument`), and the schema from the document (`Schema.ofDocument_toDocument`).
-/

set_option autoImplicit false
set_option relaxedAutoImplicit false

namespace MarkupBinding

/-! ### Documents of schemas -/

namespace Component

open Json (Plain)

theorem keys_entries_nodup (c : Component) : (Keyed.keys c.entries).Nodup := by
  obtain ⟨properties, components, array, itemName⟩ := c
  cases itemName <;> simp [entries, itemEntry, Keyed.keys]

/-- The document of a component with distinct names has distinct keys at every depth. -/
theorem plain_entries (c : Component) :
    c.WellKeyed → ∀ entry ∈ c.entries, Plain entry.2 := by
  induction c using induction_on_components with
  | step properties components array itemName ih =>
    intro h
    obtain ⟨hproperties, hcomponents, hbelow⟩ := wellKeyed_iff.1 h
    have hpropertiesValue : Plain (propertiesValue properties) := by
      refine .object ?_ fun entry hentry ↦ ?_
      · rw [Keyed.keys, List.map_map]
        exact hproperties
      · obtain ⟨property, -, rfl⟩ := List.mem_map.1 hentry
        exact .string property.2
    have hnested : Plain (.object (allEntries components)) := by
      rw [allEntries_eq_map]
      refine .object ?_ fun entry hentry ↦ ?_
      · rw [Keyed.keys, List.map_map]
        exact hcomponents
      · obtain ⟨pair, hpair, rfl⟩ := List.mem_map.1 hentry
        exact .object (keys_entries_nodup pair.2) (ih pair hpair (hbelow pair hpair))
    intro entry hentry
    rcases List.mem_append.1 hentry with hparts | hitem
    · simp only [List.mem_cons, List.not_mem_nil, or_false] at hparts
      rcases hparts with rfl | rfl | rfl
      · exact hpropertiesValue
      · exact hnested
      · exact .bool array
    · cases itemName with
      | none => cases hitem
      | some item =>
        obtain rfl := List.mem_singleton.1 hitem
        exact .string item

end Component

/-- The document of a schema with distinct names has distinct keys at every depth. -/
theorem Schema.plain_toDocument {s : Schema} (h : s.root.WellKeyed) : Json.Plain s.toDocument := by
  have htoggles : ∀ entry ∈ toggleEntry s.toggles,
      entry = ("toggles", Value.list (s.toggles.map .string)) := by
    intro entry hentry
    unfold toggleEntry at hentry
    split at hentry
    · cases hentry
    · exact List.mem_singleton.1 hentry
  have hkeys : (Keyed.keys (s.root.entries ++ toggleEntry s.toggles)).Nodup := by
    rw [Keyed.keys_append]
    refine List.nodup_append.2 ⟨s.root.keys_entries_nodup, ?_, fun key hkey other hother ↦ ?_⟩
    · unfold toggleEntry
      split <;> simp [Keyed.keys]
    · obtain ⟨entry, hentry, rfl⟩ := List.mem_map.1 hother
      have hentryKey : entry.1 = "toggles" := congrArg Prod.fst (htoggles entry hentry)
      rw [hentryKey]
      rintro rfl
      exact absurd (s.root.keys_entries_subset hkey) (by decide)
  have hbody : Json.Plain (.object (s.root.entries ++ toggleEntry s.toggles)) := by
    refine .object hkeys fun entry hentry ↦ ?_
    rcases List.mem_append.1 hentry with hroot | htoggle
    · exact s.root.plain_entries h entry hroot
    · rw [htoggles entry htoggle]
      refine .list fun v hv ↦ ?_
      obtain ⟨flag, -, rfl⟩ := List.mem_map.1 hv
      exact .string flag
  rw [toDocument_eq]
  refine .object (by simp [Keyed.keys]) fun entry hentry ↦ ?_
  rw [List.mem_singleton.1 hentry]
  exact hbody

/-! ### The schema of a template file -/

namespace TemplateSource

/-- Nothing that is kept differs from the file as it stands. -/
def Current (s : TemplateSource) (t : FileTree) : Prop :=
  ∃ last, s.Remembers last ∧ SameIfSameTime last (t.find s.location)

theorem current_fresh (l : Location) (reader encoding : String) (caching : Bool) (t : FileTree) :
    (fresh l reader encoding caching).Current t :=
  ⟨none, remembers_fresh l reader encoding caching, trivial⟩

/-- The schema is read off the document of the file. -/
theorem result_schema {s : TemplateSource} {t : FileTree} (hcurrent : s.Current t)
    {bytes : List UInt8} (hfile : t.read s.location = .ok bytes) {d : Document}
    (hdocument : documentOf s.encoding bytes = .ok d) (includeEmpty : Bool) :
    (s.schema t includeEmpty).result = (d.extract includeEmpty).result.mapError .bind := by
  obtain ⟨last, hremembers, hsame⟩ := hcurrent
  have hload := hremembers.result_load hsame
  have hpresent : present s.location s.encoding (t.find s.location) = .ok d := by
    unfold FileTree.read at hfile
    split at hfile
    · cases hfile
    · cases hfile
    · next time _ hfind =>
      cases hfile
      rw [hfind]
      exact hdocument
  unfold schema use
  simp only [hload, hpresent]

end TemplateSource

namespace Command

/-! ### The command for schemas and the command for record types -/

/-- What a command comes to that has written its result to a file. -/
theorem deliver_spec {tree : FileTree} {output : String} (text done : String)
    (hwritable : tree.Writable (.ofText output)) :
    ∃ tree', deliver tree output text done =
        .ok ⟨0, done ++ (Location.ofText output).text ++ "\n", "", tree'⟩ ∧
      tree.SameFolders tree' ∧ ∀ l : Location, tree.wayTo l = tree.wayTo (.ofText output) →
        tree'.read l = .ok (Text.utf8Encode text) := by
  obtain ⟨tree', hwrite, hfolders, hread⟩ := FileTree.write_spec hwritable 0 (Text.utf8Encode text)
  refine ⟨tree', ?_, hfolders, hread⟩
  simp only [deliver, hwrite]

/-- The command for schemas writes the schema document of the template. -/
theorem extractSchema_eq_deliver {tree : FileTree} {template output : String} {dropEmpty : Bool}
    {bytes : List UInt8} {d : Document} {schema : Schema}
    (htemplate : tree.read (.ofText template) = .ok bytes)
    (hdocument : TemplateSource.documentOf Service.templateEncoding bytes = .ok d)
    (hschema : (d.extract !dropEmpty).result = .ok (some schema)) :
    extractSchema tree template dropEmpty output =
      deliver tree output (Json.writeDocument schema.toDocument)
        "Schema successfully saved to " := by
  have hresult := TemplateSource.result_schema
    (TemplateSource.current_fresh (.ofText template) Markup.readerName Service.templateEncoding
      false tree) htemplate hdocument !dropEmpty
  rw [hschema] at hresult
  unfold extractSchema
  dsimp only
  rw [show "utf-8" = Service.templateEncoding from rfl, hresult]
  rfl

/-- From a file that holds the text of a schema document, the command for record types writes the
source text of the schema's types. -/
theorem generateRecords_eq_deliver {guide : Option String} {tree : FileTree}
    {document output : String} {schema : Schema} (hkeyed : schema.root.WellKeyed)
    (hfile : tree.read (.ofText document) =
      .ok (Text.utf8Encode (Json.writeDocument schema.toDocument))) :
    generateRecords guide tree document output =
      deliver tree output schema.recordSource "Records written to " := by
  obtain ⟨text, htext, hparse⟩ := Json.parse_file_writeDocument (Schema.plain_toDocument hkeyed)
  unfold generateRecords
  simp only [hfile, htext, hparse, Schema.ofDocument_toDocument]

/-- The file that the command for schemas writes to. -/
def schemaTarget (a : Arguments) : String :=
  (a.value? outputSwitch.long).getD schemaOutput

/-- The file that the command for record types writes to. -/
def recordTarget (a : Arguments) : String :=
  (a.value? outputSwitch.long).getD recordOutput

end Command

/-! ### The service -/

/-- The service is set up with a template of the given bytes, and nothing that is kept of it differs
from the file as it stands. The reader in its settings may be any: `Markup.readerName` is assumed to
stand in for what is not there. -/
structure Service.Serves (s : Service) (bytes : List UInt8) : Prop where
  encoding : s.source.encoding = Service.templateEncoding
  file : s.tree.read s.source.location = .ok bytes
  current : s.source.Current s.tree

/-- The service answers with the source text of the record types of its template. -/
theorem Service.Serves.answer_recordSource {s : Service} {bytes : List UInt8} (h : s.Serves bytes)
    {d : Document} (hdocument : TemplateSource.documentOf Service.templateEncoding bytes = .ok d)
    {schema : Schema} (hschema : (d.extract s.settings.includeEmpty).result = .ok (some schema))
    {r : Request} (hverb : r.verb = "GET") (hroute : Route.ofPath? r.path = some .recordSource)
    (time : Int) : s.answer time r = .good .recordSource schema.recordSource := by
  have hresult : (s.source.schema s.tree s.settings.includeEmpty).result = .ok (some schema) := by
    rw [TemplateSource.result_schema h.current h.file (h.encoding ▸ hdocument), hschema]
    rfl
  have hhead : (r.verb == "HEAD") = false := by
    rw [hverb]
    rfl
  unfold Service.answer Service.respond
  simp only [Service.handle_of_route hverb hroute s time, Service.handleRoute,
    Service.answerRecordSource, Service.withSchema, Service.withUse, hresult, hhead]
  rfl

namespace Command

/-- For every template file with a schema and either way to treat components that take nothing: the
command for schemas, and then the command for record types on the file that the first one wrote,
come to their ends with status 0 and no complaint, and what the second one wrote is the text that
the service answers with for a template of the same bytes. -/
theorem commands_agree_with_service {program program' : String} {guide : Option String}
    {tree : FileTree} {args args' : List String} {a a' : Arguments} {bytes : List UInt8}
    {d : Document} {schema : Schema} {s : Service} {r : Request}
    (hargs : (schemaGrammar program).read args = .ok a)
    (hargs' : (recordGrammar program').read args' = .ok a')
    (htemplate : tree.read (.ofText a.operand) = .ok bytes)
    (hdocument : TemplateSource.documentOf Service.templateEncoding bytes = .ok d)
    (hschema : (d.extract !a.has dropEmptySwitch.long).result = .ok (some schema))
    (hwritable : tree.Writable (.ofText (schemaTarget a)))
    (hwritable' : tree.Writable (.ofText (recordTarget a')))
    (hhanded : tree.wayTo (.ofText a'.operand) = tree.wayTo (.ofText (schemaTarget a)))
    (hserves : s.Serves bytes)
    (hpolicy : s.settings.includeEmpty = !a.has dropEmptySwitch.long)
    (hverb : r.verb = "GET") (hroute : Route.ofPath? r.path = some .recordSource) (time : Int) :
    ∃ said said' tree₁ tree₂ text,
      runSchema program tree args = .ok ⟨0, said, "", tree₁⟩ ∧
        runRecords guide program' tree₁ args' = .ok ⟨0, said', "", tree₂⟩ ∧
        tree₂.read (.ofText (recordTarget a')) = .ok (Text.utf8Encode text) ∧
        s.answer time r = .good .recordSource text := by
  have hkeyed : schema.root.WellKeyed := (Document.wellKeyed_extract hschema).1
  obtain ⟨tree₁, hfirst, hfolders, hread₁⟩ := deliver_spec (Json.writeDocument schema.toDocument)
    "Schema successfully saved to " hwritable
  obtain ⟨tree₂, hsecond, -, hread₂⟩ := deliver_spec schema.recordSource "Records written to "
    (hfolders.writable hwritable')
  have hrunSchema : runSchema program tree args = deliver tree (schemaTarget a)
      (Json.writeDocument schema.toDocument) "Schema successfully saved to " := by
    unfold runSchema
    rw [hargs]
    exact extractSchema_eq_deliver htemplate hdocument hschema
  have hrunRecords : runRecords guide program' tree₁ args' =
      deliver tree₁ (recordTarget a') schema.recordSource "Records written to " := by
    unfold runRecords
    rw [hargs']
    exact generateRecords_eq_deliver hkeyed (hread₁ _ hhanded)
  have hanswer : s.answer time r = .good .recordSource schema.recordSource := by
    rw [← hpolicy] at hschema
    exact hserves.answer_recordSource hdocument hschema hverb hroute time
  exact ⟨_, _, tree₁, tree₂, schema.recordSource, hrunSchema.trans hfirst,
    hrunRecords.trans hsecond, hread₂ _ rfl, hanswer⟩

/-- A template with a component under a name beyond ASCII, with a quote and a line feed in it, and a
component that takes nothing. -/
def sizePage : List UInt8 :=
  Text.utf8Encode ("<main data-component=\"größe&quot;&#10;\"><b data-text-content=\"size\"></b>" ++
    "<i data-component=\"leer\"></i></main>")

/-- A folder with the template in it. -/
def workplace : FileTree :=
  ⟨⟨"/", ["work"]⟩, .folder 0 [("work", .folder 0 [("page.html", .file 1 sizePage)])]⟩

/-- A service with the template that leaves out components that take nothing. -/
def sizeService : Service where
  settings :=
    { templateLocation := ⟨"/", ["work", "page.html"]⟩
      reader := Markup.readerName
      cacheTemplates := true
      includeEmpty := false
      formsFolder := ⟨"/", ["work", "forms"]⟩
      logLevel := "INFO"
      logFolder := ⟨"", ["logs"]⟩ }
  tree := workplace
  source := .fresh ⟨"/", ["work", "page.html"]⟩ Markup.readerName Service.templateEncoding true
  indexRead := false
  ids := []

/-- A file can be written to the workplace under a name that is not the template's. -/
theorem writable_workplace (name : FileName) {l : Location}
    (hway : workplace.wayTo l = .ok ["work", name]) (hname : Entry.Fits name)
    (hother : name ≠ "page.html") : workplace.Writable l := by
  refine ⟨["work"], name, hway, hname, ⟨0, _, rfl⟩, ?_⟩
  rintro ⟨_, _, hfind⟩
  have hinner : (Entry.folder 0 [("page.html", Entry.file 1 sizePage)]).HasFolder [name] :=
    ⟨_, _, hfind⟩
  obtain ⟨e, he, -⟩ := (Entry.hasFolder_cons_iff hname).1 hinner
  rw [List.lookup_cons, beq_false_of_ne hother] at he
  cases he

theorem commands_agree_with_service_sizePage :
    ∃ said said' tree₁ tree₂ text,
      runSchema "schema" workplace ["--drop-empty", "page.html"] = .ok ⟨0, said, "", tree₁⟩ ∧
        runRecords none "records" tree₁ ["data.json"] = .ok ⟨0, said', "", tree₂⟩ ∧
        tree₂.read (.ofText recordOutput) = .ok (Text.utf8Encode text) ∧
        sizeService.answer 0 ⟨"get", "/schema/models", [], []⟩ = .good .recordSource text := by
  obtain ⟨d, schema, hdocument, hschema⟩ : ∃ d schema,
      TemplateSource.documentOf Service.templateEncoding sizePage = .ok d ∧
        (d.extract false).result = .ok (some schema) := by
    have htest : ((TemplateSource.documentOf Service.templateEncoding sizePage).toOption.bind
        fun d ↦ (d.extract false).result.toOption.bind id).isSome = true := by decide +kernel
    obtain ⟨schema, hsome⟩ := Option.isSome_iff_exists.1 htest
    obtain ⟨d, hdocument, hsome⟩ := Option.bind_eq_some_iff.1 hsome
    obtain ⟨found, hfound, rfl⟩ := Option.bind_eq_some_iff.1 hsome
    exact ⟨d, schema, toOption_eq_some_iff.1 hdocument, toOption_eq_some_iff.1 hfound⟩
  have hargs : (schemaGrammar "schema").read ["--drop-empty", "page.html"] =
      .ok ⟨"page.html", [("drop-empty", "")]⟩ := by decide +kernel
  have hargs' : (recordGrammar "records").read ["data.json"] = .ok ⟨"data.json", []⟩ := by
    decide +kernel
  have hserves : sizeService.Serves sizePage :=
    ⟨rfl, by decide +kernel, TemplateSource.current_fresh _ _ _ _ _⟩
  exact commands_agree_with_service hargs hargs' (by decide +kernel) hdocument hschema
    (writable_workplace schemaOutput (by decide +kernel) ⟨by decide +kernel, by decide +kernel⟩
      (by decide +kernel))
    (writable_workplace recordOutput (by decide +kernel) ⟨by decide +kernel, by decide +kernel⟩
      (by decide +kernel)) rfl hserves rfl
    (by decide +kernel) (by decide +kernel) 0

end Command

end MarkupBinding
