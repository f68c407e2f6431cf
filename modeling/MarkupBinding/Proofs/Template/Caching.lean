import MarkupBinding.Template.Use
import Mathlib.Logic.Basic

/-!
# The kept document of a template file

A template source that keeps the document of its file answers like one that reads the file each
time, as long as the time of the file tells its changes: wherever a document is wanted and the file
has the time at which it was read last, it has the bytes that were read then (`TimesTell`). The
files may change in any way between requests, and a file that is missing, unreachable or no text
leaves the kept document as it was, so what is kept goes with the last successful reading and not
with the file as it stands (`TemplateSource.Remembers`). Under this invariant a load gives what the
file as it stands gives (`Remembers.result_load`), and every answer depends on that file and the
request only (`Remembers.answers_eq`).
-/

set_option autoImplicit false
set_option relaxedAutoImplicit false

namespace MarkupBinding

/-! ### Requests, answers and what happens between them -/

/-- What is asked of a template source. -/
inductive TemplateRequest where
  /-- The document of the template. -/
  | load
  | schema (includeEmpty : Bool)
  /-- The markup with data bound into it. -/
  | render (input : Value)
  /-- The markup with an input document bound into it. -/
  | renderText (text : String)

/-- What a template source answers. -/
inductive TemplateAnswer where
  | document (result : Except TemplateFault Document)
  | schema (result : Except UseFault (Option Schema))
  | markup (result : Except UseFault String)

/-- What happens around a template source. -/
inductive TemplateEvent where
  /-- The files are changed: written, removed, made again, with any contents and times. -/
  | files (change : FileTree → FileTree)
  /-- The document that was handed out as number `i` is changed by whoever holds it. -/
  | mutate (i : Nat) (edit : Document → Document)
  | request (r : TemplateRequest)

namespace TemplateRequest

/-- The answer that needs no document: an input document is read before the template. -/
def early? : TemplateRequest → Option TemplateAnswer
  | renderText text =>
    match decodeInput text with
    | .error e => some (.markup (.error (.input e)))
    | .ok _ => none
  | _ => none

/-- The markup of a loaded template with data bound into it. -/
def markupFrom (loaded : Except TemplateFault Document) (input : Value) : TemplateAnswer :=
  .markup <| match loaded with
    | .error fault => .error (.template fault)
    | .ok d => ((d.bind input).result.map Document.print).mapError .bind

/-- The answer to a request from the document that was loaded for it. -/
def answerFrom (loaded : Except TemplateFault Document) : TemplateRequest → TemplateAnswer
  | load => .document loaded
  | schema includeEmpty => .schema <| match loaded with
    | .error fault => .error (.template fault)
    | .ok d => (d.extract includeEmpty).result.mapError .bind
  | render input => markupFrom loaded input
  | renderText text =>
    match decodeInput text with
    | .error e => .markup (.error (.input e))
    | .ok input => markupFrom loaded input

end TemplateRequest

namespace TemplateSource

/-- The source after a request, and the answer. -/
def answer (s : TemplateSource) (t : FileTree) : TemplateRequest → TemplateSource × TemplateAnswer
  | .load => ((s.load t).source, .document (s.load t).result)
  | .schema includeEmpty =>
    ((s.schema t includeEmpty).source, .schema (s.schema t includeEmpty).result)
  | .render input => ((s.render t input).source, .markup (s.render t input).result)
  | .renderText text => ((s.renderText t text).source, .markup (s.renderText t text).result)

/-- The answers to the requests among events, with the files as they are at the outset. A document
that was handed out is a value of its own: changing it is nothing to the source. -/
def answers (s : TemplateSource) (t : FileTree) : List TemplateEvent → List TemplateAnswer
  | [] => []
  | .files change :: rest => s.answers (change t) rest
  | .mutate _ _ :: rest => s.answers t rest
  | .request r :: rest => (s.answer t r).2 :: (s.answer t r).1.answers t rest

/-! ### The file as it stands -/

/-- The document that the bytes of a file stand for. The wanted reader of markup has no part in it:
that no other than `Markup.readerName` is there is assumed. -/
def documentOf (encoding : String) (bytes : List UInt8) : Except TemplateFault Document :=
  match Text.Encoding.ofName? encoding with
  | none => .error (.unknownEncoding encoding)
  | some encoding =>
    match (encoding.read bytes).mapError (.unreadable encoding) with
    | .error fault => .error fault
    | .ok text =>
      match Document.parse text with
      | none => .error .refused
      | some d => .ok d

/-- The document of the template by what is found at its location. -/
def present (l : Location) (encoding : String) :
    Except PathFault Entry → Except TemplateFault Document
  | .error .absent => .error (.missing l)
  | .error fault => .error (.unreachable l fault)
  | .ok (.folder _ _) => .error (.unreachable l .isFolder)
  | .ok (.file _ bytes) => documentOf encoding bytes

/-- The answers to the requests among events, each from the file as it stands then. -/
def presentAnswers (l : Location) (encoding : String) (t : FileTree) :
    List TemplateEvent → List TemplateAnswer
  | [] => []
  | .files change :: rest => presentAnswers l encoding (change t) rest
  | .mutate _ _ :: rest => presentAnswers l encoding t rest
  | .request r :: rest =>
    r.answerFrom (present l encoding (t.find l)) :: presentAnswers l encoding t rest

/-! ### Times that tell changes -/

/-- The time and the bytes of the last successful reading, after another one. -/
def lastRead (encoding : String) (last : Option (Int × List UInt8)) :
    Except PathFault Entry → Option (Int × List UInt8)
  | .ok (.file time bytes) =>
    match documentOf encoding bytes with
    | .ok _ => some (time, bytes)
    | .error _ => last
  | _ => last

/-- What is found has the time of the last successful reading only if it has the bytes too. -/
def SameIfSameTime (last : Option (Int × List UInt8)) (found : Except PathFault Entry) : Prop :=
  match last, found with
  | some (time, bytes), .ok (.file present content) => present = time → content = bytes
  | some (time, _), .ok (.folder present _) => present ≠ time
  | _, _ => True

instance (last : Option (Int × List UInt8)) (found : Except PathFault Entry) :
    Decidable (SameIfSameTime last found) :=
  match last, found with
  | some (time, bytes), .ok (.file present content) =>
    inferInstanceAs (Decidable (present = time → content = bytes))
  | some (time, _), .ok (.folder present _) => inferInstanceAs (Decidable (present ≠ time))
  | some _, .error _ => isTrue trivial
  | none, _ => isTrue trivial

/-- Whenever a document is wanted and the time of the file is that of the last successful reading,
the file has the bytes that were read then. -/
def TimesTell (l : Location) (encoding : String) (last : Option (Int × List UInt8))
    (t : FileTree) : List TemplateEvent → Prop
  | [] => True
  | .files change :: rest => TimesTell l encoding last (change t) rest
  | .mutate _ _ :: rest => TimesTell l encoding last t rest
  | .request r :: rest =>
    (r.early?.isNone → SameIfSameTime last (t.find l)) ∧
      TimesTell l encoding (if r.early?.isNone then lastRead encoding last (t.find l) else last) t
        rest

instance decidableTimesTell (l : Location) (encoding : String) :
    (last : Option (Int × List UInt8)) → (t : FileTree) → (events : List TemplateEvent) →
      Decidable (TimesTell l encoding last t events)
  | _, _, [] => isTrue trivial
  | last, t, .files change :: rest => decidableTimesTell l encoding last (change t) rest
  | last, t, .mutate _ _ :: rest => decidableTimesTell l encoding last t rest
  | last, t, .request r :: rest =>
    @instDecidableAnd _ _ inferInstance (decidableTimesTell l encoding
      (if r.early?.isNone then lastRead encoding last (t.find l) else last) t rest)

section Laws

variable {s : TemplateSource} {t : FileTree}

/-- The answer to a request is made from the document that is loaded. -/
theorem answer_snd (r : TemplateRequest) : (s.answer t r).2 = r.answerFrom (s.load t).result := by
  cases r with
  | load => rfl
  | schema includeEmpty =>
    simp only [answer, schema, use, TemplateRequest.answerFrom]
    cases (s.load t).result <;> rfl
  | render input =>
    simp only [answer, render, use, TemplateRequest.answerFrom, TemplateRequest.markupFrom]
    cases (s.load t).result <;> rfl
  | renderText text =>
    simp only [answer, renderText, TemplateRequest.answerFrom]
    cases decodeInput text with
    | error e => rfl
    | ok input =>
      simp only [render, use, TemplateRequest.markupFrom]
      cases (s.load t).result <;> rfl

/-- A request that is not answered early loads the document. -/
theorem answer_fst_of_early?_eq_none {r : TemplateRequest} (h : r.early? = none) :
    (s.answer t r).1 = (s.load t).source := by
  have huse : ∀ {α : Type} (f : Document → List Notice × Except BindError α),
      (s.use t f).source = (s.load t).source := by
    intro α f
    rw [use]
    cases (s.load t).result <;> rfl
  cases r with
  | load => rfl
  | schema includeEmpty => exact huse _
  | render input => exact huse _
  | renderText text =>
    rw [TemplateRequest.early?] at h
    rw [answer, renderText]
    cases hdecode : decodeInput text with
    | error e => rw [hdecode] at h; cases h
    | ok input => exact huse _

theorem answer_of_early?_eq_some {r : TemplateRequest} {a : TemplateAnswer}
    (h : r.early? = some a) : s.answer t r = (s, a) := by
  cases r with
  | load | schema | render => cases h
  | renderText text =>
    rw [TemplateRequest.early?] at h
    rw [answer, renderText]
    cases hdecode : decodeInput text with
    | error e =>
      rw [hdecode] at h
      obtain rfl := Option.some.inj h
      rfl
    | ok input => rw [hdecode] at h; cases h

/-- An answer that is given early is the same for every document. -/
theorem answerFrom_of_early?_eq_some {r : TemplateRequest} {a : TemplateAnswer}
    (h : r.early? = some a) (loaded : Except TemplateFault Document) : r.answerFrom loaded = a := by
  cases r with
  | load | schema | render => cases h
  | renderText text =>
    rw [TemplateRequest.early?] at h
    rw [TemplateRequest.answerFrom]
    cases hdecode : decodeInput text with
    | error e => rw [hdecode] at h; exact Option.some.inj h
    | ok input => rw [hdecode] at h; cases h

/-- Reading the file gives what the file gives, and keeps the document, if there is one and keeping
is wanted. -/
theorem readFile_cases {entry : Entry} (h : t.find s.location = .ok entry) :
    (s.readFile t entry.time).result = present s.location s.encoding (.ok entry) ∧
      ((s.readFile t entry.time).source = s ∧
          (s.caching = false ∨ ∃ fault, (s.readFile t entry.time).result = .error fault) ∨
        ∃ time bytes d, entry = .file time bytes ∧ s.caching = true ∧
          (s.readFile t entry.time).result = .ok d ∧
          (s.readFile t entry.time).source = { s with kept := some (time, d) }) := by
  cases entry with
  | folder time entries =>
    have htext : s.text t = .error (.unreachable s.location .isFolder) := by
      rw [text, FileTree.read, h]
    rw [readFile, htext]
    exact ⟨rfl, Or.inl ⟨rfl, Or.inr ⟨_, rfl⟩⟩⟩
  | file time bytes =>
    have htext : s.text t = match Text.Encoding.ofName? s.encoding with
        | none => .error (.unknownEncoding s.encoding)
        | some encoding => (encoding.read bytes).mapError (.unreadable encoding) := by
      cases hname : Text.Encoding.ofName? s.encoding <;>
        simp only [text, FileTree.read, h, hname]
    rw [readFile, htext, present, documentOf]
    cases Text.Encoding.ofName? s.encoding with
    | none => exact ⟨rfl, Or.inl ⟨rfl, Or.inr ⟨_, rfl⟩⟩⟩
    | some encoding =>
      cases hread : (encoding.read bytes).mapError (TemplateFault.unreadable encoding) with
      | error fault => simp [hread]
      | ok text =>
        cases hparse : Document.parse text with
        | none => simp [hread, hparse]
        | some d => cases hcaching : s.caching <;> simp [hread, hparse, Entry.time]

/-- A load either hands out the kept document and changes nothing, or gives what the file gives and
keeps the document, if there is one and keeping is wanted. -/
theorem load_cases (s : TemplateSource) (t : FileTree) :
    (∃ entry d, t.find s.location = .ok entry ∧ s.caching = true ∧ s.kept = some (entry.time, d) ∧
        (s.load t).result = .ok d ∧ (s.load t).source = s) ∨
      (s.load t).result = present s.location s.encoding (t.find s.location) ∧
        ((s.load t).source = s ∧
            (s.caching = false ∨ ∃ fault, (s.load t).result = .error fault) ∨
          ∃ time bytes d, t.find s.location = .ok (.file time bytes) ∧ s.caching = true ∧
            (s.load t).result = .ok d ∧ (s.load t).source = { s with kept := some (time, d) }) := by
  cases hfind : t.find s.location with
  | error fault =>
    refine Or.inr ?_
    rw [load, hfind]
    cases fault <;> exact ⟨rfl, Or.inl ⟨rfl, Or.inr ⟨_, rfl⟩⟩⟩
  | ok entry =>
    cases hkept : s.keptAt entry.time with
    | some d =>
      refine Or.inl ⟨entry, d, rfl, ?_⟩
      have hload : s.load t = ⟨s, [], .ok d⟩ := by rw [load, hfind]; simp only [hkept]
      rw [hload]
      rw [keptAt] at hkept
      split at hkept
      · next read found hcaching hfound =>
        split at hkept
        · next htime =>
          obtain rfl := Option.some.inj hkept
          exact ⟨hcaching, by rw [hfound, htime], rfl, rfl⟩
        · cases hkept
      · cases hkept
    | none =>
      have hload : s.load t = s.readFile t entry.time := by rw [load, hfind]; simp only [hkept]
      rw [hload]
      obtain ⟨hresult, hsource⟩ := readFile_cases hfind
      refine Or.inr ⟨hresult, hsource.imp_right ?_⟩
      rintro ⟨time, bytes, d, rfl, hrest⟩
      exact ⟨time, bytes, d, rfl, hrest⟩

/-! ### What is kept is what was read last -/

/-- What is kept, if anything is to be kept, was read from the bytes of the last successful reading,
at its time. -/
def Remembers (s : TemplateSource) (last : Option (Int × List UInt8)) : Prop :=
  s.caching = true → ∀ time d, s.kept = some (time, d) →
    ∃ bytes, last = some (time, bytes) ∧ documentOf s.encoding bytes = .ok d

theorem remembers_fresh (l : Location) (reader encoding : String) (caching : Bool) :
    (fresh l reader encoding caching).Remembers none := by
  intro _ time d hkept
  rw [fresh] at hkept
  exact absurd hkept (Option.some_ne_none _).symm

variable {last : Option (Int × List UInt8)}

/-- What has the time of the last successful reading is the file that was read. -/
theorem SameIfSameTime.eq {entry : Entry} {bytes : List UInt8}
    (h : SameIfSameTime (some (entry.time, bytes)) (.ok entry)) :
    entry = .file entry.time bytes := by
  cases entry with
  | file time content => rw [Entry.time, h rfl]
  | folder time entries => exact absurd rfl h

/-- A load changes nothing of a source but what it keeps. -/
theorem load_source_eq (s : TemplateSource) (t : FileTree) :
    (s.load t).source = { s with kept := (s.load t).source.kept } := by
  rcases s.load_cases t with ⟨entry, d, -, -, -, -, hsource⟩ | ⟨-, ⟨hsource, -⟩ | hkeeps⟩
  · rw [hsource]
  · rw [hsource]
  · obtain ⟨time, bytes, d, -, -, -, hsource⟩ := hkeeps
    rw [hsource]

/-- What cannot be read leaves the last successful reading what it was. -/
theorem lastRead_of_present_eq_error {l : Location} {encoding : String}
    {found : Except PathFault Entry} {fault : TemplateFault}
    (h : present l encoding found = .error fault) : lastRead encoding last found = last := by
  cases found with
  | error _ => rfl
  | ok entry =>
    cases entry with
    | folder time entries => rfl
    | file time bytes =>
      rw [present] at h
      rw [lastRead, h]

/-- Under the invariant a load gives what the file as it stands gives. -/
theorem Remembers.result_load (h : s.Remembers last)
    (hsame : SameIfSameTime last (t.find s.location)) :
    (s.load t).result = present s.location s.encoding (t.find s.location) := by
  rcases s.load_cases t with ⟨entry, d, hfind, hcaching, hkept, hresult, -⟩ | ⟨hresult, -⟩
  · obtain ⟨bytes, rfl, hdocument⟩ := h hcaching _ _ hkept
    rw [hfind] at hsame ⊢
    rw [hresult, hsame.eq]
    exact hdocument.symm
  · exact hresult

/-- A load keeps the invariant. -/
theorem Remembers.load (h : s.Remembers last)
    (hsame : SameIfSameTime last (t.find s.location)) :
    (s.load t).source.Remembers (lastRead s.encoding last (t.find s.location)) := by
  rcases s.load_cases t with ⟨entry, d, hfind, hcaching, hkept, -, hsource⟩ |
    ⟨hresult, ⟨hsource, hplain | ⟨fault, hfault⟩⟩ | ⟨time, bytes, d, hfind, -, hd, hsource⟩⟩
  · -- The file is the one that was read last, and reading it again would change nothing.
    obtain ⟨bytes, rfl, hdocument⟩ := h hcaching _ _ hkept
    rw [hfind] at hsame ⊢
    rw [hsource, hsame.eq, lastRead, hdocument]
    exact h
  · rw [hsource]
    intro hcaching
    rw [hplain] at hcaching
    cases hcaching
  · rw [hsource, lastRead_of_present_eq_error (hresult.symm.trans hfault)]
    exact h
  · have hdocument : documentOf s.encoding bytes = .ok d := by
      rw [hfind, hd] at hresult
      exact hresult.symm
    rw [hsource, hfind, lastRead, hdocument]
    rintro - _ _ ⟨⟩
    exact ⟨bytes, rfl, hdocument⟩

/-- Where the times tell the changes, every answer is made from the file as it stands. -/
theorem Remembers.answers_eq {events : List TemplateEvent} (h : s.Remembers last)
    (htell : TimesTell s.location s.encoding last t events) :
    s.answers t events = presentAnswers s.location s.encoding t events := by
  induction events generalizing s last t with
  | nil => rfl
  | cons event rest ih =>
    cases event with
    | files change => exact ih h htell
    | mutate i edit => exact ih h htell
    | request r =>
      obtain ⟨hsame, hrest⟩ := htell
      rw [answers, presentAnswers]
      cases hearly : r.early? with
      | some a =>
        rw [hearly] at hrest
        rw [answer_of_early?_eq_some hearly, answerFrom_of_early?_eq_some hearly, ih h hrest]
      | none =>
        rw [hearly] at hsame hrest
        replace hsame := hsame rfl
        have hsource := load_source_eq s t
        have hnext := ih (h.load hsame) (t := t) (by rw [hsource]; exact hrest)
        rw [answer_snd, h.result_load hsame, answer_fst_of_early?_eq_none hearly, hnext, hsource]

/-- A source that is to keep nothing reads the file and stays as it is. -/
theorem load_of_caching_eq_false (h : s.caching = false) :
    (s.load t).result = present s.location s.encoding (t.find s.location) ∧
      (s.load t).source = s := by
  rcases s.load_cases t with ⟨entry, d, -, hcaching, -⟩ |
    ⟨hresult, ⟨hsource, -⟩ | ⟨time, bytes, d, -, hcaching, -⟩⟩
  · exact absurd hcaching (by simp [h])
  · exact ⟨hresult, hsource⟩
  · exact absurd hcaching (by simp [h])

/-- A source that is to keep nothing makes every answer from the file as it stands. -/
theorem answers_of_caching_eq_false (h : s.caching = false) (events : List TemplateEvent) :
    s.answers t events = presentAnswers s.location s.encoding t events := by
  induction events generalizing t with
  | nil => rfl
  | cons event rest ih =>
    cases event with
    | files change => exact ih
    | mutate i edit => exact ih
    | request r =>
      obtain ⟨hresult, hsource⟩ := load_of_caching_eq_false (t := t) h
      rw [answers, presentAnswers, answer_snd, hresult]
      cases hearly : r.early? with
      | some a => rw [answer_of_early?_eq_some hearly, ih]
      | none => rw [answer_fst_of_early?_eq_none hearly, hsource, ih]

end Laws

end TemplateSource

end MarkupBinding
