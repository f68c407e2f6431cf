import MarkupBinding.Proofs.Template.Caching
import Mathlib.Data.List.Basic

/-!
# Documents in other hands

A document that a template source hands out is changed in place afterwards. Binding input writes
into it, also when it stops halfway, and who asked for the document may do anything with it.
`SharedSource` spells this out: documents are known by numbers, the source holds the number of the
document that it keeps, everybody else holds numbers that were handed out, and a change is made to
the document that a number leads to. The kept document is handed out as a copy under a new number,
so no number that somebody else holds leads to it (`SharedSource.Apart`). Therefore a source whose
documents are shared answers as one whose documents are values (`Apart.answers_eq`).

With what is known of kept documents this says that keeping is not seen at all
(`TemplateSource.cache_invisible`): over any history of files, requests and changes of documents
that were handed out, the answers of a source that keeps its document are those of a source that
does not, each made from the file as it stands.
-/

set_option autoImplicit false
set_option relaxedAutoImplicit false

namespace MarkupBinding

/-- What a request leaves of the document that was loaded for it: binding writes into the document
as far as it gets. -/
def TemplateRequest.leaves (r : TemplateRequest) (d : Document) : Document :=
  match r with
  | render input => (d.bind input).value
  | renderText text =>
    match decodeInput text with
    | .ok input => (d.bind input).value
    | .error _ => d
  | _ => d

/-- A template source whose documents are shared by number. -/
structure SharedSource where
  /-- The template file and how it is read. -/
  plain : TemplateSource
  /-- All documents, each under its number. -/
  documents : List Document
  /-- The number of the document read last, and the time of the file then. -/
  kept : Option (Int × Nat)
  /-- The numbers of the documents that others hold, in the order in which they were handed out. -/
  handed : List Nat

namespace SharedSource

/-- A shared source that has read nothing yet. -/
def fresh (l : Location) (reader encoding : String) (caching : Bool) : SharedSource :=
  ⟨.fresh l reader encoding caching, [], none, []⟩

/-- The source with the document that it keeps as a value. -/
def value (s : SharedSource) : TemplateSource :=
  { s.plain with
    kept := s.kept.bind fun (time, n) ↦ (s.documents[n]?).map fun d ↦ (time, d) }

/-- Changes the document under a number. -/
def edit (s : SharedSource) (n : Nat) (f : Document → Document) : SharedSource :=
  { s with documents := s.documents.modify n f }

/-- Puts a document under a new number and hands the number out. That a copy of a document shares
nothing with it (a copied soup is a deep copy) is taken from the parser's documentation: the copy is
a document of its own. -/
def handOut (s : SharedSource) (d : Document) : SharedSource :=
  { s with documents := s.documents ++ [d], handed := s.handed ++ [s.documents.length] }

/-- Puts a document under a new number and keeps the number, with the time of the file. -/
def keep (s : SharedSource) (time : Int) (d : Document) : SharedSource :=
  { s with documents := s.documents ++ [d], kept := some (time, s.documents.length) }

/-- The source after the file was read as a document: it keeps it, if that is wanted. -/
def afterReading (s : SharedSource) (t : FileTree) (d : Document) : SharedSource :=
  match s.plain.caching, t.find s.plain.location with
  | true, .ok entry => s.keep entry.time d
  | _, _ => s

/-- Whether the kept document is that of the file, going by its time. -/
def isCurrent (s : SharedSource) (t : FileTree) : Bool :=
  match t.find s.plain.location with
  | .ok entry => (s.value.keptAt entry.time).isSome
  | .error _ => false

/-- Hands out a document of its own for the template: a copy of the kept one, or what was read. -/
def load (s : SharedSource) (t : FileTree) : SharedSource × Except TemplateFault Nat :=
  match (s.value.load t).result with
  | .error fault => (s, .error fault)
  | .ok d =>
    let s := if s.isCurrent t then s else s.afterReading t d
    (s.handOut d, .ok s.documents.length)

/-- The source after a request, and the answer. The request works on the document that was handed
out for it. -/
def answer (s : SharedSource) (t : FileTree) (r : TemplateRequest) :
    SharedSource × TemplateAnswer :=
  match r.early? with
  | some a => (s, a)
  | none =>
    match s.load t with
    | (s, .error fault) => (s, r.answerFrom (.error fault))
    | (s, .ok n) => (s.edit n r.leaves, r.answerFrom (.ok (s.documents.getD n [])))

/-- Changes the document that was handed out as number `i`. -/
def mutate (s : SharedSource) (i : Nat) (f : Document → Document) : SharedSource :=
  match s.handed[i]? with
  | some n => s.edit n f
  | none => s

/-- The answers to the requests among events. -/
def answers (s : SharedSource) (t : FileTree) : List TemplateEvent → List TemplateAnswer
  | [] => []
  | .files change :: rest => s.answers (change t) rest
  | .mutate i f :: rest => (s.mutate i f).answers t rest
  | .request r :: rest => (s.answer t r).2 :: (s.answer t r).1.answers t rest

/-! ### The kept document is in no other hands -/

/-- Numbers lead to documents, and none that was handed out leads to the kept one. -/
structure Apart (s : SharedSource) : Prop where
  kept_lt : ∀ time n, s.kept = some (time, n) → n < s.documents.length
  handed_lt : ∀ n ∈ s.handed, n < s.documents.length
  not_mem : ∀ time n, s.kept = some (time, n) → n ∉ s.handed

theorem apart_fresh (l : Location) (reader encoding : String) (caching : Bool) :
    (fresh l reader encoding caching).Apart := by
  refine ⟨fun time n h ↦ ?_, fun n h ↦ ?_, fun time n _ h ↦ ?_⟩
  · rw [fresh] at h
    cases h
  · exact absurd h List.not_mem_nil
  · exact absurd h List.not_mem_nil

section Laws

variable {s : SharedSource} {t : FileTree}

theorem Apart.edit (h : s.Apart) (n : Nat) (f : Document → Document) : (s.edit n f).Apart := by
  refine ⟨fun time k hk ↦ ?_, fun k hk ↦ ?_, h.not_mem⟩
  · rw [SharedSource.edit, List.length_modify]
    exact h.kept_lt time k hk
  · rw [SharedSource.edit, List.length_modify]
    exact h.handed_lt k hk

/-- Changing a document that was handed out leaves the kept one as it was. -/
theorem Apart.value_edit (h : s.Apart) {n : Nat} (hn : n ∈ s.handed) (f : Document → Document) :
    (s.edit n f).value = s.value := by
  cases hkept : s.kept with
  | none => simp [value, SharedSource.edit, hkept]
  | some pair =>
    obtain ⟨time, k⟩ := pair
    have hne : n ≠ k := by
      rintro rfl
      exact h.not_mem time n hkept hn
    simp [value, SharedSource.edit, hkept, List.getElem?_modify_ne f _ hne]

theorem Apart.handOut (h : s.Apart) (d : Document) : (s.handOut d).Apart := by
  refine ⟨fun time n hn ↦ ?_, fun n hn ↦ ?_, fun time n hkept hn ↦ ?_⟩
  · have := h.kept_lt time n hn
    simp only [SharedSource.handOut, List.length_append, List.length_singleton]
    omega
  · simp only [SharedSource.handOut, List.length_append, List.length_singleton]
    rcases List.mem_append.1 hn with hold | hnew
    · have := h.handed_lt n hold
      omega
    · rw [List.mem_singleton.1 hnew]
      omega
  · rcases List.mem_append.1 hn with hold | hnew
    · exact h.not_mem time n hkept hold
    · have := h.kept_lt time n hkept
      rw [List.mem_singleton.1 hnew] at this
      omega

/-- Handing out a document leaves the kept one as it was. -/
theorem Apart.value_handOut (h : s.Apart) (d : Document) : (s.handOut d).value = s.value := by
  cases hkept : s.kept with
  | none => simp [value, SharedSource.handOut, hkept]
  | some pair =>
    obtain ⟨time, n⟩ := pair
    simp [value, SharedSource.handOut, hkept, List.getElem?_append_left (h.kept_lt time n hkept)]

theorem Apart.keep (h : s.Apart) (time : Int) (d : Document) : (s.keep time d).Apart := by
  refine ⟨fun read n hn ↦ ?_, fun n hn ↦ ?_, fun read n hkept hn ↦ ?_⟩
  · obtain ⟨-, rfl⟩ := Prod.mk.inj (Option.some.inj hn)
    simp only [SharedSource.keep, List.length_append, List.length_singleton]
    omega
  · have := h.handed_lt n hn
    simp only [SharedSource.keep, List.length_append, List.length_singleton]
    omega
  · obtain ⟨-, rfl⟩ := Prod.mk.inj (Option.some.inj hkept)
    exact absurd (h.handed_lt _ hn) (Nat.lt_irrefl _)

theorem value_keep (time : Int) (d : Document) :
    (s.keep time d).value = { s.value with kept := some (time, d) } := by
  simp [value, SharedSource.keep]

theorem Apart.afterReading (h : s.Apart) (t : FileTree) (d : Document) :
    (s.afterReading t d).Apart := by
  rw [SharedSource.afterReading]
  split
  · exact h.keep _ d
  · exact h

/-! ### Sharing changes no answer -/

/-- Where the kept document is that of the file, a load leaves the source as it is. -/
theorem source_load_of_isCurrent (h : s.isCurrent t = true) :
    (s.value.load t).source = s.value := by
  rw [isCurrent] at h
  split at h
  · next entry hfind =>
    obtain ⟨d, hkept⟩ := Option.isSome_iff_exists.1 h
    rw [TemplateSource.load, show s.value.location = s.plain.location from rfl, hfind]
    simp only [hkept]
  · cases h

/-- Where it is not, the source keeps what was read, if keeping is wanted. -/
theorem source_load_of_not_isCurrent (h : s.isCurrent t = false) {d : Document}
    (hd : (s.value.load t).result = .ok d) :
    (s.value.load t).source = (s.afterReading t d).value := by
  rcases s.value.load_cases t with ⟨entry, found, hfind, hcaching, hkept, -⟩ |
    ⟨-, ⟨hsource, hplain | ⟨fault, hfault⟩⟩ |
      ⟨time, bytes, found, hfind, hcaching, hfound, hsource⟩⟩
  · have hcurrent : s.isCurrent t = true := by
      rw [isCurrent, show t.find s.plain.location = .ok entry from hfind]
      simp [TemplateSource.keptAt, hcaching, hkept]
    rw [h] at hcurrent
    cases hcurrent
  · rw [hsource, afterReading, show s.plain.caching = false from hplain]
  · rw [hd] at hfault
    cases hfault
  · obtain rfl := Except.ok.inj (hd.symm.trans hfound)
    rw [hsource, afterReading, show s.plain.caching = true from hcaching,
      show t.find s.plain.location = _ from hfind]
    exact (value_keep _ _).symm

/-- A load fails without a trace, or puts the document of the template under a new number, which is
handed out. -/
theorem Apart.load_cases (h : s.Apart) (t : FileTree) :
    (∃ fault, (s.value.load t).result = .error fault ∧ (s.value.load t).source = s.value ∧
        s.load t = (s, .error fault)) ∨
      ∃ (d : Document) (after : SharedSource), (s.value.load t).result = .ok d ∧
        (s.value.load t).source = after.value ∧ after.Apart ∧
          s.load t = (after.handOut d, .ok after.documents.length) := by
  cases hresult : (s.value.load t).result with
  | error fault =>
    refine Or.inl ⟨fault, rfl, ?_, by rw [load, hresult]⟩
    rcases s.value.load_cases t with ⟨entry, d, -, -, -, -, hsource⟩ |
      ⟨-, ⟨hsource, -⟩ | ⟨time, bytes, d, -, -, hd, -⟩⟩
    · exact hsource
    · exact hsource
    · rw [hresult] at hd
      cases hd
  | ok d =>
    refine Or.inr ⟨d, if s.isCurrent t then s else s.afterReading t d, rfl, ?_, ?_, ?_⟩
    · cases hcurrent : s.isCurrent t with
      | true => exact source_load_of_isCurrent hcurrent
      | false => exact source_load_of_not_isCurrent hcurrent hresult
    · split
      · exact h
      · exact h.afterReading t d
    · rw [load, hresult]

/-- A request to a shared source is answered as by the source of values, and leaves the kept
document as that does. -/
theorem Apart.answer_eq (h : s.Apart) (t : FileTree) (r : TemplateRequest) :
    (s.answer t r).1.Apart ∧ (s.answer t r).1.value = (s.value.answer t r).1 ∧
      (s.answer t r).2 = (s.value.answer t r).2 := by
  cases hearly : r.early? with
  | some a =>
    have hanswer : s.answer t r = (s, a) := by simp only [answer, hearly]
    rw [hanswer, TemplateSource.answer_of_early?_eq_some hearly]
    exact ⟨h, rfl, rfl⟩
  | none =>
    rw [TemplateSource.answer_fst_of_early?_eq_none hearly, TemplateSource.answer_snd]
    rcases h.load_cases t with ⟨fault, hresult, hsource, hload⟩ |
      ⟨d, after, hresult, hsource, hafter, hload⟩
    · have hanswer : s.answer t r = (s, r.answerFrom (.error fault)) := by
        simp only [answer, hearly, hload]
      rw [hanswer, hresult, hsource]
      exact ⟨h, rfl, rfl⟩
    · have hanswer : s.answer t r =
          ((after.handOut d).edit after.documents.length r.leaves, r.answerFrom (.ok d)) := by
        simp [answer, hearly, hload, SharedSource.handOut]
      have hhanded : after.documents.length ∈ (after.handOut d).handed :=
        List.mem_append_right _ (List.mem_singleton.2 rfl)
      rw [hanswer, hresult, hsource]
      refine ⟨(hafter.handOut d).edit _ _, ?_, rfl⟩
      rw [(hafter.handOut d).value_edit hhanded, hafter.value_handOut]

/-- Changing a document that was handed out changes nothing of the source. -/
theorem Apart.mutate (h : s.Apart) (i : Nat) (f : Document → Document) :
    (s.mutate i f).Apart ∧ (s.mutate i f).value = s.value := by
  rw [SharedSource.mutate]
  split
  · next n hn => exact ⟨h.edit n f, h.value_edit (List.mem_of_getElem? hn) f⟩
  · exact ⟨h, rfl⟩

/-- A shared source answers as the source of values. -/
theorem Apart.answers_eq (h : s.Apart) (t : FileTree) (events : List TemplateEvent) :
    s.answers t events = s.value.answers t events := by
  induction events generalizing s t with
  | nil => rfl
  | cons event rest ih =>
    cases event with
    | files change => exact ih h (change t)
    | mutate i f =>
      obtain ⟨hapart, hvalue⟩ := h.mutate i f
      rw [answers, TemplateSource.answers, ih hapart, hvalue]
    | request r =>
      obtain ⟨hapart, hvalue, hanswer⟩ := h.answer_eq t r
      rw [answers, TemplateSource.answers, ih hapart, hvalue, hanswer]

end Laws

end SharedSource

namespace TemplateSource

/-- Keeping the document of a template is not seen. Over any history of files, requests and changes
of the documents that were handed out, in which a file that has the time of the last successful
reading has its bytes too, a source that keeps the document answers like one that does not; each
answer is made from the file as it stands and the request; and so it is when documents are shared
and changed in place. -/
theorem cache_invisible (l : Location) (reader encoding : String) (t : FileTree)
    (events : List TemplateEvent) (h : TimesTell l encoding none t events) :
    (fresh l reader encoding true).answers t events =
        (fresh l reader encoding false).answers t events ∧
      (∀ caching, (fresh l reader encoding caching).answers t events =
        presentAnswers l encoding t events) ∧
      ∀ caching, (SharedSource.fresh l reader encoding caching).answers t events =
        (fresh l reader encoding caching).answers t events := by
  have hpresent : ∀ caching, (fresh l reader encoding caching).answers t events =
      presentAnswers l encoding t events := by
    intro caching
    cases caching with
    | false => exact answers_of_caching_eq_false rfl events
    | true => exact (remembers_fresh l reader encoding true).answers_eq h
  refine ⟨(hpresent true).trans (hpresent false).symm, hpresent, fun caching ↦ ?_⟩
  exact (SharedSource.apart_fresh l reader encoding caching).answers_eq t events

/-! ### A page that is edited while it is used -/

/-- The place of a template. -/
def pagePlace : Location := .ofText "page.html"

/-- The folder of the template, with nothing in it yet. -/
def site : FileTree := .empty (.ofText "/site")

/-- Writes the template at a time. -/
def putPage (time : Int) (text : String) (t : FileTree) : FileTree :=
  (t.write pagePlace time (Text.utf8Encode text)).toOption.getD t

/-- Removes the template. -/
def removePage (t : FileTree) : FileTree :=
  (t.remove pagePlace).toOption.getD t

/-- The template is loaded and the copy emptied; binding stops behind the title, for want of a game;
then the template is gone, comes back with other text, and is used again. -/
def pageHistory : List TemplateEvent :=
  [.files (putPage 1 "<b data-text-content=\"title\"></b><i data-text-content=\"game.name\"></i>"),
    .request .load, .mutate 0 fun _ ↦ [], .request (.renderText "\x7b\"title\": \"Chess\"\x7d"),
    .files removePage, .request .load, .files (putPage 2 "<b data-text-content=\"title\"></b>"),
    .request (.renderText "\x7b"), .request (.renderText "\x7b\"title\": \"Chess\"\x7d")]

theorem cache_invisible_pageHistory :
    TimesTell pagePlace "utf-8" none site pageHistory ∧
      (fresh pagePlace Markup.readerName "utf-8" true).answers site pageHistory =
        (fresh pagePlace Markup.readerName "utf-8" false).answers site pageHistory ∧
      (SharedSource.fresh pagePlace Markup.readerName "utf-8" true).answers site pageHistory =
        presentAnswers pagePlace "utf-8" site pageHistory := by
  have htell : TimesTell pagePlace "utf-8" none site pageHistory := by decide +kernel
  obtain ⟨hsame, hpresent, hshared⟩ :=
    cache_invisible pagePlace Markup.readerName "utf-8" site pageHistory htell
  exact ⟨htell, hsame, (hshared true).trans (hpresent true)⟩

end TemplateSource

end MarkupBinding
