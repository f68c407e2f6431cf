import MarkupBinding.Proofs.Expression.NormalForm
import MarkupBinding.Proofs.Text.Trimming

/-!
# Annotations with and without braces

A text is a path exactly when it is written as one (`Path.parse_eq_ok_iff`): an identifier, or two
around a dot, with blanks around each. What a reader of paths sees of a text are its trimmed parts,
and `Path.parts_of_not_mem` and `Path.parts_append_cons` give the parts of a text with no dot and
with one.

An annotation is read as a path when it is one, or is one placeholder and nothing beside it
(`Path.ofBinding_eq_ok_iff`). A path has no dollar sign in it, so as template text it is a literal
and is read as it stands (`Path.extractExpression_of_parse`). A single placeholder in normal form is
the path between braces, and nothing else is (`TemplateText.unparse_placeholder`).
-/

set_option autoImplicit false
set_option relaxedAutoImplicit false

namespace MarkupBinding

namespace Path

/-! ### How paths are written -/

/-- The texts that a path is written as: its name, or its scope and its name around a dot, with
blanks around each of them. -/
inductive WrittenAs : Path → List Char → Prop
  | bare {cs name : List Char} (hname : isIdentifier name = true) (hcs : Text.Padded cs name) :
      WrittenAs ⟨String.ofList name, none⟩ cs
  | dotted {before after scope name : List Char} (hscope : isIdentifier scope = true)
      (hname : isIdentifier name = true) (hbefore : Text.Padded before scope)
      (hafter : Text.Padded after name) :
      WrittenAs ⟨String.ofList name, some (String.ofList scope)⟩ (before ++ '.' :: after)

/-- A path as an annotation with braces around it. -/
def braced (t : String) : String :=
  "$\x7b" ++ t ++ "\x7d"

section Parts

variable {cs name before after : List Char} {s t : String} {p : Path}

/-- The only part of a text without a dot. -/
theorem parts_of_not_mem (h : '.' ∉ s.toList) : parts s = [Text.trimChars s.toList] := by
  have htrimmed : '.' ∉ Text.trimChars s.toList := by
    obtain ⟨front, back, hs, -, -⟩ := Text.padded_trimChars s.toList
    intro hmem
    exact h (by rw [hs]; simp [hmem])
  rw [parts, Text.cutAt_of_not_mem htrimmed, List.map_singleton, Text.trimChars_trimChars]

/-- The parts of a text with one dot are what stands before and behind it, trimmed. -/
theorem parts_append_cons (hs : s.toList = before ++ '.' :: after) (hbefore : '.' ∉ before)
    (hafter : '.' ∉ after) : parts s = [Text.trimChars before, Text.trimChars after] := by
  have hleft : '.' ∉ before.dropWhile Text.isBlank := fun hmem ↦
    hbefore ((List.dropWhile_suffix Text.isBlank).mem hmem)
  have hright : '.' ∉ after.rdropWhile Text.isBlank := fun hmem ↦
    hafter ((List.rdropWhile_prefix Text.isBlank after).mem hmem)
  have hfront : Text.trimChars (before.dropWhile Text.isBlank) = Text.trimChars before := by
    rw [Text.trimChars, List.dropWhile_idempotent]
    rfl
  have hback : Text.trimChars (after.rdropWhile Text.isBlank) = Text.trimChars after := by
    have hpadded : Text.Padded after (after.rdropWhile Text.isBlank) :=
      ⟨[], after.rtakeWhile Text.isBlank, by simp [List.rdropWhile_append_rtakeWhile], by simp,
        fun c hc ↦ List.mem_rtakeWhile_imp hc⟩
    exact hpadded.trimChars_eq.symm
  rw [parts, hs, Text.trimChars_append_cons (by decide), Text.cutAt_append_of_not_mem hleft,
    Text.cutAt_of_not_mem hright, List.map_cons, List.map_singleton, hfront, hback]

/-- A text is a path when its parts are one identifier or two, and it is the path made of them. -/
theorem parse_eq_ok_of_parts (hall : ∀ part ∈ parts s, isIdentifier part = true)
    (hparts : (∃ name, parts s = [name] ∧ p = ⟨String.ofList name, none⟩) ∨
      ∃ scope name, parts s = [scope, name] ∧
        p = ⟨String.ofList name, some (String.ofList scope)⟩) :
    parse s = .ok p := by
  have hfind : (parts s).find? (fun part ↦ !isIdentifier part) = none :=
    List.find?_eq_none.2 fun part hpart ↦ by simp [hall part hpart]
  simp only [parse, hfind]
  rcases hparts with ⟨name, hparts, rfl⟩ | ⟨scope, name, hparts, rfl⟩ <;> rw [hparts] <;> rfl

/-- Nothing but the parts of a text counts. -/
theorem parse_congr (h : parts s = parts t) (hs : parse s = .ok p) : parse t = .ok p := by
  obtain ⟨hall, hparts⟩ := parts_of_parse hs
  rw [h] at hall hparts
  exact parse_eq_ok_of_parts hall hparts

/-- An identifier is trimmed. -/
theorem trimChars_of_isIdentifier (h : isIdentifier name = true) : Text.trimChars name = name := by
  have hlabel : Text.IsLabel (String.ofList name) :=
    Text.isLabel_of_isIdentifier (by rw [String.toList_ofList]; exact h)
  have htrim := congrArg String.toList hlabel.trimmed
  rwa [Text.trim, String.toList_ofList, String.toList_ofList] at htrim

/-- An identifier with blanks around it has no dot in it. -/
theorem not_mem_of_padded (hname : isIdentifier name = true) (hcs : Text.Padded cs name) :
    '.' ∉ cs := by
  obtain ⟨front, back, rfl, hfront, hback⟩ := hcs
  simp only [List.mem_append, not_or]
  refine ⟨⟨fun hmem ↦ ?_, fun hmem ↦ ?_⟩, fun hmem ↦ ?_⟩
  · exact absurd (hfront _ hmem) (by decide)
  · exact absurd (isIdentifierPart_of_mem hname hmem) (by decide)
  · exact absurd (hback _ hmem) (by decide)

/-- An identifier with blanks around it is trimmed to the identifier. -/
theorem trimChars_of_padded (hname : isIdentifier name = true) (hcs : Text.Padded cs name) :
    Text.trimChars cs = name := by
  rw [hcs.trimChars_eq, trimChars_of_isIdentifier hname]

/-- A text is read as a path exactly when it is that path as written. -/
theorem parse_eq_ok_iff : parse s = .ok p ↔ p.WrittenAs s.toList := by
  constructor
  · intro h
    obtain ⟨hall, ⟨name, hparts, rfl⟩ | ⟨scope, name, hparts, rfl⟩⟩ := parts_of_parse h
    all_goals
      have hwhole := Text.intercalate_cutAt '.' (Text.trimChars s.toList)
      obtain ⟨front, back, hs, hfront, hback⟩ := Text.padded_trimChars s.toList
    · obtain ⟨piece, hpieces, rfl⟩ := List.map_eq_singleton_iff.1 hparts
      have hpiece : piece = Text.trimChars s.toList := by
        simpa [hpieces, List.intercalate] using hwhole
      refine .bare (hall _ (by simp [hparts])) ?_
      rw [hpiece, Text.trimChars_trimChars]
      exact Text.padded_trimChars _
    · obtain ⟨first, rest, hpieces, rfl, hrest⟩ := List.map_eq_cons_iff.1 hparts
      obtain ⟨second, rfl, rfl⟩ := List.map_eq_singleton_iff.1 hrest
      have hmiddle : first ++ '.' :: second = Text.trimChars s.toList := by
        simpa [hpieces, List.intercalate] using hwhole
      have houter : s.toList = (front ++ first) ++ '.' :: (second ++ back) := by
        rw [hs, ← hmiddle]
        simp
      rw [houter]
      exact .dotted (hall _ (by simp [hparts])) (hall _ (by simp [hparts]))
        ((Text.padded_trimChars first).blanks_append hfront)
        ((Text.padded_trimChars second).append_blanks hback)
  · intro h
    generalize hs : s.toList = cs at h
    cases h with
    | @bare cs name hname hcs =>
      have hparts : parts s = [name] := by
        rw [parts_of_not_mem (by rw [hs]; exact not_mem_of_padded hname hcs), hs,
          trimChars_of_padded hname hcs]
      exact parse_eq_ok_of_parts (by simp [hparts, hname]) (Or.inl ⟨name, hparts, rfl⟩)
    | @dotted before after scope name hscope hname hbefore hafter =>
      have hparts : parts s = [scope, name] := by
        rw [parts_append_cons hs (not_mem_of_padded hscope hbefore)
          (not_mem_of_padded hname hafter), trimChars_of_padded hscope hbefore,
          trimChars_of_padded hname hafter]
      exact parse_eq_ok_of_parts (by simp [hparts, hscope, hname])
        (Or.inr ⟨scope, name, hparts, rfl⟩)

/-- Blanks at the ends of a path do not count. -/
theorem parse_trim (h : parse s = .ok p) : parse (Text.trim s) = .ok p := by
  refine parse_congr ?_ h
  rw [parts, parts, Text.trim, String.toList_ofList, Text.trimChars_trimChars]

/-- A path is written in its own text, with no blanks in it. -/
theorem WrittenAs.text (h : p.WrittenAs cs) : p.WrittenAs p.text.toList := by
  cases h with
  | bare hname hcs =>
    rw [Path.text, String.toList_ofList]
    exact .bare hname (Text.Padded.refl _)
  | @dotted before after scope name hscope hname hbefore hafter =>
    have htext : (Path.text ⟨String.ofList name, some (String.ofList scope)⟩).toList =
        scope ++ '.' :: name := by
      simp [Path.text]
    rw [htext]
    exact .dotted hscope hname (Text.Padded.refl _) (Text.Padded.refl _)

end Parts

end Path

/-! ### Annotations -/

namespace TemplateText

/-- Text without a dollar sign has nothing in it to escape. -/
theorem escape_of_not_mem {cs : List Char} (h : '$' ∉ cs) : escape cs = cs := by
  fun_induction escape cs with
  | case1 => rfl
  | case2 rest ih => exact absurd List.mem_cons_self h
  | case3 c rest hne ih => rw [ih fun hmem ↦ h (List.mem_cons_of_mem _ hmem)]

/-- Text without a dollar sign is a literal. -/
theorem parse_of_not_mem {raw : String} (h : '$' ∉ raw.toList) :
    parse raw = .ok (flush raw.toList) := by
  refine parse_eq_ok_iff.2 ⟨normal_flush _, String.toList_inj.1 ?_⟩
  rw [toList_unparse, written_flush, escape_of_not_mem h]

theorem pure?_flush (literal : List Char) : pure? (flush literal) = none := by
  cases literal <;> rfl

theorem pure?_eq_some_iff {segments : TemplateText} {path : Path} {source : String} :
    segments.pure? = some (path, source) ↔ segments = [.placeholder path source] := by
  constructor
  · intro h
    match segments, h with
    | [.placeholder path source], h =>
      obtain ⟨rfl, rfl⟩ := Prod.mk.inj (Option.some.inj h)
      rfl
  · rintro rfl
    rfl

theorem unparse_placeholder (path : Path) (source : String) :
    unparse [.placeholder path source] = Path.braced source := by
  rw [← String.toList_inj, toList_unparse]
  simp [Segment.written, Path.braced, Token.openChars]

end TemplateText

namespace Path

section Annotation

variable {raw t : String} {p : Path}

/-- What is taken out of an annotation with the given segments. -/
theorem extractExpression_eq {segments : TemplateText} (h : TemplateText.parse raw = .ok segments) :
    extractExpression raw =
      .ok ((segments.pure?.map fun found ↦ Text.trim found.2).getD raw) := by
  unfold extractExpression
  rw [h]
  simp only [bind, Except.bind]
  cases segments.pure? <;> rfl

/-- A path is taken for itself. -/
theorem extractExpression_of_parse (h : parse t = .ok p) : extractExpression t = .ok t := by
  have hdollar : '$' ∉ t.toList := fun hmem ↦ (ne_of_parse h _ hmem).1 rfl
  rw [extractExpression_eq (TemplateText.parse_of_not_mem hdollar), TemplateText.pure?_flush]
  rfl

/-- Of a path between braces what stands between them is taken, trimmed. -/
theorem extractExpression_braced (h : parse t = .ok p) :
    extractExpression (braced t) = .ok (Text.trim t) := by
  have hnormal : TemplateText.Normal [.placeholder p t] :=
    TemplateText.Normal.placeholder (TemplateText.normal_flush []) h
  have hparse : TemplateText.parse (braced t) = .ok [.placeholder p t] :=
    TemplateText.parse_eq_ok_iff.2 ⟨hnormal, (TemplateText.unparse_placeholder p t).symm⟩
  rw [extractExpression_eq hparse]
  rfl

/-- What is taken out of an annotation is the annotation itself, or stands between its braces. -/
theorem eq_or_eq_braced_of_extractExpression {source : String}
    (h : extractExpression raw = .ok source) :
    source = raw ∨ ∃ t path, raw = braced t ∧ parse t = .ok path ∧ source = Text.trim t := by
  cases hparse : TemplateText.parse raw with
  | error e => rw [extractExpression, hparse] at h; cases h
  | ok segments =>
    rw [extractExpression_eq hparse] at h
    cases hpure : segments.pure? with
    | none =>
      rw [hpure] at h
      exact Or.inl (Except.ok.inj h).symm
    | some found =>
      obtain ⟨path, t⟩ := found
      rw [hpure] at h
      obtain rfl := TemplateText.pure?_eq_some_iff.1 hpure
      obtain ⟨hnormal, hraw⟩ := TemplateText.parse_eq_ok_iff.1 hparse
      refine Or.inr ⟨t, path, ?_, hnormal.wellFormed _ List.mem_cons_self,
        (Except.ok.inj h).symm⟩
      rw [hraw, TemplateText.unparse_placeholder]

/-- The path of an annotation is read from what is taken out of it. -/
theorem ofBinding_eq_parse {source : String} (h : extractExpression raw = .ok source) :
    ofBinding raw = parse source := by
  rw [ofBinding, h]
  rfl

/-- An annotation is read as a path exactly when it is that path, or the path between braces. -/
theorem ofBinding_eq_ok_iff :
    ofBinding raw = .ok p ↔ parse raw = .ok p ∨ ∃ t, raw = braced t ∧ parse t = .ok p := by
  constructor
  · intro h
    obtain ⟨source, hsource, hparse⟩ := ofBinding_eq_ok h
    rcases eq_or_eq_braced_of_extractExpression hsource with rfl | ⟨t, path, rfl, ht, rfl⟩
    · exact Or.inl hparse
    · rw [parse_trim ht] at hparse
      obtain rfl := Except.ok.inj hparse
      exact Or.inr ⟨t, rfl, ht⟩
  · rintro (h | ⟨t, rfl, h⟩)
    · rw [ofBinding_eq_parse (extractExpression_of_parse h), h]
    · rw [ofBinding_eq_parse (extractExpression_braced h), parse_trim h]

end Annotation

/-- Annotations are read alike with and without braces. A text is a path exactly when it is one
identifier or two around a dot, with blanks around each. A path is the annotation of itself, and so
are the path between braces and the text that the path is written as. An annotation is refused as an
expression exactly when it is neither a path nor one path between braces. -/
theorem ofBinding_with_and_without_braces (t : String) :
    (∀ p, parse t = .ok p ↔ p.WrittenAs t.toList) ∧
      (∀ p, parse t = .ok p →
        ofBinding t = .ok p ∧ ofBinding (braced t) = .ok p ∧ parse p.text = .ok p) ∧
      ((∃ e : ExpressionError, ofBinding t = .error e) ↔
        ¬ ∃ p : Path, p.WrittenAs t.toList ∨ ∃ inner, t = braced inner ∧
          p.WrittenAs inner.toList) := by
  refine ⟨fun p ↦ parse_eq_ok_iff, fun p h ↦ ⟨?_, ?_, ?_⟩, ?_⟩
  · exact ofBinding_eq_ok_iff.2 (Or.inl h)
  · exact ofBinding_eq_ok_iff.2 (Or.inr ⟨t, rfl, h⟩)
  · exact parse_eq_ok_iff.2 (parse_eq_ok_iff.1 h).text
  · have hwritten : ∀ p : Path, (p.WrittenAs t.toList ∨ ∃ inner, t = braced inner ∧
        p.WrittenAs inner.toList) ↔ ofBinding t = .ok p := by
      intro p
      simp only [ofBinding_eq_ok_iff, parse_eq_ok_iff]
    simp only [hwritten]
    cases ofBinding t with
    | error e => simp
    | ok p => simp

/-- Text beside the braces, an escaped opening and a second placeholder are refused. -/
example : ["x$\x7ba\x7d", "$$\x7ba\x7d", "$\x7ba\x7d$\x7bb\x7d"].all
    (fun raw ↦ (ofBinding raw).toOption.isNone) = true := by decide

end Path

end MarkupBinding
