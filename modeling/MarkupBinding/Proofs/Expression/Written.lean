import MarkupBinding.Expression.Template

/-!
# Paths as they are written

A path that was read from a text is that text without its blanks (`Path.text_of_parse`): reading
trims the text and the two sides of the dot, and no identifier has a blank in it. The placeholders
that a template text was read into are paths read from what stands between their braces
(`TemplateText.parse_placeholder`).
-/

set_option autoImplicit false
set_option relaxedAutoImplicit false

namespace MarkupBinding

namespace Text

/-- The characters that are not blank. -/
def solid (cs : List Char) : List Char :=
  cs.filter fun c ↦ !isBlank c

/-- The text without its blanks. -/
def withoutBlanks (s : String) : String :=
  String.ofList (solid s.toList)

theorem solid_append (front back : List Char) : solid (front ++ back) = solid front ++ solid back :=
  List.filter_append front back

/-- Blanks at the front do not count. -/
theorem solid_dropWhile (cs : List Char) : solid (cs.dropWhile isBlank) = solid cs := by
  induction cs with
  | nil => rfl
  | cons c rest ih =>
    cases hblank : isBlank c with
    | true =>
      rw [List.dropWhile_cons_of_pos hblank, ih, solid, solid, List.filter_cons, hblank]
      rfl
    | false => rw [List.dropWhile_cons_of_neg (by simp [hblank])]

/-- Trimming takes nothing but blanks. -/
theorem solid_trimChars (cs : List Char) : solid (trimChars cs) = solid cs := by
  have hreverse : ∀ ds : List Char, solid ds.reverse = (solid ds).reverse := fun ds ↦
    List.filter_reverse
  rw [trimChars, hreverse, solid_dropWhile, hreverse, List.reverse_reverse, solid_dropWhile]

theorem cutAt_ne_nil (separator : Char) (cs : List Char) : cutAt separator cs ≠ [] := by
  cases cs with
  | nil => exact List.cons_ne_nil _ _
  | cons c rest =>
    rw [cutAt]
    split
    · exact List.cons_ne_nil _ _
    · split <;> exact List.cons_ne_nil _ _

/-- A text without the separator is one piece. -/
theorem cutAt_of_not_mem {separator : Char} {cs : List Char} (h : separator ∉ cs) :
    cutAt separator cs = [cs] := by
  induction cs with
  | nil => rfl
  | cons c rest ih =>
    obtain ⟨hc, hrest⟩ := not_or.1 (mt List.mem_cons.2 h)
    rw [cutAt, if_neg (Ne.symm hc), ih hrest]

/-- A text without the separator in front of one is the first piece. -/
theorem cutAt_append_of_not_mem {separator : Char} {front : List Char} (h : separator ∉ front)
    (back : List Char) :
    cutAt separator (front ++ separator :: back) = front :: cutAt separator back := by
  induction front with
  | nil => rw [List.nil_append, cutAt, if_pos rfl]
  | cons c rest ih =>
    obtain ⟨hc, hrest⟩ := not_or.1 (mt List.mem_cons.2 h)
    rw [List.cons_append, cutAt, if_neg (Ne.symm hc), ih hrest]

/-- The pieces of a text with the separator between them are the text. -/
theorem intercalate_cutAt (separator : Char) (cs : List Char) :
    List.intercalate [separator] (cutAt separator cs) = cs := by
  induction cs with
  | nil => rfl
  | cons c rest ih =>
    obtain ⟨piece, pieces, hpieces⟩ := List.exists_cons_of_ne_nil (cutAt_ne_nil separator rest)
    rw [hpieces] at ih
    by_cases hc : c = separator
    · rw [cutAt, if_pos hc, hpieces, List.intercalate_cons_cons, ih, hc]
      rfl
    · rw [cutAt, if_neg hc, hpieces]
      cases pieces with
      | nil => rw [← ih]; rfl
      | cons next pieces =>
        rw [List.intercalate_cons_cons] at ih
        rw [List.intercalate_cons_cons, List.cons_append, List.cons_append, ih]

end Text

namespace Path

/-- No character of an identifier is a blank. -/
theorem isBlank_of_isIdentifierPart {c : Char} (h : isIdentifierPart c = true) :
    Text.isBlank c = false := by
  simp only [isIdentifierPart, Bool.or_eq_true, beq_iff_eq] at h
  rcases h with (halpha | rfl) | rfl
  · change (decide (65 ≤ c.val ∧ c.val ≤ 90) ||
      (decide (97 ≤ c.val) && decide (c.val ≤ 122)) ||
        (decide (48 ≤ c.val) && decide (c.val ≤ 57))) = true at halpha
    simp only [Bool.or_eq_true, Bool.and_eq_true, decide_eq_true_eq,
      UInt32.le_iff_toNat_le] at halpha
    change ((65 ≤ c.toNat ∧ c.toNat ≤ 90) ∨ (97 ≤ c.toNat ∧ c.toNat ≤ 122)) ∨
      (48 ≤ c.toNat ∧ c.toNat ≤ 57) at halpha
    simp only [Text.isBlank, Bool.or_eq_false_iff, Bool.and_eq_false_iff, decide_eq_false_iff_not,
      beq_eq_false_iff_ne]
    omega
  · decide
  · decide

theorem isIdentifierPart_of_isIdentifierStart {c : Char} (h : isIdentifierStart c = true) :
    isIdentifierPart c = true := by
  rw [isIdentifierStart, Bool.or_eq_true] at h
  rcases h with halpha | hunderscore
  · simp [isIdentifierPart, Char.isAlphanum, halpha]
  · simp [isIdentifierPart, hunderscore]

theorem isIdentifierPart_of_mem {cs : List Char} (h : isIdentifier cs = true) {c : Char}
    (hc : c ∈ cs) : isIdentifierPart c = true := by
  cases cs with
  | nil => cases hc
  | cons first rest =>
    rw [isIdentifier, Bool.and_eq_true, List.all_eq_true] at h
    rcases List.mem_cons.1 hc with rfl | hrest
    · exact isIdentifierPart_of_isIdentifierStart h.1
    · exact h.2 c hrest

/-- An identifier is the characters of it that are not blank. -/
theorem solid_of_isIdentifier {cs : List Char} (h : isIdentifier cs = true) :
    Text.solid cs = cs := by
  refine List.filter_eq_self.2 fun c hc ↦ ?_
  rw [isBlank_of_isIdentifierPart (isIdentifierPart_of_mem h hc)]
  rfl

/-- A text that is a path has one part or two, which are identifiers, and the path is made of
them. -/
theorem parts_of_parse {s : String} {p : Path} (h : parse s = .ok p) :
    (∀ part ∈ parts s, isIdentifier part = true) ∧
      ((∃ name, parts s = [name] ∧ p = ⟨String.ofList name, none⟩) ∨
        ∃ scope name, parts s = [scope, name] ∧
          p = ⟨String.ofList name, some (String.ofList scope)⟩) := by
  simp only [parse] at h
  split at h
  · cases h
  · next hlength =>
    split at h
    · cases h
    · next hall =>
      refine ⟨fun part hpart ↦ by simpa using List.find?_eq_none.1 hall part hpart, ?_⟩
      split at h
      · next scope name hparts => exact Or.inr ⟨scope, name, hparts, (Except.ok.inj h).symm⟩
      · next name rest hnot hparts =>
        match rest with
        | [] => exact Or.inl ⟨name, hparts, (Except.ok.inj h).symm⟩
        | [other] => exact (hnot other rfl).elim
        | _ :: _ :: _ => simp [hparts] at hlength
      · cases h

/-- A path is written as the text that it was read from, without its blanks. -/
theorem text_of_parse {s : String} {p : Path} (h : parse s = .ok p) :
    p.text = Text.withoutBlanks s := by
  obtain ⟨hall, hcases⟩ := parts_of_parse h
  have hsolid : ∀ piece, Text.trimChars piece ∈ parts s →
      Text.solid piece = Text.trimChars piece := by
    intro piece hpiece
    rw [← Text.solid_trimChars, solid_of_isIdentifier (hall _ hpiece)]
  have hwhole := Text.intercalate_cutAt '.' (Text.trimChars s.toList)
  rw [Text.withoutBlanks, ← Text.solid_trimChars, ← hwhole]
  rcases hcases with ⟨name, hparts, rfl⟩ | ⟨scope, name, hparts, rfl⟩
  · obtain ⟨piece, hpieces, rfl⟩ := List.map_eq_singleton_iff.1 hparts
    rw [hpieces, text, ← hsolid piece (by simp [hparts])]
    simp [List.intercalate]
  · obtain ⟨first, rest, hpieces, rfl, hrest⟩ := List.map_eq_cons_iff.1 hparts
    obtain ⟨second, rfl, rfl⟩ := List.map_eq_singleton_iff.1 hrest
    have hdot : Text.solid ['.'] = ['.'] := by decide
    rw [hpieces, text, ← hsolid first (by simp [hparts]), ← hsolid second (by simp [hparts]),
      List.intercalate_cons_cons, Text.solid_append, Text.solid_append, hdot]
    simp [List.intercalate, String.ofList_append, String.append_assoc]

/-- The name in a path is an identifier. -/
theorem isIdentifier_name {s : String} {p : Path} (h : parse s = .ok p) :
    isIdentifier p.name.toList = true := by
  obtain ⟨hall, ⟨name, hparts, rfl⟩ | ⟨scope, name, hparts, rfl⟩⟩ := parts_of_parse h
  · rw [String.toList_ofList]
    exact hall name (by simp [hparts])
  · rw [String.toList_ofList]
    exact hall name (by simp [hparts])

/-- The path of an annotation is read from what stands in it, braces around it taken off. -/
theorem ofBinding_eq_ok {raw : String} {path : Path} (h : ofBinding raw = .ok path) :
    ∃ source, extractExpression raw = .ok source ∧ parse source = .ok path := by
  rw [ofBinding] at h
  cases hsource : extractExpression raw with
  | error e => rw [hsource] at h; cases h
  | ok source => rw [hsource] at h; exact ⟨source, rfl, h⟩

end Path

namespace TemplateText

section Reading

variable {raw : String} {tokens : List Token} {segments : TemplateText}

/-- What is read from an opening on is the literal gathered before it and what is read inside. -/
theorem read_opened_eq_ok {literal : List Char}
    (h : read raw (.outside literal) (.opened :: tokens) = .ok segments) :
    ∃ rest, read raw (.inside []) tokens = .ok rest ∧ segments = flush literal ++ rest := by
  simp only [read] at h
  cases hrest : read raw (.inside []) tokens with
  | error e => rw [hrest] at h; cases h
  | ok rest =>
    rw [hrest] at h
    exact ⟨rest, rfl, (Except.ok.inj h).symm⟩

/-- What is read from a closing brace on is a placeholder for the source gathered before it, which
is a path, and what is read outside. -/
theorem read_closed_eq_ok {source : List Char}
    (h : read raw (.inside source) (.closed :: tokens) = .ok segments) :
    ∃ path rest, Path.parse (String.ofList source) = .ok path ∧
      read raw (.outside []) tokens = .ok rest ∧
      segments = .placeholder path (String.ofList source) :: rest := by
  simp only [read] at h
  cases hpath : Path.parse (String.ofList source) with
  | error e => rw [hpath] at h; cases h
  | ok path =>
    cases hrest : read raw (.outside []) tokens with
    | error e => rw [hpath, hrest] at h; cases h
    | ok rest =>
      rw [hpath, hrest] at h
      exact ⟨path, rest, rfl, rfl, (Except.ok.inj h).symm⟩

theorem placeholder_not_mem_flush {path : Path} {source : String} (literal : List Char) :
    Segment.placeholder path source ∉ flush literal := by
  cases literal <;> simp [flush]

/-- The path of a placeholder is read from its source, wherever the reader stands when it comes to
it. -/
theorem read_placeholder {source : String} {path : Path} {position : Position}
    (h : read raw position tokens = .ok segments)
    (hmem : Segment.placeholder path source ∈ segments) : Path.parse source = .ok path := by
  induction tokens generalizing position segments with
  | nil =>
    cases position with
    | outside literal =>
      obtain rfl := Except.ok.inj h
      exact absurd hmem (placeholder_not_mem_flush literal)
    | inside gathered => cases h
  | cons token tokens ih =>
    cases position with
    | outside literal =>
      cases token with
      | opened =>
        obtain ⟨rest, hrest, rfl⟩ := read_opened_eq_ok h
        rcases List.mem_append.1 hmem with hin | hin
        · exact absurd hin (placeholder_not_mem_flush literal)
        · exact ih hrest hin
      | escapedOpen | closed | dollar | run => exact ih h hmem
    | inside gathered =>
      cases token with
      | closed =>
        obtain ⟨found, rest, hpath, hrest, rfl⟩ := read_closed_eq_ok h
        rcases List.mem_cons.1 hmem with heq | hin
        · obtain ⟨rfl, rfl⟩ := Segment.placeholder.inj heq
          exact hpath
        · exact ih hrest hin
      | opened | escapedOpen => cases h
      | dollar | run => exact ih h hmem

end Reading

/-- The placeholders of a template text are paths read from what stands between their braces. -/
theorem parse_placeholder {raw source : String} {segments : TemplateText} {path : Path}
    (h : parse raw = .ok segments) (hmem : Segment.placeholder path source ∈ segments) :
    Path.parse source = .ok path :=
  read_placeholder h hmem

/-- The names of the paths in a template text are identifiers. -/
theorem isIdentifier_of_mem_paths {raw : String} {segments : TemplateText} {path : Path}
    (h : parse raw = .ok segments) (hmem : path ∈ segments.paths) :
    Path.isIdentifier path.name.toList = true := by
  obtain ⟨segment, hsegment, hpath⟩ := List.mem_filterMap.1 hmem
  cases segment with
  | literal text => cases hpath
  | placeholder found source =>
    obtain rfl := Option.some.inj hpath
    exact Path.isIdentifier_name (parse_placeholder h hsegment)

end TemplateText

end MarkupBinding
