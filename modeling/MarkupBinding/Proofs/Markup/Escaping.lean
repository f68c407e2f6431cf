import MarkupBinding.Markup.Printer

/-!
# Escaped text is harmless and can be read back

Text is written character by character, each as it is or as a reference, and the characters with a
meaning in markup always as references (`Writes`). Whatever is written in this way has no angle
bracket in it, has ampersands only at the beginning of those references, and is decoded to the text
(`Writes.conveys`). All that decoding needs to know of a reference is that its name is read as a
name and stands for the character (`IsRead`).

Both contexts write so: text between tags with three references (`escape_conveys`), and values in
quotes with a fourth one for the double quote where a value holds both kinds of quotes
(`quotedAttr_spec`).
-/

set_option autoImplicit false
set_option relaxedAutoImplicit false

namespace MarkupBinding.Reference

/-- The references that text is written with. -/
def textReferences : List (List Char × Char) :=
  [("amp".toList, '&'), ("lt".toList, '<'), ("gt".toList, '>')]

/-- The references that values in quotes are written with. -/
def valueReferences : List (List Char × Char) :=
  textReferences ++ [("quot".toList, '"')]

/-- Characters written one after the other, each as it is or as one of the references; an ampersand
or an angle bracket never as it is. -/
inductive Writes (references : List (List Char × Char)) : List Char → List Char → Prop
  | nil : Writes references [] []
  | plain {c : Char} {cs written : List Char} (hc : c ≠ '&' ∧ c ≠ '<' ∧ c ≠ '>')
      (h : Writes references cs written) : Writes references (c :: cs) (c :: written)
  | reference {name : List Char} {c : Char} {cs written : List Char}
      (hname : (name, c) ∈ references) (h : Writes references cs written) :
      Writes references (c :: cs) ('&' :: (name ++ ';' :: written))

/-- The name of a reference is read as a name, and stands for the character. -/
def IsRead (reference : List Char × Char) : Prop :=
  reference.1 ≠ [] ∧ reference.1.length < nameLimit ∧
    (reference.1.all fun c ↦ isNamePart c && c != '>') = true ∧
    namedInValue reference.1 true = [reference.2]

instance (reference : List Char × Char) : Decidable (IsRead reference) :=
  inferInstanceAs (Decidable (_ ∧ _ ∧ _ ∧ _))

theorem IsRead.isNamePart {reference : List Char × Char} (h : IsRead reference) :
    ∀ c ∈ reference.1, isNamePart c = true ∧ c ≠ '>' := by
  intro c hc
  have hpart := List.all_eq_true.1 h.2.2.1 c hc
  rwa [Bool.and_eq_true, bne_iff_ne] at hpart

/-- What is written stands for the text without being markup: there are no angle brackets in it, its
ampersands begin the given references, and decoding gives the text. -/
structure Conveys (references : List (List Char × Char)) (written text : String) : Prop where
  brackets : '<' ∉ written.toList ∧ '>' ∉ written.toList
  ampersands : ∀ before after, written.toList = before ++ '&' :: after →
    ∃ reference ∈ references, reference.1 ++ [';'] <+: after
  decodes : decodeValue written.toList = text.toList

/-! ### Decoding -/

section Decoding

variable {references : List (List Char × Char)} {name cs written : List Char}

/-- A name that ends at a semicolon is read as a whole. -/
theorem decodeOne_name (hne : name ≠ []) (hshort : name.length < nameLimit)
    (hparts : ∀ c ∈ name, isNamePart c = true) (rest : List Char) :
    decodeOne (name ++ ';' :: rest) = (namedInValue name true, rest) := by
  have hfront : ((name ++ ';' :: rest).take nameLimit).takeWhile isNamePart = name := by
    obtain ⟨more, hmore⟩ : ∃ more, nameLimit = name.length + (more + 1) :=
      ⟨nameLimit - name.length - 1, by omega⟩
    rw [hmore, List.take_length_add_append, List.take_succ_cons,
      List.takeWhile_append_of_pos hparts, List.takeWhile_cons_of_neg (by decide), List.append_nil]
  have hback : (name ++ ';' :: rest).drop name.length = ';' :: rest := List.drop_left
  obtain ⟨c, more, rfl⟩ := List.exists_cons_of_ne_nil hne
  have hc : c ≠ '#' := by
    rintro rfl
    exact absurd (hparts '#' List.mem_cons_self) (by decide)
  rw [decodeOne]
  · rw [hfront]
    simp only [hback]
  · intro more' heq
    exact hc (List.cons.inj heq).1

/-- What is written is decoded to the text. -/
theorem Writes.decodeSteps_eq (hread : ∀ reference ∈ references, IsRead reference)
    (h : Writes references cs written) :
    ∀ {fuel : Nat}, written.length ≤ fuel → decodeSteps fuel written = cs := by
  induction h with
  | nil => intro fuel _; cases fuel <;> rfl
  | @plain c cs written hc _ ih =>
    intro fuel hfuel
    obtain ⟨fuel, rfl⟩ := Nat.exists_eq_add_of_le' (Nat.lt_of_lt_of_le (Nat.succ_pos _) hfuel)
    rw [decodeSteps, ih (by simpa using hfuel)]
    exact hc.1
  | @reference name c cs written hname _ ih =>
    intro fuel hfuel
    obtain ⟨fuel, rfl⟩ := Nat.exists_eq_add_of_le' (Nat.lt_of_lt_of_le (Nat.succ_pos _) hfuel)
    obtain ⟨hne, hshort, -, hchar⟩ := hread _ hname
    have hlength : written.length ≤ fuel := by
      simp only [List.length_cons, List.length_append] at hfuel
      omega
    have hparts : ∀ c ∈ name, isNamePart c = true :=
      fun c hc ↦ ((hread _ hname).isNamePart c hc).1
    rw [decodeSteps, decodeOne_name hne hshort hparts, hchar]
    exact congrArg (c :: ·) (ih hlength)

end Decoding

/-! ### What is written conveys the text -/

section Conveying

variable {references : List (List Char × Char)} {cs written : List Char}

/-- The characters of a reference behind its ampersand are no brackets and no ampersands. -/
theorem ne_of_isRead {reference : List Char × Char} (h : IsRead reference) {c : Char}
    (hc : c ∈ reference.1 ++ [';']) : c ≠ '<' ∧ c ≠ '>' ∧ c ≠ '&' := by
  rcases List.mem_append.1 hc with hname | hend
  · obtain ⟨hpart, hbracket⟩ := h.isNamePart c hname
    refine ⟨?_, hbracket, ?_⟩
    · rintro rfl
      exact absurd hpart (by decide)
    · rintro rfl
      exact absurd hpart (by decide)
  · rw [List.mem_singleton.1 hend]
    decide

/-- There are no angle brackets in what is written. -/
theorem Writes.not_mem (hread : ∀ reference ∈ references, IsRead reference)
    (h : Writes references cs written) {x : Char} (hx : x = '<' ∨ x = '>') : x ∉ written := by
  have hampersand : x ≠ '&' := by rcases hx with rfl | rfl <;> decide
  induction h with
  | nil => exact List.not_mem_nil
  | @plain c cs written hc _ ih =>
    refine List.not_mem_cons_of_ne_of_not_mem ?_ ih
    rintro rfl
    exact hx.elim hc.2.1 hc.2.2
  | @reference name c cs written hname _ ih =>
    have hsplit : name ++ ';' :: written = (name ++ [';']) ++ written := by simp
    rw [hsplit]
    refine List.not_mem_cons_of_ne_of_not_mem hampersand (List.not_mem_append (fun hin ↦ ?_) ih)
    exact hx.elim (ne_of_isRead (hread _ hname) hin).1 (ne_of_isRead (hread _ hname) hin).2.1

/-- A character that is not in the front of a text is behind it. -/
theorem split_behind {c : Char} {front rest before after : List Char} (hfront : c ∉ front)
    (h : front ++ rest = before ++ c :: after) :
    ∃ more, before = front ++ more ∧ rest = more ++ c :: after := by
  rcases List.append_eq_append_iff.1 h with ⟨more, hbefore, hrest⟩ | ⟨more, hsplit, htail⟩
  · exact ⟨more, hbefore, hrest⟩
  · cases more with
    | nil => exact ⟨[], by simpa using hsplit.symm, by simpa using htail.symm⟩
    | cons d more =>
      obtain ⟨rfl, -⟩ := List.cons.inj htail
      exact absurd (by simp [hsplit]) hfront

/-- An ampersand in what is written begins one of the references. -/
theorem Writes.ampersands (hread : ∀ reference ∈ references, IsRead reference)
    (h : Writes references cs written) :
    ∀ before after, written = before ++ '&' :: after →
      ∃ reference ∈ references, reference.1 ++ [';'] <+: after := by
  induction h with
  | nil => intro before after heq; simp at heq
  | @plain c cs written hc _ ih =>
    intro before after heq
    have hfront : '&' ∉ [c] := fun hin ↦ hc.1 (List.mem_singleton.1 hin).symm
    obtain ⟨more, -, hrest⟩ := split_behind hfront heq
    exact ih more after hrest
  | @reference name c cs written hname _ ih =>
    intro before after heq
    -- the ampersand is the one that was just written, or one behind its reference
    cases before with
    | nil =>
      obtain ⟨-, rfl⟩ := List.cons.inj heq
      exact ⟨_, hname, written, by simp⟩
    | cons d before =>
      have htail : (name ++ [';']) ++ written = before ++ '&' :: after := by
        simpa using (List.cons.inj heq).2
      have hfront : '&' ∉ name ++ [';'] := fun hin ↦ (ne_of_isRead (hread _ hname) hin).2.2 rfl
      obtain ⟨more, -, hrest⟩ := split_behind hfront htail
      exact ih more after hrest

/-- Whatever is written character by character conveys the text. -/
theorem Writes.conveys (hread : ∀ reference ∈ references, IsRead reference) {s text : String}
    (h : Writes references text.toList s.toList) : Conveys references s text :=
  ⟨⟨h.not_mem hread (Or.inl rfl), h.not_mem hread (Or.inr rfl)⟩, h.ampersands hread,
    h.decodeSteps_eq hread (Nat.le_refl _)⟩

theorem Conveys.mono {more : List (List Char × Char)} {s text : String}
    (hsub : references ⊆ more) (h : Conveys references s text) : Conveys more s text := by
  refine ⟨h.brackets, fun before after heq ↦ ?_, h.decodes⟩
  obtain ⟨reference, hin, hfront⟩ := h.ampersands before after heq
  exact ⟨reference, hsub hin, hfront⟩

end Conveying

/-! ### The two contexts -/

/-- One character in front of what is written for the others. -/
theorem Writes.escapeChar_append {references : List (List Char × Char)}
    (hsub : textReferences ⊆ references) (c : Char) {cs written : List Char}
    (h : Writes references cs written) : Writes references (c :: cs) (escapeChar c ++ written) := by
  by_cases hamp : c = '&'
  · subst hamp
    have hin : ("amp".toList, '&') ∈ references := hsub (by decide)
    exact .reference hin h
  · by_cases hless : c = '<'
    · subst hless
      have hin : ("lt".toList, '<') ∈ references := hsub (by decide)
      exact .reference hin h
    · by_cases hgreater : c = '>'
      · subst hgreater
        have hin : ("gt".toList, '>') ∈ references := hsub (by decide)
        exact .reference hin h
      · rw [escapeChar, if_neg hamp, if_neg hless, if_neg hgreater]
        exact .plain ⟨hamp, hless, hgreater⟩ h

/-- Escaping writes a text. -/
theorem writes_escape (text : String) : Writes textReferences text.toList (escape text).toList := by
  rw [escape, String.toList_ofList]
  induction text.toList with
  | nil => exact .nil
  | cons c cs ih =>
    rw [List.flatMap_cons]
    exact ih.escapeChar_append (List.Subset.refl _) c

/-- Escaped text conveys the text. -/
theorem escape_conveys (text : String) : Conveys textReferences (escape text) text :=
  (writes_escape text).conveys (by decide +kernel)

/-- A double quote as a reference, and any other character as it is. -/
def quoteChar (c : Char) : List Char :=
  if c = '"' then "&quot;".toList else [c]

/-- Characters without a double quote among them are written as they are. -/
theorem flatMap_quoteChar {cs : List Char} (h : '"' ∉ cs) : cs.flatMap quoteChar = cs := by
  induction cs with
  | nil => rfl
  | cons c cs ih =>
    obtain ⟨hc, hcs⟩ := not_or.1 (mt List.mem_cons.2 h)
    rw [List.flatMap_cons, ih hcs, quoteChar, if_neg (Ne.symm hc), List.singleton_append]

/-- Escaping a character makes no double quote. -/
theorem not_mem_escapeChar {c : Char} (h : c ≠ '"') : '"' ∉ escapeChar c := by
  unfold escapeChar
  split
  · decide
  · split
    · decide
    · split
      · decide
      · exact fun hin ↦ h (List.mem_singleton.1 hin).symm

/-- There is no double quote among characters that were written so. -/
theorem not_mem_flatMap_quoteChar (cs : List Char) : '"' ∉ cs.flatMap quoteChar := by
  intro hin
  obtain ⟨c, -, hc⟩ := List.mem_flatMap.1 hin
  rw [quoteChar] at hc
  split at hc
  · exact absurd hc (by decide)
  · next hne => exact hne (List.mem_singleton.1 hc).symm

/-- With the double quotes as references too, escaping writes a text. -/
theorem writes_flatMap_quoteChar (text : String) :
    Writes valueReferences text.toList ((escape text).toList.flatMap quoteChar) := by
  rw [escape, String.toList_ofList]
  induction text.toList with
  | nil => exact .nil
  | cons c cs ih =>
    rw [List.flatMap_cons, List.flatMap_append]
    by_cases hquote : c = '"'
    · subst hquote
      have hin : ("quot".toList, '"') ∈ valueReferences := by decide
      exact .reference hin ih
    · rw [flatMap_quoteChar (not_mem_escapeChar hquote)]
      exact ih.escapeChar_append (List.subset_append_left _ _) c

/-- A text between two quotes, character by character. -/
theorem quoted_eq {quote : Char} {mark : String} (h : mark.toList = [quote]) (s : String) :
    mark ++ s ++ mark = String.ofList (quote :: s.toList ++ [quote]) := by
  apply String.toList_inj.1
  rw [String.toList_append, String.toList_append, String.toList_ofList, h, List.singleton_append]

/-- A value in quotes stands between two quotes of one kind, has no such quote in it, and conveys
the text. -/
theorem quotedAttr_spec (text : String) :
    ∃ (quote : Char) (written : String), (quote = '"' ∨ quote = '\'') ∧
      Markup.quotedAttr (escape text) = String.ofList (quote :: written.toList ++ [quote]) ∧
      quote ∉ written.toList ∧ Conveys valueReferences written text := by
  have hconveys : Conveys valueReferences (escape text) text :=
    (escape_conveys text).mono (List.subset_append_left _ _)
  simp only [Markup.quotedAttr, Bool.not_eq_true', List.contains_eq_mem, decide_eq_false_iff_not]
  by_cases hdouble : '"' ∉ (escape text).toList
  · rw [if_pos hdouble]
    exact ⟨'"', escape text, Or.inl rfl, quoted_eq rfl _, hdouble, hconveys⟩
  · rw [if_neg hdouble]
    by_cases hsingle : '\'' ∉ (escape text).toList
    · rw [if_pos hsingle]
      exact ⟨'\'', escape text, Or.inr rfl, quoted_eq rfl _, hsingle, hconveys⟩
    · rw [if_neg hsingle]
      have hwrites : Writes valueReferences text.toList
          (String.ofList ((escape text).toList.flatMap quoteChar)).toList := by
        rw [String.toList_ofList]
        exact writes_flatMap_quoteChar text
      refine ⟨'"', _, Or.inl rfl, quoted_eq rfl _, ?_, hwrites.conveys (by decide +kernel)⟩
      rw [String.toList_ofList]
      exact not_mem_flatMap_quoteChar _

/-- Only a value with both kinds of quotes needs the fourth reference. -/
example : Markup.quotedAttr (escape "\"Bob & Ada's\"") = "\"&quot;Bob &amp; Ada's&quot;\"" := by
  decide +kernel

end MarkupBinding.Reference
