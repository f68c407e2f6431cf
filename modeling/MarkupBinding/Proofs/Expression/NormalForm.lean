import MarkupBinding.Proofs.Expression.Written
import Mathlib.Data.List.Chain
import Mathlib.Data.Set.Function

/-!
# The normal form of template text

Reading template text and writing it are inverse to each other on the normal forms
(`TemplateText.parse_exactly_written_forms`). A list of segments is normal when its literals are not
empty and never next to each other, no literal in front of a placeholder ends in a dollar sign, and
the path of every placeholder is read from its source. A text is read exactly when it is such a list
written down, and then it is read as that list.

The reader works on tokens, and a token may hold many characters or one. `Token.opening_cases` cuts
the front off a text in four ways, and `read_opened`, `read_closed` and `read_cons` say what the
reader does with each; after that no proof looks at tokens again. What links the literal read so
far to the text still to come is `Token.Apart`: where the one ends in a dollar sign the other does
not go on with a brace or an opening, so that escaping the two together is escaping each.
-/

set_option autoImplicit false
set_option relaxedAutoImplicit false

namespace MarkupBinding

/-! ### Normal segments -/

namespace Segment

/-- A literal is not empty, and the path of a placeholder is read from its source. -/
def WellFormed : Segment → Prop
  | literal text => text ≠ ""
  | placeholder path source => Path.parse source = .ok path

/-- Literals are never next to each other, and none in front of a placeholder ends in a dollar
sign, which would escape the placeholder. -/
def MayPrecede : Segment → Segment → Prop
  | literal _, literal _ => False
  | literal text, placeholder _ _ => text.toList.getLast? ≠ some '$'
  | placeholder _ _, _ => True

/-- The characters of the segment as template text. -/
def written : Segment → List Char
  | literal text => TemplateText.escape text.toList
  | placeholder _ source => Token.openChars ++ source.toList ++ ['\x7d']

end Segment

/-- The segments that template text is read as. -/
structure TemplateText.Normal (segments : TemplateText) : Prop where
  wellFormed : ∀ s ∈ segments, s.WellFormed
  neighbours : segments.IsChain Segment.MayPrecede

/-! ### The openings at the front of a text -/

namespace Token

/-- The text begins with a brace or an opening, which a dollar sign in front would change. -/
def Bracing (cs : List Char) : Prop :=
  ['\x7b'] <+: cs ∨ openChars <+: cs

/-- Where the front ends in a dollar sign, the back does not take it up. -/
def Apart (front back : List Char) : Prop :=
  front.getLast? = some '$' → ¬ Bracing back

variable {c : Char} {front rest : List Char}

theorem apart_nil (back : List Char) : Apart [] back := by
  intro h
  cases h

theorem apart_singleton_of_ne (h : c ≠ '$') (rest : List Char) : Apart [c] rest := by
  intro hlast
  exact absurd (Option.some.inj hlast) h

/-- What counts is the last character of the front. -/
theorem apart_concat : Apart (front ++ [c]) rest ↔ Apart [c] rest := by
  simp [Apart]

theorem apart_openChars (front back : List Char) : Apart (front ++ openChars) back := by
  intro h
  simp [openChars] at h

/-- A text begins with an escaped opening, with an opening, or with a character that begins neither.
-/
theorem opening_cases (cs : List Char) :
    cs = [] ∨ (∃ rest, cs = escapedOpen.chars ++ rest) ∨ (∃ rest, cs = openChars ++ rest) ∨
      ∃ c rest, cs = c :: rest ∧ Apart [c] rest := by
  cases cs with
  | nil => exact Or.inl rfl
  | cons c rest =>
    by_cases hapart : Apart [c] rest
    · exact Or.inr (Or.inr (Or.inr ⟨c, rest, rfl, hapart⟩))
    · obtain ⟨hdollar, hbracing⟩ := Classical.not_imp.1 hapart
      obtain rfl := Option.some.inj hdollar
      rcases not_not.1 hbracing with ⟨tail, rfl⟩ | ⟨tail, rfl⟩
      · exact Or.inr (Or.inr (Or.inl ⟨tail, rfl⟩))
      · exact Or.inr (Or.inl ⟨tail, rfl⟩)

theorem scan_dollar (h : Apart ['$'] rest) : scan ('$' :: rest) = dollar :: scan rest := by
  have hbracing := h rfl
  rw [scan]
  · rintro tail rfl
    exact hbracing (Or.inr ⟨tail, rfl⟩)
  · rintro tail rfl
    exact hbracing (Or.inl ⟨tail, rfl⟩)

/-- An ordinary character joins the run behind it, or is a run of its own. -/
theorem scan_ordinary (hdollar : c ≠ '$') (hclosed : c ≠ '\x7d') :
    (∃ chars tokens, scan rest = run chars :: tokens ∧
        scan (c :: rest) = run (c :: chars) :: tokens) ∨
      scan (c :: rest) = run [c] :: scan rest := by
  rw [scan]
  · split
    · next chars tokens hrun => exact Or.inl ⟨chars, tokens, hrun, rfl⟩
    · exact Or.inr rfl
  all_goals simp_all

end Token

namespace Path

/-- The characters of a text that is a path are blanks, dots and those of identifiers. -/
theorem mem_of_parse {s : String} {p : Path} (h : parse s = .ok p) {c : Char} (hc : c ∈ s.toList) :
    Text.isBlank c = true ∨ c = '.' ∨ isIdentifierPart c = true := by
  cases hblank : Text.isBlank c with
  | true => exact Or.inl rfl
  | false =>
    have hsolid : c ∈ p.text.toList := by
      rw [text_of_parse h, Text.withoutBlanks, String.toList_ofList]
      exact List.mem_filter.2 ⟨hc, by simp [hblank]⟩
    obtain ⟨hall, ⟨name, hparts, rfl⟩ | ⟨scope, name, hparts, rfl⟩⟩ := parts_of_parse h
    · have hname : c ∈ name := by simpa [text] using hsolid
      exact Or.inr (Or.inr (isIdentifierPart_of_mem (hall name (by simp [hparts])) hname))
    · have hmem : c ∈ scope ∨ c = '.' ∨ c ∈ name := by simpa [text] using hsolid
      rcases hmem with hscope | rfl | hname
      · exact Or.inr (Or.inr (isIdentifierPart_of_mem (hall scope (by simp [hparts])) hscope))
      · exact Or.inr (Or.inl rfl)
      · exact Or.inr (Or.inr (isIdentifierPart_of_mem (hall name (by simp [hparts])) hname))

/-- The source of a path has no character that means something to the reader of template text. -/
theorem ne_of_parse {s : String} {p : Path} (h : parse s = .ok p) :
    ∀ c ∈ s.toList, c ≠ '$' ∧ c ≠ '\x7d' := by
  intro c hc
  rcases mem_of_parse h hc with hblank | rfl | hpart
  · constructor <;> rintro rfl <;> exact absurd hblank (by decide)
  · decide
  · constructor <;> rintro rfl <;> exact absurd hpart (by decide)

end Path

namespace TemplateText

open Token

/-! ### Reading one character -/

/-- The position with more characters gathered. -/
def Position.gather (chars : List Char) : Position → Position
  | outside literal => outside (literal ++ chars)
  | inside source => inside (source ++ chars)

section Reading

variable {raw : String} {c : Char} {rest : List Char} {position : Position}
  {segments : TemplateText}

theorem read_run (chars : List Char) (tokens : List Token) :
    read raw position (run chars :: tokens) = read raw (position.gather chars) tokens := by
  cases position <;> rfl

/-- A character that begins no opening is gathered, unless it closes a placeholder. -/
theorem read_cons (hapart : Apart [c] rest)
    (hclosed : c = '\x7d' → ∃ literal, position = .outside literal) :
    read raw position (scan (c :: rest)) = read raw (position.gather [c]) (scan rest) := by
  by_cases hdollar : c = '$'
  · subst hdollar
    rw [scan_dollar hapart]
    cases position <;> rfl
  · by_cases hc : c = '\x7d'
    · obtain ⟨literal, rfl⟩ := hclosed hc
      subst hc
      rfl
    · obtain ⟨chars, tokens, hrest, hscan⟩ | hscan : _ ∨ scan (c :: rest) = _ :=
        scan_ordinary hdollar hc
      · rw [hscan, hrest, read_run, read_run]
        cases position <;> simp [Position.gather]
      · rw [hscan, read_run]

/-- An opening outside placeholders ends the literal and begins a placeholder. -/
theorem read_opened (literal : List Char) :
    read raw (.outside literal) (scan (openChars ++ rest)) =
      (read raw (.inside []) (scan rest)).map (flush literal ++ ·) := by
  change (read raw (.inside []) (scan rest) >>= fun segments ↦ pure (flush literal ++ segments)) = _
  cases read raw (.inside []) (scan rest) <;> rfl

/-- The closing brace of a placeholder, whose source must be a path. -/
theorem read_closed (source : List Char) :
    read raw (.inside source) (scan ('\x7d' :: rest)) =
      (Path.parse (String.ofList source)).bind fun path ↦
        (read raw (.outside []) (scan rest)).map
          (.placeholder path (String.ofList source) :: ·) := by
  change (Path.parse (String.ofList source) >>= fun path ↦
    read raw (.outside []) (scan rest) >>= fun segments ↦
      pure (.placeholder path (String.ofList source) :: segments)) = _
  cases Path.parse (String.ofList source) with
  | error e => rfl
  | ok path => cases read raw (.outside []) (scan rest) <;> rfl

end Reading

/-! ### What is read is normal -/

section Writing

variable {raw : String} {front back cs literal : List Char} {segments : TemplateText}

/-- Two texts are escaped one after the other when no opening lies across their border. -/
theorem escape_append (h : front.getLast? = some '$' → ¬ ['\x7b'] <+: back) :
    escape (front ++ back) = escape front ++ escape back := by
  fun_induction escape front with
  | case1 => rfl
  | case2 rest ih =>
    have hrest := ih fun hlast ↦ h (by simp [List.getLast?_cons, hlast])
    simp only [List.cons_append, escape, hrest]
  | case3 c rest hne ih =>
    have hrest := ih fun hlast ↦ h (by simp [List.getLast?_cons, hlast])
    rw [List.cons_append, escape, hrest, List.cons_append]
    rintro tail rfl htail
    cases rest with
    | nil => exact h rfl ⟨tail, htail.symm⟩
    | cons d rest =>
      obtain ⟨rfl, -⟩ := List.cons.inj htail
      exact hne rest rfl rfl

theorem toList_unparse (segments : TemplateText) :
    (unparse segments).toList = segments.flatMap Segment.written := by
  rw [unparse, String.toList_ofList]
  rfl

theorem written_flush (literal : List Char) :
    (flush literal).flatMap Segment.written = escape literal := by
  cases literal <;> simp [flush, Segment.written, escape]

theorem normal_flush (literal : List Char) : Normal (flush literal) := by
  cases literal with
  | nil => exact ⟨fun _ h ↦ absurd h List.not_mem_nil, List.IsChain.nil⟩
  | cons c rest =>
    refine ⟨fun s hs ↦ ?_, List.IsChain.singleton _⟩
    obtain rfl := List.mem_singleton.1 hs
    exact fun hempty ↦ absurd (congrArg String.toList hempty) (by simp)

theorem Normal.placeholder {path : Path} {source : String} (h : Normal segments)
    (hpath : Path.parse source = .ok path) : Normal (.placeholder path source :: segments) := by
  refine ⟨fun s hs ↦ ?_, ?_⟩
  · rcases List.mem_cons.1 hs with rfl | hrest
    · exact hpath
    · exact h.wellFormed s hrest
  · cases segments with
    | nil => exact List.IsChain.singleton _
    | cons s rest => exact List.isChain_cons_cons.2 ⟨trivial, h.neighbours⟩

/-- A literal may stand in front of a placeholder when it does not end in a dollar sign. -/
theorem Normal.flush_append {path : Path} {source : String}
    (h : Normal (.placeholder path source :: segments)) (hlast : literal.getLast? ≠ some '$') :
    Normal (flush literal ++ .placeholder path source :: segments) := by
  cases literal with
  | nil => exact h
  | cons c rest =>
    refine ⟨fun s hs ↦ ?_, List.isChain_cons_cons.2 ⟨?_, h.neighbours⟩⟩
    · rcases List.mem_append.1 hs with hin | hin
      · exact (normal_flush _).wellFormed s hin
      · exact h.wellFormed s hin
    · simpa [Segment.MayPrecede] using hlast

/-- What is read inside a placeholder is its source up to the closing brace, and the rest after it.
-/
theorem read_inside_eq_ok {source : List Char}
    (h : read raw (.inside source) (scan cs) = .ok segments) :
    ∃ more path tail rest, cs = more ++ '\x7d' :: tail ∧
      Path.parse (String.ofList (source ++ more)) = .ok path ∧
      read raw (.outside []) (scan tail) = .ok rest ∧
      segments = .placeholder path (String.ofList (source ++ more)) :: rest := by
  induction hn : cs.length generalizing cs source with
  | zero =>
    obtain rfl := List.eq_nil_of_length_eq_zero hn
    cases h
  | succ n ih =>
    rcases opening_cases cs with rfl | ⟨tail, rfl⟩ | ⟨tail, rfl⟩ | ⟨c, tail, rfl, hapart⟩
    · cases h
    · cases h
    · cases h
    · by_cases hc : c = '\x7d'
      · subst hc
        obtain ⟨path, rest, hpath, hrest, rfl⟩ := read_closed_eq_ok h
        refine ⟨[], path, tail, rest, rfl, ?_, hrest, ?_⟩
        · rw [List.append_nil]
          exact hpath
        · rw [List.append_nil]
      · rw [read_cons hapart fun hclosed ↦ absurd hclosed hc] at h
        obtain ⟨more, path, after, rest, rfl, hpath, hrest, rfl⟩ := ih h (by simpa using hn)
        have hgathered : source ++ c :: more = source ++ [c] ++ more := List.append_cons ..
        refine ⟨c :: more, path, after, rest, rfl, ?_, hrest, ?_⟩
        · rw [hgathered]
          exact hpath
        · rw [hgathered]

/-- What is read outside placeholders is normal, and written down it is the literal gathered before
and the text that was read. -/
theorem normal_of_read (hapart : Apart literal cs)
    (h : read raw (.outside literal) (scan cs) = .ok segments) :
    Normal segments ∧ segments.flatMap Segment.written = escape literal ++ cs := by
  induction hn : cs.length using Nat.strong_induction_on generalizing cs literal segments with
  | _ n ih =>
    subst hn
    rcases opening_cases cs with rfl | ⟨tail, rfl⟩ | ⟨tail, rfl⟩ | ⟨c, tail, rfl, hplain⟩
    · obtain rfl := Except.ok.inj h
      exact ⟨normal_flush literal, by rw [written_flush, List.append_nil]⟩
    · have hshorter : tail.length < (escapedOpen.chars ++ tail).length := by
        simp only [Token.chars, List.length_append, List.length_cons]
        omega
      obtain ⟨hnormal, hwritten⟩ := ih _ hshorter (apart_openChars literal tail) h rfl
      refine ⟨hnormal, ?_⟩
      rw [hwritten, escape_append fun _ ↦ by decide, List.append_assoc]
      rfl
    · have hlast : literal.getLast? ≠ some '$' := fun hlast ↦ hapart hlast (Or.inr ⟨tail, rfl⟩)
      obtain ⟨found, hinside, rfl⟩ := read_opened_eq_ok h
      obtain ⟨source, path, after, rest, rfl, hpath, hrest, rfl⟩ := read_inside_eq_ok hinside
      have hshorter : after.length < (openChars ++ (source ++ '\x7d' :: after)).length := by
        simp only [List.length_append, List.length_cons]
        omega
      obtain ⟨hnormal, hwritten⟩ := ih _ hshorter (apart_nil after) hrest rfl
      refine ⟨(hnormal.placeholder hpath).flush_append hlast, ?_⟩
      rw [List.flatMap_append, written_flush, List.flatMap_cons, hwritten]
      simp [Segment.written, escape]
    · rw [read_cons hplain fun _ ↦ ⟨literal, rfl⟩] at h
      obtain ⟨hnormal, hwritten⟩ := ih _ (Nat.lt_succ_self _) (apart_concat.2 hplain) h rfl
      refine ⟨hnormal, ?_⟩
      have hborder : literal.getLast? = some '$' → ¬ ['\x7b'] <+: [c] := by
        rintro hlast ⟨more, hmore⟩
        obtain ⟨rfl, -⟩ := List.cons.inj hmore
        exact hapart hlast (Or.inl ⟨tail, rfl⟩)
      have hone : escape [c] = [c] := by
        rw [escape]
        · rfl
        · rintro rest - hnil
          cases hnil
      rw [hwritten, escape_append hborder, hone, List.append_assoc]
      rfl

/-! ### What is normal is read -/

/-- Escaping leaves the first character where it is. -/
theorem exists_escape_cons (c : Char) (rest : List Char) :
    ∃ more, escape (c :: rest) = c :: more := by
  rw [escape.eq_def]
  split
  · next h => cases h
  · next tail h =>
    obtain ⟨rfl, -⟩ := List.cons.inj h
    exact ⟨_, rfl⟩
  · next d tail _ h =>
    obtain ⟨rfl, -⟩ := List.cons.inj h
    exact ⟨_, rfl⟩

/-- An escaped text begins with a brace or an opening only where the text itself begins with a
brace, or is empty and what follows does. -/
theorem bracing_escape {text : List Char} (h : Apart text back)
    (hbracing : Bracing (escape text ++ back)) :
    text = [] ∧ Bracing back ∨ ∃ rest, text = '\x7b' :: rest := by
  cases text with
  | nil => exact Or.inl ⟨rfl, hbracing⟩
  | cons c rest =>
    obtain ⟨more, hmore⟩ := exists_escape_cons c rest
    rcases hbracing with hbrace | hopen
    · rw [hmore, List.cons_append] at hbrace
      obtain ⟨rfl, -⟩ := List.cons_prefix_cons.1 hbrace
      exact Or.inr ⟨rest, rfl⟩
    · obtain ⟨rfl, -⟩ : '$' = c ∧ _ := by
        rw [hmore, List.cons_append] at hopen
        exact List.cons_prefix_cons.1 hopen
      cases rest with
      | nil =>
        obtain ⟨-, hbrace⟩ := List.cons_prefix_cons.1 hopen
        exact absurd (Or.inl hbrace) (h rfl)
      | cons d rest =>
        by_cases hd : d = '\x7b'
        · subst hd
          obtain ⟨-, hbrace⟩ := List.cons_prefix_cons.1 hopen
          exact absurd (List.cons_prefix_cons.1 hbrace).1 (by decide)
        · obtain ⟨more, hrest⟩ := exists_escape_cons d rest
          rw [escape, hrest] at hopen
          · obtain ⟨-, hbrace⟩ := List.cons_prefix_cons.1 hopen
            exact absurd (List.cons_prefix_cons.1 hbrace).1 (Ne.symm hd)
          · rintro tail - htail
            exact hd (List.cons.inj htail).1

/-- An escaped text that the text behind it stays apart from is gathered as the text it stands for.
-/
theorem read_escape (text : List Char) (h : Apart text back) (literal : List Char) :
    read raw (.outside literal) (scan (escape text ++ back)) =
      read raw (.outside (literal ++ text)) (scan back) := by
  fun_induction escape text generalizing literal with
  | case1 => rw [List.append_nil]; rfl
  | case2 rest ih =>
    have hrest : Apart rest back := by
      intro hlast
      exact h (by simp [List.getLast?_cons, hlast])
    have hstep := ih hrest (literal ++ openChars)
    rw [List.append_assoc] at hstep
    exact hstep
  | case3 c rest hne ih =>
    have hrest : Apart rest back := by
      intro hlast
      exact h (by simp [List.getLast?_cons, hlast])
    have hplain : Apart [c] (escape rest ++ back) := by
      intro hdollar hbracing
      obtain rfl := Option.some.inj hdollar
      rcases bracing_escape hrest hbracing with ⟨rfl, hback⟩ | ⟨tail, rfl⟩
      · exact h rfl hback
      · exact hne tail rfl rfl
    rw [List.cons_append, read_cons hplain fun _ ↦ ⟨literal, rfl⟩, Position.gather, ih hrest]
    simp

/-- The source of a placeholder is gathered up to the closing brace. -/
theorem read_source {source : List Char} (h : ∀ c ∈ source, c ≠ '$' ∧ c ≠ '\x7d')
    (gathered : List Char) :
    read raw (.inside gathered) (scan (source ++ back)) =
      read raw (.inside (gathered ++ source)) (scan back) := by
  induction source generalizing gathered with
  | nil => rw [List.append_nil]; rfl
  | cons c rest ih =>
    obtain ⟨hdollar, hclosed⟩ := h c List.mem_cons_self
    rw [List.cons_append, read_cons (apart_singleton_of_ne hdollar _) fun hc ↦ absurd hc hclosed,
      Position.gather, ih fun d hd ↦ h d (List.mem_cons_of_mem _ hd)]
    simp

end Writing

/-! ### Reading and writing -/

section NormalForm

variable {raw : String} {segments : TemplateText}

/-- A normal list without its first segment is normal. -/
theorem Normal.tail {s : Segment} (h : Normal (s :: segments)) : Normal segments :=
  ⟨fun t ht ↦ h.wellFormed t (List.mem_cons_of_mem _ ht), h.neighbours.tail⟩

/-- Behind a literal a normal list goes on with a placeholder that the literal stays apart from, or
not at all. -/
theorem Normal.apart {text : String} (h : Normal (.literal text :: segments)) :
    Apart text.toList (segments.flatMap Segment.written) := by
  intro hlast hbracing
  cases segments with
  | nil => simp [Bracing, openChars] at hbracing
  | cons s rest =>
    have hprecede := (List.isChain_cons_cons.1 h.neighbours).1
    cases s with
    | literal other => exact hprecede
    | placeholder path source => exact hprecede hlast

theorem flush_toList {text : String} (h : text ≠ "") : flush text.toList = [.literal text] := by
  cases htext : text.toList with
  | nil => exact absurd (String.toList_eq_nil_iff.1 htext) h
  | cons c rest => rw [flush, ← htext, String.ofList_toList]; exact List.cons_ne_nil _ _

/-- A placeholder written down is read back, with the literal gathered in front of it. -/
theorem read_written_placeholder {path : Path} {source : String} {back : List Char}
    (hpath : Path.parse source = .ok path) (literal : List Char) :
    read raw (.outside literal) (scan ((Segment.placeholder path source).written ++ back)) =
      (read raw (.outside []) (scan back)).map
        (flush literal ++ .placeholder path source :: ·) := by
  rw [Segment.written, List.append_assoc, List.append_assoc, read_opened,
    read_source (Path.ne_of_parse hpath), List.nil_append, List.singleton_append, read_closed,
    String.ofList_toList, hpath]
  cases read raw (.outside []) (scan back) <;> rfl

/-- Normal segments written down are read back. -/
theorem read_written (h : Normal segments) :
    read raw (.outside []) (scan (segments.flatMap Segment.written)) = .ok segments := by
  induction segments with
  | nil => rfl
  | cons s rest ih =>
    cases s with
    | placeholder path source =>
      rw [List.flatMap_cons, read_written_placeholder (h.wellFormed _ List.mem_cons_self),
        ih h.tail]
      rfl
    | literal text =>
      have hflush := flush_toList (h.wellFormed _ List.mem_cons_self)
      have hrest := ih h.tail
      rw [List.flatMap_cons, Segment.written, read_escape _ h.apart, List.nil_append]
      cases rest with
      | nil => exact congrArg Except.ok hflush
      | cons next rest =>
        cases next with
        | literal other => exact absurd (List.isChain_cons_cons.1 h.neighbours).1 id
        | placeholder path source =>
          have hpath := h.tail.wellFormed _ List.mem_cons_self
          rw [List.flatMap_cons, read_written_placeholder hpath] at hrest ⊢
          cases hback : read raw (.outside []) (scan (rest.flatMap Segment.written)) with
          | error e => rw [hback] at hrest; cases hrest
          | ok found =>
            rw [hback] at hrest
            obtain ⟨-, rfl⟩ := List.cons.inj (Except.ok.inj hrest)
            exact congrArg (fun front ↦ Except.ok (front ++ _)) hflush

/-- A text is read as the segments of which it is the written form, if they are normal. -/
theorem parse_eq_ok_iff : parse raw = .ok segments ↔ Normal segments ∧ raw = unparse segments := by
  constructor
  · intro h
    obtain ⟨hnormal, hwritten⟩ := normal_of_read (apart_nil _) h
    exact ⟨hnormal, String.toList_inj.1 (by rw [toList_unparse, hwritten]; rfl)⟩
  · rintro ⟨hnormal, rfl⟩
    rw [parse, tokenize, toList_unparse]
    exact read_written hnormal

/-- The reader and the writer of template text are inverse to each other on normal segments. A text
is read as certain segments exactly when these are normal and the text is their written form; no
two normal lists have the same written form; and a text that is the written form of none is refused
as an expression. -/
theorem parse_exactly_written_forms (raw : String) :
    (∀ segments, parse raw = .ok segments ↔ Normal segments ∧ raw = unparse segments) ∧
      Set.InjOn unparse {segments | Normal segments} ∧
      ((∃ e : ExpressionError, parse raw = .error e) ↔
        ¬ ∃ segments, Normal segments ∧ raw = unparse segments) := by
  refine ⟨fun segments ↦ parse_eq_ok_iff, ?_, ?_⟩
  · intro segments hsegments others hothers hsame
    have hfirst := parse_eq_ok_iff.2 ⟨hsegments, rfl⟩
    have hsecond := parse_eq_ok_iff.2 ⟨hothers, hsame⟩
    exact Except.ok.inj (hfirst.symm.trans hsecond)
  · cases hparse : parse raw with
    | error e =>
      refine ⟨fun _ ⟨segments, hsegments⟩ ↦ ?_, fun _ ↦ ⟨e, rfl⟩⟩
      rw [parse_eq_ok_iff.2 hsegments] at hparse
      cases hparse
    | ok segments =>
      refine ⟨?_, fun hnone ↦ absurd ⟨segments, parse_eq_ok_iff.1 hparse⟩ hnone⟩
      rintro ⟨e, he⟩
      cases he

/-- Three dollar signs in front of a brace are one, and an escaped opening. -/
example : parse "$$$\x7bname\x7d" = .ok [.literal "$$\x7bname\x7d"] := by rfl

end NormalForm

end TemplateText

end MarkupBinding
