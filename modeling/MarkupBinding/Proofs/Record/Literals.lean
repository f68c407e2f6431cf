import MarkupBinding.Keyed
import MarkupBinding.Text.Quoted
import Mathlib.Data.List.TakeWhile

/-!
# Reading string literals

What stands between the double quotes of a string literal in a record source is read character by
character, and behind a backslash as an escape (`Reads`). A text that is put between the quotes as
it stands is read as itself exactly if it has no quote, end of line or null character in it and no
backslash in it begins an escape (`isVerbatim`): every escape reads more characters than it gives,
so the value of a text with an escape in it is shorter than the text (`reads_cases`).

Between triple quotes ends of lines and single quotes may stand, and it only matters that the
literal can be read and ends where it should (`isReadable`). A name that is followed by a single
quote can be read there exactly if it can by itself (`isReadable_append`).
-/

set_option autoImplicit false
set_option relaxedAutoImplicit false

namespace MarkupBinding.StringLiteral

/-- The characters that no literal holds on their own: the quote around it, an end of line, and the
null character that no source holds. -/
def barredSigns : List Char :=
  ['"', '\n', '\r', '\x00']

/-- The escapes for one character each, with the characters that they stand for. -/
def signEscapes : List (Char × Char) :=
  [('\\', '\\'), ('\'', '\''), ('"', '"'), ('a', '\x07'), ('b', '\x08'), ('f', '\x0c'),
    ('n', '\n'), ('r', '\r'), ('t', '\t'), ('v', '\x0b')]

/-- The escapes for a code point in hexadecimal digits, with the number of these. -/
def codeEscapes : List (Char × Nat) :=
  [('x', 2), ('u', 4), ('U', 8)]

/-- The ends of lines. -/
def lineEnds : List (List Char) :=
  [['\n'], ['\r'], ['\r', '\n']]

/-- An octal digit. -/
def isOctal (c : Char) : Bool :=
  '0' ≤ c && c ≤ '7'

/-- The characters with which an escape may go on behind its backslash. -/
def escapeSigns : List Char :=
  "\\'\"abfnrtv".toList ++ "xuU".toList ++ "\n\r".toList ++ "01234567".toList ++ ['N']

/-- The number written by digits, highest first. -/
def numeral (base : Nat) (digits : List Char) : Nat :=
  digits.foldl (fun n c ↦ n * base + (Text.hexValue? c).getD 0) 0

/-- What stands between double quotes is read as a text; `named` gives the characters that have a
name. A backslash in front of anything that goes on no escape stands for itself. -/
inductive Reads (named : List Char → Option Char) : List Char → List Char → Prop
  | done : Reads named [] []
  | plain {c : Char} {cs vs : List Char} (hc : c ≠ '\\') (hbarred : c ∉ barredSigns)
      (hrest : Reads named cs vs) : Reads named (c :: cs) (c :: vs)
  | lineEnd {ending cs vs : List Char} (hending : ending ∈ lineEnds)
      (hrest : Reads named cs vs) : Reads named ('\\' :: (ending ++ cs)) vs
  | sign {c v : Char} {cs vs : List Char} (hc : (c, v) ∈ signEscapes)
      (hrest : Reads named cs vs) : Reads named ('\\' :: c :: cs) (v :: vs)
  | octal {c v : Char} {digits cs vs : List Char} (hdigits : ∀ d ∈ c :: digits, isOctal d = true)
      (hmost : digits.length ≤ 2)
      (hlongest : digits.length = 2 ∨ ∀ d ∈ cs.head?, isOctal d = false)
      (hv : numeral 8 (c :: digits) = v.toNat) (hrest : Reads named cs vs) :
      Reads named ('\\' :: c :: (digits ++ cs)) (v :: vs)
  | code {c v : Char} {digits cs vs : List Char} (hc : (c, digits.length) ∈ codeEscapes)
      (hdigits : ∀ d ∈ digits, (Text.hexValue? d).isSome = true)
      (hv : numeral 16 digits = v.toNat) (hrest : Reads named cs vs) :
      Reads named ('\\' :: c :: (digits ++ cs)) (v :: vs)
  | name {name : List Char} {v : Char} {cs vs : List Char} (hv : named name = some v)
      (hrest : Reads named cs vs) :
      Reads named ('\\' :: 'N' :: '\x7b' :: (name ++ '\x7d' :: cs)) (v :: vs)
  | other {c : Char} {cs vs : List Char} (hc : c ∉ escapeSigns) (hbarred : c ∉ barredSigns)
      (hrest : Reads named cs vs) : Reads named ('\\' :: c :: cs) ('\\' :: c :: vs)

/-- No character is barred, and none goes on an escape behind a backslash. -/
def isVerbatim : List Char → Bool
  | [] => true
  | '\\' :: rest => rest.head?.any (fun c ↦ !escapeSigns.contains c) && isVerbatim rest
  | c :: rest => !barredSigns.contains c && isVerbatim rest

section Laws

variable {named : List Char → Option Char} {cs vs rest : List Char} {c : Char}

theorem isVerbatim_cons (h : c ≠ '\\') :
    isVerbatim (c :: rest) = (!barredSigns.contains c && isVerbatim rest) := by
  rw [isVerbatim]
  exact h

theorem isVerbatim_escape (h : c ∈ escapeSigns) : isVerbatim ('\\' :: c :: rest) = false := by
  rw [isVerbatim, List.head?_cons, Option.any_some]
  simp [h]

theorem mem_escapeSigns_of_isOctal (h : isOctal c = true) : c ∈ escapeSigns := by
  rw [isOctal, Bool.and_eq_true, decide_eq_true_eq, decide_eq_true_eq, Char.le_def, Char.le_def,
    UInt32.le_iff_toNat_le, UInt32.le_iff_toNat_le] at h
  change 48 ≤ c.toNat ∧ c.toNat ≤ 55 at h
  have hall : ∀ n < 56, 48 ≤ n → Char.ofNat n ∈ escapeSigns := by decide
  rw [← Char.ofNat_toNat c]
  exact hall c.toNat (by omega) h.1

/-- A text is read as itself if it is verbatim, and only as shorter texts if it is not. -/
theorem reads_cases (h : Reads named cs vs) :
    isVerbatim cs = true ∧ vs = cs ∨ isVerbatim cs = false ∧ vs.length < cs.length := by
  -- in any case what is read is no longer than the text
  have hlength : ∀ {cs vs : List Char},
      (isVerbatim cs = true ∧ vs = cs ∨ isVerbatim cs = false ∧ vs.length < cs.length) →
        vs.length ≤ cs.length := by
    rintro cs vs (⟨-, rfl⟩ | ⟨-, hlt⟩)
    · exact Nat.le_refl _
    · exact Nat.le_of_lt hlt
  induction h with
  | done => exact Or.inl ⟨rfl, rfl⟩
  | plain hc hbarred hrest ih =>
    rw [isVerbatim_cons hc, List.contains_eq_mem, decide_eq_false hbarred, Bool.not_false,
      Bool.true_and]
    rcases ih with ⟨hverbatim, rfl⟩ | ⟨hnot, hlt⟩
    · exact Or.inl ⟨hverbatim, rfl⟩
    · exact Or.inr ⟨hnot, Nat.succ_lt_succ hlt⟩
  | lineEnd hending hrest ih =>
    have hshorter := hlength ih
    simp only [lineEnds, List.mem_cons, List.not_mem_nil, or_false] at hending
    rcases hending with rfl | rfl | rfl
    · exact Or.inr ⟨isVerbatim_escape (by decide), by simp; omega⟩
    · exact Or.inr ⟨isVerbatim_escape (by decide), by simp; omega⟩
    · exact Or.inr ⟨isVerbatim_escape (by decide), by simp; omega⟩
  | sign hc hrest ih =>
    have hshorter := hlength ih
    have hsigns : Keyed.keys signEscapes ⊆ escapeSigns := by decide
    exact Or.inr ⟨isVerbatim_escape (hsigns (List.mem_map_of_mem hc)), by simp; omega⟩
  | octal hdigits hmost hlongest hv hrest ih =>
    have hshorter := hlength ih
    have hsign := mem_escapeSigns_of_isOctal (hdigits _ List.mem_cons_self)
    exact Or.inr ⟨isVerbatim_escape hsign, by simp; omega⟩
  | code hc hdigits hv hrest ih =>
    have hshorter := hlength ih
    have hstarts : Keyed.keys codeEscapes ⊆ escapeSigns := by decide
    exact Or.inr ⟨isVerbatim_escape (hstarts (List.mem_map_of_mem hc)), by simp; omega⟩
  | name hv hrest ih =>
    have hshorter := hlength ih
    exact Or.inr ⟨isVerbatim_escape (by decide), by simp; omega⟩
  | @other c cs vs hc hbarred hrest ih =>
    have hplain : c ≠ '\\' := by
      rintro rfl
      exact hc (by decide)
    have hstep : isVerbatim ('\\' :: c :: cs) = isVerbatim cs := by
      rw [isVerbatim, isVerbatim_cons hplain]
      simp [hc, hbarred]
    rw [hstep]
    rcases ih with ⟨hverbatim, rfl⟩ | ⟨hnot, hlt⟩
    · exact Or.inl ⟨hverbatim, rfl⟩
    · exact Or.inr ⟨hnot, Nat.succ_lt_succ (Nat.succ_lt_succ hlt)⟩

/-- A verbatim text is read. -/
theorem reads_of_isVerbatim : ∀ {cs : List Char}, isVerbatim cs = true → Reads named cs cs
  | [], _ => .done
  | [c], h => by
    by_cases hc : c = '\\'
    · rw [hc] at h
      cases h
    · rw [isVerbatim_cons hc, Bool.and_eq_true] at h
      exact .plain hc (by simpa using h.1) .done
  | c :: d :: rest, h => by
    by_cases hc : c = '\\'
    · subst hc
      rw [isVerbatim, Bool.and_eq_true, List.head?_cons, Option.any_some] at h
      have hd : d ∉ escapeSigns := by simpa using h.1
      have hplain : d ≠ '\\' := by
        rintro rfl
        exact hd (by decide)
      have hrest := h.2
      rw [isVerbatim_cons hplain, Bool.and_eq_true] at hrest
      exact .other hd (by simpa using hrest.1) (reads_of_isVerbatim hrest.2)
    · rw [isVerbatim_cons hc, Bool.and_eq_true] at h
      exact .plain hc (by simpa using h.1) (reads_of_isVerbatim h.2)

/-- A text is read as itself, and as nothing else, exactly if it is verbatim. -/
theorem reads_iff_eq_iff (named : List Char → Option Char) :
    (∀ vs, Reads named cs vs ↔ vs = cs) ↔ isVerbatim cs = true := by
  constructor
  · intro h
    rcases reads_cases ((h cs).2 rfl) with ⟨hverbatim, -⟩ | ⟨-, hlt⟩
    · exact hverbatim
    · exact absurd hlt (Nat.lt_irrefl _)
  · intro h vs
    constructor
    · intro hreads
      rcases reads_cases hreads with ⟨-, hsame⟩ | ⟨hnot, -⟩
      · exact hsame
      · rw [h] at hnot
        cases hnot
    · rintro rfl
      exact reads_of_isVerbatim h

end Laws

/-! ### Triple quotes -/

/-- Whether a text begins with as many hexadecimal digits as an escape needs. -/
def hasCode : Nat → List Char → Bool
  | 0, _ => true
  | _ + 1, [] => false
  | width + 1, c :: cs => (Text.hexValue? c).isSome && hasCode width cs

/-- The greatest code point. -/
def maxCode : Nat := 0x10ffff

/-- What stands behind a backslash does not begin an escape, or it begins one that is whole and
stands for something; `named` gives the characters that have a name. -/
def isWhole (named : List Char → Option Char) : List Char → Bool
  | 'x' :: cs => hasCode 2 cs
  | 'u' :: cs => hasCode 4 cs
  | 'U' :: cs => hasCode 8 cs && decide (numeral 16 (cs.take 8) ≤ maxCode)
  | 'N' :: '\x7b' :: cs => cs.contains '\x7d' && (named (cs.takeWhile (· ≠ '\x7d'))).isSome
  | 'N' :: _ => false
  | _ => true

/-- What stands between triple quotes can be read: its escapes are whole, it has no null character,
and no three quotes in a row end it too early. A backslash takes the character behind it along. -/
def isReadable (named : List Char → Option Char) : List Char → Bool
  | [] => true
  | ['\\'] => true
  | '\\' :: c :: cs => isWhole named (c :: cs) && c ≠ '\x00' && isReadable named cs
  | c :: cs => c ≠ '\x00' && !"\"\"\"".toList.isPrefixOf (c :: cs) && isReadable named cs

section Readable

variable {named : List Char → Option Char} {cs rest : List Char}

/-- What stands behind a text and begins with no digit adds no digits to it. -/
theorem hasCode_append (hrest : ∀ c ∈ rest.head?, Text.hexValue? c = none) {width : Nat} :
    hasCode width (cs ++ rest) = hasCode width cs := by
  induction cs generalizing width with
  | nil =>
    cases width with
    | zero => rfl
    | succ width =>
      cases rest with
      | nil => rfl
      | cons c rest => simp [hasCode, hrest c rfl]
  | cons c cs ih =>
    cases width with
    | zero => rfl
    | succ width => rw [List.cons_append, hasCode, hasCode, ih]

theorem le_length_of_hasCode {width : Nat} (h : hasCode width cs = true) : width ≤ cs.length := by
  induction cs generalizing width with
  | nil => cases width with
    | zero => exact Nat.le_refl 0
    | succ width => cases h
  | cons c cs ih =>
    cases width with
    | zero => exact Nat.zero_le _
    | succ width =>
      rw [hasCode, Bool.and_eq_true] at h
      exact Nat.succ_le_succ (ih h.2)

/-- A name in braces is whole with or without more text behind that closes no brace. -/
theorem isWhole_name_append (hbrace : '\x7d' ∉ rest) :
    isWhole named ('N' :: (cs ++ rest)) = isWhole named ('N' :: cs) := by
  have hopen : ∀ {xs : List Char}, '\x7d' ∉ xs → isWhole named ('N' :: xs) = false := by
    intro xs hxs
    unfold isWhole
    split <;> simp_all
  cases cs with
  | nil => rw [List.nil_append, hopen hbrace, hopen List.not_mem_nil]
  | cons d cs =>
    by_cases hd : d = '\x7b'
    · subst hd
      rw [List.cons_append, isWhole, isWhole]
      by_cases hmem : '\x7d' ∈ cs
      · have htake : (cs ++ rest).takeWhile (· ≠ '\x7d') = cs.takeWhile (· ≠ '\x7d') := by
          rw [List.takeWhile_append, if_neg]
          intro hlength
          have hall := List.takeWhile_eq_self_iff.1
            ((List.takeWhile_prefix _).eq_of_length hlength) _ hmem
          simp at hall
        rw [htake]
        simp [hmem]
      · simp [hmem, hbrace]
    · unfold isWhole
      split <;> simp_all

/-- What stands behind a text, begins with no digit and closes no brace leaves the escape at the
text's front as it is. -/
theorem isWhole_append (hhead : ∀ c ∈ rest.head?, Text.hexValue? c = none)
    (hbrace : '\x7d' ∉ rest) (c : Char) :
    isWhole named (c :: (cs ++ rest)) = isWhole named (c :: cs) := by
  have hcode : ∀ {width}, hasCode width (cs ++ rest) = hasCode width cs := hasCode_append hhead
  by_cases hN : c = 'N'
  · rw [hN, isWhole_name_append hbrace]
  · by_cases hU : c = 'U'
    · subst hU
      rw [isWhole, isWhole, hcode]
      cases hdigits : hasCode 8 cs with
      | false => rfl
      | true => rw [List.take_append_of_le_length (le_length_of_hasCode hdigits)]
    · unfold isWhole
      split <;> simp_all

/-- What begins a text with something behind it that has none of its characters begins the text. -/
theorem isPrefixOf_append {quotes : List Char} (hquotes : ∀ c ∈ quotes, c ∉ rest) :
    quotes.isPrefixOf (cs ++ rest) = quotes.isPrefixOf cs := by
  induction quotes generalizing cs with
  | nil => rw [List.isPrefixOf_nil_left, List.isPrefixOf_nil_left]
  | cons quote quotes ih =>
    obtain ⟨hquote, hothers⟩ := List.forall_mem_cons.1 hquotes
    cases cs with
    | nil =>
      cases rest with
      | nil => rfl
      | cons c rest =>
        rw [List.nil_append, List.isPrefixOf_cons_cons,
          beq_false_of_ne (List.ne_of_not_mem_cons hquote), Bool.false_and]
        rfl
    | cons c cs =>
      rw [List.cons_append, List.isPrefixOf_cons_cons, List.isPrefixOf_cons_cons, ih hothers]

/-- A character that is no backslash is read if it is no null character and ends nothing. -/
theorem isReadable_cons {c : Char} (hc : c ≠ '\\') :
    isReadable named (c :: cs) =
      (c ≠ '\x00' && !"\"\"\"".toList.isPrefixOf (c :: cs) && isReadable named cs) := by
  rw [isReadable]
  · exact fun h ↦ absurd h hc
  · exact fun _ _ h ↦ absurd h hc

/-- Neither quotes nor escapes nor null characters. -/
def IsPlain (cs : List Char) : Prop :=
  ∀ c ∈ cs, c ≠ '\\' ∧ c ≠ '"' ∧ c ≠ '\x00'

instance (cs : List Char) : Decidable (IsPlain cs) :=
  List.decidableBAll _ cs

/-- A text is read behind a plain one as it is by itself. -/
theorem isReadable_append_of_isPlain {front : List Char} (h : IsPlain front) :
    isReadable named (front ++ cs) = isReadable named cs := by
  induction front with
  | nil => rfl
  | cons c front ih =>
    obtain ⟨⟨hslash, hquote, hnull⟩, hfront⟩ := List.forall_mem_cons.1 h
    have hends : "\"\"\"".toList.isPrefixOf (c :: (front ++ cs)) = false := by
      change ('"' == c && _) = false
      rw [beq_false_of_ne hquote.symm, Bool.false_and]
    rw [List.cons_append, isReadable_cons hslash, ih hfront, decide_eq_true hnull, hends]
    rfl

theorem isReadable_of_isPlain (h : IsPlain cs) : isReadable named cs = true := by
  rw [← List.append_nil cs, isReadable_append_of_isPlain h]
  rfl

/-- A text with a single quote behind it, and then no double quotes, no escapes and no closing
brace, can be read exactly if it can by itself. -/
theorem isReadable_append (hplain : IsPlain rest) (hbrace : '\x7d' ∉ rest) :
    isReadable named (cs ++ '\'' :: rest) = isReadable named cs := by
  have hquote : isReadable named ('\'' :: rest) = true :=
    isReadable_of_isPlain (List.forall_mem_cons.2 ⟨by decide, hplain⟩)
  fun_induction isReadable named cs with
  | case1 => exact hquote
  | case2 =>
    rw [List.singleton_append, isReadable, isReadable_of_isPlain hplain]
    rfl
  | case3 c cs ih =>
    have hhead : ∀ d ∈ ('\'' :: rest).head?, Text.hexValue? d = none := by
      rintro d ⟨⟩
      decide
    have hwhole : isWhole named (c :: (cs ++ '\'' :: rest)) = isWhole named (c :: cs) :=
      isWhole_append hhead (by simpa using hbrace) c
    rw [List.cons_append, List.cons_append, isReadable, hwhole, ih]
  | case4 c cs hlast hescape ih =>
    have hslash : c ≠ '\\' := by
      rintro rfl
      cases cs with
      | nil => exact hlast rfl rfl
      | cons d cs => exact hescape d cs rfl rfl
    have hends : "\"\"\"".toList.isPrefixOf (c :: cs ++ '\'' :: rest) =
        "\"\"\"".toList.isPrefixOf (c :: cs) := by
      refine isPrefixOf_append fun d hd hmem ↦ ?_
      have hdouble : d = '"' := by simpa using hd
      rcases List.mem_cons.1 hmem with hsingle | hin
      · exact absurd (hdouble.symm.trans hsingle) (by decide)
      · exact (hplain d hin).2.1 hdouble
    rw [List.cons_append] at hends ⊢
    rw [isReadable_cons hslash, hends, ih]

end Readable

end MarkupBinding.StringLiteral
