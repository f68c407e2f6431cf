import MarkupBinding.Proofs.Expression.Written
import MarkupBinding.Proofs.Record.Naming

/-!
# Identifiers for records

The names that record sources give to classes and fields, as identifiers of the language in which
the sources are written. Class names are of the basic alphabet and begin with a capital letter, so
they always are identifiers (`isIdentifier_of_namedFor`), and the only words that they can be taken
for are those in `clashingNames` (`mem_takenWords_iff_of_namedFor`). Field names keep the word
characters of the template name, and not every word character may stand in an identifier
(`isIdentifier_fieldName`); they never are reserved words (`fieldName_not_mem_reservedWords`).
-/

set_option autoImplicit false
set_option relaxedAutoImplicit false

namespace MarkupBinding

namespace RecordName

/-! ### Identifier characters -/

/-- The ranges of word characters that stand in no identifier, in increasing order: numerals that
are neither decimal digits nor letters, and a few letters that compatibility mapping turns into
something else. -/
def excludedRanges : List (Nat × Nat) :=
  [(178, 179), (185, 185), (188, 190), (890, 890), (2548, 2553), (2930, 2935), (3056, 3058),
    (3192, 3198), (3416, 3422), (3440, 3448), (3882, 3891), (4978, 4988), (6128, 6137),
    (8304, 8304), (8308, 8313), (8320, 8329), (8528, 8543), (8585, 8585), (9312, 9371),
    (9450, 9471), (10102, 10131), (11517, 11517), (11823, 11823), (12690, 12693), (12832, 12841),
    (12872, 12879), (12881, 12895), (12928, 12937), (12977, 12991), (43056, 43061), (64606, 64611),
    (65018, 65019), (65136, 65136), (65138, 65138), (65140, 65140), (65142, 65142), (65144, 65144),
    (65146, 65146), (65148, 65148), (65150, 65150), (65799, 65843), (65909, 65912), (65930, 65931),
    (66273, 66299), (66336, 66339), (67672, 67679), (67705, 67711), (67751, 67759), (67835, 67839),
    (67862, 67867), (68028, 68029), (68032, 68047), (68050, 68095), (68160, 68168), (68221, 68222),
    (68253, 68255), (68331, 68335), (68440, 68447), (68472, 68479), (68521, 68527), (68858, 68863),
    (69216, 69246), (69405, 69414), (69457, 69460), (69573, 69579), (69714, 69733), (70113, 70132),
    (71482, 71483), (71914, 71922), (72794, 72812), (73664, 73684), (93019, 93025), (93824, 93846),
    (119520, 119539), (119648, 119672), (125127, 125135), (126065, 126123), (126125, 126127),
    (126129, 126132), (126209, 126253), (126255, 126269), (127232, 127244)]

/-- The ranges of word characters that may stand in an identifier but not begin it, in increasing
order: the decimal digits of all scripts and a few vowel and sound signs. -/
def innerRanges : List (Nat × Nat) :=
  [(48, 57), (1632, 1641), (1776, 1785), (1984, 1993), (2406, 2415), (2534, 2543), (2662, 2671),
    (2790, 2799), (2918, 2927), (3046, 3055), (3174, 3183), (3302, 3311), (3430, 3439),
    (3558, 3567), (3635, 3635), (3664, 3673), (3763, 3763), (3792, 3801), (3872, 3881),
    (4160, 4169), (4240, 4249), (4969, 4977), (6112, 6121), (6160, 6169), (6470, 6479),
    (6608, 6618), (6784, 6793), (6800, 6809), (6992, 7001), (7088, 7097), (7232, 7241),
    (7248, 7257), (42528, 42537), (43216, 43225), (43264, 43273), (43472, 43481), (43504, 43513),
    (43600, 43609), (44016, 44025), (65296, 65305), (65438, 65439), (66720, 66729), (68912, 68921),
    (69734, 69743), (69872, 69881), (69942, 69951), (70096, 70105), (70384, 70393), (70736, 70745),
    (70864, 70873), (71248, 71257), (71360, 71369), (71472, 71481), (71904, 71913), (72016, 72025),
    (72784, 72793), (73040, 73049), (73120, 73129), (92768, 92777), (92864, 92873), (93008, 93017),
    (120782, 120831), (123200, 123209), (123632, 123641), (125264, 125273), (130032, 130041)]

/-- A word character that may stand in an identifier. Other characters that may, such as combining
marks, are in no name of a record. -/
def isInner (c : Char) : Bool :=
  Text.isWord c && !Text.inRanges excludedRanges c.toNat

/-- A word character that may begin an identifier. -/
def isFirst (c : Char) : Bool :=
  isInner c && !Text.inRanges innerRanges c.toNat

/-- An identifier of word characters. -/
def isIdentifier : List Char → Bool
  | [] => false
  | c :: rest => isFirst c && rest.all isInner

/-! ### The basic alphabet -/

section Characters

variable {c : Char}

theorem toNat_lt_of_isAlphanum (h : c.isAlphanum = true) : c.toNat < 123 := by
  change ((decide (65 ≤ c.val ∧ c.val ≤ 90) || (decide (97 ≤ c.val) && decide (c.val ≤ 122))) ||
    (decide (48 ≤ c.val) && decide (c.val ≤ 57))) = true at h
  simp only [Bool.or_eq_true, Bool.and_eq_true, decide_eq_true_eq, UInt32.le_iff_toNat_le] at h
  change (((65 ≤ c.toNat ∧ c.toNat ≤ 90) ∨ (97 ≤ c.toNat ∧ c.toNat ≤ 122)) ∨
    (48 ≤ c.toNat ∧ c.toNat ≤ 57)) at h
  omega

/-- The basic alphabet: letters, digits and the underscore may stand in an identifier, and all but
the digits begin one. A letter or digit as a capital is a capital letter or the digit. -/
theorem basic_spec (hc : c.toNat < 123) :
    ((c.isAlphanum || c == '_') = true → isInner c = true ∧ (Text.isDigit c || isFirst c) = true) ∧
      (c.isAlpha = true → isFirst c = true) ∧
      (c.isAlphanum = true →
        c.toUpper.isAlphanum = true ∧ (c.toUpper.isUpper = true ∨ c.toUpper.isDigit = true)) := by
  have hall : ∀ n < 123, ∀ c, c = Char.ofNat n →
      ((c.isAlphanum || c == '_') = true →
          isInner c = true ∧ (Text.isDigit c || isFirst c) = true) ∧
        (c.isAlpha = true → isFirst c = true) ∧
        (c.isAlphanum = true →
          c.toUpper.isAlphanum = true ∧ (c.toUpper.isUpper = true ∨ c.toUpper.isDigit = true)) := by
    simp only [forall_eq]
    decide +kernel
  exact hall c.toNat hc c (Char.ofNat_toNat c).symm

theorem isInner_of_isAlphanum (h : c.isAlphanum = true) :
    isInner c = true ∧ (Text.isDigit c || isFirst c) = true :=
  (basic_spec (toNat_lt_of_isAlphanum h)).1 (by rw [h, Bool.true_or])

theorem isAlpha_of_isUpper (h : c.isUpper = true) : c.isAlpha = true := by
  change (c.isUpper || c.isLower) = true
  rw [h, Bool.true_or]

theorem isFirst_of_isAlpha (h : c.isAlpha = true) : isFirst c = true :=
  (basic_spec (toNat_lt_of_isAlphanum (by simp [Char.isAlphanum, h]))).2.1 h

theorem isInner_underscore : isInner '_' = true :=
  ((basic_spec (by decide)).1 (by decide)).1

theorem isInner_of_isFirst (h : isFirst c = true) : isInner c = true := by
  rw [isFirst, Bool.and_eq_true] at h
  exact h.1

theorem isWord_of_isInner (h : isInner c = true) : Text.isWord c = true := by
  rw [isInner, Bool.and_eq_true] at h
  exact h.1

/-- What may stand in an identifier of the template language is a hyphen or may stand in one here.
-/
theorem isInner_of_isIdentifierPart (h : Path.isIdentifierPart c = true) :
    c = '-' ∨ isInner c = true := by
  simp only [Path.isIdentifierPart, Bool.or_eq_true, beq_iff_eq] at h
  rcases h with (halnum | rfl) | rfl
  · exact Or.inr (isInner_of_isAlphanum halnum).1
  · exact Or.inr isInner_underscore
  · exact Or.inl rfl

end Characters

/-! ### Class names -/

section ClassNames

/-- The words that a class may not be called: reserved ones and those that the module uses. -/
def takenWords : List String :=
  reservedWords ++ ["DataRecord", "Field", "list", "str"]

/-- The class names that are such a word. -/
def clashingNames : List String :=
  ["None", "True", "False", "DataRecord", "Field"]

/-- No such word ends in a digit or an underscore, and those that begin with a capital letter are
the clashing names. -/
theorem takenWords_spec :
    ∀ word ∈ takenWords, (word.toList.getLast?.any fun c ↦ c.isDigit || c == '_') = false ∧
      (word.toList.head?.any Char.isUpper = true → word ∈ clashingNames) := by
  decide

theorem clashingNames_subset_takenWords : clashingNames ⊆ takenWords := by
  decide

theorem basicParts_spec (cs : List Char) :
    ∀ part ∈ basicParts cs, part ≠ [] ∧ ∀ c ∈ part, c.isAlphanum = true := by
  have hsingle : ∀ {c : Char}, ¬(!isBasic c) = true →
      [c] ≠ [] ∧ ∀ d ∈ [c], d.isAlphanum = true := by
    intro c hc
    exact ⟨List.cons_ne_nil _ _, List.forall_mem_singleton.2 (by simpa [isBasic] using hc)⟩
  fun_induction basicParts cs with
  | case1 => simp
  | case2 c rest hother ih => exact ih
  | case3 c hc d tail part parts hd hparts ih =>
    rw [hparts] at ih ⊢
    simp only [if_pos hd]
    obtain ⟨hpart, hrest⟩ := List.forall_mem_cons.1 ih
    refine List.forall_mem_cons.2 ⟨⟨List.cons_ne_nil _ _, ?_⟩, hrest⟩
    exact List.forall_mem_cons.2 ⟨(hsingle hc).2 c List.mem_cons_self, hpart.2⟩
  | case4 c hc d tail part parts hd hparts ih =>
    rw [hparts] at ih ⊢
    simp only [if_neg hd]
    exact List.forall_mem_cons.2 ⟨hsingle hc, ih⟩
  | case5 c rest hc hother ih =>
    split
    · next d tail part parts hparts => exact (hother d tail part parts rfl hparts).elim
    · exact List.forall_mem_cons.2 ⟨hsingle hc, ih⟩

/-- Capitalized parts are of the basic alphabet and begin with a capital letter or a digit. -/
theorem flatMap_capitalized_spec {parts : List (List Char)}
    (h : ∀ part ∈ parts, part ≠ [] ∧ ∀ c ∈ part, c.isAlphanum = true) :
    (∀ c ∈ parts.flatMap capitalized, c.isAlphanum = true) ∧
      ∀ c ∈ (parts.flatMap capitalized).head?, c.isUpper = true ∨ c.isDigit = true := by
  induction parts with
  | nil => simp
  | cons part rest ih =>
    obtain ⟨⟨hne, hchars⟩, hrest⟩ := List.forall_mem_cons.1 h
    obtain ⟨c, cs, rfl⟩ := List.exists_cons_of_ne_nil hne
    obtain ⟨hc, hcs⟩ := List.forall_mem_cons.1 hchars
    obtain ⟨hupper, hkind⟩ := (basic_spec (toNat_lt_of_isAlphanum hc)).2.2 hc
    rw [List.flatMap_cons, capitalized]
    constructor
    · intro d hd
      rcases List.mem_append.1 hd with hown | hother
      · rcases List.mem_cons.1 hown with rfl | hin
        · exact hupper
        · exact hcs d hin
      · exact (ih hrest).1 d hother
    · intro d hd
      obtain rfl := Option.some.inj hd
      exact hkind

/-- A class name is of the basic alphabet and begins with a capital letter. -/
theorem classChars_spec (cs : List Char) :
    ∃ c rest, classChars cs = c :: rest ∧ c.isUpper = true ∧ ∀ d ∈ rest, d.isAlphanum = true := by
  obtain ⟨hall, hhead⟩ := flatMap_capitalized_spec (basicParts_spec cs)
  rw [classChars]
  split
  · exact ⟨'R', "ecord".toList, rfl, by decide, List.all_eq_true.1 (by decide)⟩
  · next c rest heq =>
    rw [heq] at hall hhead
    by_cases hdigit : c.isDigit = true
    · exact ⟨'R', c :: rest, by rw [if_pos hdigit], by decide, hall⟩
    · exact ⟨c, rest, by rw [if_neg hdigit], (hhead c rfl).resolve_right hdigit,
        (List.forall_mem_cons.1 hall).2⟩

variable {source name : String}

/-- A name for a template name is its class name and then digits, none or some. -/
theorem exists_digits_of_namedFor (h : RecordLayout.NamedFor source name) :
    ∃ digits : List Char, name.toList = classChars source.toList ++ digits ∧
      (∀ c ∈ digits, c.isDigit = true) ∧ (digits = [] → name = className source) := by
  rcases h with rfl | ⟨n, -, rfl⟩
  · refine ⟨[], ?_, by simp, fun _ ↦ rfl⟩
    rw [className, String.toList_ofList, List.append_nil]
  · refine ⟨Nat.toDigits 10 n, ?_, fun c hc ↦ ?_, fun hnil ↦ ?_⟩
    · rw [String.toList_append, className, String.toList_ofList, Nat.toString_eq_ofList_toDigits,
        String.toList_ofList]
    · exact Nat.isDigit_of_mem_toDigits (by decide) (by decide) hc
    · rw [Nat.toString_eq_ofList_toDigits, hnil, String.append_empty]

/-- A class is called by an identifier. -/
theorem isIdentifier_of_namedFor (h : RecordLayout.NamedFor source name) :
    isIdentifier name.toList = true := by
  obtain ⟨digits, hname, hdigits, -⟩ := exists_digits_of_namedFor h
  obtain ⟨c, rest, hclass, hupper, hrest⟩ := classChars_spec source.toList
  rw [hname, hclass, List.cons_append, isIdentifier, isFirst_of_isAlpha (isAlpha_of_isUpper hupper),
    Bool.true_and, List.all_eq_true]
  intro d hd
  rcases List.mem_append.1 hd with hin | hdigit
  · exact (isInner_of_isAlphanum (hrest d hin)).1
  · exact (isInner_of_isAlphanum (by simp [Char.isAlphanum, hdigits d hdigit])).1

/-- A class is called by a word that it may not be called only if that is its class name and one of
few. -/
theorem mem_takenWords_iff_of_namedFor (h : RecordLayout.NamedFor source name) :
    name ∈ takenWords ↔ name = className source ∧ className source ∈ clashingNames := by
  constructor
  · intro hmem
    obtain ⟨digits, hname, hdigits, hplain⟩ := exists_digits_of_namedFor h
    obtain ⟨c, rest, hclass, hupper, -⟩ := classChars_spec source.toList
    obtain ⟨hend, hcapital⟩ := takenWords_spec name hmem
    have hnone : digits = [] := by
      by_contra hsome
      have hlast : name.toList.getLast? = some (digits.getLast hsome) := by
        rw [hname, List.getLast?_append_of_ne_nil _ hsome, List.getLast?_eq_getLast_of_ne_nil hsome]
      rw [hlast, Option.any_some, hdigits _ (List.getLast_mem hsome)] at hend
      cases hend
    have hsame := hplain hnone
    refine ⟨hsame, hsame ▸ hcapital ?_⟩
    rw [hname, hclass]
    exact hupper
  · rintro ⟨rfl, hclash⟩
    exact clashingNames_subset_takenWords hclash

end ClassNames

/-! ### Field names -/

section FieldNames

variable {name : String}

/-- The word characters of the name may stand in an identifier, and the first one that the field
name keeps is a digit or may begin one. -/
def isSpellable (name : String) : Bool :=
  (name.toList.all fun c ↦ !Text.isWord c || isInner c) &&
    (wordChars name.toList).head?.all fun c ↦ Text.isDigit c || isFirst c

/-- The word characters of a name may stand in an identifier exactly if those may that the field
name keeps. -/
theorem all_isInner_wordChars (cs : List Char) :
    (wordChars cs).all isInner = cs.all fun c ↦ !Text.isWord c || isInner c := by
  have hdrop : ∀ xs : List Char, (xs.dropWhile (· == '_')).all isInner = xs.all isInner := by
    intro xs
    induction xs with
    | nil => rfl
    | cons x rest ih =>
      rw [List.dropWhile_cons]
      split
      · next hx => rw [ih, List.all_cons, eq_of_beq hx, isInner_underscore, Bool.true_and]
      · rfl
  rw [wordChars, hdrop, List.all_map]
  refine congrArg cs.all (funext fun c ↦ ?_)
  rw [Function.comp_apply]
  cases hword : Text.isWord c with
  | true => rw [if_pos rfl, Bool.not_true, Bool.false_or]
  | false => rw [if_neg Bool.false_ne_true, isInner_underscore, Bool.not_false, Bool.true_or]

theorem isInner_of_mem_field {c : Char} (h : c ∈ "field".toList) : isInner c = true := by
  have hall : "field".toList.all Char.isAlphanum = true := by decide
  exact (isInner_of_isAlphanum (List.all_eq_true.1 hall c h)).1

/-- What follows the word that field names may begin with need only stand in an identifier. -/
theorem isIdentifier_field_append (cs : List Char) :
    isIdentifier ("field".toList ++ cs) = cs.all isInner := by
  have hfirst : isFirst 'f' = true := isFirst_of_isAlpha (by decide)
  have hrest : "ield".toList.all isInner = true :=
    List.all_eq_true.2 fun c hc ↦ isInner_of_mem_field (List.mem_cons_of_mem _ hc)
  change (isFirst 'f' && ("ield".toList ++ cs).all isInner) = _
  rw [hfirst, List.all_append, hrest, Bool.true_and, Bool.true_and]

/-- A text that is not empty and does not begin with a digit is an identifier exactly if its
characters may stand in one and the first may begin one. -/
theorem isIdentifier_started (cs : List Char) :
    isIdentifier (started cs) =
      (cs.all isInner && cs.head?.all fun c ↦ Text.isDigit c || isFirst c) := by
  cases cs with
  | nil => exact isIdentifier_field_append []
  | cons c rest =>
    rw [started, List.head?_cons, Option.all_some]
    cases hdigit : Text.isDigit c with
    | true =>
      rw [if_pos rfl, Bool.true_or, Bool.and_true]
      change isIdentifier ("field".toList ++ '_' :: c :: rest) = _
      rw [isIdentifier_field_append, List.all_cons, isInner_underscore, Bool.true_and]
    | false =>
      rw [if_neg Bool.false_ne_true, isIdentifier, Bool.false_or, List.all_cons]
      cases hfirst : isFirst c with
      | true => rw [isInner_of_isFirst hfirst, Bool.true_and, Bool.and_true]
      | false => rw [Bool.false_and, Bool.and_false]

theorem isIdentifier_concat_underscore {cs : List Char} (h : cs ≠ []) :
    isIdentifier (cs ++ ['_']) = isIdentifier cs := by
  obtain ⟨c, rest, rfl⟩ := List.exists_cons_of_ne_nil h
  simp [isIdentifier, isInner_underscore]

/-- A field is called by an identifier exactly if the name is spellable. -/
theorem isIdentifier_fieldName (name : String) :
    isIdentifier (fieldName name).toList = isSpellable name := by
  have hstarted : isIdentifier (started (wordChars name.toList)) = isSpellable name := by
    rw [isIdentifier_started, all_isInner_wordChars, isSpellable]
  have hne : started (wordChars name.toList) ≠ [] := by
    cases wordChars name.toList with
    | nil => decide
    | cons c rest => rw [started]; split <;> simp
  rw [fieldName, String.toList_ofList]
  split
  · rw [isIdentifier_concat_underscore hne, hstarted]
  · exact hstarted

/-- Field names are made of word characters. -/
theorem isWord_of_mem_fieldName {c : Char} (h : c ∈ (fieldName name).toList) :
    Text.isWord c = true := by
  have hwords : ∀ d ∈ wordChars name.toList, Text.isWord d = true := by
    intro d hd
    obtain ⟨e, -, rfl⟩ := List.mem_map.1 ((List.dropWhile_sublist _).subset hd)
    split
    · next hword => exact hword
    · exact isWord_of_isInner isInner_underscore
  have hfield : ∀ d ∈ "field".toList, Text.isWord d = true :=
    fun d hd ↦ isWord_of_isInner (isInner_of_mem_field hd)
  have hunderscore : ∀ d ∈ ['_'], Text.isWord d = true :=
    List.forall_mem_singleton.2 (isWord_of_isInner isInner_underscore)
  have hstarted : ∀ d ∈ started (wordChars name.toList), Text.isWord d = true := by
    cases hcs : wordChars name.toList with
    | nil => exact hfield
    | cons e rest =>
      rw [hcs] at hwords
      rw [started]
      split
      · exact List.forall_mem_append.2 ⟨List.forall_mem_append.2 ⟨hfield, hunderscore⟩, hwords⟩
      · exact hwords
  rw [fieldName, String.toList_ofList] at h
  split at h
  · exact List.forall_mem_append.2 ⟨hstarted, hunderscore⟩ c h
  · exact hstarted c h

/-- No field is called by a reserved word. -/
theorem fieldName_not_mem_reservedWords (name : String) : fieldName name ∉ reservedWords := by
  intro hmem
  rw [fieldName] at hmem
  split at hmem
  · have hend := (takenWords_spec _ (List.mem_append_left _ hmem)).1
    rw [String.toList_ofList, List.getLast?_concat] at hend
    cases hend
  · next hfree =>
    rw [isTaken] at hfree
    simp [hmem] at hfree

/-- An identifier of the template language is spellable. -/
theorem isSpellable_of_isIdentifier (h : Path.isIdentifier name.toList = true) :
    isSpellable name = true := by
  have hparts : ∀ c ∈ name.toList, Path.isIdentifierPart c = true := fun c hc ↦
    Path.isIdentifierPart_of_mem h hc
  rw [isSpellable, Bool.and_eq_true, List.all_eq_true, Option.all_eq_true]
  constructor
  · intro c hc
    rcases isInner_of_isIdentifierPart (hparts c hc) with rfl | hinner
    · decide
    · rw [hinner, Bool.or_true]
  · intro c hc
    -- what stands first is no underscore, so it is a letter or digit of the name
    have hne : (c == '_') = false := by
      have hhead := List.head?_dropWhile_not (· == '_')
        (name.toList.map fun c ↦ if Text.isWord c then c else '_')
      rw [← wordChars, hc] at hhead
      exact hhead
    have hmem : c ∈ wordChars name.toList := List.mem_of_head? hc
    obtain ⟨d, hd, heq⟩ := List.mem_map.1 ((List.dropWhile_sublist _).subset hmem)
    have hpart := hparts d hd
    split at heq
    · next hword =>
      subst heq
      simp only [Path.isIdentifierPart, Bool.or_eq_true, hne] at hpart
      rcases hpart with (halnum | hunderscore) | hhyphen
      · exact (isInner_of_isAlphanum halnum).2
      · cases hunderscore
      · rw [eq_of_beq hhyphen] at hword
        cases hword
    · rw [← heq] at hne
      cases hne

end FieldNames

end RecordName

end MarkupBinding
