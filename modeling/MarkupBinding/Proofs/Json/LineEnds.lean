import MarkupBinding.Json.Input
import MarkupBinding.Proofs.Text.LineEnds

/-!
# Line ends in JSON text

JSON text means the same with every line end as one line feed. Carriage returns and line feeds are
white space between the parts of a value, and nowhere else can they stand: a string refuses control
characters, an escape is followed by a letter, and a number or a word ends before them. So every
reader that succeeds on a text succeeds on the text with unified line ends, with the same value, and
leaves the unified rest (`readUnits_unified`, `readScalar_unified`, `readParts_unified`). Unifying
makes a text shorter, and with it the fuel; the bound that the induction carries is twice the
length, which every reader keeps to.
-/

set_option autoImplicit false
set_option relaxedAutoImplicit false

namespace MarkupBinding.Json

open Text (unifyLineEnds unifyLineEnds_cons unifyLineEnds_front isEmpty_unifyLineEnds
  takeWhile_unifyLineEnds dropWhile_unifyLineEnds)

/-- White space takes all line ends in. -/
theorem skipSpace_unified (cs : List Char) :
    skipSpace (unifyLineEnds cs) = unifyLineEnds (skipSpace cs) :=
  Text.dropWhile_unifyLineEnds_of_blank rfl rfl cs

/-- White space leaves no more than was there. -/
theorem length_skipSpace_le (cs : List Char) : (skipSpace cs).length ≤ cs.length :=
  (List.dropWhile_suffix _).length_le

/-! ### Strings -/

/-- A hexadecimal digit is no carriage return. -/
theorem ne_return_of_hexValue? {c : Char} {n : Nat} (h : Text.hexValue? c = some n) : c ≠ '\r' := by
  rintro rfl
  cases h

/-- Four hexadecimal digits hold no carriage return. -/
theorem ne_return_of_hexQuad? {a b c d : Char} {n : Nat} (h : hexQuad? a b c d = some n) :
    a ≠ '\r' ∧ b ≠ '\r' ∧ c ≠ '\r' ∧ d ≠ '\r' := by
  simp only [hexQuad?, Option.bind_eq_bind, Option.bind_eq_some_iff] at h
  obtain ⟨_, ha, _, hb, _, hc, _, hd, -⟩ := h
  exact ⟨ne_return_of_hexValue? ha, ne_return_of_hexValue? hb, ne_return_of_hexValue? hc,
    ne_return_of_hexValue? hd⟩

/-- A letter behind a backslash is no carriage return and no `u`. -/
theorem ne_of_simpleEscape? {c e : Char} (h : simpleEscape? c = some e) : c ≠ '\r' ∧ c ≠ 'u' := by
  constructor <;> (rintro rfl; cases h)

/-- One more code unit before what was read. -/
theorem consUnit_eq_ok {unit : Nat} {r : Reading (List Nat)} {units : List Nat} {rest : List Char}
    (h : consUnit unit r = .ok (units, rest)) :
    ∃ more, units = unit :: more ∧ r = .ok (more, rest) := by
  rcases r with e | ⟨more, rest'⟩
  · cases h
  · cases h
    exact ⟨more, rfl, rfl⟩

/-- The code units of a string are the same with unified line ends, since none stands in it. -/
theorem readUnits_unified {start cs rest : List Char} {units : List Nat}
    (h : readUnits start cs = .ok (units, rest)) (start' : List Char) :
    readUnits start' (unifyLineEnds cs) = .ok (units, unifyLineEnds rest) ∧
      (unifyLineEnds rest).length < (unifyLineEnds cs).length := by
  fun_induction readUnits start cs generalizing units with
  | case1 => cases h
  | case2 rest' =>
    cases h
    rw [unifyLineEnds_cons (by decide), readUnits]
    exact ⟨rfl, by simp⟩
  | case3 a b c d tail unit hunit hmore ih =>
    obtain ⟨more, rfl, hread⟩ := consUnit_eq_ok h
    obtain ⟨hread', hlength⟩ := ih hread
    obtain ⟨ha, hb, hc, hd⟩ := ne_return_of_hexQuad? hunit
    rw [unifyLineEnds_cons (by decide), unifyLineEnds_cons (by decide), unifyLineEnds_cons ha,
      unifyLineEnds_cons hb, unifyLineEnds_cons hc, unifyLineEnds_cons hd, readUnits,
      isEmpty_unifyLineEnds, hmore, hunit]
    simp only [hread', consUnit, List.length_cons, true_and]
    omega
  | case4 => cases h
  | case5 c tail hshort escaped hescape ih =>
    obtain ⟨more, rfl, hread⟩ := consUnit_eq_ok h
    obtain ⟨hread', hlength⟩ := ih hread
    obtain ⟨hreturn, hu⟩ := ne_of_simpleEscape? hescape
    rw [unifyLineEnds_cons (by decide), unifyLineEnds_cons hreturn, readUnits]
    · simp only [hescape, hread', consUnit, List.length_cons, true_and]
      omega
    · rintro _ _ _ _ _ rfl
      exact absurd rfl hu
  | case6 => cases h
  | case7 => cases h
  | case8 => cases h
  | case9 => cases h
  | case10 c tail hquote hlong hescape hback hcontrol ih =>
    obtain ⟨more, rfl, hread⟩ := consUnit_eq_ok h
    obtain ⟨hread', hlength⟩ := ih hread
    -- A bare character in a string: were it a carriage return, it would be refused as a control.
    have hreturn : c ≠ '\r' := by
      rintro rfl
      exact hcontrol (by decide)
    rw [unifyLineEnds_cons hreturn, readUnits, if_neg hback, if_neg hcontrol, hread']
    · exact ⟨rfl, by simpa using by omega⟩
    · rintro rfl; exact hquote rfl
    · rintro _ _ _ _ _ rfl; exact absurd rfl hback
    · rintro _ _ rfl; exact absurd rfl hback

/-- A string is the same with unified line ends. -/
theorem readString_unified {start cs rest : List Char} {s : String}
    (h : readString start cs = .ok (s, rest)) (start' : List Char) :
    readString start' (unifyLineEnds cs) = .ok (s, unifyLineEnds rest) ∧
      (unifyLineEnds rest).length < (unifyLineEnds cs).length := by
  rw [readString] at h
  split at h
  · next units rest' hunits =>
    cases h
    obtain ⟨hread, hlength⟩ := readUnits_unified hunits start'
    rw [readString, hread]
    exact ⟨rfl, hlength⟩
  · cases h

/-! ### Numbers and words -/

/-- Digits that begin with no zero are read as far as they go. -/
theorem readWhole_of_ne_zero {c : Char} (hc : c ≠ '0') (rest : List Char) :
    readWhole (c :: rest) =
      if c.isDigit then some (c :: rest.takeWhile Char.isDigit, rest.dropWhile Char.isDigit)
      else none := by
  rw [readWhole]
  exact hc

theorem readWhole_unified (cs : List Char) :
    readWhole (unifyLineEnds cs) =
      (readWhole cs).map fun (digits, rest) ↦ (digits, unifyLineEnds rest) := by
  rcases unifyLineEnds_front cs with ⟨rfl, -⟩ | ⟨c, rest, -, rfl, h⟩ | ⟨rest, tail, rfl, h⟩
  · rfl
  · rw [h]
    by_cases hc : c = '0'
    · subst hc
      rfl
    · rw [readWhole_of_ne_zero hc, readWhole_of_ne_zero hc, takeWhile_unifyLineEnds rfl rfl,
        dropWhile_unifyLineEnds rfl rfl]
      split <;> rfl
  · rw [h]
    rfl

theorem readFraction_point (rest : List Char) :
    readFraction ('.' :: rest) =
      match rest.takeWhile Char.isDigit with
      | [] => (none, '.' :: rest)
      | digits => (some digits, rest.dropWhile Char.isDigit) :=
  rfl

theorem readFraction_of_ne {c : Char} (hc : c ≠ '.') (rest : List Char) :
    readFraction (c :: rest) = (none, c :: rest) := by
  rw [readFraction]
  exact fun _ e ↦ hc (List.cons.inj e).1

theorem readFraction_unified (cs : List Char) :
    readFraction (unifyLineEnds cs) = ((readFraction cs).1, unifyLineEnds (readFraction cs).2) := by
  rcases unifyLineEnds_front cs with ⟨rfl, -⟩ | ⟨c, rest, hreturn, rfl, h⟩ | ⟨rest, tail, rfl, h⟩
  · rfl
  · by_cases hc : c = '.'
    · subst hc
      rw [h, readFraction_point, readFraction_point, takeWhile_unifyLineEnds rfl rfl,
        dropWhile_unifyLineEnds rfl rfl]
      split
      · exact congrArg (Prod.mk none) h.symm
      · rfl
    · rw [h, readFraction_of_ne hc, readFraction_of_ne hc, h]
  · rw [h]
    exact congrArg (Prod.mk none) h.symm

theorem readExponentSign_of_ne {c : Char} (hminus : c ≠ '-') (hplus : c ≠ '+')
    (rest : List Char) : readExponentSign (c :: rest) = (false, c :: rest) := by
  rw [readExponentSign]
  · exact fun _ e ↦ hminus (List.cons.inj e).1
  · exact fun _ e ↦ hplus (List.cons.inj e).1

theorem readExponentSign_unified (cs : List Char) :
    readExponentSign (unifyLineEnds cs) =
      ((readExponentSign cs).1, unifyLineEnds (readExponentSign cs).2) := by
  rcases unifyLineEnds_front cs with ⟨rfl, -⟩ | ⟨c, rest, -, rfl, h⟩ | ⟨rest, tail, rfl, h⟩
  · rfl
  · by_cases hminus : c = '-'
    · subst hminus
      rw [h]
      rfl
    · by_cases hplus : c = '+'
      · subst hplus
        rw [h]
        rfl
      · rw [h, readExponentSign_of_ne hminus hplus, readExponentSign_of_ne hminus hplus, h]
  · rw [h]
    exact congrArg (Prod.mk false) h.symm

theorem readExponent_cons (c : Char) (rest : List Char) :
    readExponent (c :: rest) =
      if c == 'e' || c == 'E' then
        let (negative, after) := readExponentSign rest
        match after.takeWhile Char.isDigit with
        | [] => (none, c :: rest)
        | digits => (some (negative, digits), after.dropWhile Char.isDigit)
      else (none, c :: rest) :=
  rfl

theorem readExponent_unified (cs : List Char) :
    readExponent (unifyLineEnds cs) = ((readExponent cs).1, unifyLineEnds (readExponent cs).2) := by
  rcases unifyLineEnds_front cs with ⟨rfl, -⟩ | ⟨c, rest, -, rfl, h⟩ | ⟨rest, tail, rfl, h⟩
  · rfl
  · rw [h, readExponent_cons, readExponent_cons, readExponentSign_unified]
    split
    · simp only [takeWhile_unifyLineEnds (p := Char.isDigit) rfl rfl,
        dropWhile_unifyLineEnds (p := Char.isDigit) rfl rfl]
      split
      · exact congrArg (Prod.mk none) h.symm
      · rfl
    · exact congrArg (Prod.mk none) h.symm
  · rw [h]
    exact congrArg (Prod.mk none) h.symm

/-- The parts of a number behind its sign. -/
def unsignedNumber (negative : Bool) (cs : List Char) : Option (NumberParts × List Char) :=
  (readWhole cs).map fun (whole, afterWhole) ↦
    let (fraction, afterFraction) := readFraction afterWhole
    let (exponent, rest) := readExponent afterFraction
    (⟨negative, whole, fraction, exponent⟩, rest)

theorem readNumber_minus (rest : List Char) :
    readNumber ('-' :: rest) = unsignedNumber true rest := by
  rw [readNumber, unsignedNumber]
  cases readWhole rest <;> rfl

theorem readNumber_of_ne_minus {cs : List Char} (h : ∀ rest, cs ≠ '-' :: rest) :
    readNumber cs = unsignedNumber false cs := by
  rw [readNumber, unsignedNumber]
  · cases readWhole cs <;> rfl
  · exact h

theorem unsignedNumber_unified (negative : Bool) (cs : List Char) :
    unsignedNumber negative (unifyLineEnds cs) =
      (unsignedNumber negative cs).map fun (parts, rest) ↦ (parts, unifyLineEnds rest) := by
  simp only [unsignedNumber, readWhole_unified, Option.map_map, Function.comp_def,
    readFraction_unified, readExponent_unified]

/-- A number is the same with unified line ends. -/
theorem readNumber_unified (cs : List Char) :
    readNumber (unifyLineEnds cs) =
      (readNumber cs).map fun (parts, rest) ↦ (parts, unifyLineEnds rest) := by
  rcases unifyLineEnds_front cs with ⟨rfl, -⟩ | ⟨c, rest, hreturn, rfl, h⟩ | ⟨rest, tail, rfl, h⟩
  · rfl
  · by_cases hc : c = '-'
    · subst hc
      rw [h, readNumber_minus, readNumber_minus, unsignedNumber_unified]
    · have hne : ∀ tail tail', c :: tail ≠ '-' :: tail' := fun _ _ e ↦ hc (List.cons.inj e).1
      rw [readNumber_of_ne_minus (hne rest), ← unsignedNumber_unified, h,
        readNumber_of_ne_minus (hne _)]
  · rw [h]
    rfl

theorem length_readWhole_lt {cs digits rest : List Char} (h : readWhole cs = some (digits, rest)) :
    rest.length < cs.length := by
  rcases cs with - | ⟨c, tail⟩
  · cases h
  · by_cases hc : c = '0'
    · subst hc
      cases h
      simp
    · rw [readWhole_of_ne_zero hc] at h
      split at h
      · cases h
        exact Nat.lt_succ_of_le (List.dropWhile_suffix _).length_le
      · cases h

theorem length_readFraction_le (cs : List Char) : (readFraction cs).2.length ≤ cs.length := by
  rcases cs with - | ⟨c, rest⟩
  · exact Nat.le_refl _
  · by_cases hc : c = '.'
    · subst hc
      rw [readFraction_point]
      split
      · exact Nat.le_refl _
      · exact Nat.le_succ_of_le (List.dropWhile_suffix _).length_le
    · exact Nat.le_of_eq (congrArg (·.2.length) (readFraction_of_ne hc rest))

theorem length_readExponentSign_le (cs : List Char) :
    (readExponentSign cs).2.length ≤ cs.length := by
  fun_cases readExponentSign cs <;> simp

theorem length_readExponent_le (cs : List Char) : (readExponent cs).2.length ≤ cs.length := by
  rcases cs with - | ⟨c, rest⟩
  · exact Nat.le_refl _
  · rw [readExponent_cons]
    split
    · dsimp only
      split
      · exact Nat.le_refl _
      · exact Nat.le_succ_of_le
          (Nat.le_trans (List.dropWhile_suffix _).length_le (length_readExponentSign_le rest))
    · exact Nat.le_refl _

/-- A number is of one character at least. -/
theorem length_readNumber_lt {cs rest : List Char} {parts : NumberParts}
    (h : readNumber cs = some (parts, rest)) : rest.length < cs.length := by
  have hunsigned : ∀ {negative : Bool} {unsigned : List Char},
      unsignedNumber negative unsigned = some (parts, rest) → rest.length < unsigned.length := by
    intro negative unsigned h
    obtain ⟨⟨whole, afterWhole⟩, hwhole, he⟩ := Option.map_eq_some_iff.1 h
    cases he
    exact Nat.lt_of_le_of_lt (Nat.le_trans (length_readExponent_le _) (length_readFraction_le _))
      (length_readWhole_lt hwhole)
  by_cases hminus : ∃ tail, cs = '-' :: tail
  · obtain ⟨tail, rfl⟩ := hminus
    rw [readNumber_minus] at h
    exact Nat.lt_succ_of_lt (hunsigned h)
  · rw [readNumber_of_ne_minus fun tail e ↦ hminus ⟨tail, e⟩] at h
    exact hunsigned h

/-- The words hold characters, and no line ends among them. -/
theorem words_plain : ∀ entry ∈ words, entry.1 ≠ [] ∧ '\r' ∉ entry.1 ∧ '\n' ∉ entry.1 := by
  decide

/-- The first of some words without line ends is in front of both texts. -/
theorem findSome?_after?_unified {entries : List (List Char × Value)}
    (h : ∀ entry ∈ entries, '\r' ∉ entry.1 ∧ '\n' ∉ entry.1) (cs : List Char) :
    (entries.findSome? fun (word, v) ↦
        (Text.after? word (unifyLineEnds cs)).map fun rest ↦ (v, rest)) =
      (entries.findSome? fun (word, v) ↦ (Text.after? word cs).map fun rest ↦ (v, rest)).map
        fun (v, rest) ↦ (v, unifyLineEnds rest) := by
  induction entries with
  | nil => rfl
  | cons entry entries ih =>
    obtain ⟨word, v⟩ := entry
    have hrest := ih fun e he ↦ h e (List.mem_cons_of_mem _ he)
    simp only [List.findSome?_cons, hrest,
      Text.after?_unifyLineEnds (h (word, v) List.mem_cons_self) cs]
    cases Text.after? word cs <;> rfl

/-- A word or a number is of one character at least. -/
theorem length_readScalar_lt {cs rest : List Char} {v : Value}
    (h : readScalar cs = .ok (v, rest)) : rest.length < cs.length := by
  rw [readScalar] at h
  split at h
  · next hword =>
    cases h
    obtain ⟨⟨word, v'⟩, hmem, hentry⟩ := List.exists_of_findSome?_eq_some hword
    obtain ⟨rest', hafter, he⟩ := Option.map_eq_some_iff.1 hentry
    cases he
    have hsome := List.length_pos_iff.2 (words_plain _ hmem).1
    rw [Text.after?_eq_some_iff.1 hafter, List.length_append]
    exact Nat.lt_add_of_pos_left hsome
  · split at h
    · cases h
    · next parts rest' hnumber =>
      split at h
      · cases h
        exact length_readNumber_lt hnumber
      · cases h

/-- A word or a number is the same with unified line ends. -/
theorem readScalar_unified {cs rest : List Char} {v : Value} (h : readScalar cs = .ok (v, rest)) :
    readScalar (unifyLineEnds cs) = .ok (v, unifyLineEnds rest) := by
  have hwords := findSome?_after?_unified (fun entry he ↦ (words_plain entry he).2) cs
  rw [readScalar] at h ⊢
  rw [hwords, readNumber_unified]
  split at h
  · next hword =>
    cases h
    rw [hword]
    rfl
  · next hword =>
    rw [hword]
    split at h
    · cases h
    · next parts rest' hnumber =>
      rw [hnumber]
      split at h
      · next hvalue =>
        cases h
        simp only [Option.map_none, Option.map_some, hvalue]
      · cases h

/-! ### Values -/

/-- What a reader of a value makes of a text it makes of the text with unified line ends, with as
much fuel as twice the length and `extra`, and it leaves less than there was. -/
def Unified {α : Type} (read : Nat → List Char → Reading α) (extra : Nat) (cs : List Char) (a : α)
    (rest : List Char) : Prop :=
  (unifyLineEnds rest).length < (unifyLineEnds cs).length ∧
    ∀ fuel, 2 * (unifyLineEnds cs).length + extra ≤ fuel →
      read fuel (unifyLineEnds cs) = .ok (a, unifyLineEnds rest)

/-- A reader that needs no fuel for anything inside. -/
theorem Unified.of_all {α : Type} {read : Nat → List Char → Reading α} {extra : Nat}
    {cs rest : List Char} {a : α}
    (hlength : (unifyLineEnds rest).length < (unifyLineEnds cs).length)
    (h : ∀ fuel, read (fuel + 1) (unifyLineEnds cs) = .ok (a, unifyLineEnds rest)) :
    Unified read extra cs a rest := by
  refine ⟨hlength, fun fuel hfuel ↦ ?_⟩
  obtain ⟨fuel, rfl⟩ := Nat.exists_eq_add_one_of_ne_zero (show fuel ≠ 0 by omega)
  exact h fuel

/-- White space and one character behind it leave less than there was. -/
theorem skipSpace_unified_of_cons {cs rest : List Char} {c : Char} (hc : c ≠ '\r')
    (h : skipSpace cs = c :: rest) :
    skipSpace (unifyLineEnds cs) = c :: unifyLineEnds rest ∧
      (unifyLineEnds rest).length < (unifyLineEnds cs).length := by
  have hspace : skipSpace (unifyLineEnds cs) = c :: unifyLineEnds rest := by
    rw [skipSpace_unified, h, unifyLineEnds_cons hc]
  have hlength := length_skipSpace_le (unifyLineEnds cs)
  rw [hspace, List.length_cons] at hlength
  exact ⟨hspace, hlength⟩

/-- What does not stand in front of a text does not stand in front of the unified one, unless it is
a line feed. -/
theorem unifyLineEnds_ne_cons {c : Char} (hc : c ≠ '\n') {cs : List Char}
    (h : ∀ rest, cs ≠ c :: rest) (rest : List Char) : unifyLineEnds cs ≠ c :: rest := by
  rcases unifyLineEnds_front cs with ⟨-, h'⟩ | ⟨d, tail, -, rfl, h'⟩ | ⟨tail, tail', -, h'⟩
  · rw [h']
    exact List.cons_ne_nil _ _ |>.symm
  · rw [h']
    rintro ⟨⟩
    exact h tail rfl
  · rw [h']
    rintro ⟨⟩
    exact hc rfl

/-- Behind a quote stands a string. -/
theorem readValue_quote (fuel : Nat) (tail : List Char) :
    readValue (fuel + 1) ('"' :: tail) =
      match readString ('"' :: tail) tail with
      | .ok (s, rest) => .ok (.string s, rest)
      | .error e => .error e :=
  rfl

/-- Behind a bracket stand the items of a list. -/
theorem readValue_bracket (fuel : Nat) (tail : List Char) :
    readValue (fuel + 1) ('[' :: tail) =
      match skipSpace tail with
      | ']' :: rest => .ok (.list [], rest)
      | rest =>
        match readItems fuel rest with
        | .ok (items, rest) => .ok (.list items, rest)
        | .error e => .error e :=
  rfl

/-- Behind a brace stand the entries of an object. -/
theorem readValue_brace (fuel : Nat) (tail : List Char) :
    readValue (fuel + 1) ('\x7b' :: tail) =
      match skipSpace tail with
      | '\x7d' :: rest => .ok (.object [], rest)
      | rest =>
        match readEntries fuel rest with
        | .ok (entries, rest) => .ok (.object (Keyed.ofPairs entries), rest)
        | .error e => .error e :=
  rfl

theorem Unified.string {start tail rest : List Char} {s : String}
    (h : readString start tail = .ok (s, rest)) :
    Unified readValue 0 ('"' :: tail) (.string s) rest := by
  obtain ⟨-, hlength⟩ := readString_unified h start
  refine .of_all ?_ fun fuel ↦ ?_
  · rw [unifyLineEnds_cons (by decide)]
    exact Nat.lt_succ_of_lt hlength
  · rw [unifyLineEnds_cons (by decide), readValue_quote, (readString_unified h _).1]

theorem Unified.emptyList {tail rest : List Char} (h : skipSpace tail = ']' :: rest) :
    Unified readValue 0 ('[' :: tail) (.list []) rest := by
  obtain ⟨hspace, hlength⟩ := skipSpace_unified_of_cons (by decide) h
  refine .of_all ?_ fun fuel ↦ ?_
  · rw [unifyLineEnds_cons (by decide)]
    exact Nat.lt_succ_of_lt hlength
  · rw [unifyLineEnds_cons (by decide), readValue_bracket, hspace]
    rfl

theorem Unified.list {tail rest : List Char} {items : List Value}
    (hne : ∀ more, skipSpace tail ≠ ']' :: more)
    (h : Unified readItems 1 (skipSpace tail) items rest) :
    Unified readValue 0 ('[' :: tail) (.list items) rest := by
  have hshort := length_skipSpace_le (unifyLineEnds tail)
  rw [Unified, unifyLineEnds_cons (by decide), List.length_cons]
  rw [Unified, ← skipSpace_unified] at h
  refine ⟨by omega, fun fuel hfuel ↦ ?_⟩
  obtain ⟨fuel, rfl⟩ := Nat.exists_eq_add_one_of_ne_zero (show fuel ≠ 0 by omega)
  rw [readValue_bracket]
  split
  · next more heq =>
    rw [skipSpace_unified] at heq
    exact absurd heq (unifyLineEnds_ne_cons (by decide) hne more)
  · rw [h.2 fuel (by omega)]

theorem Unified.emptyObject {tail rest : List Char} (h : skipSpace tail = '\x7d' :: rest) :
    Unified readValue 0 ('\x7b' :: tail) (.object []) rest := by
  obtain ⟨hspace, hlength⟩ := skipSpace_unified_of_cons (by decide) h
  refine .of_all ?_ fun fuel ↦ ?_
  · rw [unifyLineEnds_cons (by decide)]
    exact Nat.lt_succ_of_lt hlength
  · rw [unifyLineEnds_cons (by decide), readValue_brace, hspace]
    rfl

theorem Unified.object {tail rest : List Char} {entries : List (String × Value)}
    (hne : ∀ more, skipSpace tail ≠ '\x7d' :: more)
    (h : Unified readEntries 1 (skipSpace tail) entries rest) :
    Unified readValue 0 ('\x7b' :: tail) (.object (Keyed.ofPairs entries)) rest := by
  have hshort := length_skipSpace_le (unifyLineEnds tail)
  rw [Unified, unifyLineEnds_cons (by decide), List.length_cons]
  rw [Unified, ← skipSpace_unified] at h
  refine ⟨by omega, fun fuel hfuel ↦ ?_⟩
  obtain ⟨fuel, rfl⟩ := Nat.exists_eq_add_one_of_ne_zero (show fuel ≠ 0 by omega)
  rw [readValue_brace]
  split
  · next more heq =>
    rw [skipSpace_unified] at heq
    exact absurd heq (unifyLineEnds_ne_cons (by decide) hne more)
  · rw [h.2 fuel (by omega)]

theorem Unified.scalar {cs rest : List Char} {v : Value} (hquote : ∀ tail, cs ≠ '"' :: tail)
    (hbracket : ∀ tail, cs ≠ '[' :: tail) (hbrace : ∀ tail, cs ≠ '\x7b' :: tail)
    (h : readScalar cs = .ok (v, rest)) : Unified readValue 0 cs v rest := by
  have hscalar := readScalar_unified h
  refine .of_all (length_readScalar_lt hscalar) fun fuel ↦ ?_
  rw [readValue]
  · exact hscalar
  · exact unifyLineEnds_ne_cons (by decide) hquote
  · exact unifyLineEnds_ne_cons (by decide) hbracket
  · exact unifyLineEnds_ne_cons (by decide) hbrace

theorem Unified.lastItem {cs middle rest : List Char} {item : Value}
    (hitem : Unified readValue 0 cs item middle) (h : skipSpace middle = ']' :: rest) :
    Unified readItems 1 cs [item] rest := by
  obtain ⟨hspace, hlength⟩ := skipSpace_unified_of_cons (by decide) h
  obtain ⟨hshort, hread⟩ := hitem
  refine ⟨by omega, fun fuel hfuel ↦ ?_⟩
  obtain ⟨fuel, rfl⟩ := Nat.exists_eq_add_one_of_ne_zero (show fuel ≠ 0 by omega)
  rw [readItems, hread fuel (by omega)]
  simp only [hspace]

theorem Unified.nextItem {cs middle tail rest : List Char} {item : Value} {items : List Value}
    (hitem : Unified readValue 0 cs item middle) (h : skipSpace middle = ',' :: tail)
    (hitems : Unified readItems 1 (skipSpace tail) items rest) :
    Unified readItems 1 cs (item :: items) rest := by
  obtain ⟨hspace, hlength⟩ := skipSpace_unified_of_cons (by decide) h
  obtain ⟨hshort, hread⟩ := hitem
  have htail := length_skipSpace_le (unifyLineEnds tail)
  rw [Unified, ← skipSpace_unified] at hitems
  obtain ⟨hless, hmore⟩ := hitems
  refine ⟨by omega, fun fuel hfuel ↦ ?_⟩
  obtain ⟨fuel, rfl⟩ := Nat.exists_eq_add_one_of_ne_zero (show fuel ≠ 0 by omega)
  rw [readItems, hread fuel (by omega)]
  simp only [hspace, hmore fuel (by omega)]

/-- The front of an entry: its key, the colon and the value. -/
theorem entry_unified {start tail middle afterColon afterValue : List Char} {key : String}
    {v : Value} (hkey : readString start tail = .ok (key, middle))
    (hcolon : skipSpace middle = ':' :: afterColon)
    (hvalue : Unified readValue 0 (skipSpace afterColon) v afterValue) :
    (unifyLineEnds afterValue).length < (unifyLineEnds tail).length ∧
      (∀ start', readString start' (unifyLineEnds tail) = .ok (key, unifyLineEnds middle)) ∧
      skipSpace (unifyLineEnds middle) = ':' :: unifyLineEnds afterColon ∧
      ∀ fuel, 2 * (unifyLineEnds tail).length ≤ fuel →
        readValue fuel (skipSpace (unifyLineEnds afterColon)) =
          .ok (v, unifyLineEnds afterValue) := by
  obtain ⟨-, hkeyLength⟩ := readString_unified hkey start
  obtain ⟨hspace, hcolonLength⟩ := skipSpace_unified_of_cons (by decide) hcolon
  have hshort := length_skipSpace_le (unifyLineEnds afterColon)
  rw [Unified, ← skipSpace_unified] at hvalue
  obtain ⟨hvalueLength, hread⟩ := hvalue
  exact ⟨by omega, fun start' ↦ (readString_unified hkey start').1, hspace,
    fun fuel hfuel ↦ hread fuel (by omega)⟩

theorem Unified.lastEntry {start tail middle afterColon afterValue rest : List Char} {key : String}
    {v : Value} (hkey : readString start tail = .ok (key, middle))
    (hcolon : skipSpace middle = ':' :: afterColon)
    (hvalue : Unified readValue 0 (skipSpace afterColon) v afterValue)
    (h : skipSpace afterValue = '\x7d' :: rest) :
    Unified readEntries 1 ('"' :: tail) [(key, v)] rest := by
  obtain ⟨hshort, hkey', hcolon', hvalue'⟩ := entry_unified hkey hcolon hvalue
  obtain ⟨hspace, hlength⟩ := skipSpace_unified_of_cons (by decide) h
  rw [Unified, unifyLineEnds_cons (by decide), List.length_cons]
  refine ⟨by omega, fun fuel hfuel ↦ ?_⟩
  obtain ⟨fuel, rfl⟩ := Nat.exists_eq_add_one_of_ne_zero (show fuel ≠ 0 by omega)
  rw [readEntries, hkey']
  simp only [hcolon', hvalue' fuel (by omega), hspace]

theorem Unified.nextEntry {start tail middle afterColon afterValue afterComma rest : List Char}
    {key : String} {v : Value} {entries : List (String × Value)}
    (hkey : readString start tail = .ok (key, middle))
    (hcolon : skipSpace middle = ':' :: afterColon)
    (hvalue : Unified readValue 0 (skipSpace afterColon) v afterValue)
    (h : skipSpace afterValue = ',' :: afterComma)
    (hentries : Unified readEntries 1 (skipSpace afterComma) entries rest) :
    Unified readEntries 1 ('"' :: tail) ((key, v) :: entries) rest := by
  obtain ⟨hshort, hkey', hcolon', hvalue'⟩ := entry_unified hkey hcolon hvalue
  obtain ⟨hspace, hlength⟩ := skipSpace_unified_of_cons (by decide) h
  have hcomma := length_skipSpace_le (unifyLineEnds afterComma)
  rw [Unified, ← skipSpace_unified] at hentries
  obtain ⟨hless, hmore⟩ := hentries
  rw [Unified, unifyLineEnds_cons (by decide), List.length_cons]
  refine ⟨by omega, fun fuel hfuel ↦ ?_⟩
  obtain ⟨fuel, rfl⟩ := Nat.exists_eq_add_one_of_ne_zero (show fuel ≠ 0 by omega)
  rw [readEntries, hkey']
  simp only [hcolon', hvalue' fuel (by omega), hspace, hmore fuel (by omega)]

/-- What a reader makes of any text with the given fuel, it makes of the text with unified line
ends. -/
def ReadsUnified {α : Type} (read : Nat → List Char → Reading α) (extra fuel : Nat) : Prop :=
  ∀ ⦃cs rest : List Char⦄ ⦃a : α⦄, read fuel cs = .ok (a, rest) → Unified read extra cs a rest

section Steps

variable {fuel : Nat}

/-- With one more fuel, a value is read through the readers of its parts. -/
theorem readsUnified_readValue_succ (hitems : ReadsUnified readItems 1 fuel)
    (hentries : ReadsUnified readEntries 1 fuel) : ReadsUnified readValue 0 (fuel + 1) := by
  intro cs rest v h
  rw [readValue.eq_def] at h
  dsimp only at h
  split at h
  · split at h
    · next hstring =>
      cases h
      exact .string hstring
    · cases h
  · split at h
    · next hspace =>
      cases h
      exact .emptyList hspace
    · next hne =>
      split at h
      · next hread =>
        cases h
        exact .list hne (hitems hread)
      · cases h
  · split at h
    · next hspace =>
      cases h
      exact .emptyObject hspace
    · next hne =>
      split at h
      · next hread =>
        cases h
        exact .object hne (hentries hread)
      · cases h
  · next hquote hbracket hbrace => exact .scalar hquote hbracket hbrace h

/-- With one more fuel, items are read one value at a time. -/
theorem readsUnified_readItems_succ (hvalue : ReadsUnified readValue 0 fuel)
    (hitems : ReadsUnified readItems 1 fuel) : ReadsUnified readItems 1 (fuel + 1) := by
  intro cs rest items h
  rw [readItems] at h
  split at h
  · cases h
  · next hitem =>
    split at h
    · next hspace =>
      cases h
      exact .lastItem (hvalue hitem) hspace
    · next hspace =>
      split at h
      · next hread =>
        cases h
        exact .nextItem (hvalue hitem) hspace (hitems hread)
      · cases h
    · cases h

/-- With one more fuel, entries are read one key and value at a time. -/
theorem readsUnified_readEntries_succ (hvalue : ReadsUnified readValue 0 fuel)
    (hentries : ReadsUnified readEntries 1 fuel) : ReadsUnified readEntries 1 (fuel + 1) := by
  intro cs rest entries h
  rw [readEntries.eq_def] at h
  dsimp only at h
  split at h
  · split at h
    · cases h
    · next hkey =>
      split at h
      · next hcolon =>
        split at h
        · cases h
        · next hread =>
          split at h
          · next hspace =>
            cases h
            exact .lastEntry hkey hcolon (hvalue hread) hspace
          · next hspace =>
            split at h
            · next hmore =>
              cases h
              exact .nextEntry hkey hcolon (hvalue hread) hspace (hentries hmore)
            · cases h
          · cases h
      · cases h
  · cases h

end Steps

/-- What a reader of values, of items or of entries makes of a text it makes of the text with
unified line ends. -/
theorem readParts_unified (fuel : Nat) :
    ReadsUnified readValue 0 fuel ∧ ReadsUnified readItems 1 fuel ∧
      ReadsUnified readEntries 1 fuel := by
  -- The fuel given here is any that was enough; that the unified text has enough of its own is what
  -- `Unified` says, so the induction does not compare the two.
  induction fuel with
  | zero => refine ⟨?_, ?_, ?_⟩ <;> intro cs rest a h <;> cases h
  | succ fuel ih =>
    obtain ⟨hvalue, hitems, hentries⟩ := ih
    exact ⟨readsUnified_readValue_succ hitems hentries, readsUnified_readItems_succ hvalue hitems,
      readsUnified_readEntries_succ hvalue hentries⟩

/-- A text that is read is read the same with unified line ends. -/
theorem readText_unified {cs : List Char} {v : Value} (h : readText cs = .ok v) :
    readText (unifyLineEnds cs) = .ok v := by
  rw [readText.eq_def] at h
  split at h
  · cases h
  · next hmark =>
    split at h
    · cases h
    · next v' rest hvalue =>
      split at h
      · next hspace =>
        cases h
        have hread := ((readParts_unified _).1 hvalue).2 (2 * (unifyLineEnds cs).length + 2)
        rw [← skipSpace_unified] at hread
        have hshort := length_skipSpace_le (unifyLineEnds cs)
        rw [readText, hread (by omega)]
        · simp only [skipSpace_unified, hspace, unifyLineEnds]
        · exact unifyLineEnds_ne_cons (by decide) hmark
      · cases h

/-- A text and the text with unified line ends are the same JSON value. -/
theorem parse_unified {s : String} {v : Value} (h : parse s = .ok v) :
    parse (String.ofList (unifyLineEnds s.toList)) = .ok v := by
  rw [parse] at h
  split at h
  · next hread =>
    cases h
    simp only [parse, String.toList_ofList, readText_unified hread]
  · cases h

end MarkupBinding.Json

namespace MarkupBinding

/-- An input document keeps its meaning when its line ends are unified. -/
theorem decodeInput_unified {text : String} {data : Value} (h : decodeInput text = .ok data) :
    decodeInput (String.ofList (Text.unifyLineEnds text.toList)) = .ok data := by
  rw [decodeInput, Text.isBlankText] at h ⊢
  rw [String.toList_ofList, Text.all_unifyLineEnds rfl rfl]
  split at h
  · cases h
  · next hblank =>
    split at h
    · next hparse =>
      cases h
      rw [if_neg hblank, Json.parse_unified hparse]
    · split at h <;> cases h

/-- What is read from the file of an input document is the same input document. -/
theorem decodeInput_of_file {text : String} {data : Value} (h : decodeInput text = .ok data) :
    ∃ kept, Text.Encoding.utf8.read (Text.utf8Encode text) = .ok kept ∧
      decodeInput kept = .ok data :=
  ⟨_, Text.read_utf8Encode text, decodeInput_unified h⟩

end MarkupBinding
