import MarkupBinding.Json.Writer
import MarkupBinding.Proofs.Json.LineEnds

/-!
# Indented JSON text is read back

The indented text of a value without numbers and records is read as the value, whatever characters
are in its keys and texts and however deep it is (`parse_writeDocument`). Every character is written
as one of its code units or as a pair, in ASCII, and reading joins the pairs again
(`joinUnits_codeUnits`), since no character is itself one half of a pair.

A text that is read as something is so read whatever stands behind it (`Reads`). That is what makes
the parts of a list or an object come out one by one, and it is where numbers would need more: a
number goes on as long as there are digits. The fuel that a text needs is twice its length, and for
the parts between brackets one more.
-/

set_option autoImplicit false
set_option relaxedAutoImplicit false

namespace MarkupBinding

namespace Text

/-- The digit for a number stands for it. -/
theorem hexValue?_hexDigit : ∀ n < 16, hexValue? (hexDigit n) = some n := by
  decide

end Text

namespace Json

/-! ### Characters and code units -/

/-- Four digits write a code unit. -/
theorem hexDigits_four {unit : Nat} (h : unit < 0x10000) :
    ∃ a b c d, Text.hexDigits 4 unit = [a, b, c, d] ∧ hexQuad? a b c d = some unit := by
  refine ⟨Text.hexDigit (unit / 16 / 16 / 16 % 16), Text.hexDigit (unit / 16 / 16 % 16),
    Text.hexDigit (unit / 16 % 16), Text.hexDigit (unit % 16), rfl, ?_⟩
  have hdigit : ∀ n, Text.hexValue? (Text.hexDigit (n % 16)) = some (n % 16) := fun n ↦
    Text.hexValue?_hexDigit _ (Nat.mod_lt _ (by decide))
  simp only [hexQuad?, hdigit, Option.bind_eq_bind, Option.bind_some, Option.pure_def,
    Option.some.injEq]
  omega

/-- The code of a character is below the surrogates or above them. -/
theorem toNat_cases (c : Char) :
    c.toNat < 0xD800 ∨ 0xDFFF < c.toNat ∧ c.toNat < 0x110000 :=
  c.valid

theorem codeUnits_lt {c : Char} {unit : Nat} (h : unit ∈ codeUnits c.toNat) : unit < 0x10000 := by
  have hc := toNat_cases c
  unfold codeUnits at h
  split at h
  · next hsmall =>
    obtain rfl := List.mem_singleton.1 h
    exact hsmall
  · rcases List.mem_cons.1 h with hhigh | h
    · omega
    · have hlow := List.mem_singleton.1 h
      omega

/-- The code units of a character in front are joined to the character. -/
theorem joinUnits_codeUnits (c : Char) (units : List Nat) :
    joinUnits (codeUnits c.toNat ++ units) = c :: joinUnits units := by
  have hc := toNat_cases c
  unfold codeUnits
  split
  · next hsmall =>
    have hhigh : isHighSurrogate c.toNat = false := by
      simp only [isHighSurrogate, Bool.and_eq_false_iff, decide_eq_false_iff_not]
      omega
    have hlow : isLowSurrogate c.toNat = false := by
      simp only [isLowSurrogate, Bool.and_eq_false_iff, decide_eq_false_iff_not]
      omega
    have hunit : charOfUnit c.toNat = c := by
      simp only [charOfUnit, hhigh, hlow, Bool.or_self, Bool.false_eq_true, if_false,
        Char.ofNat_toNat]
    rcases units with - | ⟨next, units⟩
    · simp only [List.append_nil, joinUnits, hunit]
    · simp only [List.cons_append, List.nil_append, joinUnits, hhigh, Bool.false_and,
        Bool.false_eq_true, if_false, hunit]
  · next hlarge =>
    have hhigh : isHighSurrogate (0xD800 + (c.toNat - 0x10000) / 0x400) = true := by
      simp only [isHighSurrogate, Bool.and_eq_true, decide_eq_true_eq]
      omega
    have hlow : isLowSurrogate (0xDC00 + (c.toNat - 0x10000) % 0x400) = true := by
      simp only [isLowSurrogate, Bool.and_eq_true, decide_eq_true_eq]
      omega
    have hcode : 0x10000 + (0xD800 + (c.toNat - 0x10000) / 0x400 - 0xD800) * 0x400 +
        (0xDC00 + (c.toNat - 0x10000) % 0x400 - 0xDC00) = c.toNat := by
      omega
    simp only [List.cons_append, List.nil_append, joinUnits, hhigh, hlow, Bool.and_self, if_true,
      charOfPair, hcode, Char.ofNat_toNat]

/-- The code units of characters are joined to the characters. -/
theorem joinUnits_flatMap (cs : List Char) :
    joinUnits (cs.flatMap fun c ↦ codeUnits c.toNat) = cs := by
  induction cs with
  | nil => rfl
  | cons c cs ih => rw [List.flatMap_cons, joinUnits_codeUnits, ih]

/-! ### Strings -/

/-- An escape of a code unit is read as the unit. -/
theorem readUnits_unicodeUnit {unit : Nat} (h : unit < 0x10000) (start : List Char)
    {more : List Char} (hmore : more ≠ []) :
    readUnits start ('\\' :: 'u' :: Text.hexDigits 4 unit ++ more) =
      consUnit unit (readUnits start more) := by
  obtain ⟨a, b, c, d, hdigits, hquad⟩ := hexDigits_four h
  have hnonempty : more.isEmpty = false := List.isEmpty_eq_false_iff.2 hmore
  rw [hdigits]
  simp only [List.cons_append, List.nil_append]
  rw [readUnits, hnonempty, hquad]

/-- The escapes of a character are read as its code units. -/
theorem readUnits_unicodeEscape (start : List Char) (c : Char) {more : List Char}
    (hmore : more ≠ []) :
    readUnits start (unicodeEscape c ++ more) =
      (codeUnits c.toNat).foldr consUnit (readUnits start more) := by
  have hall : ∀ units : List Nat, (∀ unit ∈ units, unit < 0x10000) →
      readUnits start (units.flatMap (fun unit ↦ '\\' :: 'u' :: Text.hexDigits 4 unit) ++ more) =
        units.foldr consUnit (readUnits start more) := by
    intro units hunits
    induction units with
    | nil => rfl
    | cons unit units ih =>
      rw [List.flatMap_cons, List.append_assoc,
        readUnits_unicodeUnit (hunits unit List.mem_cons_self) start (by simp [hmore]),
        ih fun other h ↦ hunits other (List.mem_cons_of_mem _ h)]
      rfl
  exact hall _ fun unit h ↦ codeUnits_lt h

/-- A letter behind a backslash is read as the character that it stands for. -/
theorem readUnits_simpleEscape {letter c : Char} (h : simpleEscape? letter = some c)
    (start more : List Char) :
    readUnits start ('\\' :: letter :: more) = consUnit c.toNat (readUnits start more) := by
  have hletter := ne_of_simpleEscape? h
  rw [readUnits, h]
  rintro _ _ _ _ _ rfl
  exact absurd rfl hletter.2

/-- A plain character is read as it is. -/
theorem readUnits_plain {c : Char} (hquote : c ≠ '"') (hslash : c ≠ '\\')
    (hcontrol : ¬ c.toNat < 0x20) (start more : List Char) :
    readUnits start (c :: more) = consUnit c.toNat (readUnits start more) := by
  rw [readUnits, if_neg hslash, if_neg hcontrol]
  · exact hquote
  · exact fun _ _ _ _ _ h ↦ absurd h hslash
  · exact fun _ _ h ↦ absurd h hslash

theorem codeUnits_of_lt {n : Nat} (h : n < 0x10000) : codeUnits n = [n] :=
  if_pos h

/-- A written character is read as its code units. -/
theorem readUnits_writeChar (start : List Char) (c : Char) {more : List Char} (hmore : more ≠ []) :
    readUnits start (writeChar true c ++ more) =
      (codeUnits c.toNat).foldr consUnit (readUnits start more) := by
  have hsimple : ∀ {letter c : Char}, simpleEscape? letter = some c → c.toNat < 0x10000 →
      readUnits start (['\\', letter] ++ more) =
        (codeUnits c.toNat).foldr consUnit (readUnits start more) := by
    intro letter c hescape hsmall
    rw [codeUnits_of_lt hsmall]
    exact readUnits_simpleEscape hescape start more
  unfold writeChar
  by_cases hquote : c = '"'
  · rw [if_pos hquote, hquote]
    exact hsimple rfl (by decide)
  rw [if_neg hquote]
  by_cases hslash : c = '\\'
  · rw [if_pos hslash, hslash]
    exact hsimple rfl (by decide)
  rw [if_neg hslash]
  by_cases hfeed : c = '\n'
  · rw [if_pos hfeed, hfeed]
    exact hsimple rfl (by decide)
  rw [if_neg hfeed]
  by_cases hreturn : c = '\r'
  · rw [if_pos hreturn, hreturn]
    exact hsimple rfl (by decide)
  rw [if_neg hreturn]
  by_cases htab : c = '\t'
  · rw [if_pos htab, htab]
    exact hsimple rfl (by decide)
  rw [if_neg htab]
  by_cases hback : c = '\x08'
  · rw [if_pos hback, hback]
    exact hsimple rfl (by decide)
  rw [if_neg hback]
  by_cases hform : c = '\x0c'
  · rw [if_pos hform, hform]
    exact hsimple rfl (by decide)
  rw [if_neg hform]
  by_cases hcontrol : c.toNat < 0x20
  · rw [if_pos hcontrol]
    exact readUnits_unicodeEscape start c hmore
  rw [if_neg hcontrol, Bool.true_and]
  by_cases hbeyond : 0x7e < c.toNat
  · rw [if_pos (decide_eq_true hbeyond)]
    exact readUnits_unicodeEscape start c hmore
  · rw [if_neg (mt of_decide_eq_true hbeyond), codeUnits_of_lt (by omega)]
    exact readUnits_plain hquote hslash hcontrol start more

theorem foldr_consUnit_ok (units more : List Nat) (rest : List Char) :
    units.foldr consUnit (.ok (more, rest)) = .ok (units ++ more, rest) := by
  induction units with
  | nil => rfl
  | cons unit units ih => rw [List.foldr_cons, ih, consUnit, List.cons_append]

/-- Written characters are read up to the closing quote as their code units. -/
theorem readUnits_flatMap (start cs rest : List Char) :
    readUnits start (cs.flatMap (writeChar true) ++ '"' :: rest) =
      .ok (cs.flatMap fun c ↦ codeUnits c.toNat, rest) := by
  induction cs with
  | nil => rw [List.flatMap_nil, List.nil_append, readUnits, List.flatMap_nil]
  | cons c cs ih =>
    rw [List.flatMap_cons, List.append_assoc, readUnits_writeChar start c (by simp), ih,
      foldr_consUnit_ok, List.flatMap_cons]

/-- The characters of a written string behind its opening quote. -/
def writtenTail (s : String) : List Char :=
  s.toList.flatMap (writeChar true) ++ ['"']

theorem toList_writeString (s : String) : (writeString true s).toList = '"' :: writtenTail s := by
  rw [writeString, String.toList_ofList, writtenTail, List.cons_append]

/-- A written string is read back. -/
theorem readString_writtenTail (start : List Char) (s : String) (rest : List Char) :
    readString start (writtenTail s ++ rest) = .ok (s, rest) := by
  unfold readString writtenTail
  rw [List.append_assoc, List.singleton_append, readUnits_flatMap]
  simp only [joinUnits_flatMap, String.ofList_toList]

/-! ### Parts of a text -/

/-- A text is read as something by a reader, whatever stands behind it, when the fuel is not below
twice its length and so many more. -/
def Reads {α : Type} (read : Nat → List Char → Reading α) (extra : Nat) (cs : List Char) (a : α) :
    Prop :=
  ∀ (rest : List Char) (fuel : Nat), 2 * cs.length + extra ≤ fuel →
    read fuel (cs ++ rest) = .ok (a, rest)

/-- The text begins with a character that is no white space, closes nothing and is no mark of byte
order. -/
def Begins (cs : List Char) : Prop :=
  ∃ c rest, cs = c :: rest ∧ isSpace c = false ∧ c ≠ ']' ∧ c ≠ '\x7d' ∧ c ≠ '\ufeff'

/-- White space only. -/
def Blank (gap : List Char) : Prop :=
  ∀ c ∈ gap, isSpace c = true

theorem Begins.append {cs : List Char} (h : Begins cs) (rest : List Char) :
    Begins (cs ++ rest) := by
  obtain ⟨c, tail, rfl, hc⟩ := h
  exact ⟨c, tail ++ rest, List.cons_append, hc⟩

/-- White space is skipped up to where something begins. -/
theorem skipSpace_blank {gap : List Char} (hgap : Blank gap) {c : Char} (hc : isSpace c = false)
    (rest : List Char) : skipSpace (gap ++ c :: rest) = c :: rest := by
  unfold skipSpace
  rw [List.dropWhile_append_of_pos hgap, List.dropWhile_cons, hc]
  rfl

theorem Begins.skipSpace {cs gap : List Char} (h : Begins cs) (hgap : Blank gap) :
    skipSpace (gap ++ cs) = cs := by
  obtain ⟨c, rest, rfl, hc, -⟩ := h
  exact skipSpace_blank hgap hc rest

section Parts

variable {front more gap : List Char} {v : Value} {items : List Value} {key : String}
  {entries : List (String × Value)}

/-- The last item of a list, up to the closing bracket. -/
theorem Reads.lastItem (hitem : Reads readValue 0 front v) (hgap : Blank gap) :
    Reads readItems 1 (front ++ gap ++ [']']) [v] := by
  intro rest fuel hfuel
  obtain ⟨fuel, rfl⟩ := Nat.exists_eq_add_one_of_ne_zero (show fuel ≠ 0 by omega)
  simp only [List.length_append] at hfuel
  rw [readItems, List.append_assoc, List.append_assoc, hitem _ fuel (by omega)]
  simp only [List.singleton_append, skipSpace_blank hgap (show isSpace ']' = false by decide)]

/-- An item and those behind it. -/
theorem Reads.nextItem (hitem : Reads readValue 0 front v) (hgap : Blank gap)
    (hbegins : Begins more) (hitems : Reads readItems 1 more items) :
    Reads readItems 1 (front ++ ',' :: gap ++ more) (v :: items) := by
  intro rest fuel hfuel
  obtain ⟨fuel, rfl⟩ := Nat.exists_eq_add_one_of_ne_zero (show fuel ≠ 0 by omega)
  simp only [List.length_append, List.length_cons] at hfuel
  have hcomma : skipSpace (',' :: gap ++ (more ++ rest)) = ',' :: (gap ++ (more ++ rest)) := rfl
  rw [readItems, List.append_assoc, List.append_assoc, hitem _ fuel (by omega)]
  simp only [hcomma, (hbegins.append rest).skipSpace hgap, hitems rest fuel (by omega)]

/-- A list with items. -/
theorem Reads.list (hgap : Blank gap) (hbegins : Begins more)
    (hitems : Reads readItems 1 more items) :
    Reads readValue 0 ('[' :: gap ++ more) (.list items) := by
  intro rest fuel hfuel
  simp only [List.length_append, List.length_cons] at hfuel
  obtain ⟨fuel, rfl⟩ := Nat.exists_eq_add_one_of_ne_zero (show fuel ≠ 0 by omega)
  rw [List.append_assoc, List.cons_append, readValue, (hbegins.append rest).skipSpace hgap]
  split
  · next tail heq =>
    obtain ⟨c, _, hc, -, hclose, -⟩ := hbegins.append rest
    exact absurd (List.cons.inj (hc.symm.trans heq)).1 hclose
  · rw [hitems rest fuel (by omega)]

/-- An object with entries. -/
theorem Reads.object (hgap : Blank gap) (hbegins : Begins more)
    (hentries : Reads readEntries 1 more entries) :
    Reads readValue 0 ('\x7b' :: gap ++ more) (.object (Keyed.ofPairs entries)) := by
  intro rest fuel hfuel
  simp only [List.length_append, List.length_cons] at hfuel
  obtain ⟨fuel, rfl⟩ := Nat.exists_eq_add_one_of_ne_zero (show fuel ≠ 0 by omega)
  rw [List.append_assoc, List.cons_append, readValue, (hbegins.append rest).skipSpace hgap]
  split
  · next tail heq =>
    obtain ⟨c, _, hc, -, -, hclose, -⟩ := hbegins.append rest
    exact absurd (List.cons.inj (hc.symm.trans heq)).1 hclose
  · rw [hentries rest fuel (by omega)]

/-- The text of an entry: its key, a colon with a blank, and the text of its value. -/
def entryText (key : String) (front : List Char) : List Char :=
  '"' :: writtenTail key ++ ':' :: ' ' :: front

theorem begins_entryText (key : String) (front : List Char) : Begins (entryText key front) :=
  ⟨'"', _, rfl, by decide⟩

/-- After the text of an entry the reader looks for the end of the object or for another entry. -/
theorem readEntries_entryText (hbegins : Begins front) (hvalue : Reads readValue 0 front v)
    {fuel : Nat} (hfuel : 2 * front.length ≤ fuel) {rest behind : List Char} :
    (skipSpace rest = '\x7d' :: behind →
      readEntries (fuel + 1) (entryText key front ++ rest) = .ok ([(key, v)], behind)) ∧
    (skipSpace rest = ',' :: behind → ∀ {others : List (String × Value)} {left : List Char},
      readEntries fuel (skipSpace behind) = .ok (others, left) →
        readEntries (fuel + 1) (entryText key front ++ rest) = .ok ((key, v) :: others, left)) := by
  have hblank : Blank [' '] := by simp [Blank, isSpace]
  have hcolon : skipSpace (':' :: ' ' :: (front ++ rest)) = ':' :: ' ' :: (front ++ rest) := rfl
  have hfront : skipSpace (' ' :: (front ++ rest)) = front ++ rest :=
    (hbegins.append rest).skipSpace hblank
  have hread := hvalue rest fuel (by omega)
  unfold entryText
  simp only [List.append_assoc, List.cons_append]
  rw [readEntries, readString_writtenTail]
  constructor
  · intro hclose
    simp only [hcolon, hfront, hread, hclose]
  · intro hcomma others left hmore
    simp only [hcolon, hfront, hread, hcomma, hmore]

/-- The last entry of an object, up to the closing brace. -/
theorem Reads.lastEntry (hbegins : Begins front) (hvalue : Reads readValue 0 front v)
    (hgap : Blank gap) :
    Reads readEntries 1 (entryText key front ++ gap ++ ['\x7d']) [(key, v)] := by
  intro rest fuel hfuel
  simp only [entryText, List.length_append, List.length_cons] at hfuel
  obtain ⟨fuel, rfl⟩ := Nat.exists_eq_add_one_of_ne_zero (show fuel ≠ 0 by omega)
  rw [List.append_assoc, List.append_assoc]
  exact (readEntries_entryText hbegins hvalue (by omega)).1 (skipSpace_blank hgap (by decide) rest)

/-- An entry and those behind it. -/
theorem Reads.nextEntry (key : String) (hbegins : Begins front) (hvalue : Reads readValue 0 front v)
    (hgap : Blank gap) (hmore : Begins more) (hentries : Reads readEntries 1 more entries) :
    Reads readEntries 1 (entryText key front ++ ',' :: gap ++ more) ((key, v) :: entries) := by
  intro rest fuel hfuel
  simp only [entryText, List.length_append, List.length_cons] at hfuel
  obtain ⟨fuel, rfl⟩ := Nat.exists_eq_add_one_of_ne_zero (show fuel ≠ 0 by omega)
  have hcomma : skipSpace (',' :: gap ++ (more ++ rest)) = ',' :: (gap ++ (more ++ rest)) := rfl
  rw [List.append_assoc, List.append_assoc]
  refine (readEntries_entryText hbegins hvalue (by omega)).2 hcomma ?_
  rw [(hmore.append rest).skipSpace hgap, hentries rest fuel (by omega)]

end Parts

/-! ### Joined parts between brackets -/

/-- The characters of joined texts, at the first of several. -/
theorem toList_join_cons_cons (separator s t : String) (rest : List String) :
    (Text.join separator (s :: t :: rest)).toList =
      s.toList ++ (separator.toList ++ (Text.join separator (t :: rest)).toList) := by
  rw [Text.join, String.toList_append, String.toList_append, List.append_assoc]

section Joined

variable {gap ending : List Char}

/-- The text of a value begins with something, and is read as the value whatever stands behind it.
-/
def ReadsBack (write : Value → String) (v : Value) : Prop :=
  Begins (write v).toList ∧ Reads readValue 0 (write v).toList v

/-- The items of a list, joined, are read up to the closing bracket. -/
theorem reads_joinItems (write : Value → String) (hgap : Blank gap) (hending : Blank ending)
    {items : List Value} (hne : items ≠ []) (h : ∀ v ∈ items, ReadsBack write v) :
    let text := (Text.join ("," ++ String.ofList gap) (items.map write)).toList ++ ending ++ [']']
    Begins text ∧ Reads readItems 1 text items := by
  induction items with
  | nil => exact absurd rfl hne
  | cons v items ih =>
    obtain ⟨hbegins, hreads⟩ := h v List.mem_cons_self
    rcases items with - | ⟨w, items⟩
    · exact ⟨(hbegins.append _).append _, hreads.lastItem hending⟩
    · obtain ⟨hmore, hitems⟩ := ih (List.cons_ne_nil _ _)
        fun u hu ↦ h u (List.mem_cons_of_mem _ hu)
      have hnext := hreads.nextItem hgap hmore hitems
      simp only [List.map_cons, toList_join_cons_cons, String.toList_append, String.toList_ofList,
        List.append_assoc] at hnext ⊢
      exact ⟨hbegins.append _, hnext⟩

/-- The entries of an object, joined, are read up to the closing brace. -/
theorem reads_joinEntries (write : Value → String) (hgap : Blank gap) (hending : Blank ending)
    {entries : List (String × Value)} (hne : entries ≠ [])
    (h : ∀ entry ∈ entries, ReadsBack write entry.2) :
    let text := (Text.join ("," ++ String.ofList gap) (entries.map fun entry ↦
      writeString true entry.1 ++ ": " ++ write entry.2)).toList ++ ending ++ ['\x7d']
    Begins text ∧ Reads readEntries 1 text entries := by
  have hentry : ∀ entry : String × Value,
      (writeString true entry.1 ++ ": " ++ write entry.2).toList =
        entryText entry.1 (write entry.2).toList := fun entry ↦ by
    simp [toList_writeString, entryText]
  induction entries with
  | nil => exact absurd rfl hne
  | cons entry entries ih =>
    obtain ⟨hbegins, hreads⟩ := h entry List.mem_cons_self
    rcases entries with - | ⟨next, entries⟩
    · simp only [List.map_cons, List.map_nil, Text.join, hentry]
      exact ⟨((begins_entryText _ _).append _).append _, hreads.lastEntry hbegins hending⟩
    · obtain ⟨hmore, hentries⟩ := ih (List.cons_ne_nil _ _)
        fun e he ↦ h e (List.mem_cons_of_mem _ he)
      have hnext := hreads.nextEntry entry.1 hbegins hgap hmore hentries
      simp only [List.map_cons, toList_join_cons_cons, hentry, String.toList_append,
        String.toList_ofList, List.append_assoc] at hnext ⊢
      exact ⟨(begins_entryText _ _).append _, hnext⟩

end Joined

/-! ### Whole documents -/

/-- No number and no record is in the value, and at every depth the keys of an object are distinct.
-/
inductive Plain : Value → Prop where
  | null : Plain .null
  | bool (b : Bool) : Plain (.bool b)
  | string (s : String) : Plain (.string s)
  | list {items : List Value} (hitems : ∀ v ∈ items, Plain v) : Plain (.list items)
  | object {fields : List (String × Value)} (hkeys : (Keyed.keys fields).Nodup)
      (hfields : ∀ entry ∈ fields, Plain entry.2) : Plain (.object fields)

theorem writeIndentedItems_eq_map (level : Nat) (items : List Value) :
    writeIndentedItems level items = items.map (writeIndented level) := by
  induction items with
  | nil => rfl
  | cons v items ih => rw [writeIndentedItems, ih, List.map_cons]

theorem writeIndentedEntries_eq_map (level : Nat) (entries : List (String × Value)) :
    writeIndentedEntries level entries =
      entries.map fun entry ↦ writeString true entry.1 ++ ": " ++ writeIndented level entry.2 := by
  induction entries with
  | nil => rfl
  | cons entry entries ih => rw [writeIndentedEntries, ih, List.map_cons]

theorem blank_newline (level : Nat) : Blank (newline level).toList := by
  intro c hc
  rw [newline, String.toList_ofList] at hc
  rcases List.mem_cons.1 hc with rfl | hblank
  · decide
  · rw [List.eq_of_mem_replicate hblank]
    decide

/-- A word is read as what it stands for. -/
theorem readsBack_word {write : Value → String} {v : Value} (c : Char) (tail : List Char)
    (hwrite : (write v).toList = c :: tail)
    (hc : isSpace c = false ∧ c ≠ ']' ∧ c ≠ '\x7d' ∧ c ≠ '\ufeff')
    (hread : ∀ fuel rest, readValue (fuel + 1) (c :: tail ++ rest) = .ok (v, rest)) :
    ReadsBack write v := by
  unfold ReadsBack
  rw [hwrite]
  refine ⟨⟨c, tail, rfl, hc⟩, fun rest fuel hfuel ↦ ?_⟩
  obtain ⟨fuel, rfl⟩ := Nat.exists_eq_add_one_of_ne_zero (show fuel ≠ 0 by simp at hfuel; omega)
  exact hread fuel rest

/-- Brackets around parts, one per line. -/
theorem toList_bracketed (level : Nat) (opening closing part : String) (parts : List String) :
    (bracketed level opening closing (part :: parts)).toList =
      opening.toList ++ ((newline (level + 1)).toList ++
        ((Text.join ("," ++ newline (level + 1)) (part :: parts)).toList ++
          ((newline level).toList ++ closing.toList))) := by
  simp only [bracketed, String.toList_append, List.append_assoc]

/-- The indented text of a value without numbers and records is read as the value. -/
theorem readsBack_writeIndented {v : Value} (h : Plain v) :
    ∀ level, ReadsBack (writeIndented level) v := by
  induction h with
  | null =>
    exact fun level ↦ readsBack_word 'n' ['u', 'l', 'l']
      (by simp [writeIndented, write]) (by decide) fun _ _ ↦ rfl
  | bool b =>
    intro level
    cases b with
    | true =>
      exact readsBack_word 't' ['r', 'u', 'e']
        (by simp [writeIndented, write]) (by decide) fun _ _ ↦ rfl
    | false =>
      exact readsBack_word 'f' ['a', 'l', 's', 'e']
        (by simp [writeIndented, write]) (by decide) fun _ _ ↦ rfl
  | string s =>
    intro level
    refine readsBack_word '"' (writtenTail s) ?_ (by decide) fun fuel rest ↦ ?_
    · simp [writeIndented, write, spaced, toList_writeString]
    · rw [List.cons_append, readValue, readString_writtenTail]
  | @list items hitems ih =>
    intro level
    rcases items with - | ⟨v, items⟩
    · exact readsBack_word '[' [']']
        (by simp [writeIndented, writeIndentedItems, bracketed]) (by decide) fun _ _ ↦ rfl
    obtain ⟨hbegins, hreads⟩ := reads_joinItems (writeIndented (level + 1))
      (blank_newline (level + 1)) (blank_newline level) (List.cons_ne_nil v items)
      fun w hw ↦ ih w hw (level + 1)
    have hlist := hreads.list (blank_newline (level + 1)) hbegins
    unfold ReadsBack
    rw [writeIndented, writeIndentedItems_eq_map, List.map_cons, toList_bracketed]
    rw [String.ofList_toList, List.map_cons, List.cons_append, List.append_assoc] at hlist
    exact ⟨⟨'[', _, rfl, by decide⟩, hlist⟩
  | @object fields hkeys hfields ih =>
    intro level
    rcases fields with - | ⟨entry, fields⟩
    · exact readsBack_word '\x7b' ['\x7d']
        (by simp [writeIndented, writeIndentedEntries, bracketed]) (by decide) fun _ _ ↦ rfl
    obtain ⟨hbegins, hreads⟩ := reads_joinEntries (writeIndented (level + 1))
      (blank_newline (level + 1)) (blank_newline level) (List.cons_ne_nil entry fields)
      fun e he ↦ ih e he (level + 1)
    have hobject := hreads.object (blank_newline (level + 1)) hbegins
    unfold ReadsBack
    rw [writeIndented, writeIndentedEntries_eq_map, List.map_cons, toList_bracketed]
    rw [Keyed.ofPairs_of_nodup hkeys, String.ofList_toList, List.map_cons, List.cons_append,
      List.append_assoc] at hobject
    exact ⟨⟨'\x7b', _, rfl, by decide⟩, hobject⟩

/-- The indented text of a value without numbers and records is read back. -/
theorem parse_writeDocument {v : Value} (h : Plain v) : parse (writeDocument v) = .ok v := by
  obtain ⟨⟨c, tail, hfirst, hspace, -, -, hmark⟩, hreads⟩ : ReadsBack writeDocument v :=
    readsBack_writeIndented h 0
  have hread := hreads [] (2 * (writeDocument v).toList.length + 2) (by omega)
  rw [List.append_nil] at hread
  have hskip : skipSpace (writeDocument v).toList = (writeDocument v).toList := by
    rw [hfirst]
    exact skipSpace_blank (show Blank [] from fun _ hc ↦ absurd hc List.not_mem_nil) hspace tail
  have htext : readText (writeDocument v).toList = .ok v := by
    unfold readText
    split
    · next rest heq =>
      rw [hfirst] at heq
      exact absurd (List.cons.inj heq).1 hmark
    · rw [hskip, hread]
      rfl
  unfold parse
  simp only [htext]

/-- From the file of such a text the value is read. -/
theorem parse_file_writeDocument {v : Value} (h : Plain v) :
    ∃ text, Text.Encoding.utf8.read (Text.utf8Encode (writeDocument v)) = .ok text ∧
      parse text = .ok v :=
  ⟨_, Text.read_utf8Encode _, parse_unified (parse_writeDocument h)⟩

end Json

end MarkupBinding
