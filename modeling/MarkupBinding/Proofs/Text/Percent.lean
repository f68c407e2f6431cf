import MarkupBinding.Proofs.Text.Utf8
import MarkupBinding.Service.Multipart

/-!
# Bytes in the fields of a form

`FieldWritten` relates bytes to the characters that stand for them in a field of a form: a percent
sign and two hexadecimal digits for any byte, a plus sign for a blank, and a character of the basic
alphabet for its own byte where it means nothing else. A byte may be written in several ways, and
encoding a text writes its bytes so, whichever characters it leaves as they are
(`fieldWritten_percentEncode`).

Reading takes back what was written (`percentBytes_of_fieldWritten`), so that the field of the bytes
of a text is that text (`fieldDecode_of_fieldWritten`). What is written has no separator of fields
and consists of characters of one byte (`FieldWritten.mem`), so it is not cut and comes out of a
body as it went in (`byteText_utf8Encode`).
-/

set_option autoImplicit false
set_option relaxedAutoImplicit false

namespace MarkupBinding

namespace Text

/-- The characters that mean something other than themselves in a form. -/
def fieldSigns : List Char := ['%', '+', '&', ';']

/-- The character stands for its own byte in the field of a form. -/
def IsFieldPlain (c : Char) : Prop :=
  c.toNat < 0x80 ∧ c ∉ fieldSigns

/-- The characters stand for the bytes in the field of a form. -/
inductive FieldWritten : List Char → List UInt8 → Prop
  | nil : FieldWritten [] []
  | plain {c : Char} {cs : List Char} {bytes : List UInt8} (hc : IsFieldPlain c)
      (h : FieldWritten cs bytes) : FieldWritten (c :: cs) (UInt8.ofNat c.toNat :: bytes)
  | blank {cs : List Char} {bytes : List UInt8} (h : FieldWritten cs bytes) :
      FieldWritten ('+' :: cs) (UInt8.ofNat ' '.toNat :: bytes)
  | escape {a b : Char} {high low : Nat} {cs : List Char} {bytes : List UInt8}
      (ha : hexValue? a = some high) (hb : hexValue? b = some low) (h : FieldWritten cs bytes) :
      FieldWritten ('%' :: a :: b :: cs) (UInt8.ofNat (16 * high + low) :: bytes)

/-- A character of the basic alphabet is its own byte. -/
theorem utf8EncodeChar_of_lt {c : Char} (h : c.toNat < 0x80) :
    String.utf8EncodeChar c = [UInt8.ofNat c.toNat] := by
  rw [utf8EncodeChar_eq, if_pos (Nat.le_of_lt_succ h)]

/-- A hexadecimal digit stands for its own byte. -/
theorem isFieldPlain_of_hexValue? {c : Char} {n : Nat} (h : hexValue? c = some n) :
    IsFieldPlain c := by
  have hsign : ∀ sign ∈ fieldSigns, hexValue? sign = none := by
    simp [fieldSigns, hexValue?]
  refine ⟨?_, fun hmem ↦ ?_⟩
  · rw [hexValue?] at h
    split at h
    · next hc => exact Nat.lt_of_le_of_lt hc.2 (by decide)
    split at h
    · next hc => exact Nat.lt_of_le_of_lt hc.2 (by decide)
    split at h
    · next hc => exact Nat.lt_of_le_of_lt hc.2 (by decide)
    · cases h
  · rw [hsign c hmem] at h
    cases h

/-- Letters and digits of the basic alphabet stand for their own bytes. -/
theorem isFieldPlain_of_isAlphanum {c : Char} (h : c.isAlphanum = true) : IsFieldPlain c := by
  have hsign : ∀ sign ∈ fieldSigns, sign.isAlphanum = false := by simp [fieldSigns]
  refine ⟨?_, fun hmem ↦ ?_⟩
  · rcases Bool.or_eq_true_iff.1 h with hletter | hdigit
    · rcases Bool.or_eq_true_iff.1 hletter with hupper | hlower
      · have hle : c ≤ 'Z' := (of_decide_eq_true hupper).2
        exact Nat.lt_of_le_of_lt hle (by decide)
      · have hle : c ≤ 'z' := of_decide_eq_true (Bool.and_eq_true_iff.1 hlower).2
        exact Nat.lt_of_le_of_lt hle (by decide)
    · have hle : c ≤ '9' := of_decide_eq_true (Bool.and_eq_true_iff.1 hdigit).2
      exact Nat.lt_of_le_of_lt hle (by decide)
  · rw [hsign c hmem] at h
    cases h

/-- What is written are characters of one byte, and none separates fields. -/
theorem FieldWritten.mem {cs : List Char} {bytes : List UInt8} (h : FieldWritten cs bytes) :
    ∀ c ∈ cs, c.toNat < 0x80 ∧ c ≠ '&' ∧ c ≠ ';' := by
  have hplain : ∀ {c : Char}, IsFieldPlain c → c.toNat < 0x80 ∧ c ≠ '&' ∧ c ≠ ';' :=
    fun {c} hc ↦ ⟨hc.1, fun heq ↦ hc.2 (heq ▸ by decide), fun heq ↦ hc.2 (heq ▸ by decide)⟩
  induction h with
  | nil => exact fun c hc ↦ absurd hc List.not_mem_nil
  | plain hc _ ih => exact List.forall_mem_cons.2 ⟨hplain hc, ih⟩
  | blank _ ih => exact List.forall_mem_cons.2 ⟨by decide, ih⟩
  | escape ha hb _ ih =>
    refine List.forall_mem_cons.2 ⟨by decide, List.forall_mem_cons.2 ⟨?_,
      List.forall_mem_cons.2 ⟨?_, ih⟩⟩⟩
    · exact hplain (isFieldPlain_of_hexValue? ha)
    · exact hplain (isFieldPlain_of_hexValue? hb)

/-- The characters of a field after plus signs were read as blanks. -/
def blankPlus (c : Char) : Char :=
  if c = '+' then ' ' else c

theorem blankPlus_of_plain {c : Char} (h : IsFieldPlain c) : blankPlus c = c := by
  have hne : c ≠ '+' := by
    rintro rfl
    exact h.2 (by decide)
  rw [blankPlus, if_neg hne]

/-- A plain character of a field is read as its byte. -/
theorem percentBytes_cons_of_plain {c : Char} (h : IsFieldPlain c) (cs : List Char) :
    percentBytes (c :: cs) = UInt8.ofNat c.toNat :: percentBytes cs := by
  rw [percentBytes, utf8EncodeChar_of_lt h.1, List.singleton_append]
  rintro a b tail rfl
  exact absurd h.2 (by decide)

/-- What was written is read as the bytes that it stands for. -/
theorem percentBytes_of_fieldWritten {cs : List Char} {bytes : List UInt8}
    (h : FieldWritten cs bytes) : percentBytes (cs.map blankPlus) = bytes := by
  induction h with
  | nil => rfl
  | plain hc _ ih =>
    rw [List.map_cons, blankPlus_of_plain hc, percentBytes_cons_of_plain hc, ih]
  | blank _ ih =>
    have hblank : IsFieldPlain ' ' := ⟨by decide, by decide⟩
    rw [List.map_cons, show blankPlus '+' = ' ' from rfl, percentBytes_cons_of_plain hblank, ih]
  | escape ha hb _ ih =>
    rw [List.map_cons, List.map_cons, List.map_cons, show blankPlus '%' = '%' from rfl,
      blankPlus_of_plain (isFieldPlain_of_hexValue? ha),
      blankPlus_of_plain (isFieldPlain_of_hexValue? hb), percentBytes]
    simp only [ha, hb, ih]

/-- A field with the bytes of a text is read as that text. -/
theorem fieldDecode_of_fieldWritten {written s : String}
    (h : FieldWritten written.toList (utf8Encode s)) : fieldDecode written = s := by
  change utf8Mend (percentBytes (written.toList.map blankPlus)) = s
  rw [percentBytes_of_fieldWritten h, utf8Mend_utf8Encode]

/-! ### Encoding -/

theorem FieldWritten.append {cs ds : List Char} {bytes more : List UInt8}
    (h : FieldWritten cs bytes) (h' : FieldWritten ds more) :
    FieldWritten (cs ++ ds) (bytes ++ more) := by
  induction h with
  | nil => exact h'
  | plain hc _ ih => exact .plain hc ih
  | blank _ ih => exact .blank ih
  | escape ha hb _ ih => exact .escape ha hb ih

/-- A byte is written as its escape. -/
theorem fieldWritten_percentEscape (byte : UInt8) : FieldWritten (percentEscape byte) [byte] := by
  have hdigit : ∀ n < 16, hexValue? (hexDigit n).toUpper = some n := by decide
  have hhigh := hdigit (byte.toNat / 16 % 16) (Nat.mod_lt _ (by decide))
  have hlow := hdigit (byte.toNat % 16) (Nat.mod_lt _ (by decide))
  have hbyte : UInt8.ofNat (16 * (byte.toNat / 16 % 16) + byte.toNat % 16) = byte := by
    have hlt := byte.toNat_lt
    rw [show 16 * (byte.toNat / 16 % 16) + byte.toNat % 16 = byte.toNat by omega]
    exact UInt8.ofNat_toNat
  have hwritten := FieldWritten.escape hhigh hlow .nil
  rwa [hbyte] at hwritten

/-- Encoding a text writes its bytes, if it leaves only plain characters as they are. -/
theorem fieldWritten_percentEncode {plain : Char → Bool}
    (hplain : ∀ c, plain c = true → IsFieldPlain c) (s : String) :
    FieldWritten (percentEncode plain s).toList (utf8Encode s) := by
  have hbytes : ∀ bytes : List UInt8, FieldWritten (bytes.flatMap percentEscape) bytes := by
    intro bytes
    induction bytes with
    | nil => exact .nil
    | cons byte rest ih => exact (fieldWritten_percentEscape byte).append ih
  rw [percentEncode, String.toList_ofList, utf8Encode]
  induction s.toList with
  | nil => exact .nil
  | cons c rest ih =>
    rw [List.flatMap_cons, List.flatMap_cons]
    refine FieldWritten.append ?_ ih
    split
    · next hc =>
      rw [utf8EncodeChar_of_lt (hplain c hc).1]
      exact .plain (hplain c hc) .nil
    · exact hbytes _

/-- Characters of one byte come out of a body as they went in. -/
theorem byteText_utf8Encode {s : String} (h : ∀ c ∈ s.toList, c.toNat < 0x80) :
    Multipart.byteText (utf8Encode s) = s := by
  have hchars : ∀ cs : List Char, (∀ c ∈ cs, c.toNat < 0x80) →
      (cs.flatMap String.utf8EncodeChar).map (fun b ↦ Char.ofNat b.toNat) = cs := by
    intro cs hcs
    induction cs with
    | nil => rfl
    | cons c rest ih =>
      obtain ⟨hc, hrest⟩ := List.forall_mem_cons.1 hcs
      rw [List.flatMap_cons, List.map_append, ih hrest, utf8EncodeChar_of_lt hc, List.map_singleton,
        byte_toNat (by omega), Char.ofNat_toNat, List.singleton_append]
  rw [Multipart.byteText, utf8Encode, hchars _ h, String.ofList_toList]

end Text

end MarkupBinding
