import MarkupBinding.Proofs.Text.Utf8
import MarkupBinding.Storage.Location

/-!
# Names of files as texts

A name is some text exactly when its bytes are those of that text (`FileName.text?_eq_some_iff`),
and such a name is shown as the text (`FileName.shown_ofText`). The spelling loses no byte, as no
character has the number of a surrogate: the bytes are read back from it number by number
(`FileName.flatMap_spelled`). So names with one spelling are one name, and names are in a total
order, whether they are texts or not (`FileName.le_total`, `FileName.le_antisymm`).
-/

set_option autoImplicit false
set_option relaxedAutoImplicit false

namespace MarkupBinding

namespace FileName

theorem text?_ofText (s : String) : (ofText s).text? = some s := by
  rw [text?, ofText, Text.utf8Decode_utf8Encode]
  rfl

/-- A name that is a text is the name of this text only. -/
theorem text?_eq_some_iff {name : FileName} {s : String} :
    name.text? = some s ↔ name = ofText s := by
  constructor
  · intro h
    unfold text? at h
    cases hread : Text.utf8Decode name.bytes with
    | error e => rw [hread] at h; cases h
    | ok text =>
      rw [hread] at h
      obtain rfl := Option.some.inj h
      rw [ofText, Text.utf8Encode_of_utf8Decode hread]
  · rintro rfl
    exact text?_ofText s

theorem ofText_injective {s s' : String} (h : ofText s = ofText s') : s = s' :=
  Option.some.inj ((text?_ofText s).symm.trans ((congrArg text? h).trans (text?_ofText s')))

@[simp] theorem ofText_inj {s s' : String} : ofText s = ofText s' ↔ s = s' :=
  ⟨ofText_injective, congrArg ofText⟩

@[simp] theorem shown_ofText (s : String) : (ofText s).shown = s :=
  Text.utf8Mend_utf8Encode s

/-- Names that are all texts are the names of these texts. -/
theorem mapM_text?_eq_some_iff {names : List FileName} {texts : List String} :
    names.mapM text? = some texts ↔ names = texts.map ofText := by
  induction names generalizing texts with
  | nil => cases texts <;> simp
  | cons name rest ih =>
    rw [List.mapM_cons]
    cases texts with
    | nil => simp [Option.bind_eq_some_iff]
    | cons text texts =>
      rw [List.map_cons, List.cons.injEq, ← text?_eq_some_iff, ← ih]
      simp [Option.bind_eq_some_iff]

/-- Only the null character has a null byte. -/
theorem zero_mem_utf8EncodeChar_iff {c : Char} : 0 ∈ String.utf8EncodeChar c ↔ c = '\x00' := by
  have hbyte : ∀ n < 256, 0 = UInt8.ofNat n ↔ n = 0 := by
    intro n hn
    rw [← UInt8.toNat_inj, Text.byte_toNat hn, eq_comm]
    rfl
  have hnull : c = '\x00' ↔ c.toNat = 0 :=
    ⟨fun h ↦ h ▸ rfl, fun h ↦ Char.toNat_inj.1 (h.trans rfl)⟩
  rw [hnull, Text.utf8EncodeChar_eq]
  split
  · rw [List.mem_singleton, hbyte _ (by omega)]
  split
  · simp (disch := omega) only [List.mem_cons, List.not_mem_nil, or_false, hbyte]
    omega
  split
  · simp (disch := omega) only [List.mem_cons, List.not_mem_nil, or_false, hbyte]
    omega
  · simp (disch := omega) only [List.mem_cons, List.not_mem_nil, or_false, hbyte]
    omega

theorem zero_mem_ofText_iff {s : String} : 0 ∈ (ofText s).bytes ↔ '\x00' ∈ s.toList := by
  rw [ofText, Text.utf8Encode, List.mem_flatMap]
  simp only [zero_mem_utf8EncodeChar_iff, exists_eq_right]

/-! ### Spellings -/

/-- The bytes that a number of a spelling stands for. -/
def spelled (n : Nat) : List UInt8 :=
  if 0xDC00 ≤ n ∧ n < 0xDD00 then [UInt8.ofNat (n - 0xDC00)]
  else String.utf8EncodeChar (Char.ofNat n)

theorem spelled_char (c : Char) : spelled c.toNat = String.utf8EncodeChar c := by
  have hvalid : c.toNat < 0xD800 ∨ 0xDFFF < c.toNat ∧ c.toNat < 0x110000 := c.valid
  rw [spelled, if_neg (by omega), Char.ofNat_toNat]

theorem spelled_byte (b : UInt8) : spelled (0xDC00 + b.toNat) = [b] := by
  have hbyte := b.toNat_lt
  rw [spelled, if_pos (by omega), Nat.add_sub_cancel_left, UInt8.ofNat_toNat]

/-- The bytes of a name, read from its spelling. -/
theorem flatMap_spelled (name : FileName) : name.spelling.flatMap spelled = name.bytes := by
  have hpiece : ∀ pieces : List Text.Piece, (pieces.flatMap spell).flatMap spelled =
      pieces.flatMap Text.Piece.bytes := by
    intro pieces
    rw [List.flatMap_assoc]
    refine congrArg pieces.flatMap (funext fun piece ↦ ?_)
    cases piece with
    | char c => simp [spell, spelled_char, Text.Piece.bytes]
    | fault e => simp [spell, List.flatMap_map, spelled_byte, Text.Piece.bytes]
  rw [spelling, hpiece, Text.flatMap_bytes_piecesFrom]

/-- A name has a spelling of its own. -/
theorem spelling_injective {a b : FileName} (h : a.spelling = b.spelling) : a = b := by
  have hbytes : a.bytes = b.bytes := by
    rw [← flatMap_spelled, ← flatMap_spelled, h]
  cases a
  cases b
  exact congrArg mk hbytes

theorem le_total (a b : FileName) : a ≤ b ∨ b ≤ a :=
  List.le_total a.spelling b.spelling

theorem le_trans {a b c : FileName} (hab : a ≤ b) (hbc : b ≤ c) : a ≤ c :=
  List.le_trans hab hbc

theorem le_antisymm {a b : FileName} (hab : a ≤ b) (hba : b ≤ a) : a = b :=
  spelling_injective (List.le_antisymm hab hba)

theorem not_le {a b : FileName} : ¬ a ≤ b ↔ b < a :=
  List.not_le

end FileName

namespace Location

/-- A part that is the name of an entry: it leads on, and not to the folder above. -/
def IsEntryName (part : FileName) : Prop :=
  leadsOn part = true ∧ part ≠ above

instance (part : FileName) : Decidable (IsEntryName part) :=
  inferInstanceAs (Decidable (_ ∧ _))

theorem leadsOn_eq_false_iff {part : FileName} : leadsOn part = false ↔ part = "" ∨ part = "." := by
  rw [leadsOn, Bool.not_eq_false', Bool.or_eq_true, beq_iff_eq, beq_iff_eq]

theorem isEntryName_ofText_iff {s : String} :
    IsEntryName s ↔ s ≠ "" ∧ s ≠ "." ∧ s ≠ ".." := by
  rw [IsEntryName, ← Bool.not_eq_false, leadsOn_eq_false_iff, above, ne_eq, FileName.ofText_inj,
    FileName.ofText_inj, FileName.ofText_inj, not_or, and_assoc]

theorem child_of_leadsOn {name : FileName} (h : leadsOn name = true) (l : Location) :
    l.child name = { l with parts := l.parts ++ [name] } := by
  rw [child, List.filter_cons_of_pos h, List.filter_nil]

/-- A name that does not lead on is that of the folder itself. -/
theorem child_of_not_leadsOn {name : FileName} (h : leadsOn name = false) (l : Location) :
    l.child name = l := by
  rw [child, List.filter_cons_of_neg (Bool.not_eq_true _ ▸ h), List.filter_nil, List.append_nil]

end Location

end MarkupBinding
