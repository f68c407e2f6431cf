import MarkupBinding.Text.Percent

/-!
# Text through bytes and back

Reading the bytes of a text gives the text again. One character is read at the front of any bytes
(`piecesFrom_encoded`): its first byte says how many follow, and the bounds that rule out overlong
forms, surrogates and numbers beyond the last character let the bytes of every character pass. The
whole text is then an induction over its characters, and neither the strict nor the mending reader
meets a fault. A text without percent signs is read the same with its escapes decoded.

The other way round, whatever bytes are read, the pieces are made of all of them in order
(`flatMap_bytes_piecesFrom`). What carries this through the bytes is what a character begun can be
(`Begun.Reached`): its bits and bounds are those that its first bytes say, so the last byte gives
the character that is written as these bytes (`Begun.Reached.last`). Only the bytes of a text are
read as that text (`utf8Encode_of_utf8Decode`).
-/

set_option autoImplicit false
set_option relaxedAutoImplicit false

namespace MarkupBinding.Text

/-- A number below 256 is the number of its byte. -/
theorem byte_toNat {n : Nat} (h : n < 256) : (UInt8.ofNat n).toNat = n :=
  UInt8.toNat_ofNat_of_lt' h

/-- A byte that stands for a character by itself. -/
theorem piecesFrom_single {place n : Nat} (rest : List UInt8) (h : n < 0x80) :
    piecesFrom none place (UInt8.ofNat n :: rest) =
      .char (Char.ofNat n) :: piecesFrom none (place + 1) rest := by
  rw [piecesFrom, readByte, beginChar]
  simp only [byte_toNat (show n < 256 by omega), h, if_true, List.singleton_append]

/-- The first byte of a character of several bytes. -/
theorem piecesFrom_lead {place n following low high : Nat} (rest : List UInt8)
    (hlarge : 0x80 ≤ n) (hn : n < 256) (hlead : leadByte n = some (following, low, high)) :
    piecesFrom none place (UInt8.ofNat n :: rest) =
      piecesFrom (some ⟨place, [UInt8.ofNat n], leadBits following n, following, low, high⟩)
        (place + 1) rest := by
  rw [piecesFrom, readByte, beginChar]
  simp only [byte_toNat hn, Nat.not_lt.2 hlarge, if_false, hlead, List.nil_append]

/-- A byte that goes on with a character and leaves more to come. -/
theorem piecesFrom_middle {start place bits missing low high n : Nat} {seen : List UInt8}
    (rest : List UInt8) (hlow : low ≤ n) (hhigh : n ≤ high) (hn : n < 256)
    (hmissing : 1 < missing) :
    piecesFrom (some ⟨start, seen, bits, missing, low, high⟩) place (UInt8.ofNat n :: rest) =
      piecesFrom
        (some ⟨start, seen ++ [UInt8.ofNat n], bits * 64 + n % 64, missing - 1, 0x80, 0xBF⟩)
        (place + 1) rest := by
  rw [piecesFrom, readByte]
  simp only [byte_toNat hn, hlow, hhigh, and_self, if_true, Nat.not_le.2 hmissing, if_false,
    List.nil_append]

/-- The last byte of a character. -/
theorem piecesFrom_last {start place bits low high n : Nat} {seen : List UInt8}
    (rest : List UInt8) (hlow : low ≤ n) (hhigh : n ≤ high) (hn : n < 256) :
    piecesFrom (some ⟨start, seen, bits, 1, low, high⟩) place (UInt8.ofNat n :: rest) =
      .char (Char.ofNat (bits * 64 + n % 64)) :: piecesFrom none (place + 1) rest := by
  rw [piecesFrom, readByte]
  simp only [byte_toNat hn, hlow, hhigh, and_self, if_true, Nat.le_refl, List.singleton_append]

/-! ### Characters of several bytes -/

theorem piecesFrom_two {place n : Nat} (rest : List UInt8) (hlow : 0x7F < n) (hhigh : n ≤ 0x7FF) :
    piecesFrom none place
        (UInt8.ofNat (n / 64 % 32 + 0xC0) :: UInt8.ofNat (n % 64 + 0x80) :: rest) =
      .char (Char.ofNat n) :: piecesFrom none (place + 2) rest := by
  have hlead : leadByte (n / 64 % 32 + 0xC0) = some (1, 0x80, 0xBF) := by
    rw [leadByte, if_neg (by omega), if_pos (by omega)]
  have hbits : (n / 64 % 32 + 0xC0) % 32 * 64 + (n % 64 + 0x80) % 64 = n := by omega
  rw [piecesFrom_lead _ (by omega) (by omega) hlead,
    piecesFrom_last _ (by omega) (by omega) (by omega), leadBits,
    show Nat.pow 2 (6 - 1) = 32 from rfl, hbits]

-- The second byte has bounds of its own behind some first bytes: they rule out overlong forms and
-- surrogates, which `hlow` and `hvalid` exclude.
theorem piecesFrom_three {place n : Nat} (rest : List UInt8) (hlow : 0x7FF < n)
    (hvalid : n < 0xD800 ∨ 0xDFFF < n) (hhigh : n ≤ 0xFFFF) :
    piecesFrom none place
        (UInt8.ofNat (n / 4096 % 16 + 0xE0) :: UInt8.ofNat (n / 64 % 64 + 0x80) ::
          UInt8.ofNat (n % 64 + 0x80) :: rest) =
      .char (Char.ofNat n) :: piecesFrom none (place + 3) rest := by
  obtain ⟨low, high, hlead, hsecondLow, hsecondHigh⟩ : ∃ low high,
      leadByte (n / 4096 % 16 + 0xE0) = some (2, low, high) ∧
        low ≤ n / 64 % 64 + 0x80 ∧ n / 64 % 64 + 0x80 ≤ high := by
    refine ⟨_, _, by
      rw [leadByte, if_neg (by omega), if_neg (by omega), if_pos (by omega)], ?_, ?_⟩
    · split <;> omega
    · split <;> omega
  have hbits : ((n / 4096 % 16 + 0xE0) % 16 * 64 + (n / 64 % 64 + 0x80) % 64) * 64 +
      (n % 64 + 0x80) % 64 = n := by omega
  rw [piecesFrom_lead _ (by omega) (by omega) hlead,
    piecesFrom_middle _ hsecondLow hsecondHigh (by omega) (by omega),
    piecesFrom_last _ (by omega) (by omega) (by omega), leadBits,
    show Nat.pow 2 (6 - 2) = 16 from rfl, hbits]

-- Here the bounds of the second byte rule out overlong forms and numbers beyond the last character.
theorem piecesFrom_four {place n : Nat} (rest : List UInt8) (hlow : 0xFFFF < n)
    (hhigh : n < 0x110000) :
    piecesFrom none place
        (UInt8.ofNat (n / 262144 % 8 + 0xF0) :: UInt8.ofNat (n / 4096 % 64 + 0x80) ::
          UInt8.ofNat (n / 64 % 64 + 0x80) :: UInt8.ofNat (n % 64 + 0x80) :: rest) =
      .char (Char.ofNat n) :: piecesFrom none (place + 4) rest := by
  obtain ⟨low, high, hlead, hsecondLow, hsecondHigh⟩ : ∃ low high,
      leadByte (n / 262144 % 8 + 0xF0) = some (3, low, high) ∧
        low ≤ n / 4096 % 64 + 0x80 ∧ n / 4096 % 64 + 0x80 ≤ high := by
    refine ⟨_, _, by
      rw [leadByte, if_neg (by omega), if_neg (by omega), if_neg (by omega), if_pos (by omega)],
      ?_, ?_⟩
    · split <;> omega
    · split <;> omega
  have hbits : (((n / 262144 % 8 + 0xF0) % 8 * 64 + (n / 4096 % 64 + 0x80) % 64) * 64 +
      (n / 64 % 64 + 0x80) % 64) * 64 + (n % 64 + 0x80) % 64 = n := by omega
  rw [piecesFrom_lead _ (by omega) (by omega) hlead,
    piecesFrom_middle _ hsecondLow hsecondHigh (by omega) (by omega),
    piecesFrom_middle _ (by omega) (by omega) (by omega) (by omega),
    piecesFrom_last _ (by omega) (by omega) (by omega), leadBits,
    show Nat.pow 2 (6 - 3) = 8 from rfl, hbits]

/-! ### Whole texts -/

/-- The bytes of a character, by its number. -/
theorem utf8EncodeChar_eq (c : Char) :
    String.utf8EncodeChar c =
      if c.toNat ≤ 0x7F then [UInt8.ofNat c.toNat]
      else if c.toNat ≤ 0x7FF then
        [UInt8.ofNat (c.toNat / 64 % 32 + 0xC0), UInt8.ofNat (c.toNat % 64 + 0x80)]
      else if c.toNat ≤ 0xFFFF then
        [UInt8.ofNat (c.toNat / 4096 % 16 + 0xE0), UInt8.ofNat (c.toNat / 64 % 64 + 0x80),
          UInt8.ofNat (c.toNat % 64 + 0x80)]
      else
        [UInt8.ofNat (c.toNat / 262144 % 8 + 0xF0), UInt8.ofNat (c.toNat / 4096 % 64 + 0x80),
          UInt8.ofNat (c.toNat / 64 % 64 + 0x80), UInt8.ofNat (c.toNat % 64 + 0x80)] :=
  rfl

/-- The bytes of a character are read as that character, whatever follows. -/
theorem piecesFrom_encoded (c : Char) (place : Nat) (rest : List UInt8) :
    ∃ next, piecesFrom none place (String.utf8EncodeChar c ++ rest) =
      .char c :: piecesFrom none next rest := by
  have hvalid : c.toNat < 0xD800 ∨ 0xDFFF < c.toNat ∧ c.toNat < 0x110000 := c.valid
  have hchar : Char.ofNat c.toNat = c := Char.ofNat_toNat c
  rw [utf8EncodeChar_eq]
  by_cases h₁ : c.toNat ≤ 0x7F
  · rw [if_pos h₁, List.singleton_append, piecesFrom_single rest (by omega), hchar]
    exact ⟨_, rfl⟩
  by_cases h₂ : c.toNat ≤ 0x7FF
  · rw [if_neg h₁, if_pos h₂]
    exact ⟨_, (piecesFrom_two rest (by omega) h₂).trans (by rw [hchar])⟩
  by_cases h₃ : c.toNat ≤ 0xFFFF
  · rw [if_neg h₁, if_neg h₂, if_pos h₃]
    exact ⟨_, (piecesFrom_three rest (by omega) (by omega) h₃).trans (by rw [hchar])⟩
  · rw [if_neg h₁, if_neg h₂, if_neg h₃]
    exact ⟨_, (piecesFrom_four rest (by omega) (by omega)).trans (by rw [hchar])⟩

/-- The bytes of characters are read as these characters. -/
theorem piecesFrom_encode (cs : List Char) (place : Nat) :
    piecesFrom none place (cs.flatMap String.utf8EncodeChar) = cs.map .char := by
  induction cs generalizing place with
  | nil => rfl
  | cons c rest ih =>
    obtain ⟨next, hnext⟩ := piecesFrom_encoded c place (rest.flatMap String.utf8EncodeChar)
    rw [List.flatMap_cons, hnext, ih next, List.map_cons]

/-- Pieces without a fault are their characters. -/
theorem strictChars_map_char (cs : List Char) : strictChars (cs.map .char) = .ok cs := by
  induction cs with
  | nil => rfl
  | cons c rest ih => rw [List.map_cons, strictChars, ih]; rfl

/-- The bytes of a text are read as that text. -/
theorem utf8Decode_utf8Encode (s : String) : utf8Decode (utf8Encode s) = .ok s := by
  rw [utf8Decode, utf8Encode, piecesFrom_encode, strictChars_map_char]
  exact congrArg Except.ok String.ofList_toList

/-- Nothing in the bytes of a text has to be mended. -/
theorem utf8Mend_utf8Encode (s : String) : utf8Mend (utf8Encode s) = s := by
  rw [utf8Mend, utf8Encode, piecesFrom_encode, List.map_map]
  exact (congrArg String.ofList (List.map_id _)).trans String.ofList_toList

/-! ### Bytes back from what was read -/

/-- What a first byte says: the bounds are those of bytes that go on, and narrower where a form
would be overlong, a surrogate or beyond the last character. -/
theorem leadByte_eq_some {n following low high : Nat}
    (h : leadByte n = some (following, low, high)) :
    0x80 ≤ low ∧ high ≤ 0xBF ∧
      (following = 1 ∧ 0xC2 ≤ n ∧ n < 0xE0 ∨
        following = 2 ∧ 0xE0 ≤ n ∧ n < 0xF0 ∧ (n = 0xE0 → 0xA0 ≤ low) ∧ (n = 0xED → high ≤ 0x9F) ∨
        following = 3 ∧ 0xF0 ≤ n ∧ n < 0xF5 ∧ (n = 0xF0 → 0x90 ≤ low) ∧
          (n = 0xF4 → high ≤ 0x8F)) := by
  unfold leadByte at h
  split at h
  · cases h
  split at h
  · cases h
    omega
  split at h
  · cases h
    split <;> split <;> omega
  split at h
  · cases h
    split <;> split <;> omega
  · cases h

theorem toNat_charOfNat (n : Nat) : (Char.ofNat n).toNat = if n.isValidChar then n else 0 := by
  by_cases hvalid : n.isValidChar
  · rw [Char.ofNat, dif_pos hvalid, if_pos hvalid]
    rfl
  · rw [Char.ofNat, dif_neg hvalid, if_neg hvalid]
    rfl

theorem toNat_ofNat_of_isValidChar {n : Nat} (h : n.isValidChar) : (Char.ofNat n).toNat = n :=
  (toNat_charOfNat n).trans (if_pos h)

/-- A byte is the byte of its number. -/
theorem ofNat_eq_of_toNat {n : Nat} {b : UInt8} (h : n = b.toNat) : UInt8.ofNat n = b :=
  h ▸ UInt8.ofNat_toNat

theorem utf8EncodeChar_two {a b : UInt8} {low high : Nat}
    (ha : leadByte a.toNat = some (1, low, high)) (hlow : low ≤ b.toNat) (hhigh : b.toNat ≤ high) :
    String.utf8EncodeChar (Char.ofNat (leadBits 1 a.toNat * 64 + b.toNat % 64)) = [a, b] := by
  have hbits : leadBits 1 a.toNat = a.toNat % 32 := rfl
  have hlead := leadByte_eq_some ha
  generalize hv : leadBits 1 a.toNat * 64 + b.toNat % 64 = v
  have hvalid : v.isValidChar := .inl (by omega)
  rw [utf8EncodeChar_eq, toNat_ofNat_of_isValidChar hvalid, if_neg (by omega), if_pos (by omega),
    ofNat_eq_of_toNat (b := a) (by omega), ofNat_eq_of_toNat (b := b) (by omega)]

theorem utf8EncodeChar_three {a b c : UInt8} {low high : Nat}
    (ha : leadByte a.toNat = some (2, low, high)) (hlow : low ≤ b.toNat) (hhigh : b.toNat ≤ high)
    (hlow' : 0x80 ≤ c.toNat) (hhigh' : c.toNat ≤ 0xBF) :
    String.utf8EncodeChar (Char.ofNat
      ((leadBits 2 a.toNat * 64 + b.toNat % 64) * 64 + c.toNat % 64)) = [a, b, c] := by
  have hbits : leadBits 2 a.toNat = a.toNat % 16 := rfl
  have hlead := leadByte_eq_some ha
  generalize hv : (leadBits 2 a.toNat * 64 + b.toNat % 64) * 64 + c.toNat % 64 = v
  have hvalid : v.isValidChar := by
    unfold Nat.isValidChar
    omega
  rw [utf8EncodeChar_eq, toNat_ofNat_of_isValidChar hvalid, if_neg (by omega), if_neg (by omega),
    if_pos (by omega), ofNat_eq_of_toNat (b := a) (by omega), ofNat_eq_of_toNat (b := b) (by omega),
    ofNat_eq_of_toNat (b := c) (by omega)]

theorem utf8EncodeChar_four {a b c d : UInt8} {low high : Nat}
    (ha : leadByte a.toNat = some (3, low, high)) (hlow : low ≤ b.toNat) (hhigh : b.toNat ≤ high)
    (hlow' : 0x80 ≤ c.toNat) (hhigh' : c.toNat ≤ 0xBF) (hlow'' : 0x80 ≤ d.toNat)
    (hhigh'' : d.toNat ≤ 0xBF) :
    String.utf8EncodeChar (Char.ofNat (((leadBits 3 a.toNat * 64 + b.toNat % 64) * 64 +
      c.toNat % 64) * 64 + d.toNat % 64)) = [a, b, c, d] := by
  have hbits : leadBits 3 a.toNat = a.toNat % 8 := rfl
  have hlead := leadByte_eq_some ha
  generalize hv : ((leadBits 3 a.toNat * 64 + b.toNat % 64) * 64 + c.toNat % 64) * 64 +
    d.toNat % 64 = v
  have hvalid : v.isValidChar := by
    unfold Nat.isValidChar
    omega
  rw [utf8EncodeChar_eq, toNat_ofNat_of_isValidChar hvalid, if_neg (by omega), if_neg (by omega),
    if_neg (by omega), ofNat_eq_of_toNat (b := a) (by omega), ofNat_eq_of_toNat (b := b) (by omega),
    ofNat_eq_of_toNat (b := c) (by omega), ofNat_eq_of_toNat (b := d) (by omega)]

/-- The bytes that a piece was read from. -/
def Piece.bytes : Piece → List UInt8
  | .char c => String.utf8EncodeChar c
  | .fault e => e.bytes

/-- What a character begun can be: one, two or three bytes within their bounds, and the bits and
bounds that these say. -/
inductive Begun.Reached : Begun → Prop where
  | first {place following low high : Nat} {a : UInt8}
    (ha : leadByte a.toNat = some (following, low, high)) :
    Reached ⟨place, [a], leadBits following a.toNat, following, low, high⟩
  | second {place following low high : Nat} {a b : UInt8}
    (ha : leadByte a.toNat = some (following, low, high)) (hmore : 1 < following)
    (hlow : low ≤ b.toNat) (hhigh : b.toNat ≤ high) :
    Reached ⟨place, [a, b], leadBits following a.toNat * 64 + b.toNat % 64, following - 1,
      0x80, 0xBF⟩
  | third {place low high : Nat} {a b c : UInt8}
    (ha : leadByte a.toNat = some (3, low, high)) (hlow : low ≤ b.toNat) (hhigh : b.toNat ≤ high)
    (hlow' : 0x80 ≤ c.toNat) (hhigh' : c.toNat ≤ 0xBF) :
    Reached ⟨place, [a, b, c],
      (leadBits 3 a.toNat * 64 + b.toNat % 64) * 64 + c.toNat % 64, 1, 0x80, 0xBF⟩

/-- The last byte of a character gives the character of all its bytes. -/
theorem Begun.Reached.last {part : Begun} (h : part.Reached) {b : UInt8} (hlow : part.low ≤ b.toNat)
    (hhigh : b.toNat ≤ part.high) (hmissing : part.missing ≤ 1) :
    String.utf8EncodeChar (Char.ofNat (part.bits * 64 + b.toNat % 64)) = part.seen ++ [b] := by
  cases h with
  | first ha =>
    have hlead := leadByte_eq_some ha
    dsimp only at hmissing
    rcases hlead.2.2 with ⟨rfl, -⟩ | ⟨rfl, -⟩ | ⟨rfl, -⟩
    · exact utf8EncodeChar_two ha hlow hhigh
    · omega
    · omega
  | second ha hmore hlow' hhigh' =>
    have hlead := leadByte_eq_some ha
    dsimp only at hmissing
    rcases hlead.2.2 with ⟨rfl, -⟩ | ⟨rfl, -⟩ | ⟨rfl, -⟩
    · omega
    · exact utf8EncodeChar_three ha hlow' hhigh' hlow hhigh
    · omega
  | third ha hlow' hhigh' hlow'' hhigh'' =>
    exact utf8EncodeChar_four ha hlow' hhigh' hlow'' hhigh'' hlow hhigh

/-- A byte that goes on with a character and leaves more to come. -/
theorem Begun.Reached.middle {part : Begun} (h : part.Reached) {b : UInt8}
    (hlow : part.low ≤ b.toNat) (hhigh : b.toNat ≤ part.high) (hmissing : 1 < part.missing) :
    Reached ⟨part.place, part.seen ++ [b], part.bits * 64 + b.toNat % 64, part.missing - 1,
      0x80, 0xBF⟩ := by
  cases h with
  | first ha => exact .second ha hmissing hlow hhigh
  | second ha hmore hlow' hhigh' =>
    have hlead := leadByte_eq_some ha
    dsimp only at hmissing
    rcases hlead.2.2 with ⟨rfl, -⟩ | ⟨rfl, -⟩ | ⟨rfl, -⟩
    · omega
    · omega
    · exact .third ha hlow' hhigh' hlow hhigh
  | third => exact absurd hmissing (Nat.lt_irrefl 1)

/-- A byte at which a character may begin is in what was read, or begins a character. -/
theorem bytes_beginChar (place : Nat) (b : UInt8) :
    (beginChar place b).1.flatMap Piece.bytes ++ ((beginChar place b).2.elim [] (·.seen)) = [b] ∧
      ∀ part ∈ (beginChar place b).2, part.Reached := by
  unfold beginChar
  split
  · next hsmall =>
    have hvalid : b.toNat.isValidChar := .inl (by omega)
    refine ⟨?_, by simp⟩
    have hchar : String.utf8EncodeChar (Char.ofNat b.toNat) = [b] := by
      rw [utf8EncodeChar_eq, toNat_ofNat_of_isValidChar hvalid, if_pos (by omega),
        UInt8.ofNat_toNat]
    simp [Piece.bytes, hchar]
  · split
    · exact ⟨rfl, by simp⟩
    · next hlead =>
      refine ⟨rfl, fun part hpart ↦ ?_⟩
      obtain rfl := Option.some.inj hpart
      exact .first hlead

/-- Reading a byte loses none and makes up none. -/
theorem bytes_readByte {begun : Option Begun} (h : ∀ part ∈ begun, part.Reached) (place : Nat)
    (b : UInt8) :
    (readByte begun place b).1.flatMap Piece.bytes ++
        ((readByte begun place b).2.elim [] (·.seen)) = begun.elim [] (·.seen) ++ [b] ∧
      ∀ part ∈ (readByte begun place b).2, part.Reached := by
  unfold readByte
  split
  · exact bytes_beginChar place b
  next part =>
  have hpart : part.Reached := h part rfl
  split
  · next hbounds =>
    dsimp only
    split
    · next hlast =>
      refine ⟨?_, by simp⟩
      simp [Piece.bytes, hpart.last hbounds.1 hbounds.2 hlast]
    · next hmore =>
      refine ⟨rfl, fun next hnext ↦ ?_⟩
      obtain rfl := Option.some.inj hnext
      exact hpart.middle hbounds.1 hbounds.2 (Nat.not_le.1 hmore)
  · obtain ⟨hbytes, hreached⟩ := bytes_beginChar place b
    refine ⟨?_, hreached⟩
    dsimp only
    rw [List.flatMap_cons, List.append_assoc, hbytes]
    rfl

theorem bytes_piecesFrom {begun : Option Begun} (h : ∀ part ∈ begun, part.Reached) (place : Nat)
    (bytes : List UInt8) :
    (piecesFrom begun place bytes).flatMap Piece.bytes = begun.elim [] (·.seen) ++ bytes := by
  induction bytes generalizing begun place with
  | nil =>
    cases begun with
    | none => rfl
    | some part => simp [piecesFrom, Piece.bytes]
  | cons b rest ih =>
    obtain ⟨hbytes, hreached⟩ := bytes_readByte h place b
    rw [piecesFrom]
    dsimp only
    rw [List.flatMap_append, ih hreached, ← List.append_assoc, hbytes, List.append_assoc]
    rfl

/-- The pieces of a byte sequence are made of its bytes. -/
theorem flatMap_bytes_piecesFrom (place : Nat) (bytes : List UInt8) :
    (piecesFrom none place bytes).flatMap Piece.bytes = bytes :=
  bytes_piecesFrom (by simp) place bytes

/-- Pieces that are read without a fault are the characters of the text. -/
theorem eq_map_char_of_strictChars {pieces : List Piece} {cs : List Char}
    (h : strictChars pieces = .ok cs) : pieces = cs.map .char := by
  induction pieces generalizing cs with
  | nil =>
    cases h
    rfl
  | cons piece rest ih =>
    cases piece with
    | fault e => cases h
    | char c =>
      unfold strictChars at h
      cases hrest : strictChars rest with
      | error e => rw [hrest] at h; cases h
      | ok more =>
        rw [hrest] at h
        obtain rfl := Except.ok.inj h
        rw [ih hrest, List.map_cons]

/-- Bytes that are read as a text are the bytes of that text. -/
theorem utf8Encode_of_utf8Decode {bytes : List UInt8} {s : String} (h : utf8Decode bytes = .ok s) :
    utf8Encode s = bytes := by
  unfold utf8Decode at h
  cases hchars : strictChars (piecesFrom none 0 bytes) with
  | error e => rw [hchars] at h; cases h
  | ok cs =>
    rw [hchars] at h
    obtain rfl := Except.ok.inj h
    have hbytes := flatMap_bytes_piecesFrom 0 bytes
    rw [eq_map_char_of_strictChars hchars, List.flatMap_map] at hbytes
    rw [utf8Encode, String.toList_ofList]
    exact hbytes

/-! ### Percent escapes -/

/-- Characters without a percent sign are written as they are. -/
theorem percentBytes_of_not_mem {cs : List Char} (h : '%' ∉ cs) :
    percentBytes cs = cs.flatMap String.utf8EncodeChar := by
  induction cs with
  | nil => rfl
  | cons c rest ih =>
    obtain ⟨hc, hrest⟩ := not_or.1 (mt List.mem_cons.2 h)
    rw [percentBytes, ih hrest, List.flatMap_cons]
    rintro a b tail rfl
    exact absurd rfl hc

/-- A text without a percent sign is its own decoding. -/
theorem percentDecode_of_not_mem {s : String} (h : '%' ∉ s.toList) : percentDecode s = s := by
  rw [percentDecode, percentBytes_of_not_mem h]
  exact utf8Mend_utf8Encode s

end MarkupBinding.Text
