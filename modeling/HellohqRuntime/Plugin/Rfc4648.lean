import HellohqRuntime.Plugin.Base64

/-!
# The bridge encoding and the standard

The base64 of RFC 4648 cuts the bits of the bytes into groups of six and pads the
text to a multiple of four.  The chunk loop of the encoder computes it, and the
decoder accepts exactly the texts that some choice of padding and white space makes
of whole groups.
-/

namespace HellohqRuntime.Plugin.Rfc4648

open HellohqRuntime.Foundation.Strings
open HellohqRuntime.Foundation.Utf8
open HellohqRuntime.Plugin.Base64

/-! ## The standard -/

/-- The bits of a byte, the most significant first. -/
def octetBits (byte : UInt8) : List Bool :=
  [7, 6, 5, 4, 3, 2, 1, 0].map fun i => byte.toBitVec.getLsbD i

/-- The number that bits are the binary digits of. -/
def bitsValue (bits : List Bool) : Nat := bits.foldl (fun value bit => 2 * value + bit.toNat) 0

/-- The values of the groups of six bits; a last group that is short is filled with zeros. -/
def sextets : List Bool → List Nat
  | a :: b :: c :: d :: e :: f :: rest => bitsValue [a, b, c, d, e, f] :: sextets rest
  | [] => []
  | few => [bitsValue (few ++ List.replicate (6 - few.length) false)]

/-- The alphabet of the standard. -/
def standardSymbol (value : Nat) : Char :=
  if value < 26 then Char.ofNat ('A'.toNat + value)
  else if value < 52 then Char.ofNat ('a'.toNat + (value - 26))
  else if value < 62 then Char.ofNat ('0'.toNat + (value - 52))
  else if value = 62 then '+'
  else '/'

/-- Fill a text up to a multiple of four characters. -/
def pad (text : Text) : Text := text ++ List.replicate ((4 - text.length % 4) % 4) '='

def standardEncode (bytes : Bytes) : Text :=
  pad ((sextets (bytes.flatMap octetBits)).map standardSymbol)

/-! ## The encoder -/

theorem symbol_eq {index : UInt8} (hindex : index.toNat < 64) :
    symbol index = standardSymbol index.toNat := by
  have hall : ∀ index : UInt8, index.toNat < 64 → symbol index = standardSymbol index.toNat :=
    forall_byte_lt (by decide +kernel)
  exact hall index hindex

/-- A value below 64 is its six low bits. -/
theorem toNat_eq_bitsValue {index : UInt8} (hindex : index.toNat < 64) :
    index.toNat = bitsValue ([5, 4, 3, 2, 1, 0].map fun i => index.toBitVec.getLsbD i) := by
  have hall : ∀ index : UInt8, index.toNat < 64 →
      index.toNat = bitsValue ([5, 4, 3, 2, 1, 0].map fun i => index.toBitVec.getLsbD i) :=
    forall_byte_lt (by decide)
  exact hall index hindex

theorem firstIndex_bits (b0 : UInt8) :
    bitsValue [b0.toBitVec.getLsbD 7, b0.toBitVec.getLsbD 6, b0.toBitVec.getLsbD 5,
      b0.toBitVec.getLsbD 4, b0.toBitVec.getLsbD 3, b0.toBitVec.getLsbD 2] = (b0 >>> 2).toNat := by
  rw [toNat_eq_bitsValue (firstIndex_lt b0)]
  simp

theorem secondIndex_bits (b0 b1 : UInt8) :
    bitsValue [b0.toBitVec.getLsbD 1, b0.toBitVec.getLsbD 0, b1.toBitVec.getLsbD 7,
      b1.toBitVec.getLsbD 6, b1.toBitVec.getLsbD 5, b1.toBitVec.getLsbD 4] =
      (((b0 &&& 0x03) <<< 4) ||| (b1 >>> 4)).toNat := by
  rw [toNat_eq_bitsValue (secondIndex_lt b0 b1)]
  simp

theorem thirdIndex_bits (b1 b2 : UInt8) :
    bitsValue [b1.toBitVec.getLsbD 3, b1.toBitVec.getLsbD 2, b1.toBitVec.getLsbD 1,
      b1.toBitVec.getLsbD 0, b2.toBitVec.getLsbD 7, b2.toBitVec.getLsbD 6] =
      (((b1 &&& 0x0F) <<< 2) ||| (b2 >>> 6)).toNat := by
  rw [toNat_eq_bitsValue (thirdIndex_lt b1 b2)]
  simp

theorem fourthIndex_bits (b2 : UInt8) :
    bitsValue [b2.toBitVec.getLsbD 5, b2.toBitVec.getLsbD 4, b2.toBitVec.getLsbD 3,
      b2.toBitVec.getLsbD 2, b2.toBitVec.getLsbD 1, b2.toBitVec.getLsbD 0] =
      (b2 &&& 0x3F).toNat := by
  rw [toNat_eq_bitsValue (fourthIndex_lt b2)]
  simp

/-- A group of three bytes gives four values. -/
theorem sextets_three (b0 b1 b2 : UInt8) (rest : List Bool) :
    sextets (octetBits b0 ++ (octetBits b1 ++ (octetBits b2 ++ rest))) =
      [(b0 >>> 2).toNat, (((b0 &&& 0x03) <<< 4) ||| (b1 >>> 4)).toNat,
        (((b1 &&& 0x0F) <<< 2) ||| (b2 >>> 6)).toNat, (b2 &&& 0x3F).toNat] ++ sextets rest := by
  rw [← firstIndex_bits, ← secondIndex_bits, ← thirdIndex_bits, ← fourthIndex_bits]
  rfl

theorem sextets_two (b0 b1 : UInt8) :
    sextets (octetBits b0 ++ octetBits b1) =
      [(b0 >>> 2).toNat, (((b0 &&& 0x03) <<< 4) ||| (b1 >>> 4)).toNat,
        (((b1 &&& 0x0F) <<< 2) ||| ((0 : UInt8) >>> 6)).toNat] := by
  rw [← firstIndex_bits, ← secondIndex_bits, ← thirdIndex_bits]
  rfl

theorem sextets_one (b0 : UInt8) :
    sextets (octetBits b0) =
      [(b0 >>> 2).toNat, (((b0 &&& 0x03) <<< 4) ||| ((0 : UInt8) >>> 4)).toNat] := by
  rw [← firstIndex_bits, ← secondIndex_bits]
  rfl

/-- Four characters in front do not change the padding. -/
theorem pad_append {front : Text} (hfront : front.length = 4) (text : Text) :
    pad (front ++ text) = front ++ pad text := by
  have hmod : (front ++ text).length % 4 = text.length % 4 := by
    rw [List.length_append, hfront]
    omega
  rw [pad, hmod, pad, List.append_assoc]

/-- The encoder computes the standard. -/
theorem b64Encode_eq (bytes : Bytes) : b64Encode bytes = standardEncode bytes := by
  induction bytes using b64Encode.induct with
  | case1 b0 b1 b2 rest ih =>
      rw [b64Encode, ih, standardEncode, standardEncode, List.flatMap_cons, List.flatMap_cons,
        List.flatMap_cons, sextets_three, List.map_append, pad_append rfl]
      congr 1
      simp only [List.map_cons, List.map_nil, ← symbol_eq (firstIndex_lt b0),
        ← symbol_eq (secondIndex_lt b0 b1), ← symbol_eq (thirdIndex_lt b1 b2),
        ← symbol_eq (fourthIndex_lt b2)]
      rfl
  | case2 b0 b1 =>
      rw [b64Encode, standardEncode, List.flatMap_cons, List.flatMap_cons, List.flatMap_nil,
        List.append_nil, sextets_two]
      simp only [List.map_cons, List.map_nil, ← symbol_eq (firstIndex_lt b0),
        ← symbol_eq (secondIndex_lt b0 b1), ← symbol_eq (thirdIndex_lt b1 0)]
      rfl
  | case3 b0 =>
      rw [b64Encode, standardEncode, List.flatMap_cons, List.flatMap_nil, List.append_nil,
        sextets_one]
      simp only [List.map_cons, List.map_nil, ← symbol_eq (firstIndex_lt b0),
        ← symbol_eq (secondIndex_lt b0 0)]
      rfl
  | case4 => rfl

example : standardEncode [0x66, 0x6F, 0x6F, 0x62] = "Zm9vYg==".toList := by decide

theorem length_encodeChunk (chunk : Bytes) : (encodeChunk chunk).length = 4 := rfl

theorem length_b64Encode (bytes : Bytes) :
    (b64Encode bytes).length = 4 * ((bytes.length + 2) / 3) := by
  induction bytes using b64Encode.induct with
  | case1 b0 b1 b2 rest ih =>
      rw [b64Encode, List.length_append, length_encodeChunk, ih]
      simp only [List.length_cons]
      omega
  | case2 b0 b1 => rw [b64Encode, length_encodeChunk, List.length_cons, List.length_singleton]
  | case3 b0 => rw [b64Encode, length_encodeChunk, List.length_singleton]
  | case4 => rfl

/-! ## What the decoder reads of a text -/

/-- Neither padding nor ASCII white space: space, tab, line feed, form feed or
carriage return. -/
def carries (c : Char) : Bool :=
  c != '=' && !(c == ' ' || c == '\t' || c == '\n' || c == '\x0C' || c == '\r')

/-- What the decoder makes of the ASCII characters. -/
theorem ascii_spec {c : Char} (hascii : c.toNat < 0x80) :
    isSymbol (UInt8.ofNat c.toNat) = carries c ∧
      ((val (UInt8.ofNat c.toNat)).isSome = true → ∃ value < 64, c = standardSymbol value) := by
  have hall : ∀ c : Char, c.toNat < 0x80 → isSymbol (UInt8.ofNat c.toNat) = carries c ∧
      ((val (UInt8.ofNat c.toNat)).isSome = true → ∃ value < 64, c = standardSymbol value) :=
    forall_ascii (by decide +kernel)
  exact hall c hascii

theorem isSymbol_of_not_ascii {byte : UInt8} (hhigh : 0x80 ≤ byte.toNat) : isSymbol byte = true := by
  have hne : ∀ code : UInt8, code.toNat < 0x80 → byte ≠ code := by
    rintro code hcode rfl
    omega
  simp [isSymbol, isAsciiWhitespace, hne]

theorem carries_of_not_ascii {c : Char} (hhigh : 0x80 ≤ c.toNat) : carries c = true := by
  have hne : ∀ code : Char, code.toNat < 0x80 → c ≠ code := by
    rintro code hcode rfl
    omega
  simp [carries, hne]

/-- The decoder filters bytes, which filters characters. -/
theorem symbols_eq (text : Text) : symbols text = asBytes (text.filter carries) := by
  induction text with
  | nil => rfl
  | cons c rest ih =>
      have hcons : symbols (c :: rest) = (String.utf8EncodeChar c).filter isSymbol ++ symbols rest := by
        rw [symbols, symbols, asBytes, asBytes, List.flatMap_cons, List.filter_append]
      rw [hcons, ih]
      rcases Nat.lt_or_ge c.toNat 0x80 with hlow | hhigh
      · have hsymbol := (ascii_spec hlow).1
        rw [utf8EncodeChar_ascii hlow]
        cases hcarries : carries c with
        | true =>
            rw [hcarries] at hsymbol
            rw [List.filter_cons_of_pos hcarries, asBytes_cons_ascii hlow,
              List.filter_cons_of_pos hsymbol]
            rfl
        | false =>
            rw [hcarries] at hsymbol
            rw [List.filter_cons_of_neg (Bool.not_eq_true _ ▸ hsymbol),
              List.filter_cons_of_neg (Bool.not_eq_true _ ▸ hcarries)]
            rfl
      · have hkept : (String.utf8EncodeChar c).filter isSymbol = String.utf8EncodeChar c := by
          rw [List.filter_eq_self]
          intro byte hbyte
          exact isSymbol_of_not_ascii (not_ascii_of_mem_utf8EncodeChar hhigh hbyte)
        rw [hkept, List.filter_cons_of_pos (carries_of_not_ascii hhigh)]
        rfl

/-- Padding and white space do not matter, wherever they stand. -/
theorem b64Decode_of_filter_eq {bytes : Bytes} {text : Text}
    (hsame : text.filter carries = (b64Encode bytes).filter carries) :
    b64Decode text = some bytes := by
  have hsymbols : symbols text = symbols (b64Encode bytes) := by
    rw [symbols_eq, symbols_eq, hsame]
  rw [← b64Decode_b64Encode bytes]
  exact congrArg decodeSymbols hsymbols

/-! ## What the decoder accepts -/

/-- Every byte is a symbol of the alphabet. -/
def Valid (bytes : Bytes) : Prop := ∀ c ∈ bytes, (val c).isSome = true

theorem valid_cons {c : UInt8} {rest : Bytes} :
    Valid (c :: rest) ↔ (∃ value, val c = some value) ∧ Valid rest := by
  rw [Valid, List.forall_mem_cons, Option.isSome_iff_exists]
  exact Iff.rfl

theorem valid_nil : Valid [] := fun _ hc => by cases hc

/-- A chunk that decodes has two to four symbols, and gives a byte less. -/
theorem decodeChunk_some {chunk out : Bytes} (hshort : chunk.length ≤ 4)
    (hdecode : decodeChunk chunk = some out) :
    Valid chunk ∧ chunk.length = out.length + 1 ∧ 0 < out.length := by
  match chunk with
  | [] => cases hdecode
  | [_] => cases hdecode
  | [c0, c1] =>
      simp only [decodeChunk, Option.bind_eq_bind, Option.bind_eq_some_iff, Option.some.injEq]
        at hdecode
      obtain ⟨v0, h0, v1, h1, rfl⟩ := hdecode
      exact ⟨valid_cons.mpr ⟨⟨v0, h0⟩, valid_cons.mpr ⟨⟨v1, h1⟩, valid_nil⟩⟩, rfl, Nat.one_pos⟩
  | [c0, c1, c2] =>
      simp only [decodeChunk, Option.bind_eq_bind, Option.bind_eq_some_iff, Option.some.injEq]
        at hdecode
      obtain ⟨v0, h0, v1, h1, v2, h2, rfl⟩ := hdecode
      exact ⟨valid_cons.mpr ⟨⟨v0, h0⟩, valid_cons.mpr ⟨⟨v1, h1⟩,
        valid_cons.mpr ⟨⟨v2, h2⟩, valid_nil⟩⟩⟩, rfl, Nat.two_pos⟩
  | [c0, c1, c2, c3] =>
      simp only [decodeChunk, Option.bind_eq_bind, Option.bind_eq_some_iff, Option.some.injEq]
        at hdecode
      obtain ⟨v0, h0, v1, h1, v2, h2, v3, h3, rfl⟩ := hdecode
      exact ⟨valid_cons.mpr ⟨⟨v0, h0⟩, valid_cons.mpr ⟨⟨v1, h1⟩,
        valid_cons.mpr ⟨⟨v2, h2⟩, valid_cons.mpr ⟨⟨v3, h3⟩, valid_nil⟩⟩⟩⟩, rfl, Nat.succ_pos 2⟩
  | c0 :: c1 :: c2 :: c3 :: c4 :: rest =>
      simp only [List.length_cons] at hshort
      omega

/-- Two or more symbols of the alphabet are a chunk that decodes. -/
theorem exists_decodeChunk {c0 c1 : UInt8} {rest : Bytes} (hvalid : Valid (c0 :: c1 :: rest)) :
    ∃ out, decodeChunk (c0 :: c1 :: rest) = some out := by
  obtain ⟨⟨v0, h0⟩, hvalid⟩ := valid_cons.mp hvalid
  obtain ⟨⟨v1, h1⟩, hvalid⟩ := valid_cons.mp hvalid
  simp only [decodeChunk, h0, h1, Option.bind_eq_bind, Option.bind_some]
  cases rest with
  | nil => exact ⟨_, rfl⟩
  | cons c2 rest =>
      obtain ⟨⟨v2, h2⟩, hvalid⟩ := valid_cons.mp hvalid
      simp only [h2, Option.bind_some]
      cases rest with
      | nil => exact ⟨_, rfl⟩
      | cons c3 rest =>
          obtain ⟨⟨v3, h3⟩, -⟩ := valid_cons.mp hvalid
          simp only [h3, Option.bind_some]
          exact ⟨_, rfl⟩

/-- What decodes is symbols of the alphabet, and never one symbol beyond whole chunks. -/
theorem decodeSymbols_some {bytes out : Bytes} (hdecode : decodeSymbols bytes = some out) :
    Valid bytes ∧ bytes.length % 4 ≠ 1 ∧ out.length = 6 * bytes.length / 8 := by
  induction bytes using decodeSymbols.induct generalizing out with
  | case1 c0 c1 c2 c3 rest ih =>
      simp only [decodeSymbols, Option.bind_eq_bind, Option.bind_eq_some_iff, Option.some.injEq]
        at hdecode
      obtain ⟨front, hfront, tail, htail, rfl⟩ := hdecode
      have hfour : [c0, c1, c2, c3].length ≤ 4 := Nat.le_refl 4
      obtain ⟨hvalidFront, hlengthFront, -⟩ := decodeChunk_some hfour hfront
      obtain ⟨hvalid, hwhole, hlength⟩ := ih htail
      refine ⟨?_, ?_, ?_⟩
      · intro c hc
        obtain hc | hc := List.mem_append.mp (show c ∈ [c0, c1, c2, c3] ++ rest from hc)
        · exact hvalidFront c hc
        · exact hvalid c hc
      · simp only [List.length_cons]
        omega
      · simp only [List.length_append, List.length_cons, List.length_nil] at hlengthFront ⊢
        omega
  | case2 =>
      obtain rfl : [] = out := by simpa [decodeSymbols] using hdecode
      exact ⟨valid_nil, by decide, rfl⟩
  | case3 chunk hnot hne =>
      have hshort : chunk.length < 4 := by
        rcases chunk with _ | ⟨c0, _ | ⟨c1, _ | ⟨c2, _ | ⟨c3, rest⟩⟩⟩⟩
        · simp
        · simp
        · simp
        · simp
        · exact (hnot c0 c1 c2 c3 rest rfl).elim
      rw [decodeSymbols] at hdecode
      · obtain ⟨hvalid, hlength, hsome⟩ := decodeChunk_some (by omega) hdecode
        refine ⟨hvalid, ?_, ?_⟩ <;> omega
      · exact hnot
      · exact hne

theorem exists_decodeSymbols {bytes : Bytes} (hvalid : Valid bytes) (hwhole : bytes.length % 4 ≠ 1) :
    ∃ out, decodeSymbols bytes = some out := by
  induction bytes using decodeSymbols.induct with
  | case1 c0 c1 c2 c3 rest ih =>
      have hfour : Valid [c0, c1, c2, c3] := fun c hc => hvalid c (List.mem_append_left rest hc)
      have hrest : Valid rest := fun c hc => hvalid c (by simp [hc])
      have hwholeRest : rest.length % 4 ≠ 1 := by
        simp only [List.length_cons] at hwhole
        omega
      obtain ⟨front, hfront⟩ := exists_decodeChunk hfour
      obtain ⟨tail, htail⟩ := ih hrest hwholeRest
      exact ⟨front ++ tail, by simp [decodeSymbols, hfront, htail]⟩
  | case2 => exact ⟨[], rfl⟩
  | case3 chunk hnot hne =>
      rw [decodeSymbols]
      · rcases chunk with _ | ⟨c0, _ | ⟨c1, rest⟩⟩
        · exact (hne rfl).elim
        · exact (hwhole rfl).elim
        · exact exists_decodeChunk hvalid
      · exact hnot
      · exact hne

/-- A character of the alphabet: the standard symbol of some value. -/
def InAlphabet (c : Char) : Prop := ∃ value < 64, c = standardSymbol value

theorem standardSymbol_ascii {value : Nat} (hvalue : value < 64) :
    (standardSymbol value).toNat < 0x80 ∧
      (val (UInt8.ofNat (standardSymbol value).toNat)).isSome = true := by
  have hindex : (UInt8.ofNat value).toNat = value :=
    UInt8.toNat_ofNat_of_lt (Nat.lt_trans hvalue (by decide))
  have hlt : (UInt8.ofNat value).toNat < 64 := by rwa [hindex]
  obtain ⟨hascii, -, hval⟩ := symbolByte_spec hlt
  have hsymbol := symbol_eq hlt
  rw [hindex] at hsymbol
  rw [← hsymbol, toNat_symbol hlt, UInt8.ofNat_toNat, hval]
  exact ⟨hascii, rfl⟩

theorem val_ascii {byte : UInt8} (hvalue : (val byte).isSome = true) : byte.toNat < 0x80 := by
  unfold val at hvalue
  simp only [UInt8.le_iff_toNat_le, UInt8.reduceToNat, ← UInt8.toNat_inj] at hvalue
  split_ifs at hvalue
  all_goals first | omega | cases hvalue

/-- The decoder's table is the alphabet. -/
theorem inAlphabet_iff {c : Char} (hascii : c.toNat < 0x80) :
    InAlphabet c ↔ (val (UInt8.ofNat c.toNat)).isSome = true := by
  constructor
  · rintro ⟨value, hvalue, rfl⟩
    exact (standardSymbol_ascii hvalue).2
  · exact (ascii_spec hascii).2

/-- Bytes of the alphabet are those of characters of the alphabet. -/
theorem valid_asBytes {text : Text} : Valid (asBytes text) ↔ ∀ c ∈ text, InAlphabet c := by
  have hall : Valid (asBytes text) ↔
      (asBytes text).all (fun byte => (val byte).isSome) = true := by
    rw [List.all_eq_true, Valid]
  rw [hall, all_asBytes_iff fun byte => val_ascii]
  refine forall₂_congr fun c _ => ?_
  constructor
  · rintro ⟨hascii, hvalue⟩
    exact (inAlphabet_iff hascii).mpr hvalue
  · intro halphabet
    obtain ⟨value, hvalue, rfl⟩ := halphabet
    exact standardSymbol_ascii hvalue

theorem length_asBytes_alphabet {text : Text} (halphabet : ∀ c ∈ text, InAlphabet c) :
    (asBytes text).length = text.length := by
  apply length_asBytes_ascii
  intro c hc
  obtain ⟨value, hvalue, rfl⟩ := halphabet c hc
  exact (standardSymbol_ascii hvalue).1

/-- The decoder refuses exactly a character outside the alphabet and a lone symbol. -/
theorem b64Decode_eq_none {text : Text} :
    b64Decode text = none ↔
      (∃ c ∈ text.filter carries, ¬InAlphabet c) ∨ (text.filter carries).length % 4 = 1 := by
  have hread : b64Decode text = decodeSymbols (asBytes (text.filter carries)) :=
    congrArg decodeSymbols (symbols_eq text)
  rw [hread]
  constructor
  · intro hnone
    by_contra hnot
    push Not at hnot
    obtain ⟨halphabet, hwhole⟩ := hnot
    rw [← length_asBytes_alphabet halphabet] at hwhole
    obtain ⟨out, hout⟩ := exists_decodeSymbols (valid_asBytes.mpr halphabet) hwhole
    rw [hnone] at hout
    cases hout
  · intro hbad
    cases hout : decodeSymbols (asBytes (text.filter carries)) with
    | none => rfl
    | some out =>
        exfalso
        obtain ⟨hvalid, hwhole, -⟩ := decodeSymbols_some hout
        have halphabet := valid_asBytes.mp hvalid
        obtain ⟨c, hc, houtside⟩ | hlone := hbad
        · exact houtside (halphabet c hc)
        · rw [length_asBytes_alphabet halphabet] at hwhole
          exact hwhole hlone

theorem length_of_b64Decode {text : Text} {out : Bytes} (hdecode : b64Decode text = some out) :
    out.length = 6 * (text.filter carries).length / 8 := by
  have hread : b64Decode text = decodeSymbols (asBytes (text.filter carries)) :=
    congrArg decodeSymbols (symbols_eq text)
  rw [hread] at hdecode
  obtain ⟨hvalid, -, hlength⟩ := decodeSymbols_some hdecode
  rwa [length_asBytes_alphabet (valid_asBytes.mp hvalid)] at hlength

/-- The bridge is the padded base64 of the standard, read back through any padding and
white space, and refused exactly where no bytes can be meant. -/
theorem base64_bridge :
    (∀ bytes : Bytes, b64Encode bytes = standardEncode bytes ∧
      (b64Encode bytes).length = 4 * ((bytes.length + 2) / 3) ∧
      ∀ text : Text, text.filter carries = (b64Encode bytes).filter carries →
        b64Decode text = some bytes) ∧
    ∀ text : Text,
      (b64Decode text = none ↔
        (∃ c ∈ text.filter carries, ¬InAlphabet c) ∨ (text.filter carries).length % 4 = 1) ∧
      ∀ out, b64Decode text = some out →
        out.length = 6 * (text.filter carries).length / 8 := by
  constructor
  · intro bytes
    exact ⟨b64Encode_eq bytes, length_b64Encode bytes, fun text => b64Decode_of_filter_eq⟩
  · intro text
    exact ⟨b64Decode_eq_none, fun out => length_of_b64Decode⟩

end HellohqRuntime.Plugin.Rfc4648
