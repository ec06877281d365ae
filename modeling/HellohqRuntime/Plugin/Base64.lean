import HellohqRuntime.Foundation.Utf8
import Mathlib.Tactic.IntervalCases

/-!
# Base64 of byte values

Bytes cross the bridge to the app as a base64 string with padding.  The decoder
skips padding and white space and reads what is left four symbols at a time.  It
reads back every byte string that was encoded.
-/

namespace HellohqRuntime.Plugin.Base64

open HellohqRuntime.Foundation.Strings
open HellohqRuntime.Foundation.Utf8

def ALPHABET : Bytes :=
  "ABCDEFGHIJKLMNOPQRSTUVWXYZabcdefghijklmnopqrstuvwxyz0123456789+/".toList.map fun c =>
    UInt8.ofNat c.toNat

/-- `ALPHABET[index] as char`; the index is below 64 wherever it is used. -/
def symbol (index : UInt8) : Char := Char.ofNat (ALPHABET.getD index.toNat 0).toNat

/-- One step of the encoder, on a chunk of one, two or three bytes. -/
def encodeChunk (chunk : Bytes) : Text :=
  let b0 := chunk.getD 0 0
  let b1 := chunk.getD 1 0
  let b2 := chunk.getD 2 0
  [symbol (b0 >>> 2),
    symbol (((b0 &&& 0x03) <<< 4) ||| (b1 >>> 4)),
    if 1 < chunk.length then symbol (((b1 &&& 0x0F) <<< 2) ||| (b2 >>> 6)) else '=',
    if 2 < chunk.length then symbol (b2 &&& 0x3F) else '=']

/-- Encode bytes as standard padded base64. -/
def b64Encode : Bytes → Text
  | b0 :: b1 :: b2 :: rest => encodeChunk [b0, b1, b2] ++ b64Encode rest
  | [b0, b1] => encodeChunk [b0, b1]
  | [b0] => encodeChunk [b0]
  | [] => []

def val (c : UInt8) : Option UInt8 :=
  if 0x41 ≤ c ∧ c ≤ 0x5A then some (c - 0x41)
  else if 0x61 ≤ c ∧ c ≤ 0x7A then some (c - 0x61 + 26)
  else if 0x30 ≤ c ∧ c ≤ 0x39 then some (c - 0x30 + 52)
  else if c = 0x2B then some 62
  else if c = 0x2F then some 63
  else none

def isAsciiWhitespace (c : UInt8) : Bool :=
  c == 0x09 || c == 0x0A || c == 0x0C || c == 0x0D || c == 0x20

def isSymbol (c : UInt8) : Bool := c != 0x3D && !isAsciiWhitespace c

/-- One step of the decoder, on a chunk of at most four symbols. -/
def decodeChunk : Bytes → Option Bytes
  | c0 :: c1 :: rest => do
      let v0 ← val c0
      let v1 ← val c1
      let first := (v0 <<< 2) ||| (v1 >>> 4)
      match rest with
      | [] => some [first]
      | c2 :: more => do
          let v2 ← val c2
          let second := ((v1 &&& 0x0F) <<< 4) ||| (v2 >>> 2)
          match more with
          | [] => some [first, second]
          | c3 :: _ => do
              let v3 ← val c3
              some [first, second, ((v2 &&& 0x03) <<< 6) ||| v3]
  | _ => none

def decodeSymbols : Bytes → Option Bytes
  | c0 :: c1 :: c2 :: c3 :: rest => do
      let head ← decodeChunk [c0, c1, c2, c3]
      let tail ← decodeSymbols rest
      some (head ++ tail)
  | [] => some []
  | chunk => decodeChunk chunk

/-- Decode standard base64; `none` on an invalid character or a lone symbol. -/
def b64Decode (input : Text) : Option Bytes :=
  decodeSymbols ((asBytes input).filter isSymbol)

/-! ## Six bits at a time -/

theorem toNat_lt_of_masked {b : UInt8} (hmasked : b &&& (0x3F : UInt8) = b) : b.toNat < 64 := by
  rw [← hmasked, UInt8.toNat_and]
  exact Nat.lt_of_le_of_lt Nat.and_le_right (by decide)

theorem firstIndex_lt (b0 : UInt8) : (b0 >>> 2).toNat < 64 := by
  apply toNat_lt_of_masked
  apply UInt8.eq_of_toBitVec_eq
  ext i hi
  interval_cases i <;> simp

theorem secondIndex_lt (b0 b1 : UInt8) : (((b0 &&& 0x03) <<< 4) ||| (b1 >>> 4)).toNat < 64 := by
  apply toNat_lt_of_masked
  apply UInt8.eq_of_toBitVec_eq
  ext i hi
  interval_cases i <;> simp

theorem thirdIndex_lt (b1 b2 : UInt8) : (((b1 &&& 0x0F) <<< 2) ||| (b2 >>> 6)).toNat < 64 := by
  apply toNat_lt_of_masked
  apply UInt8.eq_of_toBitVec_eq
  ext i hi
  interval_cases i <;> simp

theorem fourthIndex_lt (b2 : UInt8) : (b2 &&& 0x3F).toNat < 64 := by
  apply toNat_lt_of_masked
  rw [UInt8.and_assoc, UInt8.and_self]

theorem firstByte_eq (b0 b1 : UInt8) :
    ((b0 >>> 2) <<< 2) ||| ((((b0 &&& 0x03) <<< 4) ||| (b1 >>> 4)) >>> 4) = b0 := by
  apply UInt8.eq_of_toBitVec_eq
  ext i hi
  interval_cases i <;> simp

theorem secondByte_eq (b0 b1 b2 : UInt8) :
    (((((b0 &&& 0x03) <<< 4) ||| (b1 >>> 4)) &&& 0x0F) <<< 4) |||
      ((((b1 &&& 0x0F) <<< 2) ||| (b2 >>> 6)) >>> 2) = b1 := by
  apply UInt8.eq_of_toBitVec_eq
  ext i hi
  interval_cases i <;> simp

theorem thirdByte_eq (b1 b2 : UInt8) :
    (((((b1 &&& 0x0F) <<< 2) ||| (b2 >>> 6)) &&& 0x03) <<< 6) ||| (b2 &&& 0x3F) = b2 := by
  apply UInt8.eq_of_toBitVec_eq
  ext i hi
  interval_cases i <;> simp

/-! ## Symbols -/

/-- The byte of a symbol. -/
def symbolByte (index : UInt8) : UInt8 := ALPHABET.getD index.toNat 0

/-- Every symbol is an ASCII character that the decoder reads as its index. -/
theorem symbolByte_spec {index : UInt8} (hindex : index.toNat < 64) :
    (symbolByte index).toNat < 0x80 ∧ isSymbol (symbolByte index) = true ∧
      val (symbolByte index) = some index := by
  have hall : ∀ index : UInt8, index.toNat < 64 → (symbolByte index).toNat < 0x80 ∧
      isSymbol (symbolByte index) = true ∧ val (symbolByte index) = some index :=
    forall_byte_lt (by decide +kernel)
  exact hall index hindex

theorem toNat_symbol {index : UInt8} (hindex : index.toNat < 64) :
    (symbol index).toNat = (symbolByte index).toNat :=
  toNat_ofNat_of_isValidChar (Or.inl (Nat.lt_trans (symbolByte_spec hindex).1 (by decide)))

/-- What the decoder reads of a text. -/
def symbols (text : Text) : Bytes := (asBytes text).filter isSymbol

theorem symbols_symbol {index : UInt8} (hindex : index.toNat < 64) (rest : Text) :
    symbols (symbol index :: rest) = symbolByte index :: symbols rest := by
  obtain ⟨hascii, hsymbol, -⟩ := symbolByte_spec hindex
  have hbyte := toNat_symbol hindex
  have hencode : asBytes (symbol index :: rest) = symbolByte index :: asBytes rest := by
    rw [asBytes, List.flatMap_cons, utf8EncodeChar_ascii (hbyte ▸ hascii), hbyte,
      UInt8.ofNat_toNat]
    rfl
  rw [symbols, hencode, List.filter_cons_of_pos hsymbol]
  rfl

/-- Padding is skipped. -/
theorem symbols_padding (rest : Text) : symbols ('=' :: rest) = symbols rest := by
  have hencode : asBytes ('=' :: rest) = 0x3D :: asBytes rest := by
    rw [asBytes, List.flatMap_cons, utf8EncodeChar_ascii (by decide)]
    rfl
  rw [symbols, hencode, List.filter_cons_of_neg (by decide)]
  rfl

/-! ## Round trip -/

theorem symbols_encodeChunk_one (b0 : UInt8) :
    symbols (encodeChunk [b0]) =
      [symbolByte (b0 >>> 2), symbolByte (((b0 &&& 0x03) <<< 4) ||| ((0 : UInt8) >>> 4))] := by
  change symbols [symbol (b0 >>> 2), symbol (((b0 &&& 0x03) <<< 4) ||| ((0 : UInt8) >>> 4)),
    '=', '='] = _
  rw [symbols_symbol (firstIndex_lt b0), symbols_symbol (secondIndex_lt b0 0), symbols_padding,
    symbols_padding]
  rfl

theorem symbols_encodeChunk_two (b0 b1 : UInt8) :
    symbols (encodeChunk [b0, b1]) =
      [symbolByte (b0 >>> 2), symbolByte (((b0 &&& 0x03) <<< 4) ||| (b1 >>> 4)),
        symbolByte (((b1 &&& 0x0F) <<< 2) ||| ((0 : UInt8) >>> 6))] := by
  change symbols [symbol (b0 >>> 2), symbol (((b0 &&& 0x03) <<< 4) ||| (b1 >>> 4)),
    symbol (((b1 &&& 0x0F) <<< 2) ||| ((0 : UInt8) >>> 6)), '='] = _
  rw [symbols_symbol (firstIndex_lt b0), symbols_symbol (secondIndex_lt b0 b1),
    symbols_symbol (thirdIndex_lt b1 0), symbols_padding]
  rfl

theorem symbols_encodeChunk_three (b0 b1 b2 : UInt8) (rest : Text) :
    symbols (encodeChunk [b0, b1, b2] ++ rest) =
      symbolByte (b0 >>> 2) :: symbolByte (((b0 &&& 0x03) <<< 4) ||| (b1 >>> 4)) ::
        symbolByte (((b1 &&& 0x0F) <<< 2) ||| (b2 >>> 6)) :: symbolByte (b2 &&& 0x3F) ::
          symbols rest := by
  change symbols (symbol (b0 >>> 2) :: symbol (((b0 &&& 0x03) <<< 4) ||| (b1 >>> 4)) ::
    symbol (((b1 &&& 0x0F) <<< 2) ||| (b2 >>> 6)) :: symbol (b2 &&& 0x3F) :: rest) = _
  rw [symbols_symbol (firstIndex_lt b0), symbols_symbol (secondIndex_lt b0 b1),
    symbols_symbol (thirdIndex_lt b1 b2), symbols_symbol (fourthIndex_lt b2)]

/-- The decoder reads back what was encoded, whatever the bytes are. -/
theorem b64Decode_b64Encode (bytes : Bytes) : b64Decode (b64Encode bytes) = some bytes := by
  change decodeSymbols (symbols (b64Encode bytes)) = some bytes
  induction bytes using b64Encode.induct with
  | case1 b0 b1 b2 rest ih =>
      rw [b64Encode, symbols_encodeChunk_three, decodeSymbols, ih, decodeChunk,
        (symbolByte_spec (firstIndex_lt b0)).2.2, (symbolByte_spec (secondIndex_lt b0 b1)).2.2]
      simp only [Option.bind_eq_bind, Option.bind_some,
        (symbolByte_spec (thirdIndex_lt b1 b2)).2.2, (symbolByte_spec (fourthIndex_lt b2)).2.2,
        firstByte_eq, secondByte_eq, thirdByte_eq]
      rfl
  | case2 b0 b1 =>
      rw [b64Encode, symbols_encodeChunk_two, decodeSymbols, decodeChunk,
        (symbolByte_spec (firstIndex_lt b0)).2.2, (symbolByte_spec (secondIndex_lt b0 b1)).2.2]
      · simp only [Option.bind_eq_bind, Option.bind_some,
          (symbolByte_spec (thirdIndex_lt b1 0)).2.2, firstByte_eq, secondByte_eq]
      · simp
      · simp
  | case3 b0 =>
      rw [b64Encode, symbols_encodeChunk_one, decodeSymbols, decodeChunk,
        (symbolByte_spec (firstIndex_lt b0)).2.2, (symbolByte_spec (secondIndex_lt b0 0)).2.2]
      · simp only [Option.bind_eq_bind, Option.bind_some, firstByte_eq]
      · simp
      · simp
  | case4 => rfl

end HellohqRuntime.Plugin.Base64
