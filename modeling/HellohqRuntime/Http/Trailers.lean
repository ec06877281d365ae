import HellohqRuntime.Http.Head

/-!
# Trailer fields in text

A list of trailer fields travels as `<name>=<hex(value)>;...`, in the TRAILERS
frame of a request and in the reserved line of a response head.  The formatter
leaves out names that are no tokens; on the others the parser is its inverse.
-/

namespace HellohqRuntime.Http.Trailers

open HellohqRuntime.Foundation.Strings
open HellohqRuntime.Foundation.Utf8
open HellohqRuntime.Http.Head
open HellohqRuntime.Http.Types

/-! ## Hex -/

/-- The two lowercase digits of a byte. -/
def hexByte (byte : UInt8) : Text := [Nat.digitChar (byte.toNat / 16), Nat.digitChar (byte.toNat % 16)]

def hexEncode (bytes : Bytes) : Text := bytes.flatMap hexByte

/-- The digit loop: two bytes of text for each byte. -/
def hexDigits : Bytes → Option Bytes
  | [] => some []
  | [_] => none
  | high :: low :: rest =>
      match toDigit16 high, toDigit16 low with
      | some hi, some lo => (hexDigits rest).map fun out => UInt8.ofNat (hi * 16 + lo) :: out
      | _, _ => none

def hexDecode (s : Text) : Option Bytes :=
  if (asBytes s).length % 2 ≠ 0 then none else hexDigits (asBytes s)

theorem asBytes_hexByte (byte : UInt8) :
    asBytes (hexByte byte) =
      [UInt8.ofNat (Nat.digitChar (byte.toNat / 16)).toNat,
        UInt8.ofNat (Nat.digitChar (byte.toNat % 16)).toNat] := by
  have hbyte := byte.toNat_lt_size
  have hsize : UInt8.size = 256 := rfl
  have hhigh := (toDigit16_digitChar (n := byte.toNat / 16) (by omega)).1
  have hlow := (toDigit16_digitChar (n := byte.toNat % 16) (by omega)).1
  simp [asBytes, hexByte, utf8EncodeChar_ascii hhigh, utf8EncodeChar_ascii hlow]

theorem asBytes_hexEncode (bytes : Bytes) :
    asBytes (hexEncode bytes) = bytes.flatMap fun byte => asBytes (hexByte byte) :=
  List.flatMap_assoc

/-- The digit loop reads each byte back from its two digits. -/
theorem hexDigits_hexEncode (bytes : Bytes) : hexDigits (asBytes (hexEncode bytes)) = some bytes := by
  rw [asBytes_hexEncode]
  induction bytes with
  | nil => rfl
  | cons byte rest ih =>
      have hbyte := byte.toNat_lt_size
      have hsize : UInt8.size = 256 := rfl
      have hhigh := (toDigit16_digitChar (n := byte.toNat / 16) (by omega)).2
      have hlow := (toDigit16_digitChar (n := byte.toNat % 16) (by omega)).2
      have hvalue : byte.toNat / 16 * 16 + byte.toNat % 16 = byte.toNat := by omega
      rw [List.flatMap_cons, asBytes_hexByte]
      simp only [List.cons_append, List.nil_append, hexDigits, hhigh, hlow, ih, Option.map_some,
        hvalue, UInt8.ofNat_toNat]

theorem length_asBytes_hexEncode (bytes : Bytes) :
    (asBytes (hexEncode bytes)).length = bytes.length * 2 := by
  rw [asBytes_hexEncode, List.length_flatMap]
  simp [asBytes_hexByte]

@[simp] theorem hexDecode_hexEncode (bytes : Bytes) : hexDecode (hexEncode bytes) = some bytes := by
  rw [hexDecode, if_neg (by rw [length_asBytes_hexEncode]; omega), hexDigits_hexEncode]

/-! ## The trailers text -/

/-- One `<name>=<hex>` pair; a malformed pair gives no field. -/
def parseTrailer (pair : Text) : Option (FieldName × FieldValue) :=
  let pair := trim pair
  if pair.isEmpty then none
  else
    match splitOnce "=".toList pair with
    | none => none
    | some (name, hex) => (hexDecode (trim hex)).map fun bytes => (trim name, bytes)

/-- The trailer fields of a `<name>=<hex>;...` text. -/
def parseTrailersLine (value : Text) : List (FieldName × FieldValue) :=
  (value.splitOn ';').filterMap parseTrailer

def formatTrailer (entry : FieldName × FieldValue) : Text :=
  entry.1 ++ "=".toList ++ hexEncode entry.2

/-- The text of the fields whose name is a token; no text where there is none. -/
def formatRequestTrailersValue (entries : List (FieldName × FieldValue)) : Option Text :=
  let parts := (entries.filter fun entry => isHttpToken entry.1).map formatTrailer
  if parts.isEmpty then none else some (";".toList.intercalate parts)

/-! ## The parser inverts the formatter -/

theorem mem_hexEncode {bytes : Bytes} {c : Char} (hc : c ∈ hexEncode bytes) :
    c ∈ "0123456789abcdef".toList := by
  simp only [hexEncode, hexByte, List.mem_flatMap, List.mem_cons, List.not_mem_nil, or_false] at hc
  obtain ⟨byte, -, hc⟩ := hc
  have hdigit : ∀ n < 16, Nat.digitChar n ∈ "0123456789abcdef".toList := by decide
  have hbyte := byte.toNat_lt_size
  have hsize : UInt8.size = 256 := rfl
  rcases hc with rfl | rfl
  · exact hdigit _ (by omega)
  · exact hdigit _ (by omega)

theorem not_mem_hexEncode {bytes : Bytes} {c : Char} (hc : c ∉ "0123456789abcdef".toList) :
    c ∉ hexEncode bytes := fun hmem => hc (mem_hexEncode hmem)

/-- A token holds no white space. -/
theorem isWhitespace_of_mem_token {s : Text} (htoken : isHttpToken s = true) {c : Char}
    (hc : c ∈ s) : isWhitespace c = false := by
  have hall : ∀ c : Char, c.toNat < 0x80 → isTchar (UInt8.ofNat c.toNat) = true →
      isWhitespace c = false :=
    forall_ascii (by decide +kernel)
  have hascii : ∀ byte, isTchar byte = true → byte.toNat < 0x80 := fun byte hbyte => by
    have := isTchar_bounds hbyte
    omega
  simp only [isHttpToken, Bool.and_eq_true, all_asBytes_iff hascii] at htoken
  exact hall c (htoken.2 c hc).1 (htoken.2 c hc).2

theorem isWhitespace_of_mem_hexEncode {bytes : Bytes} {c : Char} (hc : c ∈ hexEncode bytes) :
    isWhitespace c = false := by
  have hall : "0123456789abcdef".toList.all (fun c => !isWhitespace c) = true := by decide
  simpa using List.all_eq_true.mp hall c (mem_hexEncode hc)

theorem isWhitespace_of_mem_formatTrailer {entry : FieldName × FieldValue}
    (htoken : isHttpToken entry.1 = true) {c : Char} (hc : c ∈ formatTrailer entry) :
    isWhitespace c = false := by
  simp only [formatTrailer, List.mem_append] at hc
  rcases hc with (hc | hc) | hc
  · exact isWhitespace_of_mem_token htoken hc
  · obtain rfl : c = '=' := by simpa using hc
    rfl
  · exact isWhitespace_of_mem_hexEncode hc

/-- One formatted field reads back. -/
theorem parseTrailer_formatTrailer {entry : FieldName × FieldValue}
    (htoken : isHttpToken entry.1 = true) : parseTrailer (formatTrailer entry) = some entry := by
  have htrim : trim (formatTrailer entry) = formatTrailer entry :=
    trim_eq_self fun c => isWhitespace_of_mem_formatTrailer htoken
  have hsplit : splitOnce "=".toList (formatTrailer entry) =
      some (entry.1, hexEncode entry.2) :=
    splitOnce_append (not_mem_of_isHttpToken htoken (by decide))
  have hname : trim entry.1 = entry.1 := trim_eq_self fun c => isWhitespace_of_mem_token htoken
  have hhex : trim (hexEncode entry.2) = hexEncode entry.2 :=
    trim_eq_self fun c => isWhitespace_of_mem_hexEncode
  rw [parseTrailer]
  simp only [htrim, hsplit, hname, hhex, hexDecode_hexEncode, Option.map_some]
  rw [if_neg (by simp [formatTrailer])]

/-- The entries that are formatted come back, in order. -/
theorem parseTrailersLine_formatRequestTrailersValue {entries : List (FieldName × FieldValue)}
    {value : Text} (hvalue : formatRequestTrailersValue entries = some value) :
    parseTrailersLine value = entries.filter fun entry => isHttpToken entry.1 := by
  rw [formatRequestTrailersValue] at hvalue
  simp only [Option.ite_none_left_eq_some, Option.some.injEq] at hvalue
  obtain ⟨hsome, rfl⟩ := hvalue
  have hparts : ∀ part ∈ (entries.filter fun entry => isHttpToken entry.1).map formatTrailer,
      ';' ∉ part := by
    intro part hpart
    obtain ⟨entry, hentry, rfl⟩ := List.mem_map.mp hpart
    have hname : ';' ∉ entry.1 :=
      not_mem_of_isHttpToken (List.mem_filter.mp hentry).2 (by decide)
    have hhex : ';' ∉ hexEncode entry.2 := not_mem_hexEncode (by decide)
    simp [formatTrailer, hname, hhex]
  have hlist : ";".toList = [';'] := rfl
  rw [parseTrailersLine, hlist, List.splitOn_intercalate ';' hparts (by simpa using hsome),
    List.filterMap_map]
  refine (List.filterMap_congr fun entry hentry => ?_).trans List.filterMap_some
  exact parseTrailer_formatTrailer (List.mem_filter.mp hentry).2

/-- There is a text exactly where some name is a token. -/
theorem formatRequestTrailersValue_isSome {entries : List (FieldName × FieldValue)} :
    (formatRequestTrailersValue entries).isSome = true ↔
      ∃ entry ∈ entries, isHttpToken entry.1 = true := by
  rw [formatRequestTrailersValue]
  by_cases hany : ∃ entry ∈ entries, isHttpToken entry.1 = true
  · obtain ⟨entry, hentry, htoken⟩ := hany
    rw [if_neg]
    · simp only [Option.isSome_some, true_iff]
      exact ⟨entry, hentry, htoken⟩
    · simp only [List.isEmpty_iff, List.map_eq_nil_iff, List.filter_eq_nil_iff]
      exact fun hall => hall entry hentry htoken
  · rw [if_pos]
    · simpa using hany
    · simpa using hany

theorem formatRequestTrailersValue_eq_none {entries : List (FieldName × FieldValue)} :
    formatRequestTrailersValue entries = none ↔ ∀ entry ∈ entries, isHttpToken entry.1 = false := by
  rw [← Option.not_isSome_iff_eq_none, formatRequestTrailersValue_isSome]
  simp

/-! ## What the hex decoder accepts -/

/-- `char::is_ascii_hexdigit`. -/
def isAsciiHexdigit (c : Char) : Bool :=
  ('0' ≤ c && c ≤ '9') || ('A' ≤ c && c ≤ 'F') || ('a' ≤ c && c ≤ 'f')

theorem isAsciiHexdigit_ascii {c : Char} (hdigit : isAsciiHexdigit c = true) : c.toNat < 0x80 := by
  simp only [isAsciiHexdigit, Bool.or_eq_true, Bool.and_eq_true, decide_eq_true_eq,
    Char.le_def, UInt32.le_iff_toNat_le] at hdigit
  simp only [Char.toNat]
  have h9 : '9'.val.toNat = 57 := rfl
  have hF : 'F'.val.toNat = 70 := rfl
  have hf : 'f'.val.toNat = 102 := rfl
  omega

/-- The value of a digit of either case, and the lower-case digit of that value. -/
theorem exists_digit {c : Char} (hdigit : isAsciiHexdigit c = true) :
    ∃ n < 16, toDigit16 (UInt8.ofNat c.toNat) = some n ∧ Nat.digitChar n = c.toLower := by
  have hall : ∀ c : Char, c.toNat < 0x80 → isAsciiHexdigit c = true →
      ∃ n < 16, toDigit16 (UInt8.ofNat c.toNat) = some n ∧ Nat.digitChar n = c.toLower :=
    forall_ascii (by decide)
  exact hall c (isAsciiHexdigit_ascii hdigit) hdigit

theorem toDigit16_ascii {byte : UInt8} (hdigit : (toDigit16 byte).isSome = true) :
    byte.toNat < 0x80 := by
  unfold toDigit16 at hdigit
  split_ifs at hdigit <;> first | omega | cases hdigit

theorem isAsciiHexdigit_of_toDigit16 {c : Char} (hascii : c.toNat < 0x80)
    (hdigit : (toDigit16 (UInt8.ofNat c.toNat)).isSome = true) : isAsciiHexdigit c = true := by
  have hall : ∀ c : Char, c.toNat < 0x80 → (toDigit16 (UInt8.ofNat c.toNat)).isSome = true →
      isAsciiHexdigit c = true :=
    forall_ascii (by decide)
  exact hall c hascii hdigit

/-- The digit loop gives up at the first byte that is no digit. -/
theorem digits_of_hexDigits {bytes out : Bytes} (hread : hexDigits bytes = some out) :
    bytes.all (fun byte => (toDigit16 byte).isSome) = true := by
  induction bytes using List.twoStepInduction generalizing out with
  | nil => rfl
  | singleton byte => cases hread
  | cons_cons high low rest ih _ =>
      simp only [hexDigits] at hread
      cases hhigh : toDigit16 high with
      | none => simp [hhigh] at hread
      | some hi =>
          cases hlow : toDigit16 low with
          | none => simp [hhigh, hlow] at hread
          | some lo =>
              simp only [hhigh, hlow, Option.map_eq_some_iff] at hread
              obtain ⟨tail, htail, -⟩ := hread
              simp [hhigh, hlow, ih htail]

theorem isAsciiHexdigit_of_hexDigits {s : Text} {out : Bytes}
    (hread : hexDigits (asBytes s) = some out) : ∀ c ∈ s, isAsciiHexdigit c = true := by
  have hdigits := digits_of_hexDigits hread
  rw [all_asBytes_iff fun byte => toDigit16_ascii] at hdigits
  intro c hc
  exact isAsciiHexdigit_of_toDigit16 (hdigits c hc).1 (hdigits c hc).2

/-- An even number of digits reads as the bytes whose encoding it is, but for case. -/
theorem exists_hexDigits {s : Text} (heven : s.length % 2 = 0)
    (hdigits : ∀ c ∈ s, isAsciiHexdigit c = true) :
    ∃ out, hexDigits (asBytes s) = some out ∧ hexEncode out = toAsciiLowercase s := by
  induction s using List.twoStepInduction with
  | nil => exact ⟨[], rfl, rfl⟩
  | singleton c => cases heven
  | cons_cons high low rest ih _ =>
      have hhigh := hdigits high List.mem_cons_self
      have hlow := hdigits low (List.mem_cons_of_mem high List.mem_cons_self)
      obtain ⟨hi, hhiLess, hhiRead, hhiLower⟩ := exists_digit hhigh
      obtain ⟨lo, hloLess, hloRead, hloLower⟩ := exists_digit hlow
      have hrestEven : rest.length % 2 = 0 := by
        simp only [List.length_cons] at heven
        omega
      obtain ⟨out, hout, hlower⟩ := ih hrestEven fun c hc =>
        hdigits c (List.mem_cons_of_mem high (List.mem_cons_of_mem low hc))
      refine ⟨UInt8.ofNat (hi * 16 + lo) :: out, ?_, ?_⟩
      · rw [asBytes_cons_ascii (isAsciiHexdigit_ascii hhigh),
          asBytes_cons_ascii (isAsciiHexdigit_ascii hlow)]
        simp only [hexDigits, hhiRead, hloRead, hout, Option.map_some]
      · have hbyte : (UInt8.ofNat (hi * 16 + lo)).toNat = hi * 16 + lo :=
          toNat_ofNat_byte (by omega)
        have hfirst : (hi * 16 + lo) / 16 = hi := by omega
        have hsecond : (hi * 16 + lo) % 16 = lo := by omega
        have hencode : hexEncode (UInt8.ofNat (hi * 16 + lo) :: out) =
            hexByte (UInt8.ofNat (hi * 16 + lo)) ++ hexEncode out := rfl
        rw [hencode, hexByte, hbyte, hfirst, hsecond, hhiLower, hloLower, hlower]
        rfl

theorem length_asBytes_of_digits {s : Text} (hdigits : ∀ c ∈ s, isAsciiHexdigit c = true) :
    (asBytes s).length = s.length :=
  length_asBytes_ascii fun c hc => isAsciiHexdigit_ascii (hdigits c hc)

/-- The decoder accepts exactly an even number of hex digits of either case. -/
theorem hexDecode_eq_some {s : Text} {bytes : Bytes} :
    hexDecode s = some bytes ↔
      s.length % 2 = 0 ∧ (∀ c ∈ s, isAsciiHexdigit c = true) ∧
        hexEncode bytes = toAsciiLowercase s := by
  rw [hexDecode, Option.ite_none_left_eq_some, not_not]
  constructor
  · rintro ⟨heven, hread⟩
    have hdigits := isAsciiHexdigit_of_hexDigits hread
    rw [length_asBytes_of_digits hdigits] at heven
    obtain ⟨out, hout, hlower⟩ := exists_hexDigits heven hdigits
    obtain rfl := Option.some.inj (hread.symm.trans hout)
    exact ⟨heven, hdigits, hlower⟩
  · rintro ⟨heven, hdigits, hlower⟩
    obtain ⟨out, hout, hsame⟩ := exists_hexDigits heven hdigits
    have hbytes : bytes = out := by
      have hdecode := congrArg hexDecode (hlower.trans hsame.symm)
      simpa using hdecode
    rw [length_asBytes_of_digits hdigits, hbytes]
    exact ⟨heven, hout⟩

/-- The two directions of the trailer codec. -/
theorem trailer_codec :
    (∀ entries : List (FieldName × FieldValue),
      (formatRequestTrailersValue entries = none ↔
        ∀ entry ∈ entries, isHttpToken entry.1 = false) ∧
      ∀ value, formatRequestTrailersValue entries = some value →
        parseTrailersLine value = entries.filter fun entry => isHttpToken entry.1) ∧
    (∀ (s : Text) (bytes : Bytes), hexDecode s = some bytes ↔
      s.length % 2 = 0 ∧ (∀ c ∈ s, isAsciiHexdigit c = true) ∧
        hexEncode bytes = toAsciiLowercase s) ∧
    ∀ bytes : Bytes, hexDecode (hexEncode bytes) = some bytes := by
  refine ⟨?_, fun s bytes => hexDecode_eq_some, hexDecode_hexEncode⟩
  intro entries
  constructor
  · exact formatRequestTrailersValue_eq_none
  · intro value hvalue
    exact parseTrailersLine_formatRequestTrailersValue hvalue

end HellohqRuntime.Http.Trailers
