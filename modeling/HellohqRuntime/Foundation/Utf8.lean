import HellohqRuntime.Foundation.Strings
import Mathlib.Data.String.Basic

/-!
# UTF-8 and its lossy decoder

`asBytes` is the encoding of a text.  `fromUtf8Lossy` reads arbitrary bytes:
each longest prefix of a scalar value that the next byte rules out becomes one
replacement character, and reading goes on at that byte.
-/

namespace HellohqRuntime.Foundation.Utf8

open HellohqRuntime.Foundation.Strings

/-- The UTF-8 encoding of a text. -/
def asBytes (text : Text) : Bytes := text.flatMap String.utf8EncodeChar

/-- U+FFFD, which stands for an ill-formed sequence. -/
def replacement : Char := Char.ofNat 0xFFFD

def isContinuation (byte : UInt8) : Bool := 0x80 ≤ byte.toNat && byte.toNat ≤ 0xBF

/-- The second bytes that can follow a first byte: overlong forms, surrogates
and values past U+10FFFF are ruled out here. -/
def isSecond (first second : UInt8) : Bool :=
  if first.toNat = 0xE0 then 0xA0 ≤ second.toNat && second.toNat ≤ 0xBF
  else if first.toNat = 0xED then 0x80 ≤ second.toNat && second.toNat ≤ 0x9F
  else if first.toNat = 0xF0 then 0x90 ≤ second.toNat && second.toNat ≤ 0xBF
  else if first.toNat = 0xF4 then 0x80 ≤ second.toNat && second.toNat ≤ 0x8F
  else isContinuation second

def twoBytes (first second : UInt8) : Nat :=
  (first.toNat - 0xC0) * 0x40 + (second.toNat - 0x80)

def threeBytes (first second third : UInt8) : Nat :=
  (first.toNat - 0xE0) * 0x1000 + (second.toNat - 0x80) * 0x40 + (third.toNat - 0x80)

def fourBytes (first second third fourth : UInt8) : Nat :=
  (first.toNat - 0xF0) * 0x40000 + (second.toNat - 0x80) * 0x1000 +
    (third.toNat - 0x80) * 0x40 + (fourth.toNat - 0x80)

/-- The character that starts at `first`, and the bytes after it. -/
def decodeOne (first : UInt8) (rest : Bytes) : Char × Bytes :=
  if first.toNat < 0x80 then (Char.ofNat first.toNat, rest)
  else if 0xC2 ≤ first.toNat ∧ first.toNat ≤ 0xDF then
    match rest with
    | second :: after =>
        if isSecond first second then (Char.ofNat (twoBytes first second), after)
        else (replacement, second :: after)
    | [] => (replacement, [])
  else if 0xE0 ≤ first.toNat ∧ first.toNat ≤ 0xEF then
    match rest with
    | second :: third :: after =>
        if isSecond first second then
          if isContinuation third then (Char.ofNat (threeBytes first second third), after)
          else (replacement, third :: after)
        else (replacement, second :: third :: after)
    | [second] => if isSecond first second then (replacement, []) else (replacement, [second])
    | [] => (replacement, [])
  else if 0xF0 ≤ first.toNat ∧ first.toNat ≤ 0xF4 then
    match rest with
    | second :: third :: fourth :: after =>
        if isSecond first second then
          if isContinuation third then
            if isContinuation fourth then
              (Char.ofNat (fourBytes first second third fourth), after)
            else (replacement, fourth :: after)
          else (replacement, third :: fourth :: after)
        else (replacement, second :: third :: fourth :: after)
    | [second, third] =>
        if isSecond first second then
          if isContinuation third then (replacement, []) else (replacement, [third])
        else (replacement, [second, third])
    | [second] => if isSecond first second then (replacement, []) else (replacement, [second])
    | [] => (replacement, [])
  else (replacement, rest)

/-- Decode with one unit of fuel for each character. -/
def decodeLossy : Nat → Bytes → Text
  | 0, _ => []
  | _ + 1, [] => []
  | fuel + 1, first :: rest =>
      (decodeOne first rest).1 :: decodeLossy fuel (decodeOne first rest).2

/-- `String::from_utf8_lossy`. -/
def fromUtf8Lossy (bytes : Bytes) : Text := decodeLossy bytes.length bytes

/-- What is left to decode is a suffix of what was given. -/
theorem decodeOne_suffix (first : UInt8) (rest : Bytes) :
    (decodeOne first rest).2 <:+ rest := by
  unfold decodeOne
  repeat' split
  all_goals simp [List.suffix_cons_iff]

theorem decodeLossy_fuel {fuel : Nat} {bytes : Bytes} (hfuel : bytes.length ≤ fuel) :
    decodeLossy fuel bytes = fromUtf8Lossy bytes := by
  induction fuel using Nat.strong_induction_on generalizing bytes with
  | _ fuel ih =>
      cases bytes with
      | nil => cases fuel <;> rfl
      | cons first rest =>
          obtain ⟨less, rfl⟩ : ∃ less, fuel = less + 1 := ⟨fuel - 1, by simp at hfuel; omega⟩
          have hrest := (decodeOne_suffix first rest).length_le
          simp only [List.length_cons, Nat.add_le_add_iff_right] at hfuel
          rw [fromUtf8Lossy, List.length_cons, decodeLossy, decodeLossy,
            ih less (by omega) (by omega)]
          rcases Nat.lt_or_ge rest.length (less + 1) with hlt | hge
          · rw [ih rest.length hlt hrest]
          · omega

@[simp] theorem fromUtf8Lossy_nil : fromUtf8Lossy [] = [] := rfl

/-- The decoder reads one character and goes on behind it. -/
theorem fromUtf8Lossy_cons (first : UInt8) (rest : Bytes) :
    fromUtf8Lossy (first :: rest) =
      (decodeOne first rest).1 :: fromUtf8Lossy (decodeOne first rest).2 := by
  rw [fromUtf8Lossy, List.length_cons, decodeLossy,
    decodeLossy_fuel (decodeOne_suffix first rest).length_le]

/-! ## Decoding what was encoded -/

theorem toNat_ofNat_of_isValidChar {n : Nat} (hvalid : n.isValidChar) :
    (Char.ofNat n).toNat = n := by
  rw [Char.ofNat, dif_pos hvalid]
  rfl

theorem toNat_ofNat_byte {n : Nat} (hbyte : n < 0x100) : (UInt8.ofNat n).toNat = n := by
  rw [UInt8.toNat_ofNat']
  omega

theorem isContinuation_iff {byte : UInt8} :
    isContinuation byte = true ↔ 0x80 ≤ byte.toNat ∧ byte.toNat ≤ 0xBF := by
  simp [isContinuation]

/-- A second byte is a continuation byte in the range its first byte allows. -/
theorem isSecond_iff {first second : UInt8} :
    isSecond first second = true ↔
      0x80 ≤ second.toNat ∧ second.toNat ≤ 0xBF ∧
        (first.toNat = 0xE0 → 0xA0 ≤ second.toNat) ∧
        (first.toNat = 0xED → second.toNat ≤ 0x9F) ∧
        (first.toNat = 0xF0 → 0x90 ≤ second.toNat) ∧
        (first.toNat = 0xF4 → second.toNat ≤ 0x8F) := by
  unfold isSecond
  repeat' split
  all_goals
    simp only [Bool.and_eq_true, decide_eq_true_eq, isContinuation_iff]
    omega

theorem decodeOne_ascii {first : UInt8} {rest : Bytes} (hfirst : first.toNat < 0x80) :
    decodeOne first rest = (Char.ofNat first.toNat, rest) := by
  unfold decodeOne
  rw [if_pos hfirst]

theorem decodeOne_two {first second : UInt8} {after : Bytes}
    (hlow : 0xC2 ≤ first.toNat) (hhigh : first.toNat ≤ 0xDF)
    (hsecond : isSecond first second = true) :
    decodeOne first (second :: after) = (Char.ofNat (twoBytes first second), after) := by
  unfold decodeOne
  rw [if_neg (by omega), if_pos ⟨hlow, hhigh⟩]
  simp only [hsecond, if_pos]

theorem decodeOne_three {first second third : UInt8} {after : Bytes}
    (hlow : 0xE0 ≤ first.toNat) (hhigh : first.toNat ≤ 0xEF)
    (hsecond : isSecond first second = true) (hthird : isContinuation third = true) :
    decodeOne first (second :: third :: after) =
      (Char.ofNat (threeBytes first second third), after) := by
  unfold decodeOne
  rw [if_neg (by omega), if_neg (by omega), if_pos ⟨hlow, hhigh⟩]
  simp only [hsecond, hthird, if_pos]

theorem decodeOne_four {first second third fourth : UInt8} {after : Bytes}
    (hlow : 0xF0 ≤ first.toNat) (hhigh : first.toNat ≤ 0xF4)
    (hsecond : isSecond first second = true) (hthird : isContinuation third = true)
    (hfourth : isContinuation fourth = true) :
    decodeOne first (second :: third :: fourth :: after) =
      (Char.ofNat (fourBytes first second third fourth), after) := by
  unfold decodeOne
  rw [if_neg (by omega), if_neg (by omega), if_neg (by omega), if_pos ⟨hlow, hhigh⟩]
  simp only [hsecond, hthird, hfourth, if_pos]

/-- The decoder reads back one encoded character and nothing more. -/
theorem decodeOne_utf8EncodeChar (c : Char) (after : Bytes) :
    ∃ first rest, String.utf8EncodeChar c ++ after = first :: rest ∧
      decodeOne first rest = (c, after) := by
  have hvalid : c.toNat < 0xD800 ∨ 0xDFFF < c.toNat ∧ c.toNat < 0x110000 := c.valid
  have hself : Char.ofNat c.toNat = c := Char.ofNat_toNat c
  unfold String.utf8EncodeChar
  simp only [show c.val.toNat = c.toNat from rfl]
  split
  · refine ⟨_, _, rfl, ?_⟩
    have h0 := toNat_ofNat_byte (n := c.toNat) (by omega)
    rw [decodeOne_ascii (by omega), h0, hself]
    rfl
  split
  · refine ⟨_, _, rfl, ?_⟩
    have h0 := toNat_ofNat_byte (n := c.toNat / 64 % 32 + 192) (by omega)
    have h1 := toNat_ofNat_byte (n := c.toNat % 64 + 128) (by omega)
    refine (decodeOne_two (by omega) (by omega) ?_).trans ?_
    · rw [isSecond_iff, h0, h1]
      omega
    · have hvalue : twoBytes (UInt8.ofNat (c.toNat / 64 % 32 + 192))
          (UInt8.ofNat (c.toNat % 64 + 128)) = c.toNat := by
        unfold twoBytes
        omega
      rw [hvalue, hself]
      rfl
  split
  · refine ⟨_, _, rfl, ?_⟩
    have h0 := toNat_ofNat_byte (n := c.toNat / 4096 % 16 + 224) (by omega)
    have h1 := toNat_ofNat_byte (n := c.toNat / 64 % 64 + 128) (by omega)
    have h2 := toNat_ofNat_byte (n := c.toNat % 64 + 128) (by omega)
    refine (decodeOne_three (by omega) (by omega) ?_
      (isContinuation_iff.mpr (by omega))).trans ?_
    · rw [isSecond_iff, h0, h1]
      omega
    · have hvalue : threeBytes (UInt8.ofNat (c.toNat / 4096 % 16 + 224))
          (UInt8.ofNat (c.toNat / 64 % 64 + 128)) (UInt8.ofNat (c.toNat % 64 + 128)) =
            c.toNat := by
        unfold threeBytes
        omega
      rw [hvalue, hself]
      rfl
  · refine ⟨_, _, rfl, ?_⟩
    have h0 := toNat_ofNat_byte (n := c.toNat / 262144 % 8 + 240) (by omega)
    have h1 := toNat_ofNat_byte (n := c.toNat / 4096 % 64 + 128) (by omega)
    have h2 := toNat_ofNat_byte (n := c.toNat / 64 % 64 + 128) (by omega)
    have h3 := toNat_ofNat_byte (n := c.toNat % 64 + 128) (by omega)
    refine (decodeOne_four (by omega) (by omega) ?_ (isContinuation_iff.mpr (by omega))
      (isContinuation_iff.mpr (by omega))).trans ?_
    · rw [isSecond_iff, h0, h1]
      omega
    · have hvalue : fourBytes (UInt8.ofNat (c.toNat / 262144 % 8 + 240))
          (UInt8.ofNat (c.toNat / 4096 % 64 + 128)) (UInt8.ofNat (c.toNat / 64 % 64 + 128))
            (UInt8.ofNat (c.toNat % 64 + 128)) = c.toNat := by
        unfold fourBytes
        omega
      rw [hvalue, hself]
      rfl

/-- Decoding is exact on encoded text. -/
@[simp] theorem fromUtf8Lossy_asBytes (text : Text) : fromUtf8Lossy (asBytes text) = text := by
  induction text with
  | nil => rfl
  | cons c rest ih =>
      obtain ⟨first, bytes, hbytes, hdecode⟩ := decodeOne_utf8EncodeChar c (asBytes rest)
      have hcons : asBytes (c :: rest) = first :: bytes := by
        rw [← hbytes]; rfl
      rw [hcons, fromUtf8Lossy_cons, hdecode, ih]

/-! ## ASCII characters and bytes -/

/-- The character read is ASCII only where the first byte is that character. -/
theorem decodeOne_fst_ascii {first : UInt8} {rest : Bytes}
    (hascii : (decodeOne first rest).1.toNat < 0x80) :
    (decodeOne first rest).1.toNat = first.toNat := by
  have hreplacement : replacement.toNat = 0xFFFD := by decide
  have hvalue : ∀ n : Nat, 0x80 ≤ n → n < 0xD800 ∨ 0xDFFF < n ∧ n < 0x110000 →
      ¬(Char.ofNat n).toNat < 0x80 := fun n hlarge hvalid => by
    rw [toNat_ofNat_of_isValidChar hvalid]
    omega
  by_cases hfirst : first.toNat < 0x80
  · rw [decodeOne_ascii hfirst]
    exact toNat_ofNat_of_isValidChar (Or.inl (by omega))
  · exfalso
    revert hascii
    unfold decodeOne
    rw [if_neg hfirst]
    repeat' split
    all_goals simp only [hreplacement, isSecond_iff, isContinuation_iff] at *
    case h_1.isTrue =>
      refine hvalue _ ?_ ?_
      all_goals (unfold twoBytes; omega)
    case h_1.isTrue.isTrue =>
      refine hvalue _ ?_ ?_
      all_goals (unfold threeBytes; omega)
    case h_1.isTrue.isTrue.isTrue =>
      refine hvalue _ ?_ ?_
      all_goals (unfold fourBytes; omega)
    all_goals omega

theorem mem_of_mem_fromUtf8Lossy {bytes : Bytes} {c : Char} (hc : c ∈ fromUtf8Lossy bytes)
    (hascii : c.toNat < 0x80) : UInt8.ofNat c.toNat ∈ bytes := by
  induction hlen : bytes.length using Nat.strong_induction_on generalizing bytes with
  | _ length ih =>
      cases bytes with
      | nil => simp at hc
      | cons first rest =>
          rw [fromUtf8Lossy_cons, List.mem_cons] at hc
          rcases hc with rfl | hc
          · rw [decodeOne_fst_ascii hascii, UInt8.ofNat_toNat]
            exact List.mem_cons_self
          · have hsuffix := decodeOne_suffix first rest
            have hshort : (decodeOne first rest).2.length < length := by
              have := hsuffix.length_le
              simp only [List.length_cons] at hlen
              omega
            exact List.mem_cons_of_mem _ (hsuffix.subset (ih _ hshort hc rfl))

theorem utf8EncodeChar_ascii {c : Char} (hascii : c.toNat < 0x80) :
    String.utf8EncodeChar c = [UInt8.ofNat c.toNat] := by
  unfold String.utf8EncodeChar
  simp only [show c.val.toNat = c.toNat from rfl]
  rw [if_pos (by omega)]

/-- The bytes of a character outside ASCII are all outside ASCII. -/
theorem not_ascii_of_mem_utf8EncodeChar {c : Char} (hhigh : 0x80 ≤ c.toNat) {byte : UInt8}
    (hbyte : byte ∈ String.utf8EncodeChar c) : 0x80 ≤ byte.toNat := by
  have hvalid : c.toNat < 0xD800 ∨ 0xDFFF < c.toNat ∧ c.toNat < 0x110000 := c.valid
  unfold String.utf8EncodeChar at hbyte
  simp only [show c.val.toNat = c.toNat from rfl] at hbyte
  rw [if_neg (by omega)] at hbyte
  split_ifs at hbyte
  all_goals
    simp only [List.mem_cons, List.not_mem_nil, or_false] at hbyte
    rcases hbyte with rfl | rfl | rfl | rfl
    all_goals
      rw [toNat_ofNat_byte (by omega)]
      omega

/-- A character outside ASCII has a byte outside ASCII. -/
theorem exists_byte_of_not_ascii {c : Char} (hhigh : 0x80 ≤ c.toNat) :
    ∃ byte ∈ String.utf8EncodeChar c, 0x80 ≤ byte.toNat := by
  obtain ⟨byte, hbyte⟩ := List.exists_mem_of_ne_nil _ (String.utf8EncodeChar_ne_nil)
  exact ⟨byte, hbyte, not_ascii_of_mem_utf8EncodeChar hhigh hbyte⟩

/-- What holds of the first 128 codes holds of the ASCII characters. -/
theorem forall_ascii {property : Char → Prop} (hcodes : ∀ code < 128, property (Char.ofNat code)) :
    ∀ c : Char, c.toNat < 0x80 → property c := by
  intro c hascii
  have hcode := hcodes c.toNat hascii
  rwa [Char.ofNat_toNat] at hcode

/-- What holds of the first numbers holds of the bytes below a bound. -/
theorem forall_byte_lt {property : UInt8 → Prop} {bound : Nat}
    (hnumbers : ∀ n < bound, property (UInt8.ofNat n)) :
    ∀ byte : UInt8, byte.toNat < bound → property byte := by
  intro byte hbyte
  have hnumber := hnumbers byte.toNat hbyte
  rwa [UInt8.ofNat_toNat] at hnumber

theorem asBytes_cons_ascii {c : Char} (hascii : c.toNat < 0x80) (rest : Text) :
    asBytes (c :: rest) = UInt8.ofNat c.toNat :: asBytes rest := by
  rw [asBytes, List.flatMap_cons, utf8EncodeChar_ascii hascii]
  rfl

/-- A text of ASCII characters has as many bytes as characters. -/
theorem length_asBytes_ascii {text : Text} (hascii : ∀ c ∈ text, c.toNat < 0x80) :
    (asBytes text).length = text.length := by
  induction text with
  | nil => rfl
  | cons c rest ih =>
      rw [asBytes_cons_ascii (hascii c List.mem_cons_self), List.length_cons, List.length_cons,
        ih fun other hother => hascii other (List.mem_cons_of_mem c hother)]

/-- A test of bytes that only ASCII bytes pass is a test of ASCII characters. -/
theorem all_asBytes_iff {test : UInt8 → Bool} (hascii : ∀ byte, test byte = true → byte.toNat < 0x80)
    (text : Text) :
    (asBytes text).all test = true ↔
      ∀ c ∈ text, c.toNat < 0x80 ∧ test (UInt8.ofNat c.toNat) = true := by
  simp only [List.all_eq_true, asBytes, List.mem_flatMap]
  constructor
  · intro hall c hc
    rcases Nat.lt_or_ge c.toNat 0x80 with hlow | hhigh
    · exact ⟨hlow, hall _ ⟨c, hc, by rw [utf8EncodeChar_ascii hlow]; exact List.mem_cons_self⟩⟩
    · obtain ⟨byte, hmem, hbyte⟩ := exists_byte_of_not_ascii hhigh
      have := hascii byte (hall byte ⟨c, hc, hmem⟩)
      omega
  · rintro hall byte ⟨c, hc, hmem⟩
    rw [utf8EncodeChar_ascii (hall c hc).1, List.mem_singleton] at hmem
    rw [hmem]
    exact (hall c hc).2

end HellohqRuntime.Foundation.Utf8
