import HellohqRuntime.Foundation.Strings
import HellohqRuntime.Foundation.Utf8
import Mathlib.Data.Fintype.Basic

/-!
# IP addresses

The standard library's parser of address text, as a state of bytes still to read,
and the set of addresses that outbound requests may not reach.
-/

namespace HellohqRuntime.Gate.Address

open HellohqRuntime.Foundation.Strings
open HellohqRuntime.Foundation.Utf8

/-- The four octets of an IPv4 address. -/
structure Ipv4Addr where
  a : UInt8
  b : UInt8
  c : UInt8
  d : UInt8
  deriving DecidableEq, Repr

/-- The eight segments of an IPv6 address. -/
structure Ipv6Addr where
  segments : Fin 8 → UInt16
  deriving DecidableEq

inductive IpAddr where
  | v4 (addr : Ipv4Addr)
  | v6 (addr : Ipv6Addr)
  deriving DecidableEq

/-! ## The parser -/

/-- `char::to_digit` of a byte. -/
def toDigit (radix : Nat) (byte : UInt8) : Option Nat :=
  (toDigit16 byte).filter fun value => value < radix

/-- Digits of a radix, at most so many, with a value below the bound. -/
def readNumber (radix maxDigits : Nat) (allowZeroPrefix : Bool) (bound : Nat) (state : Bytes) :
    Option (Nat × Bytes) :=
  let digits := state.takeWhile fun byte => (toDigit radix byte).isSome
  let result := digits.foldl (fun result byte => result * radix + (toDigit radix byte).getD 0) 0
  if maxDigits < digits.length then none
  else if digits.isEmpty then none
  else if !allowZeroPrefix && digits.head? = some 0x30 && 1 < digits.length then none
  else if result < bound then some (result, state.drop digits.length)
  else none

def readGivenChar (target : UInt8) : Bytes → Option Bytes
  | [] => none
  | byte :: rest => if byte = target then some rest else none

/-- A separator stands before every item but the first. -/
def readSeparator {α : Type} (sep : UInt8) (index : Nat) (inner : Bytes → Option (α × Bytes))
    (state : Bytes) : Option (α × Bytes) :=
  if 0 < index then (readGivenChar sep state).bind inner else inner state

/-- One group of an IPv4 address; no octal number is read. -/
def readOctet (state : Bytes) : Option (UInt8 × Bytes) :=
  (readNumber 10 3 false 256 state).map fun read => (UInt8.ofNat read.1, read.2)

def readIpv4Addr (state : Bytes) : Option (Ipv4Addr × Bytes) := do
  let (a, state) ← readSeparator 0x2E 0 readOctet state
  let (b, state) ← readSeparator 0x2E 1 readOctet state
  let (c, state) ← readSeparator 0x2E 2 readOctet state
  let (d, state) ← readSeparator 0x2E 3 readOctet state
  return ({ a, b, c, d }, state)

def readGroup (state : Bytes) : Option (UInt16 × Bytes) :=
  (readNumber 16 4 true 65536 state).map fun read => (UInt16.ofNat read.1, read.2)

def fromBeBytes (high low : UInt8) : UInt16 := UInt16.ofNat (high.toNat * 256 + low.toNat)

/-- The groups up to a limit, from the index on; the flag says that an embedded
IPv4 address was read, which takes the place of the last two. -/
def readGroupsFrom (index : Nat) : Nat → Bytes → (List UInt16 × Bool) × Bytes
  | 0, state => (([], false), state)
  | left + 1, state =>
      match (if 0 < left then readSeparator 0x3A index readIpv4Addr state else none) with
      | some (v4, rest) => (([fromBeBytes v4.a v4.b, fromBeBytes v4.c v4.d], true), rest)
      | none =>
          match readSeparator 0x3A index readGroup state with
          | none => (([], false), state)
          | some (group, rest) =>
              let ((groups, ipv4), rest) := readGroupsFrom (index + 1) left rest
              ((group :: groups, ipv4), rest)

def readGroups (limit : Nat) (state : Bytes) : (List UInt16 × Bool) × Bytes :=
  readGroupsFrom 0 limit state

/-- Groups in front and groups at the back, with zeroes between them. -/
def ofGroups (head tail : List UInt16) : Ipv6Addr where
  segments index :=
    if index.val < 8 - tail.length then head.getD index.val 0
    else tail.getD (index.val - (8 - tail.length)) 0

def readIpv6Addr (state : Bytes) : Option (Ipv6Addr × Bytes) :=
  let ((head, headIpv4), state) := readGroups 8 state
  if head.length = 8 then some (ofGroups head [], state)
  else if headIpv4 then none
  else do
    let state ← readGivenChar 0x3A state
    let state ← readGivenChar 0x3A state
    let ((tail, _), state) := readGroups (8 - (head.length + 1)) state
    return (ofGroups head tail, state)

def readIpAddr (state : Bytes) : Option (IpAddr × Bytes) :=
  match readIpv4Addr state with
  | some (addr, rest) => some (.v4 addr, rest)
  | none => (readIpv6Addr state).map fun read => (.v6 read.1, read.2)

/-- What was read, if nothing is left (`parse_with`). -/
def parseWith {α : Type} (inner : Bytes → Option (α × Bytes)) (text : Text) : Option α :=
  match inner (asBytes text) with
  | some (value, []) => some value
  | _ => none

def parseIpAddr (text : Text) : Option IpAddr := parseWith readIpAddr text

def parseIpv6Addr (text : Text) : Option Ipv6Addr := parseWith readIpv6Addr text

/-! ## The blocked set -/

namespace Ipv4Addr

def isLoopback (v4 : Ipv4Addr) : Bool := v4.a = 127

def isLinkLocal (v4 : Ipv4Addr) : Bool := v4.a = 169 && v4.b = 254

def isMulticast (v4 : Ipv4Addr) : Bool := 224 ≤ v4.a && v4.a ≤ 239

def isUnspecified (v4 : Ipv4Addr) : Bool := v4 = ⟨0, 0, 0, 0⟩

def isBroadcast (v4 : Ipv4Addr) : Bool := v4 = ⟨255, 255, 255, 255⟩

end Ipv4Addr

def isBlockedV4 (v4 : Ipv4Addr) : Bool :=
  if v4.isLoopback || v4.isLinkLocal || v4.isMulticast || v4.isUnspecified || v4.isBroadcast then
    true
  else if v4.a = 0 then true
  else if v4.a = 10 then true
  else if v4.a = 100 && (64 ≤ v4.b && v4.b ≤ 127) then true
  else if v4.a = 127 then true
  else if v4.a = 169 && v4.b = 254 then true
  else if v4.a = 172 && (16 ≤ v4.b && v4.b ≤ 31) then true
  else if v4.a = 192 && v4.b = 168 then true
  else false

namespace Ipv6Addr

def isUnspecified (v6 : Ipv6Addr) : Bool := v6 = ofGroups [] []

def isLoopback (v6 : Ipv6Addr) : Bool := v6 = ofGroups [] [1]

def isMulticast (v6 : Ipv6Addr) : Bool := v6.segments 0 &&& 0xFF00 = 0xFF00

/-- The IPv4 address of an address `::ffff:a.b.c.d`. -/
def toIpv4Mapped (v6 : Ipv6Addr) : Option Ipv4Addr :=
  if v6.segments 0 = 0 ∧ v6.segments 1 = 0 ∧ v6.segments 2 = 0 ∧ v6.segments 3 = 0 ∧
      v6.segments 4 = 0 ∧ v6.segments 5 = 0xFFFF then
    some
      { a := UInt8.ofNat ((v6.segments 6).toNat / 256)
        b := UInt8.ofNat (v6.segments 6).toNat
        c := UInt8.ofNat ((v6.segments 7).toNat / 256)
        d := UInt8.ofNat (v6.segments 7).toNat }
  else none

end Ipv6Addr

def isBlockedV6 (v6 : Ipv6Addr) : Bool :=
  if v6.isUnspecified || v6.isLoopback || v6.isMulticast then true
  else
    match v6.toIpv4Mapped with
    | some v4 => isBlockedV4 v4
    | none =>
        if v6.segments 0 &&& 0xFE00 = 0xFC00 then true
        else if v6.segments 0 &&& 0xFFC0 = 0xFE80 then true
        else false

def isBlockedAddress : IpAddr → Bool
  | .v4 v4 => isBlockedV4 v4
  | .v6 v6 => isBlockedV6 v6

/-! ## Numbers -/

/-- The 32 bits of an address. -/
def ipv4Bits (v4 : Ipv4Addr) : BitVec 32 :=
  v4.a.toBitVec ++ v4.b.toBitVec ++ v4.c.toBitVec ++ v4.d.toBitVec

/-- The 128 bits of an address. -/
def ipv6Bits (v6 : Ipv6Addr) : BitVec 128 :=
  (v6.segments 0).toBitVec ++ (v6.segments 1).toBitVec ++ (v6.segments 2).toBitVec ++
    (v6.segments 3).toBitVec ++ (v6.segments 4).toBitVec ++ (v6.segments 5).toBitVec ++
    (v6.segments 6).toBitVec ++ (v6.segments 7).toBitVec

/-! ## Spellings -/

/-- The decimal text of an octet. -/
def octetText (octet : UInt8) : Text := Nat.toDigits 10 octet.toNat

/-- The dotted-decimal text of an address. -/
def dottedDecimal (v4 : Ipv4Addr) : Text :=
  octetText v4.a ++ '.' :: octetText v4.b ++ '.' :: octetText v4.c ++ '.' :: octetText v4.d

/-- What the digits of an octet are. -/
theorem octetText_digits (octet : UInt8) :
    let digits := asBytes (octetText octet)
    (∀ byte ∈ digits, (toDigit 10 byte).isSome = true) ∧ digits.length ≤ 3 ∧
      digits.isEmpty = false ∧ (digits.head? = some 0x30 → digits.length ≤ 1) ∧
      digits.foldl (fun result byte => result * 10 + (toDigit 10 byte).getD 0) 0 = octet.toNat := by
  have hall : ∀ n < 256,
      let digits := asBytes (Nat.toDigits 10 n)
      digits.all (fun byte => (toDigit 10 byte).isSome) = true ∧ digits.length ≤ 3 ∧
        digits.isEmpty = false ∧ (digits.head? = some 0x30 → digits.length ≤ 1) ∧
        digits.foldl (fun result byte => result * 10 + (toDigit 10 byte).getD 0) 0 = n := by
    decide +kernel
  obtain ⟨hdigits, hrest⟩ := hall octet.toNat octet.toNat_lt_size
  exact ⟨List.all_eq_true.mp hdigits, hrest⟩

/-- An octet is read back from its text, whatever stands behind it but a digit. -/
theorem readOctet_octetText (octet : UInt8) {rest : Bytes}
    (hrest : ∀ byte ∈ rest.head?, toDigit 10 byte = none) :
    readOctet (asBytes (octetText octet) ++ rest) = some (octet, rest) := by
  obtain ⟨hdigits, hlength, hsome, hzero, hvalue⟩ := octetText_digits octet
  have hstop : rest.takeWhile (fun byte => (toDigit 10 byte).isSome) = [] := by
    cases rest with
    | nil => rfl
    | cons byte more => simp [hrest byte rfl]
  have htake : (asBytes (octetText octet) ++ rest).takeWhile
      (fun byte => (toDigit 10 byte).isSome) = asBytes (octetText octet) := by
    rw [List.takeWhile_append_of_pos hdigits, hstop, List.append_nil]
  have hplain : ¬(asBytes (octetText octet)).head? = some 0x30 ∨
      ¬1 < (asBytes (octetText octet)).length := by
    by_cases hhead : (asBytes (octetText octet)).head? = some 0x30
    · exact Or.inr (by have := hzero hhead; omega)
    · exact Or.inl hhead
  have hbound : octet.toNat < 256 := octet.toNat_lt_size
  rw [readOctet, readNumber]
  simp only [htake, hvalue, hsome]
  rw [if_neg (by omega), if_neg (by simp), if_neg (by rcases hplain with h | h <;> simp [h]),
    if_pos hbound]
  simp

theorem asBytes_dot (text : Text) : asBytes ('.' :: text) = 0x2E :: asBytes text := by
  rw [asBytes, List.flatMap_cons, utf8EncodeChar_ascii (by decide)]
  rfl

theorem asBytes_append (left right : Text) : asBytes (left ++ right) = asBytes left ++ asBytes right :=
  List.flatMap_append

/-- Dotted-decimal text is read as the address it spells. -/
theorem parseIpAddr_dottedDecimal (v4 : Ipv4Addr) : parseIpAddr (dottedDecimal v4) = some (.v4 v4) := by
  have hdot : ∀ rest : Bytes, ∀ byte ∈ (0x2E :: rest).head?, toDigit 10 byte = none := by
    rintro rest byte hbyte
    obtain rfl := Option.some.inj hbyte
    rfl
  have hlast : readOctet (asBytes (octetText v4.d)) = some (v4.d, []) := by
    simpa using @readOctet_octetText v4.d [] (by simp)
  have hread : readIpv4Addr (asBytes (dottedDecimal v4)) = some (v4, []) := by
    simp only [dottedDecimal, asBytes_append, asBytes_dot, readIpv4Addr, readSeparator,
      List.append_assoc, List.cons_append]
    simp [readOctet_octetText v4.a (hdot _), readOctet_octetText v4.b (hdot _),
      readOctet_octetText v4.c (hdot _), hlast, readGivenChar]
  rw [parseIpAddr, parseWith, readIpAddr, hread]

/-- No address starts with a bracket. -/
theorem parseIpAddr_bracket (text : Text) : parseIpAddr ('[' :: text) = none := by
  have hbytes : asBytes ('[' :: text) = 0x5B :: asBytes text := by
    rw [asBytes, List.flatMap_cons, utf8EncodeChar_ascii (by decide)]
    rfl
  have hnumber : ∀ radix maxDigits allowZeroPrefix bound,
      readNumber radix maxDigits allowZeroPrefix bound (0x5B :: asBytes text) = none := by
    intro radix maxDigits allowZeroPrefix bound
    have hdigit : toDigit radix 0x5B = none := rfl
    simp [readNumber, hdigit]
  have hv4 : readIpv4Addr (0x5B :: asBytes text) = none := by
    simp [readIpv4Addr, readSeparator, readOctet, hnumber]
  have hgroups : readGroups 8 (0x5B :: asBytes text) = (([], false), 0x5B :: asBytes text) := by
    simp [readGroups, readGroupsFrom, readSeparator, hv4, readGroup, hnumber]
  have hv6 : readIpv6Addr (0x5B :: asBytes text) = none := by
    simp [readIpv6Addr, hgroups, readGivenChar]
  rw [parseIpAddr, parseWith, readIpAddr, hbytes, hv4, hv6]
  rfl

end HellohqRuntime.Gate.Address
