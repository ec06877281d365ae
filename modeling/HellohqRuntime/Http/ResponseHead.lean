import HellohqRuntime.Http.StatusCodes

/-!
# The caller's response head

The first inbound frame of a call is a status line, a line for each header and at
most one reserved line with the trailer fields.  The main result is that a head
which the caller writes as documented is decoded to what it wrote.
-/

namespace HellohqRuntime.Http.ResponseHead

open HellohqRuntime.Foundation.Strings
open HellohqRuntime.Foundation.Utf8
open HellohqRuntime.Http.Handle
open HellohqRuntime.Http.Head
open HellohqRuntime.Http.StatusCodes
open HellohqRuntime.Http.Trailers
open HellohqRuntime.Http.Types

/-! ## What a caller may write -/

/-- A header that the head can carry: its name is not the reserved one, and its value
is a line that does not begin with white space. -/
structure IsResponseHeader (header : FieldName × Text) : Prop where
  token : IsToken header.1
  unreserved : eqIgnoreAsciiCase header.1 TRAILERS_HEAD_KEY = false
  oneLine : '\n' ∉ header.2
  plain : ∀ c, header.2.head? = some c → isWhitespace c = false

/-- A response of the caller. -/
structure CallerResponse where
  statusCode : UInt16
  headers : List (FieldName × Text) := []
  /-- The trailer fields, and the number of headers in front of their line. -/
  trailers : Option (Nat × List (FieldName × FieldValue)) := none
  inRange : IsStatusCode statusCode
  carried : ∀ header ∈ headers, IsResponseHeader header
  tokens : ∀ position entries, trailers = some (position, entries) →
    ∀ entry ∈ entries, IsToken entry.1

namespace CallerResponse

/-- The headers as the guest reads them. -/
def entries (response : CallerResponse) : List (FieldName × FieldValue) :=
  response.headers.map fun header => (header.1, asBytes header.2)

def trailerEntries (response : CallerResponse) : Option (List (FieldName × FieldValue)) :=
  response.trailers.map Prod.snd

end CallerResponse

def headerLine (header : FieldName × Text) : Text := header.1 ++ ':' :: ' ' :: header.2

def trailersLine (entries : List (FieldName × FieldValue)) : Text :=
  headerLine (TRAILERS_HEAD_KEY, [';'].intercalate (entries.map formatTrailer))

/-- The lines behind the status line. -/
def headLines (response : CallerResponse) : List Text :=
  match response.trailers with
  | none => response.headers.map headerLine
  | some (position, entries) =>
      (response.headers.take position).map headerLine ++
        trailersLine entries :: (response.headers.drop position).map headerLine

def statusLine (response : CallerResponse) : Text := Nat.toDigits 10 response.statusCode.toNat

/-- The head frame of a response. -/
def encodeResponseHead (response : CallerResponse) : Bytes :=
  asBytes (statusLine response ++ (headLines response).flatMap ('\n' :: ·))

/-! ## The status line -/

theorem isDigit_of_mem_toDigits {n : Nat} {c : Char} (hc : c ∈ Nat.toDigits 10 n) :
    c.isDigit = true :=
  Nat.isDigit_of_mem_toDigits (by decide) (by decide) hc

theorem isWhitespace_of_isDigit {c : Char} (hc : c.isDigit = true) : isWhitespace c = false := by
  have hrange : 0x30 ≤ c.toNat ∧ c.toNat ≤ 0x39 := by
    simpa [Char.isDigit, UInt32.le_iff_toNat_le] using hc
  simp [isWhitespace]
  omega

/-- The status line holds digits only. -/
theorem trim_statusLine (response : CallerResponse) :
    trim (statusLine response) = statusLine response :=
  trim_eq_self fun _ hc => isWhitespace_of_isDigit (isDigit_of_mem_toDigits hc)

/-- A number in decimal is read back. -/
theorem parseU16_toDigits (value : UInt16) : parseU16 (Nat.toDigits 10 value.toNat) = some value := by
  have hdigits : ∀ c ∈ Nat.toDigits 10 value.toNat, c.isDigit = true :=
    fun c => isDigit_of_mem_toDigits
  have hsome : Nat.toDigits 10 value.toNat ≠ [] := Nat.toDigits_ne_nil
  have hplus : (Nat.toDigits 10 value.toNat).head? ≠ some '+' := by
    intro hhead
    exact absurd (hdigits '+' (List.mem_of_mem_head? hhead)) (by decide)
  have hplain : ((Nat.toDigits 10 value.toNat).isEmpty ||
      (Nat.toDigits 10 value.toNat).any fun c => !c.isDigit) = false := by
    simp only [Bool.or_eq_false_iff, List.isEmpty_eq_false_iff, List.any_eq_false]
    exact ⟨hsome, fun c hc => by simp [hdigits c hc]⟩
  have hless : value.toNat < 65536 := value.toNat_lt_size
  simp only [parseU16, if_neg hplus, hplain, Nat.ofDigitChars_ten_toDigits, if_pos hless]
  simp

/-! ## The other lines -/

/-- A line with a token name and a plain value is split where it was joined. -/
theorem parseResponseLine_headerLine (head : ResponseHead) {header : FieldName × Text}
    (htoken : IsToken header.1) (hplain : ∀ c, header.2.head? = some c → isWhitespace c = false) :
    parseResponseLine head (headerLine header) =
      if eqIgnoreAsciiCase header.1 TRAILERS_HEAD_KEY then
        { head with trailers := some (parseTrailersLine header.2) }
      else { head with headers := head.headers ++ [(header.1, asBytes header.2)] } := by
  have hhttp := isHttpToken_iff.mpr htoken
  have hsplit : splitOnce ":".toList (headerLine header) = some (header.1, ' ' :: header.2) := by
    have hline : headerLine header = header.1 ++ [':'] ++ ' ' :: header.2 := by simp [headerLine]
    rw [hline]
    exact splitOnce_append (not_mem_of_isHttpToken hhttp (by decide))
  have hname : trim header.1 = header.1 := trim_eq_self fun _ => isWhitespace_of_mem_token hhttp
  have hvalue : trimStart (' ' :: header.2) = header.2 := by
    have hspace : isWhitespace ' ' = true := by decide
    rw [trimStart, List.dropWhile_cons, if_pos hspace]
    exact trimStart_eq_self hplain
  have hsome : (headerLine header).isEmpty = false := by simp [headerLine]
  simp only [parseResponseLine, hsome, hsplit, hname, hvalue]
  rfl

/-- The header lines add the headers they stand for, in order. -/
theorem foldl_headerLines (head : ResponseHead) {headers : List (FieldName × Text)}
    (hheaders : ∀ header ∈ headers, IsResponseHeader header) :
    (headers.map headerLine).foldl parseResponseLine head =
      { head with headers := head.headers ++
          headers.map fun header => (header.1, asBytes header.2) } := by
  induction headers generalizing head with
  | nil => simp
  | cons header rest ih =>
      have hheader := hheaders header List.mem_cons_self
      rw [List.map_cons, List.foldl_cons,
        parseResponseLine_headerLine head hheader.token hheader.plain, if_neg (by
          rw [hheader.unreserved]
          exact Bool.false_ne_true),
        ih _ fun other hother => hheaders other (List.mem_cons_of_mem header hother)]
      simp

/-- The formatted trailer fields have no white space in front. -/
theorem trailersText_plain {entries : List (FieldName × FieldValue)}
    (htokens : ∀ entry ∈ entries, IsToken entry.1) :
    ∀ c, ([';'].intercalate (entries.map formatTrailer)).head? = some c →
      isWhitespace c = false := by
  intro c hc
  cases entries with
  | nil => cases hc
  | cons entry rest =>
      have hhttp := isHttpToken_iff.mpr (htokens entry List.mem_cons_self)
      refine isWhitespace_of_mem_formatTrailer hhttp ?_
      obtain ⟨first, more, hname⟩ := List.exists_cons_of_ne_nil (htokens entry List.mem_cons_self).1
      have hformat : formatTrailer entry = first :: (more ++ "=".toList ++ hexEncode entry.2) := by
        simp [formatTrailer, hname]
      have hfirst : first = c := by
        cases rest with
        | nil => simpa [List.intercalate, hformat] using hc
        | cons next others => simpa [List.intercalate, hformat] using hc
      rw [hformat, hfirst]
      exact List.mem_cons_self

/-- Trailer fields with token names are read back from their text. -/
theorem parseTrailersLine_intercalate {entries : List (FieldName × FieldValue)}
    (htokens : ∀ entry ∈ entries, IsToken entry.1) :
    parseTrailersLine ([';'].intercalate (entries.map formatTrailer)) = entries := by
  have hfilter : (entries.filter fun entry => isHttpToken entry.1) = entries :=
    List.filter_eq_self.mpr fun entry hentry => isHttpToken_iff.mpr (htokens entry hentry)
  cases entries with
  | nil => rfl
  | cons entry rest =>
      have hvalue : formatRequestTrailersValue (entry :: rest) =
          some ([';'].intercalate ((entry :: rest).map formatTrailer)) := by
        rw [formatRequestTrailersValue, hfilter]
        rfl
      rw [parseTrailersLine_formatRequestTrailersValue hvalue, hfilter]

theorem isToken_trailersHeadKey : IsToken TRAILERS_HEAD_KEY := by decide

/-- The reserved line gives the trailer fields. -/
theorem parseResponseLine_trailersLine (head : ResponseHead)
    {entries : List (FieldName × FieldValue)} (htokens : ∀ entry ∈ entries, IsToken entry.1) :
    parseResponseLine head (trailersLine entries) = { head with trailers := some entries } := by
  rw [trailersLine, parseResponseLine_headerLine head isToken_trailersHeadKey
    (trailersText_plain htokens), if_pos (eqIgnoreAsciiCase_iff.mpr rfl), parseTrailersLine_intercalate htokens]

/-- All lines behind the status line, wherever the reserved one stands. -/
theorem foldl_headLines (response : CallerResponse) :
    (headLines response).foldl parseResponseLine { statusCode := response.statusCode } =
      { statusCode := response.statusCode
        headers := response.entries
        trailers := response.trailerEntries } := by
  unfold headLines CallerResponse.trailerEntries
  cases htrailers : response.trailers with
  | none =>
      rw [foldl_headerLines _ response.carried]
      rfl
  | some found =>
      obtain ⟨position, entries⟩ := found
      have hbefore : ∀ header ∈ response.headers.take position, IsResponseHeader header :=
        fun header hheader => response.carried header (List.mem_of_mem_take hheader)
      have hafter : ∀ header ∈ response.headers.drop position, IsResponseHeader header :=
        fun header hheader => response.carried header (List.mem_of_mem_drop hheader)
      rw [List.foldl_append, foldl_headerLines _ hbefore, List.foldl_cons,
        parseResponseLine_trailersLine _ (response.tokens position entries htrailers),
        foldl_headerLines _ hafter]
      simp [CallerResponse.entries]

/-! ## The whole head -/

theorem not_mem_headerLine {header : FieldName × Text} (htoken : IsToken header.1)
    (honeLine : '\n' ∉ header.2) : '\n' ∉ headerLine header := by
  have hname : '\n' ∉ header.1 :=
    not_mem_of_isHttpToken (isHttpToken_iff.mpr htoken) (by decide)
  simp [headerLine, hname, honeLine]

theorem not_mem_trailersLine {entries : List (FieldName × FieldValue)}
    (htokens : ∀ entry ∈ entries, IsToken entry.1) : '\n' ∉ trailersLine entries := by
  refine not_mem_headerLine isToken_trailersHeadKey (not_mem_intercalate (by decide) ?_)
  intro part hpart
  obtain ⟨entry, hentry, rfl⟩ := List.mem_map.mp hpart
  have hname : '\n' ∉ entry.1 :=
    not_mem_of_isHttpToken (isHttpToken_iff.mpr (htokens entry hentry)) (by decide)
  have hhex : '\n' ∉ hexEncode entry.2 := not_mem_hexEncode (by decide)
  simp [formatTrailer, hname, hhex]

theorem not_mem_headLines (response : CallerResponse) :
    ∀ line ∈ headLines response, '\n' ∉ line := by
  have hheader : ∀ header ∈ response.headers, '\n' ∉ headerLine header := fun header hmem =>
    not_mem_headerLine (response.carried header hmem).token (response.carried header hmem).oneLine
  intro line hline
  unfold headLines at hline
  cases htrailers : response.trailers with
  | none =>
      rw [htrailers] at hline
      obtain ⟨header, hmem, rfl⟩ := List.mem_map.mp hline
      exact hheader header hmem
  | some found =>
      obtain ⟨position, entries⟩ := found
      rw [htrailers] at hline
      rcases List.mem_append.mp hline with hbefore | hafter
      · obtain ⟨header, hmem, rfl⟩ := List.mem_map.mp hbefore
        exact hheader header (List.mem_of_mem_take hmem)
      · rcases List.mem_cons.mp hafter with rfl | hafter
        · exact not_mem_trailersLine (response.tokens position entries htrailers)
        · obtain ⟨header, hmem, rfl⟩ := List.mem_map.mp hafter
          exact hheader header (List.mem_of_mem_drop hmem)

/-- A head that is written as documented is decoded to what it says. -/
theorem parseResponseHead_encodeResponseHead (shown : Text) (response : CallerResponse) :
    parseResponseHead shown (encodeResponseHead response) =
      .ok { statusCode := response.statusCode
            headers := response.entries
            trailers := response.trailerEntries } := by
  have hstatus : '\n' ∉ statusLine response := by
    intro hmem
    exact absurd (isDigit_of_mem_toDigits hmem) (by decide)
  have hlines : (fromUtf8Lossy (encodeResponseHead response)).splitOn '\n' =
      statusLine response :: headLines response := by
    rw [encodeResponseHead, fromUtf8Lossy_asBytes]
    exact splitOn_lines hstatus (not_mem_headLines response)
  have hparse : parseU16 (statusLine response) = some response.statusCode :=
    parseU16_toDigits response.statusCode
  simp only [parseResponseHead, hlines, List.headD_cons, List.tail_cons, trim_statusLine, hparse,
    foldl_headLines]

end HellohqRuntime.Http.ResponseHead
