import Mathlib
import HellohqRuntime.Foundation.Utf8
import HellohqRuntime.Http.Types

/-!
# The request head

The HEAD payload is a request line, one line per header, and at most one
reserved line with the request's timeouts.  The guest sets every part of it, so
what may enter a line is checked while it is built.  The main result is that a
reader who splits the head at its delimiters gets back what the guest set.
-/

namespace HellohqRuntime.Http.Head

open HellohqRuntime.Foundation.Strings
open HellohqRuntime.Foundation.Utf8
open HellohqRuntime.Http.Types

/-! ## Tokens and request-line parts -/

/-- The bytes of an RFC 9110 `tchar`. -/
def isTchar (byte : UInt8) : Bool :=
  (0x30 ≤ byte.toNat && byte.toNat ≤ 0x39) || (0x41 ≤ byte.toNat && byte.toNat ≤ 0x5A) ||
    (0x61 ≤ byte.toNat && byte.toNat ≤ 0x7A) ||
    (asBytes "!#$%&'*+-.^_`|~".toList).contains byte

def isHttpToken (s : Text) : Bool := !s.isEmpty && (asBytes s).all isTchar

def isRequestLineSafe (s : Text) : Bool := s.all fun c => !isWhitespace c && !isControl c

/-- RFC 9110: a `token` is one or more of `tchar`, the alphanumeric characters
and fifteen marks. -/
def IsToken (s : Text) : Prop :=
  s ≠ [] ∧ ∀ c ∈ s, c.isAlphanum ∨ c ∈ "!#$%&'*+-.^_`|~".toList

instance (s : Text) : Decidable (IsToken s) :=
  show Decidable (s ≠ [] ∧ ∀ c ∈ s, c.isAlphanum ∨ c ∈ "!#$%&'*+-.^_`|~".toList) from
    @instDecidableAnd _ _ _ (List.decidableBAll _ s)

theorem isTchar_bounds {byte : UInt8} (h : isTchar byte = true) :
    0x21 ≤ byte.toNat ∧ byte.toNat ≤ 0x7E := by
  have hall : ∀ byte : UInt8, byte.toNat < 256 → isTchar byte = true →
      0x21 ≤ byte.toNat ∧ byte.toNat ≤ 0x7E :=
    forall_byte_lt (by decide +kernel)
  exact hall byte byte.toNat_lt_size h

theorem isTchar_ascii {c : Char} (hascii : c.toNat < 0x80) :
    isTchar (UInt8.ofNat c.toNat) = true ↔
      c.isAlphanum ∨ c ∈ "!#$%&'*+-.^_`|~".toList := by
  have hall : ∀ c : Char, c.toNat < 0x80 → (isTchar (UInt8.ofNat c.toNat) = true ↔
      c.isAlphanum ∨ c ∈ "!#$%&'*+-.^_`|~".toList) :=
    forall_ascii (by decide +kernel)
  exact hall c hascii

theorem isTokenChar_ascii (c : Char) (hc : c.isAlphanum ∨ c ∈ "!#$%&'*+-.^_`|~".toList) :
    c.toNat < 0x80 := by
  rcases hc with hc | hc
  · simp only [Char.isAlphanum, Char.isAlpha, Char.isUpper, Char.isLower, Char.isDigit,
      Bool.or_eq_true, Bool.and_eq_true, decide_eq_true_eq, UInt32.le_iff_toNat_le] at hc
    have htoNat : c.toNat = c.val.toNat := rfl
    have hupper : 'Z'.val.toNat = 0x5A := rfl
    have hlower : 'z'.val.toNat = 0x7A := rfl
    have hdigit : '9'.val.toNat = 0x39 := rfl
    omega
  · have hall : "!#$%&'*+-.^_`|~".toList.all (fun c => decide (c.toNat < 0x80)) = true := by decide
    simpa using List.all_eq_true.mp hall c hc

/-- The byte test of the source is membership in the token alphabet. -/
theorem isHttpToken_iff {s : Text} : isHttpToken s = true ↔ IsToken s := by
  have hascii : ∀ byte, isTchar byte = true → byte.toNat < 0x80 := fun byte hbyte => by
    have := isTchar_bounds hbyte
    omega
  have hlow : ∀ c : Char, c.isAlphanum ∨ c ∈ "!#$%&'*+-.^_`|~".toList → c.toNat < 0x80 :=
    isTokenChar_ascii
  simp only [isHttpToken, IsToken, Bool.and_eq_true, Bool.not_eq_true', List.isEmpty_eq_false_iff,
    all_asBytes_iff hascii]
  refine and_congr_right fun _ => forall₂_congr fun c _ => ?_
  constructor
  · rintro ⟨hc, htest⟩
    exact (isTchar_ascii hc).mp htest
  · intro hc
    exact ⟨hlow c hc, (isTchar_ascii (hlow c hc)).mpr hc⟩

/-- A token holds none of the delimiters, white space included. -/
theorem not_mem_of_isHttpToken {s : Text} (htoken : isHttpToken s = true) {c : Char}
    (hnot : isTchar (UInt8.ofNat c.toNat) = false) : c ∉ s := by
  intro hmem
  have hascii : ∀ byte, isTchar byte = true → byte.toNat < 0x80 := fun byte hbyte => by
    have := isTchar_bounds hbyte
    omega
  simp only [isHttpToken, Bool.and_eq_true, all_asBytes_iff hascii] at htoken
  have htest := (htoken.2 c hmem).2
  simp [hnot] at htest

theorem isRequestLineSafe_iff {s : Text} :
    isRequestLineSafe s = true ↔ ¬∃ c ∈ s, isWhitespace c = true ∨ isControl c = true := by
  simp only [isRequestLineSafe, List.all_eq_true, Bool.and_eq_true, Bool.not_eq_true', not_exists,
    not_and, not_or, Bool.not_eq_true]

/-! ## Reserved lines -/

/-- Reserved OUT head line with the request's timeouts. -/
def REQUEST_OPTIONS_HEAD_KEY : Text := "x-hellohq-request-options".toList

/-- Reserved IN head line with the response's trailer fields. -/
def TRAILERS_HEAD_KEY : Text := "x-hellohq-trailers".toList

/-- A `u64` as `format!` prints it. -/
def decimal (ns : Duration) : Text := Nat.toDigits 10 ns.toNat

/-- The parts of the options line: one `key=value` for each timeout that is set. -/
def requestOptionsParts (opts : RequestOptionsData) : List Text :=
  (opts.connectTimeout.map fun ns => "connect=".toList ++ decimal ns).toList ++
    (opts.firstByteTimeout.map fun ns => "first-byte=".toList ++ decimal ns).toList ++
    (opts.betweenBytesTimeout.map fun ns => "between-bytes=".toList ++ decimal ns).toList

/-- The reserved options line; no line where no timeout is set. -/
def formatRequestOptionsLine (opts : RequestOptionsData) : Option Text :=
  if (requestOptionsParts opts).isEmpty then none
  else some (REQUEST_OPTIONS_HEAD_KEY ++ ": ".toList ++
    ";".toList.intercalate (requestOptionsParts opts))

/-! ## The encoder -/

/-- A header that is left out: its name is no token or is reserved, or its value
would end the line. -/
def isSkippedHeader (header : FieldName × FieldValue) : Bool :=
  !isHttpToken header.1 || eqIgnoreAsciiCase header.1 REQUEST_OPTIONS_HEAD_KEY ||
    header.2.any fun b => b == 13 || b == 10 || b == 0

/-- The header loop of the encoder. -/
def pushHeaders : Text → List (FieldName × FieldValue) → Text
  | head, [] => head
  | head, (name, value) :: rest =>
      if isSkippedHeader (name, value) then pushHeaders head rest
      else pushHeaders (head ++ ['\n'] ++ name ++ ": ".toList ++ fromUtf8Lossy value) rest

/-- Build the HEAD payload from the parts the guest set. -/
def encodeRequestHead (method scheme authority path : Text)
    (headers : List (FieldName × FieldValue)) (optionsLine : Option Text) :
    Except ErrorCode Bytes :=
  if !isHttpToken method then .error .httpRequestMethodInvalid
  else if !isRequestLineSafe scheme || !isRequestLineSafe authority || !isRequestLineSafe path then
    .error .httpRequestUriInvalid
  else
    let head := pushHeaders (method ++ " ".toList ++ scheme ++ "://".toList ++ authority ++ path)
      headers
    match optionsLine with
    | none => .ok (asBytes head)
    | some line => .ok (asBytes (head ++ ['\n'] ++ line))

/-! ## The reader

What a recipient does with a head: split it into lines, the first line at its
first space, and every further line at its first `": "`. -/

structure HeadLines where
  method : Text
  uri : Text
  fields : List (Text × Text)
  deriving DecidableEq, Repr

def readHead (head : Bytes) : Option HeadLines :=
  match (fromUtf8Lossy head).splitOn '\n' with
  | [] => none
  | first :: lines =>
      match splitOnce " ".toList first, lines.mapM (splitOnce ": ".toList) with
      | some (method, uri), some fields => some { method, uri, fields }
      | _, _ => none

def readDecimal (text : Text) : Option Nat :=
  if !text.isEmpty && text.all Char.isDigit then some (Nat.ofDigitChars 10 text 0) else none

/-- The `key=value` list of an options line. -/
def readTimeouts (value : Text) : Option (List (Text × Nat)) :=
  (value.splitOn ';').mapM fun part =>
    match splitOnce "=".toList part with
    | none => none
    | some (key, digits) => (readDecimal digits).map fun ns => (key, ns)

/-- The timeouts that are set, under the keys of the options line. -/
def setTimeouts (opts : RequestOptionsData) : List (Text × Duration) :=
  (opts.connectTimeout.map fun ns => ("connect".toList, ns)).toList ++
    (opts.firstByteTimeout.map fun ns => ("first-byte".toList, ns)).toList ++
    (opts.betweenBytesTimeout.map fun ns => ("between-bytes".toList, ns)).toList

/-- A header that reaches the recipient, as the format's rules put it. -/
def IsSentHeader (header : FieldName × FieldValue) : Prop :=
  IsToken header.1 ∧
    toAsciiLowercase header.1 ≠ toAsciiLowercase REQUEST_OPTIONS_HEAD_KEY ∧
    13 ∉ header.2 ∧ 10 ∉ header.2 ∧ 0 ∉ header.2

instance (header : FieldName × FieldValue) : Decidable (IsSentHeader header) := by
  unfold IsSentHeader; infer_instance

/-! ## What the encoder writes -/

theorem isSkippedHeader_eq_false_iff {header : FieldName × FieldValue} :
    isSkippedHeader header = false ↔ IsSentHeader header := by
  have hvalue : (header.2.any fun b => b == 13 || b == 10 || b == 0) = false ↔
      13 ∉ header.2 ∧ 10 ∉ header.2 ∧ 0 ∉ header.2 := by
    simp only [List.any_eq_false, Bool.or_eq_true, beq_iff_eq, not_or]
    constructor
    · intro hall
      exact ⟨fun hmem => (hall 13 hmem).1.1 rfl, fun hmem => (hall 10 hmem).1.2 rfl,
        fun hmem => (hall 0 hmem).2 rfl⟩
    · rintro ⟨hcr, hlf, hnul⟩ b hb
      exact ⟨⟨fun heq => hcr (heq ▸ hb), fun heq => hlf (heq ▸ hb)⟩, fun heq => hnul (heq ▸ hb)⟩
  simp only [isSkippedHeader, IsSentHeader, Bool.or_eq_false_iff, Bool.not_eq_false',
    isHttpToken_iff, hvalue, and_assoc, ← eqIgnoreAsciiCase_iff, Bool.not_eq_true, ne_eq]

/-- The line of a header that is sent. -/
def headerLine (header : FieldName × FieldValue) : Text :=
  header.1 ++ ": ".toList ++ fromUtf8Lossy header.2

/-- The header loop appends one line for each header that is sent. -/
theorem pushHeaders_eq (head : Text) (headers : List (FieldName × FieldValue)) :
    pushHeaders head headers =
      head ++ ((headers.filter (IsSentHeader ·)).map headerLine).flatMap ('\n' :: ·) := by
  induction headers generalizing head with
  | nil => simp [pushHeaders]
  | cons header rest ih =>
      obtain ⟨name, value⟩ := header
      rw [pushHeaders]
      cases hskip : isSkippedHeader (name, value) with
      | true =>
          have hnot : ¬IsSentHeader (name, value) := by
            rw [← isSkippedHeader_eq_false_iff, hskip]
            simp
          rw [if_pos rfl, ih, List.filter_cons_of_neg (by simpa using hnot)]
      | false =>
          have hsent := isSkippedHeader_eq_false_iff.mp hskip
          rw [if_neg (by simp), ih, List.filter_cons_of_pos (by simpa using hsent)]
          simp [headerLine]

/-- The URI part of a request line. -/
def requestUri (scheme authority path : Text) : Text :=
  scheme ++ "://".toList ++ authority ++ path

/-- An accepted head is a request line followed by lines, none of which holds a
line feed. -/
theorem encodeRequestHead_ok {method scheme authority path : Text}
    {headers : List (FieldName × FieldValue)} {optionsLine : Option Text}
    (hmethod : IsToken method)
    (hscheme : isRequestLineSafe scheme = true) (hauthority : isRequestLineSafe authority = true)
    (hpath : isRequestLineSafe path = true) :
    encodeRequestHead method scheme authority path headers optionsLine =
      .ok (asBytes ((method ++ " ".toList ++ requestUri scheme authority path) ++
        ((headers.filter (IsSentHeader ·)).map headerLine ++ optionsLine.toList).flatMap
          ('\n' :: ·))) := by
  rw [← isHttpToken_iff] at hmethod
  rw [encodeRequestHead, if_neg (by simp [hmethod]), if_neg (by simp [hscheme, hauthority, hpath])]
  cases optionsLine with
  | none => simp [pushHeaders_eq, requestUri]
  | some line => simp [pushHeaders_eq, requestUri]

/-! ## No delimiter leaks -/

theorem not_mem_headerLine {header : FieldName × FieldValue} (hsent : IsSentHeader header) :
    '\n' ∉ headerLine header := by
  obtain ⟨hname, -, -, hlf, -⟩ := hsent
  have hnotName : '\n' ∉ header.1 :=
    not_mem_of_isHttpToken (isHttpToken_iff.mpr hname) (by decide)
  have hnotValue : '\n' ∉ fromUtf8Lossy header.2 := fun hmem =>
    hlf (mem_of_mem_fromUtf8Lossy hmem (by decide))
  simp [headerLine, hnotName, hnotValue]

/-- A sent header splits at its first `": "` into its name and its value. -/
theorem splitOnce_headerLine {header : FieldName × FieldValue} (hsent : IsSentHeader header) :
    splitOnce ": ".toList (headerLine header) = some (header.1, fromUtf8Lossy header.2) :=
  splitOnce_append (not_mem_of_isHttpToken (isHttpToken_iff.mpr hsent.1) (by decide))

theorem not_mem_of_isRequestLineSafe {s : Text} (hsafe : isRequestLineSafe s = true) {c : Char}
    (hc : isWhitespace c = true) : c ∉ s := fun hmem =>
  isRequestLineSafe_iff.mp hsafe ⟨c, hmem, Or.inl hc⟩

/-- The digits of a printed `u64`. -/
theorem isDigit_of_mem_decimal {ns : Duration} {c : Char} (hc : c ∈ decimal ns) :
    c.isDigit = true :=
  Nat.isDigit_of_mem_toDigits (by decide) (by decide) hc

theorem not_mem_decimal {ns : Duration} {c : Char} (hc : c.isDigit = false) : c ∉ decimal ns :=
  fun hmem => by simp [isDigit_of_mem_decimal hmem] at hc

@[simp] theorem readDecimal_decimal (ns : Duration) : readDecimal (decimal ns) = some ns.toNat := by
  have hdigits : (!(decimal ns).isEmpty && (decimal ns).all Char.isDigit) = true := by
    rw [Bool.and_eq_true, Bool.not_eq_true', List.isEmpty_eq_false_iff, List.all_eq_true]
    exact ⟨Nat.toDigits_ne_nil, fun c hc => isDigit_of_mem_decimal hc⟩
  rw [readDecimal, if_pos hdigits, decimal, Nat.ofDigitChars_ten_toDigits]

/-! ## The options line -/

def timeoutPart (timeout : Text × Duration) : Text :=
  timeout.1 ++ "=".toList ++ decimal timeout.2

theorem requestOptionsParts_eq (opts : RequestOptionsData) :
    requestOptionsParts opts = (setTimeouts opts).map timeoutPart := by
  obtain ⟨connect, firstByte, betweenBytes, immutable⟩ := opts
  cases connect <;> cases firstByte <;> cases betweenBytes <;> rfl

/-- The keys of the options line, which hold no delimiter. -/
theorem mem_setTimeouts {opts : RequestOptionsData} {timeout : Text × Duration}
    (hmem : timeout ∈ setTimeouts opts) :
    timeout.1 ∈ ["connect".toList, "first-byte".toList, "between-bytes".toList] := by
  simp only [setTimeouts, List.mem_append, Option.mem_toList, Option.map_eq_some_iff] at hmem
  rcases hmem with (⟨ns, -, rfl⟩ | ⟨ns, -, rfl⟩) | ⟨ns, -, rfl⟩ <;> simp

theorem not_mem_timeoutPart {opts : RequestOptionsData} {timeout : Text × Duration}
    (hmem : timeout ∈ setTimeouts opts) {c : Char} (hc : c = ';' ∨ c = '\n') :
    c ∉ timeoutPart timeout := by
  have hkeys : ∀ key ∈ ["connect".toList, "first-byte".toList, "between-bytes".toList],
      ';' ∉ key ∧ '\n' ∉ key := by decide
  have hkey := hkeys _ (mem_setTimeouts hmem)
  have hdigits : c ∉ decimal timeout.2 := not_mem_decimal (by rcases hc with rfl | rfl <;> rfl)
  rcases hc with rfl | rfl
  · simp [timeoutPart, hkey.1, hdigits]
  · simp [timeoutPart, hkey.2, hdigits]

theorem splitOnce_timeoutPart {opts : RequestOptionsData} {timeout : Text × Duration}
    (hmem : timeout ∈ setTimeouts opts) :
    splitOnce "=".toList (timeoutPart timeout) = some (timeout.1, decimal timeout.2) := by
  have hkeys : ∀ key ∈ ["connect".toList, "first-byte".toList, "between-bytes".toList],
      '=' ∉ key := by decide
  exact splitOnce_append (hkeys _ (mem_setTimeouts hmem))

/-- The value of the options line gives back the timeouts that are set. -/
theorem readTimeouts_intercalate {opts : RequestOptionsData} (hset : setTimeouts opts ≠ []) :
    readTimeouts (";".toList.intercalate (requestOptionsParts opts)) =
      some ((setTimeouts opts).map fun timeout => (timeout.1, timeout.2.toNat)) := by
  rw [requestOptionsParts_eq, readTimeouts]
  have hparts : ∀ part ∈ (setTimeouts opts).map timeoutPart, ';' ∉ part := by
    intro part hpart
    obtain ⟨timeout, htimeout, rfl⟩ := List.mem_map.mp hpart
    exact not_mem_timeoutPart htimeout (Or.inl rfl)
  have hlist : ";".toList = [';'] := rfl
  rw [hlist, List.splitOn_intercalate ';' hparts (by simpa using hset)]
  refine mapM_eq_some_map fun timeout htimeout => ?_
  simp only [splitOnce_timeoutPart htimeout, readDecimal_decimal, Option.map_some]

/-- The options line in the form the reader meets it. -/
theorem formatRequestOptionsLine_eq (opts : RequestOptionsData) :
    formatRequestOptionsLine opts =
      if setTimeouts opts = [] then none
      else some (REQUEST_OPTIONS_HEAD_KEY ++ ": ".toList ++
        ";".toList.intercalate (requestOptionsParts opts)) := by
  rw [formatRequestOptionsLine]
  by_cases hset : setTimeouts opts = []
  · simp [requestOptionsParts_eq, hset]
  · rw [if_neg (by simpa [requestOptionsParts_eq] using hset), if_neg hset]

theorem not_mem_optionsLine {opts : RequestOptionsData} {line : Text}
    (hline : formatRequestOptionsLine opts = some line) : '\n' ∉ line := by
  rw [formatRequestOptionsLine_eq] at hline
  split at hline
  · simp at hline
  · obtain rfl := Option.some.inj hline
    have hkey : '\n' ∉ REQUEST_OPTIONS_HEAD_KEY ++ ": ".toList := by decide
    have hvalue : '\n' ∉ ";".toList.intercalate (requestOptionsParts opts) := by
      refine not_mem_intercalate (by decide) fun part hpart => ?_
      rw [requestOptionsParts_eq] at hpart
      obtain ⟨timeout, htimeout, rfl⟩ := List.mem_map.mp hpart
      exact not_mem_timeoutPart htimeout (Or.inr rfl)
    rw [List.mem_append, not_or]
    exact ⟨hkey, hvalue⟩

/-! ## Decode after encode -/

/-- The lines of an accepted head come back one by one. -/
theorem readHead_lines {method uri : Text} {lines : List Text} {fields : List (Text × Text)}
    (hmethod : ' ' ∉ method) (hmethodLine : '\n' ∉ method) (huri : '\n' ∉ uri)
    (hlines : ∀ line ∈ lines, '\n' ∉ line)
    (hfields : lines.mapM (splitOnce ": ".toList) = some fields) :
    readHead (asBytes ((method ++ " ".toList ++ uri) ++ lines.flatMap ('\n' :: ·))) =
      some { method, uri, fields } := by
  have hfirst : '\n' ∉ method ++ " ".toList ++ uri := by simp [hmethodLine, huri]
  have hsplit : splitOnce " ".toList (method ++ " ".toList ++ uri) = some (method, uri) :=
    splitOnce_append hmethod
  rw [readHead, fromUtf8Lossy_asBytes, splitOn_lines hfirst hlines]
  simp only [hsplit, hfields]

theorem isRequestLineSafe_parts {scheme authority path : Text} :
    (isRequestLineSafe scheme = true ∧ isRequestLineSafe authority = true ∧
        isRequestLineSafe path = true) ↔
      ¬∃ c ∈ scheme ++ authority ++ path, isWhitespace c = true ∨ isControl c = true := by
  rw [← isRequestLineSafe_iff]
  simp only [isRequestLineSafe, List.all_append, Bool.and_eq_true, and_assoc]

/-- The header lines read back as the sent headers. -/
theorem mapM_headerLines (headers : List (FieldName × FieldValue)) :
    ((headers.filter (IsSentHeader ·)).map headerLine).mapM (splitOnce ": ".toList) =
      some ((headers.filter (IsSentHeader ·)).map
        fun header => (header.1, fromUtf8Lossy header.2)) :=
  mapM_eq_some_map fun header hheader =>
    splitOnce_headerLine (by simpa using (List.mem_filter.mp hheader).2)

/-- The options line reads back as one field under the reserved name. -/
theorem mapM_optionsLine (opts : RequestOptionsData) :
    ∃ optionFields,
      (formatRequestOptionsLine opts).toList.mapM (splitOnce ": ".toList) = some optionFields ∧
      if setTimeouts opts = [] then optionFields = []
      else ∃ value, optionFields = [(REQUEST_OPTIONS_HEAD_KEY, value)] ∧
        readTimeouts value =
          some ((setTimeouts opts).map fun timeout => (timeout.1, timeout.2.toNat)) := by
  rw [formatRequestOptionsLine_eq]
  by_cases hset : setTimeouts opts = []
  · rw [if_pos hset]
    exact ⟨[], rfl, by rw [if_pos hset]⟩
  · have hsplit : splitOnce ": ".toList (REQUEST_OPTIONS_HEAD_KEY ++ ": ".toList ++
        ";".toList.intercalate (requestOptionsParts opts)) =
          some (REQUEST_OPTIONS_HEAD_KEY, ";".toList.intercalate (requestOptionsParts opts)) :=
      splitOnce_append (by decide)
    rw [if_neg hset, Option.toList_some, List.mapM_cons]
    refine ⟨[(REQUEST_OPTIONS_HEAD_KEY, ";".toList.intercalate (requestOptionsParts opts))],
      ?_, ?_⟩
    · rw [hsplit]
      rfl
    · rw [if_neg hset]
      exact ⟨_, rfl, readTimeouts_intercalate hset⟩

/-- No line of an accepted head holds a line feed. -/
theorem not_mem_headLines {headers : List (FieldName × FieldValue)} {opts : RequestOptionsData}
    {line : Text}
    (hmem : line ∈ (headers.filter (IsSentHeader ·)).map headerLine ++
      (formatRequestOptionsLine opts).toList) : '\n' ∉ line := by
  rcases List.mem_append.mp hmem with hmem | hmem
  · obtain ⟨header, hheader, rfl⟩ := List.mem_map.mp hmem
    exact not_mem_headerLine (by simpa using (List.mem_filter.mp hheader).2)
  · exact not_mem_optionsLine (Option.mem_toList.mp hmem)

theorem not_mem_requestUri {scheme authority path : Text} (hscheme : isRequestLineSafe scheme = true)
    (hauthority : isRequestLineSafe authority = true) (hpath : isRequestLineSafe path = true) :
    '\n' ∉ requestUri scheme authority path := by
  have hslashes : '\n' ∉ "://".toList := by decide
  simp only [requestUri, List.mem_append, not_or]
  exact ⟨⟨⟨not_mem_of_isRequestLineSafe hscheme rfl, hslashes⟩,
    not_mem_of_isRequestLineSafe hauthority rfl⟩, not_mem_of_isRequestLineSafe hpath rfl⟩

/-- The encoder refuses exactly a method that is no token and a scheme,
authority or path with white space or a control character.  What it accepts is
read back: the method, the URI, the headers that are sent in order, and one
final options line exactly when a timeout is set. -/
theorem readHead_encodeRequestHead (method scheme authority path : Text)
    (headers : List (FieldName × FieldValue)) (opts : RequestOptionsData) :
    match encodeRequestHead method scheme authority path headers
        (formatRequestOptionsLine opts) with
    | .error _ =>
        ¬IsToken method ∨
          ∃ c ∈ scheme ++ authority ++ path, isWhitespace c = true ∨ isControl c = true
    | .ok head =>
        IsToken method ∧
          (¬∃ c ∈ scheme ++ authority ++ path, isWhitespace c = true ∨ isControl c = true) ∧
          ∃ optionFields,
            readHead head = some
              { method
                uri := scheme ++ "://".toList ++ authority ++ path
                fields := (headers.filter (IsSentHeader ·)).map
                  (fun header => (header.1, fromUtf8Lossy header.2)) ++ optionFields } ∧
            if setTimeouts opts = [] then optionFields = []
            else ∃ value, optionFields = [(REQUEST_OPTIONS_HEAD_KEY, value)] ∧
              readTimeouts value =
                some ((setTimeouts opts).map fun timeout => (timeout.1, timeout.2.toNat)) := by
  by_cases hmethod : IsToken method
  · have htoken := isHttpToken_iff.mpr hmethod
    by_cases hsafe : isRequestLineSafe scheme = true ∧ isRequestLineSafe authority = true ∧
        isRequestLineSafe path = true
    · obtain ⟨optionFields, hoptions, hvalue⟩ := mapM_optionsLine opts
      rw [encodeRequestHead_ok hmethod hsafe.1 hsafe.2.1 hsafe.2.2]
      refine ⟨hmethod, isRequestLineSafe_parts.mp hsafe, optionFields, ?_, hvalue⟩
      refine readHead_lines (not_mem_of_isHttpToken htoken (by decide))
        (not_mem_of_isHttpToken htoken (by decide))
        (not_mem_requestUri hsafe.1 hsafe.2.1 hsafe.2.2) (fun line => not_mem_headLines) ?_
      rw [List.mapM_append, mapM_headerLines, hoptions]
      rfl
    · have hbad := not_not.mp (mt isRequestLineSafe_parts.mpr hsafe)
      rw [encodeRequestHead, if_neg (by simp [htoken]), if_pos]
      · exact Or.inr hbad
      · simp only [not_and_or, Bool.not_eq_true] at hsafe
        simpa [or_assoc] using hsafe
  · rw [encodeRequestHead, if_pos]
    · exact Or.inl hmethod
    · simpa using mt isHttpToken_iff.mp hmethod

end HellohqRuntime.Http.Head
