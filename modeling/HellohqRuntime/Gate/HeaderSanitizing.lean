import HellohqRuntime.Gate.GatedHooks

/-!
# The header policy on lists

The policy is stated, and tested, as a filter of lists of headers that trims and
lower-cases their names.  What the gate enforces is a removal of keys from header
maps.  On the pairs of a map the two keep the same headers and drop as many.
-/

namespace HellohqRuntime.Gate.HeaderSanitizing

open HellohqRuntime.Foundation
open HellohqRuntime.Foundation.Strings
open HellohqRuntime.Foundation.Buckets
open HellohqRuntime.Gate.GatedHooks
open HellohqRuntime.Gate.RequestPolicy
open HellohqRuntime.Http.Types

variable {V : Type}

/-! ## The filters -/

structure SanitizedHeaders (V : Type) where
  /-- The headers that will be sent, with lower-case names. -/
  headers : List (Text × V) := []
  dropped : Nat := 0
  /-- A dropped header matched a credential pattern. -/
  droppedCredential : Bool := false
  deriving DecidableEq, Repr

/-- The loop body of the filter. -/
def sanitizeHeader (out : SanitizedHeaders V) (header : Text × V) : SanitizedHeaders V :=
  let n := toAsciiLowercase (trim header.1)
  if isAllowedRequestHeader n then { out with headers := out.headers ++ [(n, header.2)] }
  else
    { out with
      dropped := out.dropped + 1
      droppedCredential := if isCredentialHeaderName n then true else out.droppedCredential }

def sanitizeRequestHeaders (headers : List (Text × V)) : SanitizedHeaders V :=
  headers.foldl sanitizeHeader {}

def sanitizeResponseHeaders (headers : List (Text × V)) : List (Text × V) :=
  headers.filter fun header => !isStrippedResponseHeader header.1

/-! ## Names in the normal form of the predicates -/

/-- A header with its name trimmed and in lower case. -/
def normalize (header : Text × V) : Text × V := (toAsciiLowercase (trim header.1), header.2)

theorem normal_idem (name : Text) :
    toAsciiLowercase (trim (toAsciiLowercase (trim name))) = toAsciiLowercase (trim name) := by
  rw [trim_toAsciiLowercase, trim_trim]
  simp [toAsciiLowercase]

theorem isCredentialHeaderName_normal (name : Text) :
    isCredentialHeaderName (toAsciiLowercase (trim name)) = isCredentialHeaderName name := by
  simp only [isCredentialHeaderName, normal_idem]

theorem isAllowedRequestHeader_normal (name : Text) :
    isAllowedRequestHeader (toAsciiLowercase (trim name)) = isAllowedRequestHeader name := by
  simp only [isAllowedRequestHeader, normal_idem]

/-- An allowed name looks like no credential. -/
theorem not_credential_of_allowed {name : Text} (hallowed : isAllowedRequestHeader name = true) :
    isCredentialHeaderName name = false := by
  simp only [isAllowedRequestHeader, Bool.and_eq_true, Bool.not_eq_true'] at hallowed
  rw [← isCredentialHeaderName_normal]
  exact hallowed.2

/-- No allowed name is the reserved one. -/
theorem not_reserved_of_allowed {name : Text} (hallowed : isAllowedRequestHeader name = true) :
    isReservedCredentialHeader name = false := by
  simp only [isAllowedRequestHeader, Bool.and_eq_true, List.contains_iff_mem] at hallowed
  rw [Bool.eq_false_iff]
  intro hreserved
  rw [isReservedCredentialHeader, eqIgnoreAsciiCase_iff] at hreserved
  rw [hreserved] at hallowed
  exact absurd hallowed.1 (by decide)

/-! ## What the filter of requests does -/

/-- The loop keeps the allowed headers in order, and counts the others. -/
theorem foldl_sanitizeHeader (headers : List (Text × V)) (out : SanitizedHeaders V) :
    headers.foldl sanitizeHeader out =
      { headers := out.headers ++
          (headers.filter fun header => isAllowedRequestHeader header.1).map normalize
        dropped := out.dropped +
          (headers.filter fun header => !isAllowedRequestHeader header.1).length
        droppedCredential := out.droppedCredential || headers.any fun header =>
          !isAllowedRequestHeader header.1 && isCredentialHeaderName header.1 } := by
  induction headers generalizing out with
  | nil => simp
  | cons header rest ih =>
      rw [List.foldl_cons, ih, sanitizeHeader]
      simp only [isAllowedRequestHeader_normal, isCredentialHeaderName_normal]
      cases hallowed : isAllowedRequestHeader header.1 with
      | true => simp [hallowed, normalize]
      | false =>
          cases hcredential : isCredentialHeaderName header.1 with
          | true => simp [hallowed, hcredential, Nat.add_assoc, Nat.add_comm 1]
          | false => simp [hallowed, hcredential, Nat.add_assoc, Nat.add_comm 1]

theorem sanitizeRequestHeaders_eq (headers : List (Text × V)) :
    sanitizeRequestHeaders headers =
      { headers := (headers.filter fun header => isAllowedRequestHeader header.1).map normalize
        dropped := (headers.filter fun header => !isAllowedRequestHeader header.1).length
        droppedCredential := headers.any fun header =>
          !isAllowedRequestHeader header.1 && isCredentialHeaderName header.1 } := by
  rw [sanitizeRequestHeaders, foldl_sanitizeHeader]
  simp

/-- Every header is kept or counted. -/
theorem length_add_dropped (headers : List (Text × V)) :
    (sanitizeRequestHeaders headers).headers.length + (sanitizeRequestHeaders headers).dropped =
      headers.length := by
  rw [sanitizeRequestHeaders_eq, List.length_map]
  exact (List.length_eq_length_filter_add fun header : Text × V =>
    isAllowedRequestHeader header.1).symm

theorem droppedCredential_iff (headers : List (Text × V)) :
    (sanitizeRequestHeaders headers).droppedCredential = true ↔
      ∃ header ∈ headers, isAllowedRequestHeader header.1 = false ∧
        isCredentialHeaderName header.1 = true := by
  rw [sanitizeRequestHeaders_eq, List.any_eq_true]
  simp

theorem allowed_of_mem {headers : List (Text × V)} {header : Text × V}
    (hmem : header ∈ (sanitizeRequestHeaders headers).headers) :
    isAllowedRequestHeader header.1 = true := by
  rw [sanitizeRequestHeaders_eq] at hmem
  obtain ⟨before, hbefore, rfl⟩ := List.mem_map.mp hmem
  rw [normalize, isAllowedRequestHeader_normal]
  exact (List.mem_filter.mp hbefore).2

/-- The output goes through unchanged. -/
theorem sanitizeRequestHeaders_idem (headers : List (Text × V)) :
    sanitizeRequestHeaders (sanitizeRequestHeaders headers).headers =
      { headers := (sanitizeRequestHeaders headers).headers
        dropped := 0
        droppedCredential := false } := by
  have hkept : ∀ header ∈ (sanitizeRequestHeaders headers).headers,
      isAllowedRequestHeader header.1 = true := fun header => allowed_of_mem
  have hnormal : (sanitizeRequestHeaders headers).headers.map normalize =
      (sanitizeRequestHeaders headers).headers := by
    rw [sanitizeRequestHeaders_eq, List.map_map]
    apply List.map_congr_left
    intro header _
    simp only [Function.comp_apply, normalize, normal_idem]
  rw [sanitizeRequestHeaders_eq, SanitizedHeaders.mk.injEq]
  refine ⟨?_, ?_, ?_⟩
  · rw [List.filter_eq_self.mpr hkept, hnormal]
  · rw [List.length_eq_zero_iff, List.filter_eq_nil_iff]
    intro header hheader
    simp [hkept header hheader]
  · rw [List.any_eq_false]
    intro header hheader
    simp [hkept header hheader]

/-! ## On the pairs of a header map -/

/-- The pairs of a map, each with the text of its name. -/
def textPairs (headers : HeaderMap) : List (Text × FieldValue) :=
  headers.pairs.map fun pair => (pair.1.text, pair.2)

theorem length_textPairs (headers : HeaderMap) : (textPairs headers).length = headers.count := by
  rw [textPairs, List.length_map, Multimap.length_pairs]

/-- A text names one header at most. -/
theorem valuesOf_text (pairs : List (HeaderName × FieldValue)) (name : HeaderName) :
    FlatMultimap.valuesOf id (pairs.map fun pair => (pair.1.text, pair.2)) name.text =
      FlatMultimap.valuesOf id pairs name := by
  simp only [FlatMultimap.valuesOf, List.filter_map, List.map_map]
  have hfilter : pairs.filter ((fun entry : Text × FieldValue => decide (id entry.1 = name.text)) ∘
      fun pair : HeaderName × FieldValue => (pair.1.text, pair.2)) =
      pairs.filter fun pair => decide (id pair.1 = name) := by
    apply List.filter_congr
    intro pair _
    simp [HeaderName.ext_iff]
  rw [hfilter]
  rfl

/-- On names of a header map the filter of requests only filters. -/
theorem headers_sanitizeRequestHeaders (headers : HeaderMap) :
    (sanitizeRequestHeaders (textPairs headers)).headers =
      (headers.pairs.filter fun pair => isAllowedRequestHeader pair.1.text).map
        fun pair => (pair.1.text, pair.2) := by
  rw [sanitizeRequestHeaders_eq, textPairs, List.filter_map, List.map_map]
  apply List.map_congr_left
  intro pair _
  simp only [Function.comp_apply, normalize, pair.1.normal]

theorem sanitizeResponseHeaders_textPairs (headers : HeaderMap) :
    sanitizeResponseHeaders (textPairs headers) =
      (headers.pairs.filter fun pair => !isStrippedResponseHeader pair.1.text).map
        fun pair => (pair.1.text, pair.2) := by
  rw [sanitizeResponseHeaders, textPairs, List.filter_map]
  rfl

/-- The values of a name among the pairs that a test of names keeps. -/
theorem valuesOf_keptPairs (headers : HeaderMap) (keeps : Text → Bool) (name : HeaderName) :
    FlatMultimap.valuesOf id (headers.pairs.filter fun pair => keeps pair.1.text) name =
      if keeps name.text then headers.getAll name else [] := by
  have hfilter := FlatMultimap.valuesOf_filter (fun name : HeaderName => keeps name.text)
    headers.pairs name
  rw [hfilter, Multimap.valuesOf_pairs]

/-- A map that holds what a test of names keeps of another has the kept pairs. -/
theorem perm_textPairs {headers kept : HeaderMap} {keeps : Text → Bool}
    (hvalues : ∀ name, kept.getAll name = if keeps name.text then headers.getAll name else []) :
    (textPairs kept).Perm ((headers.pairs.filter fun pair => keeps pair.1.text).map
      fun pair => (pair.1.text, pair.2)) := by
  apply List.Perm.map
  apply FlatMultimap.perm_of_valuesOf
  intro name
  rw [Multimap.valuesOf_pairs, hvalues, valuesOf_keptPairs]

theorem perm_retainAllowedRequestHeaders (headers : HeaderMap) :
    (textPairs (retainAllowedRequestHeaders headers).2).Perm
      (sanitizeRequestHeaders (textPairs headers)).headers := by
  rw [headers_sanitizeRequestHeaders]
  exact perm_textPairs (getAll_retainAllowedRequestHeaders headers)

/-- The removal drops as many values as the filter drops headers. -/
theorem dropped_retainAllowedRequestHeaders (headers : HeaderMap) :
    (retainAllowedRequestHeaders headers).1 = (sanitizeRequestHeaders (textPairs headers)).dropped := by
  have hkept := (perm_retainAllowedRequestHeaders headers).length_eq
  have htotal := length_add_dropped (textPairs headers)
  have hcount := count_retainAllowedRequestHeaders headers
  rw [length_textPairs] at hkept htotal
  omega

theorem getAll_retain_eq_valuesOf (headers : HeaderMap) (name : HeaderName) :
    (retainAllowedRequestHeaders headers).2.getAll name =
      FlatMultimap.valuesOf id (sanitizeRequestHeaders (textPairs headers)).headers name.text := by
  rw [headers_sanitizeRequestHeaders, valuesOf_text, valuesOf_keptPairs,
    getAll_retainAllowedRequestHeaders]

theorem getAll_strip (headers : HeaderMap) (name : HeaderName) :
    (stripResponseHeaders headers).getAll name =
      if !isStrippedResponseHeader name.text then headers.getAll name else [] := by
  rw [getAll_stripResponseHeaders]
  cases isStrippedResponseHeader name.text <;> rfl

theorem perm_stripResponseHeaders (headers : HeaderMap) :
    (textPairs (stripResponseHeaders headers)).Perm
      (sanitizeResponseHeaders (textPairs headers)) := by
  rw [sanitizeResponseHeaders_textPairs]
  exact @perm_textPairs headers _ (fun text => !isStrippedResponseHeader text) (getAll_strip headers)

theorem getAll_strip_eq_valuesOf (headers : HeaderMap) (name : HeaderName) :
    (stripResponseHeaders headers).getAll name =
      FlatMultimap.valuesOf id (sanitizeResponseHeaders (textPairs headers)) name.text := by
  rw [sanitizeResponseHeaders_textPairs, valuesOf_text, getAll_strip]
  exact (valuesOf_keptPairs headers (fun text => !isStrippedResponseHeader text) name).symm

/-- The tested policy is the enforced one, and partitions what it is given. -/
theorem header_policy_enforced :
    (∀ headers : HeaderMap,
      (textPairs (retainAllowedRequestHeaders headers).2).Perm
        (sanitizeRequestHeaders (textPairs headers)).headers ∧
      (∀ name, (retainAllowedRequestHeaders headers).2.getAll name =
        FlatMultimap.valuesOf id (sanitizeRequestHeaders (textPairs headers)).headers name.text) ∧
      (retainAllowedRequestHeaders headers).1 =
        (sanitizeRequestHeaders (textPairs headers)).dropped ∧
      (textPairs (stripResponseHeaders headers)).Perm
        (sanitizeResponseHeaders (textPairs headers)) ∧
      ∀ name, (stripResponseHeaders headers).getAll name =
        FlatMultimap.valuesOf id (sanitizeResponseHeaders (textPairs headers)) name.text) ∧
    ∀ (V : Type) (headers : List (Text × V)),
      (sanitizeRequestHeaders headers).headers.length + (sanitizeRequestHeaders headers).dropped =
        headers.length ∧
      (sanitizeRequestHeaders headers).headers =
        (headers.filter fun header => isAllowedRequestHeader header.1).map normalize ∧
      ((sanitizeRequestHeaders headers).droppedCredential = true ↔
        ∃ header ∈ headers, isAllowedRequestHeader header.1 = false ∧
          isCredentialHeaderName header.1 = true) ∧
      (∀ header ∈ (sanitizeRequestHeaders headers).headers,
        isCredentialHeaderName header.1 = false ∧ isReservedCredentialHeader header.1 = false) ∧
      sanitizeRequestHeaders (sanitizeRequestHeaders headers).headers =
        { headers := (sanitizeRequestHeaders headers).headers
          dropped := 0
          droppedCredential := false } := by
  constructor
  · intro headers
    exact ⟨perm_retainAllowedRequestHeaders headers, getAll_retain_eq_valuesOf headers,
      dropped_retainAllowedRequestHeaders headers, perm_stripResponseHeaders headers,
      getAll_strip_eq_valuesOf headers⟩
  · intro V headers
    refine ⟨length_add_dropped headers, ?_, droppedCredential_iff headers, ?_,
      sanitizeRequestHeaders_idem headers⟩
    · rw [sanitizeRequestHeaders_eq]
    · intro header hheader
      have hallowed := allowed_of_mem hheader
      exact ⟨not_credential_of_allowed hallowed, not_reserved_of_allowed hallowed⟩

end HellohqRuntime.Gate.HeaderSanitizing
