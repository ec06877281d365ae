import HellohqRuntime.Gate.Scrubbing

/-!
# What a sanitized response hides

Two results of the sender are the same to a guest where they differ only in what the
host takes off: the stripped headers, and the texts that the scrubber blanks.  On
errors this is exact.  The removal of a header moves the last one into its place, so
that a header was there at all is hidden where it stood behind the others.
-/

namespace HellohqRuntime.Gate.Hiding

open HellohqRuntime.Foundation.Buckets
open HellohqRuntime.Foundation.Strings
open HellohqRuntime.Gate.GatedHooks
open HellohqRuntime.Gate.RequestPolicy
open HellohqRuntime.Gate.Scrubbing
open HellohqRuntime.Http.Types

variable {α ResponseParts Frame : Type}

/-! ## Errors -/

/-- Two errors of one kind, with the same numbers.  An error that names a field or a
coding is like itself only. -/
def AlikeErrors (err other : HttpError) : Prop :=
  err = other ∨
    (namesFieldOrCoding err = false ∧ namesFieldOrCoding other = false ∧
      kindOf err = kindOf other)

/-- Of an error that names no field and no coding the guest reads the kind. -/
theorem scrubError_eq_kindOf {err : HttpError} (hnames : namesFieldOrCoding err = false) :
    scrubError err = kindOf err := by
  have htextless := (texts_scrubError_iff err).mpr hnames
  cases err with
  | connect e => rfl
  | code code =>
      cases code with
      | httpRequestHeaderSize field | httpRequestTrailerSize field | httpResponseHeaderSize field
      | httpResponseTrailerSize field | httpResponseTransferCoding coding
      | httpResponseContentCoding coding =>
          simp only [scrubError, texts] at htextless
          simp only [scrubError, kindOf, withoutTexts_eq_self_iff.mpr htextless]
      | _ => rfl

theorem scrubError_of_names {err : HttpError} (hnames : namesFieldOrCoding err = true) :
    scrubError err = err := by
  cases err with
  | connect e => cases hnames
  | code code =>
      cases code with
      | internalError message | dnsError payload | tlsAlertReceived payload => cases hnames
      | _ => rfl

/-- A guest cannot tell two errors apart exactly if they are alike. -/
theorem scrubError_eq_iff {err other : HttpError} :
    scrubError err = scrubError other ↔ AlikeErrors err other := by
  constructor
  · intro hsame
    have hnames : namesFieldOrCoding err = false ↔ namesFieldOrCoding other = false := by
      rw [← texts_scrubError_iff, ← texts_scrubError_iff, hsame]
    cases herr : namesFieldOrCoding err with
    | true =>
        have hother : namesFieldOrCoding other = true := by simpa [herr] using hnames
        rw [scrubError_of_names herr, scrubError_of_names hother] at hsame
        exact .inl hsame
    | false =>
        refine .inr ⟨herr, hnames.mp herr, ?_⟩
        rw [← kindOf_scrubError err, hsame, kindOf_scrubError]
  · rintro (rfl | ⟨herr, hother, hkind⟩)
    · rfl
    · rw [scrubError_eq_kindOf herr, scrubError_eq_kindOf hother, hkind]

/-- The same value, or errors that are alike. -/
inductive AlikeOutcomes : Except HttpError α → Except HttpError α → Prop where
  | ok (value : α) : AlikeOutcomes (.ok value) (.ok value)
  | error {err other : HttpError} (halike : AlikeErrors err other) :
      AlikeOutcomes (.error err) (.error other)

theorem mapError_scrubError_eq_iff {outcome other : Except HttpError α} :
    outcome.mapError scrubError = other.mapError scrubError ↔ AlikeOutcomes outcome other := by
  constructor
  · intro hsame
    cases outcome with
    | ok value =>
        cases other with
        | ok same =>
            obtain rfl := Except.ok.inj hsame
            exact .ok value
        | error err => cases hsame
    | error err =>
        cases other with
        | ok value => cases hsame
        | error wrong => exact .error (scrubError_eq_iff.mp (Except.error.inj hsame))
  · intro halike
    cases halike with
    | ok value => rfl
    | error halike => exact congrArg Except.error (scrubError_eq_iff.mpr halike)

theorem map_scrubbed_eq_iff {body other : List (Except HttpError Frame)} :
    (body.map fun frame => frame.mapError scrubError) =
        (other.map fun frame => frame.mapError scrubError) ↔
      List.Forall₂ AlikeOutcomes body other := by
  rw [← List.forall₂_eq_eq_eq, List.forall₂_map_left_iff, List.forall₂_map_right_iff]
  simp only [mapError_scrubError_eq_iff]

/-! ## Headers -/

/-- The headers, with nothing under the names that are stripped. -/
def blankStripped (headers : HeaderMap) : HeaderMap :=
  headers.mapValues fun name values => if isStrippedResponseHeader name.text then [] else values

theorem removeText_mapValues (f : HeaderName → List FieldValue → List FieldValue)
    (headers : HeaderMap) (text : Text) :
    removeText (headers.mapValues f) text = (removeText headers text).mapValues f := by
  rw [removeText, removeText, Multimap.keys_mapValues]
  cases headers.keys.find? fun name => name.text = text with
  | none => rfl
  | some name => exact Multimap.remove_mapValues f headers name

theorem removeTexts_mapValues (f : HeaderName → List FieldValue → List FieldValue)
    (texts : List Text) (headers : HeaderMap) :
    texts.foldl removeText (headers.mapValues f) = (texts.foldl removeText headers).mapValues f := by
  induction texts generalizing headers with
  | nil => rfl
  | cons text rest ih => rw [List.foldl_cons, List.foldl_cons, removeText_mapValues, ih]

/-- What a stripped header holds makes no difference. -/
theorem stripResponseHeaders_blankStripped (headers : HeaderMap) :
    stripResponseHeaders (blankStripped headers) = stripResponseHeaders headers := by
  rw [stripResponseHeaders, blankStripped, removeTexts_mapValues]
  apply Multimap.mapValues_eq_self
  intro name hname values
  rw [((mem_keys_stripResponseHeaders headers name).mp hname).2]
  rfl

abbrev HeaderBucket := HeaderName × List FieldValue

/-- A bucket of a header that is stripped. -/
def StrippedBucket (bucket : HeaderBucket) : Prop := isStrippedResponseHeader bucket.1.text = true

/-- Behind the headers that stay, the removal of a stripped one moves none of them. -/
theorem removeText_behind {headers : HeaderMap} {kept cookies : List HeaderBucket} {text : Text}
    (hbuckets : headers.buckets = kept ++ cookies)
    (hkept : ∀ bucket ∈ kept, ¬StrippedBucket bucket) (htext : text ∈ STRIPPED_RESPONSE_HEADERS) :
    ∃ rest ⊆ cookies, (removeText headers text).buckets = kept ++ rest := by
  unfold removeText
  cases hfind : headers.keys.find? fun name => name.text = text with
  | none => exact ⟨cookies, List.Subset.refl _, hbuckets⟩
  | some name =>
      have hname : name.text = text := by simpa using List.find?_some hfind
      have hfront : ∀ bucket ∈ kept, bucket.1 ≠ name := by
        rintro bucket hbucket rfl
        exact hkept bucket hbucket ((isStrippedResponseHeader_iff _).mpr (hname ▸ htext))
      obtain ⟨values, hvalues⟩ := Multimap.mem_keys_iff.mp (List.mem_of_find?_eq_some hfind)
      have hback : ∃ bucket ∈ cookies, bucket.1 = name := by
        rw [hbuckets] at hvalues
        rcases List.mem_append.mp hvalues with hmem | hmem
        · exact absurd rfl (hfront _ hmem)
        · exact ⟨_, hmem, rfl⟩
      exact ⟨_, swapRemove_subset _ _, Multimap.removed_of_append hbuckets hfront hback⟩

theorem removeTexts_behind {texts : List Text} {headers : HeaderMap}
    {kept cookies : List HeaderBucket} (hbuckets : headers.buckets = kept ++ cookies)
    (hkept : ∀ bucket ∈ kept, ¬StrippedBucket bucket)
    (htexts : texts ⊆ STRIPPED_RESPONSE_HEADERS) :
    ∃ rest ⊆ cookies, (texts.foldl removeText headers).buckets = kept ++ rest := by
  induction texts generalizing headers cookies with
  | nil => exact ⟨cookies, List.Subset.refl _, hbuckets⟩
  | cons text more ih =>
      obtain ⟨hfirst, hmore⟩ := List.cons_subset.mp htexts
      obtain ⟨left, hleft, hstep⟩ := removeText_behind hbuckets hkept hfirst
      obtain ⟨rest, hrest, hrun⟩ := ih hstep hmore
      exact ⟨rest, List.Subset.trans hrest hleft, hrun⟩

/-- Stripped headers behind the others leave no trace. -/
theorem buckets_strip_of_behind {headers : HeaderMap} {kept cookies : List HeaderBucket}
    (hbuckets : headers.buckets = kept ++ cookies)
    (hkept : ∀ bucket ∈ kept, ¬StrippedBucket bucket)
    (hcookies : ∀ bucket ∈ cookies, StrippedBucket bucket) :
    (stripResponseHeaders headers).buckets = kept := by
  obtain ⟨rest, hrest, hstrip⟩ := removeTexts_behind hbuckets hkept (List.Subset.refl _)
  have hnone : rest = [] := by
    apply List.eq_nil_iff_forall_not_mem.mpr
    intro bucket hbucket
    have hkey : bucket.1 ∈ (stripResponseHeaders headers).keys := by
      refine Multimap.mem_keys_iff.mpr ⟨bucket.2, ?_⟩
      rw [stripResponseHeaders, hstrip]
      exact List.mem_append_right _ hbucket
    have hstripped := hcookies bucket (hrest hbucket)
    rw [StrippedBucket, ((mem_keys_stripResponseHeaders headers _).mp hkey).2] at hstripped
    cases hstripped
  rw [stripResponseHeaders, hstrip, hnone, List.append_nil]

/-- Two header maps that are the same but for what is stripped: the same names at the
same places, or stripped headers behind the same other ones. -/
inductive AlikeHeaders : HeaderMap → HeaderMap → Prop where
  | values {headers other : HeaderMap} (hsame : blankStripped headers = blankStripped other) :
      AlikeHeaders headers other
  | behind {headers other : HeaderMap} {kept cookies crumbs : List HeaderBucket}
      (hheaders : headers.buckets = kept ++ cookies) (hother : other.buckets = kept ++ crumbs)
      (hkept : ∀ bucket ∈ kept, ¬StrippedBucket bucket)
      (hcookies : ∀ bucket ∈ cookies ++ crumbs, StrippedBucket bucket) :
      AlikeHeaders headers other

theorem AlikeHeaders.strip_eq {headers other : HeaderMap} (halike : AlikeHeaders headers other) :
    stripResponseHeaders headers = stripResponseHeaders other := by
  cases halike with
  | values hsame =>
      rw [← stripResponseHeaders_blankStripped, hsame, stripResponseHeaders_blankStripped]
  | behind hheaders hother hkept hcookies =>
      apply Multimap.eq_of_buckets
      rw [buckets_strip_of_behind hheaders hkept, buckets_strip_of_behind hother hkept]
      · exact fun bucket hbucket => hcookies bucket (List.mem_append_right _ hbucket)
      · exact fun bucket hbucket => hcookies bucket (List.mem_append_left _ hbucket)

/-! ## Sends -/

/-- Two results of a sender that differ in what the host takes off. -/
inductive AlikeSends : SendResult ResponseParts Frame → SendResult ResponseParts Frame → Prop where
  | error {err other : HttpError} (halike : AlikeErrors err other) :
      AlikeSends (.error err) (.error other)
  | ok {response other : Response ResponseParts Frame} {io otherIo : Except HttpError Unit}
      (hheaders : AlikeHeaders response.headers other.headers)
      (hbody : List.Forall₂ AlikeOutcomes response.body other.body)
      (hparts : response.parts = other.parts) (hio : AlikeOutcomes io otherIo) :
      AlikeSends (.ok (response, io)) (.ok (other, otherIo))

/-- What differs in them does not get through. -/
theorem AlikeSends.sanitizeSend_eq {produced other : SendResult ResponseParts Frame}
    (halike : AlikeSends produced other) : sanitizeSend produced = sanitizeSend other := by
  cases halike with
  | error halike => exact congrArg Except.error (scrubError_eq_iff.mpr halike)
  | ok hheaders hbody hparts hio =>
      simp only [sanitizeSend, hheaders.strip_eq, map_scrubbed_eq_iff.mpr hbody, hparts,
        mapError_scrubError_eq_iff.mpr hio]

end HellohqRuntime.Gate.Hiding
