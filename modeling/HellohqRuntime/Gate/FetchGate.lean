import HellohqRuntime.Gate.Address

/-!
# The outbound fetch gate

A request of a network plugin must be https, its host must be covered by the
plugin's origin allowlist, and the host must not be a loopback name or spell an
address of the blocked set.
-/

namespace HellohqRuntime.Gate.FetchGate

open HellohqRuntime.Foundation.Strings
open HellohqRuntime.Gate.Address

inductive FetchDenial where
  | schemeBlocked
  | originBlocked
  | addressBlocked
  | credentialUnsupportedTransport
  deriving DecidableEq, Repr

/-- An entry covers the host it names; a wildcard covers its suffix and every
name below it. -/
def originCovers (host origin : Text) : Bool :=
  let norm := toAsciiLowercase origin
  if norm = host then true
  else if "*.".toList.isPrefixOf norm then
    let suffix := norm.drop 2
    host = suffix || ('.' :: suffix).isSuffixOf host
  else false

def originAllowed (host : Text) (allowlist : List Text) : Bool :=
  allowlist.any (originCovers (toAsciiLowercase host))

/-- The loopback names, which are no address literals. -/
def isLocalhost (host : Text) : Bool :=
  let lower := toAsciiLowercase host
  lower = "localhost".toList || ".localhost".toList.isSuffixOf lower

/-- The host is the text of a blocked address. -/
def spellsBlockedAddress (host : Text) : Bool :=
  match parseIpAddr host with
  | some ip => isBlockedAddress ip
  | none => false

def checkRequest (scheme host : Text) (allowlist : List Text) : Except FetchDenial Unit :=
  if !eqIgnoreAsciiCase scheme "https".toList then .error .schemeBlocked
  else if !originAllowed host allowlist then .error .originBlocked
  else if isLocalhost host then .error .addressBlocked
  else if spellsBlockedAddress host then .error .addressBlocked
  else .ok ()

/-- The gate passes exactly the covered https requests to a host that is neither
loopback nor blocked. -/
theorem checkRequest_eq_ok {scheme host : Text} {allowlist : List Text} :
    checkRequest scheme host allowlist = .ok () ↔
      eqIgnoreAsciiCase scheme "https".toList = true ∧ originAllowed host allowlist = true ∧
        isLocalhost host = false ∧ spellsBlockedAddress host = false := by
  unfold checkRequest
  cases eqIgnoreAsciiCase scheme "https".toList with
  | false => simp
  | true =>
      cases originAllowed host allowlist with
      | false => simp
      | true => cases isLocalhost host <;> cases spellsBlockedAddress host <;> simp

/-! ## Origins label by label -/

/-- The labels of a host name. -/
def labels (host : Text) : List Text := host.splitOn '.'

/-- An entry is the host itself, or a wildcard whose labels end those of the host. -/
def CoversLabels (host origin : Text) : Prop :=
  origin = host ∨ ∃ suffix, origin = "*.".toList ++ suffix ∧ labels suffix <:+ labels host

theorem originCovers_iff {host origin : Text} :
    originCovers host origin = true ↔ CoversLabels host (toAsciiLowercase origin) := by
  unfold originCovers CoversLabels labels
  simp only [splitOn_suffix_splitOn]
  by_cases hsame : toAsciiLowercase origin = host
  · simp [hsame]
  · rw [if_neg hsame]
    by_cases hwildcard : "*.".toList.isPrefixOf (toAsciiLowercase origin) = true
    · obtain ⟨suffix, hsuffix⟩ := List.isPrefixOf_iff_prefix.mp hwildcard
      have hdrop : (toAsciiLowercase origin).drop 2 = suffix := by
        rw [← hsuffix]
        rfl
      rw [if_pos hwildcard, hdrop]
      simp only [Bool.or_eq_true, decide_eq_true_eq, List.isSuffixOf_iff_suffix]
      constructor
      · intro hcovers
        exact Or.inr ⟨suffix, hsuffix.symm, hcovers⟩
      · rintro (heq | ⟨other, hother, hcovers⟩)
        · exact absurd heq hsame
        · obtain rfl : suffix = other := List.append_cancel_left (hsuffix.trans hother)
          exact hcovers
    · rw [if_neg hwildcard]
      refine iff_of_false (by simp) ?_
      rintro (heq | ⟨suffix, hsuffix, -⟩)
      · exact hsame heq
      · apply hwildcard
        rw [hsuffix, List.isPrefixOf_iff_prefix]
        exact List.prefix_append _ _

theorem originAllowed_iff {host : Text} {allowlist : List Text} :
    originAllowed host allowlist = true ↔
      ∃ origin ∈ allowlist, CoversLabels (toAsciiLowercase host) (toAsciiLowercase origin) := by
  simp only [originAllowed, List.any_eq_true, originCovers_iff]

/-- Matching goes label by label, and depends on nothing but the host and the set of
the entries in lower case. -/
theorem originAllowed_labels (host : Text) (allowlist : List Text) :
    (originAllowed host allowlist = true ↔
      ∃ origin ∈ allowlist, CoversLabels (toAsciiLowercase host) (toAsciiLowercase origin)) ∧
    ∀ (other : Text) (entries : List Text), toAsciiLowercase other = toAsciiLowercase host →
      (∀ norm, norm ∈ entries.map toAsciiLowercase ↔ norm ∈ allowlist.map toAsciiLowercase) →
      originAllowed other entries = originAllowed host allowlist := by
  refine ⟨originAllowed_iff, ?_⟩
  intro other entries hhost hentries
  have hexists : ∀ list : List Text,
      (∃ origin ∈ list, CoversLabels (toAsciiLowercase host) (toAsciiLowercase origin)) ↔
        ∃ norm ∈ list.map toAsciiLowercase, CoversLabels (toAsciiLowercase host) norm := by
    intro list
    simp
  rw [Bool.eq_iff_iff, originAllowed_iff, originAllowed_iff, hhost, hexists, hexists]
  simp only [hentries]

/-! ## Hosts that must not be reached -/

/-- The host is a loopback name or an IP literal of a blocked address, as a URI
spells it: dotted decimal, or IPv6 text in brackets. -/
inductive BlockedHost : Text → Prop where
  | localhost {host : Text} (hname : toAsciiLowercase host = "localhost".toList) : BlockedHost host
  | subdomain {host : Text} (hname : ".localhost".toList <:+ toAsciiLowercase host) :
      BlockedHost host
  | dotted (v4 : Ipv4Addr) (hblocked : isBlockedAddress (.v4 v4) = true) :
      BlockedHost (dottedDecimal v4)
  | bracketed {text : Text} (v6 : Ipv6Addr) (htext : parseIpv6Addr text = some v6)
      (hblocked : isBlockedAddress (.v6 v6) = true) : BlockedHost ('[' :: text ++ [']'])

/-- The host is written in brackets, as an IPv6 literal of a URI is. -/
def isBracketed (host : Text) : Bool := host.head? = some '[' && host.getLast? = some ']'

theorem isLocalhost_iff {host : Text} :
    isLocalhost host = true ↔ toAsciiLowercase host = "localhost".toList ∨
      ".localhost".toList <:+ toAsciiLowercase host := by
  simp only [isLocalhost, Bool.or_eq_true, decide_eq_true_eq, List.isSuffixOf_iff_suffix]

theorem not_isLocalhost_of_isBracketed {host : Text} (hbracketed : isBracketed host = true) :
    isLocalhost host = false := by
  simp only [isBracketed, Bool.and_eq_true, decide_eq_true_eq] at hbracketed
  obtain ⟨-, hlast⟩ := hbracketed
  have hlower : (toAsciiLowercase host).getLast? = some ']' := by
    rw [toAsciiLowercase, List.getLast?_map, hlast]
    rfl
  rw [Bool.eq_false_iff, ne_eq, isLocalhost_iff]
  rintro (hname | ⟨front, hname⟩)
  · rw [hname] at hlower
    exact absurd hlower (by decide)
  · have hsuffix : (front ++ ".localhost".toList).getLast? = ".localhost".toList.getLast? :=
      List.getLast?_append_of_ne_nil front (by decide)
    rw [← hname, hsuffix] at hlower
    exact absurd hlower (by decide)

/-- A host in brackets is never taken for a blocked address. -/
theorem not_spellsBlockedAddress_of_isBracketed {host : Text} (hbracketed : isBracketed host = true) :
    spellsBlockedAddress host = false := by
  simp only [isBracketed, Bool.and_eq_true, decide_eq_true_eq] at hbracketed
  obtain ⟨hfirst, -⟩ := hbracketed
  cases host with
  | nil => cases hfirst
  | cons first rest =>
      obtain rfl := Option.some.inj hfirst
      rw [spellsBlockedAddress, parseIpAddr_bracket]

/-- Of the hosts that must not be reached, the gate looks past exactly those in
brackets. -/
theorem recognised_iff {host : Text} (hblocked : BlockedHost host) :
    (isLocalhost host = true ∨ spellsBlockedAddress host = true) ↔ isBracketed host = false := by
  cases hbracketed : isBracketed host with
  | true =>
      simp [not_isLocalhost_of_isBracketed hbracketed,
        not_spellsBlockedAddress_of_isBracketed hbracketed]
  | false =>
      refine iff_of_true ?_ rfl
      cases hblocked with
      | localhost hname => exact Or.inl (isLocalhost_iff.mpr (Or.inl hname))
      | subdomain hname => exact Or.inl (isLocalhost_iff.mpr (Or.inr hname))
      | dotted v4 hblocked =>
          refine Or.inr ?_
          rw [spellsBlockedAddress, parseIpAddr_dottedDecimal]
          exact hblocked
      | bracketed v6 htext hblocked =>
          rw [isBracketed, List.getLast?_concat] at hbracketed
          simp at hbracketed

/-- A request to such a host is let through exactly where it is https, covered and
in brackets. -/
theorem checkRequest_blockedHost {scheme host : Text} {allowlist : List Text}
    (hblocked : BlockedHost host) :
    checkRequest scheme host allowlist = .ok () ↔
      eqIgnoreAsciiCase scheme "https".toList = true ∧ originAllowed host allowlist = true ∧
        isBracketed host = true := by
  have hrecognised := recognised_iff hblocked
  have hpasses : (isLocalhost host = false ∧ spellsBlockedAddress host = false) ↔
      isBracketed host = true := by
    rw [← Bool.not_eq_false, ← hrecognised, not_or, Bool.not_eq_true, Bool.not_eq_true]
  rw [checkRequest_eq_ok, hpasses]

end HellohqRuntime.Gate.FetchGate
