import HellohqRuntime.Foundation.Buckets
import HellohqRuntime.Foundation.Strings
import HellohqRuntime.Http.Trailers

/-!
# The request policy

What a plugin may put on an outbound request, and what of a response it may see.
The predicates take a name in any case and with white space around it.
-/

namespace HellohqRuntime.Gate.RequestPolicy

open HellohqRuntime.Foundation.Buckets
open HellohqRuntime.Foundation.Strings
open HellohqRuntime.Http.Head
open HellohqRuntime.Http.Types

def ALLOWED_REQUEST_HEADERS : List Text :=
  ["accept".toList, "accept-language".toList, "content-type".toList, "if-none-match".toList,
    "if-modified-since".toList]

def STRIPPED_RESPONSE_HEADERS : List Text := ["set-cookie".toList, "set-cookie2".toList]

/-- Substrings that mark a name as credential-bearing. -/
def CREDENTIAL_FRAGMENTS : List Text :=
  ["auth".toList, "cookie".toList, "key".toList, "secret".toList, "sign".toList, "token".toList,
    "passphrase".toList, "password".toList, "session".toList, "cert".toList]

def CREDENTIAL_PREFIXES : List Text := ["cb-access-".toList, "ok-access-".toList]

def RESERVED_CREDENTIAL_HEADER : Text := "x-hellohq-credential".toList

/-- A text contains a fragment where it can be split at it. -/
def contains (text fragment : Text) : Bool := (splitOnce fragment text).isSome

def isCredentialHeaderName (name : Text) : Bool :=
  let n := toAsciiLowercase (trim name)
  CREDENTIAL_PREFIXES.any (fun p => p.isPrefixOf n) || CREDENTIAL_FRAGMENTS.any (contains n)

def isAllowedRequestHeader (name : Text) : Bool :=
  let n := toAsciiLowercase (trim name)
  ALLOWED_REQUEST_HEADERS.contains n && !isCredentialHeaderName n

def isStrippedResponseHeader (name : Text) : Bool :=
  STRIPPED_RESPONSE_HEADERS.contains (toAsciiLowercase (trim name))

def isReservedCredentialHeader (name : Text) : Bool :=
  eqIgnoreAsciiCase (trim name) RESERVED_CREDENTIAL_HEADER

/-! ## Header maps -/

/-- A header name is a token in lower case. -/
@[ext] structure HeaderName where
  text : Text
  token : isHttpToken text = true
  lower : toAsciiLowercase text = text
  deriving DecidableEq

/-- A header map keeps the values of each name in order. -/
abbrev HeaderMap := Multimap HeaderName FieldValue

/-- A header name is in the normal form of the predicates. -/
theorem HeaderName.normal (name : HeaderName) : toAsciiLowercase (trim name.text) = name.text := by
  have htrim : trim name.text = name.text :=
    trim_eq_self fun _ => Http.Trailers.isWhitespace_of_mem_token name.token
  rw [htrim, name.lower]

/-- On a header name the policy is membership in the list of stripped names. -/
theorem isStrippedResponseHeader_iff (name : HeaderName) :
    isStrippedResponseHeader name.text = true ↔ name.text ∈ STRIPPED_RESPONSE_HEADERS := by
  rw [isStrippedResponseHeader, name.normal, List.contains_iff_mem]

end HellohqRuntime.Gate.RequestPolicy
