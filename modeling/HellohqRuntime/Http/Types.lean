import HellohqRuntime.Foundation.Strings

/-!
# The `wasi:http` value types

Methods, schemes, error codes and header fields as the vendored WIT declares
them.  A field value is a byte string; a resource is named by its 32-bit rep.
-/

namespace HellohqRuntime.Http.Types

open HellohqRuntime.Foundation.Strings

abbrev Rep := UInt32

abbrev FieldName := Text

abbrev FieldValue := Bytes

/-- A timeout in nanoseconds. -/
abbrev Duration := UInt64

inductive Method where
  | get | head | post | put | delete | connect | options | trace | patch
  | other (name : Text)
  deriving DecidableEq, Repr

inductive Scheme where
  | http | https
  | other (name : Text)
  deriving DecidableEq, Repr

structure DnsErrorPayload where
  rcode : Option Text
  infoCode : Option UInt16
  deriving DecidableEq, Repr

structure TlsAlertReceivedPayload where
  alertId : Option UInt8
  alertMessage : Option Text
  deriving DecidableEq, Repr

structure FieldSizePayload where
  fieldName : Option Text
  fieldSize : Option UInt32
  deriving DecidableEq, Repr

inductive ErrorCode where
  | dnsTimeout
  | dnsError (payload : DnsErrorPayload)
  | destinationNotFound
  | destinationUnavailable
  | destinationIpProhibited
  | destinationIpUnroutable
  | connectionRefused
  | connectionTerminated
  | connectionTimeout
  | connectionReadTimeout
  | connectionWriteTimeout
  | connectionLimitReached
  | tlsProtocolError
  | tlsCertificateError
  | tlsAlertReceived (payload : TlsAlertReceivedPayload)
  | httpRequestDenied
  | httpRequestLengthRequired
  | httpRequestBodySize (size : Option UInt64)
  | httpRequestMethodInvalid
  | httpRequestUriInvalid
  | httpRequestUriTooLong
  | httpRequestHeaderSectionSize (size : Option UInt32)
  | httpRequestHeaderSize (field : Option FieldSizePayload)
  | httpRequestTrailerSectionSize (size : Option UInt32)
  | httpRequestTrailerSize (field : FieldSizePayload)
  | httpResponseIncomplete
  | httpResponseHeaderSectionSize (size : Option UInt32)
  | httpResponseHeaderSize (field : FieldSizePayload)
  | httpResponseBodySize (size : Option UInt64)
  | httpResponseTrailerSectionSize (size : Option UInt32)
  | httpResponseTrailerSize (field : FieldSizePayload)
  | httpResponseTransferCoding (coding : Option Text)
  | httpResponseContentCoding (coding : Option Text)
  | httpResponseTimeout
  | httpUpgradeFailed
  | httpProtocolError
  | loopDetected
  | configurationError
  | internalError (message : Option Text)
  deriving DecidableEq, Repr

inductive HeaderError where
  | invalidSyntax | forbidden | immutable
  deriving DecidableEq, Repr

inductive RequestOptionsError where
  | notSupported | immutable
  deriving DecidableEq, Repr

/-- Backing state of a `request-options` resource: the three optional timeouts. -/
structure RequestOptionsData where
  connectTimeout : Option Duration := none
  firstByteTimeout : Option Duration := none
  betweenBytesTimeout : Option Duration := none
  /-- `true` if handed out immutable (`request.get-options`). -/
  immutable : Bool := false
  deriving DecidableEq, Repr

/-- The text of a method on the wire (`method_str`). -/
def methodStr : Method → Text
  | .get => "GET".toList
  | .head => "HEAD".toList
  | .post => "POST".toList
  | .put => "PUT".toList
  | .delete => "DELETE".toList
  | .connect => "CONNECT".toList
  | .options => "OPTIONS".toList
  | .trace => "TRACE".toList
  | .patch => "PATCH".toList
  | .other name => name

end HellohqRuntime.Http.Types
