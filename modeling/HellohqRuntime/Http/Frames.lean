import HellohqRuntime.Foundation.Strings

/-!
# OUT frames of an http session

Every OUT frame is one kind byte followed by its payload, and a session is
`HEAD BODY* TRAILERS?`.  `parseRequestFrames` is the reference parser; the main
result here is that it reads back every well-formed session.
-/

namespace HellohqRuntime.Http.Frames

open HellohqRuntime.Foundation.Strings

def KIND_HEAD : UInt8 := 0x01

def KIND_BODY : UInt8 := 0x02

def KIND_TRAILERS : UInt8 := 0x03

inductive OutFrameKind where
  | head | body | trailers
  deriving DecidableEq, Repr

namespace OutFrameKind

def tag : OutFrameKind → UInt8
  | head => KIND_HEAD
  | body => KIND_BODY
  | trailers => KIND_TRAILERS

def fromTag (tag : UInt8) : Option OutFrameKind :=
  if tag = KIND_HEAD then some head
  else if tag = KIND_BODY then some body
  else if tag = KIND_TRAILERS then some trailers
  else none

@[simp] theorem fromTag_tag (kind : OutFrameKind) : fromTag kind.tag = some kind := by
  cases kind <;> rfl

theorem tag_of_fromTag {tag : UInt8} {kind : OutFrameKind}
    (hread : fromTag tag = some kind) : kind.tag = tag := by
  unfold fromTag at hread
  split_ifs at hread with hhead hbody htrailers
  · rw [← Option.some.inj hread, hhead, OutFrameKind.tag]
  · rw [← Option.some.inj hread, hbody, OutFrameKind.tag]
  · rw [← Option.some.inj hread, htrailers, OutFrameKind.tag]

end OutFrameKind

/-- The kind byte, then the payload. -/
def encode (kind : OutFrameKind) (payload : Bytes) : Bytes := kind.tag :: payload

/-- Split a frame into kind and payload; `none` for an empty frame or an
unknown kind byte. -/
def decode : Bytes → Option (OutFrameKind × Bytes)
  | [] => none
  | tag :: payload => (OutFrameKind.fromTag tag).map fun kind => (kind, payload)

@[simp] theorem decode_encode (kind : OutFrameKind) (payload : Bytes) :
    decode (encode kind payload) = some (kind, payload) := by
  simp [decode, encode]

/-- The payload and the kind of an encoded frame are determined. -/
theorem encode_inj {kind other : OutFrameKind} {payload bytes : Bytes} :
    encode kind payload = encode other bytes ↔ kind = other ∧ payload = bytes := by
  constructor
  · intro heq
    have hdecode := congrArg decode heq
    simpa using hdecode
  · rintro ⟨rfl, rfl⟩
    rfl

/-- A frame that decodes is the encoding of what it decodes to. -/
theorem encode_of_decode {frame : Bytes} {kind : OutFrameKind} {payload : Bytes}
    (hdecode : decode frame = some (kind, payload)) : frame = encode kind payload := by
  cases frame with
  | nil => simp [decode] at hdecode
  | cons tag bytes =>
      simp only [decode, Option.map_eq_some_iff, Prod.mk.injEq] at hdecode
      obtain ⟨read, hread, rfl, rfl⟩ := hdecode
      rw [encode, OutFrameKind.tag_of_fromTag hread]

inductive FrameError where
  | empty
  | unknownKind (index : Nat)
  | missingHead
  | duplicateHead (index : Nat)
  | afterTrailers (index : Nat)
  deriving DecidableEq, Repr

/-- The frame an error names, when it names one. -/
def FrameError.location : FrameError → Option Nat
  | .empty => none
  | .unknownKind index => some index
  | .missingHead => some 0
  | .duplicateHead index => some index
  | .afterTrailers index => some index

structure RequestFrames where
  head : Bytes := []
  body : Bytes := []
  trailers : Option Bytes := none
  deriving DecidableEq, Repr

/-- The loop body of the parser on the frame at `index`. -/
def parseFrame (index : Nat) (out : RequestFrames) (frame : Bytes) :
    Except FrameError RequestFrames :=
  match decode frame with
  | none => .error (.unknownKind index)
  | some (kind, payload) =>
      if out.trailers.isSome then .error (.afterTrailers index)
      else
        match index, kind with
        | 0, .head => .ok { out with head := payload }
        | 0, _ => .error .missingHead
        | _ + 1, .head => .error (.duplicateHead index)
        | _ + 1, .body => .ok { out with body := out.body ++ payload }
        | _ + 1, .trailers => .ok { out with trailers := some payload }

def parseFrames : Nat → RequestFrames → List Bytes → Except FrameError RequestFrames
  | _, out, [] => .ok out
  | index, out, frame :: rest =>
      match parseFrame index out frame with
      | .error error => .error error
      | .ok next => parseFrames (index + 1) next rest

/-- Reassemble a request from its OUT frames, enforcing `HEAD BODY* TRAILERS?`. -/
def parseRequestFrames (frames : List Bytes) : Except FrameError RequestFrames :=
  if frames.isEmpty then .error .empty else parseFrames 0 {} frames

/-! ## Well-formed sessions -/

/-- The frames of a session: one HEAD, any number of BODY, at most one TRAILERS. -/
def sessionFrames (head : Bytes) (bodies : List Bytes) (trailers : Option Bytes) : List Bytes :=
  encode .head head :: bodies.map (encode .body) ++ trailers.toList.map (encode .trailers)

theorem parseFrames_bodies {index : Nat} (hindex : 0 < index) {out : RequestFrames}
    (hopen : out.trailers = none) (bodies rest : List Bytes) :
    parseFrames index out (bodies.map (encode .body) ++ rest) =
      parseFrames (index + bodies.length) { out with body := out.body ++ bodies.flatten } rest := by
  induction bodies generalizing index out with
  | nil => simp
  | cons payload more ih =>
      obtain ⟨before, rfl⟩ : ∃ before, index = before + 1 := ⟨index - 1, by omega⟩
      have hframe : parseFrame (before + 1) out (encode .body payload) =
          .ok { out with body := out.body ++ payload } := by
        simp [parseFrame, hopen]
      rw [List.map_cons, List.cons_append, parseFrames, hframe]
      simp only []
      have hcount : before + 1 + 1 + more.length = before + 1 + (payload :: more).length := by
        simp only [List.length_cons]
        omega
      rw [ih (by omega) (by exact hopen), hcount]
      simp

/-- The parser reads a well-formed session back. -/
theorem parseRequestFrames_sessionFrames (head : Bytes) (bodies : List Bytes)
    (trailers : Option Bytes) :
    parseRequestFrames (sessionFrames head bodies trailers) =
      .ok { head := head, body := bodies.flatten, trailers := trailers } := by
  have hhead : parseFrame 0 {} (encode .head head) = .ok { head := head } := by
    simp [parseFrame]
  rw [parseRequestFrames, if_neg (by simp [sessionFrames]), sessionFrames, List.cons_append,
    parseFrames, hhead]
  simp only []
  rw [parseFrames_bodies Nat.one_pos rfl]
  cases trailers with
  | none => simp [parseFrames]
  | some payload => simp [parseFrames, parseFrame, Nat.add_comm 1]

end HellohqRuntime.Http.Frames
