import HellohqRuntime.Http.Frames
import Mathlib.Order.Bounds.Defs

/-!
# The grammar of OUT frames

`parseRequestFrames` accepts `HEAD BODY* TRAILERS?` and nothing else, and an
error it reports stands at the first frame with which the frames read so far
stop being the start of a session.
-/

namespace HellohqRuntime.Http.FrameGrammar

open HellohqRuntime.Foundation.Strings
open Frames

/-- What one session carries, before it is cut into frames. -/
structure Session where
  head : Bytes
  bodies : List Bytes
  trailers : Option Bytes

namespace Session

def frames (session : Session) : List Bytes :=
  sessionFrames session.head session.bodies session.trailers

/-- The request a peer is to read from the session. -/
def request (session : Session) : RequestFrames where
  head := session.head
  body := session.bodies.flatten
  trailers := session.trailers

end Session

/-- The frames are a prefix of some session. -/
def Viable (frames : List Bytes) : Prop := ∃ session : Session, frames <+: session.frames

/-! ## Sessions -/

/-- The bodies of a list of frames, read off one frame at a time. -/
def bodiesOf (frames : List Bytes) : List Bytes :=
  frames.filterMap fun frame =>
    match decode frame with
    | some (.body, payload) => some payload
    | _ => none

/-- The frames of a session keep its bodies apart. -/
theorem bodiesOf_sessionFrames (head : Bytes) (bodies : List Bytes) (trailers : Option Bytes) :
    bodiesOf (sessionFrames head bodies trailers) = bodies := by
  have hbodies : (bodies.map (encode .body)).filterMap (fun frame =>
      match decode frame with
      | some (.body, payload) => some payload
      | _ => none) = bodies := by
    induction bodies with
    | nil => rfl
    | cons payload more ih => simp only [List.map_cons, List.filterMap_cons, decode_encode, ih]
  cases trailers <;> simp [bodiesOf, sessionFrames, hbodies, decode_encode]

theorem parseRequestFrames_frames (session : Session) :
    parseRequestFrames session.frames = .ok session.request :=
  parseRequestFrames_sessionFrames session.head session.bodies session.trailers

/-- A session is determined by its frames. -/
theorem frames_injective {session other : Session} (heq : session.frames = other.frames) :
    session = other := by
  have hbodies : session.bodies = other.bodies := by
    have hread := congrArg bodiesOf heq
    rwa [Session.frames, Session.frames, bodiesOf_sessionFrames, bodiesOf_sessionFrames] at hread
  have hrequest : session.request = other.request := by
    have hread := congrArg parseRequestFrames heq
    rw [parseRequestFrames_frames, parseRequestFrames_frames] at hread
    exact Except.ok.inj hread
  cases session
  cases other
  simp only [Session.request, RequestFrames.mk.injEq] at hrequest
  simp only at hbodies
  rw [hrequest.1, hbodies, hrequest.2.2]

theorem frames_ne_nil (session : Session) : session.frames ≠ [] := by
  simp [Session.frames, sessionFrames]

/-! ## What the parser has read -/

/-- `out` is what the session made of the frames read so far says. -/
def Reads (past : List Bytes) (out : RequestFrames) : Prop :=
  ∃ session : Session, session.frames = past ∧ session.request = out

/-- A first frame that passes is a HEAD. -/
theorem reads_of_first {frame : Bytes} {next : RequestFrames}
    (hframe : parseFrame 0 {} frame = .ok next) : Reads [frame] next := by
  unfold parseFrame at hframe
  cases hdecode : decode frame with
  | none => simp [hdecode] at hframe
  | some read =>
      obtain ⟨kind, payload⟩ := read
      have hencode := encode_of_decode hdecode
      cases kind with
      | head =>
          simp [hdecode] at hframe
          exact ⟨⟨payload, [], none⟩, by simp [Session.frames, sessionFrames, hencode], hframe⟩
      | body => simp [hdecode] at hframe
      | trailers => simp [hdecode] at hframe

/-- A later frame that passes extends the session that was read. -/
theorem Reads.snoc {past : List Bytes} {out next : RequestFrames} {frame : Bytes}
    (hreads : Reads past out) (hframe : parseFrame past.length out frame = .ok next) :
    Reads (past ++ [frame]) next := by
  obtain ⟨⟨head, bodies, trailers⟩, rfl, rfl⟩ := hreads
  obtain ⟨before, hbefore⟩ : ∃ before,
      (Session.frames ⟨head, bodies, trailers⟩).length = before + 1 :=
    ⟨_, List.length_cons⟩
  rw [hbefore] at hframe
  unfold parseFrame at hframe
  cases hdecode : decode frame with
  | none => simp [hdecode] at hframe
  | some read =>
      obtain ⟨kind, payload⟩ := read
      have hencode := encode_of_decode hdecode
      cases trailers with
      | some closing => simp [hdecode, Session.request] at hframe
      | none =>
          cases kind with
          | head => simp [hdecode, Session.request] at hframe
          | body =>
              simp [hdecode, Session.request] at hframe
              refine ⟨⟨head, bodies ++ [payload], none⟩, ?_, ?_⟩
              · simp [Session.frames, sessionFrames, hencode]
              · simp [Session.request, ← hframe]
          | trailers =>
              simp [hdecode, Session.request] at hframe
              refine ⟨⟨head, bodies, some payload⟩, ?_, ?_⟩
              · simp [Session.frames, sessionFrames, hencode]
              · simp [Session.request, ← hframe]

/-- The frames that pass make a longer session. -/
theorem Reads.append {past rest : List Bytes} {out parsed : RequestFrames}
    (hreads : Reads past out) (hparse : parseFrames past.length out rest = .ok parsed) :
    Reads (past ++ rest) parsed := by
  induction rest generalizing past out with
  | nil =>
      simp only [parseFrames, Except.ok.injEq] at hparse
      rwa [List.append_nil, ← hparse]
  | cons frame rest ih =>
      unfold parseFrames at hparse
      cases hframe : parseFrame past.length out frame with
      | error error => simp [hframe] at hparse
      | ok next =>
          simp only [hframe] at hparse
          have hnext := hreads.snoc hframe
          have hwhole := ih hnext (by simpa using hparse)
          simpa using hwhole

/-- What the parser accepts is a session, and the result is what it carries. -/
theorem reads_of_parseRequestFrames {frames : List Bytes} {parsed : RequestFrames}
    (hparse : parseRequestFrames frames = .ok parsed) : Reads frames parsed := by
  unfold parseRequestFrames at hparse
  cases frames with
  | nil => simp at hparse
  | cons frame rest =>
      rw [if_neg (by simp), parseFrames] at hparse
      cases hframe : parseFrame 0 {} frame with
      | error error => simp [hframe] at hparse
      | ok next =>
          simp only [hframe] at hparse
          exact (reads_of_first hframe).append hparse

/-! ## Where the parser stops -/

theorem parseFrames_append (index : Nat) (out : RequestFrames) (frames rest : List Bytes) :
    parseFrames index out (frames ++ rest) =
      match parseFrames index out frames with
      | .error error => .error error
      | .ok next => parseFrames (index + frames.length) next rest := by
  induction frames generalizing index out with
  | nil => simp [parseFrames]
  | cons frame more ih =>
      simp only [List.cons_append, parseFrames]
      cases parseFrame index out frame with
      | error error => rfl
      | ok next =>
          simp only [ih, List.length_cons]
          rw [show index + 1 + more.length = index + (more.length + 1) by omega]

/-- An error of one frame names the frame. -/
theorem location_of_parseFrame {index : Nat} {out : RequestFrames} {frame : Bytes}
    {error : FrameError} (hframe : parseFrame index out frame = .error error) :
    error.location = some index := by
  unfold parseFrame at hframe
  cases hdecode : decode frame with
  | none =>
      simp only [hdecode, Except.error.injEq] at hframe
      rw [← hframe]
      rfl
  | some read =>
      obtain ⟨kind, payload⟩ := read
      simp only [hdecode] at hframe
      split at hframe
      · cases hframe
        rfl
      · cases index <;> cases kind <;> simp at hframe <;> rw [← hframe] <;> rfl

/-- A run that fails passes some frames and stops at the next one. -/
theorem exists_stop {index : Nat} {out : RequestFrames} {frames : List Bytes}
    {error : FrameError} (hparse : parseFrames index out frames = .error error) :
    ∃ before frame after read, frames = before ++ frame :: after ∧
      parseFrames index out before = .ok read ∧
      parseFrame (index + before.length) read frame = .error error := by
  induction frames generalizing index out with
  | nil => simp [parseFrames] at hparse
  | cons frame rest ih =>
      unfold parseFrames at hparse
      cases hframe : parseFrame index out frame with
      | error stop =>
          simp only [hframe, Except.error.injEq] at hparse
          rw [hparse] at hframe
          exact ⟨[], frame, rest, out, rfl, rfl, hframe⟩
      | ok next =>
          simp only [hframe] at hparse
          obtain ⟨before, stop, after, read, rfl, hbefore, hstop⟩ := ih hparse
          refine ⟨frame :: before, stop, after, read, rfl, ?_, ?_⟩
          · simp only [parseFrames, hframe, hbefore]
          · rw [List.length_cons, ← hstop]
            congr 1
            omega

/-- No session starts with frames the parser stops in: it would read the
session to its end. -/
theorem not_viable_of_error {frames : List Bytes} {error : FrameError}
    (hparse : parseFrames 0 {} frames = .error error) : ¬ Viable frames := by
  rintro ⟨session, rest, hrest⟩
  have hread := parseRequestFrames_frames session
  unfold parseRequestFrames at hread
  rw [if_neg (by simpa using frames_ne_nil session), ← hrest, parseFrames_append, hparse] at hread
  cases hread

theorem viable_of_reads {frames : List Bytes} {out : RequestFrames} (hreads : Reads frames out) :
    Viable frames := by
  obtain ⟨session, hframes, _⟩ := hreads
  exact ⟨session, hframes ▸ List.prefix_rfl⟩

/-- The frame an error names is the first with which the frames are no longer
the start of a session. -/
theorem isLeast_of_error {frames : List Bytes} {error : FrameError} (hne : frames ≠ [])
    (hparse : parseRequestFrames frames = .error error) :
    ∃ index, error.location = some index ∧
      IsLeast {index | index < frames.length ∧ ¬ Viable (frames.take (index + 1))} index := by
  unfold parseRequestFrames at hparse
  rw [if_neg (by simpa using hne)] at hparse
  obtain ⟨before, frame, after, read, rfl, hbefore, hstop⟩ := exists_stop hparse
  rw [Nat.zero_add] at hstop
  refine ⟨before.length, location_of_parseFrame hstop, ⟨by simp, ?_⟩, ?_⟩
  · have hstopped : parseFrames 0 {} ((before ++ frame :: after).take (before.length + 1)) =
        .error error := by
      rw [List.take_append, List.take_of_length_le (Nat.le_succ _), Nat.add_sub_cancel_left,
        List.take_succ_cons, List.take_zero, parseFrames_append, hbefore]
      simp only [Nat.zero_add, parseFrames, hstop]
    exact not_viable_of_error hstopped
  · rintro earlier ⟨_, hdead⟩
    by_contra hlt
    apply hdead
    have hbeforeNe : before ≠ [] := by
      rintro rfl
      simp at hlt
    have hreads : Reads before read := by
      apply reads_of_parseRequestFrames
      rw [parseRequestFrames, if_neg (by simpa using hbeforeNe), hbefore]
    obtain ⟨session, hsession⟩ := viable_of_reads hreads
    refine ⟨session, List.IsPrefix.trans ?_ hsession⟩
    rw [List.take_append_of_le_length (by omega)]
    exact List.take_prefix _ _

/-- The parser accepts exactly the sessions, each in one way, and otherwise
reports the first frame that fits no session. -/
theorem parseRequestFrames_exact (frames : List Bytes) :
    (∀ parsed, parseRequestFrames frames = .ok parsed ↔
      ∃ session : Session, frames = session.frames ∧ parsed = session.request) ∧
    (∀ session other : Session, frames = session.frames → frames = other.frames →
      session = other) ∧
    (frames = [] → parseRequestFrames frames = .error .empty) ∧
    (frames ≠ [] → (∀ session : Session, frames ≠ session.frames) →
      ∃ error index, parseRequestFrames frames = .error error ∧
        error.location = some index ∧
        IsLeast {index | index < frames.length ∧ ¬ Viable (frames.take (index + 1))} index) := by
  refine ⟨?_, ?_, ?_, ?_⟩
  · intro parsed
    constructor
    · intro hparse
      obtain ⟨session, hframes, hrequest⟩ := reads_of_parseRequestFrames hparse
      exact ⟨session, hframes.symm, hrequest.symm⟩
    · rintro ⟨session, rfl, rfl⟩
      exact parseRequestFrames_frames session
  · intro session other hsession hother
    exact frames_injective (hsession.symm.trans hother)
  · rintro rfl
    rfl
  · intro hne hnone
    cases hparse : parseRequestFrames frames with
    | ok parsed =>
        obtain ⟨session, hframes, _⟩ := reads_of_parseRequestFrames hparse
        exact absurd hframes.symm (hnone session)
    | error error =>
        obtain ⟨index, hlocation, hleast⟩ := isLeast_of_error hne hparse
        exact ⟨error, index, rfl, hlocation, hleast⟩

end HellohqRuntime.Http.FrameGrammar
