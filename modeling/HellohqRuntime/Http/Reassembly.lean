import HellohqRuntime.Http.OutLog

/-!
# What one call sends, read back

A call that is alone on its session is followed from the session's start: its
head, its batches and its trailers are what the reference parser finds in the
frames before the end event.
-/

namespace HellohqRuntime.Http.Reassembly

open HellohqRuntime.Foundation.Runs
open HellohqRuntime.Foundation.Strings
open HellohqRuntime.Foundation.Utf8
open HellohqRuntime.Http.Frames
open HellohqRuntime.Http.Handle
open HellohqRuntime.Http.Head
open HellohqRuntime.Http.OutLog
open HellohqRuntime.Http.Resources
open HellohqRuntime.Http.System
open HellohqRuntime.Http.Trailers
open HellohqRuntime.Http.Types

/-- The frames emitted before the end event. -/
def framesBeforeEnd : List OutEvent → List Bytes
  | .out frame :: rest => frame :: framesBeforeEnd rest
  | _ => []

/-- The entries of the fields that the trailers wait gave along a run, as they
were when it gave them. -/
def trailersAlong (seen : Option (List (FieldName × FieldValue))) (world : World) :
    List Label → Option (List (FieldName × FieldValue))
  | [] => seen
  | label :: rest =>
      match world.step label with
      | none => seen
      | some next => trailersAlong (trailersBehind world seen label) next rest

/-- The trailers payload that fits the entries of a trailers wait: there is one
where some name is a token, and it reads back as the entries with token names. -/
structure CarriesTrailers (entries : Option (List (FieldName × FieldValue)))
    (payload : Option Bytes) : Prop where
  present : payload.isSome = true ↔
    ∃ found, entries = some found ∧ ∃ entry ∈ found, isHttpToken entry.1 = true
  reads : ∀ bytes, payload = some bytes → ∃ found, entries = some found ∧
    parseTrailersLine (fromUtf8Lossy bytes) = found.filter fun entry => isHttpToken entry.1

variable {world next final : World} {transport : HttpTransport} {index : Nat} {head : Bytes}
variable {call : Call}

theorem framesBeforeEnd_frames (frames : List Bytes) : framesBeforeEnd (frames.map .out) = frames := by
  induction frames with
  | nil => rfl
  | cons frame rest ih =>
      rw [List.map_cons, framesBeforeEnd, ih]

theorem framesBeforeEnd_ended (frames : List Bytes) :
    framesBeforeEnd (frames.map .out ++ [.outEnd]) = frames := by
  induction frames with
  | nil => rfl
  | cons frame rest ih =>
      rw [List.map_cons, List.cons_append, framesBeforeEnd, ih]

/-- Whatever a call waits for, its frames are what it has sent before the end. -/
theorem framesBeforeEnd_logged {out : List OutEvent} (hlogged : Logged head call out) :
    framesBeforeEnd out = callFrames head call := by
  have hsending : Sending head call out → framesBeforeEnd out = callFrames head call :=
    fun hsending => hsending.2 ▸ framesBeforeEnd_frames _
  have hended : Ended head call out → framesBeforeEnd out = callFrames head call :=
    fun hended => hended ▸ framesBeforeEnd_ended _
  unfold Logged at hlogged
  split at hlogged
  · exact hsending hlogged
  · exact hsending hlogged
  · exact hended hlogged
  · exact hlogged.elim hsending hended

/-- The parser reads the frames of a call: the empty batches it skipped add
nothing to the body. -/
theorem parseRequestFrames_callFrames (head : Bytes) (call : Call) :
    parseRequestFrames (callFrames head call) = .ok
      { head
        body := call.batches.flatten
        trailers := (call.trailers.bind formatRequestTrailersValue).map asBytes } := by
  rw [callFrames, parseRequestFrames_sessionFrames, List.flatten_filter_not_isEmpty]

/-- The payload that is formatted from the entries carries them. -/
theorem carriesTrailers_format (entries : Option (List (FieldName × FieldValue))) :
    CarriesTrailers entries ((entries.bind formatRequestTrailersValue).map asBytes) where
  present := by
    cases entries with
    | none => simp
    | some found => simp [formatRequestTrailersValue_isSome]
  reads bytes hbytes := by
    obtain ⟨value, hvalue, rfl⟩ := Option.map_eq_some_iff.mp hbytes
    obtain ⟨found, rfl, hformat⟩ := Option.bind_eq_some_iff.mp hvalue
    rw [fromUtf8Lossy_asBytes]
    exact ⟨found, rfl, parseTrailersLine_formatRequestTrailersValue hformat⟩

/-! ## A session with one call -/

theorem idle_run {labels : List Label} (hidle : Idle world transport)
    (hquiet : ∀ label ∈ labels, isHandle label = false)
    (hrun : run World.step world labels = some final) : ∃ after, Idle final after := by
  induction labels generalizing world transport with
  | nil =>
      obtain rfl : world = final := by simpa using hrun
      exact ⟨transport, hidle⟩
  | cons label rest ih =>
      obtain ⟨next, hstep, hrest⟩ := run_cons_eq_some.mp hrun
      obtain ⟨after, hafter, hsession⟩ := session_step hidle.bridge hstep
      exact ih (idle_quiet hidle hafter (hquiet label List.mem_cons_self) rfl hsession)
        (fun later hlater => hquiet later (List.mem_cons_of_mem label hlater)) hrest

/-- Through a run without another call of `handle`, the one call receives every
batch and the trailers that are given. -/
theorem active_run {labels : List Label} (hactive : Active world transport index head call)
    (hquiet : ∀ label ∈ labels, isHandle label = false)
    (hrun : run World.step world labels = some final) :
    ∃ after changed, Active final after index head changed ∧
      changed.batches = call.batches ++ labels.filterMap batchOf ∧
      changed.trailers = trailersAlong call.trailers world labels := by
  induction labels generalizing world transport call with
  | nil =>
      obtain rfl : world = final := by simpa using hrun
      exact ⟨transport, call, hactive, by simp, rfl⟩
  | cons label rest ih =>
      obtain ⟨next, hstep, hrest⟩ := run_cons_eq_some.mp hrun
      obtain ⟨after, hafter, hsession⟩ := session_step hactive.bridge hstep
      have hfirst := hquiet label List.mem_cons_self
      obtain ⟨changed, hchanged, hbatches, htrailers⟩ := active_step hactive hafter rfl
        (fun request fault trailersFault hlabel => by rw [hlabel] at hfirst; cases hfirst) hsession
      obtain ⟨last, done, hdone, hallBatches, hallTrailers⟩ := ih hchanged
        (fun later hlater => hquiet later (List.mem_cons_of_mem label hlater)) hrest
      refine ⟨last, done, hdone, ?_, ?_⟩
      · rw [hallBatches, hbatches, List.append_assoc, ← List.singleton_append,
          List.filterMap_append]
        rfl
      · rw [hallTrailers, htrailers, trailersAlong, hstep]

/-- What a call that is alone on its session has sent, by what it has received. -/
theorem exists_logged {past rest : List Label} {before started : World} {request : Rep}
    {fault trailersFault : Option Text}
    (hpast : run World.step (World.start .withTransport) past = some before)
    (hhead : requestHead before.host request = .ok head)
    (hhandle : before.step (.handle request fault trailersFault) = some started)
    (hrest : run World.step started rest = some final)
    (halone : ∀ label ∈ past ++ rest, isHandle label = false) :
    ∃ call, Logged head call (sent final) ∧ call.batches = rest.filterMap batchOf ∧
      call.trailers = trailersAlong none started rest := by
  have hstart : Idle (World.start .withTransport) {} :=
    ⟨rfl, rfl, rfl, fun index call hget => by simp [World.start] at hget⟩
  obtain ⟨transport, hidle⟩ := idle_run hstart
    (fun label hlabel => halone label (List.mem_append_left rest hlabel)) hpast
  obtain ⟨after, hafter, hsession⟩ := session_step hidle.bridge hhandle
  rcases idle_handle hidle hafter rfl hsession with
    ⟨⟨error, herror⟩, -⟩ | ⟨other, call, hother, hactive, hbatches, htrailers⟩
  · rw [hhead] at herror
    cases herror
  · obtain rfl := Except.ok.inj (hhead.symm.trans hother)
    obtain ⟨last, done, hdone, hallBatches, hallTrailers⟩ := active_run hactive
      (fun label hlabel => halone label (List.mem_append_right past hlabel)) hrest
    refine ⟨done, ?_, ?_, ?_⟩
    · rw [sent_eq hdone.bridge]
      exact hdone.logged
    · rw [hallBatches, hbatches, List.nil_append]
    · rw [hallTrailers, htrailers]

/-- The reference parser reassembles what a call sent that is alone on its
session: its head, the concatenation of its batches, and the trailers that its
wait gave. -/
theorem parseRequestFrames_sent {past rest : List Label} {before started : World}
    {request : Rep} {fault trailersFault : Option Text}
    (hpast : run World.step (World.start .withTransport) past = some before)
    (hhead : requestHead before.host request = .ok head)
    (hhandle : before.step (.handle request fault trailersFault) = some started)
    (hrest : run World.step started rest = some final)
    (halone : ∀ label ∈ past ++ rest, isHandle label = false) :
    ∃ trailers, CarriesTrailers (trailersAlong none started rest) trailers ∧
      parseRequestFrames (framesBeforeEnd (sent final)) =
        .ok { head, body := (rest.filterMap batchOf).flatten, trailers } := by
  obtain ⟨call, hlogged, hbatches, htrailers⟩ := exists_logged hpast hhead hhandle hrest halone
  refine ⟨_, carriesTrailers_format _, ?_⟩
  rw [framesBeforeEnd_logged hlogged, parseRequestFrames_callFrames, hbatches, htrailers]

def examplePast : List Label :=
  [.fieldsNew, .requestNew 1 (some (.guest 0)) (.guest 1) none,
    .fieldsFromList [("x".toList, [0x79]), ("not a token".toList, [0x7a])], .writeTrailers 2]

def exampleRest : List Label :=
  [.bodyBatch 0 [0x61], .bodyBatch 0 [], .bodyBatch 0 [0x62], .bodyEnd 0 none,
    .trailersResolved 0 (some (.ok (.ok (some 2))))]

/-- A body in three batches, one of them empty, and two trailer fields, one with
a name that is no token. -/
theorem parseRequestFrames_sent_example :
    ∃ before started final,
      run World.step (World.start .withTransport) examplePast = some before ∧
      before.step (.handle 1 none none) = some started ∧
      run World.step started exampleRest = some final ∧
      trailersAlong none started exampleRest =
        some [("x".toList, [0x79]), ("not a token".toList, [0x7a])] ∧
      ∃ trailers, CarriesTrailers (trailersAlong none started exampleRest) trailers ∧
        parseRequestFrames (framesBeforeEnd (sent final)) =
          .ok { head := asBytes "GET https:///".toList, body := [0x61, 0x62], trailers } := by
  refine ⟨_, _, _, rfl, rfl, rfl, by decide, ?_⟩
  exact @parseRequestFrames_sent _ (asBytes "GET https:///".toList) examplePast exampleRest _ _
    1 none none rfl (by decide) rfl rfl (by decide)

end HellohqRuntime.Http.Reassembly
