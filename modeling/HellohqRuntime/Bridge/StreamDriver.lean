import HellohqRuntime.Bridge.Delivery

/-!
# A driver on the stream

A driver emits chunks, awaits what the caller pushes, and returns.  Its thread and the
caller interleave freely, and yet what the caller sees is a function of what it pushes:
the driver alone with the pushed chunks emits the same and ends the same.
-/

namespace HellohqRuntime.Bridge.StreamDriver

open HellohqRuntime.Foundation.Channels
open HellohqRuntime.Foundation.Runs
open HellohqRuntime.Foundation.Strings
open HellohqRuntime.Foundation.Utf8
open HellohqRuntime.Bridge.Delivery
open HellohqRuntime.Bridge.Reporting
open HellohqRuntime.Bridge.Stream

variable {σ : Type}

/-! ## The driver -/

inductive DriverCall where
  | chunk (bytes : Bytes)
  | endOut
  | await
  /-- The driver drops its inbound receiver. -/
  | dropInbound
  deriving DecidableEq

/-- What a driver does next: a call, or it returns, or it panics. -/
inductive Due where
  | call (call : DriverCall)
  | done (ending : Option (Except Text Bytes))

/-- A driver between its awaits.  It awaits only while it holds the receiver, which is
its own until it drops it. -/
structure Driver (σ : Type) where
  start : σ
  due : σ → Due
  /-- An await is answered with a chunk, or with `none` at the end of the inbound stream. -/
  resume : σ → Option Bytes → σ
  holds : σ → Bool
  holds_start : holds start = true
  holds_await : ∀ state, due state = .call .await → holds state = true
  holds_resume : ∀ state call answer, due state = .call call →
    holds (resume state answer) = (holds state && decide (call ≠ .dropInbound))

/-! ## The driver on the worker thread -/

structure DrivenStream (σ : Type) where
  now : σ
  run : P3sRun := {}
  /-- A record of what the polls surfaced. -/
  seen : List (Option Bytes) := []

inductive Turn where
  | worker
  | poll
  | push (chunk : Bytes)
  | pushEnd

def Turn.isWorker : Turn → Bool
  | .worker => true
  | _ => false

/-- The step of the bridge that the worker is at. -/
def Due.label (waiting : Bool) : Due → Label
  | .done (some result) => .finish result
  | .done none => .vanish
  | .call (.chunk bytes) => .chunk bytes
  | .call .endOut => .endOut
  | .call .await => if waiting then .wake else .await
  | .call .dropInbound => .dropInbound

namespace DrivenStream

/-- The driver when the bridge has made its step. -/
def goesOn (driver : Driver σ) (state : DrivenStream σ) (run : P3sRun) : σ :=
  match driver.due state.now with
  | .done _ => state.now
  | .call .await =>
      if state.run.waiting then driver.resume state.now (run.received.getLast?.bind id)
      else state.now
  | .call _ => driver.resume state.now none

def worker (driver : Driver σ) (state : DrivenStream σ) : Option (DrivenStream σ) :=
  (state.run.step ((driver.due state.now).label state.run.waiting)).map fun run =>
    { state with run, now := state.goesOn driver run }

def poll (state : DrivenStream σ) : Option (DrivenStream σ) :=
  (state.run.step .poll).map fun run =>
    { state with run, seen := state.seen ++ (surfaced run).toList }

def push (state : DrivenStream σ) (chunk : Bytes) : Option (DrivenStream σ) :=
  (state.run.step (.push chunk)).map fun run => { state with run }

def pushEnd (state : DrivenStream σ) : Option (DrivenStream σ) :=
  (state.run.step .pushEnd).map fun run => { state with run }

def step (driver : Driver σ) (state : DrivenStream σ) : Turn → Option (DrivenStream σ)
  | .worker => state.worker driver
  | .poll => state.poll
  | .push chunk => state.push chunk
  | .pushEnd => state.pushEnd

/-- `p3s_run_session` -/
def start (driver : Driver σ) : DrivenStream σ where
  now := driver.start

/-- The turns of the worker that are in no exchange yet, or in none at all. -/
def pace (state : DrivenStream σ) : Nat :=
  match state.run.report with
  | .running => state.run.waiting.toNat
  | _ => 1

/-- How many chunks the driver has had. -/
def taken (state : DrivenStream σ) : Nat := (state.run.received.filterMap id).length

end DrivenStream

/-! ## The driver alone -/

/-- An inbound stream that is all there: the chunks, and then the end. -/
def inbound (chunks : List Bytes) : DriverCall → Option Bytes × List Bytes
  | .await => (chunks.head?, chunks.tail)
  | _ => (none, chunks)

/-- What a driver says to such a stream. -/
structure Tells (driver : Driver σ) (place : σ × List Bytes) (call : DriverCall)
    (answer : Option Bytes) (next : σ × List Bytes) : Prop where
  due : driver.due place.1 = .call call
  answered : inbound place.2 call = (answer, next.2)
  resumed : next.1 = driver.resume place.1 answer

/-- All that it says until it is done. -/
def Halts (driver : Driver σ) (place : σ × List Bytes) (said : List (DriverCall × Option Bytes))
    (ending : Option (Except Text Bytes)) : Prop :=
  ∃ last, Trace (Tells driver) place said last ∧ driver.due last.1 = .done ending

def DriverCall.emitted : DriverCall → Option (Option Bytes)
  | .chunk bytes => some (some bytes)
  | .endOut => some none
  | _ => none

/-- What a driver emits in what it says, `none` for the end of the outbound stream. -/
def emits (said : List (DriverCall × Option Bytes)) : List (Option Bytes) :=
  said.filterMap fun exchange => exchange.1.emitted

def DriverCall.turns : DriverCall → Nat
  | .await => 2
  | _ => 1

/-- The turns that a worker takes to say it: an await begins and is woken. -/
def cost : List (DriverCall × Option Bytes) → Nat
  | [] => 0
  | exchange :: rest => exchange.1.turns + cost rest

def reportOf : Option (Except Text Bytes) → Report
  | some result => .done result
  | none => .vanished

theorem cost_append (said more : List (DriverCall × Option Bytes)) :
    cost (said ++ more) = cost said + cost more := by
  induction said with
  | nil => exact (Nat.zero_add _).symm
  | cons exchange rest ih => rw [List.cons_append, cost, cost, ih, Nat.add_assoc]

/-- A driver that halts goes on from what it has said to its end. -/
theorem Halts.rest {driver : Driver σ} {place last : σ × List Bytes}
    {said whole : List (DriverCall × Option Bytes)} {ending : Option (Except Text Bytes)}
    (hhalts : Halts driver place whole ending) (htrace : Trace (Tells driver) place said last) :
    ∃ more, whole = said ++ more ∧ Halts driver last more ending := by
  induction said generalizing place whole with
  | nil =>
      obtain rfl := eq_of_trace_nil htrace
      exact ⟨whole, rfl, hhalts⟩
  | cons exchange rest ih =>
      obtain ⟨call, answer⟩ := exchange
      obtain ⟨middle, htells, hrest⟩ := trace_cons_iff.mp htrace
      obtain ⟨final, hwhole, hdone⟩ := hhalts
      cases whole with
      | nil =>
          obtain rfl := eq_of_trace_nil hwhole
          cases htells.due.symm.trans hdone
      | cons first more =>
          obtain ⟨otherCall, otherAnswer⟩ := first
          obtain ⟨other, hother, hmore⟩ := trace_cons_iff.mp hwhole
          obtain rfl : call = otherCall := Due.call.inj (htells.due.symm.trans hother.due)
          obtain ⟨rfl, hleft⟩ := Prod.mk.inj (htells.answered.symm.trans hother.answered)
          obtain rfl : middle = other :=
            Prod.ext (htells.resumed.trans hother.resumed.symm) hleft
          obtain ⟨left, rfl, hlast⟩ := ih ⟨final, hmore, hdone⟩ hrest
          exact ⟨left, rfl, hlast⟩

/-- A driver that is done says no more. -/
theorem Halts.of_done {driver : Driver σ} {place : σ × List Bytes}
    {said : List (DriverCall × Option Bytes)} {ending result : Option (Except Text Bytes)}
    (hhalts : Halts driver place said ending) (hdone : driver.due place.1 = .done result) :
    said = [] ∧ ending = result := by
  obtain ⟨last, htrace, hlast⟩ := hhalts
  cases said with
  | nil =>
      obtain rfl := eq_of_trace_nil htrace
      exact ⟨rfl, Due.done.inj (hlast.symm.trans hdone)⟩
  | cons exchange rest =>
      obtain ⟨middle, htells, -⟩ := trace_cons_iff.mp htrace
      cases htells.due.symm.trans hdone

/-- A driver that halts has one thing to say, and one ending. -/
theorem halts_unique {driver : Driver σ} {place : σ × List Bytes}
    {said other : List (DriverCall × Option Bytes)} {ending result : Option (Except Text Bytes)}
    (hhalts : Halts driver place said ending) (hother : Halts driver place other result) :
    other = said ∧ result = ending := by
  obtain ⟨last, htrace, hdone⟩ := hhalts
  obtain ⟨more, rfl, hmore⟩ := hother.rest htrace
  obtain ⟨rfl, hsame⟩ := hmore.of_done hdone
  exact ⟨List.append_nil said, hsame⟩

/-! ## What the caller pushes -/

def Turn.byCaller : Turn → Option Label
  | .push chunk => some (.push chunk)
  | .pushEnd => some .pushEnd
  | _ => none

/-- What the caller pushed before it ended the inbound stream. -/
def pushedBy (turns : List Turn) : List Bytes := pushed (turns.filterMap Turn.byCaller)

/-- All that the caller pushes in the end, as far as the turns tell. -/
structure Continues (turns : List Turn) (chunks : List Bytes) : Prop where
  begun : pushedBy turns <+: chunks
  closed : .pushEnd ∈ turns → chunks = pushedBy turns

/-- What a driver on the stream shows the caller. -/
structure Determined (driver : Driver σ) (turns : List Turn) (final : DrivenStream σ) : Prop where
  /-- However the caller goes on, it has seen the beginning of what the driver alone emits. -/
  shown : ∀ chunks, Continues turns chunks →
    ∃ said place, Trace (Tells driver) (driver.start, chunks) said place ∧
      final.seen <+: emits said
  /-- When the end is known it has seen all of it, and reads the result of the driver alone. -/
  complete : final.run.stream.finished = true → ∀ chunks, Continues turns chunks →
    ∃ said ending, Halts driver (driver.start, chunks) said ending ∧
      final.seen = emits said ∧ final.run.stream.result = resultOf (reportOf ending)

variable {driver : Driver σ} {state next final : DrivenStream σ} {past turns : List Turn}
variable {turn : Turn} {chunks : List Bytes}

theorem pushed_append (labels more : List Label) :
    pushed labels <+: pushed (labels ++ more) ∧
      (.pushEnd ∈ labels → pushed (labels ++ more) = pushed labels) := by
  induction labels with
  | nil => exact ⟨List.nil_prefix, by simp⟩
  | cons label rest ih =>
      cases label with
      | pushEnd => exact ⟨List.prefix_refl _, fun _ => rfl⟩
      | push chunk =>
          refine ⟨List.prefix_cons_inj chunk |>.mpr ih.1, fun hmem => ?_⟩
          exact congrArg (chunk :: ·) (ih.2 (by simpa using hmem))
      | _ => exact ⟨ih.1, fun hmem => ih.2 (by simpa using hmem)⟩

theorem mem_byCaller (turns : List Turn) :
    Label.pushEnd ∈ turns.filterMap Turn.byCaller ↔ .pushEnd ∈ turns := by
  rw [List.mem_filterMap]
  constructor
  · rintro ⟨turn, hmem, hcaller⟩
    cases turn with
    | pushEnd => exact hmem
    | _ => cases hcaller
  · exact fun hmem => ⟨_, hmem, rfl⟩

/-- What is to come is told better by more turns. -/
theorem Continues.earlier (hcontinues : Continues (past ++ [turn]) chunks) :
    Continues past chunks := by
  obtain ⟨hfront, hclosed⟩ := pushed_append (past.filterMap Turn.byCaller)
    ([turn].filterMap Turn.byCaller)
  have hsplit : pushedBy (past ++ [turn]) =
      pushed (past.filterMap Turn.byCaller ++ [turn].filterMap Turn.byCaller) := by
    rw [pushedBy, List.filterMap_append]
  refine ⟨List.IsPrefix.trans ?_ hcontinues.begun, fun hmem => ?_⟩
  · rw [hsplit]
    exact hfront
  · rw [hcontinues.closed (List.mem_append_left _ hmem), hsplit]
    exact hclosed ((mem_byCaller past).mpr hmem)

/-! ## The run follows the driver alone -/

/-- The worker has said what the driver alone says, whatever is pushed after this, and the
driver is where it then is. -/
structure Tracks (driver : Driver σ) (past : List Turn) (state : DrivenStream σ) : Prop where
  bridge : ∃ labels said, run P3sRun.step {} labels = some state.run ∧
    surfacedBy {} labels = state.seen ∧
    labels.filter Label.isCaller = past.filterMap Turn.byCaller ∧ emitted labels = emits said ∧
    past.countP Turn.isWorker = cost said + state.pace ∧
    ∀ chunks, Continues past chunks →
      Trace (Tells driver) (driver.start, chunks) said (state.now, chunks.drop state.taken)
  waits : state.run.waiting = true → driver.due state.now = .call .await
  stopped : state.run.report ≠ .running →
    ∃ ending, driver.due state.now = .done ending ∧ state.run.report = reportOf ending

theorem tracks_start (driver : Driver σ) : Tracks driver [] (.start driver) where
  bridge := ⟨[], [], rfl, rfl, rfl, rfl, rfl, fun _ _ => .nil⟩
  waits := fun hwaiting => by cases hwaiting
  stopped := fun hover => absurd rfl hover

/-- One step of the bridge, with what the driver says in it. -/
theorem Tracks.extend (htracks : Tracks driver past state) {label : Label}
    (said : List (DriverCall × Option Bytes)) (hstep : state.run.step label = some next.run)
    (hseen : next.seen = state.seen ++ seen label next.run)
    (hcaller : [label].filter Label.isCaller = [turn].filterMap Turn.byCaller)
    (hemitted : emitted [label] = emits said)
    (hpace : [turn].countP Turn.isWorker + state.pace = cost said + next.pace)
    (hwaits : next.run.waiting = true → driver.due next.now = .call .await)
    (htells : ∀ chunks, Continues past chunks →
      Trace (Tells driver) (state.now, chunks.drop state.taken) said
        (next.now, chunks.drop next.taken))
    (hover : next.run.report ≠ .running →
      ∃ ending, driver.due next.now = .done ending ∧ next.run.report = reportOf ending) :
    Tracks driver (past ++ [turn]) next := by
  obtain ⟨labels, before, hlabels, hsurfaced, hfilter, hbefore, hcount, htrace⟩ := htracks.bridge
  refine ⟨⟨labels ++ [label], before ++ said, ?_, ?_, ?_, ?_, ?_, ?_⟩, hwaits, hover⟩
  · exact run_append_eq_some.mpr ⟨_, hlabels, run_singleton_eq_some.mpr hstep⟩
  · rw [surfacedBy_append hlabels, surfacedBy_cons hstep, hsurfaced, hseen, surfacedBy,
      List.append_nil]
  · rw [List.filter_append, hfilter, hcaller, List.filterMap_append]
  · rw [emitted, List.filterMap_append, ← emitted, ← emitted, hbefore, hemitted, emits, emits, emits,
      List.filterMap_append]
  · rw [List.countP_append, hcount, cost_append]
    omega
  · intro chunks hcontinues
    exact (htrace chunks hcontinues.earlier).trans (htells chunks hcontinues.earlier)

/-- What a driver that awaits has read, and what is there for it. -/
theorem Tracks.awaited (htracks : Tracks driver past state) (hwaiting : state.run.waiting = true) :
    (∃ read, state.taken = read.length ∧ read ++ state.run.stream.inTx.queue = pushedBy past) ∧
      (state.run.stream.inTx.sending = false ↔ .pushEnd ∈ past) := by
  obtain ⟨labels, said, hlabels, -, hfilter, -, -, -⟩ := htracks.bridge
  have harriving := arriving_run hlabels
  obtain ⟨read, n, hreceived, -, hqueue, -⟩ := harriving.received
  refine ⟨⟨read, ?_, ?_⟩, ?_⟩
  · rw [DrivenStream.taken, hreceived]
    simp [List.filterMap_append]
  · rw [hqueue (harriving.awaits hwaiting), ← pushed_filter, hfilter, pushedBy]
  · rw [harriving.sending, ← mem_byCaller, ← hfilter, List.all_eq_false, List.mem_filter]
    constructor
    · rintro ⟨label, hmem, hclosed⟩
      cases label with
      | pushEnd => exact ⟨hmem, rfl⟩
      | _ => exact (hclosed rfl).elim
    · exact fun hmem => ⟨_, hmem.1, by simp [Label.isOpen]⟩

/-- What an await of the driver is answered with is what the chunks have next. -/
theorem Tracks.next_chunk (htracks : Tracks driver past state) (hwaiting : state.run.waiting = true)
    (hready : state.run.stream.inTx.queue = [] → state.run.stream.inTx.sending = false)
    (hcontinues : Continues past chunks) :
    (chunks.drop state.taken).head? = state.run.stream.inTx.queue.head? := by
  obtain ⟨⟨read, htaken, hall⟩, hclosed⟩ := htracks.awaited hwaiting
  obtain ⟨more, hmore⟩ := hcontinues.begun
  rw [htaken, ← hmore, ← hall, List.append_assoc, List.drop_left]
  cases hfront : state.run.stream.inTx.queue with
  | cons chunk rest => rfl
  | nil =>
      have hsame := hcontinues.closed (hclosed.mp (hready hfront))
      have hnone : more = [] := by simpa [← hmore] using hsame
      rw [hnone]
      rfl

/-- What is left of the chunks when the driver is woken with the next one, or with the end. -/
theorem drop_taken {answer : Option Bytes}
    (hreceived : next.run.received = state.run.received ++ [answer])
    (hnext : (chunks.drop state.taken).head? = answer) :
    chunks.drop next.taken = (chunks.drop state.taken).tail := by
  rw [List.tail_drop, DrivenStream.taken, DrivenStream.taken, hreceived, List.filterMap_append,
    List.length_append]
  cases answer with
  | some chunk => rfl
  | none =>
      have hlength := List.drop_eq_nil_iff.mp (List.head?_eq_none_iff.mp hnext)
      rw [DrivenStream.taken] at hlength
      rw [List.drop_eq_nil_of_le (by simpa using hlength), List.drop_eq_nil_of_le (by omega)]

/-- A driver that has something to do is running. -/
theorem Tracks.running (htracks : Tracks driver past state) {call : DriverCall}
    (hdue : driver.due state.now = .call call) : state.run.report = .running := by
  by_contra hover
  obtain ⟨ending, hdone, -⟩ := htracks.stopped hover
  cases hdue.symm.trans hdone

/-- A call of the driver that is answered at once. -/
theorem tracks_call (htracks : Tracks driver past state) {call : DriverCall}
    (hdue : driver.due state.now = .call call) (hcall : call ≠ .await)
    (hstep : state.worker driver = some next) : Tracks driver (past ++ [.worker]) next := by
  have hrunning := htracks.running hdue
  obtain ⟨run, hrun, rfl⟩ := Option.map_eq_some_iff.mp hstep
  have hidle : state.run.waiting ≠ true := by
    intro hwaiting
    exact hcall (Due.call.inj (hdue.symm.trans (htracks.waits hwaiting)))
  have hgoesOn : state.goesOn driver run = driver.resume state.now none := by
    rw [DrivenStream.goesOn, hdue]
    cases call with
    | await => exact absurd rfl hcall
    | _ => rfl
  have htells : ∀ left,
      Tells driver (state.now, left) call none (driver.resume state.now none, left) := by
    intro left
    refine ⟨hdue, ?_, rfl⟩
    cases call with
    | await => exact absurd rfl hcall
    | _ => rfl
  rw [hdue] at hrun
  rw [hgoesOn]
  cases call with
  | await => exact absurd rfl hcall
  | chunk bytes =>
      have hemit := hrun
      obtain ⟨-, rfl⟩ := whileRunning_eq_some.mp hemit
      exact htracks.extend [(.chunk bytes, none)] hrun (List.append_nil _).symm rfl rfl rfl
        (fun hwaiting => absurd hwaiting hidle) (fun chunks _ => Trace.nil.snoc (htells _))
        fun hover => absurd hrunning hover
  | endOut =>
      have hemit := hrun
      obtain ⟨-, rfl⟩ := whileRunning_eq_some.mp hemit
      exact htracks.extend [(.endOut, none)] hrun (List.append_nil _).symm rfl rfl rfl
        (fun hwaiting => absurd hwaiting hidle) (fun chunks _ => Trace.nil.snoc (htells _))
        fun hover => absurd hrunning hover
  | dropInbound =>
      have hdrop := hrun
      simp only [Due.label, P3sRun.step, P3sRun.dropInbound, Option.ite_none_left_eq_some,
        whileRunning_eq_some] at hdrop
      obtain ⟨-, -, rfl⟩ := hdrop
      exact htracks.extend [(.dropInbound, none)] hrun (List.append_nil _).symm rfl rfl rfl
        (fun hwaiting => absurd hwaiting hidle) (fun chunks _ => Trace.nil.snoc (htells _))
        fun hover => absurd hrunning hover

/-- An await of the driver. -/
theorem tracks_await (htracks : Tracks driver past state)
    (hdue : driver.due state.now = .call .await) (hstep : state.worker driver = some next) :
    Tracks driver (past ++ [.worker]) next := by
  have hrunning := htracks.running hdue
  obtain ⟨run, hrun, rfl⟩ := Option.map_eq_some_iff.mp hstep
  rw [hdue] at hrun
  cases hwaiting : state.run.waiting with
  | false =>
      have hgoesOn : state.goesOn driver run = state.now := by
        simp [DrivenStream.goesOn, hdue, hwaiting]
      rw [hwaiting] at hrun
      have hawait := hrun
      simp only [Due.label, Bool.false_eq_true, if_false, P3sRun.step, P3sRun.await,
        Option.ite_none_right_eq_some, whileRunning_eq_some] at hawait
      obtain ⟨-, -, rfl⟩ := hawait
      rw [hgoesOn]
      refine htracks.extend [] hrun (List.append_nil _).symm rfl rfl ?_ (fun _ => hdue)
        (fun chunks _ => .nil) fun hover => absurd hrunning hover
      simp [DrivenStream.pace, hrunning, hwaiting, cost, Turn.isWorker]
  | true =>
      rw [hwaiting] at hrun
      obtain ⟨-, hready, hwoken⟩ := wake_eq_some.mp hrun
      have hreceived : run.received = state.run.received ++ [state.run.stream.inTx.queue.head?] := by
        rw [hwoken]
      have hgoesOn : state.goesOn driver run =
          driver.resume state.now state.run.stream.inTx.queue.head? := by
        simp [DrivenStream.goesOn, hdue, hwaiting, hreceived]
      have hreport : run.report = state.run.report := by rw [hwoken]
      have hidle : run.waiting = false := by rw [hwoken]
      refine htracks.extend [(.await, state.run.stream.inTx.queue.head?)] hrun
        (List.append_nil _).symm rfl rfl ?_ (fun hagain => absurd hagain (by simp [hidle]))
        (fun chunks hcontinues => ?_) fun hover => absurd (hreport.trans hrunning) hover
      · simp [DrivenStream.pace, hreport, hrunning, hwaiting, hidle, cost, DriverCall.turns,
          Turn.isWorker]
      · have hnext := htracks.next_chunk hwaiting hready hcontinues
        have htail : chunks.drop ({ state with now := state.goesOn driver run, run } :
            DrivenStream σ).taken = (chunks.drop state.taken).tail := drop_taken hreceived hnext
        exact Trace.nil.snoc ⟨hdue, Prod.ext hnext htail.symm, hgoesOn⟩

/-- The driver has returned, or panicked. -/
theorem tracks_done (htracks : Tracks driver past state) {ending : Option (Except Text Bytes)}
    (hdue : driver.due state.now = .done ending) (hstep : state.worker driver = some next) :
    Tracks driver (past ++ [.worker]) next := by
  obtain ⟨run, hrun, rfl⟩ := Option.map_eq_some_iff.mp hstep
  have hgoesOn : state.goesOn driver run = state.now := by rw [DrivenStream.goesOn, hdue]
  have hidle : state.run.waiting = false := by
    rw [← Bool.not_eq_true]
    intro hwaiting
    cases hdue.symm.trans (htracks.waits hwaiting)
  rw [hgoesOn]
  rw [hdue] at hrun
  cases ending with
  | some result =>
      have hfinish := hrun
      obtain ⟨hrunning, rfl⟩ := whileRunning_eq_some.mp hfinish
      refine htracks.extend [] hrun (List.append_nil _).symm rfl rfl ?_
        (fun hwaiting => by cases hwaiting) (fun chunks _ => .nil) fun _ => ⟨_, hdue, rfl⟩
      simp [DrivenStream.pace, hrunning, hidle, cost, Turn.isWorker, P3sRun.ended]
  | none =>
      have hvanish := hrun
      obtain ⟨hrunning, rfl⟩ := whileRunning_eq_some.mp hvanish
      refine htracks.extend [] hrun (List.append_nil _).symm rfl rfl ?_
        (fun hwaiting => by cases hwaiting) (fun chunks _ => .nil) fun _ => ⟨_, hdue, rfl⟩
      simp [DrivenStream.pace, hrunning, hidle, cost, Turn.isWorker, P3sRun.ended]

/-- Every turn keeps the run on the track of the driver alone. -/
theorem tracks_step (htracks : Tracks driver past state)
    (hstep : state.step driver turn = some next) : Tracks driver (past ++ [turn]) next := by
  cases turn with
  | worker =>
      cases hdue : driver.due state.now with
      | done ending => exact tracks_done htracks hdue hstep
      | call call =>
          by_cases hcall : call = .await
          · subst hcall
            exact tracks_await htracks hdue hstep
          · exact tracks_call htracks hdue hcall hstep
  | poll =>
      obtain ⟨run, hrun, rfl⟩ := Option.map_eq_some_iff.mp hstep
      have hpoll := hrun
      obtain ⟨⟨status, stream⟩, -, rfl⟩ := Option.map_eq_some_iff.mp hpoll
      exact htracks.extend [] hrun rfl rfl rfl rfl htracks.waits (fun _ _ => .nil) htracks.stopped
  | push chunk =>
      rw [DrivenStream.step, DrivenStream.push, Option.map_eq_some_iff] at hstep
      obtain ⟨run, hrun, rfl⟩ := hstep
      have hpush := hrun
      obtain rfl := Option.some.inj hpush
      exact htracks.extend [] hrun (List.append_nil _).symm rfl rfl rfl htracks.waits
        (fun _ _ => .nil) htracks.stopped
  | pushEnd =>
      rw [DrivenStream.step, DrivenStream.pushEnd, Option.map_eq_some_iff] at hstep
      obtain ⟨run, hrun, rfl⟩ := hstep
      have hpush := hrun
      obtain rfl := Option.some.inj hpush
      exact htracks.extend [] hrun (List.append_nil _).symm rfl rfl rfl htracks.waits
        (fun _ _ => .nil) htracks.stopped

theorem tracks_run (hrun : run (DrivenStream.step driver) (.start driver) turns = some final) :
    Tracks driver turns final :=
  run_history (fun _ _ _ _ => tracks_step) (tracks_start driver) hrun

/-- A worker that has returned has said all that the driver alone says. -/
theorem Tracks.returned (htracks : Tracks driver past state)
    (hstopped : state.run.report ≠ .running) (hcontinues : Continues past chunks) :
    ∃ said ending, Halts driver (driver.start, chunks) said ending ∧
      state.run.report = reportOf ending ∧ past.countP Turn.isWorker = cost said + 1 ∧
      ∃ labels, run P3sRun.step {} labels = some state.run ∧
        surfacedBy {} labels = state.seen ∧ emitted labels = emits said := by
  obtain ⟨ending, hdone, hreport⟩ := htracks.stopped hstopped
  obtain ⟨labels, said, hlabels, hsurfaced, -, hemitted, hcount, htrace⟩ := htracks.bridge
  have hone : state.pace = 1 := by
    rw [DrivenStream.pace, hreport]
    cases ending <;> rfl
  exact ⟨said, ending, ⟨_, htrace chunks hcontinues, hdone⟩, hreport, by rw [hcount, hone], labels,
    hlabels, hsurfaced, hemitted⟩

/-- Whatever the interleaving of the threads, what the caller sees of a driver is what
the driver alone does with what is pushed. -/
theorem determined_of_run (driver : Driver σ) (turns : List Turn) (final : DrivenStream σ)
    (hrun : run (DrivenStream.step driver) (.start driver) turns = some final) :
    Determined driver turns final := by
  have htracks := tracks_run hrun
  constructor
  case shown =>
    intro chunks hcontinues
    obtain ⟨labels, said, hlabels, hsurfaced, -, hemitted, -, htrace⟩ := htracks.bridge
    refine ⟨said, _, htrace chunks hcontinues, ?_⟩
    rw [← hsurfaced, ← hemitted]
    exact (delivered_of_run labels final.run hlabels).outbound
  case complete =>
    intro hfinished chunks hcontinues
    obtain ⟨labels, -, hlabels, -⟩ := htracks.bridge
    have hflowing := (surfacedBy_append_queuedOut flowing_start hlabels).1
    obtain ⟨hstopped, hresult⟩ := hflowing.consistent.ended hfinished
    obtain ⟨said, ending, hhalts, hreport, -, others, hothers, hsurfaced, hemitted⟩ :=
      htracks.returned hstopped hcontinues
    refine ⟨said, ending, hhalts, ?_, hresult.trans (congrArg resultOf hreport)⟩
    rw [← hsurfaced, ← hemitted]
    exact (delivered_of_run others final.run hothers).complete hfinished

/-- The driver of the streaming tests: it asks twice and gives back all that it is sent. -/
inductive EchoState where
  | first | second | asked
  | reading (acc : Bytes)
  | finished (acc : Bytes)

def p3sEchoDriver : Driver EchoState where
  start := .first
  due
    | .first => .call (.chunk (asBytes "req-1".toList))
    | .second => .call (.chunk (asBytes "req-2".toList))
    | .asked => .call .endOut
    | .reading _ => .call .await
    | .finished acc => .done (some (.ok acc))
  resume
    | .first, _ => .second
    | .second, _ => .asked
    | .asked, _ => .reading []
    | .reading acc, some chunk => .reading (acc ++ chunk)
    | .reading acc, none => .finished acc
    | .finished acc, _ => .finished acc
  holds := fun _ => true
  holds_start := rfl
  holds_await := fun _ _ => rfl
  holds_resume := by
    intro state call answer hdue
    cases state <;> cases hdue <;> rfl

theorem determined_of_run_example :
    let turns : List Turn := [.push [0x31], .worker, .worker, .worker, .poll, .worker, .worker,
      .poll, .push [0x32], .pushEnd, .worker, .poll, .worker, .worker, .worker, .worker, .poll]
    ∃ final, run (DrivenStream.step p3sEchoDriver) (.start p3sEchoDriver) turns = some final ∧
      final.run.stream.result = [0x31, 0x32] ∧ Determined p3sEchoDriver turns final :=
  ⟨_, rfl, rfl, determined_of_run _ _ _ rfl⟩

/-- The order of the threads is immaterial: two sessions of one driver that can go on to
the same pushes have shown the same when they end. -/
theorem agree_of_runs (driver : Driver σ) {turns others : List Turn} {final other : DrivenStream σ}
    (hrun : run (DrivenStream.step driver) (.start driver) turns = some final)
    (hother : run (DrivenStream.step driver) (.start driver) others = some other)
    (hfinished : final.run.stream.finished = true) (hend : other.run.stream.finished = true)
    {chunks : List Bytes} (hcontinues : Continues turns chunks) (hsame : Continues others chunks) :
    other.seen = final.seen ∧ other.run.stream.result = final.run.stream.result := by
  obtain ⟨said, ending, hhalts, hseen, hresult⟩ :=
    (determined_of_run driver turns final hrun).complete hfinished chunks hcontinues
  obtain ⟨otherSaid, otherEnding, hotherHalts, hotherSeen, hotherResult⟩ :=
    (determined_of_run driver others other hother).complete hend chunks hsame
  obtain ⟨rfl, rfl⟩ := halts_unique hhalts hotherHalts
  exact ⟨hotherSeen.trans hseen.symm, hotherResult.trans hresult.symm⟩

theorem agree_of_runs_example :
    let turns : List Turn :=
      [.push [0x31], .pushEnd] ++ List.replicate 8 .worker ++ List.replicate 4 .poll
    let others : List Turn := [.worker, .poll, .worker, .worker, .worker, .push [0x31], .poll,
      .worker, .poll, .worker, .pushEnd, .push [0x32], .worker, .worker, .poll]
    ∃ final other, run (DrivenStream.step p3sEchoDriver) (.start p3sEchoDriver) turns = some final ∧
      run (DrivenStream.step p3sEchoDriver) (.start p3sEchoDriver) others = some other ∧
      other.seen = final.seen ∧ other.run.stream.result = final.run.stream.result := by
  intro turns others
  obtain ⟨final, hrun, hfinished⟩ : ∃ final, run (DrivenStream.step p3sEchoDriver)
      (.start p3sEchoDriver) turns = some final ∧ final.run.stream.finished = true := ⟨_, rfl, rfl⟩
  obtain ⟨other, hother, hend⟩ : ∃ other, run (DrivenStream.step p3sEchoDriver)
      (.start p3sEchoDriver) others = some other ∧ other.run.stream.finished = true := ⟨_, rfl, rfl⟩
  have hcontinues : Continues turns [[0x31]] := ⟨List.prefix_refl _, fun _ => rfl⟩
  have hsame : Continues others [[0x31]] := ⟨List.prefix_refl _, fun _ => rfl⟩
  exact ⟨final, other, hrun, hother,
    agree_of_runs p3sEchoDriver hrun hother hfinished hend hcontinues hsame⟩

/-! ## The worker blocks for the caller alone -/

/-- The worker awaits a chunk: all that was pushed is read, and the stream is not ended. -/
structure Starved (driver : Driver σ) (turns : List Turn) (state : DrivenStream σ) : Prop where
  awaits : driver.due state.now = .call .await
  read : state.taken = (pushedBy turns).length
  live : .pushEnd ∉ turns

/-- How long a driver goes on, and when it stops for a while. -/
structure Paced (driver : Driver σ) (turns : List Turn) (state : DrivenStream σ) : Prop where
  /-- The worker takes two turns for each await, one for any other call, and one to return. -/
  bounded : ∀ chunks said ending, Continues turns chunks →
    Halts driver (driver.start, chunks) said ending →
    turns.countP Turn.isWorker ≤ cost said + 1 ∧
    (state.run.report ≠ .running → turns.countP Turn.isWorker = cost said + 1)
  /-- A worker that has not returned can go on, or awaits what the caller has not pushed. -/
  worker : state.run.report = .running →
    (∃ next, state.step driver .worker = some next) ∨ Starved driver turns state
  /-- A poll blocks only while the worker runs and all that it emitted has surfaced. -/
  poll : (∃ next, state.step driver .poll = some next) ∨
    state.run.report = .running ∧ queuedOut state.run = []

theorem receiving_push (stream : HwrP3Stream) (chunk : Bytes) :
    (stream.push chunk).inTx.receiving = stream.inTx.receiving := by
  rw [HwrP3Stream.push]
  split
  · cases hreceiving : stream.inTx.receiving with
    | true => rw [Channel.send_eq_some.mpr ⟨hreceiving, rfl⟩]; exact hreceiving
    | false => rw [Channel.send_eq_none.mpr hreceiving]; exact hreceiving
  · rfl

/-- While the worker runs, the receiver is there exactly if the driver holds it. -/
def Holds (driver : Driver σ) (state : DrivenStream σ) : Prop :=
  state.run.report = .running → state.run.stream.inTx.receiving = driver.holds state.now

theorem holds_worker (hholds : Holds driver state) (hstep : state.worker driver = some next) :
    Holds driver next := by
  obtain ⟨run, hrun, rfl⟩ := Option.map_eq_some_iff.mp hstep
  intro hlive
  cases hdue : driver.due state.now with
  | done ending =>
      rw [hdue] at hrun
      cases ending with
      | some result =>
          obtain ⟨-, rfl⟩ := whileRunning_eq_some.mp hrun
          cases hlive
      | none =>
          obtain ⟨-, rfl⟩ := whileRunning_eq_some.mp hrun
          cases hlive
  | call call =>
      have hkept := fun answer => driver.holds_resume state.now call answer hdue
      rw [hdue] at hrun
      cases call with
      | chunk bytes =>
          obtain ⟨hrunning, rfl⟩ := whileRunning_eq_some.mp hrun
          simpa [DrivenStream.goesOn, hdue, hkept] using hholds hrunning
      | endOut =>
          obtain ⟨hrunning, rfl⟩ := whileRunning_eq_some.mp hrun
          simpa [DrivenStream.goesOn, hdue, hkept] using hholds hrunning
      | dropInbound =>
          simp only [Due.label, P3sRun.step, P3sRun.dropInbound, Option.ite_none_left_eq_some,
            whileRunning_eq_some] at hrun
          obtain ⟨-, -, rfl⟩ := hrun
          simp [DrivenStream.goesOn, hdue, hkept]
      | await =>
          cases hwaiting : state.run.waiting with
          | false =>
              simp only [Due.label, hwaiting, Bool.false_eq_true, if_false, P3sRun.step,
                P3sRun.await, Option.ite_none_right_eq_some, whileRunning_eq_some] at hrun
              obtain ⟨-, hrunning, rfl⟩ := hrun
              simpa [DrivenStream.goesOn, hdue, hwaiting] using hholds hrunning
          | true =>
              simp only [Due.label, hwaiting, if_true] at hrun
              obtain ⟨-, -, rfl⟩ := wake_eq_some.mp hrun
              simpa [DrivenStream.goesOn, hdue, hwaiting, hkept] using hholds hlive

theorem holds_step (hholds : Holds driver state) (hstep : state.step driver turn = some next) :
    Holds driver next := by
  cases turn with
  | worker => exact holds_worker hholds hstep
  | poll =>
      obtain ⟨run, hrun, rfl⟩ := Option.map_eq_some_iff.mp hstep
      have hsame := congrArg Channel.receiving (inTx_poll hrun)
      obtain ⟨polled, -, rfl⟩ := Option.map_eq_some_iff.mp hrun
      exact fun hlive => hsame.trans (hholds hlive)
  | push chunk =>
      rw [DrivenStream.step, DrivenStream.push, Option.map_eq_some_iff] at hstep
      obtain ⟨run, hrun, rfl⟩ := hstep
      obtain rfl := Option.some.inj hrun
      exact fun hlive => (receiving_push state.run.stream chunk).trans (hholds hlive)
  | pushEnd =>
      rw [DrivenStream.step, DrivenStream.pushEnd, Option.map_eq_some_iff] at hstep
      obtain ⟨run, hrun, rfl⟩ := hstep
      obtain rfl := Option.some.inj hrun
      exact hholds

theorem holds_run (hrun : run (DrivenStream.step driver) (.start driver) turns = some final) :
    Holds driver final :=
  run_preserves (fun _ _ _ => holds_step) (fun _ => driver.holds_start.symm) hrun

/-- A running worker goes on, or is starved. -/
theorem worker_or_starved (htracks : Tracks driver past state) (hholds : Holds driver state)
    (hrunning : state.run.report = .running) :
    (∃ next, state.step driver .worker = some next) ∨ Starved driver past state := by
  have hgo : (∃ run, state.run.step ((driver.due state.now).label state.run.waiting) = some run) →
      ∃ next, state.step driver .worker = some next := by
    rintro ⟨run, hrun⟩
    exact ⟨_, Option.map_eq_some_iff.mpr ⟨run, hrun, rfl⟩⟩
  have hwhile : ∀ after : P3sRun, whileRunning state.run.report after = some after :=
    fun after => whileRunning_eq_some.mpr ⟨hrunning, rfl⟩
  cases hdue : driver.due state.now with
  | done ending =>
      rw [hdue] at hgo
      cases ending with
      | some result => exact .inl (hgo ⟨_, hwhile _⟩)
      | none => exact .inl (hgo ⟨_, hwhile _⟩)
  | call call =>
      rw [hdue] at hgo
      cases call with
      | chunk bytes => exact .inl (hgo ⟨_, hwhile _⟩)
      | endOut => exact .inl (hgo ⟨_, hwhile _⟩)
      | dropInbound =>
          have hidle : state.run.waiting ≠ true := by
            intro hwaiting
            cases hdue.symm.trans (htracks.waits hwaiting)
          exact .inl (hgo ⟨_, Option.ite_none_left_eq_some.mpr ⟨hidle, hwhile _⟩⟩)
      | await =>
          cases hwaiting : state.run.waiting with
          | false =>
              rw [hwaiting] at hgo
              have hreceiving := (hholds hrunning).trans (driver.holds_await _ hdue)
              exact .inl (hgo ⟨_, Option.ite_none_right_eq_some.mpr ⟨hreceiving, hwhile _⟩⟩)
          | true =>
              rw [hwaiting] at hgo
              obtain ⟨⟨read, htaken, hall⟩, hclosed⟩ := htracks.awaited hwaiting
              by_cases hready : state.run.stream.inTx.queue = [] →
                  state.run.stream.inTx.sending = false
              · exact .inl (hgo ⟨_, wake_eq_some.mpr ⟨hwaiting, hready, rfl⟩⟩)
              · obtain ⟨hempty, hsending⟩ := Classical.not_imp.mp hready
                rw [hempty, List.append_nil] at hall
                exact .inr ⟨hdue, by rw [htaken, hall], fun hmem => hsending (hclosed.mpr hmem)⟩

/-- A poll goes on, or the worker runs and nothing is there. -/
theorem poll_or_drained (hflowing : Flowing state.run) :
    (∃ next, state.step driver .poll = some next) ∨
      state.run.report = .running ∧ queuedOut state.run = [] := by
  cases hpoll : state.run.poll with
  | some run => exact .inl ⟨_, Option.map_eq_some_iff.mpr ⟨run, hpoll, rfl⟩⟩
  | none =>
      rw [P3sRun.poll, Option.map_eq_none_iff] at hpoll
      unfold HwrP3Stream.poll at hpoll
      split at hpoll
      · cases hpoll
      · cases hreceive : state.run.stream.rx.receive with
        | value event rx =>
            rw [hreceive] at hpoll
            cases event with
            | out chunk => cases hpoll
            | outEnd => cases hpoll
            | done result => cases result <;> cases hpoll
        | disconnected =>
            rw [hreceive] at hpoll
            cases hpoll
        | pending =>
            obtain ⟨hempty, hsending⟩ := Channel.receive_eq_pending.mp hreceive
            exact .inr ⟨hflowing.consistent.sending.mp hsending, by rw [queuedOut, hempty]; rfl⟩

theorem pace_le (state : DrivenStream σ) : state.pace ≤ 1 := by
  rw [DrivenStream.pace]
  split
  · cases state.run.waiting <;> decide
  · exact Nat.le_refl 1

/-- The worker takes as many turns as its driver alone needs, and stops in between only
where the caller has pushed no more; a poll blocks only where nothing is there. -/
theorem paced_of_run (driver : Driver σ) (turns : List Turn) (state : DrivenStream σ)
    (hrun : run (DrivenStream.step driver) (.start driver) turns = some state) :
    Paced driver turns state := by
  have htracks := tracks_run hrun
  obtain ⟨labels, said, hlabels, -, -, -, hcount, htrace⟩ := htracks.bridge
  constructor
  case bounded =>
    intro chunks whole ending hcontinues hhalts
    constructor
    · obtain ⟨more, rfl, -⟩ := hhalts.rest (htrace chunks hcontinues)
      have hpace := pace_le state
      rw [cost_append]
      omega
    · intro hstopped
      obtain ⟨other, result, hother, -, hturns, -⟩ := htracks.returned hstopped hcontinues
      obtain ⟨rfl, -⟩ := halts_unique hhalts hother
      exact hturns
  case worker => exact worker_or_starved htracks (holds_run hrun)
  case poll => exact poll_or_drained (surfacedBy_append_queuedOut flowing_start hlabels).1

theorem paced_of_run_example :
    ∃ state, run (DrivenStream.step p3sEchoDriver) (.start p3sEchoDriver)
        (List.replicate 4 .worker) = some state ∧
      (state.worker p3sEchoDriver).isNone = true ∧
      Paced p3sEchoDriver (List.replicate 4 .worker) state :=
  ⟨_, rfl, rfl, paced_of_run p3sEchoDriver _ _ rfl⟩

end HellohqRuntime.Bridge.StreamDriver
