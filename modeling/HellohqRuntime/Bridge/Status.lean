import HellohqRuntime.Bridge.Session
import HellohqRuntime.Bridge.Stream

/-!
# Terminal poll status

`finished` says that the end is known and not which end it is.  Both bridges
answer a poll after it with DONE.
-/

namespace HellohqRuntime.Bridge.Status

open HellohqRuntime.Foundation.Runs
open HellohqRuntime.Bridge.Reporting
open HellohqRuntime.Bridge.Session (P3Run)
open HellohqRuntime.Bridge.Stream (P3sRun P3sStatus)

/-- On both bridges the polls of a run are truthful and stable exactly where no poll
is made after the end is known of a run that did not return. -/
theorem truthful_iff_pollsSuccess (drive : Session.Drive) (session : List Session.Label)
    (stream : List Stream.Label) :
    (∀ final, run P3Run.step (P3Run.start drive) session = some final →
      (Truthful final.polls ↔
        EachStep P3Run.step Session.PollsSuccess (P3Run.start drive) session)) ∧
    ∀ final, run P3sRun.step {} stream = some final →
      (Truthful (final.polls.map (Polled.map P3sStatus.kind)) ↔
        EachStep P3sRun.step Stream.PollsSuccess {} stream) :=
  ⟨fun _ => Session.polls_truthful_iff, fun _ => Stream.polls_truthful_iff⟩

/-- A run that returns is told as such by two polls, on both bridges. -/
theorem truthful_iff_pollsSuccess_example :
    (∃ final, run P3Run.step (P3Run.start .sync) [.finish (.ok [0x6F]), .poll, .poll] =
        some final ∧ final.polls.map Polled.status = [.done, .done] ∧ Truthful final.polls) ∧
      ∃ final, run P3sRun.step {} [.endOut, .finish (.ok [0x6F]), .poll, .poll, .poll] =
        some final ∧ Truthful (final.polls.map (Polled.map P3sStatus.kind)) := by
  obtain ⟨hsession, hstream⟩ := truthful_iff_pollsSuccess .sync
    [.finish (.ok [0x6F]), .poll, .poll] [.endOut, .finish (.ok [0x6F]), .poll, .poll, .poll]
  exact ⟨⟨_, rfl, rfl, (hsession _ rfl).mpr (by decide)⟩,
    ⟨_, rfl, (hstream _ rfl).mpr (by decide)⟩⟩

/-- The poll after an ERROR says DONE, with the error message as the result. -/
theorem not_truthful_after_error :
    (∃ final, run P3Run.step (P3Run.start .async) [.finish (.error ['e']), .poll, .poll] =
        some final ∧ final.polls.map Polled.status = [.error, .done] ∧
        final.session.result = [0x65] ∧ ¬Truthful final.polls) ∧
      ∃ final, run P3sRun.step {} [.finish (.error ['e']), .poll, .poll] = some final ∧
        final.polls.map Polled.status = [.error, .done] ∧ final.stream.result = [0x65] ∧
        ¬Truthful (final.polls.map (Polled.map P3sStatus.kind)) := by
  have hdone : ∀ {polls : List (Polled Status)} {polled : Polled Status},
      polled ∈ polls → polled.status = .done → polled.report = .done (.error ['e']) →
        ¬Truthful polls := by
    intro polls polled hpolled hstatus hreport htruthful
    obtain ⟨out, hout⟩ := htruthful.done polled hpolled hstatus
    simp [hreport] at hout
  refine ⟨⟨_, rfl, rfl, by decide, ?_⟩, ⟨_, rfl, rfl, by decide, ?_⟩⟩
  · exact hdone (List.mem_cons_of_mem _ (List.mem_singleton_self _)) rfl rfl
  · exact hdone (List.mem_cons_of_mem _ (List.mem_singleton_self _)) rfl rfl

end HellohqRuntime.Bridge.Status
