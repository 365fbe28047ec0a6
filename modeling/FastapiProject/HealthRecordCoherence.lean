import FastapiProject.HealthCheckerAlerts
import FastapiProject.ListHistories

set_option autoImplicit false

/-!
# Coherence of the reported health record

The checker writes every field of the record in one piece. The channel-error branch of the
consumer writes the status alone.
-/
namespace FastapiProject.HealthRecordCoherence
open ListHistories HealthChecker HealthCheckerAlerts

variable {Time : Type}

/-- The fields that `GET /health/rabbitmq` reports do not contradict each other. -/
structure Coherent (h : RMQHealthState Time) : Prop where
  up_iff : h.status = .alive ∨ h.status = .recovered ↔
    h.queueExists = some true ∧ h.consecutiveFailures = 0
  degraded_iff : h.status = .degraded ↔ h.queueExists = some false
  dead_iff : h.status = .dead ↔ h.queueExists = none
  outage : h.status = .degraded ∨ h.status = .dead →
    0 < h.consecutiveFailures ∧ h.lastDead ≠ none

def StaysCoherent (es : List (Event Time)) : Prop :=
  ∀ pre, pre <+: es → pre ≠ [] → Coherent (afterEvents pre)

/-- The consumer meets its channel errors only while the checker has the queue as missing. -/
def KnownChannelErrors : List (Event Time) → Prop :=
  AtEvery fun pre e => e = .channelError → lastOutcome pre = some .queueMissing

section Ticks
variable {h : RMQHealthState Time}

theorem tick_coherent (before : h.status = .degraded ∨ h.status = .dead → h.lastDead ≠ none)
    (o : ProbeOutcome) (method : ProbeMethod) (now : Time) :
    Coherent (checkerTick h (o.result method) now).1 := by
  obtain ⟨degraded, dead⟩ := tick_status h o method now
  constructor
  · rw [checkerTick_up_iff, checkerTick_queueExists, checkerTick_consecutiveFailures]
    cases o <;> simp [ProbeOutcome.result]
  · rw [degraded, checkerTick_queueExists]
    cases o <;> simp [ProbeOutcome.result]
  · rw [dead, checkerTick_queueExists]
    cases o <;> simp [ProbeOutcome.result]
  · rw [degraded, dead, checkerTick_consecutiveFailures, checkerTick_lastDead]
    intro failed
    have unhealthy : o ≠ .healthy := by
      rintro rfl
      rcases failed with ⟨⟨⟩⟩ | ⟨⟨⟩⟩
    refine ⟨by rw [if_neg unhealthy]; omega, ?_⟩
    split
    · exact Option.some_ne_none now
    · -- The status did not change, so an earlier tick has set `last_dead`.
      rename_i unmoved
      rcases failed with rfl | rfl
      · exact before (.inl (by simpa using unmoved))
      · exact before (.inr (by simpa using unmoved))

theorem channelErrorBranch_missing (coherent : Coherent h) (missing : h.queueExists = some false) :
    channelErrorBranch h = h := by
  rw [channelErrorBranch, ← coherent.degraded_iff.mpr missing]

end Ticks

section Runs
variable {es : List (Event Time)} {e : Event Time}

theorem missing_after (es : List (Event Time)) :
    (afterEvents es).queueExists = some false ↔ lastOutcome es = some .queueMissing := by
  induction es using List.reverseRecOn with
  | nil => simp [afterEvents, lastOutcome]
  | append_singleton es e ih =>
    cases e with
    | tick o method now =>
      rw [afterEvents_tick, lastOutcome_tick, checkerTick_queueExists]
      cases o <;> simp [ProbeOutcome.result]
    | channelError =>
      rw [afterEvents_channelError, lastOutcome_channelError]
      exact ih

theorem outage_recorded (stays : StaysCoherent es)
    (outage : (afterEvents es).status = .degraded ∨ (afterEvents es).status = .dead) :
    (afterEvents es).lastDead ≠ none := by
  have ran : es ≠ [] := by
    rintro rfl
    rcases outage with ⟨⟨⟩⟩ | ⟨⟨⟩⟩
  exact ((stays es List.prefix_rfl ran).outage outage).2

theorem event_coherent (stays : StaysCoherent es)
    (known : e = .channelError → lastOutcome es = some .queueMissing) :
    Coherent (afterEvents (es ++ [e])) := by
  cases e with
  | tick o method now =>
    rw [afterEvents_tick]
    exact tick_coherent (outage_recorded stays) o method now
  | channelError =>
    have missing := known rfl
    have ran : es ≠ [] := by
      rintro rfl
      cases missing
    have coherent := stays es List.prefix_rfl ran
    rw [afterEvents_channelError,
      channelErrorBranch_missing coherent ((missing_after es).mpr missing)]
    exact coherent

theorem staysCoherent_of_known (known : KnownChannelErrors es) : StaysCoherent es := by
  induction es using List.reverseRecOn with
  | nil =>
    intro pre initial ran
    exact absurd (List.prefix_nil.mp initial) ran
  | append_singleton es e ih =>
    obtain ⟨earlier, last⟩ := atEvery_concat_iff.mp known
    have stays := ih earlier
    intro pre initial ran
    rcases List.prefix_concat_iff.mp initial with rfl | shorter
    · exact event_coherent stays last
    · exact stays pre shorter ran

end Runs

/-- The record stays coherent in exactly the runs in which the consumer has no news. -/
theorem staysCoherent_iff (es : List (Event Time)) : StaysCoherent es ↔ KnownChannelErrors es := by
  constructor
  · rintro stays pre e post rfl rfl
    have coherent := stays (pre ++ [.channelError]) ⟨post, by simp⟩ (by simp)
    rw [afterEvents_channelError] at coherent
    have missing := coherent.degraded_iff.mp rfl
    exact (missing_after pre).mp missing
  · exact staysCoherent_of_known

/-- A channel error after a healthy tick reports a degraded queue that exists. -/
theorem channelError_contradicts : ¬ StaysCoherent
    [Event.tick .healthy .passive 0, .channelError] := by
  intro stays
  have coherent := stays _ List.prefix_rfl (by simp)
  exact absurd (coherent.degraded_iff.mp rfl) (by decide)

end FastapiProject.HealthRecordCoherence
