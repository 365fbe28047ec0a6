import FastapiProject.HealthHistory

set_option autoImplicit false

/-!
# Recovery alerts of the checker

The docstring of `rmq_health_checker` takes `UNKNOWN` to `ALIVE` without a hook. The
condition before `on_rabbitmq_recovered` lists `UNKNOWN` beside the two kinds of outage.
-/
namespace FastapiProject.RecoveryAlerts
open ListHistories HealthChecker HealthHistory

variable {Time : Type}

def turn (s : RMQHealthState Time × List Hook) (t : Tick Time) : RMQHealthState Time × List Hook :=
  let (h, hook) := checkerTick s.1 (t.outcome.result t.method) t.time
  (h, s.2 ++ hook.toList)

def hooks (ticks : List (Tick Time)) : List Hook := (ticks.foldl turn ({}, [])).2

/-- An outage was announced since the last recovery alert. -/
def OutageAnnounced (past : List Hook) : Prop :=
  ∃ before alert since, past = before ++ alert :: since ∧
    (alert = .onRabbitmqDown ∨ alert = .onQueueMissing) ∧ .onRabbitmqRecovered ∉ since

def Alternates : List Hook → Prop :=
  AtEvery fun past hook => hook = .onRabbitmqRecovered → OutageAnnounced past

/-- A recovery alert closes an outage, and a first healthy probe raises none. -/
structure RecoveryLaw (ticks : List (Tick Time)) : Prop where
  recovered_iff : AtEvery (fun pre t => fired pre t = some .onRabbitmqRecovered ↔
    t.outcome = .healthy ∧ ∃ p ∈ pre.getLast?, p.outcome ≠ .healthy) ticks
  alternates : Alternates (hooks ticks)
  first_silent : ∀ t post, ticks = t :: post → t.outcome = .healthy →
    (afterTicks [t]).status = .alive ∧
      ∀ hook ∈ fired [] t, hook ∉ [.onRabbitmqRecovered, .onRabbitmqDown, .onQueueMissing]

section Hooks
variable (ticks : List (Tick Time)) (t : Tick Time)

theorem turns_record : (ticks.foldl turn ({}, [])).1 = afterTicks ticks := by
  induction ticks using List.reverseRecOn with
  | nil => rfl
  | append_singleton ticks t ih =>
    rw [List.foldl_append, List.foldl_cons, List.foldl_nil, turn, ih, afterTicks_concat]

theorem hooks_concat : hooks (ticks ++ [t]) = hooks ticks ++ (fired ticks t).toList := by
  rw [hooks, List.foldl_append, List.foldl_cons, List.foldl_nil, turn, turns_record, fired, hooks]

theorem recovered_iff_previous : fired ticks t = some .onRabbitmqRecovered ↔
    t.outcome = .healthy ∧ previousOutcome ticks ≠ some .healthy := by
  rw [fired_eq]
  cases t.outcome with
  | healthy => simp [hookDue]
  | queueMissing => simp [hookDue]
  | brokerDown => simp [hookDue]; split <;> simp

end Hooks

section Announcements
variable {past : List Hook} {hook : Hook}

theorem announced_concat (past : List Hook) (alert : hook = .onRabbitmqDown ∨ hook = .onQueueMissing) :
    OutageAnnounced (past ++ [hook]) :=
  ⟨past, hook, [], rfl, alert, List.not_mem_nil⟩

theorem OutageAnnounced.concat (announced : OutageAnnounced past)
    (other : hook ≠ .onRabbitmqRecovered) : OutageAnnounced (past ++ [hook]) := by
  obtain ⟨before, alert, since, rfl, kind, none⟩ := announced
  refine ⟨before, alert, since ++ [hook], by simp, kind, ?_⟩
  intro mem
  rcases List.mem_append.mp mem with old | new
  · exact none old
  · exact other (List.mem_singleton.mp new).symm

end Announcements

section Law
variable {ticks : List (Tick Time)}

theorem failed_announces (t : Tick Time) (failed : t.outcome ≠ .healthy)
    (announced : previousOutcome ticks = some t.outcome → OutageAnnounced (hooks ticks)) :
    OutageAnnounced (hooks (ticks ++ [t])) := by
  rw [hooks_concat, fired_eq]
  cases kind : t.outcome with
  | healthy => exact absurd kind failed
  | queueMissing =>
    rw [kind] at announced
    by_cases again : previousOutcome ticks = some .queueMissing
    · rw [hookDue, if_neg (not_not.mpr again), Option.toList_none, List.append_nil]
      exact announced again
    · rw [hookDue, if_pos again]
      exact announced_concat _ (.inr rfl)
  | brokerDown =>
    rw [kind] at announced
    by_cases again : previousOutcome ticks = some .brokerDown
    · rw [hookDue, if_neg (not_not.mpr again)]
      exact (announced again).concat (by decide)
    · rw [hookDue, if_pos again]
      exact announced_concat _ (.inl rfl)

theorem alternates_run (first : ∀ t ∈ ticks.head?, t.outcome ≠ .healthy) :
    Alternates (hooks ticks) ∧
      ∀ o, previousOutcome ticks = some o → o ≠ .healthy → OutageAnnounced (hooks ticks) := by
  induction ticks using List.reverseRecOn with
  | nil =>
    exact ⟨atEvery_nil _, fun o last => by cases last⟩
  | append_singleton ticks t ih =>
    have first' : ∀ u ∈ ticks.head?, u.outcome ≠ .healthy := by
      intro u head
      exact first u (by rw [List.head?_append, Option.mem_def.mp head]; rfl)
    obtain ⟨alternates, announced⟩ := ih first'
    constructor
    · rw [hooks_concat]
      cases due : fired ticks t with
      | none =>
        rw [Option.toList_none, List.append_nil]
        exact alternates
      | some hook =>
        refine atEvery_concat_iff.mpr ⟨alternates, fun recovered => ?_⟩
        rw [recovered, recovered_iff_previous] at due
        -- A recovery is due, so there was a tick before this one, and it failed.
        cases previous : previousOutcome ticks with
        | some o => exact announced o previous fun healthy => due.2 (by rw [previous, healthy])
        | none =>
          have empty : ticks = [] := by
            rw [previousOutcome, Option.map_eq_none_iff, List.getLast?_eq_none_iff] at previous
            exact previous
          subst empty
          exact absurd due.1 (first t rfl)
    · intro o last failed
      rw [previousOutcome_concat, Option.some.injEq] at last
      subst last
      exact failed_announces t failed fun again => announced _ again failed

theorem recovered_iff_of_first (first : ∀ t ∈ ticks.head?, t.outcome ≠ .healthy) :
    AtEvery (fun pre t => fired pre t = some .onRabbitmqRecovered ↔
      t.outcome = .healthy ∧ ∃ p ∈ pre.getLast?, p.outcome ≠ .healthy) ticks := by
  intro pre t post split
  rw [recovered_iff_previous, and_congr_right_iff]
  intro healthy
  cases last : pre.getLast? with
  | none =>
    rw [List.getLast?_eq_none_iff] at last
    subst last split
    exact absurd healthy (first t rfl)
  | some p => simp [previousOutcome, last]

end Law

/-- Recovery alerts and outages alternate in exactly the histories that begin with an outage. -/
theorem recoveryLaw_iff (ticks : List (Tick Time)) :
    RecoveryLaw ticks ↔ ∀ t ∈ ticks.head?, t.outcome ≠ .healthy := by
  constructor
  · intro law t head healthy
    obtain ⟨post, rfl⟩ : ∃ post, ticks = t :: post := by
      cases ticks with
      | nil => cases head
      | cons u post => exact ⟨post, by rw [Option.some.inj head]⟩
    have recovered : fired [] t = some .onRabbitmqRecovered :=
      (recovered_iff_previous [] t).mpr ⟨healthy, by rintro ⟨⟩⟩
    obtain ⟨-, p, none, -⟩ := (law.recovered_iff [] t post rfl).mp recovered
    cases none
  · intro first
    refine ⟨recovered_iff_of_first first, (alternates_run first).1, ?_⟩
    rintro t post rfl healthy
    exact absurd healthy (first t rfl)

/-- The first probe of a healthy broker announces a recovery. -/
theorem first_probe_recovers : ¬ RecoveryLaw [(⟨.healthy, .newConnection, 0⟩ : Tick ℕ)] := by
  intro law
  have silent := (law.first_silent _ [] rfl rfl).2 .onRabbitmqRecovered (by decide)
  exact absurd silent (by decide)

end FastapiProject.RecoveryAlerts
