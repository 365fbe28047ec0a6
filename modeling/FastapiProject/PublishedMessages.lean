import FastapiProject.ConsumerTrafficSteps
import FastapiProject.ConsumerLoop
import FastapiProject.IndexedLists

set_option autoImplicit false

/-!
# Which messages have been published

The messages that the broker knows of are those of the run's `publish` labels, each once,
and it never forgets one.
-/
namespace FastapiProject.PublishedMessages
open PythonExceptions MachineRuns ConsumerMessage ConsumerTraffic ConsumerTrafficSteps
  ConsumerLoop

variable {Msg H : Type}

def published (ls : List (Label Msg)) : List Msg :=
  ls.filterMap fun l => match l with
    | .traffic (.publish m) => some m
    | _ => none

theorem mem_published {ls : List (Label Msg)} {m : Msg} (mem : .traffic (.publish m) ∈ ls) :
    m ∈ published ls := List.mem_filterMap.mpr ⟨_, mem, rfl⟩

theorem published_append (ls ms : List (Label Msg)) :
    published (ls ++ ms) = published ls ++ published ms := List.filterMap_append

/-- The broker knows exactly the messages in the list, which names each once. -/
structure Known (msgs : List Msg) (s : Traffic Msg H) : Prop where
  nodup : msgs.Nodup
  covers : ∀ m, s.place m ≠ .unpublished ↔ m ∈ msgs

section Steps
variable [DecidableEq Msg] {app : App Msg H} {s u : Traffic Msg H} {l : TrafficLabel Msg} {m : Msg}

omit [DecidableEq Msg] in
theorem requeued_unpublished {c : ℕ} :
    s.requeued c m = .unpublished ↔ s.place m = .unpublished := by
  unfold Traffic.requeued
  split
  · rename_i c' t place
    rw [place]
    by_cases same : c' = c <;> simp [same]
  · exact Iff.rfl

theorem settledPlace_published (settlement : Settlement) : settledPlace settlement ≠ .unpublished := by
  unfold settledPlace
  split <;> rintro ⟨⟩

theorem receive_unpublished {t : ℕ} {task : MessageTask Msg H} {sent : List Settlement} :
    s.receive t task sent m = .unpublished ↔ s.place m = .unpublished := by
  unfold Traffic.receive
  split
  · exact Iff.rfl
  · split
    · rename_i settlement _ accepted
      by_cases same : m = task.message
      · subst same
        rw [Function.update_self, accepted.2]
        exact iff_of_false (settledPlace_published settlement) (by rintro ⟨⟩)
      · rw [Function.update_of_ne same]
    · exact Iff.rfl

theorem unpublished_step (hs : TrafficStep app s l u) :
    u.place m = .unpublished ↔ s.place m = .unpublished ∧ l ≠ .publish m := by
  cases hs with
  | @published k new =>
    by_cases same : m = k
    · subst same
      refine iff_of_false ?_ (fun h => h.2 rfl)
      change Function.update s.place m _ m ≠ _
      rw [Function.update_self]
      rintro ⟨⟩
    · change Function.update s.place k _ m = _ ↔ _
      rw [Function.update_of_ne same]
      exact ⟨fun h => ⟨h, by rintro ⟨⟩; exact same rfl⟩, fun h => h.1⟩
  | @delivered k redelivered _ ready _ =>
    by_cases same : m = k
    · subst same
      refine iff_of_false ?_ (fun h => by rw [ready] at h; cases h.1)
      change Function.update s.place m _ m ≠ _
      rw [Function.update_self]
      rintro ⟨⟩
    · change Function.update s.place k _ m = _ ↔ _
      rw [Function.update_of_ne same]
      exact ⟨fun h => ⟨h, by rintro ⟨⟩⟩, fun h => h.1⟩
  | gone _ closes =>
    refine requeued_unpublished.trans ⟨fun h => ⟨h, ?_⟩, fun h => h.1⟩
    rcases closes with ⟨rfl, -⟩ | ⟨rfl, -⟩ | ⟨rfl, -⟩ <;> rintro ⟨⟩
  | unrouted _ _ _ | handled _ _ =>
    exact receive_unpublished.trans ⟨fun h => ⟨h, by rintro ⟨⟩⟩, fun h => h.1⟩
  | yieldedLate _ _ | opened | invoked _ _ _ | cancelled _ _ =>
    exact ⟨fun h => ⟨h, by rintro ⟨⟩⟩, fun h => h.1⟩

theorem publish_new (hs : TrafficStep app s (.publish m) u) : s.place m = .unpublished := by
  cases hs with
  | published new => exact new
  | gone _ closes => (rcases closes with ⟨⟨⟩, -⟩ | ⟨⟨⟩, -⟩ | ⟨⟨⟩, -⟩)

end Steps

section Runs
variable [DecidableEq Msg] {app : App Msg H} {s u : Consumer Msg H} {l : Label Msg}
  {msgs : List Msg} {ls : List (Label Msg)}

theorem step_publishes (hs : step app s l = some u) :
    (u.traffic = s.traffic ∧ ∀ m, l ≠ .traffic (.publish m)) ∨
    ∃ tl, TrafficStep app s.traffic tl u.traffic ∧
      ∀ m, tl = .publish m ↔ l = .traffic (.publish m) := by
  rcases step_cases hs with ⟨reply, effect, rfl, resumed, performed⟩ | ⟨_, rfl, -, same⟩ |
    ⟨tl, rfl, -, moved, -⟩
  · cases effect with
    | none => exact .inl ⟨(Option.some.inj performed).symm, by rintro _ ⟨⟩⟩
    | some tl =>
      refine .inr ⟨tl, step_trafficStep performed, fun m => iff_of_false ?_ (by rintro ⟨⟩)⟩
      rintro rfl
      rcases resume_effect resumed with h | h | ⟨-, _, h⟩ <;> cases h
  · exact .inl ⟨same, by rintro _ ⟨⟩⟩
  · refine .inr ⟨tl, step_trafficStep moved, fun m => ?_⟩
    constructor
    · rintro rfl
      rfl
    · rintro ⟨⟩
      rfl

omit [DecidableEq Msg] in
theorem published_single (l : Label Msg) :
    published [l] = [] ∧ (∀ m, l ≠ .traffic (.publish m)) ∨
      ∃ m, l = .traffic (.publish m) ∧ published [l] = [m] := by
  by_cases publishes : ∃ m, l = .traffic (.publish m)
  · obtain ⟨m, rfl⟩ := publishes
    exact .inr ⟨m, rfl, rfl⟩
  · refine .inl ⟨?_, fun m same => publishes ⟨m, same⟩⟩
    refine List.filterMap_eq_nil_iff.mpr (fun k mem => ?_)
    cases List.mem_singleton.mp mem
    split
    · exact absurd ⟨_, rfl⟩ publishes
    · rfl

theorem known_step (known : Known msgs s.traffic) (hs : step app s l = some u) :
    Known (msgs ++ published [l]) u.traffic := by
  rcases published_single l with ⟨nothing, quiet⟩ | ⟨m, rfl, one⟩
  · rw [nothing, List.append_nil]
    refine ⟨known.nodup, fun m => ?_⟩
    rcases step_publishes hs with ⟨same, -⟩ | ⟨tl, moved, publishes⟩
    · rw [same]
      exact known.covers m
    · rw [← known.covers m, not_iff_not, unpublished_step moved]
      exact ⟨fun h => h.1, fun h => ⟨h, fun same => quiet m ((publishes m).mp same)⟩⟩
  · rw [one]
    rcases step_publishes hs with ⟨-, quiet⟩ | ⟨tl, moved, publishes⟩
    · exact absurd rfl (quiet m)
    · cases (publishes m).mpr rfl
      have new : m ∉ msgs := fun mem => (known.covers m).mpr mem (publish_new moved)
      refine ⟨List.nodup_append.mpr ⟨known.nodup, List.pairwise_singleton _ m, ?_⟩, fun k => ?_⟩
      · rintro a old b mem rfl
        cases List.mem_singleton.mp mem
        exact new old
      · rw [List.mem_append, List.mem_singleton, ← known.covers k, ← not_iff_not, not_not,
          unpublished_step moved, not_or, not_not]
        exact and_congr_right fun _ =>
          ⟨fun other same => other (by rw [same]), fun other same => other (by cases same; rfl)⟩

/-- In every run the broker knows just what has been published in it. -/
theorem known_run (run : Runs (step app) Consumer.initial ls u) : Known (published ls) u.traffic := by
  refine run.history (fun ls s => Known (published ls) s.traffic)
    ⟨List.nodup_nil, fun m => iff_of_false (fun h => h rfl) List.not_mem_nil⟩ ?_
  intro ls s l u known hs
  rw [published_append]
  exact known_step known hs

end Runs

end FastapiProject.PublishedMessages
