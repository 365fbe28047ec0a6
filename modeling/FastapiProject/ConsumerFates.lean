import FastapiProject.ConsumerLoop
import FastapiProject.ConsumerMessageLoss

set_option autoImplicit false

/-!
# Why a message has left the queue

In every run, connection losses, cancellations and late settlements included: what is
acknowledged had nobody to handle it or a handler that returned, and what is dropped had
no event type to look up or a handler that was cancelled or left the process.
-/
namespace FastapiProject.ConsumerFates
open PythonExceptions PythonJson MachineRuns ConsumerMessage ConsumerTraffic ConsumerTrafficSteps
  ConsumerLoop

variable {Msg H : Type}

structure Fate (app : App Msg H) (s : Traffic Msg H) (m : Msg) : Prop where
  acked : s.place m = .acked → app.route m = .ok none ∨ (m, .ok ()) ∈ s.handled
  dropped : s.place m = .dropped → (∃ e, app.route m = .error e) ∨
    ∃ e, e.isException = false ∧ (m, .error e) ∈ s.handled
  invoked : m ∈ s.invoked → HasHandler app m
  handled : ∀ outcome, (m, outcome) ∈ s.handled → m ∈ s.invoked

section Settlements
variable [DecidableEq Msg] {app : App Msg H} {s u : Traffic Msg H} {t : ℕ}
  {task : MessageTask Msg H} {m : Msg}

theorem receive_cases (s : Traffic Msg H) (t : ℕ) (task : MessageTask Msg H)
    (sent : List Settlement) (m : Msg) : s.receive t task sent m = s.place m ∨
      m = task.message ∧ ∃ settlement, sent.head? = some settlement ∧
        s.receive t task sent m = settledPlace settlement := by
  cases sent with
  | nil => exact .inl rfl
  | cons settlement sent =>
    rw [Traffic.receive]
    split
    · by_cases same : m = task.message
      · subst same
        exact .inr ⟨rfl, settlement, rfl, Function.update_self _ _ _⟩
      · exact .inl (Function.update_of_ne same _ _)
    · exact .inl rfl

theorem returned_sent {c : ChannelState} {settlement : Settlement}
    (first : (process false (fun d => (.ok (), d)) { channel := c }).2.sent.head? = some settlement) :
    settlement = .ack := by
  cases c <;> simp [process, settle] at first <;> exact first.symm

theorem raised_sent {c : ChannelState} {e : Exn} {settlement : Settlement}
    (first : (process false (fun d => (.error e, d)) { channel := c }).2.sent.head? =
      some settlement) : settlement = .reject false := by
  cases c <;> simp [process, settleThenRaise, settle] at first <;> exact first.symm

theorem handledPlace_acked {outcome : Except Exn Unit} (here : handledPlace outcome = .acked) :
    outcome = .ok () := by
  cases outcome with
  | ok _ => rfl
  | error e => by_cases caught : e.isException = true <;> simp [handledPlace, caught] at here

theorem handledPlace_dropped {outcome : Except Exn Unit} (here : handledPlace outcome = .dropped) :
    ∃ e, outcome = .error e ∧ e.isException = false := by
  cases outcome with
  | ok _ => cases here
  | error e =>
    cases caught : e.isException with
    | true => simp [handledPlace, caught] at here
    | false => exact ⟨e, rfl, caught⟩

/-- A task that ends without a handler acknowledges what the early returns let pass, and
drops what raised. -/
theorem acquire_place (hs : acquire app s t task = some u) (m : Msg) :
    u.place m = s.place m ∨ m = task.message ∧
      (app.route m = .ok none ∧ u.place m = .acked ∨
        (∃ e, app.route m = .error e) ∧ u.place m = .dropped) := by
  unfold acquire at hs
  split at hs
  · cases hs
  · split at hs
    · cases hs
      exact .inl rfl
    · rename_i routed
      cases hs
      rw [endTask_place]
      rcases receive_cases _ t task _ m with kept | ⟨rfl, settlement, first, placed⟩
      · exact .inl kept
      · rw [placed, returned_sent first]
        exact .inr ⟨rfl, .inl ⟨routed, rfl⟩⟩
    · rename_i e routed
      cases hs
      rw [endTask_place]
      rcases receive_cases _ t task _ m with kept | ⟨rfl, settlement, first, placed⟩
      · exact .inl kept
      · rw [placed, raised_sent first]
        exact .inr ⟨rfl, .inr ⟨⟨e, routed⟩, rfl⟩⟩

theorem acquire_handled (hs : acquire app s t task = some u) : u.handled = s.handled ∧
    (u.invoked = s.invoked ∨ HasHandler app task.message ∧ u.invoked = s.invoked ++ [task.message]) := by
  unfold acquire at hs
  split at hs
  · cases hs
  · split at hs
    · rename_i h body routed
      cases hs
      exact ⟨rfl, .inr ⟨⟨h, body, routed⟩, rfl⟩⟩
    · cases hs
      exact ⟨rfl, .inl rfl⟩
    · cases hs
      exact ⟨rfl, .inl rfl⟩

end Settlements

section Steps
variable [DecidableEq Msg] {app : App Msg H} {s u : Traffic Msg H} {m : Msg}

omit [DecidableEq Msg] in
theorem fate_of_kept (h : Fate app s m) (invoked : u.invoked = s.invoked)
    (handled : u.handled = s.handled)
    (kept : u.place m = .acked ∨ u.place m = .dropped → u.place m = s.place m) : Fate app u m where
  acked here := by
    rw [handled]
    exact h.acked ((kept (.inl here)).symm.trans here)
  dropped here := by
    rw [handled]
    exact h.dropped ((kept (.inr here)).symm.trans here)
  invoked mem := h.invoked (invoked ▸ mem)
  handled outcome mem := by
    rw [invoked]
    exact h.handled outcome (handled ▸ mem)

theorem fate_acquired (h : Fate app s m) {t : ℕ} {task : MessageTask Msg H}
    (hs : acquire app s t task = some u) : Fate app u m := by
  obtain ⟨handled, invoked⟩ := acquire_handled hs
  refine ⟨fun here => ?_, fun here => ?_, fun mem => ?_, fun outcome mem => ?_⟩
  · rw [handled]
    rcases acquire_place hs m with kept | ⟨-, ⟨unrouted, -⟩ | ⟨-, dropped⟩⟩
    · exact h.acked (kept.symm.trans here)
    · exact .inl unrouted
    · cases dropped.symm.trans here
  · rw [handled]
    rcases acquire_place hs m with kept | ⟨-, ⟨-, acked⟩ | ⟨raised, -⟩⟩
    · exact h.dropped (kept.symm.trans here)
    · cases acked.symm.trans here
    · exact .inl raised
  · rcases invoked with same | ⟨routed, more⟩
    · exact h.invoked (same ▸ mem)
    · rw [more, List.mem_append, List.mem_singleton] at mem
      rcases mem with old | rfl
      · exact h.invoked old
      · exact routed
  · have before := h.handled outcome (handled ▸ mem)
    rcases invoked with same | ⟨-, more⟩
    · rwa [same]
    · rw [more]
      exact List.mem_append_left _ before

theorem fate_handled (inv : Inv app s) (h : Fate app s m) {t : ℕ} {task : MessageTask Msg H}
    {handler : H} {body : Json} (at_t : s.tasks[t]? = some task)
    (handling : task.stage = .handling handler body) (called : task.message ∈ s.invoked)
    (outcome : Except Exn Unit) : Fate app { s.endTask t task (executeHandler outcome) with
      handled := s.handled ++ [(task.message, outcome)] } m := by
  have place : (s.endTask t task (executeHandler outcome)).place m = s.place m ∨
      m = task.message ∧ (s.endTask t task (executeHandler outcome)).place m = handledPlace outcome := by
    rw [handled_place inv at_t handling outcome]
    split
    · by_cases same : m = task.message
      · exact .inr ⟨same, by rw [same, Function.update_self]⟩
      · exact .inl (Function.update_of_ne same _ _)
    · exact .inl rfl
  refine ⟨fun here => ?_, fun here => ?_, fun mem => h.invoked mem, fun outcome' mem => ?_⟩
  · rcases place with kept | ⟨rfl, moved⟩
    · rcases h.acked (kept.symm.trans here) with unrouted | returned
      · exact .inl unrouted
      · exact .inr (List.mem_append_left _ returned)
    · cases handledPlace_acked (moved.symm.trans here)
      exact .inr (List.mem_append_right _ List.mem_cons_self)
  · rcases place with kept | ⟨rfl, moved⟩
    · rcases h.dropped (kept.symm.trans here) with raised | ⟨e, fatal, ended⟩
      · exact .inl raised
      · exact .inr ⟨e, fatal, List.mem_append_left _ ended⟩
    · obtain ⟨e, rfl, fatal⟩ := handledPlace_dropped (moved.symm.trans here)
      exact .inr ⟨e, fatal, List.mem_append_right _ List.mem_cons_self⟩
  · rcases List.mem_append.mp mem with old | new
    · exact h.handled outcome' old
    · cases List.mem_singleton.mp new
      exact called

def Called (s : Traffic Msg H) : Prop :=
  ∀ (t : ℕ) (task : MessageTask Msg H) h body, s.tasks[t]? = some task →
    task.stage = .handling h body → task.message ∈ s.invoked

omit [DecidableEq Msg] in
theorem called_setStage (called : Called s) {t : ℕ} {task : MessageTask Msg H} {stage : Stage H}
    (at_t : s.tasks[t]? = some task) (idle : ∀ h body, stage ≠ .handling h body) :
    Called (s.setStage t task stage) := by
  intro k other h body at_k handling
  rw [setStage_tasks at_t] at at_k
  split at at_k
  · cases at_k
    exact absurd handling (idle h body)
  · exact called k other h body at_k handling

theorem called_step {l : TrafficLabel Msg} (called : Called s) (hs : TrafficStep app s l u) :
    Called u := by
  cases hs with
  | published | opened | gone => exact called
  | delivered | yieldedLate =>
    intro k task h body at_k handling
    rcases IndexedLists.getElem?_concat_cases at_k with old | ⟨-, rfl⟩
    · exact called k task h body old handling
    · cases handling
  | @invoked t free task h body at_t waiting routed =>
    intro k other h' body' at_k handling
    change other.message ∈ s.invoked ++ [task.message]
    rw [List.mem_append, List.mem_singleton]
    change (s.setStage t task (.handling h body)).tasks[k]? = some other at at_k
    rw [setStage_tasks at_t] at at_k
    split at at_k
    · cases at_k
      exact .inr rfl
    · exact .inl (called k other h' body' at_k handling)
  | unrouted at_t waiting nobody =>
    exact called_setStage (s := { s with semaphore := _ }) called at_t (by rintro _ _ ⟨⟩)
  | handled at_t handling => exact called_setStage called at_t (by rintro _ _ ⟨⟩)
  | cancelled at_t waiting => exact called_setStage called at_t (by rintro _ _ ⟨⟩)

theorem fate_step {l : TrafficLabel Msg} (inv : Inv app s) (called : Called s) (h : Fate app s m)
    (hs : s.step app l = some u) : Fate app u m := by
  have put (k : Msg) (place : Place) (moving : place ≠ .acked ∧ place ≠ .dropped)
      (here : Function.update s.place k place m = .acked ∨
        Function.update s.place k place m = .dropped) :
      Function.update s.place k place m = s.place m := by
    by_cases same : m = k
    · subst same
      rw [Function.update_self] at here
      exact (here.elim moving.1 moving.2).elim
    · exact Function.update_of_ne same _ _
  by_cases acquires : ∃ t, l = .acquire t
  · obtain ⟨t, rfl⟩ := acquires
    obtain ⟨task, -, hs⟩ := Option.bind_eq_some_iff.mp hs
    cases hstage : task.stage with
    | waiting => exact fate_acquired h (by simpa [hstage] using hs)
    | _ => simp [hstage] at hs
  cases step_trafficStep hs with
  | @published k _ => exact fate_of_kept h rfl rfl (put k (.ready false) ⟨by rintro ⟨⟩, by rintro ⟨⟩⟩)
  | @delivered k _ _ _ _ => exact fate_of_kept h rfl rfl (put k _ ⟨by rintro ⟨⟩, by rintro ⟨⟩⟩)
  | yieldedLate _ _ | opened | cancelled _ _ => exact fate_of_kept h rfl rfl (fun _ => rfl)
  | gone _ _ => exact fate_of_kept h rfl rfl ConsumerMessageLoss.requeued_gone
  | invoked _ _ _ | unrouted _ _ _ => exact (acquires ⟨_, rfl⟩).elim
  | @handled t task handler body outcome at_t handling =>
    exact fate_handled inv h at_t handling (called t task handler body at_t handling) outcome

end Steps

section Runs
variable [DecidableEq Msg] {app : App Msg H}

/-- In every state of every run of the consumer, each message is where its own body and
its own handler put it. -/
theorem message_fate {ls : List (Label Msg)} {u : Consumer Msg H}
    (run : Runs (step app) Consumer.initial ls u) (m : Msg) : Fate app u.traffic m := by
  have start : Fate app (Traffic.initial : Traffic Msg H) m :=
    ⟨by rintro ⟨⟩, by rintro ⟨⟩, by rintro ⟨⟩, by rintro _ ⟨⟩⟩
  have all := run.invariant
    (fun s => Inv app s.traffic ∧ Called s.traffic ∧ Fate app s.traffic m)
    ⟨inv_initial, by rintro _ _ _ _ ⟨⟩, start⟩
    (fun s l u ⟨inv, called, fate⟩ hs => ?_)
  · exact all.2.2
  · rcases step_traffic hs with ⟨same, -⟩ | ⟨tl, moved, -⟩
    · rw [same]
      exact ⟨inv, called, fate⟩
    · have next := step_trafficStep moved
      exact ⟨inv_step inv next, called_step called next, fate_step inv called fate moved⟩

end Runs

section Examples

/-- The handler fails, and the second delivery is cancelled in its handler. -/
def failedThenCancelled : List (Label Unit) :=
  untilHandling ++ [.traffic (.handlerEnds 0 (.error .valueError)), .resume (.yielded ()),
    .traffic (.acquire 1), .traffic (.handlerEnds 1 (.error .cancelledError))]

theorem failedThenCancelled_fate : ∃ u, Runs (step userCreatedApp) Consumer.initial failedThenCancelled u ∧
    u.traffic.place () = .dropped ∧ Fate userCreatedApp u.traffic () := by
  obtain ⟨u, run, dropped⟩ : ∃ u, Runs (step userCreatedApp) Consumer.initial failedThenCancelled u ∧
      u.traffic.place () = .dropped := ⟨_, Runs.of_execute rfl, rfl⟩
  exact ⟨u, run, dropped, message_fate run ()⟩

end Examples

end FastapiProject.ConsumerFates
