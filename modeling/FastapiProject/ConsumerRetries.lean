import FastapiProject.ConsumerMessageLoss

set_option autoImplicit false

/-!
# How often a message is tried

The redelivered flag is never read: a handler that raises sends its message back to the
queue on the first attempt and on every later one.
-/
namespace FastapiProject.ConsumerRetries
open PythonExceptions PythonJson MachineRuns ConsumerMessage ConsumerTraffic ConsumerTrafficSteps
  ConsumerLoop ConsumerMessageLoss IndexedLists

variable {Msg H : Type}

def raised : Except Exn Unit → Bool
  | .ok () => false
  | .error e => e.isException

/-- The connection is not lost: every delivery is on a channel that is still open. -/
def ConnectionKept (_ : Consumer Msg H) (_ : Label Msg) (u : Consumer Msg H) : Prop :=
  ∀ task ∈ u.traffic.tasks, u.traffic.channel task.channel = .opened

section Counts
variable [DecidableEq Msg]

def attempts (s : Traffic Msg H) (m : Msg) : ℕ := s.invoked.count m

def failures (s : Traffic Msg H) (m : Msg) : ℕ :=
  s.handled.countP fun entry => entry.1 = m && raised entry.2

/-- At most two attempts, and no third one: the second failure takes the message out of
the queue. -/
def RetriedOnce (app : App Msg H) (s : Traffic Msg H) : Prop :=
  ∀ m, RegisteredMessage app m →
    attempts s m ≤ 2 ∧ (2 ≤ failures s m → s.place m = .acked ∨ s.place m = .dropped)

/-- The handler does not raise for a message for which it has raised before. -/
def NoSecondFailure (s : Traffic Msg H) (l : TrafficLabel Msg) : Prop :=
  ∀ t task outcome, l = .handlerEnds t outcome → s.tasks[t]? = some task →
    raised outcome = true → failures s task.message = 0

end Counts

def Handles (s : Traffic Msg H) (t : ℕ) : Prop :=
  ∃ task h body, s.tasks[t]? = some task ∧ task.stage = .handling h body

def Running (s : Traffic Msg H) (m : Msg) : Prop := ∃ c t, s.place m = .unacked c t ∧ Handles s t

def Gone (s : Traffic Msg H) (m : Msg) : Prop := s.place m = .acked ∨ s.place m = .dropped

/-- Every attempt but one that runs or took the message away has failed. -/
structure Accounted [DecidableEq Msg] (s : Traffic Msg H) (m : Msg) : Prop where
  running : Running s m → attempts s m = failures s m + 1
  queued : ¬ Running s m → ¬ Gone s m → attempts s m = failures s m
  bound : attempts s m ≤ failures s m + 1

section Frames
variable {s u : Traffic Msg H} {m : Msg} {t k : ℕ} {task : MessageTask Msg H} {stage : Stage H}

theorem handles_setStage (at_t : s.tasks[t]? = some task) (stage : Stage H) :
    Handles (s.setStage t task stage) k ↔
      if k = t then ∃ h body, stage = .handling h body else Handles s k := by
  unfold Handles
  rw [setStage_tasks at_t]
  split
  · simp
  · rfl

theorem running_iff_of_frame (place : u.place m = s.place m)
    (tasks : ∀ c t, s.place m = .unacked c t → (Handles u t ↔ Handles s t)) :
    Running u m ↔ Running s m := by
  unfold Running
  rw [place]
  constructor
  · rintro ⟨c, t, hp, handles⟩
    exact ⟨c, t, hp, (tasks c t hp).mp handles⟩
  · rintro ⟨c, t, hp, handles⟩
    exact ⟨c, t, hp, (tasks c t hp).mpr handles⟩

theorem handles_concat (at_t : s.tasks[t]? = some task) {new : MessageTask Msg H}
    (tasks : u.tasks = s.tasks ++ [new]) : Handles u t ↔ Handles s t := by
  unfold Handles
  rw [tasks, getElem?_concat_old at_t, at_t]

theorem not_running_ended {outcome : Except Exn Unit} (at_t : s.tasks[t]? = some task)
    (owned : s.place task.message = .unacked task.channel t)
    (tasks : u.tasks = (s.setStage t task (.ended outcome)).tasks)
    (place : ∀ c k, u.place task.message = .unacked c k → s.place task.message = .unacked c k) :
    ¬ Running u task.message := by
  rintro ⟨c, k, hp, task', h, body, at_k, handling⟩
  cases (place c k hp).symm.trans owned
  rw [tasks, setStage_tasks at_t, if_pos rfl] at at_k
  cases at_k
  cases handling

variable [DecidableEq Msg]

theorem accounted_of_equal (equal : attempts u m = failures u m) (idle : ¬ Running u m) :
    Accounted u m where
  running hr := absurd hr idle
  queued _ _ := equal
  bound := by omega

theorem accounted_of_frame (h : Accounted s m) (attempted : attempts u m = attempts s m)
    (failed : failures u m = failures s m) (running : Running u m ↔ Running s m)
    (gone : Gone s m → Gone u m) : Accounted u m where
  running hr := by rw [attempted, failed]; exact h.running (running.mp hr)
  queued hr hg := by
    rw [attempted, failed]
    exact h.queued (fun hr' => hr (running.mpr hr')) (fun hg' => hg (gone hg'))
  bound := by rw [attempted, failed]; exact h.bound

theorem accounted_of_place (h : Accounted s m) (attempted : attempts u m = attempts s m)
    (failed : failures u m = failures s m) (place : u.place m = s.place m)
    (tasks : ∀ c t, s.place m = .unacked c t → (Handles u t ↔ Handles s t)) : Accounted u m :=
  accounted_of_frame h attempted failed (running_iff_of_frame place tasks)
    (fun gone => by unfold Gone at gone ⊢; rwa [place])

end Frames

structure Ledger [DecidableEq Msg] (app : App Msg H) (s : Traffic Msg H) : Prop where
  inv : Inv app s
  isOpen : ∀ task ∈ s.tasks, s.channel task.channel = .opened
  accounted : ∀ m, Accounted s m

section Steps
variable [DecidableEq Msg] {app : App Msg H} {s u : Traffic Msg H} {l : TrafficLabel Msg}

theorem Ledger.owned (h : Ledger app s) {t : ℕ} {task : MessageTask Msg H}
    (at_t : s.tasks[t]? = some task) (live : task.stage.finished = false) :
    s.place task.message = .unacked task.channel t :=
  h.inv.owned t task at_t live (h.isOpen task (List.mem_of_getElem? at_t))

theorem Ledger.other_task (h : Ledger app s) {t : ℕ} {task : MessageTask Msg H} {m : Msg}
    (at_t : s.tasks[t]? = some task) (ne : m ≠ task.message) {c k : ℕ}
    (hp : s.place m = .unacked c k) : k ≠ t := by
  rintro rfl
  obtain ⟨task', at_k, message, -⟩ := h.inv.delivered m c k hp
  cases at_k.symm.trans at_t
  exact ne message.symm

theorem Ledger.notRunning (h : Ledger app s) {t : ℕ} {task : MessageTask Msg H}
    (at_t : s.tasks[t]? = some task) (waiting : task.stage = .waiting) :
    attempts s task.message = failures s task.message := by
  have place := h.owned at_t (by rw [waiting]; rfl)
  refine (h.accounted task.message).queued ?_ ?_
  · rintro ⟨c, k, hp, task', handler, body, at_k, handling⟩
    cases hp.symm.trans place
    cases at_k.symm.trans at_t
    rw [waiting] at handling
    cases handling
  · rintro (hp | hp) <;> cases hp.symm.trans place

theorem attempts_invoked (s : Traffic Msg H) (m k : Msg) : (s.invoked ++ [k]).count m =
    attempts s m + if k = m then 1 else 0 := by
  rw [List.count_append, List.count_singleton]
  simp [attempts]

theorem failures_handled (s : Traffic Msg H) (m k : Msg) (outcome : Except Exn Unit) :
    (s.handled ++ [(k, outcome)]).countP (fun entry => entry.1 = m && raised entry.2) =
      failures s m + if k = m ∧ raised outcome = true then 1 else 0 := by
  rw [List.countP_append, List.countP_singleton]
  simp [failures]

theorem accounted_other (h : Ledger app s) {t : ℕ} {task : MessageTask Msg H} {stage : Stage H}
    {m : Msg} (at_t : s.tasks[t]? = some task) (ne : m ≠ task.message)
    (tasks : u.tasks = (s.setStage t task stage).tasks) (place : u.place m = s.place m)
    (attempted : attempts u m = attempts s m) (failed : failures u m = failures s m) :
    Accounted u m := by
  refine accounted_of_place (h.accounted m) attempted failed place (fun c k hp => ?_)
  have moved := handles_setStage (k := k) at_t stage
  rw [if_neg (h.other_task at_t ne hp)] at moved
  unfold Handles at moved ⊢
  rwa [tasks]

theorem accounted_handled (h : Ledger app s) {t : ℕ} {task : MessageTask Msg H} {handler : H}
    {body : Json} {outcome : Except Exn Unit} (at_t : s.tasks[t]? = some task)
    (handling : task.stage = .handling handler body) (m : Msg) :
    Accounted { s.endTask t task (executeHandler outcome) with
      handled := s.handled ++ [(task.message, outcome)] } m := by
  have place := handled_place h.inv at_t handling outcome
  rw [if_pos (h.isOpen task (List.mem_of_getElem? at_t))] at place
  by_cases same : m = task.message
  · subst same
    have owned := h.owned at_t (by rw [handling]; rfl)
    have counted := (h.accounted task.message).running
      ⟨_, t, owned, task, handler, body, at_t, handling⟩
    have idle : ¬ Running { s.endTask t task (executeHandler outcome) with
        handled := s.handled ++ [(task.message, outcome)] } task.message :=
      not_running_ended at_t owned endTask_tasks (fun c k hp => receive_unacked hp)
    have failed := failures_handled s task.message task.message outcome
    by_cases again : raised outcome = true
    · refine accounted_of_equal ?_ idle
      change attempts s task.message = _
      rw [failures, failed, if_pos ⟨rfl, again⟩, counted]
    · have gone : Gone { s.endTask t task (executeHandler outcome) with
          handled := s.handled ++ [(task.message, outcome)] } task.message := by
        change (s.endTask t task (executeHandler outcome)).place task.message = .acked ∨
          (s.endTask t task (executeHandler outcome)).place task.message = .dropped
        rw [place, Function.update_self]
        cases outcome with
        | ok _ => exact .inl rfl
        | error e => exact .inr (if_neg again)
      refine ⟨fun hr => absurd hr idle, fun _ hg => absurd gone hg, ?_⟩
      change attempts s task.message ≤ _
      apply Nat.le_of_eq
      rw [failures, failed, if_neg (fun both => again both.2), counted, Nat.add_zero]
  · refine accounted_other h at_t same endTask_tasks ?_ rfl ?_
    · exact (congrFun place m).trans (Function.update_of_ne same _ _)
    · have failed := failures_handled s m task.message outcome
      rw [failures, failed, if_neg (fun both => same both.1.symm)]
      omega

theorem ledger_step (h : Ledger app s) (hs : TrafficStep app s l u)
    (isOpen : ∀ task ∈ u.tasks, u.channel task.channel = .opened) : Ledger app u := by
  refine ⟨inv_step h.inv hs, isOpen, fun m => ?_⟩
  have before := h.accounted m
  have queued (hp : s.place m = .unpublished ∨ ∃ r, s.place m = .ready r) :
      attempts s m = failures s m := by
    apply before.queued
    · rintro ⟨c, t, hp', -⟩
      simp [hp'] at hp
    · rintro (hp' | hp') <;> simp [hp'] at hp
  cases hs with
  | @published k new =>
    by_cases same : m = k
    · subst same
      refine accounted_of_equal (queued (.inl new)) ?_
      rintro ⟨c, t, hp, -⟩
      cases (Function.update_self m _ s.place).symm.trans hp
    · exact accounted_of_place before rfl rfl (Function.update_of_ne same _ _) (fun _ _ _ => Iff.rfl)
  | @delivered k r _ ready _ =>
    by_cases same : m = k
    · subst same
      refine accounted_of_equal (queued (.inr ⟨r, ready⟩)) ?_
      rintro ⟨c, t, hp, task, handler, body, at_t, handling⟩
      cases (Function.update_self m _ s.place).symm.trans hp
      cases List.getElem?_concat_length.symm.trans at_t
      cases handling
    · refine accounted_of_place before rfl rfl (Function.update_of_ne same _ _) (fun c t hp => ?_)
      obtain ⟨task, at_t, -⟩ := h.inv.delivered m c t hp
      exact handles_concat at_t rfl
  | yieldedLate _ _ =>
    refine accounted_of_place before rfl rfl rfl (fun c t hp => ?_)
    obtain ⟨task, at_t, -⟩ := h.inv.delivered m c t hp
    exact handles_concat at_t rfl
  | opened => exact accounted_of_place before rfl rfl rfl (fun _ _ _ => Iff.rfl)
  | @gone _ state notOpen _ =>
    -- no delivery is on the channel that goes, or it would not be open afterwards
    refine accounted_of_place before rfl rfl (requeued_keeps (fun t hp => ?_)) (fun _ _ _ => Iff.rfl)
    obtain ⟨task, at_t, -, channel⟩ := h.inv.delivered m _ t hp
    have still := isOpen task (List.mem_of_getElem? at_t)
    rw [channel] at still
    change Function.update s.channel s.current state s.current = .opened at still
    rw [Function.update_self] at still
    exact notOpen still
  | @invoked t free task handler body at_t waiting routed =>
    by_cases same : m = task.message
    · subst same
      have owned := h.owned at_t (by rw [waiting]; rfl)
      have counted := h.notRunning at_t waiting
      have invoked := attempts_invoked s task.message task.message
      rw [if_pos rfl] at invoked
      have now : Running { s.setStage t task (.handling handler body) with
          semaphore := some free, invoked := s.invoked ++ [task.message] } task.message :=
        ⟨_, t, owned, _, handler, body, (setStage_tasks at_t _).trans (if_pos rfl), rfl⟩
      refine ⟨fun _ => ?_, fun hr => absurd now hr, ?_⟩
      · rw [attempts, invoked, counted]
        rfl
      · rw [attempts, invoked, counted]
        exact Nat.le_refl _
    · refine accounted_other h at_t same rfl rfl ?_ rfl
      rw [attempts, attempts_invoked, if_neg (Ne.symm same)]
      omega
  | @unrouted t free task outcome at_t waiting nobody =>
    by_cases same : m = task.message
    · subst same
      refine accounted_of_equal (h.notRunning at_t waiting) ?_
      exact not_running_ended at_t (h.owned at_t (by rw [waiting]; rfl)) endTask_tasks
        (fun c k hp => receive_unacked hp)
    · exact accounted_other h at_t same endTask_tasks (receive_other same) rfl rfl
  | handled at_t handling => exact accounted_handled h at_t handling m
  | @cancelled t task at_t waiting =>
    by_cases same : m = task.message
    · subst same
      refine accounted_of_equal (h.notRunning at_t waiting) ?_
      exact not_running_ended at_t (h.owned at_t (by rw [waiting]; rfl)) rfl (fun c k hp => hp)
    · exact accounted_other h at_t same rfl rfl rfl rfl

theorem failures_step (hs : TrafficStep app s l u) (m : Msg) : failures u m = failures s m ∨
    ∃ t task outcome, l = .handlerEnds t outcome ∧ s.tasks[t]? = some task ∧
      failures u m =
        failures s m + if task.message = m ∧ raised outcome = true then 1 else 0 := by
  cases hs with
  | @handled t task _ _ outcome at_t _ =>
    exact .inr ⟨t, task, outcome, rfl, at_t, failures_handled s m task.message outcome⟩
  | _ => exact .inl rfl

theorem second_failure (h : Ledger app s) (hs : TrafficStep app s l u)
    (retried : RetriedOnce app u) : NoSecondFailure s l := by
  intro t task outcome hl at_t again
  by_contra failed
  cases hs with
  | @handled _ task' handler body _ at_t' handling =>
    cases hl
    cases at_t'.symm.trans at_t
    have registered := hasHandler_iff.mp ⟨handler, body, h.inv.routed t task _ _ at_t handling⟩
    have counted := failures_handled s task.message task.message outcome
    rw [if_pos ⟨rfl, again⟩] at counted
    have place := handled_place h.inv at_t handling outcome
    rw [if_pos (h.isOpen task (List.mem_of_getElem? at_t))] at place
    have back : (s.endTask t task (executeHandler outcome)).place task.message = .ready true := by
      rw [place, Function.update_self]
      cases outcome with
      | ok _ => cases again
      | error e => exact if_pos again
    rcases (retried _ registered).2 (by rw [failures, counted]; omega) with hp | hp
    · cases back.symm.trans hp
    · cases back.symm.trans hp
  | gone _ closes => rcases closes with ⟨rfl, -⟩ | ⟨rfl, -⟩ | ⟨rfl, -⟩ <;> cases hl
  | _ => cases hl

end Steps

section Runs
variable [DecidableEq Msg] {app : App Msg H}

def Tried (app : App Msg H) (s : Consumer Msg H) : Prop :=
  Ledger app s.traffic ∧ ∀ m, failures s.traffic m ≤ 1

def TriesTwice (app : App Msg H) (_ : Consumer Msg H) (_ : Label Msg) (u : Consumer Msg H) : Prop :=
  RetriedOnce app u.traffic

def FailsOnce (s : Consumer Msg H) (l : Label Msg) (_ : Consumer Msg H) : Prop :=
  ∀ tl, l = .traffic tl → NoSecondFailure s.traffic tl

theorem tried_initial : Tried app Consumer.initial :=
  ⟨⟨inv_initial, fun _ => nofun, fun _ => ⟨fun ⟨_, _, hp, _⟩ => (nomatch hp), fun _ _ => rfl,
    Nat.zero_le _⟩⟩, fun _ => Nat.zero_le _⟩

theorem retriedOnce_of_tried {s : Consumer Msg H} (h : Tried app s) : RetriedOnce app s.traffic := by
  intro m _
  have bound := (h.1.accounted m).bound
  have once := h.2 m
  exact ⟨by omega, fun twice => by omega⟩

theorem step_tried {s u : Consumer Msg H} {l : Label Msg} (h : Tried app s)
    (hs : step app s l = some u) (kept : ConnectionKept s l u) (once : FailsOnce s l u) :
    Tried app u := by
  rcases step_traffic hs with ⟨same, -⟩ | ⟨tl, moved, ends⟩
  · unfold Tried
    rw [same]
    exact h
  · have next := step_trafficStep moved
    refine ⟨ledger_step h.1 next kept, fun m => ?_⟩
    have before := h.2 m
    rcases failures_step next m with same | ⟨t, task, outcome, hl, at_t, counted⟩
    · omega
    · by_cases again : task.message = m ∧ raised outcome = true
      · have first := once _ ((ends t outcome).mp hl) t task outcome rfl at_t again.2
        rw [again.1] at first
        rw [if_pos again] at counted
        omega
      · rw [if_neg again] at counted
        omega

theorem step_failsOnce {s u : Consumer Msg H} {l : Label Msg} (h : Tried app s)
    (hs : step app s l = some u) (twice : RetriedOnce app u.traffic) : FailsOnce s l u := by
  rintro tl rfl
  rcases step_traffic hs with ⟨-, other⟩ | ⟨tl', moved, ends⟩
  · exact absurd rfl (other tl)
  · have first := second_failure h.1 (step_trafficStep moved) twice
    intro t task outcome hl at_t again
    exact first t task outcome ((ends t outcome).mpr (by rw [hl])) at_t again

/-- In every run that keeps its connection, every message is tried at most twice and
then leaves the queue exactly when no handler raises for a message a second time. -/
theorem triesTwice_iff {ls : List (Label Msg)} {u : Consumer Msg H}
    (run : Along (step app) ConnectionKept Consumer.initial ls u) :
    Along (step app) (TriesTwice app) Consumer.initial ls u ↔
      Along (step app) FailsOnce Consumer.initial ls u :=
  Along.along_iff (Tried app) run tried_initial (fun _ _ _ => step_tried)
    (fun _ _ _ h hs kept => ⟨step_failsOnce h hs,
      fun once => retriedOnce_of_tried (step_tried h hs kept once)⟩)

end Runs

section Examples

instance (s : Consumer Msg H) (l : Label Msg) (u : Consumer Msg H) :
    Decidable (ConnectionKept s l u) :=
  inferInstanceAs (Decidable (∀ task ∈ u.traffic.tasks, u.traffic.channel task.channel = .opened))

instance [DecidableEq Msg] (s : Consumer Msg H) (l : Label Msg) (u : Consumer Msg H) :
    Decidable (FailsOnce s l u) :=
  match l with
  | .traffic (.handlerEnds t outcome) => decidable_of_iff
      (∀ task ∈ s.traffic.tasks[t]?, raised outcome = true → failures s.traffic task.message = 0)
      ⟨by rintro first _ ⟨⟩ _ task _ ⟨⟩ at_t; exact first task at_t,
        fun once task at_t => once _ rfl t task outcome rfl at_t⟩
  | .traffic (.publish _) | .traffic (.spawnTask _) | .traffic .openChannel | .traffic .closeChannel
  | .traffic .loseChannel | .traffic .noticeLoss | .traffic (.acquire _)
  | .traffic (.cancelWaiting _) => isTrue (by rintro _ ⟨⟩ _ _ _ ⟨⟩)
  | .resume _ | .cancel _ => isTrue (by rintro _ ⟨⟩)

def untilSecondAttempt : List (Label Unit) :=
  untilHandling ++ [.traffic (.handlerEnds 0 (.error .valueError)), .resume (.yielded ()),
    .traffic (.acquire 1)]

theorem poison_message_requeued : ¬ ∀ ls u,
    Along (step userCreatedApp) ConnectionKept Consumer.initial ls u →
      Along (step userCreatedApp) (TriesTwice userCreatedApp) Consumer.initial ls u := by
  intro h
  have along := h (untilSecondAttempt ++ [.traffic (.handlerEnds 1 (.error .valueError))]) _
    (Along.of_execute rfl)
  obtain ⟨w, before, enabled, twice⟩ := along.last
  cases before
  cases enabled
  rcases (twice () userCreated_registered).2 (by decide) with hp | hp <;> cases hp

theorem failed_once_tried_twice : ∃ u,
    Along (step userCreatedApp) (TriesTwice userCreatedApp) Consumer.initial
      (untilSecondAttempt ++ [.traffic (.handlerEnds 1 (.ok ()))]) u ∧
    attempts u.traffic () = 2 ∧ failures u.traffic () = 1 ∧ u.traffic.place () = .acked := by
  obtain ⟨u, kept, once, counted⟩ : ∃ u,
      Along (step userCreatedApp) ConnectionKept Consumer.initial
        (untilSecondAttempt ++ [.traffic (.handlerEnds 1 (.ok ()))]) u ∧
      Along (step userCreatedApp) FailsOnce Consumer.initial
        (untilSecondAttempt ++ [.traffic (.handlerEnds 1 (.ok ()))]) u ∧
      attempts u.traffic () = 2 ∧ failures u.traffic () = 1 ∧ u.traffic.place () = .acked :=
    ⟨_, Along.of_execute rfl, Along.of_execute rfl, rfl, rfl, rfl⟩
  exact ⟨u, (triesTwice_iff kept).mpr once, counted⟩

end Examples

end FastapiProject.ConsumerRetries
