import Mathlib.Tactic.Cases
import FastapiProject.ConsumerTraffic
import FastapiProject.IndexedLists

set_option autoImplicit false

/-!
# What the steps of the message tasks do

One constructor for each way in which the tasks and the broker can change, the
invariant of deliveries that they all keep, and that the tasks go through
`_process_message` as a whole.
-/
namespace FastapiProject.ConsumerTrafficSteps
open PythonExceptions PythonJson ConsumerMessage ConsumerTraffic IndexedLists

variable {Msg H : Type}

def HasHandler (app : App Msg H) (m : Msg) : Prop := ∃ h body, app.route m = .ok (some (h, body))

inductive TrafficStep [DecidableEq Msg] (app : App Msg H) (s : Traffic Msg H) :
    TrafficLabel Msg → Traffic Msg H → Prop where
  | published {m : Msg} (new : s.place m = .unpublished) :
    TrafficStep app s (.publish m) { s with place := Function.update s.place m (.ready false) }
  | delivered {m : Msg} {redelivered : Bool} (isOpen : s.channel s.current = .opened)
      (ready : s.place m = .ready redelivered)
      (room : s.outstanding < app.settings.rmqPrefetchCount) :
    TrafficStep app s (.spawnTask m) { s with
      tasks := s.tasks ++ [⟨m, s.current, .waiting⟩]
      place := Function.update s.place m (.unacked s.current s.tasks.length) }
  | yieldedLate {m : Msg} (notOpen : s.channel s.current ≠ .opened)
      (known : s.place m ≠ .unpublished) :
    TrafficStep app s (.spawnTask m)
      { s with tasks := s.tasks ++ [⟨m, s.current, .waiting⟩] }
  | opened : TrafficStep app s .openChannel { s with
      current := s.current + 1
      channel := Function.update s.channel (s.current + 1) .opened }
  | gone {l : TrafficLabel Msg} {state : ChannelState} (notOpen : state ≠ .opened)
      (closes : l = .closeChannel ∧ state = .closed ∨
        l = .loseChannel ∧ s.channel s.current = .opened ∧ state = .lost ∨
        l = .noticeLoss ∧ s.channel s.current = .lost ∧ state = .closed) :
    TrafficStep app s l (s.closing state)
  | invoked {t free : ℕ} {task : MessageTask Msg H} {h : H} {body : Json}
      (at_t : s.tasks[t]? = some task) (waiting : task.stage = .waiting)
      (routed : app.route task.message = .ok (some (h, body))) :
    TrafficStep app s (.acquire t) { s.setStage t task (.handling h body) with
      semaphore := some free
      invoked := s.invoked ++ [task.message] }
  | unrouted {t free : ℕ} {task : MessageTask Msg H} {outcome : Except Exn Unit}
      (at_t : s.tasks[t]? = some task) (waiting : task.stage = .waiting)
      (nobody : ¬ HasHandler app task.message) :
    TrafficStep app s (.acquire t)
      (Traffic.endTask { s with semaphore := some free } t task fun d => (outcome, d))
  | handled {t : ℕ} {task : MessageTask Msg H} {h : H} {body : Json} {outcome : Except Exn Unit}
      (at_t : s.tasks[t]? = some task) (handling : task.stage = .handling h body) :
    TrafficStep app s (.handlerEnds t outcome)
      { s.endTask t task (executeHandler outcome) with
        handled := s.handled ++ [(task.message, outcome)] }
  | cancelled {t : ℕ} {task : MessageTask Msg H} (at_t : s.tasks[t]? = some task)
      (waiting : task.stage = .waiting) :
    TrafficStep app s (.cancelWaiting t) (s.setStage t task (.ended (.error .cancelledError)))

section Inversion
variable [DecidableEq Msg] {app : App Msg H} {s u : Traffic Msg H}

theorem spawnTask_step {m : Msg} (hs : spawnTask app s m = some u) :
    TrafficStep app s (.spawnTask m) u := by
  unfold spawnTask at hs
  dsimp only at hs
  cases hc : s.channel s.current with
  | opened =>
    simp only [hc] at hs
    cases hp : s.place m with
    | ready redelivered =>
      simp only [hp] at hs
      split at hs
      · rename_i room
        cases hs
        exact .delivered hc hp room
      · cases hs
    | _ => simp [hp] at hs
  | lost | closed =>
    simp only [hc] at hs
    split at hs
    · cases hs
    · rename_i known
      cases hs
      exact .yieldedLate (by simp [hc]) known

theorem acquire_step {t : ℕ} {task : MessageTask Msg H} (at_t : s.tasks[t]? = some task)
    (waiting : task.stage = .waiting) (hs : acquire app s t task = some u) :
    TrafficStep app s (.acquire t) u := by
  unfold acquire at hs
  split at hs
  · cases hs
  · split at hs
    · rename_i routed
      cases hs
      exact .invoked at_t waiting routed
    · rename_i routed
      cases hs
      exact .unrouted at_t waiting (fun ⟨h, body, found⟩ => by simp [found] at routed)
    · rename_i e routed
      cases hs
      exact .unrouted at_t waiting (fun ⟨h, body, found⟩ => by simp [found] at routed)

theorem step_trafficStep {l : TrafficLabel Msg} (hs : s.step app l = some u) :
    TrafficStep app s l u := by
  cases l with
  | publish m =>
    simp only [Traffic.step] at hs
    split at hs <;> cases hs
    exact .published ‹_›
  | spawnTask m => exact spawnTask_step hs
  | openChannel =>
    cases hs
    exact .opened
  | closeChannel =>
    cases hs
    exact .gone (by decide) (.inl ⟨rfl, rfl⟩)
  | loseChannel =>
    simp only [Traffic.step] at hs
    split at hs <;> cases hs
    exact .gone (by decide) (.inr (.inl ⟨rfl, ‹_›, rfl⟩))
  | noticeLoss =>
    simp only [Traffic.step] at hs
    split at hs <;> cases hs
    exact .gone (by decide) (.inr (.inr ⟨rfl, ‹_›, rfl⟩))
  | acquire t =>
    obtain ⟨task, at_t, hs⟩ := Option.bind_eq_some_iff.mp hs
    cases hstage : task.stage with
    | waiting => exact acquire_step at_t hstage (by simpa [hstage] using hs)
    | _ => simp [hstage] at hs
  | handlerEnds t outcome =>
    obtain ⟨task, at_t, hs⟩ := Option.bind_eq_some_iff.mp hs
    cases hstage : task.stage with
    | handling h body =>
      simp only [hstage] at hs
      cases hs
      exact .handled at_t hstage
    | _ => simp [hstage] at hs
  | cancelWaiting t =>
    obtain ⟨task, at_t, hs⟩ := Option.bind_eq_some_iff.mp hs
    cases hstage : task.stage with
    | waiting =>
      simp only [hstage] at hs
      cases hs
      exact .cancelled at_t hstage
    | _ => simp [hstage] at hs

end Inversion

section Parts
variable {s : Traffic Msg H} {t k c : ℕ} {task : MessageTask Msg H} {m : Msg}

theorem setStage_tasks (at_t : s.tasks[t]? = some task) (stage : Stage H) :
    (s.setStage t task stage).tasks[k]? =
      if k = t then some { task with stage := stage } else s.tasks[k]? := by
  have inside := (List.getElem?_eq_some_iff.mp at_t).1
  unfold Traffic.setStage
  rw [List.getElem?_set]
  by_cases same : t = k
  · subst same
    simp [inside]
  · rw [if_neg same, if_neg (Ne.symm same)]

theorem requeued_unacked {c' : ℕ} :
    s.requeued c m = .unacked c' k ↔ s.place m = .unacked c' k ∧ c' ≠ c := by
  unfold Traffic.requeued
  split
  · rename_i c'' t hp
    rw [hp]
    by_cases same : c'' = c
    · simp only [same, ↓reduceIte, reduceCtorEq, false_iff, Place.unacked.injEq, not_and]
      exact fun h => absurd h.1.symm
    · simp only [same, ↓reduceIte, Place.unacked.injEq]
      constructor
      · rintro ⟨rfl, rfl⟩
        exact ⟨⟨rfl, rfl⟩, same⟩
      · exact fun h => h.1
  · rename_i other
    exact ⟨fun h => absurd h (other _ _), fun h => absurd h.1 (other _ _)⟩

theorem requeued_keeps (h : ∀ t, s.place m ≠ .unacked c t) : s.requeued c m = s.place m := by
  unfold Traffic.requeued
  split
  · rename_i c' t hp
    rw [hp, if_neg]
    rintro rfl
    exact h t hp
  · rfl

end Parts

section Settlements
variable [DecidableEq Msg] {s : Traffic Msg H} {t k c : ℕ} {task : MessageTask Msg H} {m : Msg}
  {sent : List Settlement} {block : Delivery → Except Exn Unit × Delivery}

theorem endTask_tasks : (s.endTask t task block).tasks =
    (s.setStage t task
      (.ended (process false block { channel := s.channel task.channel }).1)).tasks := rfl

theorem endTask_place : (s.endTask t task block).place =
    s.receive t task (process false block { channel := s.channel task.channel }).2.sent := rfl

theorem receive_other (ne : m ≠ task.message) : s.receive t task sent m = s.place m := by
  unfold Traffic.receive
  split
  · rfl
  · split
    · exact Function.update_of_ne ne _ _
    · rfl

theorem receive_keeps (other : s.place m ≠ .unacked task.channel t) :
    s.receive t task sent m = s.place m := by
  unfold Traffic.receive
  split
  · rfl
  · split
    · rename_i accepted
      rw [Function.update_of_ne]
      rintro rfl
      exact other accepted.2
    · rfl

theorem settledPlace_ne (settlement : Settlement) : settledPlace settlement ≠ .unacked c k := by
  unfold settledPlace
  split <;> nofun

theorem receive_unacked (h : s.receive t task sent m = .unacked c k) :
    s.place m = .unacked c k := by
  unfold Traffic.receive at h
  split at h
  · exact h
  · split at h
    · rename_i settlement _ _
      by_cases same : m = task.message
      · subst same
        rw [Function.update_self] at h
        exact absurd h (settledPlace_ne settlement)
      · rwa [Function.update_of_ne same] at h
    · exact h

theorem receive_settles (isOpen : s.channel task.channel = .opened)
    (owned : s.place task.message = .unacked task.channel t) (settled : sent ≠ []) :
    s.receive t task sent task.message ≠ .unacked c k := by
  cases sent with
  | nil => exact absurd rfl settled
  | cons settlement sent =>
    rw [Traffic.receive, if_pos ⟨isOpen, owned⟩, Function.update_self]
    exact settledPlace_ne settlement

end Settlements

/-- The deliveries: every unfinished task on an open channel owns its message, every
delivery is a task's on an open channel, and a handler that runs is the one for its
message. -/
structure Inv (app : App Msg H) (s : Traffic Msg H) : Prop where
  numbered : ∀ (t : ℕ) (task : MessageTask Msg H), s.tasks[t]? = some task → task.channel ≤ s.current
  owned : ∀ (t : ℕ) (task : MessageTask Msg H), s.tasks[t]? = some task → task.stage.finished = false →
    s.channel task.channel = .opened → s.place task.message = .unacked task.channel t
  delivered : ∀ (m : Msg) (c t : ℕ), s.place m = .unacked c t →
    ∃ task, s.tasks[t]? = some task ∧ task.message = m ∧ task.channel = c
  isOpen : ∀ (m : Msg) (c t : ℕ), s.place m = .unacked c t → s.channel c = .opened
  routed : ∀ (t : ℕ) (task : MessageTask Msg H) (h : H) (body : Json), s.tasks[t]? = some task →
    task.stage = .handling h body → app.route task.message = .ok (some (h, body))

section Frames
variable {app : App Msg H} {s u : Traffic Msg H}

theorem inv_initial : Inv app (Traffic.initial : Traffic Msg H) where
  numbered t task h := by cases h
  owned t task h := by cases h
  delivered m c t h := by cases h
  isOpen m c t h := by cases h
  routed t task h body at_t := by cases at_t

theorem inv_place (h : Inv app s) {p : Msg → Place}
    (kept : ∀ m c t, s.place m = .unacked c t ↔ p m = .unacked c t) :
    Inv app { s with place := p } where
  numbered := h.numbered
  owned t task at_t live isOpen := (kept _ _ _).mp (h.owned t task at_t live isOpen)
  delivered m c t hp := h.delivered m c t ((kept _ _ _).mpr hp)
  isOpen m c t hp := h.isOpen m c t ((kept _ _ _).mpr hp)
  routed := h.routed

theorem inv_setStage (h : Inv app s) {t : ℕ} {task : MessageTask Msg H} {stage : Stage H}
    (at_t : s.tasks[t]? = some task) (live : task.stage.finished = false)
    (route : ∀ h body, stage = .handling h body → app.route task.message = .ok (some (h, body)))
    (tasks : u.tasks = (s.setStage t task stage).tasks) (channel : u.channel = s.channel)
    (current : u.current = s.current)
    (kept : ∀ m, (stage.finished = true → s.place m ≠ .unacked task.channel t) →
      u.place m = s.place m)
    (settled : ∀ m c k, u.place m = .unacked c k → s.place m = .unacked c k) : Inv app u := by
  have found (k : ℕ) : u.tasks[k]? =
      if k = t then some { task with stage := stage } else s.tasks[k]? := by
    rw [tasks]
    exact setStage_tasks at_t stage
  refine ⟨fun k task' at_k => ?_, fun k task' at_k live' isOpen => ?_, fun m c k hp => ?_,
    fun m c k hp => ?_, fun k task' handler body at_k handling => ?_⟩
  · rw [found] at at_k
    rw [current]
    split at at_k
    · cases at_k
      exact h.numbered t task at_t
    · exact h.numbered k task' at_k
  · rw [found] at at_k
    rw [channel] at isOpen
    split at at_k
    · rename_i same
      subst same
      cases at_k
      rw [kept _ (fun finished => by rw [finished] at live'; cases live')]
      exact h.owned k task at_t live isOpen
    · rename_i other
      have place := h.owned k task' at_k live' isOpen
      rw [kept _ (fun _ same => other ?_)]
      · exact place
      · exact (Place.unacked.inj (place.symm.trans same)).2
  · obtain ⟨task', at_k, message, channel'⟩ := h.delivered m c k (settled m c k hp)
    rw [found]
    split
    · rename_i same
      subst same
      rw [at_t] at at_k
      cases at_k
      exact ⟨_, rfl, message, channel'⟩
    · exact ⟨task', at_k, message, channel'⟩
  · rw [channel]
    exact h.isOpen m c k (settled m c k hp)
  · rw [found] at at_k
    split at at_k
    · cases at_k
      exact route handler body handling
    · exact h.routed k task' handler body at_k handling

theorem inv_opened (h : Inv app s) : Inv app { s with
    current := s.current + 1
    channel := Function.update s.channel (s.current + 1) .opened } where
  numbered t task at_t := Nat.le_succ_of_le (h.numbered t task at_t)
  owned t task at_t live isOpen := by
    have le := h.numbered t task at_t
    have ne : task.channel ≠ s.current + 1 := by omega
    apply h.owned t task at_t live
    exact (Function.update_of_ne ne _ _).symm.trans isOpen
  delivered := h.delivered
  isOpen m c t hp := by
    change Function.update s.channel (s.current + 1) ChannelState.opened c = .opened
    by_cases same : c = s.current + 1
    · rw [same, Function.update_self]
    · rw [Function.update_of_ne same]
      exact h.isOpen m c t hp
  routed := h.routed

theorem inv_closing (h : Inv app s) {state : ChannelState} (notOpen : state ≠ .opened) :
    Inv app (s.closing state) where
  numbered := h.numbered
  owned t task at_t live isOpen := by
    change Function.update s.channel s.current state task.channel = .opened at isOpen
    by_cases same : task.channel = s.current
    · rw [same, Function.update_self] at isOpen
      exact absurd isOpen notOpen
    · rw [Function.update_of_ne same] at isOpen
      exact requeued_unacked.mpr ⟨h.owned t task at_t live isOpen, same⟩
  delivered m c t hp := h.delivered m c t (requeued_unacked.mp hp).1
  isOpen m c t hp := by
    obtain ⟨place, other⟩ := requeued_unacked.mp hp
    exact (Function.update_of_ne other _ _).trans (h.isOpen m c t place)
  routed := h.routed

end Frames

section Keeps
variable [DecidableEq Msg] {app : App Msg H} {s u : Traffic Msg H} {l : TrafficLabel Msg}

theorem inv_endTask (h : Inv app s) {t : ℕ} {task : MessageTask Msg H}
    (at_t : s.tasks[t]? = some task) (live : task.stage.finished = false)
    (block : Delivery → Except Exn Unit × Delivery) : Inv app (s.endTask t task block) := by
  refine inv_setStage h at_t live ?_ endTask_tasks rfl rfl (fun m kept => ?_) (fun m c k hp => ?_)
  · intro handler body same
    cases same
  · rw [endTask_place]
    exact receive_keeps (kept rfl)
  · rw [endTask_place] at hp
    exact receive_unacked hp

theorem inv_spawn (h : Inv app s) {m : Msg} {p : Msg → Place}
    (other : ∀ k, k ≠ m → p k = s.place k)
    (taken : s.channel s.current = .opened →
      (∃ r, s.place m = .ready r) ∧ p m = .unacked s.current s.tasks.length)
    (late : s.channel s.current ≠ .opened → p = s.place) :
    Inv app { s with tasks := s.tasks ++ [⟨m, s.current, .waiting⟩], place := p } := by
  refine ⟨fun t task at_t => ?_, fun t task at_t live isOpen => ?_, fun m' c t hp => ?_,
    fun m' c t hp => ?_, fun t task handler body at_t handling => ?_⟩
  · rcases getElem?_concat_cases at_t with at_t | ⟨-, rfl⟩
    · exact h.numbered t task at_t
    · exact Nat.le_refl _
  · rcases getElem?_concat_cases at_t with at_t | ⟨rfl, rfl⟩
    · have place := h.owned t task at_t live isOpen
      by_cases opened : s.channel s.current = .opened
      · obtain ⟨r, ready⟩ := (taken opened).1
        have ne : task.message ≠ m := by
          rintro rfl
          rw [place] at ready
          cases ready
        exact (other _ ne).trans place
      · exact (congrFun (late opened) _).trans place
    · exact (taken isOpen).2
  · by_cases opened : s.channel s.current = .opened
    · by_cases same : m' = m
      · subst same
        cases (taken opened).2.symm.trans hp
        exact ⟨_, List.getElem?_concat_length, rfl, rfl⟩
      · obtain ⟨task, at_t, found⟩ := h.delivered m' c t ((other m' same).symm.trans hp)
        exact ⟨task, getElem?_concat_old at_t _, found⟩
    · obtain ⟨task, at_t, found⟩ := h.delivered m' c t ((congrFun (late opened) m').symm.trans hp)
      exact ⟨task, getElem?_concat_old at_t _, found⟩
  · by_cases opened : s.channel s.current = .opened
    · by_cases same : m' = m
      · subst same
        cases (taken opened).2.symm.trans hp
        exact opened
      · exact h.isOpen m' c t ((other m' same).symm.trans hp)
    · exact h.isOpen m' c t ((congrFun (late opened) m').symm.trans hp)
  · rcases getElem?_concat_cases at_t with at_t | ⟨-, rfl⟩
    · exact h.routed t task handler body at_t handling
    · cases handling

def handledPlace : Except Exn Unit → Place
  | .ok () => .acked
  | .error e => if e.isException = true then .ready true else .dropped

theorem step_channel (hs : TrafficStep app s l u) :
    l ≠ .closeChannel ∧ u.channel = s.channel ∧ u.current = s.current ∨
    l = .openChannel ∧ u.current = s.current + 1 ∧
      u.channel = Function.update s.channel (s.current + 1) .opened ∨
    ∃ state, u.current = s.current ∧ u.channel = Function.update s.channel s.current state ∧
      (state = .closed ∨ s.channel s.current = .opened) ∧ (l = .closeChannel → state = .closed) := by
  cases hs with
  | opened => exact .inr (.inl ⟨rfl, rfl, rfl⟩)
  | gone _ closes =>
    rcases closes with ⟨rfl, rfl⟩ | ⟨rfl, isOpen, rfl⟩ | ⟨rfl, -, rfl⟩
    · exact .inr (.inr ⟨_, rfl, rfl, .inl rfl, fun _ => rfl⟩)
    · exact .inr (.inr ⟨_, rfl, rfl, .inr isOpen, nofun⟩)
    · exact .inr (.inr ⟨_, rfl, rfl, .inl rfl, nofun⟩)
  | _ => exact .inl ⟨nofun, rfl, rfl⟩

theorem handled_place (h : Inv app s) {t : ℕ} {task : MessageTask Msg H} {handler : H} {body : Json}
    (at_t : s.tasks[t]? = some task) (handling : task.stage = .handling handler body)
    (outcome : Except Exn Unit) : (s.endTask t task (executeHandler outcome)).place =
      if s.channel task.channel = .opened then
        Function.update s.place task.message (handledPlace outcome)
      else s.place := by
  rw [endTask_place]
  by_cases isOpen : s.channel task.channel = .opened
  · have place := h.owned t task at_t (by rw [handling]; rfl) isOpen
    rw [if_pos isOpen, executeHandler_sent _ _ (by rw [isOpen]; decide)]
    cases outcome with
    | ok _ => simp [Traffic.receive, isOpen, place, settledPlace, handledPlace]
    | error e =>
      by_cases he : e.isException = true <;>
        simp [Traffic.receive, isOpen, place, settledPlace, handledPlace, he]
  · rw [if_neg isOpen]
    unfold Traffic.receive
    split
    · rfl
    · rw [if_neg (fun accepted => isOpen accepted.1)]

theorem inv_step (h : Inv app s) (hs : TrafficStep app s l u) : Inv app u := by
  cases hs with
  | @published m new =>
    refine inv_place h (fun k c t => ?_)
    by_cases same : k = m
    · subst same
      rw [Function.update_self, new]
      exact ⟨nofun, nofun⟩
    · rw [Function.update_of_ne same]
  | delivered isOpen ready _ =>
    exact inv_spawn h (fun k ne => Function.update_of_ne ne _ _)
      (fun _ => ⟨⟨_, ready⟩, Function.update_self _ _ _⟩) (fun notOpen => absurd isOpen notOpen)
  | yieldedLate notOpen _ =>
    exact inv_spawn h (fun _ _ => rfl) (fun isOpen => absurd isOpen notOpen) (fun _ => rfl)
  | opened => exact inv_opened h
  | gone notOpen _ => exact inv_closing h notOpen
  | invoked at_t waiting routed =>
    refine inv_setStage h at_t (by rw [waiting]; rfl) (fun h' body' same => ?_) rfl rfl rfl
      (fun _ _ => rfl) (fun _ _ _ hp => hp)
    cases same
    exact routed
  | @unrouted t free task outcome at_t waiting _ =>
    have h' : Inv app { s with semaphore := some free } := ⟨h.1, h.2, h.3, h.4, h.5⟩
    exact inv_endTask h' at_t (by rw [waiting]; rfl) _
  | @handled t task _ _ outcome at_t handling =>
    have h' := inv_endTask h at_t (by rw [handling]; rfl) (executeHandler outcome)
    exact ⟨h'.1, h'.2, h'.3, h'.4, h'.5⟩
  | cancelled at_t waiting =>
    refine inv_setStage h at_t (by rw [waiting]; rfl) ?_ rfl rfl rfl (fun _ _ => rfl)
      (fun _ _ _ hp => hp)
    intro handler body same
    cases same

end Keeps

section Processing
variable [DecidableEq Msg] {app : App Msg H} {s u : Traffic Msg H} {t : ℕ}
  {task : MessageTask Msg H} (run : H → Json → Except Exn Unit)

def Processed (app : App Msg H) (s : Traffic Msg H) (t : ℕ) (task : MessageTask Msg H)
    (u : Traffic Msg H) : Prop :=
  let ended := processMessage app.depth app.handlers run (app.body task.message)
    { channel := s.channel task.channel }
  u.tasks = (s.setStage t task (.ended ended.1)).tasks ∧ u.place = s.receive t task ended.2.sent

/-- The two ways through `_process_message`: a task without a handler ends it where it
acquires its slot, any other one where its handler ends. -/
theorem acquire_processed (hs : acquire app s t task = some u)
    (nobody : ¬ HasHandler app task.message) : Processed run app s t task u := by
  unfold acquire at hs
  unfold Processed processMessage processRouted
  split at hs
  · cases hs
  · split at hs
    · rename_i routed
      exact absurd ⟨_, _, routed⟩ nobody
    · rename_i routed
      cases hs
      rw [App.route] at routed
      simp only [routed]
      exact ⟨rfl, rfl⟩
    · rename_i e routed
      cases hs
      rw [App.route] at routed
      simp only [routed]
      exact ⟨rfl, rfl⟩

theorem handled_processed (h : Inv app s) {handler : H} {body : Json}
    (at_t : s.tasks[t]? = some task) (handling : task.stage = .handling handler body)
    (hs : s.step app (.handlerEnds t (run handler body)) = some u) :
    Processed run app s t task u := by
  have routed := h.routed t task handler body at_t handling
  rw [App.route] at routed
  unfold Processed processMessage processRouted
  simp only [Traffic.step, at_t, handling, Option.bind_eq_bind, Option.bind_some] at hs
  cases hs
  simp only [routed]
  exact ⟨rfl, rfl⟩

end Processing

end FastapiProject.ConsumerTrafficSteps
