import FastapiProject.ConsumerLoop
import FastapiProject.ConsumerMessageSettlement
import FastapiProject.ConsumerTrafficSteps

set_option autoImplicit false

/-!
# Which messages the consumer loses

Every exit of a handler but one leaves its message acknowledged after a return, or with
the broker. The one is an exception that `except Exception` lets pass while the channel
is open: the implicit reject of `message.process` then drops the message.
-/
namespace FastapiProject.ConsumerMessageLoss
open PythonExceptions MachineRuns ConsumerMessage ConsumerMessageSettlement ConsumerTraffic
  ConsumerTrafficSteps ConsumerLoop

variable {Msg H : Type}

def RegisteredMessage (app : App Msg H) (m : Msg) : Prop :=
  ∃ h body, Registered app.depth app.handlers (app.body m) h body

/-- A registered message has left the queue only after a handler returned for it. -/
def NothingLost (app : App Msg H) (s : Traffic Msg H) : Prop :=
  ∀ m, RegisteredMessage app m →
    (s.place m = .acked → (m, .ok ()) ∈ s.handled) ∧ s.place m ≠ .dropped

/-- The handler does not end with a cancellation or a process exit while the channel of
its message is open. -/
def HandlerEndsKnown (s : Traffic Msg H) (l : TrafficLabel Msg) : Prop :=
  ∀ t task e, l = .handlerEnds t (.error e) → s.tasks[t]? = some task →
    s.channel task.channel = .opened → e.isException = true

theorem hasHandler_iff {app : App Msg H} {m : Msg} : HasHandler app m ↔ RegisteredMessage app m := by
  constructor
  · rintro ⟨h, body, routed⟩
    exact ⟨h, body, registered_of_route routed⟩
  · rintro ⟨h, body, registered⟩
    exact ⟨h, body, route_registered registered⟩

section Kept
variable {app : App Msg H} {s u : Traffic Msg H}

theorem nothingLost_of_kept (safe : NothingLost app s) (handled : ∀ x ∈ s.handled, x ∈ u.handled)
    (kept : ∀ m, RegisteredMessage app m → u.place m = .acked ∨ u.place m = .dropped →
      u.place m = s.place m) : NothingLost app u := by
  intro m registered
  obtain ⟨acked, notDropped⟩ := safe m registered
  refine ⟨fun hp => handled _ (acked ?_), fun hp => notDropped ?_⟩
  · rw [← kept m registered (.inl hp), hp]
  · rw [← kept m registered (.inr hp), hp]

theorem requeued_gone {c : ℕ} {m : Msg}
    (hp : s.requeued c m = .acked ∨ s.requeued c m = .dropped) :
    s.requeued c m = s.place m := by
  unfold Traffic.requeued at hp ⊢
  split
  · rename_i c' t place
    rw [place] at hp
    by_cases same : c' = c <;> simp [same] at hp
  · rfl

end Kept

section Steps
variable [DecidableEq Msg] {app : App Msg H} {s u : Traffic Msg H} {l : TrafficLabel Msg}

theorem handled_nothingLost (inv : Inv app s) (safe : NothingLost app s) {t : ℕ}
    {task : MessageTask Msg H} {h : H} {body : PythonJson.Json} {outcome : Except Exn Unit}
    (at_t : s.tasks[t]? = some task) (handling : task.stage = .handling h body) :
    NothingLost app { s.endTask t task (executeHandler outcome) with
        handled := s.handled ++ [(task.message, outcome)] } ↔
      HandlerEndsKnown s (.handlerEnds t outcome) := by
  have registered : RegisteredMessage app task.message :=
    hasHandler_iff.mp ⟨h, body, inv.routed t task h body at_t handling⟩
  have place := handled_place inv at_t handling outcome
  by_cases isOpen : s.channel task.channel = .opened
  · rw [if_pos isOpen] at place
    have settled (known : handledPlace outcome ≠ .dropped) :
        NothingLost app { s.endTask t task (executeHandler outcome) with
          handled := s.handled ++ [(task.message, outcome)] } := by
      intro m hm
      change ((s.endTask t task (executeHandler outcome)).place m = .acked → _) ∧
        (s.endTask t task (executeHandler outcome)).place m ≠ .dropped
      rw [place]
      by_cases same : m = task.message
      · subst same
        rw [Function.update_self]
        refine ⟨fun acked => List.mem_append_right _ ?_, known⟩
        cases outcome with
        | ok _ => exact List.mem_singleton.mpr rfl
        | error e => by_cases he : e.isException = true <;> simp [handledPlace, he] at acked
      · rw [Function.update_of_ne same]
        exact ⟨fun acked => List.mem_append_left _ ((safe m hm).1 acked), (safe m hm).2⟩
    constructor
    · intro kept t' task' e same at_t' _
      cases same
      by_contra he
      have dropped := (kept _ registered).2
      change (s.endTask t task (executeHandler (.error e))).place task.message ≠ .dropped at dropped
      rw [place, Function.update_self] at dropped
      exact dropped (if_neg he)
    · intro known
      apply settled
      cases outcome with
      | ok _ => simp [handledPlace]
      | error e => simp [handledPlace, known t task e rfl at_t isOpen]
  · rw [if_neg isOpen] at place
    apply iff_of_true
    · exact nothingLost_of_kept safe (fun x hx => List.mem_append_left _ hx)
        (fun m _ _ => congrFun place m)
    · intro t' task' e same at_t' isOpen'
      cases same
      rw [at_t] at at_t'
      cases at_t'
      exact absurd isOpen' isOpen

theorem step_nothingLost (inv : Inv app s) (safe : NothingLost app s)
    (hs : TrafficStep app s l u) : NothingLost app u ↔ HandlerEndsKnown s l := by
  have otherwise (lost : NothingLost app u) (other : ∀ t outcome, l ≠ .handlerEnds t outcome) :
      NothingLost app u ↔ HandlerEndsKnown s l :=
    iff_of_true lost (fun t task e same => absurd same (other t _))
  cases hs with
  | @published m new =>
    refine otherwise (nothingLost_of_kept safe (fun _ hx => hx) (fun k _ hp => ?_)) (fun _ _ => nofun)
    by_cases same : k = m
    · subst same
      simp [Function.update_self] at hp
    · exact Function.update_of_ne same _ _
  | @delivered m r isOpen ready room =>
    refine otherwise (nothingLost_of_kept safe (fun _ hx => hx) (fun k _ hp => ?_)) (fun _ _ => nofun)
    by_cases same : k = m
    · subst same
      simp [Function.update_self] at hp
    · exact Function.update_of_ne same _ _
  | yieldedLate _ _ =>
    exact otherwise (nothingLost_of_kept safe (fun _ hx => hx) (fun _ _ _ => rfl)) (fun _ _ => nofun)
  | opened =>
    exact otherwise (nothingLost_of_kept safe (fun _ hx => hx) (fun _ _ _ => rfl)) (fun _ _ => nofun)
  | gone _ closes =>
    apply otherwise (nothingLost_of_kept safe (fun _ hx => hx) (fun _ _ hp => requeued_gone hp))
    rintro t outcome rfl
    rcases closes with ⟨h, -⟩ | ⟨h, -⟩ | ⟨h, -⟩ <;> cases h
  | invoked _ _ _ =>
    exact otherwise (nothingLost_of_kept safe (fun _ hx => hx) (fun _ _ _ => rfl)) (fun _ _ => nofun)
  | @unrouted t free task outcome _ _ nobody =>
    refine otherwise (nothingLost_of_kept safe (fun _ hx => hx) (fun m hm _ => ?_)) (fun _ _ => nofun)
    rw [endTask_place]
    apply receive_other
    rintro rfl
    exact nobody (hasHandler_iff.mpr hm)
  | handled at_t handling => exact handled_nothingLost inv safe at_t handling
  | cancelled _ _ =>
    exact otherwise (nothingLost_of_kept safe (fun _ hx => hx) (fun _ _ _ => rfl)) (fun _ _ => nofun)

end Steps

def Kept (app : App Msg H) (s : Consumer Msg H) : Prop :=
  Inv app s.traffic ∧ NothingLost app s.traffic

theorem kept_initial (app : App Msg H) : Kept app Consumer.initial :=
  ⟨inv_initial, fun _ _ => ⟨nofun, nofun⟩⟩

section Runs
variable [DecidableEq Msg] {app : App Msg H}

def LosesNothing (app : App Msg H) (_ : Consumer Msg H) (_ : Label Msg) (u : Consumer Msg H) : Prop :=
  NothingLost app u.traffic

def EndsKnown (s : Consumer Msg H) (l : Label Msg) (_ : Consumer Msg H) : Prop :=
  ∀ tl, l = .traffic tl → HandlerEndsKnown s.traffic tl

theorem step_kept {s u : Consumer Msg H} {l : Label Msg} (h : Kept app s)
    (hs : step app s l = some u) :
    Inv app u.traffic ∧ (NothingLost app u.traffic ↔ EndsKnown s l u) := by
  obtain ⟨inv, safe⟩ := h
  rcases step_traffic hs with ⟨same, other⟩ | ⟨tl, moved, ends⟩
  · rw [same]
    exact ⟨inv, iff_of_true safe (fun tl hl => absurd hl (other tl))⟩
  · have next := step_trafficStep moved
    refine ⟨inv_step inv next, (step_nothingLost inv safe next).trans ?_⟩
    constructor
    · rintro known tl' rfl t task e rfl
      exact known t task e ((ends t _).mpr rfl)
    · intro known t task e hl
      exact known _ ((ends t _).mp hl) t task e rfl

/-- In every run nothing is lost exactly when no handler ends with an exception that is
no `Exception` while the channel of its message is open. -/
theorem losesNothing_iff {ls : List (Label Msg)} {u : Consumer Msg H}
    (run : Runs (step app) Consumer.initial ls u) :
    Along (step app) (LosesNothing app) Consumer.initial ls u ↔
      Along (step app) EndsKnown Consumer.initial ls u :=
  Runs.along_iff (Kept app) run (kept_initial app)
    (fun _ _ _ h hs known => ⟨(step_kept h hs).1, (step_kept h hs).2.mpr known⟩)
    (fun _ _ _ h hs => (step_kept h hs).2)

end Runs

section Examples

theorem userCreated_registered : RegisteredMessage userCreatedApp () :=
  ⟨(), _, _, PythonJson.ofString "user.created", rfl, rfl, rfl, rfl⟩

theorem cancelled_handler_loses_message : ¬ ∀ ls u,
    Runs (step userCreatedApp) Consumer.initial ls u →
      Along (step userCreatedApp) (LosesNothing userCreatedApp) Consumer.initial ls u := by
  intro h
  have along := h (untilHandling ++ [.traffic (.handlerEnds 0 (.error .cancelledError))]) _
    (Runs.of_execute rfl)
  obtain ⟨w, before, enabled, lost⟩ := along.last
  cases before
  cases enabled
  exact (lost () userCreated_registered).2 rfl

theorem returned_handler_loses_nothing : ∃ u,
    Along (step userCreatedApp) (LosesNothing userCreatedApp) Consumer.initial
      (untilHandling ++ [.traffic (.handlerEnds 0 (.ok ()))]) u := by
  obtain ⟨u, run⟩ : ∃ u, Runs (step userCreatedApp) Consumer.initial
      (untilHandling ++ [.traffic (.handlerEnds 0 (.ok ()))]) u := ⟨_, Runs.of_execute rfl⟩
  refine ⟨_, (losesNothing_iff run).mpr (run.along_of_labels ?_)⟩
  rintro l hl s u tl rfl t task e rfl
  simp [untilHandling] at hl

end Examples

end FastapiProject.ConsumerMessageLoss
