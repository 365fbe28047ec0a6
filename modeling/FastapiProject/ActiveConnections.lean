import FastapiProject.JobStore

set_option autoImplicit false

/-!
# What happens to the active connections

Broadcasts and endpoints change one list. Here are the ways in which a step can change
it, one constructor for each, and the store with a record of the sends that broadcasts
have made and of the connections that their clean-ups have removed.
-/
namespace FastapiProject.ActiveConnections
open PythonExceptions MachineRuns JobStore

variable {JobId Ws Payload Time : Type}

/-- The call of `broadcast_ws` that a job makes is at the head of its loop, with what it
has noted so far. -/
inductive LoopHead (s : State JobId Ws Payload Time) (id : JobId) :
    Label JobId Ws Payload Time → ℕ → List Ws → Prop where
  | starts {payload : Payload} {now : Time} (gathering : s.runners id = some (.gathering payload)) :
    LoopHead s id (.gatherEnds id (.ok ()) now) 0 []
  | continues {position : ℕ} {ws : Ws} {dead : List Ws} {outcome : Except Exn Unit} {now : Time}
      (sending : s.runners id = some (.broadcasting position ws dead))
      (noted : ∀ e, outcome = .error e → e.isException = true) :
    LoopHead s id (.sendEnds id outcome now) position (notedDead outcome ws dead)

def Broadcasting (r : Runner Ws Payload) : Prop :=
  ∃ position ws dead, r = .broadcasting position ws dead

def Preparing (r : Runner Ws Payload) : Prop := ¬ Broadcasting r ∧ ∀ succeeded, r ≠ .ended succeeded

def Endpoint.Open (e : Endpoint) : Prop := e = .receiving ∨ e = .echoing

def EndpointEnds (l : Label JobId Ws Payload Time) (ws : Ws) (e : Exn) : Prop :=
  l = .receiveEnds ws (.error e) ∨ l = .echoEnds ws (.error e)

structure JobMoves [DecidableEq JobId] (s : State JobId Ws Payload Time) (id : JobId)
    (r : Runner Ws Payload) (u : State JobId Ws Payload Time) : Prop where
  runners : u.runners = Function.update s.runners id (some r)
  endpoints : u.endpoints = s.endpoints
  jobs : ∀ k, u.jobs k = none ↔ s.jobs k = none

inductive ConnectionStep [DecidableEq JobId] [DecidableEq Ws] (s : State JobId Ws Payload Time) :
    Label JobId Ws Payload Time → State JobId Ws Payload Time → Prop where
  | submits {id : JobId} {payload : Payload} {sync : Bool} (fresh : s.jobs id = none) :
    ConnectionStep s (.submit id payload sync) (submitJob s id payload sync)
  | works {l : Label JobId Ws Payload Time} {u : State JobId Ws Payload Time} {id : JobId}
      {r r' : Runner Ws Payload} (own : l.job? = some id) (at_id : s.runners id = some r)
      (outside : ∀ position dead, ¬ LoopHead s id l position dead) (before : Preparing r)
      (after : ¬ Broadcasting r') (moves : JobMoves s id r' u)
      (connections : u.activeConnections = s.activeConnections) : ConnectionStep s l u
  | sends {l : Label JobId Ws Payload Time} {u : State JobId Ws Payload Time} {id : JobId}
      {position : ℕ} {ws : Ws} {dead : List Ws} (head : LoopHead s id l position dead)
      (found : s.activeConnections[position]? = some ws)
      (moves : JobMoves s id (.broadcasting (position + 1) ws dead) u)
      (connections : u.activeConnections = s.activeConnections) : ConnectionStep s l u
  | cleans {l : Label JobId Ws Payload Time} {u : State JobId Ws Payload Time} {id : JobId}
      {position : ℕ} {dead : List Ws} (head : LoopHead s id l position dead)
      (through : s.activeConnections[position]? = none) (moves : JobMoves s id (.ended true) u)
      (connections : u.activeConnections = (removeEach s.activeConnections dead).1) :
    ConnectionStep s l u
  | abandons {u : State JobId Ws Payload Time} {id : JobId} {position : ℕ} {ws : Ws}
      {dead : List Ws} {e : Exn} {now : Time}
      (sending : s.runners id = some (.broadcasting position ws dead))
      (fatal : e.isException = false) (moves : JobMoves s id (.ended true) u)
      (connections : u.activeConnections = s.activeConnections) :
    ConnectionStep s (.sendEnds id (.error e) now) u
  | connects {ws : Ws} (absent : s.endpoints ws = .absent) :
    ConnectionStep s (.connect ws) (s.moveEndpoint ws .accepting)
  | refused {ws : Ws} {e : Exn} (accepting : s.endpoints ws = .accepting) :
    ConnectionStep s (.acceptEnds ws (.error e)) (s.moveEndpoint ws (.ended (.error e)))
  | joins {ws : Ws} (accepting : s.endpoints ws = .accepting) :
    ConnectionStep s (.acceptEnds ws (.ok ()))
      ({ s with activeConnections := s.activeConnections ++ [ws] }.moveEndpoint ws .receiving)
  | echoes {l : Label JobId Ws Payload Time} {ws : Ws} {e : Endpoint}
      (goes : l = .receiveEnds ws (.ok ()) ∨ l = .echoEnds ws (.ok ()))
      (before : Endpoint.Open (s.endpoints ws)) (after : Endpoint.Open e) :
    ConnectionStep s l (s.moveEndpoint ws e)
  | leaves {l : Label JobId Ws Payload Time} {ws : Ws}
      (ends : EndpointEnds l ws .webSocketDisconnect) (before : Endpoint.Open (s.endpoints ws))
      (listed : ws ∈ s.activeConnections) :
    ConnectionStep s l ({ s with
      activeConnections := s.activeConnections.erase ws }.moveEndpoint ws (.ended (.ok ())))
  | breaks {l : Label JobId Ws Payload Time} {ws : Ws} {e e' : Exn} (ends : EndpointEnds l ws e)
      (before : Endpoint.Open (s.endpoints ws))
      (unlisted : e = .webSocketDisconnect → ws ∉ s.activeConnections) :
    ConnectionStep s l (s.moveEndpoint ws (.ended (.error e')))

theorem LoopHead.job? {s : State JobId Ws Payload Time} {id : JobId}
    {l : Label JobId Ws Payload Time} {position : ℕ} {dead : List Ws}
    (head : LoopHead s id l position dead) : l.job? = some id := by
  cases head <;> rfl

theorem not_broadcasting_ended (succeeded : Bool) :
    ¬ Broadcasting (.ended succeeded : Runner Ws Payload) := by
  rintro ⟨_, _, _, ⟨⟩⟩

theorem preparing_queued (payload : Payload) (sync : Bool) :
    Preparing (.queued payload sync : Runner Ws Payload) :=
  ⟨by rintro ⟨_, _, _, ⟨⟩⟩, by rintro _ ⟨⟩⟩

theorem preparing_gathering (payload : Payload) :
    Preparing (.gathering payload : Runner Ws Payload) :=
  ⟨by rintro ⟨_, _, _, ⟨⟩⟩, by rintro _ ⟨⟩⟩

theorem preparing_starting (payload : Payload) :
    Preparing (.starting payload : Runner Ws Payload) :=
  ⟨by rintro ⟨_, _, _, ⟨⟩⟩, by rintro _ ⟨⟩⟩

theorem preparing_sleeping (payload : Payload) :
    Preparing (.sleeping payload : Runner Ws Payload) :=
  ⟨by rintro ⟨_, _, _, ⟨⟩⟩, by rintro _ ⟨⟩⟩

theorem EndpointEnds.job? {l : Label JobId Ws Payload Time} {ws : Ws} {e : Exn}
    (ends : EndpointEnds l ws e) : l.job? = none := by
  rcases ends with rfl | rfl <;> rfl

section Inversion
variable [DecidableEq JobId] {s v u : State JobId Ws Payload Time} {id : JobId}

structure Recorded (s v : State JobId Ws Payload Time) : Prop where
  runners : v.runners = s.runners
  endpoints : v.endpoints = s.endpoints
  jobs : ∀ k, v.jobs k = none ↔ s.jobs k = none

omit [DecidableEq JobId] in
theorem recorded_refl (s : State JobId Ws Payload Time) : Recorded s s :=
  ⟨rfl, rfl, fun _ => Iff.rfl⟩

theorem recorded_updateJob (s : State JobId Ws Payload Time) (id : JobId)
    (f : JobRecord JobId Time → JobRecord JobId Time) : Recorded s (s.updateJob id f) := by
  refine ⟨rfl, rfl, fun k => ?_⟩
  by_cases same : k = id
  · subst same
    rw [updateJob_jobs, Option.map_eq_none_iff]
  · change Function.update s.jobs id _ k = none ↔ _
    rw [Function.update_of_ne same]

theorem Recorded.moveRunner (h : Recorded s v) (id : JobId) (r : Runner Ws Payload) :
    JobMoves s id r (v.moveRunner id r) := by
  refine ⟨?_, h.endpoints, h.jobs⟩
  change Function.update v.runners id (some r) = _
  rw [h.runners]

theorem Recorded.jobRaised (h : Recorded s v) (str : Str Payload) (id : JobId)
    (succeeded : Bool) (e : Exn) (now : Time) :
    JobMoves s id (.ended succeeded) (v.jobRaised str id succeeded e now) := by
  unfold State.jobRaised
  split
  · apply Recorded.moveRunner
    have written := recorded_updateJob v id fun r =>
      { r with status := .failed, result := some (.text (str.exn e)), finishedAt := some now }
    exact ⟨h.runners, h.endpoints, fun k => (written.jobs k).trans (h.jobs k)⟩
  · exact h.moveRunner _ _

theorem jobRaised_connections (str : Str Payload) (s : State JobId Ws Payload Time) (id : JobId)
    (succeeded : Bool) (e : Exn) (now : Time) :
    (s.jobRaised str id succeeded e now).activeConnections = s.activeConnections := by
  unfold State.jobRaised
  split <;> rfl

variable [DecidableEq Ws] {str : Str Payload} {l : Label JobId Ws Payload Time}

theorem broadcastWs_step (h : Recorded s v) (connections : v.activeConnections = s.activeConnections)
    {position : ℕ} {dead : List Ws} (head : LoopHead s id l position dead) (now : Time) :
    ConnectionStep s l (v.broadcastWs str id position dead now) := by
  unfold State.broadcastWs
  rw [connections]
  split
  · rename_i ws found
    exact .sends head found (h.moveRunner _ _) connections
  · rename_i through
    split
    · rename_i rest removed
      have kept : Recorded s { v with activeConnections := rest } :=
        ⟨h.runners, h.endpoints, h.jobs⟩
      exact .cleans head through (kept.moveRunner id _) (congrArg Prod.fst removed).symm
    · rename_i rest e removed
      have kept : Recorded s { v with activeConnections := rest } :=
        ⟨h.runners, h.endpoints, h.jobs⟩
      apply ConnectionStep.cleans head through (kept.jobRaised str id true e now)
      exact (jobRaised_connections _ _ _ _ _ _).trans (congrArg Prod.fst removed).symm

theorem stepJob_step {r : Runner Ws Payload} (own : l.job? = some id)
    (at_id : s.runners id = some r) (hs : stepJob str s id r l = some u) :
    ConnectionStep s l u := by
  cases stepJob_move hs with
  | begins k payload now =>
    cases own
    exact .works rfl at_id (by rintro _ _ ⟨⟩) (preparing_queued payload false)
      (preparing_gathering payload).1 ((recorded_updateJob _ _ _).moveRunner _ _) rfl
  | admitted k payload now =>
    cases own
    exact .works rfl at_id (by rintro _ _ ⟨⟩) (preparing_queued payload true)
      (preparing_starting payload).1 ((recorded_updateJob _ _ _).moveRunner _ _) rfl
  | stamped k payload now =>
    cases own
    exact .works rfl at_id (by rintro _ _ ⟨⟩) (preparing_starting payload)
      (preparing_sleeping payload).1 ((recorded_updateJob _ _ _).moveRunner _ _) rfl
  | gathered k payload now =>
    cases own
    exact broadcastWs_step (recorded_updateJob _ _ _) rfl (.starts at_id) now
  | gatherRaised k payload e now =>
    cases own
    exact .works rfl at_id (by rintro _ _ ⟨⟩) (preparing_gathering payload)
      (not_broadcasting_ended false) ((recorded_refl s).jobRaised str id false e now)
      (jobRaised_connections _ _ _ _ _ _)
  | sent k position ws dead outcome now caught =>
    cases own
    exact broadcastWs_step (recorded_refl s) rfl (.continues at_id caught) now
  | sendRaised k position ws dead e now fatal =>
    cases own
    exact .abandons at_id (Bool.not_eq_true _ ▸ fatal)
      ((recorded_refl s).jobRaised str id true e now) (jobRaised_connections _ _ _ _ _ _)
  | slept k payload now =>
    cases own
    exact .works rfl at_id (by rintro _ _ ⟨⟩) (preparing_sleeping payload)
      (not_broadcasting_ended true) ((recorded_updateJob _ _ _).moveRunner _ _) rfl
  | sleepRaised k payload e now =>
    cases own
    exact .works rfl at_id (by rintro _ _ ⟨⟩) (preparing_sleeping payload)
      (not_broadcasting_ended false) ((recorded_refl s).jobRaised str id false e now)
      (jobRaised_connections _ _ _ _ _ _)

theorem endpointRaised_step {ws : Ws} {e : Exn} (ends : EndpointEnds l ws e)
    (before : Endpoint.Open (s.endpoints ws)) : ConnectionStep s l (s.endpointRaised ws e) := by
  unfold State.endpointRaised
  split
  · rename_i disconnect
    subst disconnect
    by_cases listed : ws ∈ s.activeConnections
    · rw [listRemove, if_pos listed]
      exact .leaves ends before listed
    · rw [listRemove, if_neg listed]
      exact .breaks ends before (fun _ => listed)
  · rename_i other
    exact .breaks ends before (fun disconnect => absurd disconnect other)

theorem stepEndpoint_step {ws : Ws} (own : l = .connect ws ∨ (∃ outcome, l = .acceptEnds ws outcome) ∨
      (∃ outcome, l = .receiveEnds ws outcome) ∨ ∃ outcome, l = .echoEnds ws outcome)
    (hs : stepEndpoint s ws l = some u) : ConnectionStep s l u := by
  rcases own with rfl | ⟨outcome, rfl⟩ | ⟨outcome, rfl⟩ | ⟨outcome, rfl⟩
  · simp only [stepEndpoint] at hs
    split at hs
    · rename_i absent
      cases hs
      exact .connects absent
    · cases hs
  · simp only [stepEndpoint] at hs
    split at hs
    · rename_i accepting
      cases outcome <;> cases hs
      · exact .refused accepting
      · exact .joins accepting
    · cases hs
  · simp only [stepEndpoint] at hs
    split at hs
    · rename_i receiving
      cases outcome <;> cases hs
      · exact endpointRaised_step (.inl rfl) (.inl receiving)
      · exact .echoes (.inl rfl) (.inl receiving) (.inr rfl)
    · cases hs
  · simp only [stepEndpoint] at hs
    split at hs
    · rename_i echoing
      cases outcome <;> cases hs
      · exact endpointRaised_step (.inr rfl) (.inr echoing)
      · exact .echoes (.inr rfl) (.inr echoing) (.inl rfl)
    · cases hs

theorem step_connectionStep (hs : step str s l = some u) : ConnectionStep s l u := by
  cases l with
  | submit id payload sync =>
    simp only [step] at hs
    split at hs
    · rename_i fresh
      cases hs
      exact .submits (Option.isNone_iff_eq_none.mp fresh)
    · cases hs
  | dispatch id _ | startedAt id _ | gatherEnds id _ _ | sendEnds id _ _ | sleepEnds id _ _ =>
    obtain ⟨r, at_id, hu⟩ := Option.bind_eq_some_iff.mp hs
    exact stepJob_step rfl at_id hu
  | connect ws => exact stepEndpoint_step (.inl rfl) hs
  | acceptEnds ws outcome => exact stepEndpoint_step (.inr (.inl ⟨outcome, rfl⟩)) hs
  | receiveEnds ws outcome => exact stepEndpoint_step (.inr (.inr (.inl ⟨outcome, rfl⟩))) hs
  | echoEnds ws outcome => exact stepEndpoint_step (.inr (.inr (.inr ⟨outcome, rfl⟩))) hs

end Inversion

inductive Turn : Endpoint → Label JobId Ws Payload Time → Endpoint → Prop where
  | connects (ws : Ws) : Turn .absent (.connect ws) .accepting
  | accepted (ws : Ws) : Turn .accepting (.acceptEnds ws (.ok ())) .receiving
  | refused (ws : Ws) (e : Exn) : Turn .accepting (.acceptEnds ws (.error e)) (.ended (.error e))
  | received (ws : Ws) : Turn .receiving (.receiveEnds ws (.ok ())) .echoing
  | echoed (ws : Ws) : Turn .echoing (.echoEnds ws (.ok ())) .receiving
  | receiveRaised (ws : Ws) (e : Exn) (outcome : Except Exn Unit) :
    Turn .receiving (.receiveEnds ws (.error e)) (.ended outcome)
  | echoRaised (ws : Ws) (e : Exn) (outcome : Except Exn Unit) :
    Turn .echoing (.echoEnds ws (.error e)) (.ended outcome)

def endpointOf : Label JobId Ws Payload Time → Option Ws
  | .connect ws | .acceptEnds ws _ | .receiveEnds ws _ | .echoEnds ws _ => some ws
  | .submit _ _ _ | .dispatch _ _ | .startedAt _ _ | .gatherEnds _ _ _ | .sendEnds _ _ _
  | .sleepEnds _ _ _ => none

section Turns
variable [DecidableEq JobId] [DecidableEq Ws] {str : Str Payload}
  {s u : State JobId Ws Payload Time} {l : Label JobId Ws Payload Time}

omit [DecidableEq JobId] in
theorem endpointRaised_endpoints (s : State JobId Ws Payload Time) (ws : Ws) (e : Exn) :
    ∃ outcome, (s.endpointRaised ws e).endpoints = Function.update s.endpoints ws (.ended outcome) := by
  unfold State.endpointRaised
  split
  · split <;> exact ⟨_, rfl⟩
  · exact ⟨_, rfl⟩

omit [DecidableEq JobId] in
theorem stepEndpoint_turn {ws : Ws} (own : endpointOf l = some ws)
    (hs : stepEndpoint s ws l = some u) :
    ∃ e, Turn (s.endpoints ws) l e ∧ u.endpoints = Function.update s.endpoints ws e := by
  cases l with
  | connect x =>
    simp only [stepEndpoint] at hs
    split at hs <;> cases hs
    rename_i absent
    rw [absent]
    exact ⟨_, .connects x, rfl⟩
  | acceptEnds x outcome =>
    simp only [stepEndpoint] at hs
    split at hs
    · rename_i accepting
      rw [accepting]
      cases outcome <;> cases hs
      · exact ⟨_, .refused x _, rfl⟩
      · exact ⟨_, .accepted x, rfl⟩
    · cases hs
  | receiveEnds x outcome =>
    simp only [stepEndpoint] at hs
    split at hs
    · rename_i receiving
      rw [receiving]
      cases outcome with
      | ok _ =>
        cases hs
        exact ⟨_, .received x, rfl⟩
      | error e =>
        cases hs
        obtain ⟨outcome, endpoints⟩ := endpointRaised_endpoints s ws e
        exact ⟨_, .receiveRaised x e outcome, endpoints⟩
    · cases hs
  | echoEnds x outcome =>
    simp only [stepEndpoint] at hs
    split at hs
    · rename_i echoing
      rw [echoing]
      cases outcome with
      | ok _ =>
        cases hs
        exact ⟨_, .echoed x, rfl⟩
      | error e =>
        cases hs
        obtain ⟨outcome, endpoints⟩ := endpointRaised_endpoints s ws e
        exact ⟨_, .echoRaised x e outcome, endpoints⟩
    · cases hs
  | _ => cases own

theorem stepJob_endpoints {id : JobId} {r : Runner Ws Payload} (own : l.job? = some id)
    (at_id : s.runners id = some r) (hs : stepJob str s id r l = some u) :
    u.endpoints = s.endpoints := by
  cases stepJob_step own at_id hs with
  | works _ _ _ _ _ moves _ => exact moves.endpoints
  | sends _ _ moves _ | cleans _ _ moves _ | abandons _ _ moves _ => exact moves.endpoints
  | submits _ | connects _ | refused _ | joins _ => cases own
  | echoes goes _ _ => (rcases goes with rfl | rfl <;> cases own)
  | leaves ends _ _ | breaks ends _ _ => cases ends.job?.symm.trans own

theorem step_turn (hs : step str s l = some u) : endpointOf l = none ∧ u.endpoints = s.endpoints ∨
    ∃ ws e, endpointOf l = some ws ∧ Turn (s.endpoints ws) l e ∧
      u.endpoints = Function.update s.endpoints ws e := by
  cases l with
  | submit id payload sync =>
    simp only [step] at hs
    split at hs <;> cases hs
    exact .inl ⟨rfl, rfl⟩
  | dispatch id _ | startedAt id _ | gatherEnds id _ _ | sendEnds id _ _ | sleepEnds id _ _ =>
    obtain ⟨r, at_id, hs⟩ := Option.bind_eq_some_iff.mp hs
    exact .inl ⟨rfl, stepJob_endpoints rfl at_id hs⟩
  | connect ws | acceptEnds ws _ | receiveEnds ws _ | echoEnds ws _ =>
    rw [step] at hs
    obtain ⟨e, turn, endpoints⟩ := stepEndpoint_turn rfl hs
    exact .inr ⟨ws, e, rfl, turn, endpoints⟩

end Turns

end FastapiProject.ActiveConnections
