import FastapiProject.WatchedConnections

set_option autoImplicit false

/-!
# Who removes a connection

The endpoint removes its connection when the client disconnects, each broadcast removes
those that it could not send to, and an endpoint that is left by any other exception
removes nothing.
-/
namespace FastapiProject.ConnectionRemoval
open PythonExceptions MachineRuns JobStore ActiveConnections WatchedConnections

variable {JobId Ws Payload Time : Type}

/-- Every `active_connections.remove` of the step finds its connection, so none raises. -/
def RemovesListed [DecidableEq Ws] (s : Watched JobId Ws Payload Time)
    (l : Label JobId Ws Payload Time) (_ : Watched JobId Ws Payload Time) : Prop :=
  (∀ id position dead, LoopHead s.store id l position dead →
    s.store.activeConnections[position]? = none →
      (removeEach s.store.activeConnections dead).2 = .ok ()) ∧
  ∀ ws, EndpointEnds l ws .webSocketDisconnect →
    ∃ rest, listRemove s.store.activeConnections ws = .ok rest

/-- Where a broadcast cleans up, no connection that it has noted has disconnected or been
removed by another broadcast; where a client disconnects, no broadcast has removed its
connection. -/
def RemovedByNobodyElse (s : Watched JobId Ws Payload Time) (l : Label JobId Ws Payload Time)
    (_ : Watched JobId Ws Payload Time) : Prop :=
  (∀ id position dead, LoopHead s.store id l position dead →
    s.store.activeConnections[position]? = none →
      ∀ ws ∈ dead, s.store.endpoints ws ≠ .ended (.ok ()) ∧ ws ∉ s.cleaned) ∧
  ∀ ws, EndpointEnds l ws .webSocketDisconnect → ws ∉ s.cleaned

/-- Each element of the list belongs to an endpoint that has not ended, and to one only. -/
def NoStale (_ : Watched JobId Ws Payload Time) (_ : Label JobId Ws Payload Time)
    (u : Watched JobId Ws Payload Time) : Prop :=
  (∀ ws ∈ u.store.activeConnections, ∀ outcome, u.store.endpoints ws ≠ .ended outcome) ∧
    u.store.activeConnections.Nodup

/-- An endpoint is left by `WebSocketDisconnect`, or after a broadcast has removed its
connection. -/
def EndsHandled (s : Watched JobId Ws Payload Time) (l : Label JobId Ws Payload Time)
    (_ : Watched JobId Ws Payload Time) : Prop :=
  ∀ ws e, EndpointEnds l ws e → e = .webSocketDisconnect ∨ ws ∈ s.cleaned

section Steps
variable [DecidableEq JobId] [DecidableEq Ws] {str : Str Payload}
  {s u : Watched JobId Ws Payload Time} {l : Label JobId Ws Payload Time} {ws : Ws} {e : Exn}

omit [DecidableEq JobId] [DecidableEq Ws] in
theorem endpointEnds_inj {ws' : Ws} {e' : Exn} (ends : EndpointEnds l ws e)
    (ends' : EndpointEnds l ws' e') : ws' = ws ∧ e' = e := by
  rcases ends with rfl | rfl <;> rcases ends' with same | same <;> cases same <;> exact ⟨rfl, rfl⟩

theorem endpointEnds_cases {v : State JobId Ws Payload Time} (hs : ConnectionStep s.store l v)
    (ends : EndpointEnds l ws e) : Endpoint.Open (s.store.endpoints ws) ∧
      (e = .webSocketDisconnect ∧ v.endpoints ws = .ended (.ok ()) ∨
        (e = .webSocketDisconnect → ws ∉ s.store.activeConnections) ∧
        v.activeConnections = s.store.activeConnections ∧
        ∃ e', v.endpoints ws = .ended (.error e')) := by
  have other {id : JobId} (own : l.job? = some id) : False := by
    cases own.symm.trans ends.job?
  cases hs with
  | submits _ => rcases ends with ends | ends <;> cases ends
  | works own _ _ _ _ _ _ => exact (other own).elim
  | sends head _ _ _ => exact (other head.job?).elim
  | cleans head _ _ _ => exact (other head.job?).elim
  | abandons _ _ _ _ => exact (other rfl).elim
  | connects _ => rcases ends with ends | ends <;> cases ends
  | refused _ => rcases ends with ends | ends <;> cases ends
  | joins _ => rcases ends with ends | ends <;> cases ends
  | echoes goes _ _ => rcases goes with rfl | rfl <;> rcases ends with ends | ends <;> cases ends
  | leaves ends' isOpen _ =>
    obtain ⟨rfl, rfl⟩ := endpointEnds_inj ends ends'
    exact ⟨isOpen, .inl ⟨rfl, Function.update_self _ _ _⟩⟩
  | breaks ends' isOpen unlisted =>
    obtain ⟨rfl, rfl⟩ := endpointEnds_inj ends ends'
    exact ⟨isOpen, .inr ⟨unlisted, rfl, _, Function.update_self _ _ _⟩⟩

omit [DecidableEq JobId] in
theorem listed_iff (h : Inv s) (joined : Joined s.store s.cleaned ws) :
    ws ∈ s.store.activeConnections ↔
      s.store.endpoints ws ≠ .ended (.ok ()) ∧ ws ∉ s.cleaned := by
  have fits := h.members.fits ws
  constructor
  · intro listed
    refine ⟨fun ended => ?_, fun removed => h.members.removed ws removed listed⟩
    rw [ended] at fits
    exact fits listed
  · rintro ⟨going, kept⟩
    rcases joined with listed | ended | removed
    · exact listed
    · exact absurd ended going
    · exact absurd removed kept

theorem listRemove_ok_iff (xs : List Ws) (x : Ws) : (∃ rest, listRemove xs x = .ok rest) ↔ x ∈ xs := by
  rw [listRemove]
  split
  · rename_i listed
    exact ⟨fun _ => listed, fun _ => ⟨_, rfl⟩⟩
  · rename_i unlisted
    exact ⟨by rintro ⟨_, ⟨⟩⟩, fun listed => absurd listed unlisted⟩

theorem removes_iff_step (h : Inv s) (hs : Watched.step str s l = some u) :
    RemovesListed s l u ↔ RemovedByNobodyElse s l u := by
  obtain ⟨v, moved, rfl⟩ := step_store hs
  have cleanup {id : JobId} {position : ℕ} {dead : List Ws}
      (head : LoopHead s.store id l position dead) :
      (removeEach s.store.activeConnections dead).2 = .ok () ↔
        ∀ ws ∈ dead, s.store.endpoints ws ≠ .ended (.ok ()) ∧ ws ∉ s.cleaned := by
    obtain ⟨-, nodup, noted, -⟩ := head_visits h.visits head
    have listed (ws : Ws) (mem : ws ∈ dead) := listed_iff h (h.visits.joined id ws (noted ws mem))
    rw [removeEach_ok_iff]
    constructor
    · exact fun sub ws mem => (listed ws mem).mp (sub.subset mem)
    · exact fun kept => List.subperm_of_subset nodup fun ws mem => (listed ws mem).mpr (kept ws mem)
  have disconnect {ws : Ws} (ends : EndpointEnds l ws .webSocketDisconnect) :
      (∃ rest, listRemove s.store.activeConnections ws = .ok rest) ↔ ws ∉ s.cleaned := by
    have isOpen := (endpointEnds_cases moved ends).1
    have fits := h.members.fits ws
    rw [fits_open isOpen] at fits
    rw [listRemove_ok_iff]
    exact ⟨fun listed removed => h.members.removed ws removed listed, fits.resolve_right⟩
  constructor
  · rintro ⟨cleans, leaves⟩
    exact ⟨fun id position dead head through => (cleanup head).mp (cleans id position dead head through),
      fun ws ends => (disconnect ends).mp (leaves ws ends)⟩
  · rintro ⟨cleans, leaves⟩
    exact ⟨fun id position dead head through => (cleanup head).mpr (cleans id position dead head through),
      fun ws ends => (disconnect ends).mpr (leaves ws ends)⟩

/-- In every run every removal finds its connection exactly when nobody else has removed
it before. -/
theorem removesListed_iff (ls : List (Label JobId Ws Payload Time))
    (u : Watched JobId Ws Payload Time) (run : Runs (Watched.step str) Watched.initial ls u) :
    Along (Watched.step str) RemovesListed Watched.initial ls u ↔
      Along (Watched.step str) RemovedByNobodyElse Watched.initial ls u :=
  run.along_iff Inv inv_initial (fun _ _ _ h hs _ => inv_step h hs)
    (fun _ _ _ h hs => removes_iff_step h hs)

theorem failed_cases {v : State JobId Ws Payload Time} (hs : ConnectionStep s.store l v)
    {e' : Exn} (failed : v.endpoints ws = .ended (.error e')) :
    s.store.endpoints ws = .ended (.error e') ∨ v.activeConnections = s.store.activeConnections ∧
      (s.store.endpoints ws = .accepting ∨ ∃ e, EndpointEnds l ws e) := by
  have same (endpoints : v.endpoints = s.store.endpoints) :
      s.store.endpoints ws = .ended (.error e') := by
    rw [← endpoints]
    exact failed
  cases hs with
  | submits _ => exact .inl failed
  | works _ _ _ _ _ moves _ => exact .inl (same moves.endpoints)
  | sends _ _ moves _ => exact .inl (same moves.endpoints)
  | cleans _ _ moves _ => exact .inl (same moves.endpoints)
  | abandons _ _ moves _ => exact .inl (same moves.endpoints)
  | connects _ =>
    rcases moveEndpoint_cases failed with ⟨-, ⟨⟩⟩ | old
    exact .inl old
  | refused accepting =>
    rcases moveEndpoint_cases failed with ⟨rfl, -⟩ | old
    · exact .inr ⟨rfl, .inl accepting⟩
    · exact .inl old
  | joins _ =>
    rcases moveEndpoint_cases failed with ⟨-, ⟨⟩⟩ | old
    exact .inl old
  | echoes _ _ after =>
    rcases moveEndpoint_cases failed with ⟨-, ended⟩ | old
    · rw [ended] at after
      rcases after with ⟨⟨⟩⟩ | ⟨⟨⟩⟩
    · exact .inl old
  | leaves _ _ _ =>
    rcases moveEndpoint_cases failed with ⟨-, ⟨⟩⟩ | old
    exact .inl old
  | breaks ends _ _ =>
    rcases moveEndpoint_cases failed with ⟨rfl, -⟩ | old
    · exact .inr ⟨rfl, .inr ⟨_, ends⟩⟩
    · exact .inl old

theorem noStale_iff_step (h : Inv s) (fresh : NoStale s l s) (hs : Watched.step str s l = some u) :
    NoStale s l u ↔ EndsHandled s l u := by
  have next := inv_step h hs
  obtain ⟨v, moved, rfl⟩ := step_store hs
  constructor
  · rintro ⟨live, -⟩ ws e ends
    obtain ⟨isOpen, step⟩ := endpointEnds_cases moved ends
    rcases step with ⟨disconnect, -⟩ | ⟨-, connections, e', ended⟩
    · exact .inl disconnect
    · have fits := h.members.fits ws
      rw [fits_open isOpen, ← connections] at fits
      exact .inr (fits.resolve_left fun listed => live ws listed _ ended)
  · intro handled
    refine ⟨fun ws listed outcome ended => ?_, next.members.nodup⟩
    have fits := h.members.fits ws
    have fits' := next.members.fits ws
    change Fits v.activeConnections _ ws (v.endpoints ws) at fits'
    change ws ∈ v.activeConnections at listed
    change v.endpoints ws = _ at ended
    rw [ended] at fits'
    match outcome with
    | .ok () => exact fits' listed
    | .error e' =>
      rcases failed_cases moved ended with old | ⟨connections, accepting | ⟨e, ends⟩⟩
      · rcases forward_step h.members moved listed with accepting | ⟨before, -⟩
        · cases accepting.symm.trans old
        · exact fresh.1 ws before _ old
      · rw [accepting] at fits
        rw [connections] at listed
        exact fits.1 listed
      · rw [connections] at listed
        rcases handled ws e ends with disconnect | removed
        · rcases (endpointEnds_cases moved ends).2 with ⟨-, left⟩ | ⟨unlisted, -⟩
          · cases ended.symm.trans left
          · exact unlisted disconnect listed
        · exact h.members.removed ws removed listed

/-- In every run no stale connection is ever in the list exactly when each endpoint is
left by `WebSocketDisconnect` or after a broadcast has removed its connection. -/
theorem noStale_iff (ls : List (Label JobId Ws Payload Time)) (u : Watched JobId Ws Payload Time)
    (run : Runs (Watched.step str) Watched.initial ls u) :
    Along (Watched.step str) NoStale Watched.initial ls u ↔
      Along (Watched.step str) EndsHandled Watched.initial ls u := by
  apply run.along_iff (fun s => Inv s ∧ ∀ l, NoStale s l s)
  · exact ⟨inv_initial, fun _ => ⟨by rintro _ ⟨⟩, List.nodup_nil⟩⟩
  · intro s l u h hs handled
    have fresh := (noStale_iff_step h.1 (h.2 l) hs).mpr handled
    exact ⟨inv_step h.1 hs, fun _ => fresh⟩
  · exact fun s l u h hs => noStale_iff_step h.1 (h.2 l) hs

end Steps

section Examples

def unitStr : Str Unit := ⟨fun _ => "payload", fun _ => ""⟩

def untilSending : List (Label ℕ ℕ Unit ℕ) :=
  [.connect 0, .acceptEnds 0 (.ok ()), .submit 5 () false, .dispatch 5 10,
    .gatherEnds 5 (.ok ()) 11]

/-- The client disconnects while the broadcast awaits the send to it. -/
theorem disconnect_removed_twice : ¬ ∀ (ls : List (Label ℕ ℕ Unit ℕ)) (u : Watched ℕ ℕ Unit ℕ),
    Runs (Watched.step unitStr) Watched.initial ls u →
      Along (Watched.step unitStr) RemovesListed Watched.initial ls u := by
  intro h
  have along := h (untilSending ++ [.receiveEnds 0 (.error .webSocketDisconnect)] ++
    [.sendEnds 5 (.error .runtimeError) 12]) _ (Runs.of_execute rfl)
  obtain ⟨w, before, enabled, cleans, -⟩ := along.last
  cases before
  have noted : ∀ e, (.error .runtimeError : Except Exn Unit) = .error e → e.isException = true := by
    rintro _ ⟨⟩
    rfl
  cases cleans 5 1 (notedDead (.error .runtimeError) 0 []) (.continues rfl noted) rfl

theorem binary_frame_stays : ¬ ∀ (ls : List (Label ℕ ℕ Unit ℕ)) (u : Watched ℕ ℕ Unit ℕ),
    Runs (Watched.step unitStr) Watched.initial ls u →
      Along (Watched.step unitStr) NoStale Watched.initial ls u := by
  intro h
  have along := h ([.connect 0, .acceptEnds 0 (.ok ())] ++
    [.receiveEnds 0 (.error (.other "KeyError"))]) _ (Runs.of_execute rfl)
  obtain ⟨w, before, enabled, live, -⟩ := along.last
  cases before
  cases enabled
  exact live 0 List.mem_cons_self _ rfl

theorem failed_client_removed : ∃ u : Watched ℕ ℕ Unit ℕ,
    Along (Watched.step unitStr) RemovesListed Watched.initial
      (untilSending ++ [.sendEnds 5 (.error .runtimeError) 12]) u ∧
      u.store.activeConnections = [] ∧ u.cleaned = [0] := by
  have alone : ∃ u : Watched ℕ ℕ Unit ℕ,
      Along (Watched.step unitStr) RemovedByNobodyElse Watched.initial
        (untilSending ++ [.sendEnds 5 (.error .runtimeError) 12]) u ∧
        u.store.activeConnections = [] ∧ u.cleaned = [0] := by
    have outside (l : Label ℕ ℕ Unit ℕ) (s u : Watched ℕ ℕ Unit ℕ)
        (noHead : ∀ id position dead, ¬ LoopHead s.store id l position dead)
        (noEnd : ∀ ws, ¬ EndpointEnds l ws .webSocketDisconnect) : RemovedByNobodyElse s l u :=
      ⟨fun id position dead head => absurd head (noHead id position dead),
        fun ws ends => absurd ends (noEnd ws)⟩
    refine ⟨_, .cons rfl (outside _ _ _ ?_ ?_) (.cons rfl (outside _ _ _ ?_ ?_)
      (.cons rfl (outside _ _ _ ?_ ?_) (.cons rfl (outside _ _ _ ?_ ?_)
        (.cons rfl ⟨?_, ?_⟩ (.single rfl ⟨?_, ?_⟩))))), rfl, rfl⟩
    · rintro _ _ _ ⟨⟩
    · rintro _ (ends | ends) <;> cases ends
    · rintro _ _ _ ⟨⟩
    · rintro _ (ends | ends) <;> cases ends
    · rintro _ _ _ ⟨⟩
    · rintro _ (ends | ends) <;> cases ends
    · rintro _ _ _ ⟨⟩
    · rintro _ (ends | ends) <;> cases ends
    · rintro _ _ _ (_ | _) - _ ⟨⟩
    · rintro _ (ends | ends) <;> cases ends
    · rintro _ _ _ head - ws mem
      cases head with
      | continues sending _ =>
        cases sending
        cases List.mem_singleton.mp mem
        exact ⟨by rintro ⟨⟩, List.not_mem_nil⟩
    · rintro _ (ends | ends) <;> cases ends
  obtain ⟨u, alone, empty, cleaned⟩ := alone
  exact ⟨u, (removesListed_iff _ u alone.runs).mpr alone, empty, cleaned⟩

theorem disconnected_client_gone : ∃ u : Watched ℕ ℕ Unit ℕ,
    Along (Watched.step unitStr) NoStale Watched.initial
      [.connect 0, .acceptEnds 0 (.ok ()), .receiveEnds 0 (.error .webSocketDisconnect)] u ∧
      u.store.activeConnections = [] := by
  have handled : ∃ u : Watched ℕ ℕ Unit ℕ,
      Along (Watched.step unitStr) EndsHandled Watched.initial
        [.connect 0, .acceptEnds 0 (.ok ()), .receiveEnds 0 (.error .webSocketDisconnect)] u ∧
        u.store.activeConnections = [] := by
    refine ⟨_, .cons rfl ?_ (.cons rfl ?_ (.single rfl ?_)), rfl⟩
    · rintro _ _ (ends | ends) <;> cases ends
    · rintro _ _ (ends | ends) <;> cases ends
    · rintro _ _ (ends | ends) <;> cases ends
      exact .inl rfl
  obtain ⟨u, handled, empty⟩ := handled
  exact ⟨u, (noStale_iff _ u handled.runs).mpr handled, empty⟩

end Examples

end FastapiProject.ConnectionRemoval
