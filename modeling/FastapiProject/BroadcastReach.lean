import FastapiProject.WatchedConnections

set_option autoImplicit false

/-!
# Whom a broadcast reaches

The loop of `broadcast_ws` goes by position. A connection that stays in the list is ahead
of it, has been sent to, or has been passed over, and the last is for good.
-/
namespace FastapiProject.BroadcastReach
open PythonExceptions MachineRuns JobStore IndexedLists ActiveConnections WatchedConnections

variable {JobId Ws Payload Time : Type} [DecidableEq Ws]

def Stays (ws : Ws) (_ : Watched JobId Ws Payload Time) (_ : Label JobId Ws Payload Time)
    (u : Watched JobId Ws Payload Time) : Prop := ws ∈ u.store.activeConnections

/-- While a connection is still ahead of the loop of a job, no removal by another party
brings it behind the position of the loop, and the loop is not left by an exception that
its clause lets pass. -/
def KeepsAhead (id : JobId) (ws : Ws) (s : Watched JobId Ws Payload Time)
    (l : Label JobId Ws Payload Time) (u : Watched JobId Ws Payload Time) : Prop :=
  ∀ position x dead, s.store.runners id = some (.broadcasting position x dead) →
    position ≤ s.store.activeConnections.idxOf ws →
      (l.job? ≠ some id → position ≤ u.store.activeConnections.idxOf ws) ∧
        ∀ e now, l = .sendEnds id (.error e) now → e.isException = true

structure Ahead (id : JobId) (ws : Ws) (s : Watched JobId Ws Payload Time) : Prop where
  unsent : (id, ws) ∉ s.sent
  coming : ∃ position x dead, s.store.runners id = some (.broadcasting position x dead) ∧
    position ≤ s.store.activeConnections.idxOf ws

structure Missed (id : JobId) (ws : Ws) (s : Watched JobId Ws Payload Time) : Prop where
  unsent : (id, ws) ∉ s.sent
  passed : Passed s.store.activeConnections ws (s.store.runners id)

inductive LoopStep [DecidableEq JobId] (s : State JobId Ws Payload Time) (id : JobId) (position : ℕ)
    (ws : Ws) (dead : List Ws) : Label JobId Ws Payload Time → State JobId Ws Payload Time → Prop where
  | sends {u : State JobId Ws Payload Time} {x : Ws} {outcome : Except Exn Unit} {now : Time}
      (noted : ∀ e, outcome = .error e → e.isException = true)
      (found : s.activeConnections[position]? = some x)
      (moves : JobMoves s id (.broadcasting (position + 1) x (notedDead outcome ws dead)) u)
      (connections : u.activeConnections = s.activeConnections) :
    LoopStep s id position ws dead (.sendEnds id outcome now) u
  | cleans {u : State JobId Ws Payload Time} {outcome : Except Exn Unit} {now : Time}
      (through : s.activeConnections[position]? = none) (moves : JobMoves s id (.ended true) u) :
    LoopStep s id position ws dead (.sendEnds id outcome now) u
  | abandons {u : State JobId Ws Payload Time} {e : Exn} {now : Time} (fatal : e.isException = false)
      (moves : JobMoves s id (.ended true) u) :
    LoopStep s id position ws dead (.sendEnds id (.error e) now) u

section Steps
variable [DecidableEq JobId] {str : Str Payload} {s u : Watched JobId Ws Payload Time}
  {l : Label JobId Ws Payload Time} {id : JobId} {ws : Ws}

theorem runners_other (h : Inv s) {v : State JobId Ws Payload Time}
    (hs : ConnectionStep s.store l v) (other : l.job? ≠ some id)
    (running : s.store.runners id ≠ none) : v.runners id = s.store.runners id := by
  have moved {k : JobId} {r : Runner Ws Payload} (own : l.job? = some k)
      (moves : JobMoves s.store k r v) : v.runners id = s.store.runners id := by
    have ne : id ≠ k := by
      rintro rfl
      exact other own
    rw [moves.runners, Function.update_of_ne ne]
  cases hs with
  | @submits k payload sync fresh =>
    have ne : id ≠ k := by
      rintro rfl
      exact running (h.visits.submitted id fresh)
    exact Function.update_of_ne ne _ _
  | works own _ _ _ _ moves _ => exact moved own moves
  | sends head _ moves _ => exact moved head.job? moves
  | cleans head _ moves _ => exact moved head.job? moves
  | abandons _ _ moves _ => exact moved rfl moves
  | _ => rfl

omit [DecidableEq Ws] [DecidableEq JobId] in
theorem sendsBy_own {v : State JobId Ws Payload Time} (mem : (id, ws) ∈ sendsBy l v) :
    l.job? = some id := by
  rw [sendsBy] at mem
  split at mem
  · split at mem
    · cases List.mem_singleton.mp mem
      assumption
    · cases mem
  · cases mem

theorem loopStep_of_begun {s v : State JobId Ws Payload Time} {r : Runner Ws Payload}
    (hs : ConnectionStep s l v) (own : l.job? = some id) (at_id : s.runners id = some r)
    (begun : ¬ Preparing r) :
    ∃ position x dead, r = .broadcasting position x dead ∧ LoopStep s id position x dead l v := by
  have gathered {payload : Payload} (gathering : s.runners id = some (.gathering payload)) : False := by
    cases at_id.symm.trans gathering
    exact begun (preparing_gathering payload)
  cases hs with
  | submits _ => cases own
  | works own' at_k _ before _ _ _ =>
    cases own.symm.trans own'
    cases at_id.symm.trans at_k
    exact absurd before begun
  | sends head found moves connections =>
    cases own.symm.trans head.job?
    cases head with
    | starts gathering => exact (gathered gathering).elim
    | continues sending noted =>
      cases at_id.symm.trans sending
      exact ⟨_, _, _, rfl, .sends noted found moves connections⟩
  | cleans head through moves _ =>
    cases own.symm.trans head.job?
    cases head with
    | starts gathering => exact (gathered gathering).elim
    | continues sending _ =>
      cases at_id.symm.trans sending
      exact ⟨_, _, _, rfl, .cleans through moves⟩
  | abandons sending fatal moves _ =>
    cases own
    cases at_id.symm.trans sending
    exact ⟨_, _, _, rfl, .abandons fatal moves⟩
  | connects _ => cases own
  | refused _ => cases own
  | joins _ => cases own
  | echoes goes _ _ => rcases goes with rfl | rfl <;> cases own
  | leaves ends _ _ => cases own.symm.trans ends.job?
  | breaks ends _ _ => cases own.symm.trans ends.job?

theorem ahead_sends (member : ws ∈ s.store.activeConnections) {position : ℕ} {x : Ws} {dead : List Ws}
    {v : State JobId Ws Payload Time} (own : l.job? = some id)
    (found : s.store.activeConnections[position]? = some x)
    (coming : position ≤ s.store.activeConnections.idxOf ws)
    (moves : JobMoves s.store id (.broadcasting (position + 1) x dead) v)
    (connections : v.activeConnections = s.store.activeConnections) (unsent : (id, ws) ∉ s.sent)
    (cleaned : List Ws) : (id, ws) ∈ s.sent ++ sendsBy l v ∨
      Ahead id ws ⟨v, s.sent ++ sendsBy l v, cleaned⟩ := by
  rw [sendsBy_sends own moves]
  by_cases same : x = ws
  · subst same
    exact .inl (List.mem_append_right _ List.mem_cons_self)
  · right
    have apart : position ≠ s.store.activeConnections.idxOf ws := by
      rintro rfl
      rw [List.getElem?_idxOf member] at found
      exact same (Option.some.inj found).symm
    refine ⟨?_, position + 1, x, dead, ?_, ?_⟩
    · intro mem
      rcases List.mem_append.mp mem with old | new
      · exact unsent old
      · cases List.mem_singleton.mp new
        exact same rfl
    · change v.runners id = _
      rw [moves.runners, Function.update_self]
    · change position + 1 ≤ v.activeConnections.idxOf ws
      rw [connections]
      omega

/-- A connection ahead of the loop is sent to or stays ahead, or the step has broken the
condition and it is missed. -/
theorem ahead_step (h : Inv s) (ahead : Ahead id ws s) (member : ws ∈ s.store.activeConnections)
    (hs : Watched.step str s l = some u) :
    ((id, ws) ∈ u.sent ∨ Ahead id ws u) ∧ KeepsAhead id ws s l u ∨
      Missed id ws u ∧ ¬ KeepsAhead id ws s l u := by
  obtain ⟨v, moved, rfl⟩ := step_store hs
  obtain ⟨position, x, dead, sending, coming⟩ := ahead.coming
  by_cases own : l.job? = some id
  · obtain ⟨position', x', dead', same, loop⟩ :=
      loopStep_of_begun moved own sending (fun preparing => preparing.1 ⟨position, x, dead, rfl⟩)
    cases same
    cases loop with
    | sends noted found moves connections =>
      left
      refine ⟨ahead_sends member rfl found coming moves connections ahead.unsent _, ?_⟩
      intro position' x' dead' sending' _
      refine ⟨fun other => absurd rfl other, ?_⟩
      rintro e now ⟨⟩
      exact noted e rfl
    | cleans through _ =>
      have inside := List.idxOf_lt_length_iff.mpr member
      have outside := List.getElem?_eq_none_iff.mp through
      omega
    | @abandons v e now fatal moves =>
      right
      constructor
      · constructor
        · rw [sendsBy_quiet rfl moves (not_broadcasting_ended true), List.append_nil]
          exact ahead.unsent
        · change Passed v.activeConnections ws (v.runners id)
          rw [moves.runners, Function.update_self]
          trivial
      · intro keeps
        have passes := (keeps _ _ _ sending coming).2 e now rfl
        rw [fatal] at passes
        cases passes
  · have same := runners_other h moved own (by rw [sending]; rintro ⟨⟩)
    have unsent : (id, ws) ∉ s.sent ++ sendsBy l v := by
      intro mem
      rcases List.mem_append.mp mem with old | new
      · exact ahead.unsent old
      · exact own (sendsBy_own new)
    by_cases still : position ≤ v.activeConnections.idxOf ws
    · left
      refine ⟨.inr ⟨unsent, position, x, dead, same.trans sending, still⟩, ?_⟩
      intro position' x' dead' sending' _
      rw [sending] at sending'
      cases sending'
      refine ⟨fun _ => still, ?_⟩
      rintro e now rfl
      exact absurd rfl own
    · right
      refine ⟨⟨unsent, ?_⟩, fun keeps => still ((keeps _ _ _ sending coming).1 own)⟩
      change Passed v.activeConnections ws (v.runners id)
      rw [same, sending]
      exact fun _ => Nat.lt_of_not_le still

theorem missed_step (h : Inv s) (missed : Missed id ws s) (member : ws ∈ s.store.activeConnections)
    (hs : Watched.step str s l = some u) : Missed id ws u := by
  obtain ⟨v, moved, rfl⟩ := step_store hs
  have passed := missed.passed
  have ended (own : l.job? = some id) (moves : JobMoves s.store id (.ended true) v) :
      Missed id ws ⟨v, s.sent ++ sendsBy l v, s.cleaned ++ cleanedBy s.store l v⟩ := by
    constructor
    · rw [sendsBy_quiet own moves (not_broadcasting_ended true), List.append_nil]
      exact missed.unsent
    · change Passed v.activeConnections ws (v.runners id)
      rw [moves.runners, Function.update_self]
      trivial
  by_cases own : l.job? = some id
  · cases at_id : s.store.runners id with
    | none =>
      rw [at_id] at passed
      exact passed.elim
    | some r =>
      rw [at_id] at passed
      obtain ⟨position, x, dead, rfl, loop⟩ :=
        loopStep_of_begun moved own at_id (fun preparing => not_passed_preparing preparing passed)
      cases loop with
      | sends _ found moves connections =>
        have behind := passed member
        constructor
        · rw [sendsBy_sends rfl moves]
          intro mem
          rcases List.mem_append.mp mem with old | new
          · exact missed.unsent old
          · cases List.mem_singleton.mp new
            have here := idxOf_of_getElem? h.members.nodup found
            omega
        · change Passed v.activeConnections ws (v.runners id)
          rw [moves.runners, Function.update_self, connections]
          exact fun _ => Nat.lt_succ_of_lt behind
      | cleans _ moves => exact ended rfl moves
      | abandons _ moves => exact ended rfl moves
  · have running : s.store.runners id ≠ none := by
      intro absent
      rw [absent] at passed
      exact passed
    constructor
    · intro mem
      rcases List.mem_append.mp mem with old | new
      · exact missed.unsent old
      · exact own (sendsBy_own new)
    · change Passed v.activeConnections ws (v.runners id)
      rw [runners_other h moved own running]
      exact passed_step h.members moved (.inl member) passed

omit [DecidableEq JobId] in
theorem sent_keepsAhead (h : Inv s) (sent : (id, ws) ∈ s.sent)
    (member : ws ∈ s.store.activeConnections) : KeepsAhead id ws s l u := by
  intro position x dead sending coming
  have passed := h.visits.passed id ws sent
  rw [sending] at passed
  exact absurd (passed member) (Nat.not_lt_of_le coming)

theorem sent_step (sent : (id, ws) ∈ s.sent) (hs : Watched.step str s l = some u) :
    (id, ws) ∈ u.sent := by
  obtain ⟨v, moved, rfl⟩ := step_store hs
  exact List.mem_append_left _ sent

theorem starts_step (h : Inv s) {payload : Payload} {now : Time}
    (gathering : s.store.runners id = some (.gathering payload))
    (member : ws ∈ s.store.activeConnections)
    (hs : Watched.step str s (.gatherEnds id (.ok ()) now) = some u) :
    ws ∈ u.store.activeConnections ∧ ((id, ws) ∈ u.sent ∨ Ahead id ws u) := by
  obtain ⟨v, moved, rfl⟩ := step_store hs
  have unsent : (id, ws) ∉ s.sent := by
    intro mem
    have passed := h.visits.passed id ws mem
    rw [gathering] at passed
    exact passed
  cases moved with
  | works own _ outside _ _ _ _ =>
    cases own
    exact absurd (.starts gathering) (outside 0 [])
  | @sends _ v k position x dead head found moves connections =>
    cases head with
    | starts _ =>
      constructor
      · change ws ∈ v.activeConnections
        rw [connections]
        exact member
      · exact ahead_sends member rfl found (Nat.zero_le _) moves connections unsent _
  | cleans head through _ _ =>
    cases head with
    | starts _ =>
      have empty := List.getElem?_eq_none_iff.mp through
      have inside := List.length_pos_of_mem member
      omega
  | echoes goes _ _ => rcases goes with goes | goes <;> cases goes
  | leaves ends _ _ => cases ends.job?
  | breaks ends _ _ => cases ends.job?

end Steps

section Runs
variable [DecidableEq JobId] {str : Str Payload} {s u : Watched JobId Ws Payload Time}
  {ls : List (Label JobId Ws Payload Time)} {id : JobId} {ws : Ws}

theorem sent_run (h : Inv s) (sent : (id, ws) ∈ s.sent) (member : ws ∈ s.store.activeConnections)
    (during : Along (Watched.step str) (Stays ws) s ls u) :
    (id, ws) ∈ u.sent ∧ Along (Watched.step str) (KeepsAhead id ws) s ls u := by
  induction during with
  | nil s => exact ⟨sent, .nil s⟩
  | cons enabled stays _ ih =>
    obtain ⟨still, keeps⟩ := ih (inv_step h enabled) (sent_step sent enabled) stays
    exact ⟨still, .cons enabled (sent_keepsAhead h sent member) keeps⟩

theorem missed_run (h : Inv s) (missed : Missed id ws s) (member : ws ∈ s.store.activeConnections)
    (during : Along (Watched.step str) (Stays ws) s ls u) : (id, ws) ∉ u.sent := by
  induction during with
  | nil _ => exact missed.unsent
  | cons enabled stays _ ih =>
    exact ih (inv_step h enabled) (missed_step h missed member enabled) stays

theorem ahead_run (h : Inv s) (ahead : Ahead id ws s) (member : ws ∈ s.store.activeConnections)
    (during : Along (Watched.step str) (Stays ws) s ls u)
    (finished : ∃ succeeded, u.store.runners id = some (.ended succeeded)) :
    (id, ws) ∈ u.sent ↔ Along (Watched.step str) (KeepsAhead id ws) s ls u := by
  induction during with
  | nil s =>
    obtain ⟨succeeded, ended⟩ := finished
    obtain ⟨position, x, dead, sending, -⟩ := ahead.coming
    cases sending.symm.trans ended
  | @cons s v u l ls enabled stays tail ih =>
    have next := inv_step h enabled
    have first (h : Along (Watched.step str) (KeepsAhead id ws) s (l :: ls) u) :
        KeepsAhead id ws s l v ∧ Along (Watched.step str) (KeepsAhead id ws) v ls u := by
      cases h with
      | cons enabled' keeps rest =>
        cases enabled.symm.trans enabled'
        exact ⟨keeps, rest⟩
    rcases ahead_step h ahead member enabled with ⟨sent | ahead', keeps⟩ | ⟨missed, breaks⟩
    · obtain ⟨reached, rest⟩ := sent_run next sent stays tail
      exact ⟨fun _ => .cons enabled keeps rest, fun _ => reached⟩
    · have later := ih next ahead' stays finished
      exact ⟨fun sent => .cons enabled keeps (later.mp sent), fun along => later.mpr (first along).2⟩
    · have unsent := missed_run next missed stays tail
      exact ⟨fun sent => absurd sent unsent, fun along => absurd (first along).1 breaks⟩

theorem sent_at_most_once (run : Runs (Watched.step str) Watched.initial ls u) (id : JobId)
    (ws : Ws) : u.sent.count (id, ws) ≤ 1 :=
  List.nodup_iff_count_le_one.mp (inv_run run).visits.once (id, ws)

theorem gathering_of_starts {now : Time}
    (starts : Watched.step str s (.gatherEnds id (.ok ()) now) = some u) :
    ∃ payload, s.store.runners id = some (.gathering payload) := by
  obtain ⟨v, enabled, -⟩ := Option.map_eq_some_iff.mp starts
  obtain ⟨r, at_id, moved⟩ := Option.bind_eq_some_iff.mp enabled
  cases r with
  | gathering payload => exact ⟨payload, at_id⟩
  | _ => cases moved

/-- A connection that is in the list while a broadcast goes on is sent to exactly once, in
every run, exactly when it is kept ahead of the loop until its turn. -/
theorem sentOnce_iff (ls₀ ls : List (Label JobId Ws Payload Time))
    (s₀ s u : Watched JobId Ws Payload Time) (id : JobId) (ws : Ws) (now : Time)
    (before : Runs (Watched.step str) Watched.initial ls₀ s₀)
    (starts : Watched.step str s₀ (.gatherEnds id (.ok ()) now) = some s)
    (member : ws ∈ s₀.store.activeConnections)
    (during : Along (Watched.step str) (Stays ws) s ls u)
    (finished : ∃ succeeded, u.store.runners id = some (.ended succeeded)) :
    u.sent.count (id, ws) = 1 ↔ Along (Watched.step str) (KeepsAhead id ws) s ls u := by
  have h₀ := inv_run before
  have h := inv_step h₀ starts
  obtain ⟨payload, gathering⟩ := gathering_of_starts starts
  obtain ⟨stays, reached⟩ := starts_step h₀ gathering member starts
  have last : Inv u :=
    during.runs.invariant Inv h (fun _ _ _ inv hs => inv_step inv hs)
  have once : u.sent.count (id, ws) = 1 ↔ (id, ws) ∈ u.sent := by
    constructor
    · intro counted
      exact List.count_pos_iff.mp (by omega)
    · exact fun mem => List.count_eq_one_of_mem last.visits.once mem
  rw [once]
  rcases reached with sent | ahead
  · obtain ⟨still, keeps⟩ := sent_run h sent stays during
    exact ⟨fun _ => keeps, fun _ => still⟩
  · exact ahead_run h ahead stays during finished

end Runs

section Examples

def unitStr : Str Unit := ⟨fun _ => "payload", fun _ => ""⟩

def untilGathered : List (Label ℕ ℕ Unit ℕ) :=
  [.connect 0, .acceptEnds 0 (.ok ()), .connect 1, .acceptEnds 1 (.ok ()), .submit 5 () false,
    .dispatch 5 10]

/-- The first client leaves while it is sent to, and the second takes its place in the
list. -/
theorem disconnect_skips_next : ¬ ∀ (ls₀ ls : List (Label ℕ ℕ Unit ℕ))
    (s₀ s u : Watched ℕ ℕ Unit ℕ) (id ws now : ℕ),
    Runs (Watched.step unitStr) Watched.initial ls₀ s₀ →
    Watched.step unitStr s₀ (.gatherEnds id (.ok ()) now) = some s →
    ws ∈ s₀.store.activeConnections →
    Along (Watched.step unitStr) (Stays ws) s ls u →
    (∃ succeeded, u.store.runners id = some (.ended succeeded)) →
      u.sent.count (id, ws) = 1 := by
  intro h
  have counted := h untilGathered
    [.receiveEnds 0 (.error .webSocketDisconnect), .sendEnds 5 (.ok ()) 12] _ _ _ 5 1 11
    (Runs.of_execute rfl) rfl (by decide)
    (.cons rfl List.mem_cons_self (.single rfl List.mem_cons_self)) ⟨true, rfl⟩
  exact absurd counted (by decide)

theorem undisturbed_sent_once : ∃ s u : Watched ℕ ℕ Unit ℕ,
    Along (Watched.step unitStr) (KeepsAhead 5 1) s
      [.sendEnds 5 (.ok ()) 12, .sendEnds 5 (.ok ()) 13] u ∧ u.sent.count (5, 1) = 1 := by
  have keeps : ∃ s u : Watched ℕ ℕ Unit ℕ,
      (∃ s₀, Runs (Watched.step unitStr) Watched.initial untilGathered s₀ ∧
        Watched.step unitStr s₀ (.gatherEnds 5 (.ok ()) 11) = some s ∧
        1 ∈ s₀.store.activeConnections) ∧
      Along (Watched.step unitStr) (Stays 1) s
        [.sendEnds 5 (.ok ()) 12, .sendEnds 5 (.ok ()) 13] u ∧
      Along (Watched.step unitStr) (KeepsAhead 5 1) s
        [.sendEnds 5 (.ok ()) 12, .sendEnds 5 (.ok ()) 13] u ∧
      u.store.runners 5 = some (.ended true) := by
    have own (l : Label ℕ ℕ Unit ℕ) (hl : l.job? = some 5)
        (sent : ∀ e now, l ≠ .sendEnds 5 (.error e) now) (s u : Watched ℕ ℕ Unit ℕ) :
        KeepsAhead 5 1 s l u :=
      fun _ _ _ _ _ => ⟨fun other => absurd hl other, fun e now same => absurd same (sent e now)⟩
    have second : 1 ∈ [0, 1] := List.mem_cons_of_mem 0 List.mem_cons_self
    exact ⟨_, _, ⟨_, Runs.of_execute rfl, rfl, second⟩, .cons rfl second (.single rfl second),
      .cons rfl (own _ rfl (by rintro _ _ ⟨⟩) _ _)
        (.single rfl (own _ rfl (by rintro _ _ ⟨⟩) _ _)), rfl⟩
  obtain ⟨s, u, ⟨s₀, before, starts, member⟩, stays, keeps, ended⟩ := keeps
  exact ⟨s, u, keeps,
    (sentOnce_iff _ _ s₀ s u 5 1 11 before starts member stays ⟨true, ended⟩).mpr keeps⟩

end Examples

end FastapiProject.BroadcastReach
