import FastapiProject.LifespanShutdown
import FastapiProject.PublisherDiscipline

set_option autoImplicit false

/-!
# What `close` leaves open

`close` tests the globals without the lock and once. A connection escapes it when the
connect returns after the test, when the close of the channel raises before it, or when
its own close raises.
-/
namespace FastapiProject.PublisherClose
open PythonExceptions IndexedLists MachineRuns PublisherConnection PublisherDiscipline

def Close.Ended (k : Close) : Prop := ∃ outcome, k = .ended outcome

/-- The step leaves the connection `c` open with no call of `close` to come to it. -/
inductive Leaks (s : State) : Label → ℕ → Prop where
  | connects {i : ℕ} (tested : ∀ ch, .closingChannel ch ∉ s.closes) :
    Leaks s (.connectEnds i (.ok ())) s.connections.length
  | channelCloseRaises {j c : ℕ} {e : Exn} (isOpen : s.connectionOpen c) :
    Leaks s (.channelCloseEnds j (.error e)) c
  | connectionCloseRaises {j c : ℕ} {e : Exn} (at_j : s.closes[j]? = some (.closingConnection c))
      (isOpen : s.connectionOpen c) : Leaks s (.connectionCloseEnds j (.error e)) c

/-- In the run from `s` the connection `c` leaks, and is not lost afterwards. -/
def LeaksFor (c : ℕ) : State → List Label → Prop :=
  SomeStep step fun s l post => Leaks s l c ∧ .connectionLost c ∉ post

def Pending (c : ℕ) (s : State) : Prop :=
  (∃ ch, .closingChannel ch ∈ s.closes) ∨ .closingConnection c ∈ s.closes

structure OneClose (k : ℕ) (s : State) : Prop where
  others : ∀ (j : ℕ) stage, s.closes[j]? = some stage → j ≠ k → Close.Ended stage
  known : ∀ (j : ℕ) c, s.closes[j]? = some (.closingConnection c) → c < s.connections.length

section Pendings
variable {s u : State} {l : Label} {c : ℕ}

theorem closeSecond_open (inv : Inv s) (isOpen : s.connectionOpen c) :
    s.closeSecond = .closingConnection c := by
  rw [State.closeSecond, usableConnection_iff.mpr ⟨inv.held c isOpen, isOpen⟩]

theorem closeFirst_open (inv : Inv s) (isOpen : s.connectionOpen c) :
    (∃ ch, s.closeFirst = .closingChannel ch) ∨ s.closeFirst = .closingConnection c := by
  rw [State.closeFirst]
  cases s.usableChannel with
  | some ch => exact .inl ⟨ch, rfl⟩
  | none => exact .inr (closeSecond_open inv isOpen)

theorem Pending.ends {j d : ℕ} {outcome : Except Exn Unit} (pending : Pending c s)
    (at_j : s.closes[j]? = some (.closingConnection d)) (other : c ≠ d) :
    Pending c (s.setClose j (.ended outcome)) := by
  rcases pending with ⟨ch, mem⟩ | mem
  · exact .inl ⟨ch, mem_set_other at_j mem (by rintro ⟨⟩)⟩
  · refine .inr (mem_set_other at_j mem ?_)
    rintro ⟨⟩
    exact other rfl

theorem step_pending (inv : Inv s) (pending : s.connectionOpen c → Pending c s)
    (hs : PublisherStep s l u) (kept : ¬ Leaks s l c) (isOpen : u.connectionOpen c) :
    Pending c u := by
  cases hs with
  | connected at_i =>
    rcases addConnection_open isOpen with old | rfl
    · exact pending old
    · by_contra past
      exact kept (.connects fun ch mem => past (.inl ⟨ch, mem⟩))
  | closeStarts =>
    rcases pending isOpen with ⟨ch, mem⟩ | mem
    · exact .inl ⟨ch, List.mem_append_left _ mem⟩
    · exact .inr (List.mem_append_left _ mem)
  | channelClosed at_j =>
    have comes := closeSecond_open inv isOpen
    exact .inr (comes ▸ mem_set_here at_j s.closeSecond)
  | channelCloseRaises at_j => exact absurd (.channelCloseRaises isOpen) kept
  | connectionClosed at_j =>
    obtain ⟨other, isOpen⟩ := closeConnection_open isOpen
    exact (pending isOpen).ends at_j other
  | @connectionCloseRaises j d e at_j =>
    refine (pending isOpen).ends at_j ?_
    rintro rfl
    exact kept (.connectionCloseRaises at_j isOpen)
  | connectionLost => exact pending (closeConnection_open isOpen).2
  | waits => exact pending isOpen
  | leaves quiet silent leaving => exact pending isOpen
  | locks free => exact pending isOpen
  | opened at_i => exact pending isOpen
  | channelLost => exact pending isOpen

theorem step_closed (closed : s.connections[c]? = some true) (hs : PublisherStep s l u) :
    u.connections[c]? = some true := by
  have kept (d : ℕ) : (s.connections.set d true)[c]? = some true := by
    by_cases same : d = c
    · subst same
      exact getElem?_set_here closed true
    · rw [List.getElem?_set_ne same]
      exact closed
  cases hs with
  | connected at_i => exact getElem?_concat_old closed false
  | @connectionClosed j d at_j => exact kept d
  | @connectionLost d => exact kept d
  | _ => exact closed

theorem lost_closed {ls : List Label} {v : State} (run : Runs step s ls v)
    (lost : .connectionLost c ∈ ls) : ¬ v.connectionOpen c := by
  have closed_run {w v : State} {ls : List Label} (run : Runs step w ls v)
      (closed : w.connections[c]? = some true) : v.connections[c]? = some true :=
    run.invariant (fun s => s.connections[c]? = some true) closed
      (fun _ _ _ closed hs => step_closed closed (step_publisherStep hs))
  induction run with
  | nil s => cases lost
  | @cons s u v l ls enabled _ tail ih =>
    rcases List.mem_cons.mp lost with rfl | later
    · rw [step] at enabled
      split at enabled
      · rename_i isOpen
        cases enabled
        have closed := closed_run tail (getElem?_set_here isOpen true)
        rw [State.connectionOpen, closed]
        decide
      · cases enabled
    · exact ih later

theorem not_pending (ended : ∀ k ∈ s.closes, Close.Ended k) : ¬ Pending c s := by
  rintro (⟨ch, mem⟩ | mem)
  · obtain ⟨outcome, ⟨⟩⟩ := ended _ mem
  · obtain ⟨outcome, ⟨⟩⟩ := ended _ mem

theorem open_leaks {ls : List Label} {v : State} (run : Runs step s ls v) (inv : Inv s)
    (pending : s.connectionOpen c → Pending c s) (ended : ∀ k ∈ v.closes, Close.Ended k)
    (isOpen : v.connectionOpen c) : LeaksFor c s ls := by
  induction run with
  | nil s => exact absurd (pending isOpen) (not_pending ended)
  | @cons s u v l ls enabled _ tail ih =>
    have hs := step_publisherStep enabled
    rw [LeaksFor, someStep_cons_iff enabled]
    by_cases leaks : Leaks s l c
    · exact .inl ⟨leaks, fun lost => lost_closed tail lost isOpen⟩
    · exact .inr (ih (step_inv inv hs) (step_pending inv pending hs leaks) ended isOpen)

end Pendings

section Leaked
variable {s u : State} {l : Label} {c k : ℕ}

theorem step_open (isOpen : s.connectionOpen c) (past : ¬ Pending c s)
    (hs : PublisherStep s l u) (kept : l ≠ .connectionLost c) : u.connectionOpen c := by
  cases hs with
  | connected at_i => exact getElem?_concat_old isOpen false
  | @connectionClosed j d at_j =>
    have other : d ≠ c := by
      rintro rfl
      exact past (.inr (List.mem_of_getElem? at_j))
    exact (List.getElem?_set_ne other).trans isOpen
  | @connectionLost d =>
    have other : d ≠ c := by
      rintro rfl
      exact kept rfl
    exact (List.getElem?_set_ne other).trans isOpen
  | _ => exact isOpen

theorem not_pending_set {j : ℕ} {outcome : Except Exn Unit} (past : ¬ Pending c s) :
    ¬ Pending c (s.setClose j (.ended outcome)) := by
  have before {stage : Close} (mem : stage ∈ s.closes.set j (.ended outcome))
      (going : stage ≠ .ended outcome) : stage ∈ s.closes :=
    (List.mem_or_eq_of_mem_set mem).resolve_right going
  rintro (⟨ch, mem⟩ | mem)
  · exact past (.inl ⟨ch, before mem (by rintro ⟨⟩)⟩)
  · exact past (.inr (before mem (by rintro ⟨⟩)))

theorem step_past (past : ¬ Pending c s) (hs : PublisherStep s l u) (other : l ≠ .close) :
    ¬ Pending c u := by
  cases hs with
  | closeStarts => exact absurd rfl other
  | @channelClosed j ch at_j => exact absurd (.inl ⟨ch, List.mem_of_getElem? at_j⟩) past
  | @channelCloseRaises j ch e at_j => exact absurd (.inl ⟨ch, List.mem_of_getElem? at_j⟩) past
  | connectionClosed at_j => exact not_pending_set past
  | connectionCloseRaises at_j => exact not_pending_set past
  | _ => exact past

theorem open_run {ls : List Label} {v : State} (run : Runs step s ls v)
    (isOpen : s.connectionOpen c) (past : ¬ Pending c s) (alone : .close ∉ ls)
    (kept : .connectionLost c ∉ ls) : v.connectionOpen c := by
  induction run with
  | nil s => exact isOpen
  | @cons s u v l ls enabled _ tail ih =>
    rw [List.mem_cons, not_or] at alone kept
    have hs := step_publisherStep enabled
    exact ih (step_open isOpen past hs (Ne.symm kept.1)) (step_past past hs (Ne.symm alone.1))
      alone.2 kept.2

theorem closeSecond_known (s : State) {c : ℕ} (closing : s.closeSecond = .closingConnection c) :
    c < s.connections.length := by
  rw [State.closeSecond] at closing
  split at closing
  · rename_i d usable
    cases closing
    exact (List.getElem?_eq_some_iff.mp (usableConnection_iff.mp usable).2).1
  · cases closing

theorem closeFirst_known (s : State) {c : ℕ} (closing : s.closeFirst = .closingConnection c) :
    c < s.connections.length := by
  rw [State.closeFirst] at closing
  split at closing
  · cases closing
  · exact closeSecond_known s closing

theorem oneClose_started (idle : ∀ stage ∈ s.closes, Close.Ended stage) :
    OneClose s.closes.length { s with closes := s.closes ++ [s.closeFirst] } where
  others := by
    intro j stage at_j other
    rcases getElem?_concat_cases at_j with old | ⟨rfl, -⟩
    · exact idle stage (List.mem_of_getElem? old)
    · exact absurd rfl other
  known := by
    intro j c at_j
    rcases getElem?_concat_cases at_j with old | ⟨-, first⟩
    · obtain ⟨outcome, ⟨⟩⟩ := idle _ (List.mem_of_getElem? old)
    · exact closeFirst_known s first.symm

theorem OneClose.moves (one : OneClose k s) {j : ℕ} {stage stage' : Close}
    (at_j : s.closes[j]? = some stage) (going : ¬ Close.Ended stage)
    (known : ∀ c, stage' = .closingConnection c → c < s.connections.length) :
    OneClose k (s.setClose j stage') where
  others := by
    intro i after at_i other
    rcases getElem?_set_cases at_i with ⟨rfl, -⟩ | ⟨-, before⟩
    · exact absurd (one.others i stage at_j other) going
    · exact one.others i after before other
  known := by
    intro i c at_i
    rcases getElem?_set_cases at_i with ⟨-, moved⟩ | ⟨-, before⟩
    · exact known c moved.symm
    · exact one.known i c before

theorem OneClose.closeConnection (one : OneClose k s) (c : ℕ) : OneClose k (s.closeConnection c) where
  others := one.others
  known := by
    intro j d at_j
    have before := one.known j d at_j
    rwa [State.closeConnection, List.length_set]

theorem going_channel (ch : ℕ) : ¬ Close.Ended (.closingChannel ch) := by rintro ⟨outcome, ⟨⟩⟩

theorem going_connection (c : ℕ) : ¬ Close.Ended (.closingConnection c) := by
  rintro ⟨outcome, ⟨⟩⟩

theorem step_oneClose (one : OneClose k s) (hs : PublisherStep s l u) (other : l ≠ .close) :
    OneClose k u := by
  cases hs with
  | closeStarts => exact absurd rfl other
  | connected at_i =>
    refine ⟨one.others, fun j c at_j => ?_⟩
    change c < (s.connections ++ [false]).length
    rw [List.length_append]
    exact Nat.lt_add_right _ (one.known j c at_j)
  | @channelClosed j ch at_j =>
    have closed : OneClose k (s.closeChannel ch) := ⟨one.others, one.known⟩
    exact closed.moves at_j (going_channel ch) fun c closing => closeSecond_known s closing
  | @channelCloseRaises j ch e at_j => exact one.moves at_j (going_channel ch) (by rintro c ⟨⟩)
  | @connectionClosed j c at_j =>
    exact (one.closeConnection c).moves at_j (going_connection c) (by rintro d ⟨⟩)
  | @connectionCloseRaises j c e at_j => exact one.moves at_j (going_connection c) (by rintro d ⟨⟩)
  | @connectionLost c => exact one.closeConnection c
  | _ => exact ⟨one.others, one.known⟩

theorem ended_past (one : OneClose k s) {j : ℕ} {stage : Close} {outcome : Except Exn Unit}
    (at_j : s.closes[j]? = some stage) (going : ¬ Close.Ended stage) :
    ¬ Pending c (s.setClose j (.ended outcome)) := by
  apply not_pending
  intro after mem
  obtain ⟨i, at_i⟩ := List.mem_iff_getElem?.mp mem
  rcases getElem?_set_cases at_i with ⟨-, rfl⟩ | ⟨other, before⟩
  · exact ⟨outcome, rfl⟩
  · refine one.others i after before ?_
    rintro rfl
    exact going (one.others j stage at_j (Ne.symm other))

theorem leak_past (leaks : Leaks s l c) (one : OneClose k s) (hs : PublisherStep s l u) :
    u.connectionOpen c ∧ ¬ Pending c u := by
  cases leaks with
  | connects tested =>
    cases hs with
    | leaves quiet silent leaving => cases leaving
    | connected at_i =>
      refine ⟨List.getElem?_concat_length, ?_⟩
      rintro (⟨ch, mem⟩ | mem)
      · exact tested ch mem
      · obtain ⟨j, at_j⟩ := List.mem_iff_getElem?.mp mem
        exact absurd (one.known j _ at_j) (Nat.lt_irrefl _)
  | channelCloseRaises isOpen =>
    cases hs with
    | leaves quiet silent leaving => cases leaving
    | channelCloseRaises at_j => exact ⟨isOpen, ended_past one at_j (going_channel _)⟩
  | connectionCloseRaises at_j isOpen =>
    cases hs with
    | leaves quiet silent leaving => cases leaving
    | connectionCloseRaises at_j' => exact ⟨isOpen, ended_past one at_j (going_connection c)⟩

theorem leaked_open {ls : List Label} {v : State} (run : Runs step s ls v) (one : OneClose k s)
    (alone : .close ∉ ls) (leaks : LeaksFor c s ls) : v.connectionOpen c := by
  induction run with
  | nil s => exact absurd leaks not_someStep_nil
  | @cons s u v l ls enabled _ tail ih =>
    rw [List.mem_cons, not_or] at alone
    have hs := step_publisherStep enabled
    rcases (someStep_cons_iff enabled).mp leaks with ⟨here, kept⟩ | later
    · obtain ⟨isOpen, past⟩ := leak_past here one hs
      exact open_run tail isOpen past alone.2 kept
    · exact ih (step_oneClose one hs (Ne.symm alone.1)) alone.2 later

end Leaked

/-- After a call of `close` has ended, just the connections that leaked in its run and
were not lost since are open. -/
theorem nothingOpen_iff {ls ls' : List Label} {s v : State} (before : Runs step initial ls s)
    (idle : ∀ k ∈ s.closes, Close.Ended k) (after : Runs step s (.close :: ls') v)
    (alone : .close ∉ ls') (ended : ∀ k ∈ v.closes, Close.Ended k) :
    (∀ c, ¬ v.connectionOpen c) ↔ ∀ c, ¬ LeaksFor c s (.close :: ls') := by
  have inv : Inv s := before.invariant Inv inv_initial
    (fun _ _ _ inv hs => step_inv inv (step_publisherStep hs))
  cases after with
  | cons enabled _ tail =>
    cases enabled
    have one := oneClose_started idle
    have started (c : ℕ) : LeaksFor c s (.close :: ls') ↔
        LeaksFor c { s with closes := s.closes ++ [s.closeFirst] } ls' := by
      rw [LeaksFor, someStep_cons_iff rfl]
      refine or_iff_right ?_
      rintro ⟨⟨⟩, -⟩
    refine forall_congr' fun c => not_congr ?_
    rw [started]
    constructor
    · intro isOpen
      refine open_leaks tail (step_inv inv .closeStarts) (fun isOpen => ?_) ended isOpen
      rcases closeFirst_open inv isOpen with ⟨ch, first⟩ | first
      · exact .inl ⟨ch, List.mem_append_right _ (List.mem_singleton.mpr first.symm)⟩
      · exact .inr (List.mem_append_right _ (List.mem_singleton.mpr first.symm))
    · exact leaked_open tail one alone

section Alone
variable (s : State)

theorem closeSecond_runs {before : List Close} (at_end : s.closes = before ++ [s.closeSecond])
    (connectionClose : Except Exn Unit) : ∃ ls u, Runs step s ls u ∧
      u.closes = before ++ [.ended (LifespanShutdown.closePublisher none
        (s.usableConnection.map fun _ => connectionClose))] := by
  cases usable : s.usableConnection with
  | none =>
    refine ⟨[], s, .nil s, ?_⟩
    rw [at_end, State.closeSecond, usable]
    rfl
  | some c =>
    have at_j : s.closes[before.length]? = some (.closingConnection c) := by
      rw [at_end, List.getElem?_concat_length, State.closeSecond, usable]
    have moved (after : Close) : s.closes.set before.length after = before ++ [after] := by
      simp [at_end]
    cases connectionClose with
    | ok v =>
      have ends : step s (.connectionCloseEnds before.length (.ok ())) =
          some ((s.closeConnection c).setClose before.length (.ended (.ok ()))) := by
        simp only [step, at_j, Option.bind_some, stepConnectionClose]
      exact ⟨_, _, .single ends trivial, moved _⟩
    | error e =>
      have ends : step s (.connectionCloseEnds before.length (.error e)) =
          some (s.setClose before.length (.ended (.error e))) := by
        simp only [step, at_j, Option.bind_some, stepConnectionClose]
      exact ⟨_, _, .single ends trivial, moved _⟩

/-- A call of `close` that is left alone ends as the shutdown of the application has it. -/
theorem close_runs (channelClose connectionClose : Except Exn Unit) : ∃ ls u,
    Runs step s (.close :: ls) u ∧ u.closes = s.closes ++ [.ended (LifespanShutdown.closePublisher
      (s.usableChannel.map fun _ => channelClose)
      (s.usableConnection.map fun _ => connectionClose))] := by
  let w : State := { s with closes := s.closes ++ [s.closeFirst] }
  have opened : step s .close = some w := rfl
  cases usable : s.usableChannel with
  | none =>
    have second : w.closes = s.closes ++ [w.closeSecond] := by
      change s.closes ++ [s.closeFirst] = s.closes ++ [s.closeSecond]
      rw [State.closeFirst, usable]
    obtain ⟨ls, u, run, ended⟩ := closeSecond_runs w second connectionClose
    exact ⟨ls, u, .cons opened trivial run, ended⟩
  | some ch =>
    have at_j : w.closes[s.closes.length]? = some (.closingChannel ch) := by
      change (s.closes ++ [s.closeFirst])[s.closes.length]? = _
      rw [List.getElem?_concat_length, State.closeFirst, usable]
    have moved (after : Close) : w.closes.set s.closes.length after = s.closes ++ [after] := by
      simp [w]
    cases channelClose with
    | error e =>
      have ends : step w (.channelCloseEnds s.closes.length (.error e)) =
          some (w.setClose s.closes.length (.ended (.error e))) := by
        simp only [step, at_j, Option.bind_some, stepChannelClose]
      exact ⟨_, _, .cons opened trivial (.single ends trivial), moved _⟩
    | ok v =>
      have ends : step w (.channelCloseEnds s.closes.length (.ok ())) =
          some ((w.closeChannel ch).setClose s.closes.length w.closeSecond) := by
        simp only [step, at_j, Option.bind_some, stepChannelClose]
        rfl
      obtain ⟨ls, u, run, ended⟩ := closeSecond_runs
        ((w.closeChannel ch).setClose s.closes.length w.closeSecond) (moved w.closeSecond)
        connectionClose
      exact ⟨_, u, .cons opened trivial (.cons ends trivial run), ended⟩

end Alone

section Examples

def connectInFlight : List Label := [.publish, .lockEnds 0 (.ok ())]

def publishEndsAfterClose : List Label :=
  [.connectEnds 0 (.ok ()), .channelEnds 0 (.ok ()), .declareExchangeEnds 0 (.ok ()),
    .publishEnds 0 (.ok ())]

/-- The connect returns after `close` has found nothing to close. -/
theorem close_misses_connect : ¬ ∀ ls ls' s v, Runs step initial ls s →
    (∀ k ∈ s.closes, Close.Ended k) → Runs step s (.close :: ls') v → .close ∉ ls' →
    .publish ∉ ls' → (∀ k ∈ v.closes, Close.Ended k) →
    (∀ p ∈ v.publishes, ∃ outcome, p = .ended outcome) → ∀ c, ¬ v.connectionOpen c := by
  intro h
  refine h connectInFlight publishEndsAfterClose _ _ (Runs.of_execute rfl) ?_
    (Runs.of_execute rfl) ?_ ?_ ?_ ?_ 0 rfl
  · rintro k ⟨⟩
  · simp [publishEndsAfterClose]
  · simp [publishEndsAfterClose]
  · intro k mem
    exact ⟨.ok (), List.mem_singleton.mp mem⟩
  · intro p mem
    exact ⟨.ok (), List.mem_singleton.mp mem⟩

def publishOnce : List Label :=
  [.publish, .lockEnds 0 (.ok ()), .connectEnds 0 (.ok ()), .channelEnds 0 (.ok ()),
    .declareExchangeEnds 0 (.ok ()), .publishEnds 0 (.ok ())]

def closeBoth : List Label := [.channelCloseEnds 0 (.ok ()), .connectionCloseEnds 0 (.ok ())]

theorem quiet_close_leaves_nothing : ∃ s v, Runs step initial publishOnce s ∧
    Runs step s (.close :: closeBoth) v ∧ ∀ c, ¬ v.connectionOpen c := by
  have runs : ∃ s v, Runs step initial publishOnce s ∧ Runs step s (.close :: closeBoth) v ∧
      s.closes = [] ∧ v.closes = [.ended (.ok ())] :=
    ⟨_, _, Runs.of_execute rfl, Runs.of_execute rfl, rfl, rfl⟩
  obtain ⟨s, v, before, after, none, ended⟩ := runs
  refine ⟨s, v, before, after, (nothingOpen_iff before ?_ after ?_ ?_).mpr ?_⟩
  · rw [none]
    rintro k ⟨⟩
  · simp [closeBoth]
  · rw [ended]
    intro k mem
    exact ⟨.ok (), List.mem_singleton.mp mem⟩
  · rintro c ⟨pre, l, post, w, split, -, leaks, -⟩
    have mem : l ∈ .close :: closeBoth := split ▸ List.mem_append_right pre List.mem_cons_self
    rw [closeBoth] at mem
    simp only [List.mem_cons, List.not_mem_nil, or_false] at mem
    obtain rfl | rfl | rfl := mem
    · cases leaks
    · cases leaks
    · cases leaks

end Examples

end FastapiProject.PublisherClose
