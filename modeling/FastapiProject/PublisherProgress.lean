import FastapiProject.MachineProgress
import FastapiProject.PublisherConnection

set_option autoImplicit false

/-!
# The calls of the publisher come to their end

Whoever holds the lock has an await of its own before it, so that a call never waits for
one that waits. The errors of `publish` are those that its own awaits raise.
-/
namespace FastapiProject.PublisherProgress
open PythonExceptions IndexedLists MachineRuns MachineProgress PublisherConnection

/-- The awaits that a call of `publish` still has before it, at most. -/
def publishAwaits : Publish → ℕ
  | .waiting => 5
  | .connecting => 4
  | .openingChannel _ => 3
  | .declaring _ => 2
  | .publishing _ => 1
  | .ended _ => 0

def closeAwaits : Close → ℕ
  | .closingChannel _ => 2
  | .closingConnection _ => 1
  | .ended _ => 0

def remaining (s : State) : ℕ := total publishAwaits s.publishes + total closeAwaits s.closes

def ofCall : Label → Bool
  | .lockEnds _ _ | .connectEnds _ _ | .channelEnds _ _ | .declareExchangeEnds _ _
  | .publishEnds _ _ | .channelCloseEnds _ _ | .connectionCloseEnds _ _ => true
  | .publish | .close | .connectionLost _ | .channelLost _ => false

def publishOf : Label → Option ℕ
  | .lockEnds i _ | .connectEnds i _ | .channelEnds i _ | .declareExchangeEnds i _
  | .publishEnds i _ => some i
  | _ => none

def closeOf : Label → Option ℕ
  | .channelCloseEnds j _ | .connectionCloseEnds j _ => some j
  | _ => none

/-- No call starts; connections and channels may be lost. -/
def NoNewCall (_ : State) (l : Label) (_ : State) : Prop := l ≠ .publish ∧ l ≠ .close

structure Awaits where
  connect : ℕ → Except Exn Unit
  channel : ℕ → Except Exn Unit
  declareExchange : ℕ → Except Exn Unit
  publish : ℕ → Except Exn Unit
  channelClose : ℕ → Except Exn Unit
  connectionClose : ℕ → Except Exn Unit

/-- An await of a call ends as given; the lock is acquired. -/
def Follows (awaits : Awaits) (_ : State) (l : Label) (_ : State) : Prop :=
  match l with
  | .lockEnds _ outcome => outcome = .ok ()
  | .connectEnds i outcome => outcome = awaits.connect i
  | .channelEnds i outcome => outcome = awaits.channel i
  | .declareExchangeEnds i outcome => outcome = awaits.declareExchange i
  | .publishEnds i outcome => outcome = awaits.publish i
  | .channelCloseEnds j outcome => outcome = awaits.channelClose j
  | .connectionCloseEnds j outcome => outcome = awaits.connectionClose j
  | .publish | .close | .connectionLost _ | .channelLost _ => False

structure Finished (s : State) : Prop where
  publishes : ∀ p ∈ s.publishes, ∃ outcome, p = .ended outcome
  closes : ∀ k ∈ s.closes, ∃ outcome, k = .ended outcome
  lock : s.lockIsFree = true

def endsCall : Label → Option (ℕ × Except Exn Unit)
  | .lockEnds i (.error e) | .connectEnds i (.error e) | .channelEnds i (.error e)
  | .declareExchangeEnds i (.error e) => some (i, .error e)
  | .publishEnds i outcome => some (i, outcome)
  | _ => none

section Measure
variable {s u w : State} {i j : ℕ} {outcome : Except Exn Unit} {p q : Publish} {k m : Close}

theorem getChannel_awaits (s : State) : publishAwaits s.getChannel < 4 := by
  unfold State.getChannel
  split
  · exact Nat.lt_of_sub_eq_succ rfl
  · exact Nat.lt_succ_self 3
  · exact Nat.lt_of_sub_eq_succ rfl

theorem getConnection_awaits (s : State) : publishAwaits s.getConnection < 5 := by
  unfold State.getConnection
  split
  · exact Nat.lt_succ_of_lt (getChannel_awaits s)
  · exact Nat.lt_succ_self 4

theorem closeSecond_awaits (s : State) : closeAwaits s.closeSecond < 2 := by
  unfold State.closeSecond
  split
  · exact Nat.lt_succ_self 1
  · exact Nat.lt_of_sub_eq_succ rfl

structure Nearer (s : State) (i : ℕ) (p : Publish) (u : State) : Prop where
  closes : u.closes = s.closes
  moved : ∃ q, u.publishes = s.publishes.set i q ∧ publishAwaits q < publishAwaits p

structure CloseNearer (s : State) (j : ℕ) (k : Close) (u : State) : Prop where
  publishes : u.publishes = s.publishes
  moved : ∃ m, u.closes = s.closes.set j m ∧ closeAwaits m < closeAwaits k

theorem lock_nearer (hs : stepLock s i outcome p = some u) : Nearer s i p u := by
  match outcome, p with
  | .ok (), .waiting =>
    rw [stepLock] at hs
    split at hs <;> cases hs
    exact ⟨rfl, _, rfl, getConnection_awaits s⟩
  | .error e, .waiting =>
    cases hs
    exact ⟨rfl, _, rfl, Nat.succ_pos 4⟩

theorem connect_nearer (hs : stepConnect s i outcome p = some u) : Nearer s i p u := by
  match outcome, p with
  | .ok (), .connecting =>
    cases hs
    exact ⟨rfl, _, rfl, getChannel_awaits s.addConnection⟩
  | .error e, .connecting =>
    cases hs
    exact ⟨rfl, _, rfl, Nat.succ_pos 3⟩

theorem channel_nearer (hs : stepChannel s i outcome p = some u) : Nearer s i p u := by
  match outcome, p with
  | .ok (), .openingChannel c =>
    cases hs
    exact ⟨rfl, _, rfl, Nat.lt_succ_self 2⟩
  | .error e, .openingChannel _ =>
    cases hs
    exact ⟨rfl, _, rfl, Nat.succ_pos 2⟩

theorem declareExchange_nearer (hs : stepDeclareExchange s i outcome p = some u) :
    Nearer s i p u := by
  match outcome, p with
  | .ok (), .declaring ch =>
    cases hs
    exact ⟨rfl, _, rfl, Nat.lt_succ_self 1⟩
  | .error e, .declaring _ =>
    cases hs
    exact ⟨rfl, _, rfl, Nat.succ_pos 1⟩

theorem publish_nearer (hs : stepPublish s i outcome p = some u) : Nearer s i p u := by
  match p with
  | .publishing _ =>
    cases hs
    exact ⟨rfl, _, rfl, Nat.lt_succ_self 0⟩

theorem channelClose_nearer (hs : stepChannelClose s j outcome k = some u) :
    CloseNearer s j k u := by
  match outcome, k with
  | .ok (), .closingChannel ch =>
    cases hs
    exact ⟨rfl, _, rfl, closeSecond_awaits (s.closeChannel ch)⟩
  | .error e, .closingChannel _ =>
    cases hs
    exact ⟨rfl, _, rfl, Nat.succ_pos 1⟩

theorem connectionClose_nearer (hs : stepConnectionClose s j outcome k = some u) :
    CloseNearer s j k u := by
  match outcome, k with
  | .ok (), .closingConnection c =>
    cases hs
    exact ⟨rfl, _, rfl, Nat.lt_succ_self 0⟩
  | .error e, .closingConnection _ =>
    cases hs
    exact ⟨rfl, _, rfl, Nat.lt_succ_self 0⟩

variable {l : Label}

theorem publishOf_nearer (own : publishOf l = some i) (hs : step s l = some u) :
    ∃ p, s.publishes[i]? = some p ∧ Nearer s i p u := by
  cases l with
  | lockEnds _ _ =>
    cases own
    obtain ⟨p, at_i, hs⟩ := Option.bind_eq_some_iff.mp hs
    exact ⟨p, at_i, lock_nearer hs⟩
  | connectEnds _ _ =>
    cases own
    obtain ⟨p, at_i, hs⟩ := Option.bind_eq_some_iff.mp hs
    exact ⟨p, at_i, connect_nearer hs⟩
  | channelEnds _ _ =>
    cases own
    obtain ⟨p, at_i, hs⟩ := Option.bind_eq_some_iff.mp hs
    exact ⟨p, at_i, channel_nearer hs⟩
  | declareExchangeEnds _ _ =>
    cases own
    obtain ⟨p, at_i, hs⟩ := Option.bind_eq_some_iff.mp hs
    exact ⟨p, at_i, declareExchange_nearer hs⟩
  | publishEnds _ _ =>
    cases own
    obtain ⟨p, at_i, hs⟩ := Option.bind_eq_some_iff.mp hs
    exact ⟨p, at_i, publish_nearer hs⟩
  | _ => cases own

theorem closeOf_nearer (own : closeOf l = some j) (hs : step s l = some u) :
    ∃ k, s.closes[j]? = some k ∧ CloseNearer s j k u := by
  cases l with
  | channelCloseEnds _ _ =>
    cases own
    obtain ⟨k, at_j, hs⟩ := Option.bind_eq_some_iff.mp hs
    exact ⟨k, at_j, channelClose_nearer hs⟩
  | connectionCloseEnds _ _ =>
    cases own
    obtain ⟨k, at_j, hs⟩ := Option.bind_eq_some_iff.mp hs
    exact ⟨k, at_j, connectionClose_nearer hs⟩
  | _ => cases own

theorem step_starts (nobody : ofCall l = false) (hs : step s l = some u) :
    (u.publishes = s.publishes ∨ l = .publish ∧ u.publishes = s.publishes ++ [.waiting]) ∧
      (u.closes = s.closes ∨ l = .close ∧ u.closes = s.closes ++ [s.closeFirst]) := by
  cases l with
  | publish =>
    cases hs
    exact ⟨.inr ⟨rfl, rfl⟩, .inl rfl⟩
  | close =>
    cases hs
    exact ⟨.inl rfl, .inr ⟨rfl, rfl⟩⟩
  | connectionLost c =>
    rw [step] at hs
    split at hs <;> cases hs
    exact ⟨.inl rfl, .inl rfl⟩
  | channelLost ch =>
    cases hs
    exact ⟨.inl rfl, .inl rfl⟩
  | _ => cases nobody

theorem ofCall_cases (call : ofCall l = true) :
    (∃ i, publishOf l = some i) ∨ ∃ j, closeOf l = some j := by
  cases l with
  | publish | close | connectionLost _ | channelLost _ => cases call
  | channelCloseEnds j _ | connectionCloseEnds j _ => exact .inr ⟨j, rfl⟩
  | lockEnds i _ | connectEnds i _ | channelEnds i _ | declareExchangeEnds i _ | publishEnds i _ =>
    exact .inl ⟨i, rfl⟩

theorem ofCall_lowers : Lowers step (fun _ l _ => ofCall l = true) remaining := by
  intro s l u hs call
  unfold remaining
  rcases ofCall_cases call with ⟨i, own⟩ | ⟨j, own⟩
  · obtain ⟨p, at_i, closes, q, publishes, lower⟩ := publishOf_nearer own hs
    rw [publishes, closes]
    exact Nat.add_lt_add_right (total_set_lt publishAwaits at_i lower) _
  · obtain ⟨k, at_j, publishes, m, closes, lower⟩ := closeOf_nearer own hs
    rw [publishes, closes]
    exact Nat.add_lt_add_left (total_set_lt closeAwaits at_j lower) _

theorem noNewCall_keeps (hs : step s l = some u) (quiet : NoNewCall s l u) :
    remaining u ≤ remaining s := by
  by_cases call : ofCall l = true
  · exact Nat.le_of_lt (ofCall_lowers s l u hs call)
  · obtain ⟨publishes, closes⟩ := step_starts (Bool.eq_false_iff.mpr call) hs
    have sameCalls := publishes.resolve_right (fun starts => quiet.1 starts.1)
    have sameCloses := closes.resolve_right (fun starts => quiet.2 starts.1)
    rw [remaining, sameCalls, sameCloses]
    exact Nat.le_refl (remaining s)

theorem publishAwaits_le (p : Publish) : publishAwaits p ≤ 5 := by
  cases p with
  | waiting => exact Nat.le_refl 5
  | _ => exact Nat.le_of_ble_eq_true rfl

theorem closeAwaits_le (k : Close) : closeAwaits k ≤ 2 := by
  cases k with
  | closingChannel ch => exact Nat.le_refl 2
  | _ => exact Nat.le_of_ble_eq_true rfl

theorem publishes_grow (other : publishOf l = none) (hs : step s l = some u) :
    ∃ started, u.publishes = s.publishes ++ started := by
  by_cases call : ofCall l = true
  · obtain ⟨j, own⟩ := (ofCall_cases call).resolve_left (by rw [other]; rintro ⟨_, ⟨⟩⟩)
    obtain ⟨-, -, kept, -⟩ := closeOf_nearer own hs
    exact ⟨[], by rw [kept, List.append_nil]⟩
  · obtain ⟨kept | ⟨-, grown⟩, -⟩ := step_starts (Bool.eq_false_iff.mpr call) hs
    · exact ⟨[], by rw [kept, List.append_nil]⟩
    · exact ⟨_, grown⟩

theorem closes_grow (other : closeOf l = none) (hs : step s l = some u) :
    ∃ started, u.closes = s.closes ++ started := by
  by_cases call : ofCall l = true
  · obtain ⟨i, own⟩ := (ofCall_cases call).resolve_right (by rw [other]; rintro ⟨_, ⟨⟩⟩)
    obtain ⟨-, -, kept, -⟩ := publishOf_nearer own hs
    exact ⟨[], by rw [kept, List.append_nil]⟩
  · obtain ⟨-, kept | ⟨-, grown⟩⟩ := step_starts (Bool.eq_false_iff.mpr call) hs
    · exact ⟨[], by rw [kept, List.append_nil]⟩
    · exact ⟨_, grown⟩

/-- In any run a call of `publish` has five awaits at most, whatever calls are made meanwhile. -/
theorem countP_publishOf {ls : List Label} (run : Runs step s ls u) (i : ℕ) :
    ls.countP (fun l => publishOf l = some i) ≤ 5 := by
  refine countP_party publishAwaits State.publishes publishOf (fun s l u k hs own => ?_)
    (fun s l u hs other => ?_) (fun p _ => publishAwaits_le p) run i
  · obtain ⟨p, at_k, -, q, publishes, lower⟩ := publishOf_nearer own hs
    exact ⟨p, q, at_k, publishes, lower⟩
  · obtain ⟨started, grown⟩ := publishes_grow other hs
    exact ⟨started, grown, fun p _ => publishAwaits_le p⟩

theorem countP_closeOf {ls : List Label} (run : Runs step s ls u) (j : ℕ) :
    ls.countP (fun l => closeOf l = some j) ≤ 2 := by
  refine countP_party closeAwaits State.closes closeOf (fun s l u k hs own => ?_)
    (fun s l u hs other => ?_) (fun k _ => closeAwaits_le k) run j
  · obtain ⟨p, at_k, -, m, closes, lower⟩ := closeOf_nearer own hs
    exact ⟨p, m, at_k, closes, lower⟩
  · obtain ⟨started, grown⟩ := closes_grow other hs
    exact ⟨started, grown, fun k _ => closeAwaits_le k⟩

theorem follows_ofCall {awaits : Awaits} (s : State) (l : Label) (u : State)
    (follows : Follows awaits s l u) : ofCall l = true := by
  cases l with
  | publish | close | connectionLost _ | channelLost _ => cases follows
  | _ => rfl

theorem remaining_le (s : State) :
    remaining s ≤ 5 * s.publishes.length + 2 * s.closes.length :=
  Nat.add_le_add (total_le _ fun p _ => publishAwaits_le p)
    (total_le _ fun k _ => closeAwaits_le k)

end Measure

section Progress
variable {s u : State} {i j : ℕ} {p : Publish} {k : Close}

theorem connect_enabled (at_i : s.publishes[i]? = some .connecting) (outcome : Except Exn Unit) :
    ∃ u, step s (.connectEnds i outcome) = some u := by
  simp only [step, at_i, Option.bind_some]
  cases outcome <;> exact ⟨_, rfl⟩

theorem channel_enabled {c : ℕ} (at_i : s.publishes[i]? = some (.openingChannel c))
    (outcome : Except Exn Unit) : ∃ u, step s (.channelEnds i outcome) = some u := by
  simp only [step, at_i, Option.bind_some]
  cases outcome <;> exact ⟨_, rfl⟩

theorem declareExchange_enabled {ch : ℕ} (at_i : s.publishes[i]? = some (.declaring ch))
    (outcome : Except Exn Unit) : ∃ u, step s (.declareExchangeEnds i outcome) = some u := by
  simp only [step, at_i, Option.bind_some]
  cases outcome <;> exact ⟨_, rfl⟩

theorem publish_moves (awaits : Awaits) (at_i : s.publishes[i]? = some p)
    (unended : ∀ outcome, p ≠ .ended outcome) : ∃ l u, step s l = some u ∧ Follows awaits s l u := by
  have holder (q : Publish) (j : ℕ) (at_j : s.publishes[j]? = some q) (holds : q.holdsLock = true) :
      ∃ l u, step s l = some u ∧ Follows awaits s l u := by
    cases q with
    | connecting =>
      obtain ⟨u, enabled⟩ := connect_enabled at_j (awaits.connect j)
      exact ⟨_, u, enabled, rfl⟩
    | openingChannel c =>
      obtain ⟨u, enabled⟩ := channel_enabled at_j (awaits.channel j)
      exact ⟨_, u, enabled, rfl⟩
    | _ => cases holds
  cases p with
  | ended outcome => exact absurd rfl (unended outcome)
  | connecting | openingChannel c => exact holder _ i at_i rfl
  | declaring ch =>
    obtain ⟨u, enabled⟩ := declareExchange_enabled at_i (awaits.declareExchange i)
    exact ⟨_, u, enabled, rfl⟩
  | publishing ch =>
    refine ⟨.publishEnds i (awaits.publish i), s.setPublish i (.ended (awaits.publish i)), ?_, rfl⟩
    simp only [step, at_i, Option.bind_some, stepPublish]
  | waiting =>
    by_cases free : s.lockIsFree = true
    · refine ⟨.lockEnds i (.ok ()), s.setPublish i s.getConnection, ?_, rfl⟩
      simp only [step, at_i, Option.bind_some, stepLock, free, ↓reduceIte]
    · unfold State.lockIsFree at free
      rw [Bool.not_eq_true, List.all_eq_false] at free
      obtain ⟨q, mem, holds⟩ := free
      obtain ⟨j, at_j⟩ := List.getElem?_of_mem mem
      exact holder q j at_j (by simpa using holds)

theorem close_moves (awaits : Awaits) (at_j : s.closes[j]? = some k)
    (unended : ∀ outcome, k ≠ .ended outcome) : ∃ l u, step s l = some u ∧ Follows awaits s l u := by
  cases k with
  | ended outcome => exact absurd rfl (unended outcome)
  | closingChannel ch =>
    have enabled : ∃ u, step s (.channelCloseEnds j (awaits.channelClose j)) = some u := by
      simp only [step, at_j, Option.bind_some]
      cases awaits.channelClose j <;> exact ⟨_, rfl⟩
    obtain ⟨u, enabled⟩ := enabled
    exact ⟨_, u, enabled, rfl⟩
  | closingConnection c =>
    have enabled : ∃ u, step s (.connectionCloseEnds j (awaits.connectionClose j)) = some u := by
      simp only [step, at_j, Option.bind_some]
      cases awaits.connectionClose j <;> exact ⟨_, rfl⟩
    obtain ⟨u, enabled⟩ := enabled
    exact ⟨_, u, enabled, rfl⟩

theorem finished_of_halted {awaits : Awaits} (halted : Halted step (Follows awaits) s) :
    Finished s := by
  have publishes : ∀ p ∈ s.publishes, ∃ outcome, p = .ended outcome := by
    intro p mem
    by_contra unended
    obtain ⟨i, at_i⟩ := List.getElem?_of_mem mem
    obtain ⟨l, u, enabled, follows⟩ := publish_moves awaits at_i (not_exists.mp unended)
    exact halted l u enabled follows
  refine ⟨publishes, fun k mem => ?_, List.all_eq_true.mpr fun p mem => ?_⟩
  · by_contra unended
    obtain ⟨j, at_j⟩ := List.getElem?_of_mem mem
    obtain ⟨l, u, enabled, follows⟩ := close_moves awaits at_j (not_exists.mp unended)
    exact halted l u enabled follows
  · obtain ⟨outcome, rfl⟩ := publishes p mem
    rfl

/-- In every run each call of `publish` has at most five awaits and each close two. From
every state, whatever is lost meanwhile, the calls that have started stop only when all of
them have ended, and do get there, however their awaits end. -/
theorem calls_complete (s : State) (awaits : Awaits) :
    (∀ ls u, Runs step s ls u → ∀ i, ls.countP (fun l => publishOf l = some i) ≤ 5 ∧
      ls.countP (fun l => closeOf l = some i) ≤ 2) ∧
    (∀ ls u, Along step NoNewCall s ls u →
      ls.countP ofCall ≤ 5 * s.publishes.length + 2 * s.closes.length ∧
        (Halted step (Follows awaits) u → Finished u)) ∧
    ∃ ls u, Along step (Follows awaits) s ls u ∧ Finished u := by
  refine ⟨fun _ _ run i => ⟨countP_publishOf run i, countP_closeOf run i⟩, ?_, ?_⟩
  · intro ls u run
    have short := countP_le ofCall (fun _ _ _ hs quiet => noNewCall_keeps hs quiet)
      (ofCall_lowers.mono fun _ _ _ both => both.2) run
    have bound := remaining_le s
    exact ⟨by omega, finished_of_halted⟩
  · obtain ⟨ls, u, run, halted⟩ := (ofCall_lowers.mono (@follows_ofCall awaits)).exists_halted s
    exact ⟨ls, u, run, finished_of_halted halted⟩

end Progress

section Outcomes
variable {s u w : State} {i j : ℕ} {outcome : Except Exn Unit} {p q : Publish} {l : Label}

def Unended (p : Publish) : Prop := ∀ outcome, p ≠ .ended outcome

theorem getChannel_unended {c : ℕ} (held : s.connection = some c) : Unended s.getChannel := by
  unfold State.getChannel
  rw [held]
  cases s.usableChannel <;> rintro _ ⟨⟩

theorem getConnection_unended (s : State) : Unended s.getConnection := by
  unfold State.getConnection
  cases usable : s.usableConnection with
  | none => rintro _ ⟨⟩
  | some c =>
    have held : s.connection = some c := (Option.filter_eq_some_iff.mp usable).1
    exact getChannel_unended held

theorem ended_setPublish (publishes : w.publishes = s.publishes)
    (at_j : s.publishes[j]? = some p) (unended : Unended p)
    (exact_j : ∀ i outcome, endsCall l = some (i, outcome) ↔ i = j ∧ q = .ended outcome) :
    (w.setPublish j q).publishes[i]? = some (.ended outcome) ↔
      s.publishes[i]? = some (.ended outcome) ∨ endsCall l = some (i, outcome) := by
  change (w.publishes.set j q)[i]? = _ ↔ _
  rw [publishes, exact_j]
  by_cases same : i = j
  · subst same
    rw [getElem?_set_here at_j, at_j]
    constructor
    · intro h
      exact .inr ⟨rfl, Option.some.inj h⟩
    · rintro (h | ⟨-, h⟩)
      · exact absurd (Option.some.inj h) (unended outcome)
      · rw [h]
  · rw [List.getElem?_set_ne (Ne.symm same)]
    exact ⟨.inl, fun h => h.resolve_right fun both => same both.1⟩

theorem goes_on (quiet : endsCall l = none) (unended : Unended q) (i : ℕ)
    (outcome : Except Exn Unit) :
    endsCall l = some (i, outcome) ↔ i = j ∧ q = .ended outcome := by
  rw [quiet]
  exact ⟨by rintro ⟨⟩, fun both => absurd both.2 (unended outcome)⟩

theorem ends_here (ends : endsCall l = some (j, outcome)) (i : ℕ) (outcome' : Except Exn Unit) :
    endsCall l = some (i, outcome') ↔ i = j ∧ Publish.ended outcome = .ended outcome' := by
  rw [ends, Option.some.injEq, Prod.mk.injEq, Publish.ended.injEq, eq_comm (a := j)]

theorem lock_ended (at_j : s.publishes[j]? = some p) {o : Except Exn Unit}
    (hs : stepLock s j o p = some u) : u.publishes[i]? = some (.ended outcome) ↔
      s.publishes[i]? = some (.ended outcome) ∨ endsCall (.lockEnds j o) = some (i, outcome) := by
  match o, p with
  | .ok (), .waiting =>
    rw [stepLock] at hs
    split at hs <;> cases hs
    exact ended_setPublish rfl at_j (by rintro _ ⟨⟩) (goes_on rfl (getConnection_unended s))
  | .error e, .waiting =>
    cases hs
    exact ended_setPublish rfl at_j (by rintro _ ⟨⟩) (ends_here rfl)

theorem connect_ended (at_j : s.publishes[j]? = some p) {o : Except Exn Unit}
    (hs : stepConnect s j o p = some u) : u.publishes[i]? = some (.ended outcome) ↔
      s.publishes[i]? = some (.ended outcome) ∨ endsCall (.connectEnds j o) = some (i, outcome) := by
  match o, p with
  | .ok (), .connecting =>
    cases hs
    exact ended_setPublish rfl at_j (by rintro _ ⟨⟩) (goes_on rfl (getChannel_unended rfl))
  | .error e, .connecting =>
    cases hs
    exact ended_setPublish rfl at_j (by rintro _ ⟨⟩) (ends_here rfl)

theorem channel_ended (at_j : s.publishes[j]? = some p) {o : Except Exn Unit}
    (hs : stepChannel s j o p = some u) : u.publishes[i]? = some (.ended outcome) ↔
      s.publishes[i]? = some (.ended outcome) ∨ endsCall (.channelEnds j o) = some (i, outcome) := by
  match o, p with
  | .ok (), .openingChannel c =>
    cases hs
    exact ended_setPublish rfl at_j (by rintro _ ⟨⟩) (goes_on rfl (by rintro _ ⟨⟩))
  | .error e, .openingChannel _ =>
    cases hs
    exact ended_setPublish rfl at_j (by rintro _ ⟨⟩) (ends_here rfl)

theorem declareExchange_ended (at_j : s.publishes[j]? = some p) {o : Except Exn Unit}
    (hs : stepDeclareExchange s j o p = some u) : u.publishes[i]? = some (.ended outcome) ↔
      s.publishes[i]? = some (.ended outcome) ∨
        endsCall (.declareExchangeEnds j o) = some (i, outcome) := by
  match o, p with
  | .ok (), .declaring ch =>
    cases hs
    exact ended_setPublish rfl at_j (by rintro _ ⟨⟩) (goes_on rfl (by rintro _ ⟨⟩))
  | .error e, .declaring _ =>
    cases hs
    exact ended_setPublish rfl at_j (by rintro _ ⟨⟩) (ends_here rfl)

theorem publish_ended (at_j : s.publishes[j]? = some p) {o : Except Exn Unit}
    (hs : stepPublish s j o p = some u) : u.publishes[i]? = some (.ended outcome) ↔
      s.publishes[i]? = some (.ended outcome) ∨ endsCall (.publishEnds j o) = some (i, outcome) := by
  match p with
  | .publishing _ =>
    cases hs
    exact ended_setPublish rfl at_j (by rintro _ ⟨⟩) (ends_here rfl)

theorem ended_frame (publishes : u.publishes = s.publishes) (quiet : endsCall l = none) :
    u.publishes[i]? = some (.ended outcome) ↔
      s.publishes[i]? = some (.ended outcome) ∨ endsCall l = some (i, outcome) := by
  rw [publishes, quiet]
  simp only [reduceCtorEq, or_false]

theorem channelClose_publishes {k : Close} {o : Except Exn Unit}
    (hs : stepChannelClose s j o k = some u) : u.publishes = s.publishes := by
  unfold stepChannelClose at hs
  split at hs <;> cases hs <;> rfl

theorem connectionClose_publishes {k : Close} {o : Except Exn Unit}
    (hs : stepConnectionClose s j o k = some u) : u.publishes = s.publishes := by
  unfold stepConnectionClose at hs
  split at hs <;> cases hs <;> rfl

theorem step_ended (hs : step s l = some u) (i : ℕ) (outcome : Except Exn Unit) :
    u.publishes[i]? = some (.ended outcome) ↔
      s.publishes[i]? = some (.ended outcome) ∨ endsCall l = some (i, outcome) := by
  cases l with
  | publish =>
    cases hs
    constructor
    · intro at_i
      rcases getElem?_concat_cases at_i with old | ⟨-, ⟨⟩⟩
      exact .inl old
    · rintro (old | ends)
      · exact getElem?_concat_old old _
      · cases (show none = some (i, outcome) from ends)
  | close => cases hs; exact ended_frame rfl rfl
  | channelLost ch => cases hs; exact ended_frame rfl rfl
  | connectionLost c =>
    rw [step] at hs
    split at hs <;> cases hs
    exact ended_frame rfl rfl
  | lockEnds j o =>
    obtain ⟨p, at_j, hs⟩ := Option.bind_eq_some_iff.mp hs
    exact lock_ended at_j hs
  | connectEnds j o =>
    obtain ⟨p, at_j, hs⟩ := Option.bind_eq_some_iff.mp hs
    exact connect_ended at_j hs
  | channelEnds j o =>
    obtain ⟨p, at_j, hs⟩ := Option.bind_eq_some_iff.mp hs
    exact channel_ended at_j hs
  | declareExchangeEnds j o =>
    obtain ⟨p, at_j, hs⟩ := Option.bind_eq_some_iff.mp hs
    exact declareExchange_ended at_j hs
  | publishEnds j o =>
    obtain ⟨p, at_j, hs⟩ := Option.bind_eq_some_iff.mp hs
    exact publish_ended at_j hs
  | channelCloseEnds j o =>
    obtain ⟨k, at_j, hs⟩ := Option.bind_eq_some_iff.mp hs
    exact ended_frame (channelClose_publishes hs) rfl
  | connectionCloseEnds j o =>
    obtain ⟨k, at_j, hs⟩ := Option.bind_eq_some_iff.mp hs
    exact ended_frame (connectionClose_publishes hs) rfl

/-- In every run a call of `publish` has ended as its own awaits say: normally when
`exchange.publish` returned for it, and with `e` when one of its awaits raised `e`. -/
theorem ended_iff {ls : List Label} (run : Runs step initial ls u) (i : ℕ)
    (outcome : Except Exn Unit) : u.publishes[i]? = some (.ended outcome) ↔
      ∃ l ∈ ls, endsCall l = some (i, outcome) := by
  refine Runs.history (fun ls s => s.publishes[i]? = some (.ended outcome) ↔
    ∃ l ∈ ls, endsCall l = some (i, outcome)) run ?_ ?_
  · exact iff_of_false (by rintro ⟨⟩) (by simp)
  · intro ls s l u before hs
    rw [step_ended hs, before]
    simp only [List.mem_append, List.mem_singleton, or_and_right, exists_or, exists_eq_left]

end Outcomes

section Examples

def lostAndConnected : List Label :=
  [.publish, .publish, .lockEnds 0 (.ok ()), .connectEnds 0 (.ok ()), .connectionLost 0,
    .channelEnds 0 (.error .channelInvalidState), .lockEnds 1 (.ok ()), .connectEnds 1 (.ok ()),
    .channelEnds 1 (.ok ()), .declareExchangeEnds 1 (.ok ()), .publishEnds 1 (.ok ())]

theorem lostAndConnected_ended : ∃ u, Runs step initial lostAndConnected u ∧
    u.publishes[0]? = some (.ended (.error .channelInvalidState)) ∧
    u.publishes[1]? = some (.ended (.ok ())) := by
  obtain ⟨u, run⟩ : ∃ u, Runs step initial lostAndConnected u := ⟨_, Runs.of_execute rfl⟩
  refine ⟨u, run, (ended_iff run 0 _).mpr ⟨.channelEnds 0 (.error .channelInvalidState), ?_, rfl⟩,
    (ended_iff run 1 _).mpr ⟨.publishEnds 1 (.ok ()), ?_, rfl⟩⟩
  · simp [lostAndConnected]
  · simp [lostAndConnected]

end Examples

end FastapiProject.PublisherProgress
