import FastapiProject.IndexedLists
import FastapiProject.MachineRuns
import FastapiProject.PythonExceptions

set_option autoImplicit false

/-!
# The connection and the channel of the publisher

`rmq/publisher.py`, lines 24 to 96, with its calls at their awaits. Connections and channels
are numbered as they are opened. A connection that is closed stays closed, and closes its
channels. A call that raises has opened or closed nothing: what goes wrong with a connection
beside that is a loss of its own.
-/
namespace FastapiProject.PublisherConnection
open PythonExceptions IndexedLists MachineRuns

/-- Where a call of `publish` stands: before the lock, at one of the two awaits under it,
or at one of the two on its channel. -/
inductive Publish where
  | waiting
  | connecting
  | openingChannel (connection : ℕ)
  | declaring (channel : ℕ)
  | publishing (channel : ℕ)
  | ended (outcome : Except Exn Unit)

inductive Close where
  | closingChannel (channel : ℕ)
  | closingConnection (connection : ℕ)
  | ended (outcome : Except Exn Unit)

structure Channel where
  connection : ℕ
  closed : Bool

/-- `connections` holds `is_closed` of each connection; `connection` and `channel` are the
globals `_connection` and `_channel`. -/
structure State where
  connections : List Bool
  channels : List Channel
  connection : Option ℕ
  channel : Option ℕ
  publishes : List Publish
  closes : List Close

def initial : State := ⟨[], [], none, none, [], []⟩

inductive Label where
  | publish
  | lockEnds (i : ℕ) (outcome : Except Exn Unit)
  | connectEnds (i : ℕ) (outcome : Except Exn Unit)
  | channelEnds (i : ℕ) (outcome : Except Exn Unit)
  | declareExchangeEnds (i : ℕ) (outcome : Except Exn Unit)
  | publishEnds (i : ℕ) (outcome : Except Exn Unit)
  | close
  | channelCloseEnds (j : ℕ) (outcome : Except Exn Unit)
  | connectionCloseEnds (j : ℕ) (outcome : Except Exn Unit)
  | connectionLost (connection : ℕ)
  | channelLost (channel : ℕ)

def Label.leavesLock : Label → Bool
  | .lockEnds _ (.error _) | .connectEnds _ (.error _) | .channelEnds _ (.error _) => true
  | .declareExchangeEnds _ _ | .publishEnds _ _ => true
  | _ => false

def Publish.holdsLock : Publish → Bool
  | .connecting | .openingChannel _ => true
  | .waiting | .declaring _ | .publishing _ | .ended _ => false

namespace State
variable (s : State)

def connectionIsClosed (c : ℕ) : Bool := s.connections[c]?.getD true

def channelIsClosed (ch : ℕ) : Bool :=
  match s.channels[ch]? with
  | some channel => channel.closed || s.connectionIsClosed channel.connection
  | none => true

/-- `_connection`, unless it is `None` or closed. -/
def usableConnection : Option ℕ := s.connection.filter (fun c => !s.connectionIsClosed c)

def usableChannel : Option ℕ := s.channel.filter (fun ch => !s.channelIsClosed ch)

def setPublish (i : ℕ) (p : Publish) : State := { s with publishes := s.publishes.set i p }

def setClose (j : ℕ) (k : Close) : State := { s with closes := s.closes.set j k }

def lockIsFree : Bool := s.publishes.all (fun p => !p.holdsLock)

/-- `_get_channel` from its second test: where the call stands next. The lock is released
and `_channel` returned without an await. -/
def getChannel : Publish :=
  match s.usableChannel, s.connection with
  | some ch, _ => .declaring ch
  | none, some c => .openingChannel c
  | none, none => .ended (.error .attributeError)

/-- `_get_channel` from its first test. -/
def getConnection : Publish :=
  match s.usableConnection with
  | some _ => s.getChannel
  | none => .connecting

def addConnection : State :=
  { s with connections := s.connections ++ [false], connection := some s.connections.length }

def addChannel (c : ℕ) : State :=
  { s with channels := s.channels ++ [⟨c, false⟩], channel := some s.channels.length }

def closeConnection (c : ℕ) : State := { s with connections := s.connections.set c true }

def closeChannel (ch : ℕ) : State :=
  { s with channels := s.channels.modify ch (fun channel => { channel with closed := true }) }

/-- `close` from its second test: where the call stands next. -/
def closeSecond : Close :=
  match s.usableConnection with
  | some c => .closingConnection c
  | none => .ended (.ok ())

/-- `close` from its start. -/
def closeFirst : Close :=
  match s.usableChannel with
  | some ch => .closingChannel ch
  | none => s.closeSecond

def connectionOpen (c : ℕ) : Prop := s.connections[c]? = some false

instance (c : ℕ) : Decidable (s.connectionOpen c) := inferInstanceAs (Decidable (_ = _))

end State

section Step
variable (s : State)

def stepLock (i : ℕ) : Except Exn Unit → Publish → Option State
  | .ok (), .waiting => if s.lockIsFree = true then some (s.setPublish i s.getConnection) else none
  | .error e, .waiting => some (s.setPublish i (.ended (.error e)))
  | _, _ => none

def stepConnect (i : ℕ) : Except Exn Unit → Publish → Option State
  | .ok (), .connecting => some (s.addConnection.setPublish i s.addConnection.getChannel)
  | .error e, .connecting => some (s.setPublish i (.ended (.error e)))
  | _, _ => none

def stepChannel (i : ℕ) : Except Exn Unit → Publish → Option State
  | .ok (), .openingChannel c => some ((s.addChannel c).setPublish i (.declaring s.channels.length))
  | .error e, .openingChannel _ => some (s.setPublish i (.ended (.error e)))
  | _, _ => none

def stepDeclareExchange (i : ℕ) : Except Exn Unit → Publish → Option State
  | .ok (), .declaring ch => some (s.setPublish i (.publishing ch))
  | .error e, .declaring _ => some (s.setPublish i (.ended (.error e)))
  | _, _ => none

def stepPublish (i : ℕ) (outcome : Except Exn Unit) : Publish → Option State
  | .publishing _ => some (s.setPublish i (.ended outcome))
  | _ => none

def stepChannelClose (j : ℕ) : Except Exn Unit → Close → Option State
  | .ok (), .closingChannel ch => some ((s.closeChannel ch).setClose j (s.closeChannel ch).closeSecond)
  | .error e, .closingChannel _ => some (s.setClose j (.ended (.error e)))
  | _, _ => none

def stepConnectionClose (j : ℕ) : Except Exn Unit → Close → Option State
  | .ok (), .closingConnection c => some ((s.closeConnection c).setClose j (.ended (.ok ())))
  | .error e, .closingConnection _ => some (s.setClose j (.ended (.error e)))
  | _, _ => none

def step : Label → Option State
  | .publish => some { s with publishes := s.publishes ++ [.waiting] }
  | .lockEnds i outcome => s.publishes[i]?.bind (stepLock s i outcome)
  | .connectEnds i outcome => s.publishes[i]?.bind (stepConnect s i outcome)
  | .channelEnds i outcome => s.publishes[i]?.bind (stepChannel s i outcome)
  | .declareExchangeEnds i outcome => s.publishes[i]?.bind (stepDeclareExchange s i outcome)
  | .publishEnds i outcome => s.publishes[i]?.bind (stepPublish s i outcome)
  | .close => some { s with closes := s.closes ++ [s.closeFirst] }
  | .channelCloseEnds j outcome => s.closes[j]?.bind (stepChannelClose s j outcome)
  | .connectionCloseEnds j outcome => s.closes[j]?.bind (stepConnectionClose s j outcome)
  | .connectionLost c => if s.connectionOpen c then some (s.closeConnection c) else none
  | .channelLost ch => some (s.closeChannel ch)

end Step

inductive PublisherStep (s : State) : Label → State → Prop where
  | waits : PublisherStep s .publish { s with publishes := s.publishes ++ [.waiting] }
  | leaves {l : Label} {i : ℕ} {p : Publish} (quiet : p.holdsLock = false)
      (silent : ∀ ch, p ≠ .declaring ch) (leaving : l.leavesLock = true) :
    PublisherStep s l (s.setPublish i p)
  | locks {i : ℕ} (free : s.lockIsFree = true) :
    PublisherStep s (.lockEnds i (.ok ())) (s.setPublish i s.getConnection)
  | connected {i : ℕ} (at_i : s.publishes[i]? = some .connecting) :
    PublisherStep s (.connectEnds i (.ok ()))
      (s.addConnection.setPublish i s.addConnection.getChannel)
  | opened {i c : ℕ} (at_i : s.publishes[i]? = some (.openingChannel c)) :
    PublisherStep s (.channelEnds i (.ok ()))
      ((s.addChannel c).setPublish i (.declaring s.channels.length))
  | closeStarts : PublisherStep s .close { s with closes := s.closes ++ [s.closeFirst] }
  | channelClosed {j ch : ℕ} (at_j : s.closes[j]? = some (.closingChannel ch)) :
    PublisherStep s (.channelCloseEnds j (.ok ())) ((s.closeChannel ch).setClose j s.closeSecond)
  | channelCloseRaises {j ch : ℕ} {e : Exn} (at_j : s.closes[j]? = some (.closingChannel ch)) :
    PublisherStep s (.channelCloseEnds j (.error e)) (s.setClose j (.ended (.error e)))
  | connectionClosed {j c : ℕ} (at_j : s.closes[j]? = some (.closingConnection c)) :
    PublisherStep s (.connectionCloseEnds j (.ok ()))
      ((s.closeConnection c).setClose j (.ended (.ok ())))
  | connectionCloseRaises {j c : ℕ} {e : Exn}
      (at_j : s.closes[j]? = some (.closingConnection c)) :
    PublisherStep s (.connectionCloseEnds j (.error e)) (s.setClose j (.ended (.error e)))
  | connectionLost {c : ℕ} : PublisherStep s (.connectionLost c) (s.closeConnection c)
  | channelLost {ch : ℕ} : PublisherStep s (.channelLost ch) (s.closeChannel ch)

section Steps
variable {s u : State} {i j : ℕ} {outcome : Except Exn Unit} {p : Publish} {k : Close}

theorem raised_step {l : Label} (s : State) (i : ℕ) (e : Exn) (leaving : l.leavesLock = true) :
    PublisherStep s l (s.setPublish i (.ended (.error e))) :=
  .leaves rfl (by rintro ch ⟨⟩) leaving

theorem lock_step (hs : stepLock s i outcome p = some u) : PublisherStep s (.lockEnds i outcome) u := by
  match outcome, p with
  | .ok (), .waiting =>
    rw [stepLock] at hs
    split at hs
    · rename_i free
      cases hs
      exact .locks free
    · cases hs
  | .error e, .waiting =>
    cases hs
    exact raised_step s i e rfl

theorem connect_step (at_i : s.publishes[i]? = some p) (hs : stepConnect s i outcome p = some u) :
    PublisherStep s (.connectEnds i outcome) u := by
  match outcome, p with
  | .ok (), .connecting =>
    cases hs
    exact .connected at_i
  | .error e, .connecting =>
    cases hs
    exact raised_step s i e rfl

theorem channel_step (at_i : s.publishes[i]? = some p) (hs : stepChannel s i outcome p = some u) :
    PublisherStep s (.channelEnds i outcome) u := by
  match outcome, p with
  | .ok (), .openingChannel c =>
    cases hs
    exact .opened at_i
  | .error e, .openingChannel _ =>
    cases hs
    exact raised_step s i e rfl

theorem declareExchange_step (hs : stepDeclareExchange s i outcome p = some u) :
    PublisherStep s (.declareExchangeEnds i outcome) u := by
  match outcome, p with
  | .ok (), .declaring ch =>
    cases hs
    exact .leaves rfl (by rintro ch ⟨⟩) rfl
  | .error e, .declaring _ =>
    cases hs
    exact raised_step s i e rfl

theorem publish_step (hs : stepPublish s i outcome p = some u) :
    PublisherStep s (.publishEnds i outcome) u := by
  match p with
  | .publishing _ =>
    cases hs
    exact .leaves rfl (by rintro ch ⟨⟩) rfl

theorem channelClose_step (at_j : s.closes[j]? = some k)
    (hs : stepChannelClose s j outcome k = some u) :
    PublisherStep s (.channelCloseEnds j outcome) u := by
  match outcome, k with
  | .ok (), .closingChannel ch =>
    cases hs
    exact .channelClosed at_j
  | .error e, .closingChannel ch =>
    cases hs
    exact .channelCloseRaises at_j

theorem connectionClose_step (at_j : s.closes[j]? = some k)
    (hs : stepConnectionClose s j outcome k = some u) :
    PublisherStep s (.connectionCloseEnds j outcome) u := by
  match outcome, k with
  | .ok (), .closingConnection c =>
    cases hs
    exact .connectionClosed at_j
  | .error e, .closingConnection c =>
    cases hs
    exact .connectionCloseRaises at_j

theorem step_publisherStep {l : Label} (hs : step s l = some u) : PublisherStep s l u := by
  cases l with
  | publish => cases hs; exact .waits
  | close => cases hs; exact .closeStarts
  | channelLost ch => cases hs; exact .channelLost
  | connectionLost c =>
    rw [step] at hs
    split at hs
    · cases hs
      exact .connectionLost
    · cases hs
  | lockEnds i outcome =>
    obtain ⟨p, -, hs⟩ := Option.bind_eq_some_iff.mp hs
    exact lock_step hs
  | connectEnds i outcome =>
    obtain ⟨p, at_i, hs⟩ := Option.bind_eq_some_iff.mp hs
    exact connect_step at_i hs
  | channelEnds i outcome =>
    obtain ⟨p, at_i, hs⟩ := Option.bind_eq_some_iff.mp hs
    exact channel_step at_i hs
  | declareExchangeEnds i outcome =>
    obtain ⟨p, -, hs⟩ := Option.bind_eq_some_iff.mp hs
    exact declareExchange_step hs
  | publishEnds i outcome =>
    obtain ⟨p, -, hs⟩ := Option.bind_eq_some_iff.mp hs
    exact publish_step hs
  | channelCloseEnds j outcome =>
    obtain ⟨k, at_j, hs⟩ := Option.bind_eq_some_iff.mp hs
    exact channelClose_step at_j hs
  | connectionCloseEnds j outcome =>
    obtain ⟨k, at_j, hs⟩ := Option.bind_eq_some_iff.mp hs
    exact connectionClose_step at_j hs

end Steps

end FastapiProject.PublisherConnection
