import Mathlib.Logic.Function.Basic
import FastapiProject.ConsumerMessage
import FastapiProject.HealthChecker
import FastapiProject.MachineRuns
import FastapiProject.PythonImports

set_option autoImplicit false

/-!
# Which copy of the module state an importer is bound to

The import lines of the application, and a run of it in which every reader and writer
goes to the instance that its own imports lead to.
-/
namespace FastapiProject.ModuleInstances
open MachineRuns PythonExceptions PythonJson PythonImports HealthChecker
open ConsumerMessage (Handlers registerHandler)

inductive Root where
  | fastapiApp
  | bare
  deriving DecidableEq, Repr

inductive File where
  | main
  | coreStore
  | coreJobs
  | rmqInit
  | rmqConsumer
  | rmqHealth
  | rmqPublisher
  | routersInit
  | routersHealth
  | routersUsers
  | routersJobs
  | userHandlers
  deriving DecidableEq, Repr

/-- The module-level names that lead to shared state; `userHandlers` is a module as the
README shows it. -/
inductive Name where
  | activeConnections
  | broadcastWs
  | dispatchJob
  | rmqConsumer
  | registerHandler
  | handlers
  | rmqHealth
  | rmqHealthChecker
  | publish
  | close
  | connection
  | healthRouter
  | usersRouter
  | jobsRouter
  deriving DecidableEq, Repr

def application : Package Root File Name where
  defines
    | .coreStore => [.activeConnections, .broadcastWs]
    | .coreJobs => [.dispatchJob]
    | .rmqConsumer => [.rmqConsumer, .registerHandler, .handlers]
    | .rmqHealth => [.rmqHealth, .rmqHealthChecker]
    | .rmqPublisher => [.publish, .close, .connection]
    | .routersHealth => [.healthRouter]
    | .routersUsers => [.usersRouter]
    | .routersJobs => [.jobsRouter]
    | .main | .rmqInit | .routersInit | .userHandlers => []
  imports
    | .main => [
      ⟨.absolute .fastapiApp, .coreStore, [.activeConnections, .broadcastWs]⟩,
      ⟨.absolute .fastapiApp, .rmqInit, [.rmqConsumer, .rmqHealthChecker]⟩,
      ⟨.absolute .fastapiApp, .rmqPublisher, [.close]⟩,
      ⟨.absolute .fastapiApp, .routersInit, [.healthRouter, .jobsRouter, .usersRouter]⟩]
    | .coreJobs => [⟨.absolute .bare, .coreStore, [.broadcastWs]⟩]
    | .rmqInit => [
      ⟨.relative, .rmqConsumer, [.rmqConsumer, .registerHandler]⟩,
      ⟨.relative, .rmqHealth, [.rmqHealth, .rmqHealthChecker]⟩]
    | .rmqConsumer => [⟨.absolute .fastapiApp, .rmqHealth, [.rmqHealth]⟩]
    | .routersInit => [
      ⟨.relative, .routersHealth, [.healthRouter]⟩,
      ⟨.relative, .routersUsers, [.usersRouter]⟩,
      ⟨.relative, .routersJobs, [.jobsRouter]⟩]
    | .routersHealth => [⟨.absolute .bare, .rmqHealth, [.rmqHealth]⟩]
    | .routersUsers => [⟨.absolute .bare, .rmqPublisher, [.publish]⟩]
    | .routersJobs => [⟨.absolute .bare, .coreJobs, [.dispatchJob]⟩]
    | .userHandlers => [⟨.absolute .bare, .rmqConsumer, [.registerHandler]⟩]
    | .coreStore | .rmqHealth | .rmqPublisher => []

/-- The state behind a path of names, from the module that the server loads as `main`. -/
def bound (root : Root) (path : List Name) : Option (ModuleInstance Root File) :=
  application.follow 3 ⟨root, .main⟩ path

def healthOfChecker (root : Root) : Option (ModuleInstance Root File) :=
  bound root [.rmqHealthChecker, .rmqHealth]

def healthOfConsumer (root : Root) : Option (ModuleInstance Root File) :=
  bound root [.rmqConsumer, .rmqHealth]

/-- `active_connections` as `websocket_endpoint` appends to it. -/
def connectionsOfEndpoint (root : Root) : Option (ModuleInstance Root File) :=
  bound root [.activeConnections]

def connectionsOfJob (root : Root) : Option (ModuleInstance Root File) :=
  bound root [.jobsRouter, .dispatchJob, .broadcastWs, .activeConnections]

/-- `_connection` as the `publish` of the user routes opens it. -/
def connectionOfRoute (root : Root) : Option (ModuleInstance Root File) :=
  bound root [.usersRouter, .publish, .connection]

def connectionOfLifespan (root : Root) : Option (ModuleInstance Root File) :=
  bound root [.close, .connection]

def handlersOfUser (root : Root) : Option (ModuleInstance Root File) :=
  application.follow 3 ⟨root, .userHandlers⟩ [.registerHandler, .handlers]

section Bindings
variable (root : Root)

@[simp] theorem connectionsOfEndpoint_eq :
    connectionsOfEndpoint root = some ⟨.fastapiApp, .coreStore⟩ := by
  cases root <;> rfl

@[simp] theorem connectionsOfJob_eq : connectionsOfJob root = some ⟨.bare, .coreStore⟩ := by
  cases root <;> rfl

end Bindings

variable {Ws H Time : Type}

/-- The shared state by the module instance that holds it; publisher connections are
numbered as they are opened. -/
structure State (Ws H Time : Type) where
  rmqHealth : ModuleInstance Root File → RMQHealthState Time
  activeConnections : ModuleInstance Root File → List Ws
  connection : ModuleInstance Root File → Option ℕ
  isOpen : ℕ → Bool
  opened : ℕ
  handlers : ModuleInstance Root File → Handlers H

/-- Every instance of the consumer module registers its own example handlers. -/
def State.initial (exampleHandlers : Handlers H) : State Ws H Time where
  rmqHealth _ := {}
  activeConnections _ := []
  connection _ := none
  isOpen _ := false
  opened := 0
  handlers _ := exampleHandlers

inductive Event (Ws H Time : Type) where
  | healthTick (result : ProbeResult) (now : Time)
  | channelError
  | getHealth
  | wsConnect (ws : Ws)
  | wsDisconnect (ws : Ws)
  | jobCompletes
  | publish
  | register (eventType : Str) (fn : H)
  | shutdown

namespace State
variable (s : State Ws H Time) (m : ModuleInstance Root File)

def updateHealth (f : RMQHealthState Time → RMQHealthState Time) : State Ws H Time :=
  { s with rmqHealth := Function.update s.rmqHealth m (f (s.rmqHealth m)) }

def setConnections (active : List Ws) : State Ws H Time :=
  { s with activeConnections := Function.update s.activeConnections m active }

def getChannel : State Ws H Time :=
  if (s.connection m).any s.isOpen = true then s
  else { s with
    connection := Function.update s.connection m (some s.opened)
    isOpen := Function.update s.isOpen s.opened true
    opened := s.opened + 1 }

def close : State Ws H Time :=
  match s.connection m with
  | some c => { s with isOpen := Function.update s.isOpen c false }
  | none => s

def register (eventType : Str) (fn : H) : State Ws H Time :=
  { s with handlers := Function.update s.handlers m (registerHandler (s.handlers m) eventType fn) }

section Other
variable {s m} {k : ModuleInstance Root File} (ne : k ≠ m)
include ne

end Other

end State

section Step
variable [DecidableEq Ws] (root : Root)

def step (s : State Ws H Time) : Event Ws H Time → Option (State Ws H Time)
  | .healthTick result now =>
    (healthOfChecker root).map fun m => s.updateHealth m fun h => (checkerTick h result now).1
  | .channelError => (healthOfConsumer root).map fun m => s.updateHealth m channelErrorBranch
  | .getHealth => some s
  | .wsConnect ws =>
    (connectionsOfEndpoint root).map fun m => s.setConnections m (s.activeConnections m ++ [ws])
  | .wsDisconnect ws =>
    (connectionsOfEndpoint root).map fun m =>
      match listRemove (s.activeConnections m) ws with
      | .ok rest => s.setConnections m rest
      | .error _ => s
  | .jobCompletes => some s
  | .publish => (connectionOfRoute root).map s.getChannel
  | .register eventType fn => (handlersOfUser root).map fun m => s.register m eventType fn
  | .shutdown => (connectionOfLifespan root).map s.close

end Step

section Laws
variable (isoformat : Time → String) (root : Root)

end Laws

section Runs
variable [DecidableEq Ws] {root : Root} {s u : State Ws H Time} {e : Event Ws H Time}

end Runs

section Examples

abbrev fresh : State ℕ Unit ℕ := State.initial []

end Examples

end FastapiProject.ModuleInstances
