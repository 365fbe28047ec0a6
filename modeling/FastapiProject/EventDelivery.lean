import FastapiProject.JsonRoundTrip
import FastapiProject.PublishedMessage
import FastapiProject.UserRequests

set_option autoImplicit false

/-!
# From the user routes to the handlers

The two `publish` calls of `routers/users.py` (lines 36 and 55), the body on the wire, and
`_process_message` with the registry that `rmq/consumer.py` (lines 42 to 51) fills.
-/
namespace FastapiProject.EventDelivery
open PythonExceptions PythonJson ConsumerMessage PublishedMessage MachineRuns UserModels
open UserRequests

section Wire
variable {depth : ℕ} {eventType publishedAt : Str} {data : JsonDict}

theorem loadsBody_encode (depth : ℕ) (text : List Char) :
    loadsBody depth (encode text) = loads depth text := by
  rw [loadsBody, decode_encode]
  rfl

theorem loads_dumps_iff (depth : ℕ) (j : Json) :
    loads depth (dumps j) = .ok j ↔ Writable depth j :=
  ⟨loads_writable, loads_dumps⟩

/-- The consumer reads a published object back exactly when it is writable. -/
theorem roundTrips_iff : RoundTrips depth eventType publishedAt data ↔
    Writable depth (.object (publishBody eventType publishedAt data)) := by
  rw [RoundTrips, loadsBody_encode, loads_dumps_iff]

theorem publishBody_nodup :
    ((publishBody eventType publishedAt data).map Prod.fst).Nodup := by
  have keys : [eventTypeKey, publishedAtKey].Nodup := by decide
  exact dictUpdate_nodup
    (d := [(eventTypeKey, .str eventType), (publishedAtKey, .str publishedAt)]) keys data.entries

theorem publishBody_writable (event : Unpaired eventType) (time : Unpaired publishedAt)
    (payload : Writable (depth + 1) (.object data.entries)) :
    Writable (depth + 1) (.object (publishBody eventType publishedAt data)) := by
  cases payload with
  | object _ keys values =>
    refine .object publishBody_nodup (fun entry found => ?_) (fun entry found => ?_)
    · rcases mem_dictUpdate found with envelope | payload
      · simp only [List.mem_cons, List.not_mem_nil, or_false] at envelope
        rcases envelope with rfl | rfl
        · exact unpaired_ofString _
        · exact unpaired_ofString _
      · exact keys entry payload
    · rcases mem_dictUpdate found with envelope | payload
      · simp only [List.mem_cons, List.not_mem_nil, or_false] at envelope
        rcases envelope with rfl | rfl
        · exact .str event
        · exact .str time
      · exact values entry payload

/-- What `_process_message` does with a published message of a writable payload. -/
theorem processMessage_publish {H : Type} (handlers : Handlers H)
    (run : H → Json → Except Exn Unit) (routingKey : Option Str) (event : Unpaired eventType)
    (time : Unpaired publishedAt) (payload : Writable (depth + 1) (.object data.entries))
    (own : dictGet data.entries eventTypeKey = none) (d : Delivery) :
    processMessage (depth + 1) handlers run
        (publish eventType publishedAt data routingKey).1.body d =
      match dictGet handlers eventType with
      | none => settle .ack d
      | some handler => process false
          (executeHandler (run handler (.object (publishBody eventType publishedAt data)))) d := by
  have read : loadsBody (depth + 1) (publish eventType publishedAt data routingKey).1.body =
      .ok (.object (publishBody eventType publishedAt data)) :=
    roundTrips_iff.mpr (publishBody_writable event time payload)
  have written := publishBody_eventType eventType publishedAt data
  rw [own, Option.getD_none] at written
  have named : bodyEventType (.object (publishBody eventType publishedAt data)) =
      .ok (.str eventType) := by
    change Except.ok ((dictGet _ eventTypeKey).getD defaultEventType) = _
    rw [written, Option.getD_some]
  rw [processMessage, read]
  simp only [route, named, handlersGet, bind, Except.bind]
  cases dictGet handlers eventType <;> rfl

end Wire

section UserEvents

def idKey : Str := ofString "id"
def emailKey : Str := ofString "email"
def roleKey : Str := ofString "role"

/-- The payloads that `create_user` and `delete_user` publish. -/
def eventData : UserEvent String → JsonDict
  | .created id email role =>
    ⟨[(idKey, .str (ofString id)), (emailKey, .str (ofString email)),
      (roleKey, .str (ofString role))], show [idKey, emailKey, roleKey].Nodup by decide⟩
  | .deleted id => ⟨[(idKey, .str (ofString id))], List.pairwise_singleton _ idKey⟩

def publishEvent (event : UserEvent String) (publishedAt : String) : Message × Str :=
  publish (ofString event.eventType) (ofString publishedAt) (eventData event) none

inductive Handler where
  | handleUserCreated
  | handleJobRequested
  deriving DecidableEq, Repr

/-- `_handlers` once the module has been imported. -/
def handlers : Handlers Handler :=
  registerHandler (registerHandler [] (ofString "user.created") .handleUserCreated)
    (ofString "job.requested") .handleJobRequested

def eventBody (event : UserEvent String) (publishedAt : String) : List (Str × Json) :=
  publishBody (ofString event.eventType) (ofString publishedAt) (eventData event)

theorem eventData_writable (depth : ℕ) (event : UserEvent String) :
    Writable (depth + 1) (.object (eventData event).entries) := by
  refine .object (eventData event).nodup ?_ ?_
  · cases event <;>
      simp only [eventData, List.mem_cons, List.not_mem_nil, or_false, forall_eq_or_imp, forall_eq]
    · exact ⟨unpaired_ofString _, unpaired_ofString _, unpaired_ofString _⟩
    · exact unpaired_ofString _
  · cases event <;>
      simp only [eventData, List.mem_cons, List.not_mem_nil, or_false, forall_eq_or_imp, forall_eq]
    · exact ⟨.str (unpaired_ofString _), .str (unpaired_ofString _), .str (unpaired_ofString _)⟩
    · exact .str (unpaired_ofString _)

theorem eventData_eventType (event : UserEvent String) :
    dictGet (eventData event).entries eventTypeKey = none := by
  cases event <;> rfl

theorem handlers_eventType (event : UserEvent String) :
    dictGet handlers (ofString event.eventType) =
      match event with
      | .created _ _ _ => some .handleUserCreated
      | .deleted _ => none := by
  cases event with
  | created =>
    change dictGet handlers (ofString "user.created") = some .handleUserCreated
    decide
  | deleted =>
    change dictGet handlers (ofString "user.deleted") = none
    decide

theorem eventBody_get {event : UserEvent String} {publishedAt : String} {key : Str} {item : Json}
    (found : dictGet (eventData event).entries key = some item) :
    dictGet (eventBody event publishedAt) key = some item :=
  publishBody_payload _ _ _ found

theorem eventBody_eventType (event : UserEvent String) (publishedAt : String) :
    dictGet (eventBody event publishedAt) eventTypeKey =
      some (.str (ofString event.eventType)) := by
  have written := publishBody_eventType (ofString event.eventType) (ofString publishedAt)
    (eventData event)
  rw [eventData_eventType, Option.getD_none] at written
  exact written

end UserEvents

section Stored
variable {UserId Time : Type}

def Describes (user : User UserId Time) : UserEvent UserId → Prop
  | .created id email role => user.id = id ∧ user.email = email ∧ user.role = role
  | .deleted _ => True

def Request.waits (r : Request UserId Time) (event : UserEvent UserId) : Prop :=
  ∃ response, r.publishing = some (event, response)

variable [DecidableEq UserId]

structure Described (s : State UserId Time) : Prop where
  known : Known s
  published : ∀ event ∈ s.published, ∀ user, dictGet s.fakeUsersDb event.id = some user →
    Describes user event
  waiting : ∀ r ∈ s.requests, ∀ event, Request.waits r event →
    ∀ user, dictGet s.fakeUsersDb event.id = some user → Describes user event

variable {s u : State UserId Time} {l : Label UserId Time}

theorem described_initial (db : Dict UserId (User UserId Time)) : Described (initial db) where
  known := known_initial db
  published := by rintro _ ⟨⟩
  waiting := by rintro _ ⟨⟩

omit [DecidableEq UserId] in
theorem not_waits_unpublished {r : Request UserId Time} (h : r.Unpublished)
    (event : UserEvent UserId) : ¬ Request.waits r event := by
  rintro ⟨response, waiting⟩
  rw [h.1] at waiting
  cases waiting

theorem Described.waiting_set (h : Described s) (i : ℕ) {r' : Request UserId Time}
    (new : ∀ event, Request.waits r' event → ∀ user,
      dictGet s.fakeUsersDb event.id = some user → Describes user event) :
    ∀ r ∈ s.requests.set i r', ∀ event, Request.waits r event →
      ∀ user, dictGet s.fakeUsersDb event.id = some user → Describes user event := by
  intro r mem event waits user found
  rcases List.mem_or_eq_of_mem_set mem with old | rfl
  · exact h.waiting r old event waits user found
  · exact new event waits user found

theorem described_creates {user : User UserId Time}
    (fresh : user.id ∉ s.issuedIds) {event : UserEvent UserId}
    (old : event.id ∈ s.issuedIds) (before : ∀ u, dictGet s.fakeUsersDb event.id = some u →
      Describes u event) (u : User UserId Time)
    (found : dictGet (dictSet s.fakeUsersDb user.id user) event.id = some u) :
    Describes u event := by
  have other : user.id ≠ event.id := fun same => fresh (same ▸ old)
  rw [dictGet_dictSet, if_neg other] at found
  exact before u found

theorem described_step (h : Described s) (hs : UserStep s l u) : Described u := by
  have known := known_step h.known hs
  cases hs with
  | creates user fresh =>
    refine ⟨known, fun event mem found => ?_, fun r mem event waits found => ?_⟩
    · exact described_creates fresh (h.known.published event mem) (h.published event mem) found
    · rcases List.mem_append.mp mem with old | added
      · obtain ⟨response, publishing⟩ := waits
        exact described_creates fresh (h.known.users r old _ (publishing_user publishing))
          (h.waiting r old event ⟨response, publishing⟩) found
      · cases List.mem_singleton.mp added
        obtain ⟨response, publishing⟩ := waits
        cases publishing
        intro stored
        change dictGet (dictSet _ _ _) user.id = some found at stored
        rw [dictGet_dictSet, if_pos rfl] at stored
        cases stored
        exact ⟨rfl, rfl, rfl⟩
  | opens _ unpublished _ =>
    refine ⟨known, h.published, fun r mem event waits => ?_⟩
    rcases List.mem_append.mp mem with old | added
    · exact h.waiting r old event waits
    · cases List.mem_singleton.mp added
      exact absurd waits (not_waits_unpublished unpublished event)
  | checks _ _ _ after _ =>
    exact ⟨known, h.published, h.waiting_set _ fun event waits =>
      absurd waits (not_waits_unpublished after event)⟩
  | @pops i id at_i =>
    have fewer {event : UserEvent UserId} {user : User UserId Time}
        (found : dictGet (dictPop s.fakeUsersDb id) event.id = some user) :
        dictGet s.fakeUsersDb event.id = some user := by
      rw [dictGet_dictPop] at found
      split at found
      · cases found
      · exact found
    refine ⟨known, fun event mem user found => h.published event mem user (fewer found), ?_⟩
    intro r mem event waits user found
    rcases List.mem_or_eq_of_mem_set mem with old | rfl
    · exact h.waiting r old event waits user (fewer found)
    · obtain ⟨response, publishing⟩ := waits
      cases publishing
      trivial
  | @publishes i r event response at_i waiting =>
    refine ⟨known, fun event' mem => ?_, h.waiting_set _ fun event' waits => ?_⟩
    · rcases List.mem_append.mp mem with old | added
      · exact h.published event' old
      · cases List.mem_singleton.mp added
        exact h.waiting r (List.mem_of_getElem? at_i) event ⟨response, waiting⟩
    · obtain ⟨_, publishing⟩ := waits
      cases publishing
  | raises at_i waiting =>
    refine ⟨known, h.published, h.waiting_set _ fun event' waits => ?_⟩
    obtain ⟨_, publishing⟩ := waits
    cases publishing

theorem described_run {ops : StrOps} {db : Dict UserId (User UserId Time)}
    {ls : List (Label UserId Time)} (run : Runs (step ops) (initial db) ls s) : Described s :=
  run.invariant Described (described_initial db)
    (fun _ _ _ h enabled => described_step h (step_userStep enabled))

end Stored

/-- What becomes of an event at the consumer: a creation goes to its handler, which sees
the record as it is stored, and a deletion is acked with no handler at all. -/
def Delivered {Time : Type} (s : State String Time) (publishedAt : String) (depth : ℕ)
    (run : Handler → Json → Except Exn Unit) (d : Delivery) (event : UserEvent String) : Prop :=
  let done := processMessage depth handlers run (publishEvent event publishedAt).1.body d
  match event with
  | .created id email role => ∃ body,
      done = process false (executeHandler (run .handleUserCreated (.object body))) d ∧
      dictGet body eventTypeKey = some (.str (ofString "user.created")) ∧
      dictGet body idKey = some (.str (ofString id)) ∧
      dictGet body emailKey = some (.str (ofString email)) ∧
      dictGet body roleKey = some (.str (ofString role)) ∧
      ∀ user, dictGet s.fakeUsersDb id = some user →
        user.id = id ∧ user.email = email ∧ user.role = role
  | .deleted _ => done = settle .ack d

/-- In every reachable state of the user routes, each event that has been published is
read back by the consumer and delivered, for any handlers and on any delivery. -/
theorem published_delivered {Time : Type} {ops : StrOps} {db : Dict String (User String Time)}
    {ls : List (Label String Time)} {s : State String Time}
    (requests : Runs (step ops) (initial db) ls s) (event : UserEvent String)
    (mem : event ∈ s.published) (publishedAt : String) (depth : ℕ)
    (run : Handler → Json → Except Exn Unit) (d : Delivery) :
    Delivered s publishedAt (depth + 1) run d event := by
  have described := (described_run requests).published event mem
  have processed := processMessage_publish handlers run none
    (unpaired_ofString event.eventType) (unpaired_ofString publishedAt)
    (eventData_writable depth event) (eventData_eventType event) d
  rw [handlers_eventType] at processed
  cases event with
  | created id email role =>
    exact ⟨eventBody (.created id email role) publishedAt, processed,
      eventBody_eventType (.created id email role) publishedAt, eventBody_get rfl,
      eventBody_get rfl, eventBody_get rfl, described⟩
  | deleted id => exact processed

theorem ann_delivered : ∃ s : State String Unit,
    Runs (step asciiOps) (initial ⟨[], List.nodup_nil⟩)
      [.post ann "u1" (), .publishEnds 0 (.ok ())] s ∧
    s.published = [.created "u1" "ann@example.com" "admin"] ∧
    Delivered s "2026-07-10T12:00:00" 1 (fun _ _ => .ok ()) { channel := .opened }
      (.created "u1" "ann@example.com" "admin") := by
  obtain ⟨s, run, published⟩ : ∃ s : State String Unit,
      Runs (step asciiOps) (initial ⟨[], List.nodup_nil⟩)
        [.post ann "u1" (), .publishEnds 0 (.ok ())] s ∧
      s.published = [.created "u1" "ann@example.com" "admin"] :=
    ⟨_, Runs.of_execute rfl, by decide⟩
  refine ⟨s, run, published, published_delivered run _ ?_ _ 0 _ _⟩
  rw [published]
  exact List.mem_singleton_self _

end FastapiProject.EventDelivery
