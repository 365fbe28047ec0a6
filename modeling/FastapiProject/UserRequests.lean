import FastapiProject.IndexedLists
import FastapiProject.MachineRuns
import FastapiProject.PythonExceptions
import FastapiProject.UserModels

set_option autoImplicit false

/-!
# User requests over one shared store

`routers/users.py` with the dependencies of `core/dependencies.py`. The dependencies run
in the thread pool and `publish` is awaited, so a request stands before a dependency,
before its body, or at its publish while others go on.
-/
namespace FastapiProject.UserRequests
open PythonExceptions IndexedLists UserModels

variable {UserId Time : Type}

structure User (UserId Time : Type) where
  id : UserId
  createdAt : Time
  name : String
  email : String
  age : ℤ
  role : String
  deriving DecidableEq, Repr

inductive UserEvent (UserId : Type) where
  | created (id : UserId) (email role : String)
  | deleted (id : UserId)
  deriving DecidableEq, Repr

namespace UserEvent

def eventType : UserEvent UserId → String
  | created _ _ _ => "user.created"
  | deleted _ => "user.deleted"

def id : UserEvent UserId → UserId
  | created id _ _ | deleted id => id

end UserEvent

inductive Response (UserId Time : Type) where
  | created (user : User UserId Time)
  | listed (users : List (User UserId Time))
  | got (user : User UserId Time)
  | deleted (id : UserId)
  deriving DecidableEq, Repr

/-- Where a request stands: `checking` and `getting` before `get_current_user`,
`admitting` before `require_admin`, `deleting` before the body of `delete_user`. -/
inductive Request (UserId Time : Type) where
  | creating (user : User UserId Time)
  | getting (id : UserId)
  | checking (id : UserId)
  | admitting (id : UserId) (user : User UserId Time)
  | deleting (id : UserId)
  | deletePublishing (id : UserId) (popped : Option (User UserId Time))
  | rejected (errors : List FieldError)
  | ended (outcome : Except Exn (Response UserId Time))

/-- `issuedIds` are the keys that the store started with and the results of `uuid4`. -/
structure State (UserId Time : Type) where
  fakeUsersDb : List (UserId × User UserId Time)
  issuedIds : List UserId
  requests : List (Request UserId Time)
  published : List (UserEvent UserId)

def initial (db : Dict UserId (User UserId Time)) : State UserId Time :=
  ⟨db.entries, db.entries.map Prod.fst, [], []⟩

inductive Label (UserId Time : Type) where
  | post (body : UserBody) (id : UserId) (now : Time)
  | list
  | get (id : UserId)
  | delete (id : UserId)
  | getCurrentUser (i : ℕ)
  | requireAdmin (i : ℕ)
  | popUser (i : ℕ)
  | publishEnds (i : ℕ) (outcome : Except Exn Unit)

def Request.publishing : Request UserId Time → Option (UserEvent UserId × Response UserId Time)
  | .creating user => some (.created user.id user.email user.role, .created user)
  | .deletePublishing id _ => some (.deleted id, .deleted id)
  | _ => none

def requireAdmin (user : User UserId Time) : Except Exn (User UserId Time) :=
  if user.role ≠ "admin" then .error (.httpException 403 "Admin only") else .ok user

namespace State
variable (s : State UserId Time)

def addRequest (r : Request UserId Time) : State UserId Time :=
  { s with requests := s.requests ++ [r] }

def setRequest (i : ℕ) (r : Request UserId Time) : State UserId Time :=
  { s with requests := s.requests.set i r }

def publishReturned (i : ℕ) (event : UserEvent UserId) (response : Response UserId Time) :
    State UserId Time :=
  { s with published := s.published ++ [event] }.setRequest i (.ended (.ok response))

end State

section Step
variable [DecidableEq UserId] (ops : StrOps) (s : State UserId Time)

/-- A record is a dictionary with entries, so `if not user` asks for a missing one only. -/
def getCurrentUser (db : List (UserId × User UserId Time)) (id : UserId) :
    Except Exn (User UserId Time) :=
  match dictGet db id with
  | none => .error (.httpException 404 "User not found")
  | some user => .ok user

/-- `create_user` up to its publish. -/
def createUser (body : UserCreate) (id : UserId) (now : Time) : State UserId Time :=
  let user : User UserId Time := ⟨id, now, body.name, body.email, body.age, body.role⟩
  { s with fakeUsersDb := dictSet s.fakeUsersDb id user, issuedIds := id :: s.issuedIds }.addRequest
    (.creating user)

/-- `delete_user` up to its publish. -/
def deleteUser (i : ℕ) (id : UserId) : State UserId Time :=
  { s with fakeUsersDb := dictPop s.fakeUsersDb id }.setRequest i
    (.deletePublishing id (dictGet s.fakeUsersDb id))

def stepGetCurrentUser (i : ℕ) : Request UserId Time → Option (State UserId Time)
  | .getting id =>
    some (s.setRequest i (.ended ((getCurrentUser s.fakeUsersDb id).map .got)))
  | .checking id =>
    match getCurrentUser s.fakeUsersDb id with
    | .ok user => some (s.setRequest i (.admitting id user))
    | .error e => some (s.setRequest i (.ended (.error e)))
  | _ => none

def stepRequireAdmin (i : ℕ) : Request UserId Time → Option (State UserId Time)
  | .admitting id user =>
    match requireAdmin user with
    | .ok _ => some (s.setRequest i (.deleting id))
    | .error e => some (s.setRequest i (.ended (.error e)))
  | _ => none

def stepPublish (i : ℕ) (r : Request UserId Time) : Except Exn Unit → Option (State UserId Time)
  | .ok () => r.publishing.map fun (event, response) => s.publishReturned i event response
  | .error e => r.publishing.map fun _ => s.setRequest i (.ended (.error e))

def step : Label UserId Time → Option (State UserId Time)
  | .post body id now =>
    match validate ops body with
    | .error errors => some (s.addRequest (.rejected errors))
    | .ok body => if id ∈ s.issuedIds then none else some (createUser s body id now)
  | .list => some (s.addRequest (.ended (.ok (.listed (s.fakeUsersDb.map Prod.snd)))))
  | .get id => some (s.addRequest (.getting id))
  | .delete id => some (s.addRequest (.checking id))
  | .getCurrentUser i => s.requests[i]?.bind (stepGetCurrentUser s i)
  | .requireAdmin i => s.requests[i]?.bind (stepRequireAdmin s i)
  | .popUser i => s.requests[i]?.bind fun
    | .deleting id => some (deleteUser s i id)
    | _ => none
  | .publishEnds i outcome => s.requests[i]?.bind fun r => stepPublish s i r outcome

end Step

def eventsFor [DecidableEq UserId] (s : State UserId Time) (id : UserId) : List String :=
  (s.published.filter (fun event => event.id = id)).map UserEvent.eventType

section Fields
variable (s : State UserId Time) (i : ℕ) (r : Request UserId Time)
  (event : UserEvent UserId) (response : Response UserId Time)

@[simp] theorem addRequest_requests : (s.addRequest r).requests = s.requests ++ [r] := rfl

@[simp] theorem setRequest_requests : (s.setRequest i r).requests = s.requests.set i r := rfl

@[simp] theorem publishReturned_requests : (s.publishReturned i event response).requests =
    s.requests.set i (.ended (.ok response)) := rfl

@[simp] theorem publishReturned_issuedIds :
    (s.publishReturned i event response).issuedIds = s.issuedIds := rfl

variable [DecidableEq UserId] (id k : UserId)

@[simp] theorem deleteUser_requests : (deleteUser s i k).requests =
    s.requests.set i (.deletePublishing k (dictGet s.fakeUsersDb k)) := rfl

theorem eventsFor_publish : eventsFor (s.publishReturned i event response) id =
    if event.id = id then eventsFor s id ++ [event.eventType] else eventsFor s id := by
  change List.map _ (List.filter _ (s.published ++ [event])) = _
  rw [List.filter_append, List.map_append]
  by_cases same : event.id = id
  · simp [eventsFor, same]
  · simp [eventsFor, same]

end Fields

def Request.user? : Request UserId Time → Option UserId
  | .creating user => some user.id
  | .admitting id _ | .deleting id | .deletePublishing id _ => some id
  | _ => none

def Request.Unpublished (r : Request UserId Time) : Prop :=
  r.publishing = none ∧ ∀ id, r ≠ .ended (.ok (.deleted id))

inductive UserStep [DecidableEq UserId] (s : State UserId Time) :
    Label UserId Time → State UserId Time → Prop where
  | creates {body : UserBody} {now : Time} (user : User UserId Time)
      (fresh : user.id ∉ s.issuedIds) :
    UserStep s (.post body user.id now) (State.addRequest
      { s with
        fakeUsersDb := dictSet s.fakeUsersDb user.id user
        issuedIds := user.id :: s.issuedIds } (.creating user))
  | opens {l : Label UserId Time} {r : Request UserId Time}
      (quiet : ∀ i outcome, l ≠ .publishEnds i outcome) (unpublished : r.Unpublished)
      (anonymous : r.user? = none) : UserStep s l (s.addRequest r)
  | checks {l : Label UserId Time} {i : ℕ} {r r' : Request UserId Time}
      (quiet : ∀ i outcome, l ≠ .publishEnds i outcome)
      (at_i : s.requests[i]? = some r) (before : r.Unpublished) (after : r'.Unpublished)
      (admitted : ∀ id, r'.user? = some id → r.user? = some id ∨ dictGet s.fakeUsersDb id ≠ none) :
    UserStep s l (s.setRequest i r')
  | pops {i : ℕ} {id : UserId} (at_i : s.requests[i]? = some (.deleting id)) :
    UserStep s (.popUser i) (deleteUser s i id)
  | publishes {i : ℕ} {r : Request UserId Time} {event : UserEvent UserId}
      {response : Response UserId Time} (at_i : s.requests[i]? = some r)
      (waiting : r.publishing = some (event, response)) :
    UserStep s (.publishEnds i (.ok ())) (s.publishReturned i event response)
  | raises {i : ℕ} {r : Request UserId Time} {sent : UserEvent UserId × Response UserId Time}
      {e : Exn} (at_i : s.requests[i]? = some r) (waiting : r.publishing = some sent) :
    UserStep s (.publishEnds i (.error e)) (s.setRequest i (.ended (.error e)))

section Steps
variable [DecidableEq UserId] {ops : StrOps} {s u : State UserId Time} {l : Label UserId Time}

omit [DecidableEq UserId] in
theorem unpublished_raised (e : Exn) :
    (Request.ended (.error e) : Request UserId Time).Unpublished := ⟨rfl, by rintro _ ⟨⟩⟩

theorem getCurrentUser_ok {db : List (UserId × User UserId Time)} {id : UserId}
    {user : User UserId Time} (h : getCurrentUser db id = .ok user) : dictGet db id = some user := by
  rw [getCurrentUser] at h
  split at h
  · cases h
  · rename_i found
    rw [found, Except.ok.inj h]

omit [DecidableEq UserId] in
theorem requireAdmin_ok_iff {user : User UserId Time} :
    requireAdmin user = .ok user ↔ user.role = "admin" := by
  rw [requireAdmin]
  split
  · rename_i other
    exact iff_of_false (by rintro ⟨⟩) other
  · rename_i admin
    exact iff_of_true rfl (not_not.mp admin)

theorem getCurrentUser_step {i : ℕ} {r : Request UserId Time} (at_i : s.requests[i]? = some r)
    (hs : stepGetCurrentUser s i r = some u) : UserStep s (.getCurrentUser i) u := by
  have quiet (j : ℕ) (outcome : Except Exn Unit) :
      (.getCurrentUser i : Label UserId Time) ≠ .publishEnds j outcome := by rintro ⟨⟩
  cases r with
  | getting id =>
    cases hs
    refine .checks quiet at_i ⟨rfl, by rintro _ ⟨⟩⟩ ⟨rfl, fun k => ?_⟩ (by rintro _ ⟨⟩)
    cases getCurrentUser s.fakeUsersDb id <;> rintro ⟨⟩
  | checking id =>
    have before : (.checking id : Request UserId Time).Unpublished := ⟨rfl, by rintro _ ⟨⟩⟩
    rw [stepGetCurrentUser] at hs
    split at hs
    · rename_i user found
      cases hs
      refine .checks quiet at_i before ⟨rfl, by rintro _ ⟨⟩⟩ ?_
      rintro _ ⟨⟩
      rw [getCurrentUser_ok found]
      exact .inr (by rintro ⟨⟩)
    · cases hs
      exact .checks quiet at_i before (unpublished_raised _) (by rintro _ ⟨⟩)
  | _ => cases hs

theorem requireAdmin_step {i : ℕ} {r : Request UserId Time} (at_i : s.requests[i]? = some r)
    (hs : stepRequireAdmin s i r = some u) : UserStep s (.requireAdmin i) u := by
  have quiet (j : ℕ) (outcome : Except Exn Unit) :
      (.requireAdmin i : Label UserId Time) ≠ .publishEnds j outcome := by rintro ⟨⟩
  cases r with
  | admitting id user =>
    have before : (.admitting id user : Request UserId Time).Unpublished := ⟨rfl, by rintro _ ⟨⟩⟩
    rw [stepRequireAdmin] at hs
    split at hs
    · cases hs
      exact .checks quiet at_i before ⟨rfl, by rintro _ ⟨⟩⟩ (fun _ h => .inl h)
    · cases hs
      exact .checks quiet at_i before (unpublished_raised _) (by rintro _ ⟨⟩)
  | _ => cases hs

theorem publish_step {i : ℕ} {r : Request UserId Time} {outcome : Except Exn Unit}
    (at_i : s.requests[i]? = some r) (hs : stepPublish s i r outcome = some u) :
    UserStep s (.publishEnds i outcome) u := by
  cases outcome with
  | ok _ =>
    obtain ⟨⟨event, response⟩, waiting, rfl⟩ := Option.map_eq_some_iff.mp hs
    exact .publishes at_i waiting
  | error e =>
    obtain ⟨sent, waiting, rfl⟩ := Option.map_eq_some_iff.mp hs
    exact .raises at_i waiting

theorem step_userStep (hs : step ops s l = some u) : UserStep s l u := by
  cases l with
  | post body id now =>
    simp only [step] at hs
    split at hs
    · cases hs
      exact .opens (by rintro _ _ ⟨⟩) ⟨rfl, by rintro _ ⟨⟩⟩ rfl
    · rename_i body' _
      split at hs
      · cases hs
      · rename_i fresh
        cases hs
        exact .creates ⟨id, now, body'.name, body'.email, body'.age, body'.role⟩ fresh
  | list | get id | delete id =>
    cases hs
    exact .opens (by rintro _ _ ⟨⟩) ⟨rfl, by rintro _ ⟨⟩⟩ rfl
  | getCurrentUser i =>
    obtain ⟨r, at_i, hu⟩ := Option.bind_eq_some_iff.mp hs
    exact getCurrentUser_step at_i hu
  | requireAdmin i =>
    obtain ⟨r, at_i, hu⟩ := Option.bind_eq_some_iff.mp hs
    exact requireAdmin_step at_i hu
  | popUser i =>
    obtain ⟨r, at_i, hu⟩ := Option.bind_eq_some_iff.mp hs
    cases r with
    | deleting id =>
      cases hu
      exact .pops at_i
    | _ => cases hu
  | publishEnds i outcome =>
    obtain ⟨r, at_i, hu⟩ := Option.bind_eq_some_iff.mp hs
    exact publish_step at_i hu

omit [DecidableEq UserId] in
theorem publishing_user {r : Request UserId Time} {event : UserEvent UserId}
    {response : Response UserId Time} (waiting : r.publishing = some (event, response)) :
    r.user? = some event.id := by
  cases r <;> cases waiting <;> rfl

end Steps

/-- No key of the store, no user of a request and no published event has an id that
`uuid4` may still give. -/
structure Known [DecidableEq UserId] (s : State UserId Time) : Prop where
  stored : ∀ id, dictGet s.fakeUsersDb id ≠ none → id ∈ s.issuedIds
  users : ∀ r ∈ s.requests, ∀ id, r.user? = some id → id ∈ s.issuedIds
  published : ∀ event ∈ s.published, event.id ∈ s.issuedIds

section Known
variable [DecidableEq UserId] {s u : State UserId Time} {l : Label UserId Time}

theorem known_initial (db : Dict UserId (User UserId Time)) : Known (initial db) where
  stored id found := by
    by_contra absent
    exact found (dictGet_of_notMem absent)
  users := by rintro _ ⟨⟩
  published := by rintro _ ⟨⟩

theorem Known.users_add (known : Known s) {r' : Request UserId Time} {ids : List UserId}
    (more : ∀ id ∈ s.issuedIds, id ∈ ids) (new : ∀ id, r'.user? = some id → id ∈ ids) :
    ∀ r ∈ s.requests ++ [r'], ∀ id, r.user? = some id → id ∈ ids := by
  intro r mem id named
  rcases List.mem_append.mp mem with old | added
  · exact more id (known.users r old id named)
  · cases List.mem_singleton.mp added
    exact new id named

theorem Known.users_set (known : Known s) (i : ℕ) {r' : Request UserId Time}
    (new : ∀ id, r'.user? = some id → id ∈ s.issuedIds) :
    ∀ r ∈ s.requests.set i r', ∀ id, r.user? = some id → id ∈ s.issuedIds := by
  intro r mem id named
  rcases List.mem_or_eq_of_mem_set mem with old | rfl
  · exact known.users r old id named
  · exact new id named

theorem known_step (known : Known s) (hs : UserStep s l u) : Known u := by
  cases hs with
  | creates user fresh =>
    have more : ∀ id ∈ s.issuedIds, id ∈ user.id :: s.issuedIds :=
      fun id old => List.mem_cons_of_mem _ old
    refine ⟨fun id found => ?_, known.users_add more ?_, fun event mem => ?_⟩
    · change dictGet (dictSet _ _ _) id ≠ none at found
      rw [dictGet_dictSet] at found
      split at found
      · rename_i same
        exact same ▸ List.mem_cons_self
      · exact more id (known.stored id found)
    · rintro id ⟨⟩
      exact List.mem_cons_self
    · exact more _ (known.published event mem)
  | opens _ _ anonymous =>
    refine ⟨known.stored, known.users_add (fun _ old => old) fun id named => ?_, known.published⟩
    rw [anonymous] at named
    cases named
  | checks _ at_i _ _ admitted =>
    refine ⟨known.stored, known.users_set _ fun id named => ?_, known.published⟩
    rcases admitted id named with before | found
    · exact known.users _ (List.mem_of_getElem? at_i) id before
    · exact known.stored id found
  | pops at_i =>
    refine ⟨fun id found => ?_, known.users_set _ ?_, known.published⟩
    · change dictGet (dictPop _ _) id ≠ none at found
      rw [dictGet_dictPop] at found
      split at found
      · exact absurd rfl found
      · exact known.stored id found
    · rintro id ⟨⟩
      exact known.users _ (List.mem_of_getElem? at_i) _ rfl
  | publishes at_i waiting =>
    refine ⟨known.stored, known.users_set _ (by rintro _ ⟨⟩), fun event mem => ?_⟩
    rcases List.mem_append.mp mem with old | new
    · exact known.published event old
    · cases List.mem_singleton.mp new
      exact known.users _ (List.mem_of_getElem? at_i) _ (publishing_user waiting)
  | raises _ _ => exact ⟨known.stored, known.users_set _ (by rintro _ ⟨⟩), known.published⟩

end Known

end FastapiProject.UserRequests
