import FastapiProject.UserRequests

set_option autoImplicit false

/-!
# Whose role decides on `DELETE /users/{user_id}`

`get_current_user` resolves the path parameter, so the user whose role `require_admin`
checks is the one to be deleted. Nothing is known of who sent the request.
-/
namespace FastapiProject.DeletePermission
open PythonExceptions IndexedLists MachineRuns UserModels UserRequests

variable {UserId Time : Type} [DecidableEq UserId]

/-- The request of `_caller` while no other is served: what it answers, and the store then. -/
def deleteRequest (_caller : UserId) (db : List (UserId × User UserId Time)) (id : UserId)
    (publish : Except Exn Unit) :
    Except Exn (Response UserId Time) × List (UserId × User UserId Time) :=
  match getCurrentUser db id with
  | .error e => (.error e, db)
  | .ok user =>
    match requireAdmin user with
    | .error e => (.error e, db)
    | .ok _ => (publish.map (fun _ => .deleted id), dictPop db id)

def AgreeExceptRole (db db' : List (UserId × User UserId Time)) (t : UserId) : Prop :=
  List.Forall₂ (fun entry entry' => entry.1 = entry'.1 ∧
    (entry.2 = entry'.2 ∨ entry.1 = t ∧ ∃ role, entry'.2 = { entry.2 with role := role })) db db'

def IsAdmin (db : List (UserId × User UserId Time)) (t : UserId) : Prop :=
  ∃ user, dictGet db t = some user ∧ user.role = "admin"

def Deletes (caller : UserId) (db : List (UserId × User UserId Time)) (t : UserId)
    (publish : Except Exn Unit) : Prop :=
  dictGet db t ≠ none ∧ dictGet (deleteRequest caller db t publish).2 t = none

def SameOutcome (caller : UserId) (db db' : List (UserId × User UserId Time)) (t : UserId)
    (publish : Except Exn Unit) : Prop :=
  (deleteRequest caller db t publish).1 = (deleteRequest caller db' t publish).1 ∧
    (Deletes caller db t publish ↔ Deletes caller db' t publish)

section Requests
variable {db db' : List (UserId × User UserId Time)} {t : UserId} {user : User UserId Time}
  (caller : UserId) (publish : Except Exn Unit)

theorem deleteRequest_missing (missing : dictGet db t = none) :
    deleteRequest caller db t publish = (.error (.httpException 404 "User not found"), db) := by
  rw [deleteRequest, getCurrentUser, missing]

theorem deleteRequest_admin (found : dictGet db t = some user) (admin : user.role = "admin") :
    deleteRequest caller db t publish = (publish.map (fun _ => .deleted t), dictPop db t) := by
  have admitted := requireAdmin_ok_iff.mpr admin
  simp only [deleteRequest, getCurrentUser, found, admitted]

theorem deleteRequest_refused (found : dictGet db t = some user) (other : user.role ≠ "admin") :
    deleteRequest caller db t publish = (.error (.httpException 403 "Admin only"), db) := by
  have refused : requireAdmin user = .error (.httpException 403 "Admin only") := if_pos other
  simp only [deleteRequest, getCurrentUser, found, refused]

theorem deletes_iff : Deletes caller db t publish ↔ IsAdmin db t := by
  constructor
  · rintro ⟨present, gone⟩
    obtain ⟨user, found⟩ := Option.ne_none_iff_exists'.mp present
    refine ⟨user, found, ?_⟩
    by_contra other
    rw [deleteRequest_refused caller publish found other] at gone
    exact present gone
  · rintro ⟨user, found, admin⟩
    refine ⟨by rw [found]; exact Option.some_ne_none user, ?_⟩
    rw [deleteRequest_admin caller publish found admin, dictGet_dictPop, if_pos rfl]

theorem agree_missing_iff (agree : AgreeExceptRole db db' t) (k : UserId) :
    dictGet db k = none ↔ dictGet db' k = none := by
  induction agree with
  | nil => rfl
  | @cons entry entry' db db' same _ ih =>
    rw [dictGet, dictGet, ← same.1]
    split
    · simp
    · exact ih

theorem same_answer (agree : AgreeExceptRole db db' t) (roles : IsAdmin db t ↔ IsAdmin db' t) :
    (deleteRequest caller db t publish).1 = (deleteRequest caller db' t publish).1 := by
  cases found : dictGet db t with
  | none =>
    rw [deleteRequest_missing caller publish found,
      deleteRequest_missing caller publish ((agree_missing_iff agree t).mp found)]
  | some user =>
    have present : dictGet db' t ≠ none := by
      rw [ne_eq, ← agree_missing_iff agree t, found]
      exact Option.some_ne_none user
    obtain ⟨user', found'⟩ := Option.ne_none_iff_exists'.mp present
    by_cases admin : user.role = "admin"
    · obtain ⟨user'', found'', admin''⟩ := roles.mp ⟨user, found, admin⟩
      rw [deleteRequest_admin caller publish found admin,
        deleteRequest_admin caller publish found'' admin'']
    · have other : user'.role ≠ "admin" := by
        intro admin'
        obtain ⟨user'', found'', admin''⟩ := roles.mpr ⟨user', found', admin'⟩
        rw [found] at found''
        exact admin (Option.some.inj found'' ▸ admin'')
      rw [deleteRequest_refused caller publish found admin,
        deleteRequest_refused caller publish found' other]

end Requests

section Machine
variable {ops : StrOps} (s : State UserId Time) (r r' : Request UserId Time)

omit [DecidableEq UserId] in
theorem added_at : (s.addRequest r).requests[s.requests.length]? = some r :=
  List.getElem?_concat_length

omit [DecidableEq UserId] in
theorem set_added : (s.addRequest r).setRequest s.requests.length r' = s.addRequest r' := by
  simp [State.addRequest, State.setRequest]

theorem delete_step (t : UserId) : step ops s (.delete t) = some (s.addRequest (.checking t)) := rfl

theorem found_step {t : UserId} {user : User UserId Time}
    (found : getCurrentUser s.fakeUsersDb t = .ok user) :
    step ops (s.addRequest (.checking t)) (.getCurrentUser s.requests.length) =
      some (s.addRequest (.admitting t user)) := by
  have found' : getCurrentUser (s.addRequest (.checking t)).fakeUsersDb t = .ok user := found
  simp only [step, added_at, Option.bind_some, stepGetCurrentUser, found', set_added]

theorem missing_step {t : UserId} {e : Exn} (missing : getCurrentUser s.fakeUsersDb t = .error e) :
    step ops (s.addRequest (.checking t)) (.getCurrentUser s.requests.length) =
      some (s.addRequest (.ended (.error e))) := by
  have missing' : getCurrentUser (s.addRequest (.checking t)).fakeUsersDb t = .error e := missing
  simp only [step, added_at, Option.bind_some, stepGetCurrentUser, missing', set_added]

theorem admitted_step {t : UserId} {user : User UserId Time} (admitted : requireAdmin user = .ok user) :
    step ops (s.addRequest (.admitting t user)) (.requireAdmin s.requests.length) =
      some (s.addRequest (.deleting t)) := by
  simp only [step, added_at, Option.bind_some, stepRequireAdmin, admitted, set_added]

theorem refused_step {t : UserId} {user : User UserId Time} {e : Exn}
    (refused : requireAdmin user = .error e) :
    step ops (s.addRequest (.admitting t user)) (.requireAdmin s.requests.length) =
      some (s.addRequest (.ended (.error e))) := by
  simp only [step, added_at, Option.bind_some, stepRequireAdmin, refused, set_added]

theorem popped_step (t : UserId) :
    step ops (s.addRequest (.deleting t)) (.popUser s.requests.length) =
      some (State.addRequest { s with fakeUsersDb := dictPop s.fakeUsersDb t }
        (.deletePublishing t (dictGet s.fakeUsersDb t))) := by
  have popped : deleteUser (s.addRequest (.deleting t)) s.requests.length t =
      State.addRequest { s with fakeUsersDb := dictPop s.fakeUsersDb t }
        (.deletePublishing t (dictGet s.fakeUsersDb t)) :=
    set_added { s with fakeUsersDb := dictPop s.fakeUsersDb t } (.deleting t) _
  simp only [step, added_at, Option.bind_some, popped]

theorem published_step {t : UserId} {popped : Option (User UserId Time)}
    (publish : Except Exn Unit) : ∃ u,
      step ops (s.addRequest (.deletePublishing t popped)) (.publishEnds s.requests.length publish) =
        some u ∧ u.fakeUsersDb = s.fakeUsersDb ∧
      u.requests = s.requests ++ [.ended (publish.map (fun _ => .deleted t))] := by
  cases publish with
  | ok v =>
    refine ⟨State.addRequest { s with published := s.published ++ [.deleted t] }
      (.ended (.ok (.deleted t))), ?_, rfl, rfl⟩
    simp only [step, added_at, Option.bind_some, stepPublish, Request.publishing, Option.map_some]
    exact congrArg some (set_added { s with published := s.published ++ [.deleted t] } _ _)
  | error e =>
    refine ⟨s.addRequest (.ended (.error e)), ?_, rfl, rfl⟩
    simp only [step, added_at, Option.bind_some, stepPublish, Request.publishing, Option.map_some,
      set_added]

end Machine

/-- A request that the machine serves while no other moves is `deleteRequest`. -/
theorem deleteRequest_runs (ops : StrOps) (s : State UserId Time) (caller t : UserId)
    (publish : Except Exn Unit) : ∃ ls u, Runs (step ops) s ls u ∧
      u.fakeUsersDb = (deleteRequest caller s.fakeUsersDb t publish).2 ∧
      u.requests = s.requests ++ [.ended (deleteRequest caller s.fakeUsersDb t publish).1] := by
  cases found : dictGet s.fakeUsersDb t with
  | none =>
    have missing : getCurrentUser s.fakeUsersDb t = .error (.httpException 404 "User not found") := by
      rw [getCurrentUser, found]
    rw [deleteRequest_missing caller publish found]
    exact ⟨_, _, .cons (delete_step s t) trivial (.single (missing_step s missing) trivial), rfl, rfl⟩
  | some user =>
    have resolved : getCurrentUser s.fakeUsersDb t = .ok user := by
      rw [getCurrentUser, found]
    by_cases admin : user.role = "admin"
    · have admitted := requireAdmin_ok_iff.mpr admin
      rw [deleteRequest_admin caller publish found admin]
      obtain ⟨u, ends, store, requests⟩ := published_step
        { s with fakeUsersDb := dictPop s.fakeUsersDb t } publish
      exact ⟨_, u, .cons (delete_step s t) trivial (.cons (found_step s resolved) trivial (.cons
        (admitted_step s admitted) trivial (.cons (popped_step s t) trivial
          (.single ends trivial)))), store, requests⟩
    · have refused : requireAdmin user = .error (.httpException 403 "Admin only") := if_pos admin
      rw [deleteRequest_refused caller publish found admin]
      exact ⟨_, _, .cons (delete_step s t) trivial (.cons (found_step s resolved) trivial
        (.single (refused_step s refused) trivial)), rfl, rfl⟩

/-- The outcome depends on the role of the user to be deleted, and on no caller. -/
theorem sameOutcome_iff {db db' : List (UserId × User UserId Time)} {t : UserId}
    (agree : AgreeExceptRole db db' t) (caller : UserId) (publish : Except Exn Unit) :
    (SameOutcome caller db db' t publish ↔ (IsAdmin db t ↔ IsAdmin db' t)) ∧
    (∀ user, dictGet db t = some user → user.role = "viewer" →
      ∀ anyone, ¬ Deletes anyone db t publish) ∧
    (∀ user, dictGet db t = some user → user.role = "admin" →
      ∀ anyone, Deletes anyone db t publish) := by
  refine ⟨⟨fun same => ?_, fun roles => ?_⟩, ?_, ?_⟩
  · rw [← deletes_iff caller publish, ← deletes_iff caller publish]
    exact same.2
  · refine ⟨same_answer caller publish agree roles, ?_⟩
    rw [deletes_iff, deletes_iff]
    exact roles
  · intro user found viewer anyone deletes
    obtain ⟨user', found', admin⟩ := (deletes_iff anyone publish).mp deletes
    rw [found] at found'
    rw [← Option.some.inj found', viewer] at admin
    exact absurd admin (by decide)
  · intro user found admin anyone
    exact (deletes_iff anyone publish).mpr ⟨user, found, admin⟩

section Examples

def userWithRole (role : String) : User ℕ ℕ := ⟨1, 0, "Ann", "ann@mail", 30, role⟩

theorem agree_userWithRole (role role' : String) :
    AgreeExceptRole [(1, userWithRole role)] [(1, userWithRole role')] 1 :=
  .cons ⟨rfl, .inr ⟨rfl, role', rfl⟩⟩ .nil

/-- The same caller deletes user 1 as an admin and is refused when it is a viewer. -/
theorem role_of_target_decides : ¬ ∀ (caller : ℕ) (db db' : List (ℕ × User ℕ ℕ)) (t : ℕ) publish,
    caller ≠ t → AgreeExceptRole db db' t → SameOutcome caller db db' t publish := by
  intro h
  have same := h 2 _ _ 1 (.ok ()) (by decide) (agree_userWithRole "admin" "viewer")
  exact absurd same.1 (by decide)

theorem viewer_and_editor_refused : SameOutcome 2 [(1, userWithRole "viewer")]
    [(1, userWithRole "editor")] 1 (.ok ()) := by
  refine (sameOutcome_iff (agree_userWithRole "viewer" "editor") 2 (.ok ())).1.mpr ?_
  refine iff_of_false ?_ ?_
  · rintro ⟨user, ⟨⟩, admin⟩
    exact absurd admin (by decide)
  · rintro ⟨user, ⟨⟩, admin⟩
    exact absurd admin (by decide)

end Examples

end FastapiProject.DeletePermission
