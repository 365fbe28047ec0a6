import Mathlib.Data.List.Basic
import FastapiProject.UserRequests

set_option autoImplicit false

/-!
# The store and the answers, told from the run

The store holds the users accepted so far that no deletion has popped, in the order of
their creation, and every answer is the one that this list gives to the request that asked,
as that request looks it up.
-/
namespace FastapiProject.UserAnswers
open PythonExceptions MachineRuns IndexedLists UserModels UserRequests

variable {UserId Time : Type}

section Histories
variable (ops : StrOps)

def userOf (fields : UserCreate) (id : UserId) (now : Time) : User UserId Time :=
  ⟨id, now, fields.name, fields.email, fields.age, fields.role⟩

def opens : Label UserId Time → Bool
  | .post _ _ _ | .list | .get _ | .delete _ => true
  | .getCurrentUser _ | .requireAdmin _ | .popUser _ | .publishEnds _ _ => false

def openers (ls : List (Label UserId Time)) : List (Label UserId Time) := ls.filter opens

def accepted? : Label UserId Time → Option (User UserId Time)
  | .post body id now =>
    match validate ops body with
    | .ok fields => some (userOf fields id now)
    | .error _ => none
  | _ => none

def accepted (ls : List (Label UserId Time)) : List (User UserId Time) :=
  ls.filterMap (accepted? ops)

/-- The id that a label pops, given the labels that have opened the requests so far. -/
def popped? (opened : List (Label UserId Time)) : Label UserId Time → Option UserId
  | .popUser i =>
    match opened[i]? with
    | some (.delete id) => some id
    | _ => none
  | _ => none

def poppedFrom : List (Label UserId Time) → List (Label UserId Time) → List UserId
  | _, [] => []
  | opened, l :: ls => (popped? opened l).toList ++ poppedFrom (opened ++ openers [l]) ls

def popped (ls : List (Label UserId Time)) : List UserId := poppedFrom [] ls

/-- The users that a sequential store would hold. -/
def live [DecidableEq UserId] (ls : List (Label UserId Time)) : List (User UserId Time) :=
  (accepted ops ls).filter fun user => user.id ∉ popped ls

end Histories

section Appended
variable (ops : StrOps) (ls : List (Label UserId Time)) (l : Label UserId Time)

theorem openers_append : openers (ls ++ [l]) = openers ls ++ openers [l] :=
  List.filter_append ls [l]

theorem accepted_append : accepted ops (ls ++ [l]) = accepted ops ls ++ (accepted? ops l).toList := by
  rw [accepted, List.filterMap_append, List.filterMap_cons, List.filterMap_nil]
  cases accepted? ops l <;> rfl

theorem poppedFrom_append (opened : List (Label UserId Time)) :
    poppedFrom opened (ls ++ [l]) =
      poppedFrom opened ls ++ (popped? (opened ++ openers ls) l).toList := by
  induction ls generalizing opened with
  | nil =>
    change (popped? opened l).toList ++ [] = [] ++ (popped? (opened ++ []) l).toList
    rw [List.append_nil, List.append_nil, List.nil_append]
  | cons m ls ih =>
    have first : openers (m :: ls) = openers [m] ++ openers ls := List.filter_append [m] ls
    rw [List.cons_append, poppedFrom, poppedFrom, ih, first, List.append_assoc, List.append_assoc]

theorem popped_append : popped (ls ++ [l]) = popped ls ++ (popped? (openers ls) l).toList :=
  poppedFrom_append ls l []

end Appended

section Answers
variable [DecidableEq UserId] (ops : StrOps) (ls : List (Label UserId Time))

/-- The look-up of request `i`, and what the sequential store holds as it is made. -/
def AtLookup (i : ℕ) (holds : List (User UserId Time) → Prop) : Prop :=
  ∃ pre, pre ++ [.getCurrentUser i] <+: ls ∧ i < (openers pre).length ∧ holds (live ops pre)

/-- A listing is answered as it comes in, by what the sequential store holds then. -/
def ListedAt (i : ℕ) (users : List (User UserId Time)) : Prop :=
  ∃ pre, pre ++ [.list] <+: ls ∧ (openers pre).length = i ∧ users = live ops pre

def Admitted (i : ℕ) (id : UserId) : Prop :=
  AtLookup ops ls i fun users => ∃ user ∈ users, user.id = id ∧ user.role = "admin"

def notFound : Exn := .httpException 404 "User not found"
def adminOnly : Exn := .httpException 403 "Admin only"

/-- The places and the answers of request `i`, which came in with the label. -/
inductive Answers (i : ℕ) : Label UserId Time → Request UserId Time → Prop
  | rejected {body : UserBody} {id : UserId} {now : Time} {errors : List FieldError}
      (invalid : validate ops body = .error errors) : Answers i (.post body id now) (.rejected errors)
  | creating {body : UserBody} {id : UserId} {now : Time} {fields : UserCreate}
      (valid : validate ops body = .ok fields) :
    Answers i (.post body id now) (.creating (userOf fields id now))
  | created {body : UserBody} {id : UserId} {now : Time} {fields : UserCreate}
      (valid : validate ops body = .ok fields) (published : .publishEnds i (.ok ()) ∈ ls) :
    Answers i (.post body id now) (.ended (.ok (.created (userOf fields id now))))
  | createRaised {body : UserBody} {id : UserId} {now : Time} {fields : UserCreate} {e : Exn}
      (valid : validate ops body = .ok fields) (raised : .publishEnds i (.error e) ∈ ls) :
    Answers i (.post body id now) (.ended (.error e))
  | listed {users : List (User UserId Time)} (moment : ListedAt ops ls i users) :
    Answers i .list (.ended (.ok (.listed users)))
  | getting {id : UserId} : Answers i (.get id) (.getting id)
  | got {id : UserId} {user : User UserId Time} (own : user.id = id)
      (moment : AtLookup ops ls i fun now => user ∈ now) :
    Answers i (.get id) (.ended (.ok (.got user)))
  | getMissed {id : UserId} (moment : AtLookup ops ls i fun now => ∀ user ∈ now, user.id ≠ id) :
    Answers i (.get id) (.ended (.error notFound))
  | checking {id : UserId} : Answers i (.delete id) (.checking id)
  | deleteMissed {id : UserId} (moment : AtLookup ops ls i fun now => ∀ user ∈ now, user.id ≠ id) :
    Answers i (.delete id) (.ended (.error notFound))
  | admitting {id : UserId} {user : User UserId Time} (own : user.id = id)
      (moment : AtLookup ops ls i fun now => user ∈ now) : Answers i (.delete id) (.admitting id user)
  | refused {id : UserId}
      (moment : AtLookup ops ls i fun now => ∃ user ∈ now, user.id = id ∧ user.role ≠ "admin") :
    Answers i (.delete id) (.ended (.error adminOnly))
  | deleting {id : UserId} (admitted : Admitted ops ls i id) : Answers i (.delete id) (.deleting id)
  | deletePublishing {id : UserId} {user : Option (User UserId Time)}
      (admitted : Admitted ops ls i id) (gone : .popUser i ∈ ls) :
    Answers i (.delete id) (.deletePublishing id user)
  | deleted {id : UserId} (admitted : Admitted ops ls i id) (gone : .popUser i ∈ ls)
      (published : .publishEnds i (.ok ()) ∈ ls) : Answers i (.delete id) (.ended (.ok (.deleted id)))
  | deleteRaised {id : UserId} {e : Exn} (admitted : Admitted ops ls i id) (gone : .popUser i ∈ ls)
      (raised : .publishEnds i (.error e) ∈ ls) : Answers i (.delete id) (.ended (.error e))

variable {ops ls} {i : ℕ}

theorem AtLookup.later {holds : List (User UserId Time) → Prop} (h : AtLookup ops ls i holds)
    (l : Label UserId Time) : AtLookup ops (ls ++ [l]) i holds := by
  obtain ⟨pre, before, came, here⟩ := h
  exact ⟨pre, before.trans (List.prefix_append ls [l]), came, here⟩

theorem AtLookup.now {holds : List (User UserId Time) → Prop} (h : holds (live ops ls))
    (came : i < (openers ls).length) : AtLookup ops (ls ++ [.getCurrentUser i]) i holds :=
  ⟨ls, List.prefix_rfl, came, h⟩

theorem ListedAt.later {users : List (User UserId Time)} (h : ListedAt ops ls i users)
    (l : Label UserId Time) : ListedAt ops (ls ++ [l]) i users := by
  obtain ⟨pre, before, first, here⟩ := h
  exact ⟨pre, before.trans (List.prefix_append ls [l]), first, here⟩

theorem Answers.later {opener : Label UserId Time} {r : Request UserId Time}
    (h : Answers ops ls i opener r) (l : Label UserId Time) : Answers ops (ls ++ [l]) i opener r := by
  have kept {m : Label UserId Time} (mem : m ∈ ls) : m ∈ ls ++ [l] := List.mem_append_left [l] mem
  cases h with
  | rejected invalid => exact .rejected invalid
  | creating valid => exact .creating valid
  | created valid published => exact .created valid (kept published)
  | createRaised valid raised => exact .createRaised valid (kept raised)
  | listed moment => exact .listed (moment.later l)
  | getting => exact .getting
  | got own moment => exact .got own (moment.later l)
  | getMissed moment => exact .getMissed (moment.later l)
  | checking => exact .checking
  | deleteMissed moment => exact .deleteMissed (moment.later l)
  | admitting own moment => exact .admitting own (moment.later l)
  | refused moment => exact .refused (moment.later l)
  | deleting admitted => exact .deleting (admitted.later l)
  | deletePublishing admitted gone => exact .deletePublishing (admitted.later l) (kept gone)
  | deleted admitted gone published => exact .deleted (admitted.later l) (kept gone) (kept published)
  | deleteRaised admitted gone raised =>
    exact .deleteRaised (admitted.later l) (kept gone) (kept raised)

theorem Answers.of_deleting {opener : Label UserId Time} {id : UserId}
    (h : Answers ops ls i opener (.deleting id)) : opener = .delete id := by
  cases h
  rfl

end Answers

section Keyed

def keyed (users : List (User UserId Time)) : List (UserId × User UserId Time) :=
  users.map fun user => (user.id, user)

variable [DecidableEq UserId]

theorem dictGet_keyed_some {users : List (User UserId Time)} {id : UserId} {user : User UserId Time}
    (found : dictGet (keyed users) id = some user) : user ∈ users ∧ user.id = id := by
  induction users with
  | nil => cases found
  | cons first users ih =>
    rw [keyed, List.map_cons, dictGet] at found
    split at found
    · rename_i same
      cases found
      exact ⟨List.mem_cons_self, same⟩
    · obtain ⟨mem, same⟩ := ih found
      exact ⟨List.mem_cons_of_mem _ mem, same⟩

theorem dictGet_keyed_none {users : List (User UserId Time)} {id : UserId}
    (missing : dictGet (keyed users) id = none) : ∀ user ∈ users, user.id ≠ id := by
  induction users with
  | nil => rintro _ ⟨⟩
  | cons first users ih =>
    rw [keyed, List.map_cons, dictGet] at missing
    split at missing
    · cases missing
    · rename_i other
      rintro user mem
      rcases List.mem_cons.mp mem with rfl | mem
      · exact other
      · exact ih missing user mem

theorem dictPop_keyed (users : List (User UserId Time)) (id : UserId) :
    dictPop (keyed users) id = keyed (users.filter fun user => user.id ≠ id) :=
  List.filter_map

end Keyed

section Invariant
variable [DecidableEq UserId]

/-- The store is the sequential one, under the users' own ids, and no id is given twice. -/
structure Stored (ops : StrOps) (ls : List (Label UserId Time)) (s : State UserId Time) : Prop where
  store : s.fakeUsersDb = keyed (live ops ls)
  issued : s.issuedIds = ((accepted ops ls).map User.id).reverse
  distinct : ((accepted ops ls).map User.id).Nodup
  poppedIds : ∀ id ∈ popped ls, id ∈ s.issuedIds

structure Inv (ops : StrOps) (ls : List (Label UserId Time)) (s : State UserId Time) : Prop
    extends Stored ops ls s where
  aligned : (openers ls).length = s.requests.length
  answers : ∀ i opener r, (openers ls)[i]? = some opener → s.requests[i]? = some r →
    Answers ops ls i opener r

variable {ops : StrOps} {ls : List (Label UserId Time)} {s u : State UserId Time}
  {l : Label UserId Time}

theorem inv_initial (ops : StrOps) :
    Inv ops [] (initial ⟨[], List.nodup_nil⟩ : State UserId Time) where
  store := rfl
  issued := rfl
  distinct := List.nodup_nil
  poppedIds := by rintro _ ⟨⟩
  aligned := rfl
  answers := by rintro i _ _ ⟨⟩

theorem Stored.issued_of_accepted (h : Stored ops ls s) {user : User UserId Time}
    (mem : user ∈ accepted ops ls) : user.id ∈ s.issuedIds := by
  rw [h.issued, List.mem_reverse]
  exact List.mem_map_of_mem mem

theorem Stored.admitted_issued (h : Stored ops ls s) {i : ℕ} {id : UserId}
    (admitted : Admitted ops ls i id) : id ∈ s.issuedIds := by
  obtain ⟨pre, before, -, user, found, rfl, -⟩ := admitted
  have earlier : user ∈ accepted ops pre := (List.mem_filter.mp found).1
  have start : pre <+: ls := (List.prefix_append pre _).trans before
  exact h.issued_of_accepted ((start.filterMap (accepted? ops)).subset earlier)

theorem Stored.found (h : Stored ops ls s) {id : UserId} {user : User UserId Time}
    (stored : dictGet s.fakeUsersDb id = some user) : user ∈ live ops ls ∧ user.id = id := by
  rw [h.store] at stored
  exact dictGet_keyed_some stored

theorem Stored.missed (h : Stored ops ls s) {id : UserId} (stored : dictGet s.fakeUsersDb id = none) :
    ∀ user ∈ live ops ls, user.id ≠ id := by
  rw [h.store] at stored
  exact dictGet_keyed_none stored

theorem live_quiet (unaccepted : accepted? ops l = none) (unpopped : popped? (openers ls) l = none) :
    live ops (ls ++ [l]) = live ops ls := by
  have same : popped (ls ++ [l]) = popped ls := by
    rw [popped_append, unpopped, Option.toList_none, List.append_nil]
  rw [live, accepted_append, unaccepted, Option.toList_none, List.append_nil, same, live]

omit [DecidableEq UserId] in
theorem openers_open (opening : opens l = true) : openers (ls ++ [l]) = openers ls ++ [l] := by
  rw [openers_append, openers, openers, List.filter_singleton, opening]
  rfl

omit [DecidableEq UserId] in
theorem openers_closed (closed : opens l = false) : openers (ls ++ [l]) = openers ls := by
  rw [openers_append, openers, openers, List.filter_singleton, closed]
  exact List.append_nil _

theorem Inv.answers_open (h : Inv ops ls s) {r : Request UserId Time} (opening : opens l = true)
    (answer : Answers ops (ls ++ [l]) (openers ls).length l r) (i : ℕ) (opener : Label UserId Time)
    (r' : Request UserId Time) (at_i : (openers (ls ++ [l]))[i]? = some opener)
    (here : (s.requests ++ [r])[i]? = some r') : Answers ops (ls ++ [l]) i opener r' := by
  rw [openers_open opening] at at_i
  rcases getElem?_concat_cases at_i with old | ⟨rfl, rfl⟩
  · have before : i < s.requests.length := by
      rw [← h.aligned]
      exact (List.getElem?_eq_some_iff.mp old).1
    rw [List.getElem?_append_left before] at here
    exact (h.answers i opener r' old here).later l
  · rw [h.aligned, List.getElem?_concat_length] at here
    cases here
    exact answer

theorem Inv.aligned_open (h : Inv ops ls s) (opening : opens l = true) (r : Request UserId Time) :
    (openers (ls ++ [l])).length = (s.requests ++ [r]).length := by
  rw [openers_open opening, List.length_append, List.length_append, h.aligned]
  rfl

theorem Stored.quiet (h : Stored ops ls s) (unaccepted : accepted? ops l = none)
    (unpopped : popped? (openers ls) l = none) (db : u.fakeUsersDb = s.fakeUsersDb)
    (ids : u.issuedIds = s.issuedIds) : Stored ops (ls ++ [l]) u := by
  have accepts : accepted ops (ls ++ [l]) = accepted ops ls := by
    rw [accepted_append, unaccepted, Option.toList_none, List.append_nil]
  have pops : popped (ls ++ [l]) = popped ls := by
    rw [popped_append, unpopped, Option.toList_none, List.append_nil]
  refine ⟨?_, ?_, ?_, ?_⟩
  · rw [db, live_quiet unaccepted unpopped, h.store]
  · rw [ids, accepts, h.issued]
  · rw [accepts]
    exact h.distinct
  · rw [pops, ids]
    exact h.poppedIds

theorem Inv.opened (h : Inv ops ls s) {r : Request UserId Time} (opening : opens l = true)
    (unaccepted : accepted? ops l = none) (unpopped : popped? (openers ls) l = none)
    (answer : Answers ops (ls ++ [l]) (openers ls).length l r) :
    Inv ops (ls ++ [l]) (s.addRequest r) where
  toStored := h.toStored.quiet unaccepted unpopped rfl rfl
  aligned := h.aligned_open opening r
  answers := h.answers_open opening answer

theorem Inv.answers_moved (h : Inv ops ls s) {i : ℕ} {r r' : Request UserId Time}
    (closed : opens l = false) (at_i : s.requests[i]? = some r)
    (answer : ∀ opener, (openers ls)[i]? = some opener → Answers ops ls i opener r →
      Answers ops (ls ++ [l]) i opener r') (j : ℕ) (opener : Label UserId Time)
    (r'' : Request UserId Time) (at_j : (openers (ls ++ [l]))[j]? = some opener)
    (here : (s.requests.set i r')[j]? = some r'') : Answers ops (ls ++ [l]) j opener r'' := by
  rw [openers_closed closed] at at_j
  rcases getElem?_set_cases here with ⟨rfl, rfl⟩ | ⟨-, other⟩
  · exact answer opener at_j (h.answers j opener r at_j at_i)
  · exact (h.answers j opener r'' at_j other).later l

theorem Inv.moved (h : Inv ops ls s) {i : ℕ} {r r' : Request UserId Time}
    (closed : opens l = false) (unaccepted : accepted? ops l = none)
    (unpopped : popped? (openers ls) l = none) (at_i : s.requests[i]? = some r)
    (answer : ∀ opener, (openers ls)[i]? = some opener → Answers ops ls i opener r →
      Answers ops (ls ++ [l]) i opener r') : Inv ops (ls ++ [l]) (s.setRequest i r') where
  toStored := h.toStored.quiet unaccepted unpopped rfl rfl
  aligned := by
    rw [openers_closed closed, setRequest_requests, List.length_set]
    exact h.aligned
  answers := h.answers_moved closed at_i answer

theorem Inv.came (h : Inv ops ls s) {i : ℕ} {r : Request UserId Time}
    (at_i : s.requests[i]? = some r) : i < (openers ls).length := by
  rw [h.aligned]
  exact (List.getElem?_eq_some_iff.mp at_i).1

theorem Inv.created (h : Inv ops ls s) {body : UserBody} {fields : UserCreate} {id : UserId}
    {now : Time} (valid : validate ops body = .ok fields) (fresh : id ∉ s.issuedIds) :
    Inv ops (ls ++ [.post body id now]) (createUser s fields id now) := by
  have added : accepted? ops (.post body id now) = some (userOf fields id now) := by
    simp only [accepted?, valid]
  have unpopped : popped (ls ++ [.post body id now]) = popped ls := by
    rw [popped_append]
    exact List.append_nil _
  have last : live ops (ls ++ [.post body id now]) = live ops ls ++ [userOf fields id now] := by
    have kept : id ∉ popped ls := fun mem => fresh (h.poppedIds id mem)
    rw [live, accepted_append, added, Option.toList_some, unpopped, List.filter_append, live]
    have stays : decide ((userOf fields id now).id ∉ popped ls) = true := decide_eq_true kept
    rw [List.filter_singleton, stays]
    rfl
  have ids : (accepted ops (ls ++ [.post body id now])).map User.id =
      (accepted ops ls).map User.id ++ [id] := by
    rw [accepted_append, added, Option.toList_some, List.map_append]
    rfl
  refine ⟨⟨?_, ?_, ?_, ?_⟩, h.aligned_open rfl _, h.answers_open rfl (.creating valid)⟩
  · have absent : id ∉ s.fakeUsersDb.map Prod.fst := by
      rw [h.store, keyed, List.map_map]
      intro mem
      obtain ⟨user, found, rfl⟩ := List.mem_map.mp mem
      exact fresh (h.issued_of_accepted (List.mem_filter.mp found).1)
    change dictSet s.fakeUsersDb id (userOf fields id now) = _
    rw [dictSet_of_notMem absent, last, h.store, keyed, keyed, List.map_append]
    rfl
  · change id :: s.issuedIds = _
    rw [ids, List.reverse_append, h.issued]
    rfl
  · rw [ids]
    refine List.nodup_append.mpr ⟨h.distinct, List.pairwise_singleton _ id, ?_⟩
    rintro k old k' new rfl
    rw [List.mem_singleton.mp new, ← List.mem_reverse, ← h.issued] at old
    exact fresh old
  · rw [unpopped]
    exact fun k mem => List.mem_cons_of_mem id (h.poppedIds k mem)

theorem Inv.pops (h : Inv ops ls s) {i : ℕ} {id : UserId}
    (at_i : s.requests[i]? = some (.deleting id)) :
    Inv ops (ls ++ [.popUser i]) (deleteUser s i id) := by
  have at_open := List.getElem?_eq_getElem (h.came at_i)
  have answer := h.answers i _ _ at_open at_i
  have opener := answer.of_deleting
  rw [opener] at at_open answer
  have gone : popped? (openers ls) (.popUser i : Label UserId Time) = some id := by
    simp only [popped?, at_open]
  have more : popped (ls ++ [.popUser i]) = popped ls ++ [id] := by
    rw [popped_append, gone, Option.toList_some]
  have same : accepted ops (ls ++ [.popUser i]) = accepted ops ls := by
    rw [accepted_append]
    exact List.append_nil _
  have left : live ops (ls ++ [.popUser i]) =
      (live ops ls).filter fun user => user.id ≠ id := by
    rw [live, same, more, live, List.filter_filter]
    refine List.filter_congr fun user _ => ?_
    simp only [List.mem_append, List.mem_singleton, not_or, ne_eq, Bool.decide_and, Bool.and_comm]
  refine ⟨⟨?_, ?_, ?_, fun k mem => ?_⟩, ?_, ?_⟩
  · change dictPop s.fakeUsersDb id = _
    rw [h.store, dictPop_keyed, left]
  · rw [same]
    exact h.issued
  · rw [same]
    exact h.distinct
  · rw [more] at mem
    rcases List.mem_append.mp mem with old | new
    · exact h.poppedIds k old
    · rw [List.mem_singleton.mp new]
      cases answer with
      | deleting admitted => exact h.admitted_issued admitted
  · rw [openers_closed rfl, deleteUser_requests, List.length_set]
    exact h.aligned
  · refine h.answers_moved rfl at_i fun opener' at_i' deleting => ?_
    cases deleting with
    | deleting admitted =>
      exact .deletePublishing (admitted.later _) (List.mem_append_right ls List.mem_cons_self)

theorem Inv.gets (h : Inv ops ls s) {i : ℕ} {r : Request UserId Time}
    (at_i : s.requests[i]? = some r) (hs : stepGetCurrentUser s i r = some u) :
    Inv ops (ls ++ [.getCurrentUser i]) u := by
  have came := h.came at_i
  cases r with
  | getting id =>
    cases hs
    refine h.moved rfl rfl rfl at_i fun opener _ answer => ?_
    cases answer
    unfold getCurrentUser
    split
    · rename_i missing
      exact .getMissed (.now (h.missed missing) came)
    · rename_i user stored
      obtain ⟨found, own⟩ := h.found stored
      exact .got own (.now found came)
  | checking id =>
    rw [stepGetCurrentUser, getCurrentUser] at hs
    cases stored : dictGet s.fakeUsersDb id with
    | none =>
      simp only [stored] at hs
      cases hs
      refine h.moved rfl rfl rfl at_i fun opener _ answer => ?_
      cases answer
      exact .deleteMissed (.now (h.missed stored) came)
    | some user =>
      simp only [stored] at hs
      cases hs
      obtain ⟨found, own⟩ := h.found stored
      refine h.moved rfl rfl rfl at_i fun opener _ answer => ?_
      cases answer
      exact .admitting own (.now found came)
  | _ => cases hs

theorem Inv.requires (h : Inv ops ls s) {i : ℕ} {r : Request UserId Time}
    (at_i : s.requests[i]? = some r) (hs : stepRequireAdmin s i r = some u) :
    Inv ops (ls ++ [.requireAdmin i]) u := by
  cases r with
  | admitting id user =>
    rw [stepRequireAdmin, requireAdmin] at hs
    by_cases admin : user.role = "admin"
    · rw [if_neg (not_not_intro admin)] at hs
      cases hs
      refine h.moved rfl rfl rfl at_i fun opener _ answer => ?_
      cases answer with
      | admitting own moment =>
        obtain ⟨pre, before, came, found⟩ := moment.later _
        exact .deleting ⟨pre, before, came, user, found, own, admin⟩
    · rw [if_pos admin] at hs
      cases hs
      refine h.moved rfl rfl rfl at_i fun opener _ answer => ?_
      cases answer with
      | admitting own moment =>
        obtain ⟨pre, before, came, found⟩ := moment.later _
        exact .refused ⟨pre, before, came, user, found, own, admin⟩
  | _ => cases hs

theorem Answers.published {i : ℕ} {opener : Label UserId Time} {r : Request UserId Time}
    {event : UserEvent UserId} {response : Response UserId Time} (h : Answers ops ls i opener r)
    (waiting : r.publishing = some (event, response)) :
    Answers ops (ls ++ [.publishEnds i (.ok ())]) i opener (.ended (.ok response)) := by
  have here : Label.publishEnds i (.ok ()) ∈ ls ++ [.publishEnds i (.ok ())] :=
    List.mem_append_right ls List.mem_cons_self
  cases r with
  | creating user =>
    cases waiting
    cases h with
    | creating valid => exact .created valid here
  | deletePublishing id user =>
    cases waiting
    cases h with
    | deletePublishing admitted gone =>
      exact .deleted (admitted.later _) (List.mem_append_left _ gone) here
  | _ => cases waiting

theorem Answers.raised {i : ℕ} {opener : Label UserId Time} {r : Request UserId Time}
    {sent : UserEvent UserId × Response UserId Time} (h : Answers ops ls i opener r)
    (waiting : r.publishing = some sent) (e : Exn) :
    Answers ops (ls ++ [.publishEnds i (.error e)]) i opener (.ended (.error e)) := by
  have here : Label.publishEnds i (.error e) ∈ ls ++ [.publishEnds i (.error e)] :=
    List.mem_append_right ls List.mem_cons_self
  cases r with
  | creating user =>
    cases h with
    | creating valid => exact .createRaised valid here
  | deletePublishing id user =>
    cases h with
    | deletePublishing admitted gone =>
      exact .deleteRaised (admitted.later _) (List.mem_append_left _ gone) here
  | _ => cases waiting

theorem Inv.publishes (h : Inv ops ls s) {i : ℕ} {r : Request UserId Time}
    {outcome : Except Exn Unit} (at_i : s.requests[i]? = some r)
    (hs : stepPublish s i r outcome = some u) :
    Inv ops (ls ++ [.publishEnds i outcome]) u := by
  cases outcome with
  | ok _ =>
    obtain ⟨⟨event, response⟩, waiting, rfl⟩ := Option.map_eq_some_iff.mp hs
    have moved : Inv ops (ls ++ [.publishEnds i (.ok ())]) (s.setRequest i (.ended (.ok response))) :=
      h.moved rfl rfl rfl at_i fun opener _ answer => answer.published waiting
    exact ⟨⟨moved.store, moved.issued, moved.distinct, moved.poppedIds⟩, moved.aligned,
      moved.answers⟩
  | error e =>
    obtain ⟨sent, waiting, rfl⟩ := Option.map_eq_some_iff.mp hs
    exact h.moved rfl rfl rfl at_i fun opener _ answer => answer.raised waiting e

theorem inv_step (h : Inv ops ls s) (hs : step ops s l = some u) : Inv ops (ls ++ [l]) u := by
  cases l with
  | post body id now =>
    rw [step] at hs
    cases checked : validate ops body with
    | error errors =>
      simp only [checked] at hs
      cases hs
      refine h.opened rfl ?_ rfl (.rejected checked)
      simp only [accepted?, checked]
    | ok fields =>
      simp only [checked] at hs
      split at hs
      · cases hs
      · rename_i fresh
        cases hs
        exact h.created checked fresh
  | list =>
    cases hs
    refine h.opened rfl rfl rfl (.listed ⟨ls, List.prefix_rfl, rfl, ?_⟩)
    rw [h.store, keyed, List.map_map]
    exact List.map_id _
  | get id =>
    cases hs
    exact h.opened rfl rfl rfl .getting
  | delete id =>
    cases hs
    exact h.opened rfl rfl rfl .checking
  | getCurrentUser i =>
    obtain ⟨r, at_i, moved⟩ := Option.bind_eq_some_iff.mp hs
    exact h.gets at_i moved
  | requireAdmin i =>
    obtain ⟨r, at_i, moved⟩ := Option.bind_eq_some_iff.mp hs
    exact h.requires at_i moved
  | popUser i =>
    obtain ⟨r, at_i, moved⟩ := Option.bind_eq_some_iff.mp hs
    cases r with
    | deleting id =>
      cases moved
      exact h.pops at_i
    | _ => cases moved
  | publishEnds i outcome =>
    obtain ⟨r, at_i, moved⟩ := Option.bind_eq_some_iff.mp hs
    exact h.publishes at_i moved

theorem inv_run (run : Runs (step ops) (initial ⟨[], List.nodup_nil⟩) ls s) : Inv ops ls s :=
  run.history (Inv ops) (inv_initial ops) (fun _ _ _ _ h hs => inv_step h hs)

/-- Over every interleaving, `GET /users/` lists the users created so far that no deletion
has popped, each once, as they were created and in that order. -/
theorem listed_live (run : Runs (step ops) (initial ⟨[], List.nodup_nil⟩) ls s) :
    s.fakeUsersDb.map Prod.snd = live ops ls ∧ ((live ops ls).map User.id).Nodup := by
  have h := inv_run run
  have kept : ((live ops ls).map User.id).Sublist ((accepted ops ls).map User.id) :=
    List.filter_sublist.map User.id
  refine ⟨?_, h.distinct.sublist kept⟩
  rw [h.store, keyed, List.map_map]
  exact List.map_id _

/-- Over every interleaving, each request gives its own answer: the one of the sequential
store to what its own label asked, as its own look-up is made, or that of its own publish. -/
theorem requests_answered (run : Runs (step ops) (initial ⟨[], List.nodup_nil⟩) ls s) (i : ℕ)
    (r : Request UserId Time) (at_i : s.requests[i]? = some r) :
    ∃ opener, (openers ls)[i]? = some opener ∧ Answers ops ls i opener r := by
  have h := inv_run run
  have at_open := List.getElem?_eq_getElem (h.came at_i)
  exact ⟨_, at_open, h.answers i _ _ at_open at_i⟩

end Invariant

section Examples

def overtaken : List (Label String Unit) :=
  [.post ann "u1" (), .list, .publishEnds 0 (.ok ()), .delete "u1", .get "u1", .getCurrentUser 2,
    .requireAdmin 2, .popUser 2, .getCurrentUser 3]

theorem overtaken_listed : ∃ s, Runs (step asciiOps) (initial ⟨[], List.nodup_nil⟩) overtaken s ∧
    s.fakeUsersDb.map Prod.snd = live asciiOps overtaken ∧ s.fakeUsersDb = [] := by
  obtain ⟨s, run, empty⟩ : ∃ s, Runs (step asciiOps) (initial ⟨[], List.nodup_nil⟩) overtaken s ∧
      s.fakeUsersDb = [] := ⟨_, Runs.of_execute rfl, rfl⟩
  exact ⟨s, run, (listed_live run).1, empty⟩

theorem overtaken_answered : ∃ s, Runs (step asciiOps) (initial ⟨[], List.nodup_nil⟩) overtaken s ∧
    ∃ opener, (openers overtaken)[3]? = some opener ∧
      Answers asciiOps overtaken 3 opener (.ended (.error notFound)) := by
  obtain ⟨s, run, missed⟩ : ∃ s, Runs (step asciiOps) (initial ⟨[], List.nodup_nil⟩) overtaken s ∧
      s.requests[3]? = some (.ended (.error notFound)) := ⟨_, Runs.of_execute rfl, rfl⟩
  exact ⟨s, run, requests_answered run 3 _ missed⟩

end Examples

end FastapiProject.UserAnswers
