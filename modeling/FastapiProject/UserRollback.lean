import FastapiProject.UserEvents

set_option autoImplicit false

/-!
# User requests whose publish raises

The store is written first and nothing takes the write back. A request that raises has
left the store as it found it only where another request has been there.
-/
namespace FastapiProject.UserRollback
open PythonExceptions MachineRuns IndexedLists UserModels UserRequests UserEvents

variable {UserId Time : Type}

def Quiet (s : State UserId Time) : Prop := ∀ r ∈ s.requests, r.publishing = none

def Waits (id : UserId) (r : Request UserId Time) : Prop :=
  ∃ event response, r.publishing = some (event, response) ∧ event.id = id

theorem waits_creating (user : User UserId Time) : Waits user.id (.creating user) :=
  ⟨_, _, rfl, rfl⟩

theorem waits_deleting (id : UserId) (popped : Option (User UserId Time)) :
    Waits id (.deletePublishing id popped) := ⟨_, _, rfl, rfl⟩

theorem not_waits {id : UserId} {r : Request UserId Time} (h : r.publishing = none) :
    ¬ Waits id r := by
  rintro ⟨event, response, waiting, -⟩
  rw [h] at waiting
  cases waiting

variable [DecidableEq UserId]

/-- Under its user's id the store holds what the write of the request has replaced. -/
def Restored (db : List (UserId × User UserId Time)) : Request UserId Time → Prop
  | .creating user => dictGet db user.id = none
  | .deletePublishing id popped => dictGet db id = popped
  | _ => True

/-- A request that raises writes nothing any more, and its earlier write is undone. -/
def FailsClean (s : State UserId Time) (_ : Label UserId Time) (u : State UserId Time) : Prop :=
  ∀ (i : ℕ) r e, s.requests[i]? = some r → (∀ outcome, r ≠ Request.ended outcome) →
    u.requests[i]? = some (.ended (.error e)) →
      u.fakeUsersDb = s.fakeUsersDb ∧ Restored u.fakeUsersDb r

/-- While no request is at its publish, the store is what the events say: a user was there
from the start or its creation was published, and its deletion was not. -/
def AgreesWithEvents (db : Dict UserId (User UserId Time)) (_ : State UserId Time)
    (_ : Label UserId Time) (u : State UserId Time) : Prop :=
  Quiet u → ∀ id, dictGet u.fakeUsersDb id ≠ none ↔
    (dictGet db.entries id ≠ none ∨ "user.created" ∈ eventsFor u id) ∧
      "user.deleted" ∉ eventsFor u id

/-- A publish raises only for a creation whose user has been popped again, or for a
deletion that has popped nothing. -/
def RaisesHarmlessly (s : State UserId Time) (l : Label UserId Time) (_ : State UserId Time) : Prop :=
  ∀ i e, l = .publishEnds i (.error e) →
    (∀ user, s.requests[i]? = some (.creating user) → dictGet s.fakeUsersDb user.id = none) ∧
    ∀ id popped, s.requests[i]? = some (.deletePublishing id popped) → popped = none

def Origin (db : Dict UserId (User UserId Time)) (s : State UserId Time) (id : UserId) : Prop :=
  dictGet db.entries id ≠ none ∨ "user.created" ∈ eventsFor s id ∨
    ∃ user : User UserId Time, .creating user ∈ s.requests ∧ user.id = id

structure SettledAt (db : Dict UserId (User UserId Time)) (s : State UserId Time) (id : UserId) :
    Prop where
  live : dictGet s.fakeUsersDb id ≠ none → Origin db s id ∧ "user.deleted" ∉ eventsFor s id ∧
    ∀ popped, .deletePublishing id popped ∉ s.requests
  gone : dictGet s.fakeUsersDb id = none → Origin db s id → "user.deleted" ∈ eventsFor s id ∨
    ∃ user, .deletePublishing id (some user) ∈ s.requests

structure Settled (db : Dict UserId (User UserId Time)) (s : State UserId Time) : Prop where
  known : Known s
  started : ∀ id, dictGet db.entries id ≠ none → id ∈ s.issuedIds
  at_id : ∀ id, SettledAt db s id

section Steps
variable {db : Dict UserId (User UserId Time)} {s u : State UserId Time} {l : Label UserId Time}

theorem settled_initial (db : Dict UserId (User UserId Time)) : Settled db (initial db) where
  known := known_initial db
  started := (known_initial db).stored
  at_id id :=
    { live := fun stored => ⟨.inl stored, List.not_mem_nil, by rintro _ ⟨⟩⟩
      gone := by
        rintro absent (started | ⟨⟨⟩⟩ | ⟨_, ⟨⟩, _⟩)
        exact absurd absent started }

structure SameFor (id : UserId) (s u : State UserId Time) : Prop where
  stored : dictGet u.fakeUsersDb id = dictGet s.fakeUsersDb id
  events : eventsFor u id = eventsFor s id
  requests : ∀ r, Waits id r → (r ∈ u.requests ↔ r ∈ s.requests)

theorem settledAt_of_same {id : UserId} (h : SettledAt db s id) (same : SameFor id s u) :
    SettledAt db u id := by
  have creating : (∃ user : User UserId Time, .creating user ∈ u.requests ∧ user.id = id) ↔
      ∃ user : User UserId Time, .creating user ∈ s.requests ∧ user.id = id := by
    refine exists_congr fun user => and_congr_left ?_
    rintro rfl
    exact same.requests _ (waits_creating user)
  have deleting popped := same.requests _ (waits_deleting id popped)
  have origin : Origin db u id ↔ Origin db s id := by
    rw [Origin, Origin, same.events, creating]
  constructor
  · rw [same.stored, origin, same.events]
    simp only [deleting]
    exact h.live
  · rw [same.stored, origin, same.events]
    simp only [deleting]
    exact h.gone

theorem sameFor_addRequest {id : UserId} {r : Request UserId Time} (h : ¬ Waits id r) :
    SameFor id s (s.addRequest r) := by
  refine ⟨rfl, rfl, fun r' waits => ?_⟩
  rw [addRequest_requests, List.mem_append, List.mem_singleton]
  have ne : r' ≠ r := by
    rintro rfl
    exact h waits
  exact ⟨fun mem => mem.resolve_right ne, .inl⟩

theorem sameFor_setRequest {id : UserId} {i : ℕ} {r r' : Request UserId Time}
    (at_i : s.requests[i]? = some r) (before : ¬ Waits id r) (after : ¬ Waits id r') :
    SameFor id s (s.setRequest i r') := by
  refine ⟨rfl, rfl, fun q waits => ?_⟩
  apply mem_set_iff at_i
  · rintro rfl
    exact before waits
  · rintro rfl
    exact after waits

theorem fresh_untouched {id : UserId} (known : Known s) (fresh : id ∉ s.issuedIds) :
    eventsFor s id = [] ∧ ∀ r ∈ s.requests, ¬ Waits id r := by
  constructor
  · rw [eventsFor, List.map_eq_nil_iff, List.filter_eq_nil_iff]
    intro event mem
    rw [decide_eq_true_eq]
    rintro rfl
    exact fresh (known.published event mem)
  · rintro r mem ⟨event, response, waiting, rfl⟩
    exact fresh (known.users r mem _ (publishing_user waiting))

theorem settled_creates {user : User UserId Time} (h : Settled db s)
    (fresh : user.id ∉ s.issuedIds) (id : UserId) : SettledAt db (State.addRequest
      { s with
        fakeUsersDb := dictSet s.fakeUsersDb user.id user
        issuedIds := user.id :: s.issuedIds } (.creating user)) id := by
  by_cases same : user.id = id
  · subst same
    obtain ⟨silent, untouched⟩ := fresh_untouched h.known fresh
    constructor
    · intro _
      refine ⟨.inr (.inr ⟨user, List.mem_append_right _ List.mem_cons_self, rfl⟩), ?_, ?_⟩
      · change "user.deleted" ∉ eventsFor s user.id
        rw [silent]
        exact List.not_mem_nil
      · intro popped mem
        rcases List.mem_append.mp mem with old | new
        · exact untouched _ old (waits_deleting _ _)
        · cases List.mem_singleton.mp new
    · intro absent
      change dictGet (dictSet s.fakeUsersDb user.id user) user.id = none at absent
      rw [dictGet_dictSet, if_pos rfl] at absent
      cases absent
  · apply settledAt_of_same (h.at_id id)
    have others : ¬ Waits id (.creating user) := by
      rintro ⟨_, _, ⟨⟩, own⟩
      exact same own
    refine ⟨?_, rfl, (sameFor_addRequest others).requests⟩
    change dictGet (dictSet s.fakeUsersDb user.id user) id = _
    rw [dictGet_dictSet, if_neg same]

theorem settled_pops {i : ℕ} {k : UserId} (h : Settled db s)
    (at_i : s.requests[i]? = some (.deleting k)) (id : UserId) :
    SettledAt db (deleteUser s i k) id := by
  have popped : dictGet (deleteUser s i k).fakeUsersDb k = none := by
    change dictGet (dictPop s.fakeUsersDb k) k = none
    rw [dictGet_dictPop, if_pos rfl]
  by_cases same : k = id
  · subst same
    constructor
    · exact fun stored => absurd popped stored
    · intro _ origin
      have origin' : Origin db s k := by
        rcases origin with started | created | ⟨user, mem, own⟩
        · exact .inl started
        · exact .inr (.inl created)
        · exact .inr (.inr ⟨user, (mem_set_iff at_i (by rintro ⟨⟩) (by rintro ⟨⟩)).mp mem, own⟩)
      cases found : dictGet s.fakeUsersDb k with
      | none =>
        rcases (h.at_id k).gone found origin' with deleted | ⟨user, mem⟩
        · exact .inl deleted
        · exact .inr ⟨user, mem_set_other at_i mem (by rintro ⟨⟩)⟩
      | some user =>
        right
        refine ⟨user, ?_⟩
        rw [deleteUser_requests, found]
        exact mem_set_here at_i _
  · apply settledAt_of_same (h.at_id id)
    refine ⟨?_, rfl, fun r waits => ?_⟩
    · change dictGet (dictPop s.fakeUsersDb k) id = _
      rw [dictGet_dictPop, if_neg same]
    · apply mem_set_iff at_i
      · rintro rfl
        exact not_waits rfl waits
      · rintro rfl
        obtain ⟨_, _, ⟨⟩, own⟩ := waits
        exact same own

theorem gone_set {i : ℕ} {id : UserId} {r r' : Request UserId Time}
    (at_i : s.requests[i]? = some r) (other : ∀ user, r ≠ .deletePublishing id (some user))
    (gone : "user.deleted" ∈ eventsFor s id ∨ ∃ user, .deletePublishing id (some user) ∈ s.requests) :
    "user.deleted" ∈ eventsFor s id ∨
      ∃ user, .deletePublishing id (some user) ∈ s.requests.set i r' := by
  rcases gone with deleted | ⟨user, mem⟩
  · exact .inl deleted
  · exact .inr ⟨user, mem_set_other at_i mem (other user)⟩

theorem settled_publishes {i : ℕ} {r : Request UserId Time} {event : UserEvent UserId}
    {response : Response UserId Time} (h : Settled db s) (at_i : s.requests[i]? = some r)
    (waiting : r.publishing = some (event, response)) (id : UserId) :
    SettledAt db (s.publishReturned i event response) id := by
  have mem := List.mem_of_getElem? at_i
  have events := eventsFor_publish s i event response id
  by_cases same : event.id = id
  · subst same
    have settled := h.at_id event.id
    rw [if_pos rfl] at events
    cases r with
    | creating user =>
      cases waiting
      constructor
      · intro stored
        obtain ⟨-, kept, idle⟩ := settled.live stored
        rw [Origin, events]
        refine ⟨.inr (.inl (List.mem_append_right _ List.mem_cons_self)), ?_, ?_⟩
        · intro deleted
          rcases List.mem_append.mp deleted with old | new
          · exact kept old
          · have types : ¬ "user.deleted" = "user.created" := by decide
            exact types (List.mem_singleton.mp new)
        · intro popped mem'
          rcases List.mem_or_eq_of_mem_set mem' with old | ⟨⟨⟩⟩
          exact idle popped old
      · intro absent _
        have gone := settled.gone absent (.inr (.inr ⟨user, mem, rfl⟩))
        rw [events]
        exact (gone_set at_i (by rintro _ ⟨⟩) gone).imp_left (List.mem_append_left _)
    | deletePublishing k popped =>
      cases waiting
      constructor
      · exact fun stored => absurd mem ((settled.live stored).2.2 popped)
      · intro _ _
        rw [events]
        exact .inl (List.mem_append_right _ List.mem_cons_self)
    | _ => cases waiting
  · apply settledAt_of_same (h.at_id id)
    rw [if_neg same] at events
    have before : ¬ Waits id r := by
      rintro ⟨_, _, waiting', own⟩
      rw [waiting] at waiting'
      cases waiting'
      exact same own
    exact ⟨rfl, events, (sameFor_setRequest at_i before (not_waits rfl)).requests⟩

theorem settled_raises {i : ℕ} {r : Request UserId Time} {e : Exn} (h : Settled db s)
    (at_i : s.requests[i]? = some r) (harmless : RaisesHarmlessly s (.publishEnds i (.error e)) u)
    (id : UserId) : SettledAt db (s.setRequest i (.ended (.error e))) id := by
  have mem := List.mem_of_getElem? at_i
  have settled := h.at_id id
  obtain ⟨repopped, found⟩ := harmless i e rfl
  by_cases same : Waits id r
  · have absent : dictGet s.fakeUsersDb id = none := by
      obtain ⟨event, response, waiting, rfl⟩ := same
      cases r with
      | creating user =>
        cases waiting
        exact repopped user at_i
      | deletePublishing k popped =>
        cases waiting
        by_contra stored
        exact (settled.live stored).2.2 popped mem
      | _ => cases waiting
    refine ⟨fun stored => absurd absent stored, fun _ origin => ?_⟩
    have origin' : Origin db s id := by
      rcases origin with started | created | ⟨user, mem', own⟩
      · exact .inl started
      · exact .inr (.inl created)
      · rcases List.mem_or_eq_of_mem_set mem' with old | ⟨⟨⟩⟩
        exact .inr (.inr ⟨user, old, own⟩)
    refine gone_set at_i ?_ (settled.gone absent origin')
    rintro user rfl
    cases found id (some user) at_i
  · exact settledAt_of_same settled (sameFor_setRequest at_i same (not_waits rfl))

theorem settled_step (h : Settled db s) (hs : UserStep s l u) (harmless : RaisesHarmlessly s l u) :
    Settled db u := by
  have known := known_step h.known hs
  cases hs with
  | creates user fresh =>
    exact ⟨known, fun id mem => List.mem_cons_of_mem _ (h.started id mem), settled_creates h fresh⟩
  | opens _ unpublished _ =>
    exact ⟨known, h.started, fun id =>
      settledAt_of_same (h.at_id id) (sameFor_addRequest (not_waits unpublished.1))⟩
  | checks _ at_i before after _ =>
    exact ⟨known, h.started, fun id =>
      settledAt_of_same (h.at_id id)
        (sameFor_setRequest at_i (not_waits before.1) (not_waits after.1))⟩
  | pops at_i => exact ⟨known, h.started, settled_pops h at_i⟩
  | publishes at_i waiting => exact ⟨known, h.started, settled_publishes h at_i waiting⟩
  | raises at_i _ => exact ⟨known, h.started, settled_raises h at_i harmless⟩

theorem deleting_absent (h : Settled db s) {id : UserId} {popped : Option (User UserId Time)}
    (mem : .deletePublishing id popped ∈ s.requests) : dictGet s.fakeUsersDb id = none := by
  by_contra stored
  exact ((h.at_id id).live stored).2.2 popped mem

omit [DecidableEq UserId] in
theorem publishing_not_ended {r : Request UserId Time} {sent : UserEvent UserId × Response UserId Time}
    (waiting : r.publishing = some sent) (outcome : Except Exn (Response UserId Time)) :
    r ≠ .ended outcome := by
  rintro rfl
  cases waiting

theorem restored_of_unpublished {r : Request UserId Time} (h : r.publishing = none)
    (db : List (UserId × User UserId Time)) : Restored db r := by
  cases r with
  | creating user => cases h
  | deletePublishing id popped => cases h
  | _ => trivial

theorem failsClean_iff_step (h : Settled db s) (hs : UserStep s l u) :
    FailsClean s l u ↔ RaisesHarmlessly s l u := by
  constructor
  · rintro clean i e rfl
    cases hs with
    | opens quiet _ _ => exact absurd rfl (quiet i _)
    | checks quiet _ _ _ _ => exact absurd rfl (quiet i _)
    | raises at_i waiting =>
      have restored := (clean i _ e at_i (publishing_not_ended waiting) (getElem?_set_here at_i _)).2
      refine ⟨fun user at_i' => ?_, fun id popped at_i' => ?_⟩
      · rw [at_i] at at_i'
        cases at_i'
        exact restored
      · rw [at_i] at at_i'
        cases at_i'
        have absent := deleting_absent h (List.mem_of_getElem? at_i)
        exact restored.symm.trans absent
  · intro harmless i r e at_i going ended
    have unmoved (same : u.requests[i]? = some r) : False := by
      rw [same] at ended
      cases ended
      exact going _ rfl
    cases hs with
    | creates _ _ => exact (unmoved (getElem?_concat_old at_i _)).elim
    | opens _ _ _ => exact (unmoved (getElem?_concat_old at_i _)).elim
    | @checks _ j r₀ _ _ at_j before _ _ =>
      by_cases same : j = i
      · subst same
        rw [at_i] at at_j
        cases at_j
        exact ⟨rfl, restored_of_unpublished before.1 _⟩
      · exact (unmoved ((List.getElem?_set_ne same).trans at_i)).elim
    | @pops j id at_j =>
      by_cases same : j = i
      · subst same
        rw [deleteUser_requests, getElem?_set_here at_j] at ended
        cases ended
      · exact (unmoved ((List.getElem?_set_ne same).trans at_i)).elim
    | @publishes j r₀ event response at_j waiting =>
      by_cases same : j = i
      · subst same
        rw [publishReturned_requests, getElem?_set_here at_j] at ended
        cases ended
      · exact (unmoved ((List.getElem?_set_ne same).trans at_i)).elim
    | @raises j r₀ _ e' at_j waiting =>
      by_cases same : j = i
      · subst same
        refine ⟨rfl, ?_⟩
        obtain ⟨repopped, found⟩ := harmless j e' rfl
        cases r with
        | creating user => exact repopped user at_i
        | deletePublishing id popped =>
          have none := found id popped at_i
          subst none
          exact deleting_absent h (List.mem_of_getElem? at_i)
        | _ => trivial
      · exact (unmoved ((List.getElem?_set_ne same).trans at_i)).elim

theorem settled_agrees (h : Settled db u) : AgreesWithEvents db s l u := by
  intro quiet id
  have settled := h.at_id id
  constructor
  · intro stored
    obtain ⟨origin, kept, -⟩ := settled.live stored
    rcases origin with started | created | ⟨user, mem, -⟩
    · exact ⟨.inl started, kept⟩
    · exact ⟨.inr created, kept⟩
    · cases quiet _ mem
  · rintro ⟨origin, kept⟩ absent
    have origin' : Origin db u id := origin.imp_right .inl
    rcases settled.gone absent origin' with deleted | ⟨user, mem⟩
    · exact kept deleted
    · cases quiet _ mem

theorem rolledBack_iff_step (h : Settled db s) (hs : UserStep s l u) :
    FailsClean s l u ∧ AgreesWithEvents db s l u ↔ RaisesHarmlessly s l u := by
  have clean := failsClean_iff_step h hs
  constructor
  · exact fun both => clean.mp both.1
  · intro harmless
    exact ⟨clean.mpr harmless, settled_agrees (settled_step h hs harmless)⟩

/-- From every store, in every run, failing requests leave no half-done change and the
store agrees with the events exactly when a publish raises only where it is harmless. -/
theorem rolledBack_iff (ops : StrOps) (db : Dict UserId (User UserId Time))
    (ls : List (Label UserId Time)) (u : State UserId Time)
    (run : Runs (step ops) (initial db) ls u) :
    Along (step ops) (fun s l u => FailsClean s l u ∧ AgreesWithEvents db s l u) (initial db) ls u ↔
      Along (step ops) RaisesHarmlessly (initial db) ls u := by
  apply run.along_iff (Settled db) (settled_initial db)
  · exact fun s l u h hs harmless => settled_step h (step_userStep hs) harmless
  · exact fun s l u h hs => rolledBack_iff_step h (step_userStep hs)

end Steps

section OneAtATime
variable {db : Dict UserId (User UserId Time)} {s u : State UserId Time} {l : Label UserId Time}

def OneAtATime (s : State UserId Time) (_ : Label UserId Time) (_ : State UserId Time) : Prop :=
  ∀ (i j : ℕ) (r r' : Request UserId Time) id, s.requests[i]? = some r → s.requests[j]? = some r' →
    r.user? = some id → r'.user? = some id → i = j

def Held (db : List (UserId × User UserId Time)) : Request UserId Time → Prop
  | .deletePublishing _ popped => popped ≠ none
  | r => ∀ id, r.user? = some id → dictGet db id ≠ none

theorem held_unpublished {r : Request UserId Time} (h : r.publishing = none)
    (db : List (UserId × User UserId Time)) :
    Held db r ↔ ∀ id, r.user? = some id → dictGet db id ≠ none := by
  cases r with
  | deletePublishing id popped => cases h
  | _ => exact Iff.rfl

theorem held_mono {db db' : List (UserId × User UserId Time)} {r : Request UserId Time}
    (held : Held db r)
    (kept : ∀ id, r.user? = some id → dictGet db id ≠ none → dictGet db' id ≠ none) : Held db' r := by
  cases r with
  | deletePublishing id popped => exact held
  | _ => exact fun id named => kept id named (held id named)

theorem held_pops {i : ℕ} {k : UserId} (held : ∀ r ∈ s.requests, Held s.fakeUsersDb r)
    (alone : OneAtATime s l u) (at_i : s.requests[i]? = some (.deleting k)) :
    ∀ r ∈ (deleteUser s i k).requests, Held (deleteUser s i k).fakeUsersDb r := by
  intro r mem
  obtain ⟨j, at_j⟩ := List.mem_iff_getElem?.mp mem
  rcases getElem?_set_cases at_j with ⟨-, rfl⟩ | ⟨apart, at_j'⟩
  · exact held _ (List.mem_of_getElem? at_i) k rfl
  · apply held_mono (held r (List.mem_of_getElem? at_j'))
    intro id named stored
    have other : k ≠ id := by
      rintro rfl
      exact apart (alone j i r _ k at_j' at_i named rfl)
    change dictGet (dictPop s.fakeUsersDb k) id ≠ none
    rw [dictGet_dictPop, if_neg other]
    exact stored

theorem held_step (held : ∀ r ∈ s.requests, Held s.fakeUsersDb r) (hs : UserStep s l u)
    (alone : OneAtATime s l u) : ∀ r ∈ u.requests, Held u.fakeUsersDb r := by
  cases hs with
  | creates user _ =>
    have stored (id : UserId) (found : user.id = id ∨ dictGet s.fakeUsersDb id ≠ none) :
        dictGet (dictSet s.fakeUsersDb user.id user) id ≠ none := by
      rw [dictGet_dictSet]
      split
      · rintro ⟨⟩
      · exact found.resolve_left ‹_›
    intro r mem
    rcases List.mem_append.mp mem with old | new
    · exact held_mono (held r old) (fun id _ found => stored id (.inr found))
    · cases List.mem_singleton.mp new
      exact fun id named => stored id (.inl (Option.some.inj named))
  | opens _ unpublished anonymous =>
    intro r mem
    rcases List.mem_append.mp mem with old | new
    · exact held r old
    · cases List.mem_singleton.mp new
      refine (held_unpublished unpublished.1 _).mpr fun id named => ?_
      rw [anonymous] at named
      cases named
  | @checks l i r r' _ at_i before after admitted =>
    intro q mem
    rcases List.mem_or_eq_of_mem_set mem with old | rfl
    · exact held q old
    · refine (held_unpublished after.1 _).mpr fun id named => ?_
      rcases admitted id named with known | found
      · exact (held_unpublished before.1 _).mp (held r (List.mem_of_getElem? at_i)) id known
      · exact found
  | pops at_i => exact held_pops held alone at_i
  | publishes _ _ | raises _ _ =>
    intro q mem
    rcases List.mem_or_eq_of_mem_set mem with old | rfl
    · exact held q old
    · rintro _ ⟨⟩

theorem harmless_iff_succeeds (held : ∀ r ∈ s.requests, Held s.fakeUsersDb r)
    (hs : UserStep s l u) : RaisesHarmlessly s l u ↔ PublishSucceeds s l u := by
  constructor
  · rintro harmless i e rfl
    obtain ⟨repopped, found⟩ := harmless i e rfl
    cases hs with
    | opens quiet _ _ => exact quiet i _ rfl
    | checks quiet _ _ _ _ => exact quiet i _ rfl
    | @raises i r _ e at_i waiting =>
      have here := held r (List.mem_of_getElem? at_i)
      cases r with
      | creating user => exact here user.id rfl (repopped user at_i)
      | deletePublishing id popped => exact here (found id popped at_i)
      | _ => cases waiting
  · exact fun succeeds i e raised => absurd raised (succeeds i e)

/-- While no two requests are going on for the same user, the store is left as it was by
failing requests and agrees with the events exactly when no publish raises. -/
theorem oneAtATime_clean_iff (ops : StrOps) (db : Dict UserId (User UserId Time))
    (ls : List (Label UserId Time)) (u : State UserId Time)
    (run : Along (step ops) OneAtATime (initial db) ls u) :
    Along (step ops) (fun s l u => FailsClean s l u ∧ AgreesWithEvents db s l u) (initial db) ls u ↔
      Along (step ops) PublishSucceeds (initial db) ls u := by
  have exact_step (s : State UserId Time) (l : Label UserId Time) (u : State UserId Time)
      (h : Settled db s ∧ ∀ r ∈ s.requests, Held s.fakeUsersDb r) (hs : step ops s l = some u) :
      FailsClean s l u ∧ AgreesWithEvents db s l u ↔ PublishSucceeds s l u :=
    (rolledBack_iff_step h.1 (step_userStep hs)).trans (harmless_iff_succeeds h.2 (step_userStep hs))
  apply run.along_iff (fun s => Settled db s ∧ ∀ r ∈ s.requests, Held s.fakeUsersDb r)
  · exact ⟨settled_initial db, by rintro _ ⟨⟩⟩
  · intro s l u h hs alone succeeds
    have harmless := (harmless_iff_succeeds h.2 (step_userStep hs)).mpr succeeds
    exact ⟨settled_step h.1 (step_userStep hs) harmless, held_step h.2 (step_userStep hs) alone⟩
  · exact fun s l u h hs _ => exact_step s l u h hs

end OneAtATime

section Examples

def deletedMeanwhile : List (Label String Unit) :=
  [.post ann "u1" (), .delete "u1", .getCurrentUser 1, .requireAdmin 1, .popUser 1,
    .publishEnds 1 (.ok ()), .publishEnds 0 (.error .amqpConnectionError)]

theorem failed_creation_stays : ¬ ∀ (db : Dict String (User String Unit)) ls u,
    Runs (step asciiOps) (initial db) ls u → Along (step asciiOps)
      (fun s l u => FailsClean s l u ∧ AgreesWithEvents db s l u) (initial db) ls u := by
  intro h
  have along := h ⟨[], List.nodup_nil⟩
    ([.post ann "u1" ()] ++ [.publishEnds 0 (.error .amqpConnectionError)]) _ (Runs.of_execute rfl)
  obtain ⟨w, before, enabled, clean, -⟩ := along.last
  cases before
  cases enabled
  cases (clean 0 _ _ rfl (by rintro _ ⟨⟩) rfl).2

theorem deleted_meanwhile_clean : ∃ u, Along (step asciiOps)
    (fun s l u => FailsClean s l u ∧ AgreesWithEvents ⟨[], List.nodup_nil⟩ s l u)
      (initial ⟨[], List.nodup_nil⟩) deletedMeanwhile u ∧ u.fakeUsersDb = [] := by
  have harmless : ∃ u, Along (step asciiOps) RaisesHarmlessly (initial ⟨[], List.nodup_nil⟩)
      deletedMeanwhile u ∧ u.fakeUsersDb = [] := by
    refine ⟨_, .cons rfl ?_ (.cons rfl ?_ (.cons rfl ?_ (.cons rfl ?_ (.cons rfl ?_ (.cons rfl ?_
      (.single rfl ?_)))))), rfl⟩
    · rintro _ _ ⟨⟩
    · rintro _ _ ⟨⟩
    · rintro _ _ ⟨⟩
    · rintro _ _ ⟨⟩
    · rintro _ _ ⟨⟩
    · rintro _ _ ⟨⟩
    · rintro _ _ ⟨⟩
      exact ⟨by rintro _ ⟨⟩; rfl, by rintro _ _ ⟨⟩⟩
  obtain ⟨u, harmless, empty⟩ := harmless
  exact ⟨u, (rolledBack_iff asciiOps _ deletedMeanwhile u harmless.runs).mpr harmless, empty⟩

end Examples

end FastapiProject.UserRollback
