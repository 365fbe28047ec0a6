import FastapiProject.UserRequests

set_option autoImplicit false

/-!
# The events of one user

While every publish succeeds, an issued id has its created event or is still at the
publish of it, and it has a deleted event for each deletion that has been answered.
-/
namespace FastapiProject.UserEvents
open PythonExceptions MachineRuns IndexedLists UserModels UserRequests

variable {UserId Time : Type}

def PublishSucceeds (_ : State UserId Time) (l : Label UserId Time) (_ : State UserId Time) : Prop :=
  ∀ i e, l ≠ .publishEnds i (.error e)

section Counts
variable [DecidableEq UserId]

/-- Created at most once and first, deleted at most once and only then. -/
def FollowsLife (_ : State UserId Time) (_ : Label UserId Time) (u : State UserId Time) : Prop :=
  ∀ id, eventsFor u id <+: ["user.created", "user.deleted"]

def isCreating (id : UserId) : Request UserId Time → Bool
  | .creating user => user.id = id
  | _ => false

def hasDeleted (id : UserId) : Request UserId Time → Bool
  | .ended (.ok (.deleted k)) => k = id
  | _ => false

/-- Where a deletion is published, the creation of the user has been published, and no
other deletion of it has been answered. -/
def DeletesOnceCreated (s : State UserId Time) (l : Label UserId Time) (_ : State UserId Time) :
    Prop :=
  ∀ i id popped, l = .publishEnds i (.ok ()) →
    s.requests[i]? = some (.deletePublishing id popped) →
      ∀ r ∈ s.requests, isCreating id r = false ∧ hasDeleted id r = false

structure Counted (s : State UserId Time) : Prop where
  known : Known s
  created : ∀ id, (eventsFor s id).count "user.created" + s.requests.countP (isCreating id) =
    if id ∈ s.issuedIds then 1 else 0
  deleted : ∀ id, (eventsFor s id).count "user.deleted" = s.requests.countP (hasDeleted id)

theorem counted_initial : Counted (initial ⟨[], List.nodup_nil⟩ : State UserId Time) where
  known := known_initial _
  created _ := rfl
  deleted _ := rfl

theorem unpublished_counts {r : Request UserId Time} (h : r.Unpublished) (id : UserId) :
    isCreating id r = false ∧ hasDeleted id r = false := by
  cases r with
  | creating user => cases h.1
  | ended outcome =>
    refine ⟨rfl, ?_⟩
    match outcome with
    | .ok (.deleted k) => exact absurd rfl (h.2 k)
    | .error _ | .ok (.created _) | .ok (.listed _) | .ok (.got _) => rfl
  | _ => exact ⟨rfl, rfl⟩

theorem publishing_counts {r : Request UserId Time} {event : UserEvent UserId}
    {response : Response UserId Time} (waiting : r.publishing = some (event, response))
    (id : UserId) :
    isCreating id r = decide (event.id = id ∧ event.eventType = "user.created") ∧
      hasDeleted id r = false ∧ isCreating id (.ended (.ok response) : Request UserId Time) = false ∧
      hasDeleted id (.ended (.ok response) : Request UserId Time) =
        decide (event.id = id ∧ event.eventType = "user.deleted") := by
  cases r <;> cases waiting <;> simp [isCreating, hasDeleted, UserEvent.id, UserEvent.eventType]

variable {s u : State UserId Time} {l : Label UserId Time}

theorem count_publish (s : State UserId Time) (i : ℕ) (event : UserEvent UserId)
    (response : Response UserId Time) (id : UserId) (eventType : String) :
    (eventsFor (s.publishReturned i event response) id).count eventType =
      (eventsFor s id).count eventType +
        if event.id = id ∧ event.eventType = eventType then 1 else 0 := by
  rw [eventsFor_publish]
  by_cases same : event.id = id
  · simp [same, List.count_singleton]
  · simp [same]

theorem counted_creates {user : User UserId Time} (h : Counted s) (fresh : user.id ∉ s.issuedIds)
    (id : UserId) : (eventsFor s id).count "user.created" +
      (s.requests ++ [Request.creating user]).countP (isCreating id) =
        if id ∈ user.id :: s.issuedIds then 1 else 0 := by
  have before := h.created id
  rw [countP_concat]
  by_cases same : user.id = id
  · subst same
    rw [if_neg fresh] at before
    simp only [isCreating, decide_true, ↓reduceIte, List.mem_cons_self]
    omega
  · have unchanged : id ∈ user.id :: s.issuedIds ↔ id ∈ s.issuedIds := by simp [Ne.symm same]
    simp only [isCreating, same, decide_false, Bool.false_eq_true, ↓reduceIte, unchanged]
    omega

theorem counted_step (h : Counted s) (hs : UserStep s l u) (succeeds : PublishSucceeds s l u) :
    Counted u := by
  have known := known_step h.known hs
  cases hs with
  | creates user fresh =>
    refine ⟨known, counted_creates h fresh, fun id => ?_⟩
    rw [addRequest_requests, countP_concat]
    exact h.deleted id
  | @opens l r _ unpublished _ =>
    have unchanged := unpublished_counts unpublished
    refine ⟨known, fun id => ?_, fun id => ?_⟩
    · rw [addRequest_requests, countP_concat, (unchanged id).1]
      exact h.created id
    · rw [addRequest_requests, countP_concat, (unchanged id).2]
      exact h.deleted id
  | @checks l i r r' _ at_i unpublished unpublished' _ =>
    refine ⟨known, fun id => ?_, fun id => ?_⟩
    · have moved := countP_set_add at_i (isCreating id) r'
      rw [(unpublished_counts unpublished id).1, (unpublished_counts unpublished' id).1] at moved
      rw [setRequest_requests, show (s.requests.set i r').countP _ = _ from moved]
      exact h.created id
    · have moved := countP_set_add at_i (hasDeleted id) r'
      rw [(unpublished_counts unpublished id).2, (unpublished_counts unpublished' id).2] at moved
      exact (h.deleted id).trans (Eq.symm moved)
  | @pops i k at_i =>
    refine ⟨known, fun id => ?_, fun id => ?_⟩
    · have moved := countP_set_add at_i (isCreating id)
        (.deletePublishing k (dictGet s.fakeUsersDb k))
      rw [deleteUser_requests, show (s.requests.set i _).countP _ = _ from moved]
      exact h.created id
    · have moved := countP_set_add at_i (hasDeleted id)
        (.deletePublishing k (dictGet s.fakeUsersDb k))
      exact (h.deleted id).trans (Eq.symm moved)
  | @publishes i r event response at_i waiting =>
    refine ⟨known, fun id => ?_, fun id => ?_⟩
    · have moved := countP_set_add at_i (isCreating id) (.ended (.ok response))
      obtain ⟨creating, -, ended, -⟩ := publishing_counts waiting id
      have before := h.created id
      simp only [creating, ended, decide_eq_true_eq, Bool.false_eq_true, ↓reduceIte] at moved
      rw [count_publish, publishReturned_requests, publishReturned_issuedIds]
      omega
    · have moved := countP_set_add at_i (hasDeleted id) (.ended (.ok response))
      obtain ⟨-, waited, -, deleted⟩ := publishing_counts waiting id
      have before := h.deleted id
      simp only [waited, deleted, decide_eq_true_eq, Bool.false_eq_true, ↓reduceIte] at moved
      rw [count_publish, publishReturned_requests]
      omega
  | @raises i _ _ e _ _ => exact absurd rfl (succeeds i e)

theorem life_cases {events : List String} (h : events <+: ["user.created", "user.deleted"]) :
    events = [] ∨ events = ["user.created"] ∨ events = ["user.created", "user.deleted"] := by
  rw [List.prefix_cons_iff] at h
  rcases h with none | ⟨rest, rfl, h⟩
  · exact .inl none
  · rw [List.prefix_cons_iff] at h
    rcases h with rfl | ⟨rest, rfl, h⟩
    · exact .inr (.inl rfl)
    · rw [List.prefix_nil.mp h]
      exact .inr (.inr rfl)

theorem created_next {events : List String} (h : events <+: ["user.created", "user.deleted"])
    (uncreated : events.count "user.created" = 0) :
    events ++ ["user.created"] <+: ["user.created", "user.deleted"] := by
  rcases life_cases h with rfl | rfl | rfl
  · exact ⟨["user.deleted"], rfl⟩
  · cases uncreated
  · cases uncreated

theorem deleted_next {events : List String} (h : events <+: ["user.created", "user.deleted"]) :
    events ++ ["user.deleted"] <+: ["user.created", "user.deleted"] ↔
      events.count "user.created" = 1 ∧ events.count "user.deleted" = 0 := by
  rcases life_cases h with rfl | rfl | rfl <;> decide

theorem follows_publish (follows : FollowsLife s l s) (i : ℕ) (event : UserEvent UserId)
    (response : Response UserId Time) : FollowsLife s l (s.publishReturned i event response) ↔
      eventsFor s event.id ++ [event.eventType] <+: ["user.created", "user.deleted"] := by
  constructor
  · intro all
    have here := all event.id
    rw [eventsFor_publish, if_pos rfl] at here
    exact here
  · intro here id
    rw [eventsFor_publish]
    split
    · rename_i same
      exact same ▸ here
    · exact follows id

theorem deletesOnce_iff {i : ℕ} {id : UserId} {popped : Option (User UserId Time)}
    (at_i : s.requests[i]? = some (.deletePublishing id popped)) :
    DeletesOnceCreated s (.publishEnds i (.ok ())) u ↔
      s.requests.countP (isCreating id) = 0 ∧ s.requests.countP (hasDeleted id) = 0 := by
  rw [List.countP_eq_zero, List.countP_eq_zero]
  simp only [Bool.not_eq_true]
  constructor
  · intro once
    have here := once i id popped rfl at_i
    exact ⟨fun r mem => (here r mem).1, fun r mem => (here r mem).2⟩
  · rintro ⟨created, once⟩ j id' popped' hl at_j r mem
    cases hl
    rw [at_i] at at_j
    cases at_j
    exact ⟨created r mem, once r mem⟩

theorem follows_iff_step (h : Counted s) (follows : FollowsLife s l s) (hs : UserStep s l u)
    (succeeds : PublishSucceeds s l u) : FollowsLife s l u ↔ DeletesOnceCreated s l u := by
  have unaffected (quiet : ∀ i outcome, l ≠ .publishEnds i outcome)
      (same : ∀ id, eventsFor u id = eventsFor s id) :
      FollowsLife s l u ↔ DeletesOnceCreated s l u := by
    refine ⟨fun _ i _ _ hl => absurd hl (quiet i _), fun _ id => ?_⟩
    rw [same]
    exact follows id
  cases hs with
  | creates user fresh => exact unaffected (by rintro _ _ ⟨⟩) (fun _ => rfl)
  | opens quiet _ _ => exact unaffected quiet (fun _ => rfl)
  | checks quiet _ _ _ _ => exact unaffected quiet (fun _ => rfl)
  | pops at_i => exact unaffected (by rintro _ _ ⟨⟩) (fun _ => rfl)
  | @publishes i r event response at_i waiting =>
    have mem := List.mem_of_getElem? at_i
    have counted := h.created event.id
    rw [if_pos (h.known.users r mem _ (publishing_user waiting))] at counted
    rw [follows_publish follows]
    cases r with
    | creating user =>
      cases waiting
      have own : 0 < s.requests.countP (isCreating user.id) :=
        List.countP_pos_iff.mpr ⟨_, mem, decide_eq_true rfl⟩
      have uncreated : (eventsFor s user.id).count "user.created" = 0 := by
        change _ + s.requests.countP (isCreating user.id) = 1 at counted
        change (eventsFor s user.id).count _ + _ = 1 at counted
        omega
      refine ⟨fun _ j id popped hl at_j => ?_, fun _ => created_next (follows user.id) uncreated⟩
      cases hl
      rw [at_i] at at_j
      cases at_j
    | deletePublishing id popped =>
      cases waiting
      change (eventsFor s id).count _ + s.requests.countP (isCreating id) = 1 at counted
      have deleted := h.deleted id
      rw [deletesOnce_iff at_i]
      refine (deleted_next (follows id)).trans ?_
      omega
    | _ => cases waiting
  | @raises i _ _ e _ _ => exact absurd rfl (succeeds i e)

/-- In every run whose publishes succeed, the events of each user are a prefix of created,
deleted exactly when every deletion is published once and after the creation. -/
theorem followsLife_iff (ops : StrOps) (ls : List (Label UserId Time)) (u : State UserId Time)
    (run : Along (step ops) PublishSucceeds (initial ⟨[], List.nodup_nil⟩) ls u) :
    Along (step ops) FollowsLife (initial ⟨[], List.nodup_nil⟩) ls u ↔
      Along (step ops) DeletesOnceCreated (initial ⟨[], List.nodup_nil⟩) ls u := by
  have exact_step (s : State UserId Time) (l : Label UserId Time) (u : State UserId Time)
      (h : Counted s ∧ ∀ l, FollowsLife s l s) (hs : step ops s l = some u)
      (succeeds : PublishSucceeds s l u) : FollowsLife s l u ↔ DeletesOnceCreated s l u :=
    follows_iff_step h.1 (h.2 l) (step_userStep hs) succeeds
  apply run.along_iff (fun s => Counted s ∧ ∀ l, FollowsLife s l s)
  · exact ⟨counted_initial, fun _ _ => List.nil_prefix⟩
  · intro s l u h hs succeeds once
    have follows := (exact_step s l u h hs succeeds).mpr once
    exact ⟨counted_step h.1 (step_userStep hs) succeeds, fun _ => follows⟩
  · exact exact_step

end Counts

section Examples

def untilDeleted : List (Label String Unit) :=
  [.post ann "u1" (), .publishEnds 0 (.ok ()), .delete "u1", .getCurrentUser 1, .requireAdmin 1,
    .popUser 1, .publishEnds 1 (.ok ())]

def untilBothDeleted : List (Label String Unit) :=
  [.post ann "u1" (), .publishEnds 0 (.ok ()), .delete "u1", .delete "u1", .getCurrentUser 1,
    .getCurrentUser 2, .requireAdmin 1, .requireAdmin 2, .popUser 1, .publishEnds 1 (.ok ()),
    .popUser 2, .publishEnds 2 (.ok ())]

theorem concurrent_deletes_published_twice : ¬ ∀ (ls : List (Label String Unit)) u,
    Along (step asciiOps) PublishSucceeds (initial ⟨[], List.nodup_nil⟩) ls u →
      ∀ id, eventsFor u id <+: ["user.created", "user.deleted"] := by
  intro h
  have succeed : ∀ l ∈ untilBothDeleted, ∀ s u, PublishSucceeds s l u := by
    rintro l mem _ _ i e rfl
    simp [untilBothDeleted] at mem
  have run : ∃ u, Runs (step asciiOps) (initial ⟨[], List.nodup_nil⟩) untilBothDeleted u ∧
      eventsFor u "u1" = ["user.created", "user.deleted", "user.deleted"] :=
    ⟨_, Runs.of_execute rfl, rfl⟩
  obtain ⟨u, run, events⟩ := run
  have follows := h _ u (run.along_of_labels succeed) "u1"
  rw [events] at follows
  exact absurd follows.length_le (by decide)

theorem deleted_user_followed : ∃ u,
    Along (step asciiOps) FollowsLife (initial ⟨[], List.nodup_nil⟩) untilDeleted u ∧
      eventsFor u "u1" = ["user.created", "user.deleted"] := by
  have succeed : ∀ l ∈ untilDeleted, ∀ s u, PublishSucceeds s l u := by
    rintro l mem _ _ i e rfl
    simp [untilDeleted] at mem
  have once : ∃ u, Along (step asciiOps) DeletesOnceCreated (initial ⟨[], List.nodup_nil⟩)
      untilDeleted u ∧ eventsFor u "u1" = ["user.created", "user.deleted"] := by
    refine ⟨_, .cons rfl ?_ (.cons rfl ?_ (.cons rfl ?_ (.cons rfl ?_ (.cons rfl ?_ (.cons rfl ?_
      (.single rfl ?_)))))), rfl⟩
    · rintro _ _ _ ⟨⟩
    · rintro _ _ _ ⟨⟩ ⟨⟩
    · rintro _ _ _ ⟨⟩
    · rintro _ _ _ ⟨⟩
    · rintro _ _ _ ⟨⟩
    · rintro _ _ _ ⟨⟩
    · rintro _ _ _ ⟨⟩ ⟨⟩
      decide
  obtain ⟨u, once, events⟩ := once
  have along := once.runs.along_of_labels succeed
  exact ⟨u, (followsLife_iff asciiOps untilDeleted u along).mpr once, events⟩

end Examples

end FastapiProject.UserEvents
