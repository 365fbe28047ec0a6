import Mathlib.Data.List.Nodup
import FastapiProject.ActiveConnections
import FastapiProject.IndexedLists

set_option autoImplicit false

/-!
# The store with a record of its broadcasts

A run of the store that also notes to whom each job has sent its message and which
connections the clean-ups of broadcasts have removed. What a broadcast has sent to lies
before its position in the list, or has left it.
-/
namespace FastapiProject.WatchedConnections
open PythonExceptions MachineRuns JobStore IndexedLists ActiveConnections

variable {JobId Ws Payload Time : Type}

structure Watched (JobId Ws Payload Time : Type) where
  store : State JobId Ws Payload Time
  sent : List (JobId × Ws)
  cleaned : List Ws

def Watched.initial : Watched JobId Ws Payload Time := ⟨JobStore.initial, [], []⟩

/-- A step of a job that leaves it at a send has just called `send_text`. -/
def sendsBy (l : Label JobId Ws Payload Time) (u : State JobId Ws Payload Time) :
    List (JobId × Ws) :=
  match l.job? with
  | some id =>
    match u.runners id with
    | some (.broadcasting _ ws _) => [(id, ws)]
    | _ => []
  | none => []

/-- What a step of a job takes out of the list its clean-up has removed. -/
def cleanedBy [DecidableEq Ws] (s : State JobId Ws Payload Time) (l : Label JobId Ws Payload Time)
    (u : State JobId Ws Payload Time) : List Ws :=
  if l.job?.isSome = true then s.activeConnections.filter (· ∉ u.activeConnections) else []

def Watched.step [DecidableEq JobId] [DecidableEq Ws] (str : Str Payload)
    (s : Watched JobId Ws Payload Time) (l : Label JobId Ws Payload Time) :
    Option (Watched JobId Ws Payload Time) :=
  (JobStore.step str s.store l).map fun u =>
    ⟨u, s.sent ++ sendsBy l u, s.cleaned ++ cleanedBy s.store l u⟩

def Fits (active cleaned : List Ws) (ws : Ws) : Endpoint → Prop
  | .absent | .accepting => ws ∉ active ∧ ws ∉ cleaned
  | .receiving | .echoing => ws ∈ active ∨ ws ∈ cleaned
  | .ended (.ok ()) => ws ∉ active
  | .ended (.error _) => True

structure Members (s : State JobId Ws Payload Time) (cleaned : List Ws) : Prop where
  nodup : s.activeConnections.Nodup
  removed : ∀ ws ∈ cleaned, ws ∉ s.activeConnections
  fits : ∀ ws, Fits s.activeConnections cleaned ws (s.endpoints ws)

section Records
variable [DecidableEq JobId] {s u : State JobId Ws Payload Time} {id : JobId}
  {l : Label JobId Ws Payload Time} {r : Runner Ws Payload}

theorem sendsBy_quiet (own : l.job? = some id) (moves : JobMoves s id r u)
    (quiet : ¬ Broadcasting r) : sendsBy l u = [] := by
  have here : u.runners id = some r := by rw [moves.runners, Function.update_self]
  cases r with
  | broadcasting position ws dead => exact absurd ⟨position, ws, dead, rfl⟩ quiet
  | _ => simp only [sendsBy, own, here]

theorem sendsBy_sends {position : ℕ} {ws : Ws} {dead : List Ws} (own : l.job? = some id)
    (moves : JobMoves s id (.broadcasting position ws dead) u) : sendsBy l u = [(id, ws)] := by
  have here : u.runners id = some (.broadcasting position ws dead) := by
    rw [moves.runners, Function.update_self]
  simp only [sendsBy, own, here]

omit [DecidableEq JobId] in
theorem sendsBy_none (h : l.job? = none) : sendsBy l u = [] := by rw [sendsBy, h]

variable [DecidableEq Ws]

omit [DecidableEq JobId] in
theorem cleanedBy_none (h : l.job? = none) : cleanedBy s l u = [] := by rw [cleanedBy, h]; rfl

omit [DecidableEq JobId] in
theorem cleanedBy_same (same : u.activeConnections = s.activeConnections) :
    cleanedBy s l u = [] := by
  rw [cleanedBy, same]
  split
  · rw [List.filter_eq_nil_iff]
    intro ws mem
    simp [mem]
  · rfl

omit [DecidableEq JobId] in
theorem mem_cleanedBy (own : l.job? = some id) {ws : Ws} :
    ws ∈ cleanedBy s l u ↔ ws ∈ s.activeConnections ∧ ws ∉ u.activeConnections := by
  rw [cleanedBy, own]
  simp

end Records

section Members

theorem members_initial : Members (JobStore.initial : State JobId Ws Payload Time) [] where
  nodup := List.nodup_nil
  removed := by rintro _ ⟨⟩
  fits _ := ⟨List.not_mem_nil, List.not_mem_nil⟩

theorem fits_kept {active active' cleaned cleaned' : List Ws} {ws : Ws} {e : Endpoint}
    (fits : Fits active cleaned ws e) (gone : ws ∉ active → ws ∉ active')
    (recorded : ws ∈ cleaned' → ws ∈ cleaned ∨ ws ∈ active)
    (kept : ws ∈ active → ws ∈ active' ∨ ws ∈ cleaned') (still : ws ∈ cleaned → ws ∈ cleaned') :
    Fits active' cleaned' ws e := by
  match e with
  | .absent | .accepting =>
    refine ⟨gone fits.1, fun mem => ?_⟩
    rcases recorded mem with old | listed
    · exact fits.2 old
    · exact fits.1 listed
  | .receiving | .echoing =>
    rcases fits with listed | cleaned
    · exact kept listed
    · exact .inr (still cleaned)
  | .ended (.ok ()) => exact gone fits
  | .ended (.error _) => trivial

theorem fits_open {active cleaned : List Ws} {ws : Ws} {e : Endpoint} (h : Endpoint.Open e) :
    Fits active cleaned ws e ↔ ws ∈ active ∨ ws ∈ cleaned := by
  rcases h with rfl | rfl <;> exact Iff.rfl

variable {s u : State JobId Ws Payload Time} {cleaned : List Ws}
  {l : Label JobId Ws Payload Time}

theorem members_same (h : Members s cleaned) (connections : u.activeConnections = s.activeConnections)
    (endpoints : u.endpoints = s.endpoints) : Members u cleaned := by
  obtain ⟨nodup, removed, fits⟩ := h
  rw [← connections] at nodup removed fits
  rw [← endpoints] at fits
  exact ⟨nodup, removed, fits⟩

variable [DecidableEq Ws]

theorem members_moveEndpoint (h : Members s cleaned) {active : List Ws} {ws : Ws} {e : Endpoint}
    (nodup : active.Nodup) (others : ∀ x, x ≠ ws → (x ∈ active ↔ x ∈ s.activeConnections))
    (removed : ws ∈ cleaned → ws ∉ active) (fits : Fits active cleaned ws e) :
    Members ({ s with activeConnections := active }.moveEndpoint ws e) cleaned := by
  refine ⟨nodup, fun x mem => ?_, fun x => ?_⟩
  · by_cases same : x = ws
    · subst same
      exact removed mem
    · exact fun listed => h.removed x mem ((others x same).mp listed)
  · change Fits active cleaned x (Function.update s.endpoints ws e x)
    by_cases same : x = ws
    · subst same
      rw [Function.update_self]
      exact fits
    · rw [Function.update_of_ne same]
      exact fits_kept (h.fits x) (fun out listed => out ((others x same).mp listed)) .inl
        (fun listed => .inl ((others x same).mpr listed)) id

variable [DecidableEq JobId]

theorem members_cleans (h : Members s cleaned) {id : JobId} {position : ℕ} {dead : List Ws}
    (head : LoopHead s id l position dead) (moves : JobMoves s id (.ended true) u)
    (connections : u.activeConnections = (removeEach s.activeConnections dead).1) :
    Members u (cleaned ++ cleanedBy s l u) := by
  have shrunk : u.activeConnections.Sublist s.activeConnections :=
    connections ▸ removeEach_sublist s.activeConnections dead
  refine ⟨h.nodup.sublist shrunk, fun ws mem => ?_, fun ws => ?_⟩
  · rcases List.mem_append.mp mem with old | new
    · exact fun listed => h.removed ws old (shrunk.subset listed)
    · exact ((mem_cleanedBy head.job?).mp new).2
  · rw [moves.endpoints]
    refine fits_kept (h.fits ws) (fun out listed => out (shrunk.subset listed)) ?_ ?_ ?_
    · intro mem
      rcases List.mem_append.mp mem with old | new
      · exact .inl old
      · exact .inr ((mem_cleanedBy head.job?).mp new).1
    · intro listed
      by_cases still : ws ∈ u.activeConnections
      · exact .inl still
      · exact .inr (List.mem_append_right _ ((mem_cleanedBy head.job?).mpr ⟨listed, still⟩))
    · exact List.mem_append_left _

theorem members_step (h : Members s cleaned) (hs : ConnectionStep s l u) :
    Members u (cleaned ++ cleanedBy s l u) := by
  have unrecorded (nothing : cleanedBy s l u = []) (next : Members u cleaned) :
      Members u (cleaned ++ cleanedBy s l u) := by
    rw [nothing, List.append_nil]
    exact next
  cases hs with
  | submits fresh => exact unrecorded (cleanedBy_none rfl) (members_same h rfl rfl)
  | works own _ _ _ _ moves connections =>
    exact unrecorded (cleanedBy_same connections) (members_same h connections moves.endpoints)
  | sends _ _ moves connections =>
    exact unrecorded (cleanedBy_same connections) (members_same h connections moves.endpoints)
  | cleans head _ moves connections => exact members_cleans h head moves connections
  | abandons _ _ moves connections =>
    exact unrecorded (cleanedBy_same connections) (members_same h connections moves.endpoints)
  | @connects ws absent =>
    have fits := h.fits ws
    rw [absent] at fits
    exact unrecorded (cleanedBy_none rfl)
      (members_moveEndpoint h h.nodup (fun _ _ => Iff.rfl) (h.removed ws) fits)
  | @refused ws e accepting =>
    exact unrecorded (cleanedBy_none rfl)
      (members_moveEndpoint h h.nodup (fun _ _ => Iff.rfl) (h.removed ws) trivial)
  | @joins ws accepting =>
    have fits := h.fits ws
    rw [accepting] at fits
    apply unrecorded (cleanedBy_none rfl)
    apply members_moveEndpoint h
    · exact List.nodup_append_comm.mpr (List.nodup_cons.mpr ⟨fits.1, h.nodup⟩)
    · intro x other
      rw [List.mem_append, List.mem_singleton]
      exact or_iff_left other
    · exact fun cleaned => absurd cleaned fits.2
    · exact .inl (List.mem_append_right _ List.mem_cons_self)
  | @echoes l ws e goes before after =>
    have other : l.job? = none := by rcases goes with rfl | rfl <;> rfl
    have fits := h.fits ws
    rw [fits_open before] at fits
    exact unrecorded (cleanedBy_none other) (members_moveEndpoint h h.nodup (fun _ _ => Iff.rfl)
      (h.removed ws) ((fits_open after).mpr fits))
  | @leaves l ws ends before listed =>
    apply unrecorded (cleanedBy_none ends.job?)
    apply members_moveEndpoint h
    · exact h.nodup.erase ws
    · exact fun x other => List.mem_erase_of_ne other
    · exact fun cleaned => absurd listed (h.removed ws cleaned)
    · exact h.nodup.not_mem_erase
  | @breaks l ws e e' ends before unlisted =>
    exact unrecorded (cleanedBy_none ends.job?)
      (members_moveEndpoint h h.nodup (fun _ _ => Iff.rfl) (h.removed ws) trivial)

end Members

def Joined (s : State JobId Ws Payload Time) (cleaned : List Ws) (ws : Ws) : Prop :=
  ws ∈ s.activeConnections ∨ s.endpoints ws = .ended (.ok ()) ∨ ws ∈ cleaned

section Joined
variable [DecidableEq JobId] [DecidableEq Ws] {s u : State JobId Ws Payload Time}
  {cleaned : List Ws} {l : Label JobId Ws Payload Time} {ws : Ws}

omit [DecidableEq JobId] in
theorem moveEndpoint_other {v : State JobId Ws Payload Time} {x : Ws} {e e' : Endpoint}
    (at_x : v.endpoints x = e) (other : v.endpoints ws ≠ e) :
    (v.moveEndpoint ws e').endpoints x = e := by
  have ne : x ≠ ws := by
    rintro rfl
    exact other at_x
  exact (Function.update_of_ne ne _ _).trans at_x

omit [DecidableEq JobId] in
theorem moveEndpoint_cases {v : State JobId Ws Payload Time} {x : Ws} {e e' : Endpoint}
    (at_ws : (v.moveEndpoint x e').endpoints ws = e) : ws = x ∧ e' = e ∨ v.endpoints ws = e := by
  by_cases same : ws = x
  · subst same
    exact .inl ⟨rfl, (Function.update_self _ _ _).symm.trans at_ws⟩
  · exact .inr ((Function.update_of_ne same _ _).symm.trans at_ws)

theorem ended_step (hs : ConnectionStep s l u) {outcome : Except Exn Unit}
    (ended : s.endpoints ws = .ended outcome) : u.endpoints ws = .ended outcome := by
  have closed {x : Ws} (isOpen : Endpoint.Open (s.endpoints x)) :
      s.endpoints x ≠ .ended outcome := by
    intro already
    rw [already] at isOpen
    rcases isOpen with ⟨⟨⟩⟩ | ⟨⟨⟩⟩
  cases hs with
  | submits _ => exact ended
  | works _ _ _ _ _ moves _ => rw [moves.endpoints, ended]
  | sends _ _ moves _ => rw [moves.endpoints, ended]
  | cleans _ _ moves _ => rw [moves.endpoints, ended]
  | abandons _ _ moves _ => rw [moves.endpoints, ended]
  | connects absent =>
    apply moveEndpoint_other ended
    rw [absent]
    rintro ⟨⟩
  | refused accepting =>
    apply moveEndpoint_other ended
    rw [accepting]
    rintro ⟨⟩
  | joins accepting =>
    apply moveEndpoint_other ended
    rw [accepting]
    rintro ⟨⟩
  | echoes _ before _ => exact moveEndpoint_other ended (closed before)
  | leaves _ before _ => exact moveEndpoint_other ended (closed before)
  | breaks _ before _ => exact moveEndpoint_other ended (closed before)

theorem joined_step (joined : Joined s cleaned ws) (hs : ConnectionStep s l u) :
    Joined u (cleaned ++ cleanedBy s l u) ws := by
  rcases joined with listed | ended | removed
  · cases hs with
    | works _ _ _ _ _ _ connections => exact .inl (connections ▸ listed)
    | sends _ _ _ connections => exact .inl (connections ▸ listed)
    | abandons _ _ _ connections => exact .inl (connections ▸ listed)
    | cleans head _ _ _ =>
      by_cases still : ws ∈ u.activeConnections
      · exact .inl still
      · exact .inr (.inr (List.mem_append_right _ ((mem_cleanedBy head.job?).mpr ⟨listed, still⟩)))
    | joins _ => exact .inl (List.mem_append_left _ listed)
    | @leaves l x _ _ _ =>
      by_cases same : ws = x
      · subst same
        exact .inr (.inl (Function.update_self _ _ _))
      · exact .inl ((List.mem_erase_of_ne same).mpr listed)
    | _ => exact .inl listed
  · exact .inr (.inl (ended_step hs ended))
  · exact .inr (.inr (List.mem_append_left _ removed))

theorem forward_step (members : Members s cleaned) (hs : ConnectionStep s l u)
    (listed : ws ∈ u.activeConnections) : s.endpoints ws = .accepting ∨
      ws ∈ s.activeConnections ∧ u.activeConnections.idxOf ws ≤ s.activeConnections.idxOf ws := by
  have shrunk (kept : u.activeConnections.Sublist s.activeConnections) : ws ∈ s.activeConnections ∧
      u.activeConnections.idxOf ws ≤ s.activeConnections.idxOf ws :=
    ⟨kept.subset listed, idxOf_le_of_sublist kept members.nodup listed⟩
  cases hs with
  | works _ _ _ _ _ _ connections => exact .inr (shrunk (connections ▸ List.Sublist.refl _))
  | sends _ _ _ connections => exact .inr (shrunk (connections ▸ List.Sublist.refl _))
  | abandons _ _ _ connections => exact .inr (shrunk (connections ▸ List.Sublist.refl _))
  | cleans _ _ _ connections =>
    exact .inr (shrunk (connections ▸ removeEach_sublist s.activeConnections _))
  | @joins x accepting =>
    by_cases same : ws = x
    · exact .inl (same ▸ accepting)
    · have before : ws ∈ s.activeConnections :=
        (List.mem_append.mp listed).resolve_right (fun new => same (List.mem_singleton.mp new))
      exact .inr ⟨before, Nat.le_of_eq (List.idxOf_append_of_mem before)⟩
  | leaves _ _ _ => exact .inr (shrunk List.erase_sublist)
  | _ => exact .inr (shrunk (List.Sublist.refl _))

end Joined

/-- Where the call of a job stands to a connection that it has sent its message to: the
call is over, or the connection lies before its position. -/
def Passed [DecidableEq Ws] (active : List Ws) (ws : Ws) : Option (Runner Ws Payload) → Prop
  | some (.broadcasting position _ _) => ws ∈ active → active.idxOf ws < position
  | some (.ended _) => True
  | _ => False

structure Visits [DecidableEq Ws] (s : State JobId Ws Payload Time) (sent : List (JobId × Ws))
    (cleaned : List Ws) : Prop where
  submitted : ∀ id, s.jobs id = none → s.runners id = none
  joined : ∀ id ws, (id, ws) ∈ sent → Joined s cleaned ws
  passed : ∀ id ws, (id, ws) ∈ sent → Passed s.activeConnections ws (s.runners id)
  once : sent.Nodup
  noted : ∀ id position ws dead, s.runners id = some (.broadcasting position ws dead) →
    (dead ++ [ws]).Nodup ∧ ∀ x ∈ dead ++ [ws], (id, x) ∈ sent

section Visits
variable [DecidableEq Ws] {s u : State JobId Ws Payload Time} {sent : List (JobId × Ws)}
  {cleaned : List Ws} {l : Label JobId Ws Payload Time}

theorem visits_initial : Visits (JobStore.initial : State JobId Ws Payload Time) [] [] where
  submitted _ _ := rfl
  joined := by rintro _ _ ⟨⟩
  passed := by rintro _ _ ⟨⟩
  once := List.nodup_nil
  noted := by rintro _ _ _ _ ⟨⟩

theorem not_passed_preparing {active : List Ws} {ws : Ws} {r : Runner Ws Payload}
    (preparing : Preparing r) : ¬ Passed active ws (some r) := by
  cases r with
  | broadcasting position x dead => exact fun _ => preparing.1 ⟨position, x, dead, rfl⟩
  | ended succeeded => exact fun _ => preparing.2 succeeded rfl
  | _ => exact id

variable [DecidableEq JobId]

theorem passed_step (members : Members s cleaned) (hs : ConnectionStep s l u) {ws : Ws}
    (joined : Joined s cleaned ws) {r : Option (Runner Ws Payload)}
    (passed : Passed s.activeConnections ws r) : Passed u.activeConnections ws r := by
  match r with
  | some (.broadcasting position _ _) =>
    intro listed
    rcases forward_step members hs listed with accepting | ⟨before, closer⟩
    · have fits := members.fits ws
      rw [accepting] at fits
      rcases joined with listed | ended | removed
      · exact absurd listed fits.1
      · rw [ended] at accepting
        cases accepting
      · exact absurd removed fits.2
    · exact Nat.lt_of_le_of_lt closer (passed before)
  | some (.ended _) => trivial

theorem visits_jobMoves (members : Members s cleaned) (h : Visits s sent cleaned)
    (hs : ConnectionStep s l u) {id : JobId} {r : Runner Ws Payload} (moves : JobMoves s id r u)
    (running : s.runners id ≠ none) {sent' : List (JobId × Ws)}
    (grown : ∀ k ws, (k, ws) ∈ sent' → (k, ws) ∈ sent ∨ k = id ∧ ws ∈ s.activeConnections)
    (kept : ∀ k ws, (k, ws) ∈ sent → (k, ws) ∈ sent') (once : sent'.Nodup)
    (passed : ∀ ws, (id, ws) ∈ sent' → Passed u.activeConnections ws (some r))
    (noted : ∀ position ws dead, r = .broadcasting position ws dead →
      (dead ++ [ws]).Nodup ∧ ∀ x ∈ dead ++ [ws], (id, x) ∈ sent') :
    Visits u sent' (cleaned ++ cleanedBy s l u) where
  submitted k missing := by
    have before := h.submitted k ((moves.jobs k).mp missing)
    have other : k ≠ id := by
      rintro rfl
      exact running before
    rw [moves.runners, Function.update_of_ne other, before]
  joined k ws mem := by
    rcases grown k ws mem with old | ⟨-, listed⟩
    · exact joined_step (h.joined k ws old) hs
    · exact joined_step (.inl listed) hs
  passed k ws mem := by
    rw [moves.runners]
    by_cases same : k = id
    · subst same
      rw [Function.update_self]
      exact passed ws mem
    · rw [Function.update_of_ne same]
      have old := (grown k ws mem).resolve_right (fun new => same new.1)
      exact passed_step members hs (h.joined k ws old) (h.passed k ws old)
  once := once
  noted k position ws dead at_k := by
    rw [moves.runners] at at_k
    by_cases same : k = id
    · subst same
      rw [Function.update_self] at at_k
      exact noted position ws dead (Option.some.inj at_k)
    · rw [Function.update_of_ne same] at at_k
      obtain ⟨nodup, sent⟩ := h.noted k position ws dead at_k
      exact ⟨nodup, fun x mem => kept k x (sent x mem)⟩

omit [DecidableEq JobId] [DecidableEq Ws] in
theorem notedDead_sublist (outcome : Except Exn Unit) (ws : Ws) (dead : List Ws) :
    (notedDead outcome ws dead).Sublist (dead ++ [ws]) := by
  cases outcome with
  | ok _ => exact List.sublist_append_left dead [ws]
  | error e => exact List.Sublist.refl _

omit [DecidableEq JobId] in
theorem head_visits (h : Visits s sent cleaned) {id : JobId} {position : ℕ} {dead : List Ws}
    (head : LoopHead s id l position dead) :
    s.runners id ≠ none ∧ dead.Nodup ∧ (∀ x ∈ dead, (id, x) ∈ sent) ∧
      ∀ ws, (id, ws) ∈ sent → ws ∈ s.activeConnections → s.activeConnections.idxOf ws < position := by
  cases head with
  | starts gathering =>
    refine ⟨by rw [gathering]; rintro ⟨⟩, List.nodup_nil, by rintro _ ⟨⟩, fun ws mem => ?_⟩
    have passed := h.passed id ws mem
    rw [gathering] at passed
    exact passed.elim
  | @continues position ws dead outcome now sending _ =>
    obtain ⟨nodup, sent⟩ := h.noted id position ws dead sending
    have sub := notedDead_sublist outcome ws dead
    refine ⟨by rw [sending]; rintro ⟨⟩, nodup.sublist sub, fun x mem => sent x (sub.subset mem), ?_⟩
    intro x mem
    have passed := h.passed id x mem
    rw [sending] at passed
    exact passed

theorem visits_sends (members : Members s cleaned) (h : Visits s sent cleaned)
    (hs : ConnectionStep s l u) {id : JobId} {position : ℕ} {ws : Ws} {dead : List Ws}
    (head : LoopHead s id l position dead) (found : s.activeConnections[position]? = some ws)
    (moves : JobMoves s id (.broadcasting (position + 1) ws dead) u)
    (connections : u.activeConnections = s.activeConnections) :
    Visits u (sent ++ [(id, ws)]) (cleaned ++ cleanedBy s l u) := by
  obtain ⟨running, nodup, noted, before⟩ := head_visits h head
  have listed := List.mem_of_getElem? found
  have here := idxOf_of_getElem? members.nodup found
  have new : (id, ws) ∉ sent := by
    intro mem
    have passed := before ws mem listed
    omega
  apply visits_jobMoves members h hs moves running
  · intro k x mem
    rcases List.mem_append.mp mem with old | new
    · exact .inl old
    · cases List.mem_singleton.mp new
      exact .inr ⟨rfl, listed⟩
  · exact fun _ _ mem => List.mem_append_left _ mem
  · exact List.nodup_append_comm.mpr (List.nodup_cons.mpr ⟨new, h.once⟩)
  · intro x mem
    change x ∈ u.activeConnections → u.activeConnections.idxOf x < position + 1
    rw [connections]
    intro listed'
    rcases List.mem_append.mp mem with old | new
    · exact Nat.lt_succ_of_lt (before x old listed')
    · cases List.mem_singleton.mp new
      omega
  · rintro _ _ _ ⟨⟩
    constructor
    · exact List.nodup_append_comm.mpr (List.nodup_cons.mpr ⟨fun mem => new (noted ws mem), nodup⟩)
    · intro x mem
      rcases List.mem_append.mp mem with old | new
      · exact List.mem_append_left _ (noted x old)
      · cases List.mem_singleton.mp new
        exact List.mem_append_right _ List.mem_cons_self

theorem visits_submits (h : Visits s sent cleaned) {id : JobId} {payload : Payload} {sync : Bool}
    (fresh : s.jobs id = none) : Visits (submitJob s id payload sync) sent cleaned := by
  have idle := h.submitted id fresh
  have others {k : JobId} (other : k ≠ id) :
      (submitJob s id payload sync).runners k = s.runners k := Function.update_of_ne other _ _
  have here : (submitJob s id payload sync).runners id = some (.queued payload sync) :=
    Function.update_self _ _ _
  constructor
  · intro k missing
    by_cases same : k = id
    · subst same
      have submitted : (submitJob s k payload sync).jobs k = some ⟨k, .pending, none, none, none⟩ :=
        Function.update_self _ _ _
      rw [submitted] at missing
      cases missing
    · rw [others same]
      exact h.submitted k ((Function.update_of_ne same _ _).symm.trans missing)
  · exact h.joined
  · intro k ws mem
    by_cases same : k = id
    · subst same
      have passed := h.passed k ws mem
      rw [idle] at passed
      exact passed.elim
    · rw [others same]
      exact h.passed k ws mem
  · exact h.once
  · intro k position ws dead at_k
    by_cases same : k = id
    · subst same
      rw [here] at at_k
      cases at_k
    · rw [others same] at at_k
      exact h.noted k position ws dead at_k

theorem visits_step (members : Members s cleaned) (h : Visits s sent cleaned)
    (hs : ConnectionStep s l u) : Visits u (sent ++ sendsBy l u) (cleaned ++ cleanedBy s l u) := by
  have silent (nothing : sendsBy l u = []) (next : Visits u sent (cleaned ++ cleanedBy s l u)) :
      Visits u (sent ++ sendsBy l u) (cleaned ++ cleanedBy s l u) := by
    rw [nothing, List.append_nil]
    exact next
  have quiet {id : JobId} {r : Runner Ws Payload} (own : l.job? = some id)
      (running : s.runners id ≠ none) (moves : JobMoves s id r u) (after : ¬ Broadcasting r)
      (passed : ∀ ws, (id, ws) ∈ sent → Passed u.activeConnections ws (some r)) :
      Visits u (sent ++ sendsBy l u) (cleaned ++ cleanedBy s l u) := by
    apply silent (sendsBy_quiet own moves after)
    apply visits_jobMoves members h hs moves running (fun _ _ mem => .inl mem) (fun _ _ mem => mem)
      h.once passed
    rintro position ws dead rfl
    exact absurd ⟨position, ws, dead, rfl⟩ after
  have idle (other : l.job? = none) (runners : u.runners = s.runners) (jobs : u.jobs = s.jobs) :
      Visits u (sent ++ sendsBy l u) (cleaned ++ cleanedBy s l u) := by
    apply silent (sendsBy_none other)
    constructor
    · rw [runners, jobs]
      exact h.submitted
    · exact fun id ws mem => joined_step (h.joined id ws mem) hs
    · rw [runners]
      exact fun id ws mem => passed_step members hs (h.joined id ws mem) (h.passed id ws mem)
    · exact h.once
    · rw [runners]
      exact h.noted
  have ended {active : List Ws} {ws : Ws} : Passed active ws
      (some (.ended true : Runner Ws Payload)) := trivial
  cases hs' : hs with
  | submits fresh =>
    rw [sendsBy_none rfl, cleanedBy_none rfl, List.append_nil, List.append_nil]
    exact visits_submits h fresh
  | @works l u id r r' own at_id _ before after moves _ =>
    apply quiet own (by rw [at_id]; rintro ⟨⟩) moves after
    intro ws mem
    have passed := h.passed id ws mem
    rw [at_id] at passed
    exact absurd passed (not_passed_preparing before)
  | sends head found moves connections =>
    rw [sendsBy_sends head.job? moves]
    exact visits_sends members h hs head found moves connections
  | cleans head _ moves _ =>
    exact quiet head.job? (head_visits h head).1 moves (not_broadcasting_ended true) (fun _ _ => ended)
  | abandons sending _ moves _ =>
    exact quiet rfl (by rw [sending]; rintro ⟨⟩) moves (not_broadcasting_ended true) (fun _ _ => ended)
  | connects _ => exact idle rfl rfl rfl
  | refused _ => exact idle rfl rfl rfl
  | joins _ => exact idle rfl rfl rfl
  | echoes goes _ _ =>
    exact idle (by rcases goes with rfl | rfl <;> rfl) rfl rfl
  | leaves ends _ _ => exact idle ends.job? rfl rfl
  | breaks ends _ _ => exact idle ends.job? rfl rfl

end Visits

structure Inv [DecidableEq Ws] (s : Watched JobId Ws Payload Time) : Prop where
  members : Members s.store s.cleaned
  visits : Visits s.store s.sent s.cleaned

section Runs
variable [DecidableEq JobId] [DecidableEq Ws] {str : Str Payload}
  {s u : Watched JobId Ws Payload Time} {l : Label JobId Ws Payload Time}

theorem step_store (hs : Watched.step str s l = some u) :
    ∃ v, ConnectionStep s.store l v ∧
      u = ⟨v, s.sent ++ sendsBy l v, s.cleaned ++ cleanedBy s.store l v⟩ := by
  obtain ⟨v, enabled, rfl⟩ := Option.map_eq_some_iff.mp hs
  exact ⟨v, step_connectionStep enabled, rfl⟩

omit [DecidableEq JobId] in
theorem inv_initial : Inv (Watched.initial : Watched JobId Ws Payload Time) :=
  ⟨members_initial, visits_initial⟩

theorem inv_step (h : Inv s) (hs : Watched.step str s l = some u) : Inv u := by
  obtain ⟨v, moved, rfl⟩ := step_store hs
  exact ⟨members_step h.members moved, visits_step h.members h.visits moved⟩

theorem inv_run {ls : List (Label JobId Ws Payload Time)}
    (run : Runs (Watched.step str) Watched.initial ls u) : Inv u :=
  run.invariant Inv inv_initial (fun _ _ _ h hs => inv_step h hs)

end Runs

end FastapiProject.WatchedConnections
