import FastapiProject.JobStoreTerminal
import FastapiProject.WatchedConnections

set_option autoImplicit false

/-!
# The frames of a websocket

What the client of `/ws` gets to see: its own texts echoed in their order, and in between
at most one notice of each job, whose work is then done.
-/
namespace FastapiProject.WebSocketFrames
open PythonExceptions MachineRuns JobStore ActiveConnections WatchedConnections
open JobStoreTerminal (stepJob_onlyJob unitStr)

variable {Ws Payload Time : Type}

def echo (data : String) : String := "echo: " ++ data

def notice (jobId : String) : String := "job:" ++ jobId ++ ":done"

def readEcho (frame : String) : Option String :=
  if "echo: ".toList.isPrefixOf frame.toList = true then some (String.ofList (frame.toList.drop 6))
  else none

theorem readEcho_echo (data : String) : readEcho (echo data) = some data := by
  have chars : (echo data).toList = "echo: ".toList ++ data.toList := String.toList_append
  rw [readEcho, chars, if_pos (List.isPrefixOf_iff_prefix.mpr (List.prefix_append _ _))]
  exact congrArg some String.ofList_toList

theorem readEcho_notice (jobId : String) : readEcho (notice jobId) = none := by
  have chars : (notice jobId).toList = 'j' :: ("ob:".toList ++ jobId.toList ++ ":done".toList) := by
    rw [notice, String.toList_append, String.toList_append]
    rfl
  rw [readEcho, chars]
  rfl

theorem notice_injective {jobId jobId' : String} (same : notice jobId = notice jobId') :
    jobId = jobId' := by
  have chars := congrArg String.toList same
  simp only [notice, String.toList_append] at chars
  exact String.toList_inj.mp (List.append_cancel_left (List.append_cancel_right chars))

/-- `data` is the variable of each endpoint, `frames` what the returned sends have brought
to each client. -/
structure State (Ws Payload Time : Type) where
  watched : Watched String Ws Payload Time
  data : Ws → String
  frames : Ws → List String

def initial : State Ws Payload Time := ⟨.initial, fun _ => "", fun _ => []⟩

/-- A `receive_text` returns with a text; all else is as in the store. -/
inductive Label (Ws Payload Time : Type) where
  | text (ws : Ws) (data : String)
  | other (l : JobStore.Label String Ws Payload Time)

section Step
variable [DecidableEq Ws] (str : Str Payload) (s : State Ws Payload Time)

def delivered : JobStore.Label String Ws Payload Time → Option (Ws × String)
  | .echoEnds ws (.ok ()) => some (ws, echo (s.data ws))
  | .sendEnds jobId (.ok ()) _ =>
    match s.watched.store.runners jobId with
    | some (.broadcasting _ ws _) => some (ws, notice jobId)
    | _ => none
  | _ => none

def framesFor (ws : Ws) : Option (Ws × String) → List String
  | some (x, frame) => if x = ws then [frame] else []
  | none => []

theorem framesFor_mem {ws x : Ws} {frame f : String} (mem : f ∈ framesFor ws (some (x, frame))) :
    x = ws ∧ f = frame := by
  rw [framesFor] at mem
  split at mem
  · exact ⟨‹_›, List.mem_singleton.mp mem⟩
  · cases mem

theorem framesFor_ne {ws x : Ws} (ne : x ≠ ws) (frame : String) :
    framesFor ws (some (x, frame)) = [] := if_neg ne

def step : Label Ws Payload Time → Option (State Ws Payload Time)
  | .text ws data => (Watched.step str s.watched (.receiveEnds ws (.ok ()))).map fun w =>
    ⟨w, Function.update s.data ws data, s.frames⟩
  | .other (.receiveEnds _ (.ok ())) => none
  | .other l => (Watched.step str s.watched l).map fun w =>
    ⟨w, s.data, fun ws => s.frames ws ++ framesFor ws (delivered s l)⟩

end Step

def textFor [DecidableEq Ws] (ws : Ws) : Label Ws Payload Time → Option String
  | .text x data => if x = ws then some data else none
  | .other _ => none

def texts [DecidableEq Ws] (ws : Ws) (ls : List (Label Ws Payload Time)) : List String :=
  ls.filterMap (textFor ws)

def heard (frames : List String) : List String := frames.filterMap readEcho

/-- The echo of the last text is on its way, or its send has raised. -/
def Unanswered (ls : List (Label Ws Payload Time)) (s : State Ws Payload Time) (ws : Ws) : Prop :=
  s.watched.store.endpoints ws = .echoing ∨ ∃ e, Label.other (.echoEnds ws (.error e)) ∈ ls

section Echoes
variable [DecidableEq Ws] {str : Str Payload} {ls : List (Label Ws Payload Time)}
  {s u : State Ws Payload Time} {l : Label Ws Payload Time} {ws : Ws}

structure Echoes (ls : List (Label Ws Payload Time)) (s : State Ws Payload Time) (ws : Ws) : Prop where
  answered : ¬ Unanswered ls s ws → texts ws ls = heard (s.frames ws)
  unanswered : Unanswered ls s ws → texts ws ls = heard (s.frames ws) ++ [s.data ws]
  failed : ∀ e, Label.other (.echoEnds ws (.error e)) ∈ ls →
    ∃ outcome, s.watched.store.endpoints ws = .ended outcome

theorem texts_concat (ws : Ws) (ls : List (Label Ws Payload Time)) (l : Label Ws Payload Time) :
    texts ws (ls ++ [l]) = texts ws ls ++ (textFor ws l).toList := by
  rw [texts, texts, List.filterMap_append]
  cases h : textFor ws l <;> simp [h]

theorem heard_append (frames frames' : List String) :
    heard (frames ++ frames') = heard frames ++ heard frames' := List.filterMap_append

omit [DecidableEq Ws] in
theorem failed_concat {e : Exn} (mem : Label.other (.echoEnds ws (.error e)) ∈ ls ++ [l]) :
    Label.other (.echoEnds ws (.error e)) ∈ ls ∨ l = .other (.echoEnds ws (.error e)) := by
  rcases List.mem_append.mp mem with old | new
  · exact .inl old
  · exact .inr (List.mem_singleton.mp new).symm

theorem echoes_kept (h : Echoes ls s ws)
    (endpoints : u.watched.store.endpoints ws = s.watched.store.endpoints ws)
    (data : u.data ws = s.data ws) (frames : heard (u.frames ws) = heard (s.frames ws))
    (silent : textFor ws l = none) (other : ∀ e, l ≠ .other (.echoEnds ws (.error e))) :
    Echoes (ls ++ [l]) u ws := by
  have sameTexts : texts ws (ls ++ [l]) = texts ws ls := by
    rw [texts_concat, silent]
    exact List.append_nil _
  have same : Unanswered (ls ++ [l]) u ws ↔ Unanswered ls s ws := by
    unfold Unanswered
    rw [endpoints]
    refine or_congr_right ⟨?_, ?_⟩
    · rintro ⟨e, mem⟩
      exact ⟨e, (failed_concat mem).resolve_right (other e)⟩
    · rintro ⟨e, mem⟩
      exact ⟨e, List.mem_append_left _ mem⟩
  constructor
  · rw [same, sameTexts, frames]
    exact h.answered
  · rw [same, sameTexts, frames, data]
    exact h.unanswered
  · intro e mem
    rw [endpoints]
    exact h.failed e ((failed_concat mem).resolve_right (other e))

theorem echoes_settled (settled : texts ws ls = heard (s.frames ws))
    (notEchoing : s.watched.store.endpoints ws ≠ .echoing)
    (unfailed : ∀ e, Label.other (.echoEnds ws (.error e)) ∉ ls) : Echoes ls s ws where
  answered _ := settled
  unanswered pending := (pending.elim notEchoing fun ⟨e, mem⟩ => unfailed e mem).elim
  failed e mem := (unfailed e mem).elim

theorem Echoes.unfailed (h : Echoes ls s ws)
    (going : ∀ outcome, s.watched.store.endpoints ws ≠ .ended outcome) (e : Exn) :
    Label.other (.echoEnds ws (.error e)) ∉ ls := by
  intro mem
  obtain ⟨outcome, ended⟩ := h.failed e mem
  exact going outcome ended

theorem Echoes.settled (h : Echoes ls s ws)
    (going : ∀ outcome, s.watched.store.endpoints ws ≠ .ended outcome)
    (notEchoing : s.watched.store.endpoints ws ≠ .echoing) : texts ws ls = heard (s.frames ws) := by
  refine h.answered ?_
  rintro (echoing | ⟨e, mem⟩)
  · exact notEchoing echoing
  · exact h.unfailed going e mem

inductive FrameStep (str : Str Payload) (s : State Ws Payload Time) :
    Label Ws Payload Time → State Ws Payload Time → Prop where
  | text {w : Watched String Ws Payload Time} (ws : Ws) (data : String)
      (moved : Watched.step str s.watched (.receiveEnds ws (.ok ())) = some w) :
    FrameStep str s (.text ws data) ⟨w, Function.update s.data ws data, s.frames⟩
  | other {w : Watched String Ws Payload Time} {l : JobStore.Label String Ws Payload Time}
      (moved : Watched.step str s.watched l = some w) (silent : ∀ ws, l ≠ .receiveEnds ws (.ok ())) :
    FrameStep str s (.other l) ⟨w, s.data, fun ws => s.frames ws ++ framesFor ws (delivered s l)⟩

theorem step_frameStep (hs : step str s l = some u) : FrameStep str s l u := by
  unfold step at hs
  split at hs
  · obtain ⟨w, moved, rfl⟩ := Option.map_eq_some_iff.mp hs
    exact .text _ _ moved
  · cases hs
  · rename_i other
    obtain ⟨w, moved, rfl⟩ := Option.map_eq_some_iff.mp hs
    exact .other moved fun ws same => other ws same

theorem watched_turn {s u : Watched String Ws Payload Time}
    {l : JobStore.Label String Ws Payload Time} (hs : Watched.step str s l = some u) :
    endpointOf l = none ∧ u.store.endpoints = s.store.endpoints ∨
      ∃ ws e, endpointOf l = some ws ∧ Turn (s.store.endpoints ws) l e ∧
        u.store.endpoints = Function.update s.store.endpoints ws e := by
  obtain ⟨v, moved, rfl⟩ := Option.map_eq_some_iff.mp hs
  exact step_turn moved

theorem heard_delivered {l : JobStore.Label String Ws Payload Time}
    (other : endpointOf l ≠ some ws) : heard (framesFor ws (delivered s l)) = [] := by
  unfold delivered
  split
  · rename_i x
    rw [framesFor_ne fun same => other (congrArg some same)]
    rfl
  · rename_i jobId _
    split
    · rename_i position x dead _
      rw [framesFor]
      by_cases same : x = ws
      · rw [if_pos same]
        exact List.filterMap_cons_none (readEcho_notice jobId)
      · rw [if_neg same]
        rfl
    · rfl
  · rfl

theorem echoes_text (h : Echoes ls s ws) {data : String} {w : Watched String Ws Payload Time}
    (receiving : s.watched.store.endpoints ws = .receiving)
    (echoing : w.store.endpoints ws = .echoing) :
    Echoes (ls ++ [.text ws data]) ⟨w, Function.update s.data ws data, s.frames⟩ ws := by
  have settled := h.settled (by rw [receiving]; rintro _ ⟨⟩) (by rw [receiving]; rintro ⟨⟩)
  have unfailed := h.unfailed (by rw [receiving]; rintro _ ⟨⟩)
  refine ⟨fun answered => (answered (.inl echoing)).elim, fun _ => ?_, fun e mem => ?_⟩
  · change _ = heard (s.frames ws) ++ [Function.update s.data ws data ws]
    rw [texts_concat, settled, textFor, if_pos rfl, Function.update_self]
    rfl
  · rcases failed_concat mem with old | ⟨⟨⟩⟩
    exact (unfailed e old).elim

theorem echoes_turn (h : Echoes ls s ws) {l : JobStore.Label String Ws Payload Time} {e : Endpoint}
    {w : Watched String Ws Payload Time} (own : endpointOf l = some ws)
    (turn : Turn (s.watched.store.endpoints ws) l e) (silent : l ≠ .receiveEnds ws (.ok ()))
    (moved : w.store.endpoints ws = e) :
    Echoes (ls ++ [.other l])
      ⟨w, s.data, fun ws => s.frames ws ++ framesFor ws (delivered s l)⟩ ws := by
  have same : texts ws (ls ++ [.other l]) = texts ws ls := by
    rw [texts_concat]
    exact List.append_nil _
  have more (quiet : delivered s l = none) :
      heard (s.frames ws ++ framesFor ws (delivered s l)) = heard (s.frames ws) := by
    rw [quiet, framesFor, List.append_nil]
  have quietly (going : ∀ outcome, s.watched.store.endpoints ws ≠ .ended outcome)
      (notEchoing : s.watched.store.endpoints ws ≠ .echoing) (after : e ≠ .echoing)
      (quiet : delivered s l = none) (noEcho : ∀ e, l ≠ .echoEnds ws (.error e)) :
      Echoes (ls ++ [.other l])
        ⟨w, s.data, fun ws => s.frames ws ++ framesFor ws (delivered s l)⟩ ws := by
    refine echoes_settled ?_ (by rw [moved]; exact after) fun e mem => ?_
    · rw [same, more quiet]
      exact h.settled going notEchoing
    · rcases failed_concat mem with old | new
      · exact h.unfailed going e old
      · exact noEcho e (Label.other.inj new)
  generalize before : s.watched.store.endpoints ws = stage at turn quietly
  cases turn with
  | connects x | accepted x | refused x e | receiveRaised x e outcome =>
    exact quietly (by rintro _ ⟨⟩) (by rintro ⟨⟩) (by rintro ⟨⟩) rfl (by rintro _ ⟨⟩)
  | received x =>
    cases own
    exact (silent rfl).elim
  | echoed x =>
    cases own
    have pending := h.unanswered (.inl before)
    refine echoes_settled ?_ (by rw [moved]; rintro ⟨⟩) fun e mem => ?_
    · have one : heard [echo (s.data ws)] = [s.data ws] :=
        List.filterMap_cons_some (readEcho_echo (s.data ws))
      rw [same, pending, heard_append, delivered, framesFor, if_pos rfl, one]
    · rcases failed_concat mem with old | ⟨⟨⟩⟩
      exact h.unfailed (by rw [before]; rintro _ ⟨⟩) e old
  | echoRaised x e outcome =>
    cases own
    have pending := h.unanswered (.inl before)
    have failed : Label.other (.echoEnds ws (.error e)) ∈ ls ++ [.other (.echoEnds ws (.error e))] :=
      List.mem_append_right _ List.mem_cons_self
    refine ⟨fun answered => (answered (.inr ⟨e, failed⟩)).elim, fun _ => ?_, fun _ _ => ⟨outcome, moved⟩⟩
    rw [same, more rfl]
    exact pending

theorem echoes_step (h : Echoes ls s ws) (hs : step str s l = some u) : Echoes (ls ++ [l]) u ws := by
  cases step_frameStep hs with
  | @text w x data moved =>
    rcases watched_turn moved with ⟨⟨⟩, -⟩ | ⟨x', e, own, turn, endpoints⟩
    cases own
    by_cases same : x = ws
    · subst same
      have receiving : s.watched.store.endpoints x = .receiving := by
        generalize s.watched.store.endpoints x = stage at turn
        cases turn
        rfl
      rw [receiving] at turn
      cases turn
      exact echoes_text h receiving ((congrFun endpoints x).trans (Function.update_self _ _ _))
    · have ne : ws ≠ x := Ne.symm same
      refine echoes_kept h ?_ (Function.update_of_ne ne _ _) rfl (if_neg same) (by rintro _ ⟨⟩)
      exact (congrFun endpoints ws).trans (Function.update_of_ne ne _ _)
  | @other w l moved silent =>
    have more (quiet : heard (framesFor ws (delivered s l)) = []) :
        heard (s.frames ws ++ framesFor ws (delivered s l)) = heard (s.frames ws) := by
      rw [heard_append, quiet, List.append_nil]
    rcases watched_turn moved with ⟨none, endpoints⟩ | ⟨x, e, own, turn, endpoints⟩
    · refine echoes_kept h (congrFun endpoints ws) rfl (more (heard_delivered ?_)) rfl ?_
      · rw [none]
        rintro ⟨⟩
      · rintro e ⟨⟩
        cases none
    · by_cases same : x = ws
      · subst same
        exact echoes_turn h own turn (silent x)
          ((congrFun endpoints x).trans (Function.update_self _ _ _))
      · have ne : ws ≠ x := Ne.symm same
        refine echoes_kept h ?_ rfl (more (heard_delivered ?_)) rfl ?_
        · exact (congrFun endpoints ws).trans (Function.update_of_ne ne _ _)
        · rw [own]
          exact fun h => same (Option.some.inj h)
        · rintro e ⟨⟩
          exact same (Option.some.inj own).symm

end Echoes

def inFlight [DecidableEq Ws] (s : JobStore.State String Ws Payload Time) (jobId : String) (ws : Ws) : ℕ :=
  match s.runners jobId with
  | some (.broadcasting _ x _) => if x = ws then 1 else 0
  | _ => 0

section Sends
variable [DecidableEq Ws] {str : Str Payload} {s u : JobStore.State String Ws Payload Time}
  {l : JobStore.Label String Ws Payload Time}

theorem inFlight_same {jobId : String} (same : u.runners jobId = s.runners jobId) (ws : Ws) :
    inFlight u jobId ws = inFlight s jobId ws := by
  rw [inFlight, same]
  rfl

theorem inFlight_step (hs : JobStore.step str s l = some u) (jobId : String) (ws : Ws) :
    inFlight u jobId ws ≤ (sendsBy l u).count (jobId, ws) +
      if l.job? = some jobId then 0 else inFlight s jobId ws := by
  rcases JobStore.step_cases hs with ⟨k, payload, sync, rfl, -, rfl⟩ | ⟨k, r, own, at_k, moved⟩ |
    ⟨own, -, runners⟩
  · by_cases same : jobId = k
    · subst same
      rw [inFlight, submitJob, moveRunner_runners]
      exact Nat.zero_le _
    · rw [inFlight_same (Function.update_of_ne same _ _), if_neg (by rintro ⟨⟩)]
      exact Nat.le_add_left _ _
  · by_cases same : jobId = k
    · subst same
      rw [inFlight, sendsBy, own]
      split
      · rename_i position x dead at_id
        simp only [at_id, List.count_singleton, ↓reduceIte, Nat.add_zero]
        split
        · rename_i here
          rw [here]
          exact Nat.le_of_eq (if_pos (beq_self_eq_true _)).symm
        · exact Nat.zero_le _
      · exact Nat.zero_le _
    · rw [inFlight_same (stepJob_onlyJob moved jobId same).2, own,
        if_neg (fun h => same (Option.some.inj h).symm)]
      exact Nat.le_add_left _ _
  · rw [inFlight_same (congrFun runners jobId), own, if_neg (by rintro ⟨⟩)]
    exact Nat.le_add_left _ _

theorem mem_sendsBy (hs : ConnectionStep s l u) {jobId : String} {ws : Ws}
    (mem : (jobId, ws) ∈ sendsBy l u) : ∃ position dead, LoopHead s jobId l position dead ∧
      s.activeConnections[position]? = some ws := by
  have silent (nothing : sendsBy l u = []) : ∃ position dead, LoopHead s jobId l position dead ∧
      s.activeConnections[position]? = some ws := by
    rw [nothing] at mem
    cases mem
  cases hs with
  | sends head found moves _ =>
    rw [sendsBy_sends head.job? moves] at mem
    cases List.mem_singleton.mp mem
    exact ⟨_, _, head, found⟩
  | works own _ _ _ after moves _ => exact silent (sendsBy_quiet own moves after)
  | cleans head _ moves _ => exact silent (sendsBy_quiet head.job? moves (not_broadcasting_ended true))
  | abandons _ _ moves _ => exact silent (sendsBy_quiet rfl moves (not_broadcasting_ended true))
  | submits _ | connects _ | refused _ | joins _ => exact silent (sendsBy_none rfl)
  | echoes goes _ _ => exact silent (sendsBy_none (by rcases goes with rfl | rfl <;> rfl))
  | leaves ends _ _ | breaks ends _ _ => exact silent (sendsBy_none ends.job?)

end Sends

section Notices
variable [DecidableEq Ws] {str : Str Payload} {ls : List (Label Ws Payload Time)}
  {s u : State Ws Payload Time}

/-- Each notice that has come, or is on its way, to `ws` was sent once, by a job whose
gather has returned. -/
structure Notices (ls : List (Label Ws Payload Time)) (s : State Ws Payload Time) : Prop where
  sent : ∀ jobId ws, (s.frames ws).count (notice jobId) + inFlight s.watched.store jobId ws ≤
    s.watched.sent.count (jobId, ws)
  gathered : ∀ jobId ws, (jobId, ws) ∈ s.watched.sent ∨ 0 < inFlight s.watched.store jobId ws →
    ∃ now, Label.other (.gatherEnds jobId (.ok ()) now) ∈ ls

theorem count_delivered (s : State Ws Payload Time) (l : JobStore.Label String Ws Payload Time)
    (jobId : String) (ws : Ws) : (framesFor ws (delivered s l)).count (notice jobId) ≤
      if l.job? = some jobId then inFlight s.watched.store jobId ws else 0 := by
  unfold delivered
  split
  · rename_i x
    rw [framesFor]
    split
    · rw [List.count_singleton, if_neg ?_]
      · exact Nat.zero_le _
      · rw [beq_iff_eq]
        intro same
        have read := readEcho_notice jobId
        rw [← same, readEcho_echo] at read
        cases read
    · exact Nat.zero_le _
  · rename_i k now
    split
    · rename_i position x dead at_k
      rw [framesFor]
      split
      · rename_i here
        rw [List.count_singleton]
        split
        · rename_i same
          have own := notice_injective (beq_iff_eq.mp same)
          subst own
          rw [if_pos (show JobStore.Label.job? _ = some k from rfl), inFlight, at_k]
          exact Nat.le_of_eq (if_pos here).symm
        · exact Nat.zero_le _
      · exact Nat.zero_le _
    · exact Nat.zero_le _
  · exact Nat.zero_le _

theorem step_notices {l : Label Ws Payload Time} (hs : step str s l = some u) :
    ∃ k, JobStore.step str s.watched.store k = some u.watched.store ∧
      u.watched.sent = s.watched.sent ++ sendsBy k u.watched.store ∧
      (∀ jobId ws, (u.frames ws).count (notice jobId) ≤ (s.frames ws).count (notice jobId) +
        if k.job? = some jobId then inFlight s.watched.store jobId ws else 0) ∧
      ∀ jobId now, k = .gatherEnds jobId (.ok ()) now → l = .other k := by
  cases step_frameStep hs with
  | text ws data moved =>
    obtain ⟨v, stored, rfl⟩ := Option.map_eq_some_iff.mp moved
    exact ⟨_, stored, rfl, fun _ _ => Nat.le_add_right _ _, by rintro _ _ ⟨⟩⟩
  | @other _ k moved _ =>
    obtain ⟨v, stored, rfl⟩ := Option.map_eq_some_iff.mp moved
    refine ⟨k, stored, rfl, fun jobId ws => ?_, fun _ _ _ => rfl⟩
    have more := count_delivered s k jobId ws
    rw [List.count_append]
    omega

theorem notices_step (h : Notices ls s) {l : Label Ws Payload Time} (hs : step str s l = some u) :
    Notices (ls ++ [l]) u := by
  obtain ⟨k, moved, sent, count, gatherLabel⟩ := step_notices hs
  have flies := inFlight_step moved
  constructor
  · intro jobId ws
    have before := h.sent jobId ws
    have more := count jobId ws
    have now := flies jobId ws
    rw [sent, List.count_append]
    by_cases own : k.job? = some jobId
    · rw [if_pos own] at more now
      omega
    · rw [if_neg own] at more now
      omega
  · have old {jobId : String} {ws : Ws}
        (was : (jobId, ws) ∈ s.watched.sent ∨ 0 < inFlight s.watched.store jobId ws) :
        ∃ now, Label.other (.gatherEnds jobId (.ok ()) now) ∈ ls ++ [l] := by
      obtain ⟨now, mem⟩ := h.gathered jobId ws was
      exact ⟨now, List.mem_append_left _ mem⟩
    have calls {jobId : String} {ws : Ws} (mem : (jobId, ws) ∈ sendsBy k u.watched.store) :
        ∃ now, Label.other (.gatherEnds jobId (.ok ()) now) ∈ ls ++ [l] := by
      obtain ⟨position, dead, head, -⟩ := mem_sendsBy (step_connectionStep moved) mem
      cases head with
      | @starts payload now gathering =>
        exact ⟨now, List.mem_append_right _ (List.mem_singleton.mpr (gatherLabel jobId now rfl).symm)⟩
      | @continues position x dead outcome now sending noted =>
        refine @old jobId x (.inr ?_)
        rw [inFlight, sending]
        exact Nat.lt_of_lt_of_eq Nat.zero_lt_one (if_pos rfl).symm
    rintro jobId ws (mem | flying)
    · rw [sent] at mem
      rcases List.mem_append.mp mem with mem | mem
      · exact old (.inl mem)
      · exact calls mem
    · have now := flies jobId ws
      by_cases mem : (jobId, ws) ∈ sendsBy k u.watched.store
      · exact calls mem
      · rw [List.count_eq_zero_of_not_mem mem, Nat.zero_add] at now
        by_cases own : k.job? = some jobId
        · rw [if_pos own] at now
          omega
        · rw [if_neg own] at now
          exact old (.inr (Nat.lt_of_lt_of_le flying now))

end Notices

section Runs
variable [DecidableEq Ws] {str : Str Payload} {ls : List (Label Ws Payload Time)}
  {s u : State Ws Payload Time} {l : Label Ws Payload Time} {ws : Ws}

theorem frames_of_step (known : ∀ frame ∈ s.frames ws, (∃ data, frame = echo data) ∨
      ∃ jobId, frame = notice jobId) (hs : step str s l = some u) :
    ∀ frame ∈ u.frames ws, (∃ data, frame = echo data) ∨ ∃ jobId, frame = notice jobId := by
  cases step_frameStep hs with
  | text _ _ _ => exact known
  | @other w l _ _ =>
    intro frame mem
    rcases List.mem_append.mp mem with old | new
    · exact known frame old
    · unfold delivered at new
      split at new
      · exact .inl ⟨_, (framesFor_mem new).2⟩
      · split at new
        · exact .inr ⟨_, (framesFor_mem new).2⟩
        · cases new
      · cases new

theorem inv_of_step (inv : Inv s.watched) (hs : step str s l = some u) : Inv u.watched := by
  cases step_frameStep hs with
  | text _ _ moved => exact inv_step inv moved
  | other moved _ => exact inv_step inv moved

def Early (e : Endpoint) : Prop := e = .absent ∨ e = .accepting

def Accepted (ls : List (Label Ws Payload Time)) (ws : Ws) : Prop :=
  Label.other (.acceptEnds ws (.ok ())) ∈ ls

/-- Nothing goes to a client without its `accept`, and an `accept` is over once and for all. -/
structure Outside (ls : List (Label Ws Payload Time)) (s : State Ws Payload Time) (ws : Ws) : Prop where
  unlisted : ¬ Accepted ls ws → ws ∉ s.watched.store.activeConnections
  unopened : ¬ Accepted ls ws → ¬ Endpoint.Open (s.watched.store.endpoints ws)
  unsent : ¬ Accepted ls ws → ∀ jobId, (jobId, ws) ∉ s.watched.sent
  silent : ¬ Accepted ls ws → s.frames ws = []
  late : Accepted ls ws → ¬ Early (s.watched.store.endpoints ws)

omit [DecidableEq Ws] in
theorem accepted_concat :
    Accepted (ls ++ [l]) ws ↔ Accepted ls ws ∨ l = .other (.acceptEnds ws (.ok ())) := by
  rw [Accepted, List.mem_append, List.mem_singleton, Accepted, eq_comm (a := l)]

theorem listed_from {v w : JobStore.State String Ws Payload Time}
    {k : JobStore.Label String Ws Payload Time} (moved : ConnectionStep v k w)
    (listed : ws ∈ w.activeConnections) : ws ∈ v.activeConnections ∨ k = .acceptEnds ws (.ok ()) := by
  cases moved with
  | submits _ | connects _ | refused _ | echoes _ _ _ | breaks _ _ _ => exact .inl listed
  | works _ _ _ _ _ _ connections | sends _ _ _ connections | abandons _ _ _ connections =>
    exact .inl (connections ▸ listed)
  | cleans _ _ _ connections =>
    rw [connections] at listed
    exact .inl ((removeEach_sublist _ _).subset listed)
  | joins _ =>
    rcases List.mem_append.mp listed with old | new
    · exact .inl old
    · exact .inr (by rw [List.mem_singleton.mp new])
  | leaves _ _ _ => exact .inl (List.mem_of_mem_erase listed)

theorem endpoint_from (ws : Ws) {v w : Watched String Ws Payload Time}
    {k : JobStore.Label String Ws Payload Time} (moved : Watched.step str v k = some w) :
    (Endpoint.Open (w.store.endpoints ws) →
      Endpoint.Open (v.store.endpoints ws) ∨ k = .acceptEnds ws (.ok ())) ∧
    (Early (w.store.endpoints ws) → Early (v.store.endpoints ws) ∧ k ≠ .acceptEnds ws (.ok ())) ∧
    (k = .echoEnds ws (.ok ()) → Endpoint.Open (v.store.endpoints ws)) := by
  rcases watched_turn moved with ⟨none, endpoints⟩ | ⟨x, e, own, turn, endpoints⟩
  · rw [endpoints]
    refine ⟨.inl, fun early => ⟨early, ?_⟩, ?_⟩ <;> (rintro rfl; cases none)
  · rw [endpoints]
    by_cases same : ws = x
    · subst same
      rw [Function.update_self]
      generalize v.store.endpoints ws = stage at turn
      cases turn with
      | connects _ =>
        exact ⟨by rintro (⟨⟨⟩⟩ | ⟨⟨⟩⟩), fun _ => ⟨.inl rfl, by rintro ⟨⟩⟩, by rintro ⟨⟩⟩
      | accepted _ =>
        cases own
        exact ⟨fun _ => .inr rfl, by rintro (⟨⟨⟩⟩ | ⟨⟨⟩⟩), by rintro ⟨⟩⟩
      | received _ =>
        exact ⟨fun _ => .inl (.inl rfl), by rintro (⟨⟨⟩⟩ | ⟨⟨⟩⟩), by rintro ⟨⟩⟩
      | echoed _ =>
        exact ⟨fun _ => .inl (.inr rfl), by rintro (⟨⟨⟩⟩ | ⟨⟨⟩⟩), fun _ => .inr rfl⟩
      | refused _ _ | receiveRaised _ _ _ | echoRaised _ _ _ =>
        exact ⟨by rintro (⟨⟨⟩⟩ | ⟨⟨⟩⟩), by rintro (⟨⟨⟩⟩ | ⟨⟨⟩⟩), by rintro ⟨⟩⟩
    · rw [Function.update_of_ne same]
      refine ⟨.inl, fun early => ⟨early, ?_⟩, ?_⟩ <;>
        (rintro rfl; exact (same (Option.some.inj own)).elim)

theorem Outside.undelivered (h : Outside ls s ws) (notices : Notices ls s)
    (outside : ¬ Accepted ls ws) {k : JobStore.Label String Ws Payload Time}
    {w : Watched String Ws Payload Time} (moved : Watched.step str s.watched k = some w) :
    framesFor ws (delivered s k) = [] := by
  unfold delivered
  split
  · rename_i x
    refine framesFor_ne (fun same => ?_) _
    subst same
    exact h.unopened outside ((endpoint_from _ moved).2.2 rfl)
  · rename_i jobId now
    split
    · rename_i position x dead sending
      refine framesFor_ne (fun same => ?_) _
      have unsent := List.count_eq_zero_of_not_mem (h.unsent outside jobId)
      have flying := notices.sent jobId ws
      rw [inFlight, sending, unsent] at flying
      simp [same] at flying
    · rfl
  · rfl

theorem outside_moved (h : Outside ls s ws) {k : JobStore.Label String Ws Payload Time}
    {w : Watched String Ws Payload Time} (moved : Watched.step str s.watched k = some w)
    {u : State Ws Payload Time} (store : u.watched = w)
    (same : l = .other (.acceptEnds ws (.ok ())) ↔ k = .acceptEnds ws (.ok ()))
    (silent : ¬ Accepted ls ws → u.frames ws = []) : Outside (ls ++ [l]) u ws := by
  obtain ⟨opened, early, -⟩ := endpoint_from ws moved
  obtain ⟨v, enabled, rfl⟩ := Option.map_eq_some_iff.mp moved
  have step := step_connectionStep enabled
  have before (outside : ¬ Accepted (ls ++ [l]) ws) : ¬ Accepted ls ws ∧ k ≠ .acceptEnds ws (.ok ()) := by
    rw [accepted_concat, same] at outside
    exact not_or.mp outside
  constructor
  · intro outside listed
    obtain ⟨was, other⟩ := before outside
    rw [store] at listed
    exact h.unlisted was ((listed_from step listed).resolve_right other)
  · intro outside isOpen
    obtain ⟨was, other⟩ := before outside
    rw [store] at isOpen
    exact h.unopened was ((opened isOpen).resolve_right other)
  · intro outside jobId mem
    obtain ⟨was, -⟩ := before outside
    rw [store] at mem
    rcases List.mem_append.mp mem with old | new
    · exact h.unsent was jobId old
    · obtain ⟨_, _, -, found⟩ := mem_sendsBy step new
      exact h.unlisted was (List.mem_of_getElem? found)
  · exact fun outside => silent (before outside).1
  · intro accepted isEarly
    rw [store] at isEarly
    obtain ⟨was, other⟩ := early isEarly
    rcases accepted_concat.mp accepted with old | new
    · exact h.late old was
    · exact other (same.mp new)

theorem outside_step (h : Outside ls s ws) (notices : Notices ls s) (hs : step str s l = some u) :
    Outside (ls ++ [l]) u ws := by
  cases step_frameStep hs with
  | text x data moved =>
    exact outside_moved h moved rfl (iff_of_false (by rintro ⟨⟩) (by rintro ⟨⟩)) h.silent
  | @other w k moved _ =>
    refine outside_moved h moved rfl ⟨fun same => Label.other.inj same, congrArg _⟩ fun outside => ?_
    change s.frames ws ++ framesFor ws (delivered s k) = []
    rw [h.silent outside, h.undelivered notices outside moved, List.nil_append]

/-- A client hears its own texts in their order, each once and all but the last one at
once. What else it gets are notices, at most one of each job, whose gather has returned;
and it gets nothing before it is accepted, or when it is refused. -/
structure Conversation (ls : List (Label Ws Payload Time)) (s : State Ws Payload Time) (ws : Ws) :
    Prop where
  echoes : Echoes ls s ws
  known : ∀ frame ∈ s.frames ws, (∃ data, frame = echo data) ∨ ∃ jobId, frame = notice jobId
  once : ∀ jobId, (s.frames ws).count (notice jobId) ≤ 1
  gathered : ∀ jobId, notice jobId ∈ s.frames ws →
    ∃ now, Label.other (.gatherEnds jobId (.ok ()) now) ∈ ls
  quiet : Early (s.watched.store.endpoints ws) → s.frames ws = []
  unaccepted : ¬ Accepted ls ws → s.frames ws = []

theorem notices_initial : Notices [] (initial : State Ws Payload Time) :=
  ⟨fun _ _ => Nat.le_refl 0, by rintro _ _ (⟨⟨⟩⟩ | ⟨⟨⟩⟩)⟩

theorem echoes_initial (ws : Ws) : Echoes [] (initial : State Ws Payload Time) ws :=
  echoes_settled rfl (by rintro ⟨⟩) (by rintro _ ⟨⟩)

omit [DecidableEq Ws] in
theorem outside_initial (ws : Ws) : Outside [] (initial : State Ws Payload Time) ws where
  unlisted _ := List.not_mem_nil
  unopened _ := by rintro (⟨⟨⟩⟩ | ⟨⟨⟩⟩)
  unsent _ _ := List.not_mem_nil
  silent _ := rfl
  late := by rintro ⟨⟩

theorem conversation (str : Str Payload) (run : Runs (step str) initial ls u) (ws : Ws) :
    Conversation ls u ws := by
  obtain ⟨inv, notices, echoes, known, outside⟩ := run.history
    (fun ls s => Inv s.watched ∧ Notices ls s ∧ Echoes ls s ws ∧
      (∀ frame ∈ s.frames ws, (∃ data, frame = echo data) ∨ ∃ jobId, frame = notice jobId) ∧
      Outside ls s ws)
    ⟨inv_initial, notices_initial, echoes_initial ws, by rintro _ ⟨⟩, outside_initial ws⟩
    (fun ls s l u ⟨inv, notices, echoes, known, outside⟩ hs =>
      ⟨inv_of_step inv hs, notices_step notices hs, echoes_step echoes hs, frames_of_step known hs,
        outside_step outside notices hs⟩)
  have once (jobId : String) : (u.watched.sent).count (jobId, ws) ≤ 1 :=
    List.nodup_iff_count_le_one.mp inv.visits.once (jobId, ws)
  have quiet (early : Early (u.watched.store.endpoints ws)) : u.frames ws = [] :=
    outside.silent fun accepted => outside.late accepted early
  refine ⟨echoes, known, fun jobId => ?_, fun jobId mem => ?_, quiet, outside.silent⟩
  · have sent := notices.sent jobId ws
    have one := once jobId
    omega
  · have sent := notices.sent jobId ws
    have some := List.count_pos_iff.mpr mem
    exact notices.gathered jobId ws (.inl (List.count_pos_iff.mp (by omega)))

end Runs

section Examples

/-- A job is done while a text is being echoed; another client has been refused. -/
def chat : List (Label ℕ Unit Unit) :=
  [.other (.connect 0), .other (.acceptEnds 0 (.ok ())), .other (.connect 1),
    .other (.acceptEnds 1 (.error .runtimeError)), .other (.submit "a" () false),
    .other (.dispatch "a" ()), .text 0 "hi", .other (.gatherEnds "a" (.ok ()) ()),
    .other (.echoEnds 0 (.ok ())), .other (.sendEnds "a" (.ok ()) ())]

theorem chat_conversation : ∃ u : State ℕ Unit Unit,
    u.frames 0 = ["echo: hi", "job:a:done"] ∧ Conversation chat u 0 ∧ Conversation chat u 1 := by
  obtain ⟨u, run, frames⟩ : ∃ u : State ℕ Unit Unit, Runs (step unitStr) initial chat u ∧
      u.frames 0 = ["echo: hi", "job:a:done"] := ⟨_, Runs.of_execute rfl, rfl⟩
  exact ⟨u, frames, conversation unitStr run 0, conversation unitStr run 1⟩

end Examples

end FastapiProject.WebSocketFrames
