import Mathlib.Tactic.Cases
import FastapiProject.ConsumerMessage

set_option autoImplicit false

/-!
# Which settlement a message gets first

On an open channel every run of the block sends something; the question is whether it is
the disposition that the docstring and the README promise for that body and handler.
-/
namespace FastapiProject.ConsumerMessageSettlement
open PythonExceptions PythonJson ConsumerMessage

variable {H : Type}

section Documented
variable (depth : ℕ) (handlers : Handlers H) (run : H → Json → Except Exn Unit) (raw : ByteArray)

def Registered (h : H) (body : Json) : Prop :=
  ∃ entries s, loadsBody depth raw = .ok (.object entries) ∧ body = .object entries ∧
    eventTypeOf entries = .str s ∧ dictGet handlers s = some h

def NotJson : Prop := ∀ body, loadsBody depth raw ≠ .ok body

def NotAnObject : Prop :=
  ∃ body, loadsBody depth raw = .ok body ∧ ∀ entries, body ≠ .object entries

def UnknownEventType : Prop :=
  ∃ entries, loadsBody depth raw = .ok (.object entries) ∧
    ∀ s, eventTypeOf entries = .str s → dictGet handlers s = none

def firstSettlement : Option Settlement :=
  (processMessage depth handlers run raw { channel := .opened }).2.sent.head?

/-- The documented disposition: acknowledged after the handler returned, dropped when no
handler can be found, and requeued when the handler raised. -/
def Documented : Prop :=
  (firstSettlement depth handlers run raw = some .ack ↔
    ∃ h body, Registered depth handlers raw h body ∧ run h body = .ok ()) ∧
  (firstSettlement depth handlers run raw = some (.nack false) ∨
    firstSettlement depth handlers run raw = some (.reject false) ↔
    NotJson depth raw ∨ NotAnObject depth raw ∨ UnknownEventType depth handlers raw) ∧
  (firstSettlement depth handlers run raw = some (.nack true) ↔
    ∃ h body e, Registered depth handlers raw h body ∧ run h body = .error e)

def hashable : Json → Bool
  | .array _ | .object _ => false
  | _ => true

/-- The inputs that leave the block by one of its two `return` statements. -/
def ReturnsEarly : Prop :=
  loadsBody depth raw = .error .jsonDecodeError ∨
  loadsBody depth raw = .error .unicodeDecodeError ∨
  ∃ entries, loadsBody depth raw = .ok (.object entries) ∧
    hashable (eventTypeOf entries) = true ∧
    ∀ s, eventTypeOf entries = .str s → dictGet handlers s = none

end Documented

section Routes
variable {depth : ℕ} {handlers : Handlers H} {raw : ByteArray}

theorem route_registered {h : H} {body : Json} (hr : Registered depth handlers raw h body) :
    route handlers (loadsBody depth raw) = .ok (some (h, body)) := by
  obtain ⟨entries, s, hl, rfl, ht, hg⟩ := hr
  simp [route, hl, bodyEventType, ht, handlersGet, hg, bind, Except.bind, pure, Except.pure]

theorem registered_of_route {h : H} {body : Json}
    (hr : route handlers (loadsBody depth raw) = .ok (some (h, body))) :
    Registered depth handlers raw h body := by
  cases hl : loadsBody depth raw with
  | error e =>
    rw [hl] at hr
    simp only [route] at hr
    split at hr <;> cases hr
  | ok body' =>
    rw [hl] at hr
    cases body' with
    | object entries =>
      cases ht : eventTypeOf entries with
      | str s =>
        cases hg : dictGet handlers s with
        | none => simp [route, bodyEventType, ht, handlersGet, hg, bind, Except.bind, pure,
            Except.pure] at hr
        | some h' =>
          simp only [route, bodyEventType, ht, handlersGet, hg, bind, Except.bind, pure,
            Except.pure] at hr
          cases hr
          exact ⟨entries, s, hl, rfl, ht, hg⟩
      | _ => simp [route, bodyEventType, ht, handlersGet, bind, Except.bind, pure,
          Except.pure] at hr
    | _ => cases hr

theorem registered_unique {h h' : H} {body body' : Json}
    (hr : Registered depth handlers raw h body) (hr' : Registered depth handlers raw h' body') :
    h = h' ∧ body = body' := by
  have same := (route_registered hr).symm.trans (route_registered hr')
  simpa using same

theorem not_registered_iff : (¬ ∃ h body, Registered depth handlers raw h body) ↔
    NotJson depth raw ∨ NotAnObject depth raw ∨ UnknownEventType depth handlers raw := by
  constructor
  · intro none_registered
    cases hl : loadsBody depth raw with
    | error e => exact .inl (fun body h => by simp [hl] at h)
    | ok body =>
      by_cases ho : ∃ entries, body = .object entries
      · obtain ⟨entries, rfl⟩ := ho
        refine .inr (.inr ⟨entries, hl, fun s ht => ?_⟩)
        cases hg : dictGet handlers s with
        | none => rfl
        | some h => exact absurd ⟨h, _, entries, s, hl, rfl, ht, hg⟩ none_registered
      · exact .inr (.inl ⟨body, hl, fun entries he => ho ⟨entries, he⟩⟩)
  · rintro (hn | ⟨body, hb, hn⟩ | ⟨entries, he, hn⟩) ⟨h, _, entries', s, hl, -, ht, hg⟩
    · exact hn _ hl
    · rw [hb] at hl
      exact hn entries' (Except.ok.inj hl)
    · rw [he] at hl
      cases Except.ok.inj hl
      rw [hn s ht] at hg
      cases hg

theorem unregistered_first (run : H → Json → Except Exn Unit)
    (hn : ¬ ∃ h body, Registered depth handlers raw h body) :
    firstSettlement depth handlers run raw = some .ack ∧ ReturnsEarly depth handlers raw ∨
    firstSettlement depth handlers run raw = some (.reject false) ∧
      ¬ ReturnsEarly depth handlers raw := by
  have early (hr : route handlers (loadsBody depth raw) = .ok none) :
      firstSettlement depth handlers run raw = some .ack := by
    simp [firstSettlement, processMessage, processRouted, process, settle, hr]
  have failed (e : Exn) (hr : route handlers (loadsBody depth raw) = .error e) :
      firstSettlement depth handlers run raw = some (.reject false) := by
    simp [firstSettlement, processMessage, processRouted, process, settleThenRaise, settle, hr]
  cases hl : loadsBody depth raw with
  | error e =>
    by_cases he : e = .jsonDecodeError ∨ e = .unicodeDecodeError
    · refine .inl ⟨early (by simp [route, hl, he]), ?_⟩
      rcases he with rfl | rfl
      · exact .inl hl
      · exact .inr (.inl hl)
    · refine .inr ⟨failed e (by simp [route, hl, he]), ?_⟩
      rintro (hj | hu | ⟨entries, ho, -, -⟩)
      · exact he (.inl (Except.error.inj (hl.symm.trans hj)))
      · exact he (.inr (Except.error.inj (hl.symm.trans hu)))
      · cases hl.symm.trans ho
  | ok body =>
    by_cases ho : ∃ entries, body = .object entries
    · obtain ⟨entries, rfl⟩ := ho
      have unknown : ∀ s, eventTypeOf entries = .str s → dictGet handlers s = none := by
        intro s ht
        cases hg : dictGet handlers s with
        | none => rfl
        | some h => exact absurd ⟨h, _, entries, s, hl, rfl, ht, hg⟩ hn
      by_cases hh : hashable (eventTypeOf entries) = true
      · refine .inl ⟨early ?_, .inr (.inr ⟨entries, hl, hh, unknown⟩)⟩
        cases ht : eventTypeOf entries with
        | array _ | object _ => simp [hashable, ht] at hh
        | str s =>
          simp [route, hl, bodyEventType, ht, handlersGet, unknown s ht, bind, Except.bind,
            pure, Except.pure]
        | null | bool _ | int _ | float _ =>
          simp [route, hl, bodyEventType, ht, handlersGet, bind, Except.bind, pure, Except.pure]
      · refine .inr ⟨failed .typeError ?_, ?_⟩
        · cases ht : eventTypeOf entries with
          | array _ | object _ =>
            simp [route, hl, bodyEventType, ht, handlersGet, bind, Except.bind]
          | _ => simp [hashable, ht] at hh
        · rintro (hj | hu | ⟨entries', ho, hh', -⟩)
          · cases hl.symm.trans hj
          · cases hl.symm.trans hu
          · cases hl.symm.trans ho
            exact hh hh'
    · refine .inr ⟨failed .attributeError ?_, ?_⟩
      · cases body with
        | object entries => exact absurd ⟨entries, rfl⟩ ho
        | _ => simp [route, hl, bodyEventType, bind, Except.bind]
      · rintro (hj | hu | ⟨entries', hobj, -, -⟩)
        · cases hl.symm.trans hj
        · cases hl.symm.trans hu
        · exact ho ⟨entries', Except.ok.inj (hl.symm.trans hobj)⟩

theorem registered_first (run : H → Json → Except Exn Unit) {h : H} {body : Json}
    (hr : Registered depth handlers raw h body) :
    firstSettlement depth handlers run raw =
      match run h body with
      | .ok () => some .ack
      | .error e => if e.isException = true then some (.nack true) else some (.reject false) := by
  have sent := executeHandler_sent .opened (run h body) (by decide)
  have first : firstSettlement depth handlers run raw =
      (process false (executeHandler (run h body)) { channel := .opened }).2.sent.head? := by
    simp only [firstSettlement, processMessage, processRouted, route_registered hr]
  rw [first, sent]
  cases run h body with
  | ok _ => rfl
  | error e => by_cases he : e.isException = true <;> simp [he]

theorem registered_not_early {h : H} {body : Json} (hr : Registered depth handlers raw h body) :
    ¬ ReturnsEarly depth handlers raw := by
  obtain ⟨entries, s, hl, -, ht, hg⟩ := hr
  rintro (hj | hu | ⟨entries', ho, -, hn⟩)
  · cases hl.symm.trans hj
  · cases hl.symm.trans hu
  · cases hl.symm.trans ho
    rw [hn s ht] at hg
    cases hg

end Routes

/-- The disposition is the documented one for exactly the inputs that do not return
early: both `return` statements acknowledge a message that was to be dropped. -/
theorem documented_iff (depth : ℕ) (handlers : Handlers H) (run : H → Json → Except Exn Unit)
    (raw : ByteArray) (exceptions : ∀ h body e, run h body = .error e → e.isException = true) :
    Documented depth handlers run raw ↔ ¬ ReturnsEarly depth handlers raw := by
  by_cases hr : ∃ h body, Registered depth handlers raw h body
  · obtain ⟨h, body, hr⟩ := hr
    refine iff_of_true ?_ (registered_not_early hr)
    have first := registered_first run hr
    have found : ¬ (NotJson depth raw ∨ NotAnObject depth raw ∨
        UnknownEventType depth handlers raw) :=
      fun hn => not_registered_iff.mpr hn ⟨h, body, hr⟩
    have only (r : Except Exn Unit) :
        (∃ h' body', Registered depth handlers raw h' body' ∧ run h' body' = r) ↔
          run h body = r := by
      constructor
      · rintro ⟨h', body', hr', he⟩
        obtain ⟨rfl, rfl⟩ := registered_unique hr hr'
        exact he
      · exact fun he => ⟨h, body, hr, he⟩
    have raised : (∃ h' body' e, Registered depth handlers raw h' body' ∧ run h' body' = .error e) ↔
        ∃ e, run h body = .error e := by
      constructor
      · rintro ⟨h', body', e, hr', he⟩
        exact ⟨e, (only _).mp ⟨h', body', hr', he⟩⟩
      · rintro ⟨e, he⟩
        exact ⟨h, body, e, hr, he⟩
    unfold Documented
    rw [only, raised]
    cases hrun : run h body with
    | ok _ =>
      simp only [hrun] at first
      simp [first, found]
    | error e =>
      have he := exceptions h body e hrun
      simp only [hrun, he, ↓reduceIte] at first
      simp [first, found]
  · have nobody (P : H → Json → Prop) :
        ¬ ∃ h body, Registered depth handlers raw h body ∧ P h body :=
      fun ⟨h, body, hreg, _⟩ => hr ⟨h, body, hreg⟩
    have dropped := not_registered_iff.mp hr
    rcases unregistered_first run hr with ⟨first, early⟩ | ⟨first, late⟩
    · refine iff_of_false ?_ (not_not_intro early)
      rintro ⟨acked, -, -⟩
      exact nobody _ (acked.mp first)
    · refine iff_of_true ⟨?_, ?_, ?_⟩ late
      · exact iff_of_false (by simp [first]) (nobody _)
      · exact iff_of_true (.inr first) dropped
      · apply iff_of_false (by simp [first])
        rintro ⟨h, body, e, hreg, he⟩
        exact nobody (fun h body => run h body = .error e) ⟨h, body, hreg, he⟩

theorem documented_raising_handler :
    Documented (H := Unit) 3 [(ofString "user.created", ())] (fun _ _ => .error .valueError)
      "\x7b\"event_type\": \"user.created\"\x7d".toByteArray :=
  (documented_iff 3 _ _ _ (fun _ _ _ he => by cases he; rfl)).mpr
    (registered_not_early (h := ()) ⟨_, ofString "user.created", rfl, rfl, rfl, rfl⟩)

theorem bad_json_acknowledged :
    ¬ Documented (H := Unit) 3 [(ofString "user.created", ())] (fun _ _ => .ok ())
      "not json".toByteArray := by
  rintro ⟨acked, -, -⟩
  obtain ⟨_, _, ⟨entries, _, hl, -⟩, -⟩ := acked.mp rfl
  have fails : loadsBody 3 "not json".toByteArray = .error .jsonDecodeError := rfl
  rw [fails] at hl
  cases hl

section Once
variable (depth : ℕ) (handlers : Handlers H) (run : H → Json → Except Exn Unit) (raw : ByteArray)

def settled : Except Exn Unit × Delivery :=
  processMessage depth handlers run raw { channel := .opened }

def SettledOnce : Prop :=
  (settled depth handlers run raw).2.attempts.length = 1 ∧
  ∀ h body e, Registered depth handlers raw h body → run h body = .error e → e.isException = true →
    (settled depth handlers run raw).1 = .error e

def HandlerRaises : Prop :=
  ∃ h body e, Registered depth handlers raw h body ∧ run h body = .error e ∧ e.isException = true

variable {depth handlers run raw}

theorem settled_registered {h : H} {body : Json} (hr : Registered depth handlers raw h body) :
    settled depth handlers run raw =
      process false (executeHandler (run h body)) { channel := .opened } := by
  simp only [settled, processMessage, processRouted, route_registered hr]

/-- The `except` clause settles, and the end of the block does so again. -/
theorem handler_attempts (outcome : Except Exn Unit) :
    (process false (executeHandler outcome) { channel := .opened }).2.attempts =
      match outcome with
      | .ok () => [.ack]
      | .error e => if e.isException = true then [.nack true, .reject false] else [.reject false] := by
  cases outcome with
  | ok u => simp [process, executeHandler, settle]
  | error e =>
    by_cases he : e.isException = true
    · simp [process, executeHandler, settleThenRaise, settle, he]
    · simp [process, executeHandler, settleThenRaise, settle, he]

theorem unrouted_attempts {routed : Except Exn (Option (H × Json))}
    (unrouted : ∀ target, routed ≠ .ok (some target)) :
    (processRouted run routed { channel := .opened }).2.attempts.length = 1 := by
  match routed with
  | .error e => simp [processRouted, process, settleThenRaise, settle]
  | .ok none => simp [processRouted, process, settle]
  | .ok (some target) => exact absurd rfl (unrouted target)

end Once

/-- A delivery is settled once unless its handler raises. -/
theorem settledOnce_iff (depth : ℕ) (handlers : Handlers H) (run : H → Json → Except Exn Unit)
    (raw : ByteArray) : SettledOnce depth handlers run raw ↔ ¬ HandlerRaises depth handlers run raw := by
  constructor
  · rintro ⟨once, -⟩ ⟨h, body, e, hr, raised, he⟩
    rw [settled_registered hr, handler_attempts, raised] at once
    simp [he] at once
  · intro quiet
    refine ⟨?_, fun h body e hr raised he => absurd ⟨h, body, e, hr, raised, he⟩ quiet⟩
    by_cases hr : ∃ h body, Registered depth handlers raw h body
    · obtain ⟨h, body, hr⟩ := hr
      rw [settled_registered hr, handler_attempts]
      cases outcome : run h body with
      | ok u => rfl
      | error e =>
        have he : ¬ e.isException = true := fun he => quiet ⟨h, body, e, hr, outcome, he⟩
        simp [he]
    · refine unrouted_attempts fun target routed => ?_
      exact hr ⟨target.1, target.2, registered_of_route routed⟩

/-- The error of the handler is lost to one about a message already processed. -/
theorem raising_handler_settled_twice :
    ¬ SettledOnce (H := Unit) 3 [(ofString "user.created", ())] (fun _ _ => .error .valueError)
      "\x7b\"event_type\": \"user.created\"\x7d".toByteArray := by
  rintro ⟨-, same⟩
  have ends := same () _ .valueError ⟨_, ofString "user.created", rfl, rfl, rfl, rfl⟩ rfl rfl
  cases ends

end FastapiProject.ConsumerMessageSettlement
