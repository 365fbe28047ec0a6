import FastapiProject.ConsumerMessage

set_option autoImplicit false

/-!
# From `publish` to the handler

`rmq/publisher.py`, lines 50 to 86, and the consumer at the other end of the queue. The
envelope and the payload share one flat object, in which the payload has the last word.
-/
namespace FastapiProject.PublishedMessage
open PythonExceptions PythonJson ConsumerMessage

variable {H : Type}

abbrev JsonDict := Dict Str Json

def eventTypeKey : Str := ofString "event_type"
def publishedAtKey : Str := ofString "published_at"

/-- The object that `publish` writes; `publishedAt` is the outcome of `isoformat`. -/
def publishBody (eventType publishedAt : Str) (data : JsonDict) : List (Str × Json) :=
  dictUpdate [(eventTypeKey, .str eventType), (publishedAtKey, .str publishedAt)] data.entries

structure Message where
  body : ByteArray
  contentType : String
  persistent : Bool

/-- What `exchange.publish` is called with: the message and its routing key. -/
def publish (eventType publishedAt : Str) (data : JsonDict) (routingKey : Option Str) :
    Message × Str :=
  let raw := encode (dumps (.object (publishBody eventType publishedAt data)))
  let rk := match routingKey with
    | none | some [] => eventType
    | some rk => rk
  (⟨raw, "application/json", true⟩, rk)

/-- The handler of exactly this event type is looked up, and it is given an object with
every entry of the payload and with the event type. -/
def Faithful (depth : ℕ) (handlers : Handlers H) (eventType publishedAt : Str) (data : JsonDict)
    (routingKey : Option Str) : Prop :=
  let parsed := loadsBody depth (publish eventType publishedAt data routingKey).1.body
  ∃ entries, parsed = .ok (.object entries) ∧
    bodyEventType (.object entries) = .ok (.str eventType) ∧
    route handlers parsed =
      .ok ((dictGet handlers eventType).map fun handler => (handler, .object entries)) ∧
    (∀ key item, dictGet data.entries key = some item → dictGet entries key = some item) ∧
    dictGet entries eventTypeKey = some (.str eventType)

def RoundTrips (depth : ℕ) (eventType publishedAt : Str) (data : JsonDict) : Prop :=
  loadsBody depth (encode (dumps (.object (publishBody eventType publishedAt data)))) =
    .ok (.object (publishBody eventType publishedAt data))

section Body
variable (eventType publishedAt : Str) (data : JsonDict)

theorem publishBody_get (key : Str) : dictGet (publishBody eventType publishedAt data) key =
    (dictGet data.entries key).or
      (dictGet [(eventTypeKey, .str eventType), (publishedAtKey, .str publishedAt)] key) :=
  dictGet_dictUpdate _ data.nodup key

theorem publishBody_payload {key : Str} {item : Json} (h : dictGet data.entries key = some item) :
    dictGet (publishBody eventType publishedAt data) key = some item := by
  rw [publishBody_get, h]
  rfl

theorem publishBody_eventType : dictGet (publishBody eventType publishedAt data) eventTypeKey =
    some ((dictGet data.entries eventTypeKey).getD (.str eventType)) := by
  rw [publishBody_get]
  cases dictGet data.entries eventTypeKey with
  | none => simp [dictGet]
  | some item => rfl

end Body

/-- A published event reaches the handler of its own type, payload and all, exactly when
the payload has no other `event_type` of its own. -/
theorem faithful_iff (depth : ℕ) (handlers : Handlers H) (eventType publishedAt : Str)
    (data : JsonDict) (routingKey : Option Str)
    (roundTrips : RoundTrips depth eventType publishedAt data) :
    Faithful depth handlers eventType publishedAt data routingKey ↔
      ∀ item, dictGet data.entries eventTypeKey = some item → item = .str eventType := by
  have written := publishBody_eventType eventType publishedAt data
  have parsed : loadsBody depth (publish eventType publishedAt data routingKey).1.body =
      .ok (.object (publishBody eventType publishedAt data)) := roundTrips
  constructor
  · rintro ⟨entries, same, -, -, payload, event⟩ item found
    have kept := payload _ _ found
    exact Option.some.inj (kept.symm.trans event)
  · intro own
    have event : dictGet (publishBody eventType publishedAt data) eventTypeKey =
        some (.str eventType) := by
      rw [written]
      cases found : dictGet data.entries eventTypeKey with
      | none => rfl
      | some item => rw [own item found, Option.getD_some]
    have read : bodyEventType (.object (publishBody eventType publishedAt data)) =
        .ok (.str eventType) := by
      change Except.ok ((dictGet _ eventTypeKey).getD defaultEventType) = _
      rw [event, Option.getD_some]
    refine ⟨publishBody eventType publishedAt data, parsed, read, ?_,
      fun key item => publishBody_payload eventType publishedAt data, event⟩
    rw [parsed]
    simp only [route, read, handlersGet, Except.bind, bind]
    cases dictGet handlers eventType <;> rfl

section Examples

def userCreated : Str := ofString "user.created"
def noon : Str := ofString "2026-07-10T12:00:00"
def userData : JsonDict := ⟨[(ofString "id", .str (ofString "7"))], by decide⟩

theorem userCreated_faithful : Faithful 1 [(userCreated, ())] userCreated noon userData none :=
  (faithful_iff 1 [(userCreated, ())] userCreated noon userData none rfl).mpr
    (fun item found => nomatch (found : none = some item))

def forgedData : JsonDict := ⟨[(eventTypeKey, .str (ofString "user.deleted"))], by decide⟩

/-- A payload with an `event_type` takes the message to another handler. -/
theorem payload_replaces_eventType : ¬ ∀ (depth : ℕ) (handlers : Handlers Unit)
    (eventType publishedAt : Str) (data : JsonDict) (routingKey : Option Str),
    RoundTrips depth eventType publishedAt data →
      Faithful depth handlers eventType publishedAt data routingKey := by
  intro h
  have written : loadsBody 1 (publish userCreated noon forgedData none).1.body =
      .ok (.object (publishBody userCreated noon forgedData)) := rfl
  obtain ⟨entries, parsed, read, -⟩ := h 1 [] userCreated noon forgedData none written
  cases written.symm.trans parsed
  have replaced := Json.str.inj (Except.ok.inj read)
  exact absurd replaced (by decide)

end Examples

end FastapiProject.PublishedMessage
