import EventCourier.Proofs.Payload
import EventCourier.Proofs.Topology
import EventCourier.Worker

/-!
# One message, one sink

A message that is decoded is given to the sink of its routing key and to no other (`process_decoded`), and one that
is not to none (`process_undecodable`). Of the failures that can come of it only that of a backend that could not
serve the request is transient, so that only it puts a message back into its queue (`conclude_eq_requeued`). A worker
that takes its time between asking and being answered comes to the same (`Worker.handled_as_processed`).
-/

namespace EventCourier

variable {ρ σ : Type}

/-! ## Events -/

/-- The event of a message whose body was decoded. -/
def Message.eventOf (m : Message) (receivedAt : Instant) (payload : Payload) : Event :=
  ⟨m.exchange, eventTypeOf m.routingKey, m.routingKey, receivedAt, payload⟩

theorem Message.event?_of_ok {m : Message} {payload : Payload} (h : Payload.decode m.body = .ok payload)
    (receivedAt : Instant) : m.event? receivedAt = .ok (m.eventOf receivedAt payload) := by
  simp only [Message.event?, h, Message.eventOf]

theorem Message.event?_of_error {m : Message} {e : WorkerError} (h : Payload.decode m.body = .error e)
    (receivedAt : Instant) : m.event? receivedAt = .error e := by
  simp only [Message.event?, h]

/-- A body that is not decoded fails with a decode error. -/
theorem Payload.decode_eq_error {body : List UInt8} {e : WorkerError} (h : Payload.decode body = .error e) :
    ∃ reason, e = .decode reason := by
  unfold Payload.decode at h
  split at h
  · cases h
    exact ⟨_, rfl⟩
  · split at h <;> cases h
    exact ⟨_, rfl⟩

namespace Pipeline

variable {router : Router (Sink ρ)} {policy : RejectPolicy} {persist : Sink ρ → Event → σ → Verdict × σ}
  {d : Delivery} {receivedAt : Instant} {j : Journal} {s : σ}

/-! ## What follows from the answer of a sink -/

section

variable {sink : String} {duration : Nat} {answer : Except SinkError Unit}

/-- Only success is acked. -/
theorem conclude_eq_ack : (conclude policy d sink duration answer j).1 = .ack ↔ answer = .ok () := by
  cases answer with
  | ok => simp [conclude]
  | error e => simp [conclude, reject, outcomeOf]

/-- Of the failures of sinks only those of a backend that could not serve the request are put back. -/
theorem shouldRequeue_sink {e : SinkError} : policy.shouldRequeue (.sink e) = true ↔
    policy = .requeueTransient ∧ ∃ reason, e = .unavailable reason := by
  cases policy with
  | deadLetter => simp [RejectPolicy.shouldRequeue]
  | requeueTransient => cases e <;> simp [RejectPolicy.shouldRequeue, WorkerError.category, SinkError.category]

/-- Only what a backend could not serve goes back, and only if the policy says so. -/
theorem conclude_eq_requeued : (conclude policy d sink duration answer j).1 = .reject true ↔
    policy = .requeueTransient ∧ ∃ reason, answer = .error (.unavailable reason) := by
  cases answer with
  | ok => simp [conclude]
  | error e =>
    show Outcome.reject (policy.shouldRequeue (.sink e)) = .reject true ↔ _
    rw [Outcome.reject.injEq, shouldRequeue_sink]
    simp only [Except.error.injEq]

/-- Every other failure is rejected for good. -/
theorem conclude_eq_dropped : (conclude policy d sink duration answer j).1 = .reject false ↔
    ∃ e, answer = .error e ∧ (policy = .requeueTransient → ∀ reason, e ≠ .unavailable reason) := by
  cases answer with
  | ok => simp [conclude]
  | error e =>
    show Outcome.reject (policy.shouldRequeue (.sink e)) = .reject false ↔ _
    rw [Outcome.reject.injEq, ← Bool.not_eq_true, shouldRequeue_sink, not_and, not_exists]
    constructor
    · exact fun h => ⟨e, rfl, h⟩
    · rintro ⟨e', he, h⟩
      rwa [Except.error.inj he]

end

/-! ## From arrival to outcome -/

/-- A message that is decoded goes to the sink of its routing key, whose answer decides. -/
theorem process_decoded {payload : Payload} (h : Payload.decode d.message.body = .ok payload) :
    let sink := router.select d.message.routingKey
    let answered := persist sink (d.message.eventOf receivedAt payload) s
    let concluded := conclude policy d sink.name answered.1.duration answered.1.result
      (j.mark (.received d.message.routingKey))
    process router policy persist d receivedAt j s = ⟨concluded.1, concluded.2, answered.2⟩ := by
  unfold process
  rw [Message.event?_of_ok h]
  rfl

/-- A message that is not decoded goes to no sink and not back into its queue. -/
theorem process_undecodable {e : WorkerError} (h : Payload.decode d.message.body = .error e) :
    process router policy persist d receivedAt j s =
      ⟨.reject false, (reject policy d e (j.mark (.received d.message.routingKey))).2, s⟩ := by
  obtain ⟨reason, rfl⟩ := Payload.decode_eq_error h
  have hfinal : policy.shouldRequeue (.decode reason) = false := by
    cases policy <;> rfl
  unfold process
  rw [Message.event?_of_error h]
  simp only [reject, outcomeOf, hfinal]

/-- The two halves of handling a message, with the answer of the backend in between, make the whole. -/
theorem process_persist (ask : ρ → σ → Verdict × σ) :
    process router policy (Sink.persist ask) d receivedAt j s =
      match prepare router d.message receivedAt with
      | .error e =>
        let rejected := reject policy d e (j.mark (.received d.message.routingKey))
        ⟨rejected.1, rejected.2, s⟩
      | .ok p =>
        let answered := ask p.request s
        let concluded := conclude policy d p.sink answered.1.duration answered.1.result
          (j.mark (.received d.message.routingKey))
        ⟨concluded.1, concluded.2, answered.2⟩ := by
  unfold process prepare
  cases d.message.event? receivedAt with
  | error e => rfl
  | ok event =>
    simp only [Sink.persist]
    cases (router.select event.routingKey).request event <;> rfl

/-- Persisting that notes which sinks were given which events. -/
def noted (persist : Sink ρ → Event → σ → Verdict × σ) (sink : Sink ρ) (event : Event)
    (s : σ × List (Sink ρ × Event)) : Verdict × σ × List (Sink ρ × Event) :=
  let answered := persist sink event s.1
  (answered.1, answered.2, s.2 ++ [(sink, event)])

/-- Noting what sinks are given makes no difference to what comes of it. -/
theorem process_noted (noticed : List (Sink ρ × Event)) :
    let handled := process router policy (noted persist) d receivedAt j (s, noticed)
    process router policy persist d receivedAt j s = ⟨handled.outcome, handled.journal, handled.outside.1⟩ := by
  intro handled
  cases h : Payload.decode d.message.body with
  | error e =>
    have hhandled : handled = _ := process_undecodable h
    rw [hhandled, process_undecodable h]
  | ok payload =>
    have hhandled : handled = _ := process_decoded h
    rw [hhandled, process_decoded h]
    rfl

end Pipeline

/-! ## The worker -/

/-- There is nothing to answer about a delivery that has its outcome. -/
theorem Worker.answer_of_decided {β : Type} (w : Worker β ρ) (d : Delivery) (decision : Outcome × Journal)
    (result : Except SinkError Unit) (duration : Nat) :
    (w.decided d decision).answer result duration = w.decided d decision := by
  unfold Worker.decided
  dsimp only
  split <;> rfl

/-- **A worker handles a delivery as it is processed**: when it has begun to and was answered, it has come to the
outcome, and its journal says the same, as if the message had been processed at once. -/
theorem Worker.handled_as_processed {β : Type} (w : Worker β ρ) (d : Delivery)
    (hcurrent : w.connection.isCurrent d.tag = true) (result : Except SinkError Unit) (duration : Nat) :
    let handled := Pipeline.process w.router w.connection.config.rejectPolicy
      (Sink.persist fun _ (s : Unit) => (⟨result, duration⟩, s)) d w.clock w.connection.journal ()
    (w.handle d).answer result duration = w.decided d (handled.outcome, handled.journal) := by
  intro handled
  have hhandled : handled = _ := Pipeline.process_persist _
  rw [hhandled, Worker.handle, if_pos hcurrent]
  dsimp only
  cases Pipeline.prepare w.router d.message w.clock with
  | ok p => rfl
  | error e => exact Worker.answer_of_decided _ d _ result duration

/-! ## The main result -/

/-- **Each message is given to one sink, once, or cannot be decoded.** Whatever the sinks do, a message whose body is a
document in UTF-8 is given to the sink that the router selects by its routing key, as one event, and to no other sink;
a message with any other body is given to none. It is acked just if that sink says so. It goes back into its queue
just if the policy is to put transient failures back and the sink says that its backend is unavailable, and it is
rejected for good in every other case. -/
theorem given_to_one_sink (router : Router (Sink ρ)) (policy : RejectPolicy)
    (persist : Sink ρ → Event → σ → Verdict × σ) (d : Delivery) (receivedAt : Instant) (j : Journal) (s : σ) :
    let handled := Pipeline.process router policy (Pipeline.noted persist) d receivedAt j (s, [])
    let sink := router.select d.message.routingKey
    Pipeline.process router policy persist d receivedAt j s =
        ⟨handled.outcome, handled.journal, handled.outside.1⟩ ∧
      (∀ (text : String) (json : Json), d.message.body = Utf8.encode text →
        Json.Reader.read text.toList = .ok json →
        ∃ event : Event, event.entity = d.message.exchange ∧ event.routingKey = d.message.routingKey ∧
          event.receivedAt = receivedAt ∧ event.payload = .ofJson json ∧
          (∀ as bs, '.' ∉ as → d.message.routingKey.toList = as ++ '.' :: bs →
            event.eventType = String.ofList bs) ∧
          ('.' ∉ d.message.routingKey.toList → event.eventType = d.message.routingKey) ∧
          handled.outside.2 = [(sink, event)] ∧
          let result := (persist sink event s).1.result
          (handled.outcome = .ack ↔ result = .ok ()) ∧
            (handled.outcome = .reject true ↔
              policy = .requeueTransient ∧ ∃ reason, result = .error (.unavailable reason)) ∧
            (handled.outcome = .reject false ↔
              ∃ e, result = .error e ∧ (policy = .requeueTransient → ∀ reason, e ≠ .unavailable reason))) ∧
      ((∀ (text : String) (json : Json), d.message.body = Utf8.encode text →
          Json.Reader.read text.toList ≠ .ok json) →
        handled.outside = (s, []) ∧ handled.outcome = .reject false) := by
  intro handled sink
  refine ⟨Pipeline.process_noted [], ?_, ?_⟩
  · intro text json hbody hread
    have hdecode : Payload.decode d.message.body = .ok (.ofJson json) :=
      Payload.decode_eq_ok.mpr ⟨text, json, hbody, hread, rfl⟩
    have hhandled : handled = _ := Pipeline.process_decoded hdecode
    refine ⟨d.message.eventOf receivedAt (.ofJson json), rfl, rfl, rfl, rfl, ?_, ?_, ?_, ?_⟩
    · intro as bs has hkey
      exact eventTypeOf_of_dot has hkey
    · exact eventTypeOf_of_no_dot
    · rw [hhandled]
      rfl
    · rw [hhandled]
      exact ⟨Pipeline.conclude_eq_ack, Pipeline.conclude_eq_requeued, Pipeline.conclude_eq_dropped⟩
  · intro hbody
    cases hdecode : Payload.decode d.message.body with
    | ok payload =>
      obtain ⟨text, json, htext, hread, -⟩ := Payload.decode_eq_ok.mp hdecode
      exact absurd hread (hbody text json htext)
    | error e =>
      have hhandled : handled = _ := Pipeline.process_undecodable hdecode
      rw [hhandled]
      exact ⟨rfl, rfl⟩

/-- Redirects go to a sink whose backend is down; a body that is no document goes nowhere. -/
theorem given_to_one_sink_backendDown :
    let points : Sink Unit := ⟨"points", fun _ => .ok ()⟩
    let documents : Sink Unit := ⟨"documents", fun _ => .ok ()⟩
    let router := Router.forEvents points documents
    let down : Sink Unit → Event → Nat → Verdict × Nat :=
      fun sink _ calls => (⟨.error (.unavailable sink.name), 3⟩, calls + 1)
    let handle (body : List UInt8) : Handled (Nat × List (Sink Unit × Event)) :=
      Pipeline.process router .requeueTransient (Pipeline.noted down)
        ⟨⟨"link", "Link.Redirected", body⟩, ⟨1, 1⟩, false⟩ ⟨0, 0⟩ .empty (0, [])
    (∃ event : Event, event.eventType = "Redirected" ∧ (handle [123, 125]).outside.2 = [(points, event)]) ∧
      (handle [123, 125]).outcome = .reject true ∧
      (handle [255]).outside = (0, []) ∧ (handle [255]).outcome = .reject false := by
  intro points documents router down handle
  have h := given_to_one_sink router .requeueTransient down ⟨⟨"link", "Link.Redirected", [123, 125]⟩, ⟨1, 1⟩, false⟩
    ⟨0, 0⟩ .empty 0
  obtain ⟨event, -, -, -, -, htype, -, hcalls, -, hrequeued, -⟩ := h.2.1 "\x7b\x7d" (.object [])
    (by decide +kernel) (by rfl)
  have hsink : router.select "Link.Redirected" = points := by rfl
  have hinvalid := (given_to_one_sink router .requeueTransient down ⟨⟨"link", "Link.Redirected", [255]⟩, ⟨1, 1⟩, false⟩
    ⟨0, 0⟩ .empty 0).2.2
  refine ⟨⟨event, htype "Link".toList "Redirected".toList (by decide) rfl, ?_⟩, ?_, ?_⟩
  · rw [← hsink]
    exact hcalls
  · exact hrequeued.mpr ⟨rfl, _, rfl⟩
  · apply hinvalid
    intro text json hbody
    have hdecode := Utf8.decode?_encode text
    rw [← hbody] at hdecode
    cases hdecode

end EventCourier
