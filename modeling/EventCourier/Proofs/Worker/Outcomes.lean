import EventCourier.Proofs.Worker.HandOuts

/-!
# A delivery is resolved as its sink decides

`Persisted` says that the message of a delivery was decoded, and that the backend answered the request of its
sink with success; `Failed` says which failure there was instead; `Decided` says which outcome follows. A
delivery is resolved only as decided, and a worker that has stopped leaves no delivery held: every copy that was
ever queued has been persisted and acked, has failed and been rejected for good, or is ready in its queue
(`resolved_as_decided`).
-/

namespace EventCourier

open Broker Connection

open scoped List

variable {ρ : Type} {router : Router (Sink ρ)} {config : WorkerConfig}

/-! ## What decides -/

/-- The message of a delivery was decoded, its sink made a request of it, and the backend served that. -/
inductive Persisted (router : Router (Sink ρ)) (answers : List (Answer ρ)) (d : Delivery) : Prop where
  | intro (receivedAt : Instant) (event : Event) (answer : Answer ρ)
      (decoded : d.message.event? receivedAt = .ok event)
      (asked : (router.select d.message.routingKey).request event = .ok answer.request)
      (answered : answer ∈ answers) (delivery : answer.delivery = d) (served : answer.result = .ok ())

/-- The message of a delivery cannot be decoded, its sink makes no request of it, or the backend did not serve the
request. -/
inductive Failed (router : Router (Sink ρ)) (answers : List (Answer ρ)) (d : Delivery) : WorkerError → Prop where
  | undecodable {receivedAt : Instant} {e : WorkerError} (h : d.message.event? receivedAt = .error e) :
      Failed router answers d e
  | unmapped {receivedAt : Instant} {event : Event} {e : SinkError}
      (decoded : d.message.event? receivedAt = .ok event)
      (h : (router.select d.message.routingKey).request event = .error e) : Failed router answers d (.sink e)
  | unserved {receivedAt : Instant} {event : Event} {answer : Answer ρ} {e : SinkError}
      (decoded : d.message.event? receivedAt = .ok event)
      (asked : (router.select d.message.routingKey).request event = .ok answer.request)
      (answered : answer ∈ answers) (delivery : answer.delivery = d) (h : answer.result = .error e) :
      Failed router answers d (.sink e)

/-- The outcome follows from what became of a delivery: an ack from success, a reject from a failure, and the
policy says whether it goes back. -/
def Decided (router : Router (Sink ρ)) (policy : RejectPolicy) (answers : List (Answer ρ)) (d : Delivery) :
    Outcome → Prop
  | .ack => Persisted router answers d
  | .reject requeue => ∃ e, Failed router answers d e ∧ requeue = policy.shouldRequeue e

theorem Persisted.mono {answers more : List (Answer ρ)} {d : Delivery} (h : Persisted router answers d) :
    Persisted router (answers ++ more) d := by
  obtain ⟨receivedAt, event, answer, decoded, asked, answered, delivery, served⟩ := h
  exact ⟨receivedAt, event, answer, decoded, asked, List.mem_append_left _ answered, delivery, served⟩

theorem Failed.mono {answers more : List (Answer ρ)} {d : Delivery} {e : WorkerError}
    (h : Failed router answers d e) : Failed router (answers ++ more) d e := by
  cases h with
  | undecodable h => exact .undecodable h
  | unmapped decoded h => exact .unmapped decoded h
  | unserved decoded asked answered delivery h =>
    exact .unserved decoded asked (List.mem_append_left _ answered) delivery h

/-- What was decided stays decided. -/
theorem Decided.mono {policy : RejectPolicy} {answers more : List (Answer ρ)} {d : Delivery} {outcome : Outcome}
    (h : Decided router policy answers d outcome) : Decided router policy (answers ++ more) d outcome := by
  cases outcome with
  | ack => exact Persisted.mono h
  | reject requeue =>
    obtain ⟨e, hfailed, hrequeue⟩ := h
    exact ⟨e, hfailed.mono, hrequeue⟩

/-! ## The pipeline -/

/-- An event keeps the routing key of its message. -/
theorem event?_routingKey {m : Message} {receivedAt : Instant} {event : Event}
    (h : m.event? receivedAt = .ok event) : event.routingKey = m.routingKey := by
  unfold Message.event? at h
  split at h <;> cases h
  rfl

/-- What a delivery is prepared to is the request that the sink of its routing key makes of its event. -/
theorem prepare_ok {m : Message} {receivedAt : Instant} {p : Prepared ρ}
    (h : Pipeline.prepare router m receivedAt = .ok p) :
    ∃ event, m.event? receivedAt = .ok event ∧
      (router.select m.routingKey).request event = .ok p.request := by
  unfold Pipeline.prepare at h
  split at h
  · cases h
  · rename_i event hevent
    dsimp only at h
    split at h <;> cases h
    rename_i request hrequest
    rw [event?_routingKey hevent] at hrequest
    exact ⟨event, hevent, hrequest⟩

/-- A delivery that cannot be prepared has failed. -/
theorem prepare_error {d : Delivery} {receivedAt : Instant} {e : WorkerError}
    (h : Pipeline.prepare router d.message receivedAt = .error e) (answers : List (Answer ρ)) :
    Failed router answers d e := by
  unfold Pipeline.prepare at h
  split at h
  · rename_i e' hevent
    cases h
    exact .undecodable hevent
  · rename_i event hevent
    dsimp only at h
    split at h <;> cases h
    rename_i e' hrequest
    rw [event?_routingKey hevent] at hrequest
    exact .unmapped hevent hrequest

/-- The answer of a backend decides the delivery it was asked for. -/
theorem conclude_decided {policy : RejectPolicy} {answers : List (Answer ρ)} {d : Delivery} {p : Prepared ρ}
    {receivedAt : Instant} {event : Event} (decoded : d.message.event? receivedAt = .ok event)
    (asked : (router.select d.message.routingKey).request event = .ok p.request)
    {result : Except SinkError Unit} (answered : ⟨d, p.request, result⟩ ∈ answers) (duration : Nat) (j : Journal) :
    Decided router policy answers d (Pipeline.conclude policy d p.sink duration result j).1 := by
  cases result with
  | ok _ => exact ⟨receivedAt, event, _, decoded, asked, answered, rfl, rfl⟩
  | error e => exact ⟨.sink e, .unserved decoded asked answered rfl rfl, rfl⟩

/-! ## What the worker is about -/

/-- The delivery that the worker has in hand. -/
def Activity.delivery? : Activity ρ → Option Delivery
  | .handling d | .persisting d _ | .holding d _ | .resolving d _ => some d
  | .connecting _ | .choosing | .closing _ | .stopped _ => none

/-- What the worker does with a delivery follows from what became of it so far. -/
def Activity.Follows (router : Router (Sink ρ)) (policy : RejectPolicy) (answers : List (Answer ρ)) :
    Activity ρ → Prop
  | .persisting d p => ∃ receivedAt event, d.message.event? receivedAt = .ok event ∧
      (router.select d.message.routingKey).request event = .ok p.request
  | .holding d outcome | .resolving d outcome => Decided router policy answers d outcome
  | .handling _ | .connecting _ | .choosing | .closing _ | .stopped _ => True

theorem follows_toward {policy : RejectPolicy} {answers : List (Answer ρ)} {d : Delivery} {outcome : Outcome}
    (h : Decided router policy answers d outcome) :
    (Activity.toward config d outcome : Activity ρ).Follows router policy answers := by
  unfold Activity.toward
  split <;> exact h

theorem delivery?_toward (config : WorkerConfig) (d : Delivery) (outcome : Outcome) :
    (Activity.toward config d outcome : Activity ρ).delivery? = some d := by
  unfold Activity.toward
  split <;> rfl

theorem Activity.Follows.mono {policy : RejectPolicy} {answers more : List (Answer ρ)} {a : Activity ρ}
    (h : a.Follows router policy answers) : a.Follows router policy (answers ++ more) := by
  cases a with
  | persisting d p => exact h
  | holding d outcome => exact Decided.mono h
  | resolving d outcome => exact Decided.mono h
  | _ => exact trivial

namespace Worker

variable {β : Type} {api : BrokerApi β} {w w' : Worker β ρ}

/-- A step leaves the worker with the delivery it has in hand, or takes one from the channel. -/
theorem Stepped.delivery? (h : Stepped api w w') {d : Delivery} (hd : w'.activity.delivery? = some d) :
    w.activity.delivery? = some d ∨ d ∈ w.channel.buffer := by
  cases h with
  | took h buffer =>
    cases hd
    rw [buffer]
    exact Or.inr List.mem_cons_self
  | asked h | hurried h =>
    rw [h]
    exact Or.inl hd
  | refused h =>
    rw [delivery?_toward] at hd
    rw [h]
    exact Or.inl hd
  | ignored h =>
    rw [h] at hd
    cases hd
  | _ => cases hd

/-- What a step makes of the delivery in hand follows from what became of it. -/
theorem Stepped.follows (h : Stepped api w w') {answers : List (Answer ρ)}
    (hw : w.activity.Follows w.router w.connection.config.rejectPolicy answers) :
    w'.activity.Follows w.router w.connection.config.rejectPolicy answers := by
  cases h with
  | asked h hd prepared =>
    obtain ⟨event, decoded, asked⟩ := prepare_ok prepared
    exact ⟨_, event, decoded, asked⟩
  | refused h hd prepared => exact follows_toward ⟨_, prepare_error prepared answers, rfl⟩
  | hurried h =>
    rw [h] at hw
    exact hw
  | ignored h =>
    show w.activity.Follows _ _ _
    exact hw
  | _ => exact trivial

end Worker

namespace World

variable {x : World ρ}

/-- The delivery in hand was handed out, what is done with it follows from what became of it, and so does every
resolution. -/
structure Justified (router : Router (Sink ρ)) (config : WorkerConfig) (x : World ρ) : Prop where
  issued : ∀ d, x.worker.activity.delivery? = some d → ∃ k ∈ x.broker.issued, k.delivery = d
  follows : x.worker.activity.Follows router config.rejectPolicy x.past.answers
  resolved : ∀ r ∈ x.broker.resolutions,
    Decided router config.rejectPolicy x.past.answers r.held.delivery r.outcome

theorem justified_start (name : String) (router : Router (Sink ρ)) (bindings : List Binding)
    (config : WorkerConfig) (exchanges : List String) (clock : Instant) :
    Justified router config (start name router bindings config exchanges clock) := by
  have hactivity : (start name router bindings config exchanges clock).worker.activity.delivery? = none ∧
      (start name router bindings config exchanges clock).worker.activity.Follows router
        config.rejectPolicy [] := by
    show (if bindings.isEmpty then _ else _ : Activity ρ).delivery? = none ∧
      (if bindings.isEmpty then _ else _ : Activity ρ).Follows router config.rejectPolicy []
    split <;> exact ⟨rfl, trivial⟩
  refine ⟨fun d hd => ?_, hactivity.2, fun _ hr => absurd hr List.not_mem_nil⟩
  rw [hactivity.1] at hd
  cases hd

/-- Answers are never taken back. -/
theorem answers_next (x : World ρ) (h : Happening) :
    ∃ more, (x.next h).past.answers = x.past.answers ++ more := by
  have hleads := leads_next x h
  generalize x.next h = x' at hleads ⊢
  cases hleads with
  | moved h | resumed => exact ⟨[], (List.append_nil _).symm⟩
  | answered result duration => exact ⟨_, rfl⟩
  | aside h => exact ⟨[], h.answers.trans (List.append_nil _).symm⟩

/-- The delivery in hand is one that was handed out. -/
theorem delivery?_next (hx : Sound router config x) (ht : Tracked x) (hj : Justified router config x)
    (h : Happening) {d : Delivery} (hd : (x.next h).worker.activity.delivery? = some d) :
    ∃ k ∈ (x.next h).broker.issued, k.delivery = d := by
  have hbefore : x.worker.activity.delivery? = some d ∨ d ∈ x.worker.channel.buffer := by
    have hleads := leads_next x h
    generalize x.next h = x' at hleads hd
    cases hleads with
    | moved h => exact h.delivery? hd
    | resumed =>
      dsimp only at hd
      rcases Worker.resume_spec x.worker with heq | ⟨r, ha, heq⟩ | ⟨d', outcome, ha, heq⟩
      · exact Or.inl (heq ▸ hd)
      · rw [heq] at hd
        cases hd
      · rw [heq] at hd
        rw [ha]
        exact Or.inl hd
    | answered result duration =>
      dsimp only at hd
      rcases Worker.answer_spec x.worker result duration with heq | ⟨d', p, j, ha, heq⟩
      · exact Or.inl (heq ▸ hd)
      · rw [heq, delivery?_toward] at hd
        rw [ha]
        exact Or.inl hd
    | aside h => exact Or.inl (h.activity ▸ hd)
  have hissued : ∃ k ∈ x.broker.issued, k.delivery = d := by
    rcases hbefore with hd | hd
    · exact hj.issued d hd
    · obtain ⟨gone, hgone⟩ := ht
      have hknown : d ∈ x.known := List.mem_append_left _ (List.mem_append_right _ hd)
      exact List.mem_map.mp (hgone.mem_iff.mp (List.mem_append_left _ hknown))
  obtain ⟨k, hk, hdelivery⟩ := hissued
  obtain ⟨new, -, hnew, -, -⟩ := proceeds_next hx h
  exact ⟨k, hnew ▸ List.mem_append_left _ hk, hdelivery⟩

/-- What is done with the delivery in hand follows from what became of it. -/
theorem follows_next (hx : Sound router config x) (hj : Justified router config x) (h : Happening) :
    (x.next h).worker.activity.Follows router config.rejectPolicy (x.next h).past.answers := by
  have hfollows := hj.follows
  have hleads := leads_next x h
  generalize x.next h = x' at hleads ⊢
  cases hleads with
  | moved h =>
    rw [← hx.router, ← hx.config] at hfollows ⊢
    exact h.follows hfollows
  | resumed =>
    dsimp only
    rcases Worker.resume_spec x.worker with heq | ⟨r, ha, heq⟩ | ⟨d, outcome, ha, heq⟩
    · rw [heq]
      exact hfollows
    · rw [heq]
      exact trivial
    · rw [heq]
      rw [ha] at hfollows
      exact hfollows
  | answered result duration =>
    dsimp only
    rcases Worker.answer_spec x.worker result duration with heq | ⟨d, p, j, ha, heq⟩
    · rw [heq]
      exact hfollows.mono
    · rw [ha] at hfollows
      obtain ⟨receivedAt, event, decoded, asked⟩ := hfollows
      have hanswered : (⟨d, p.request, result⟩ : Answer ρ) ∈
          x.past.answers ++ (x.worker.answered? result).toList := by
        refine List.mem_append_right _ ?_
        unfold Worker.answered?
        rw [ha]
        exact List.mem_singleton_self _
      rw [heq, hx.config]
      exact follows_toward (conclude_decided decoded asked hanswered duration _)
  | aside h =>
    rw [h.activity, h.answers]
    exact hfollows

/-- **Whatever happens, deliveries are resolved as decided.** -/
theorem justified_next (hx : Sound router config x) (ht : Tracked x) (hj : Justified router config x)
    (h : Happening) : Justified router config (x.next h) := by
  refine ⟨fun d hd => delivery?_next hx ht hj h hd, follows_next hx hj h, fun r hr => ?_⟩
  obtain ⟨more, hmore⟩ := answers_next x h
  rw [hmore]
  rcases resolved_next hx h with hres | ⟨k, hk, d, outcome, hactivity, htag, -, -, hres⟩
  · rw [hres] at hr
    exact (hj.resolved r hr).mono
  · rw [hres] at hr
    rcases List.mem_append.mp hr with hr | hr
    · exact (hj.resolved r hr).mono
    · -- the delivery in hand and the one that is held have a tag in common, so they are the same
      rw [List.mem_singleton.mp hr]
      obtain ⟨k', hk', rfl⟩ := hj.issued d (by rw [hactivity]; rfl)
      have heq : k' = k := hx.agreed.orderly.held_eq hk' (hx.agreed.orderly.issued_of_held hk) htag
      have hdecided := hj.follows
      rw [hactivity, heq] at hdecided
      exact Decided.mono hdecided

theorem justified_after (happenings : List Happening) : ∀ {x : World ρ}, Sound router config x → Tracked x →
    Justified router config x → Justified router config (x.after happenings) := by
  induction happenings with
  | nil => exact fun _ _ hj => hj
  | cons h happenings ih =>
    exact fun hx ht hj => ih (sound_next hx h) (tracked_next hx h ht) (justified_next hx ht hj h)

end World

/-! ## Where copies come to rest -/

theorem mem_acks {b : Broker} {t : Tag} (h : t ∈ b.acks) :
    ∃ r ∈ b.resolutions, r.outcome = .ack ∧ r.held.tag = t := by
  obtain ⟨r, hr, hsome⟩ := List.mem_filterMap.mp h
  refine ⟨r, hr, ?_⟩
  split at hsome <;> cases hsome
  exact ⟨‹_›, rfl⟩

theorem mem_rejects {b : Broker} {t : Tag} {requeue : Bool} (h : (t, requeue) ∈ b.rejects) :
    ∃ r ∈ b.resolutions, r.outcome = .reject requeue ∧ r.held.tag = t := by
  obtain ⟨r, hr, hsome⟩ := List.mem_filterMap.mp h
  refine ⟨r, hr, ?_⟩
  split at hsome <;> cases hsome
  exact ⟨‹_›, rfl⟩

/-- Where a copy may come to rest: ready in its queue, acked after it was persisted, or rejected for good after a
failure that the policy does not put back. -/
inductive AtRest (router : Router (Sink ρ)) (policy : RejectPolicy) (answers : List (Answer ρ)) (b : Broker)
    (e : Entry) : Place → Prop where
  | ready : AtRest router policy answers b e .ready
  | acked {r : Resolution} (hr : r ∈ b.resolutions) (entry : r.held.entry = e) (outcome : r.outcome = .ack)
      (h : Persisted router answers r.held.delivery) : AtRest router policy answers b e (.acked r.held.tag)
  | rejected {r : Resolution} {failure : WorkerError} (hr : r ∈ b.resolutions) (entry : r.held.entry = e)
      (outcome : r.outcome = .reject false) (h : Failed router answers r.held.delivery failure)
      (final : policy.shouldRequeue failure = false) : AtRest router policy answers b e (.rejected r.held.tag)

/-- When nothing is held, and deliveries were resolved as decided, copies are at rest. -/
theorem atRest_of_mem {policy : RejectPolicy} {answers : List (Answer ρ)} {b : Broker} (hheld : b.held = [])
    (hresolved : ∀ r ∈ b.resolutions, Decided router policy answers r.held.delivery r.outcome) {e : Entry}
    {p : Place} (h : (e, p) ∈ b.whereabouts) : AtRest router policy answers b e p := by
  unfold whereabouts at h
  rw [hheld, List.map_nil, List.append_nil] at h
  rcases List.mem_append.mp h with h | h
  · obtain ⟨queue, -, hcopy⟩ := List.mem_flatMap.mp h
    obtain ⟨copy, -, heq⟩ := List.mem_map.mp hcopy
    cases heq
    exact .ready
  · obtain ⟨r, hr, hfinal⟩ := List.mem_filterMap.mp h
    have hdecided := hresolved r hr
    obtain ⟨held, outcome⟩ := r
    cases outcome with
    | ack =>
      cases hfinal
      exact .acked hr rfl rfl hdecided
    | reject requeue =>
      cases requeue with
      | true => cases hfinal
      | false =>
        cases hfinal
        obtain ⟨failure, hfailed, hrequeue⟩ := hdecided
        exact .rejected hr rfl rfl hfailed hrequeue.symm

/-- **Deliveries are resolved as decided, and none is left.** In every run, a tag is acked only if the message that
was held under it was persisted, and rejected only if it failed, with the flag that the policy gives. When the
worker has stopped nothing is held, and every copy that was ever put on a queue is in one place, at rest. -/
theorem resolved_as_decided (name : String) (router : Router (Sink ρ)) (bindings : List Binding)
    (config : WorkerConfig) (exchanges : List String) (clock : Instant) (happenings : List Happening) :
    let x := (World.start name router bindings config exchanges clock).after happenings
    (∀ t ∈ x.broker.acks, ∃ r ∈ x.broker.resolutions, r.held.tag = t ∧
        Persisted router x.past.answers r.held.delivery) ∧
      (∀ t requeue, (t, requeue) ∈ x.broker.rejects → ∃ r ∈ x.broker.resolutions, r.held.tag = t ∧
        ∃ failure, Failed router x.past.answers r.held.delivery failure ∧
          requeue = config.rejectPolicy.shouldRequeue failure) ∧
      ∀ result, x.worker.result? = some result →
        x.broker.held = [] ∧ ∀ i q m, x.past.routed[i]? = some (q, m) →
          ∃ p, (x.broker.whereabouts.filter fun y => y.1.serial = i) = [(⟨i, q, m⟩, p)] ∧
            AtRest router config.rejectPolicy x.past.answers x.broker ⟨i, q, m⟩ p := by
  intro x
  have hstart := World.sound_start name router bindings config exchanges clock
  have htracked := World.tracked_start name router bindings config exchanges clock
  have hx : World.Sound router config x := World.sound_after happenings hstart
  have hj : World.Justified router config x := World.justified_after happenings hstart htracked
    (World.justified_start name router bindings config exchanges clock)
  refine ⟨fun t ht => ?_, fun t requeue ht => ?_, fun result hresult => ?_⟩
  · obtain ⟨r, hr, houtcome, htag⟩ := mem_acks ht
    have hdecided := hj.resolved r hr
    rw [houtcome] at hdecided
    exact ⟨r, hr, htag, hdecided⟩
  · obtain ⟨r, hr, houtcome, htag⟩ := mem_rejects ht
    have hdecided := hj.resolved r hr
    rw [houtcome] at hdecided
    exact ⟨r, hr, htag, hdecided⟩
  · have hheld : x.broker.held = [] := by
      unfold Worker.result? at hresult
      split at hresult
      · rename_i result' ha
        refine hx.agreed.held_eq_nil ?_
        rw [ha, inHand_of_not_halfway rfl]
        exact hx.stopped result' ha
      · cases hresult
    refine ⟨hheld, fun i q m hi => ?_⟩
    obtain ⟨p, hp⟩ := hx.agreed.coherent.one_place hi
    refine ⟨p, hp, atRest_of_mem hheld hj.resolved ?_⟩
    have hmem : (⟨i, q, m⟩, p) ∈ x.broker.whereabouts.filter fun y => y.1.serial = i := by
      rw [show x.broker.whereabouts.filter _ = _ from hp]
      exact List.mem_singleton_self _
    exact (List.mem_filter.mp hmem).1

/-- A worker stores one message, fails to decode the next, and is told to stop when its session is lost with a
third on the way. -/
def threeMessages : List Happening :=
  List.replicate 10 .moves ++
    [.publishes ⟨"a", "k", [123, 125]⟩, .forwards 0, .moves, .moves, .answers (.ok ()) 3, .moves,
      .publishes ⟨"a", "k", [255]⟩, .forwards 0, .moves, .moves, .moves,
      .publishes ⟨"a", "k", [123, 125]⟩, .forwards 0, .drops "cable pulled", .setsShutdown true, .moves, .moves]

theorem resolved_as_decided_threeMessages :
    let router : Router (Sink Unit) := .only ⟨"documents", fun _ => .ok ()⟩
    let config : WorkerConfig := .standard "1"
    let x := (World.start "courier" router [⟨"a", "q", "k"⟩] config ["a"] ⟨0, 0⟩).after threeMessages
    (x.broker.acks = [⟨1, 1⟩] ∧
      ∃ r ∈ x.broker.resolutions, r.held.tag = ⟨1, 1⟩ ∧ Persisted router x.past.answers r.held.delivery) ∧
    (x.broker.rejects = [(⟨1, 2⟩, false)] ∧
      ∃ r ∈ x.broker.resolutions, r.held.tag = ⟨1, 2⟩ ∧
        ∃ failure, Failed router x.past.answers r.held.delivery failure ∧
          false = config.rejectPolicy.shouldRequeue failure) ∧
    x.worker.result? = some (.ok ()) ∧ x.broker.held = [] ∧
    ∃ p, (x.broker.whereabouts.filter fun y => y.1.serial = 2) = [(⟨2, "q", ⟨"a", "k", [123, 125]⟩⟩, p)] ∧
      AtRest router config.rejectPolicy x.past.answers x.broker ⟨2, "q", ⟨"a", "k", [123, 125]⟩⟩ p := by
  have h := resolved_as_decided "courier" (.only ⟨"documents", fun _ => .ok ()⟩ : Router (Sink Unit))
    [⟨"a", "q", "k"⟩] (.standard "1") ["a"] ⟨0, 0⟩ threeMessages
  obtain ⟨hacks, hrejects, hstopped⟩ := h
  obtain ⟨hheld, hrest⟩ := hstopped (.ok ()) (by rfl)
  exact ⟨⟨by decide, hacks ⟨1, 1⟩ (by decide)⟩, ⟨by decide, hrejects ⟨1, 2⟩ false (by decide)⟩, by rfl, hheld,
    hrest 2 "q" ⟨"a", "k", [123, 125]⟩ (by decide)⟩

end EventCourier
