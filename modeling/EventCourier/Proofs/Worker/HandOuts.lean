import EventCourier.Proofs.Worker.World

/-!
# Every hand-out is used once

What was handed out is on its way, in the hands of the worker, handed to a sink, or gone: `Tracked`, kept by
everything that happens (`tracked_next`). So a tag leads to one call of a sink at most, and to one resolution at
most, made through the session that handed it out (`tags_used_once`). There are no other calls of sinks than
those recorded (`step?_withRouter`).
-/

namespace EventCourier

open Broker Connection

open scoped List

variable {ρ : Type}

/-! ## Sinks -/

/-- The delivery that the worker starts to handle. -/
def Activity.handled : Activity ρ → List Delivery
  | .handling d => [d]
  | _ => []

namespace Worker

variable {β : Type} {api : BrokerApi β} {w w' : Worker β ρ}

/-- The worker with other sinks. -/
def withRouter (w : Worker β ρ) (router : Router (Sink ρ)) : Worker β ρ := { w with router := router }

theorem handle_withRouter {d : Delivery} (ha : w.activity = .handling d) (h : w.sinkCall? = none)
    (router : Router (Sink ρ)) : (w.withRouter router).handle d = (w.handle d).withRouter router := by
  have hcurrent : (w.withRouter router).connection.isCurrent d.tag = w.connection.isCurrent d.tag := rfl
  unfold sinkCall? at h
  rw [ha] at h
  dsimp only at h
  unfold handle
  rw [hcurrent]
  cases hd : w.connection.isCurrent d.tag with
  | false => rfl
  | true =>
    cases he : d.message.event? w.clock with
    | ok event =>
      rw [hd, he] at h
      cases h
    | error e =>
      have hprepared : ∀ router : Router (Sink ρ), Pipeline.prepare router d.message w.clock = .error e := by
        intro router
        unfold Pipeline.prepare
        rw [he]
      simp only [if_true]
      rw [show Pipeline.prepare (w.withRouter router).router d.message (w.withRouter router).clock = .error e from
        hprepared router, hprepared w.router]
      simp only [decided_eq]
      rfl

theorem choose?_withRouter (api : BrokerApi β) (w : Worker β ρ) (router : Router (Sink ρ)) :
    (w.withRouter router).choose? api = (w.choose? api).map (·.withRouter router) := by
  obtain ⟨name, old, c, channel, notices, shutdown, clock, activity⟩ := w
  unfold choose? withRouter
  dsimp only
  cases shutdown with
  | true => rfl
  | false =>
    cases notices with
    | nil =>
      obtain ⟨capacity, buffer, waiting, isOpen⟩ := channel
      cases buffer <;> rfl
    | cons n rest =>
      simp only [Bool.false_eq_true, if_false, Option.map_some]
      split <;> rfl

/-- A step without an event for a sink does not depend on the sinks. -/
theorem step?_withRouter (h : w.sinkCall? = none) (router : Router (Sink ρ)) :
    (w.withRouter router).step? api = (w.step? api).map (·.withRouter router) := by
  unfold step?
  rw [show (w.withRouter router).activity = w.activity from rfl]
  split
  · rfl
  · rfl
  · rw [Option.map_map]
    rfl
  · exact choose?_withRouter api w router
  · rename_i d ha
    exact congrArg some (handle_withRouter ha h router)
  · rfl
  · show (if w.shutdown then _ else _) = Option.map _ (if w.shutdown then _ else _)
    split <;> rfl
  · rename_i d outcome _
    show some ((w.withRouter router).settle api d outcome) = some ((w.settle api d outcome).withRouter router)
    unfold settle
    rw [show (w.withRouter router).connection = w.connection from rfl]
    split <;> rfl
  · rename_i result _
    show some ((w.withRouter router).finish api result) = some ((w.finish api result).withRouter router)
    unfold finish
    rw [show (w.withRouter router).connection = w.connection from rfl]
    dsimp only
    split <;> rfl
  · rfl

/-- What is handed to a sink was handled. -/
theorem sinkCall?_handled (w : Worker β ρ) : ∃ gone, w.sinkCall?.toList ++ gone = w.activity.handled := by
  unfold sinkCall?
  split
  · rename_i d h
    rw [h]
    split
    · exact ⟨[], rfl⟩
    · exact ⟨[d], rfl⟩
  · exact ⟨_, rfl⟩

/-- A step takes a delivery from the channel, or the worker has none in hand then. -/
theorem Stepped.channel (h : Stepped api w w') :
    w'.channel.buffer = w.channel.buffer ∧ w'.activity.handled = [] ∨
      ∃ d, w.activity = .choosing ∧ w.channel.buffer = d :: w'.channel.buffer ∧ w'.activity.handled = [d] := by
  cases h with
  | took h buffer => exact Or.inr ⟨_, h, buffer, rfl⟩
  | ignored h =>
    refine Or.inl ⟨rfl, ?_⟩
    show w.activity.handled = []
    rw [h]
    rfl
  | refused h hd prepared =>
    refine Or.inl ⟨rfl, ?_⟩
    dsimp only
    unfold Activity.toward
    split <;> rfl
  | _ => exact Or.inl ⟨rfl, rfl⟩

end Worker

namespace World

variable {x : World ρ} {router : Router (Sink ρ)} {config : WorkerConfig}

/-! ## From one world to the next -/

/-- All deliveries that are not gone: on their way, in the hands of the worker, or handed to a sink. -/
def known (x : World ρ) : List Delivery := x.onTheWay ++ (x.worker.activity.handled ++ x.past.calls)

/-- From one world to the next, only the live session hands out, and nothing else becomes known. -/
inductive Proceeds (x x' : World ρ) : Prop where
  | intro (new : List Held) (gone : List Delivery) (issued : x'.broker.issued = x.broker.issued ++ new)
      (live : ∀ k ∈ new, x.broker.live = some k.tag.generation)
      (known : x'.known ++ gone ~ x.known ++ new.map Held.delivery)

/-- A step of the worker takes a delivery from the channel, hands one to a sink, or lets go of one. -/
theorem proceeds_moved {w : Worker Broker ρ} (hx : Sound router config x)
    (h : Worker.Stepped (Broker.api 0) x.worker w) :
    Proceeds x { x with
      worker := w
      past := { x.past with calls := x.past.calls ++ x.worker.sinkCall?.toList } } := by
  obtain ⟨l, -, hc⟩ := h.change
  obtain ⟨-, -, ⟨new, left, hissued, hlive, hcarried⟩⟩ := change_broker hc hx.agreed
  obtain ⟨lost, hlost⟩ := Worker.sinkCall?_handled x.worker
  refine ⟨new, left ++ lost, hissued, hlive, List.perm_iff_count.mpr fun d => ?_⟩
  have hcount := hcarried.count_eq d
  have hhandled := congrArg (List.count d) hlost
  rcases h.channel with ⟨hbuffer, hnone⟩ | ⟨d', hchoosing, hbuffer, hone⟩
  · simp only [known, onTheWay, broker, hbuffer, hnone, List.count_append, List.count_nil]
      at hcount hhandled ⊢
    omega
  · have hfree : x.worker.activity.handled = [] := by
      rw [hchoosing]
      rfl
    simp only [known, onTheWay, broker, hbuffer, hone, hfree, List.count_append, List.count_cons, List.count_nil]
      at hcount hhandled ⊢
    omega

/-- Nothing is handed out while the broker stays as it is. -/
theorem proceeds_of_same {x' : World ρ} (hbroker : x'.broker = x.broker) (hknown : x'.known = x.known) :
    Proceeds x x' :=
  ⟨[], [], by rw [hbroker, List.append_nil], fun _ hk => absurd hk List.not_mem_nil, by rw [hknown]; exact .refl _⟩

/-- **Whatever happens, only the live session hands out, and what it hands out is known or gone.** -/
theorem proceeds_next (hx : Sound router config x) (h : Happening) : Proceeds x (x.next h) := by
  have hleads := leads_next x h
  generalize x.next h = x' at hleads ⊢
  cases hleads with
  | moved h => exact proceeds_moved hx h
  | resumed =>
    rcases Worker.resume_spec x.worker with heq | ⟨r, ha, heq⟩ | ⟨d, outcome, ha, heq⟩
    · exact proceeds_of_same (by rw [heq]) (by rw [heq])
    · refine proceeds_of_same (by rw [heq]; rfl) ?_
      rw [heq]
      simp only [known, ha]
      rfl
    · refine proceeds_of_same (by rw [heq]; rfl) ?_
      rw [heq]
      simp only [known, ha]
      rfl
  | answered result duration =>
    rcases Worker.answer_spec x.worker result duration with heq | ⟨d, p, j, ha, heq⟩
    · exact proceeds_of_same (by rw [heq]; rfl) (by rw [heq]; rfl)
    · refine proceeds_of_same (by rw [heq]; rfl) ?_
      have hnone : (Activity.toward x.worker.connection.config d (Pipeline.conclude
          x.worker.connection.config.rejectPolicy d p.sink duration result x.worker.connection.journal).1 :
          Activity ρ).handled = x.worker.activity.handled := by
        rw [ha]
        unfold Activity.toward
        split <;> rfl
      rw [heq]
      simp only [known, hnone]
      rfl
  | aside h =>
    obtain ⟨new, gone, hissued, hlive, honward⟩ := h.passes hx.agreed.orderly
    refine ⟨new, gone, hissued, hlive, List.perm_iff_count.mpr fun d => ?_⟩
    have hcount := honward.count_eq d
    simp only [known, h.activity, h.calls, List.count_append] at hcount ⊢
    omega

/-- Whatever happens, nothing is resolved but what the worker is resolving, on the session that is live and holds
it. -/
theorem resolved_next (hx : Sound router config x) (h : Happening) :
    (x.next h).broker.resolutions = x.broker.resolutions ∨
      ∃ k ∈ x.broker.held, ∃ d outcome, x.worker.activity = .resolving d outcome ∧ d.tag = k.tag ∧
        x.worker.connection.session = some k.tag.generation ∧ x.broker.live = some k.tag.generation ∧
        (x.next h).broker.resolutions = x.broker.resolutions ++ [⟨k, outcome⟩] := by
  have hleads := leads_next x h
  generalize x.next h = x' at hleads ⊢
  cases hleads with
  | moved h =>
    obtain ⟨l, hl, hc⟩ := h.change
    rcases change_resolved hc hx.agreed with hres | ⟨k, hk, outcome, hlk, hsession, hlive, hres⟩
    · exact Or.inl hres
    · rcases hl with hl | ⟨d, outcome', hactivity, hl⟩
      · rw [hl] at hlk
        cases hlk
      · rw [hl] at hlk
        obtain ⟨htag, rfl⟩ := Prod.mk.inj (Option.some.inj hlk)
        exact Or.inr ⟨k, hk, d, outcome', hactivity, htag, hsession, hlive, hres⟩
  | resumed =>
    refine Or.inl ?_
    show x.worker.resume.connection.broker.resolutions = _
    rcases Worker.resume_spec x.worker with heq | ⟨r, ha, heq⟩ | ⟨d, outcome, ha, heq⟩
    · rw [heq]
      rfl
    · rw [heq]
      rfl
    · rw [heq]
      rfl
  | answered result duration =>
    refine Or.inl ?_
    show (x.worker.answer result duration).connection.broker.resolutions = _
    rcases Worker.answer_spec x.worker result duration with heq | ⟨d, p, j, ha, heq⟩
    · rw [heq]
      rfl
    · rw [heq]
      rfl
  | aside h =>
    refine Or.inl ?_
    unfold broker
    rcases h.acts with ⟨hconnection, -⟩ | ⟨a, ha, hconnection, -⟩
    · rw [hconnection]
    · rw [hconnection]
      rcases (orderly_run hx.agreed.orderly a ha.opens).2.resolved with hres | ⟨k, -, outcome, heq, -⟩
      · exact hres
      · exact absurd heq (ha.resolves _ _ _)

/-! ## Tracking -/

/-- What is known is what was handed out, but for what is gone. -/
def Tracked (x : World ρ) : Prop := ∃ gone, x.known ++ gone ~ x.broker.issued.map Held.delivery

theorem tracked_start (name : String) (router : Router (Sink ρ)) (bindings : List Binding) (config : WorkerConfig)
    (exchanges : List String) (clock : Instant) : Tracked (start name router bindings config exchanges clock) := by
  refine ⟨[], ?_⟩
  have hhandled : (start name router bindings config exchanges clock).worker.activity.handled = [] := by
    show (if bindings.isEmpty then _ else _ : Activity ρ).handled = []
    split <;> rfl
  unfold known
  rw [hhandled]
  exact .refl _

theorem tracked_next (hx : Sound router config x) (h : Happening) (ht : Tracked x) : Tracked (x.next h) := by
  obtain ⟨gone, hgone⟩ := ht
  obtain ⟨new, lost, hissued, -, hknown⟩ := proceeds_next hx h
  refine ⟨lost ++ gone, ?_⟩
  rw [hissued, List.map_append, ← List.append_assoc]
  calc (x.next h).known ++ lost ++ gone
    _ ~ x.known ++ new.map Held.delivery ++ gone := hknown.append_right _
    _ ~ x.known ++ gone ++ new.map Held.delivery := by
      rw [List.append_assoc, List.append_assoc]
      exact List.perm_append_comm.append_left _
    _ ~ x.broker.issued.map Held.delivery ++ new.map Held.delivery := hgone.append_right _

theorem tracked_after (happenings : List Happening) : ∀ {x : World ρ}, Sound router config x → Tracked x →
    Tracked (x.after happenings) := by
  induction happenings with
  | nil => exact fun _ ht => ht
  | cons h happenings ih => exact fun hx ht => ih (sound_next hx h) (tracked_next hx h ht)

/-- No delivery is handed to a sink twice. -/
theorem Tracked.calls (ht : Tracked x) (hx : Sound router config x) : (x.past.calls.map (·.tag)).Nodup := by
  obtain ⟨gone, hgone⟩ := ht
  have hall : ((x.known ++ gone).map (·.tag)).Nodup := by
    refine (hgone.map _).nodup_iff.mpr ?_
    rw [List.map_map]
    exact hx.agreed.orderly.once
  unfold known at hall
  rw [List.map_append, List.map_append, List.map_append] at hall
  exact hall.of_append_left.of_append_right.of_append_right

end World

/-- Every resolution is an ack or a reject. -/
theorem perm_acks_rejects (b : Broker) : b.acks ++ b.rejects.map (·.1) ~ b.resolutions.map (·.held.tag) := by
  unfold acks rejects
  induction b.resolutions with
  | nil => exact .refl _
  | cons r rest ih =>
    match r with
    | ⟨h, .ack⟩ => exact ih.cons _
    | ⟨h, .reject requeue⟩ => exact List.perm_middle.trans (ih.cons _)

/-- **Tags are handles of one hand-out.** In every run, no tag is handed out twice; only deliveries that were
handed out are handed to a sink, and none twice; and only what was handed out is acked or rejected, no tag twice.
Whatever happens next, only the live session hands out, and what is resolved is held under its tag by the live
session that issued it, which is the one the worker has. A tag of another session than that is not sent to the
broker at all. -/
theorem tags_used_once (name : String) (router : Router (Sink ρ)) (bindings : List Binding) (config : WorkerConfig)
    (exchanges : List String) (clock : Instant) (happenings : List Happening) :
    let x := (World.start name router bindings config exchanges clock).after happenings
    (x.broker.issued.map (·.tag)).Nodup ∧
      ((x.past.calls.map (·.tag)).Nodup ∧ ∀ d ∈ x.past.calls, ∃ k ∈ x.broker.issued, k.delivery = d) ∧
      ((x.broker.acks ++ x.broker.rejects.map (·.1)).Nodup ∧ ∀ r ∈ x.broker.resolutions, r.held ∈ x.broker.issued) ∧
      (∀ h, (∃ new, (x.next h).broker.issued = x.broker.issued ++ new ∧
          ∀ k ∈ new, x.broker.live = some k.tag.generation) ∧
        ((x.next h).broker.resolutions = x.broker.resolutions ∨
          ∃ k ∈ x.broker.held, ∃ outcome, k ∈ x.broker.issued ∧
            x.worker.connection.session = some k.tag.generation ∧ x.broker.live = some k.tag.generation ∧
            (x.next h).broker.resolutions = x.broker.resolutions ++ [⟨k, outcome⟩])) ∧
      ∀ (api : BrokerApi Broker) (t : Tag) (outcome : Outcome),
        x.worker.connection.resolve api t outcome =
          if x.worker.connection.session = some t.generation then
            ((api.resolve t.generation t.value outcome x.broker).1,
              { x.worker.connection with broker := (api.resolve t.generation t.value outcome x.broker).2 })
          else (.ok (), x.worker.connection) := by
  intro x
  have hstart := World.sound_start name router bindings config exchanges clock
  have hx : World.Sound router config x := World.sound_after happenings hstart
  have ht : World.Tracked x :=
    World.tracked_after happenings hstart (World.tracked_start name router bindings config exchanges clock)
  refine ⟨hx.agreed.orderly.once, ⟨ht.calls hx, fun d hd => ?_⟩,
    ⟨?_, fun r hr => hx.agreed.orderly.issued_of_resolved hr⟩, fun h => ⟨?_, ?_⟩, fun api t outcome => ?_⟩
  · obtain ⟨gone, hgone⟩ := ht
    have hknown : d ∈ x.known := List.mem_append_right _ (List.mem_append_right _ hd)
    exact List.mem_map.mp (hgone.mem_iff.mp (List.mem_append_left _ hknown))
  · exact (perm_acks_rejects x.broker).nodup_iff.mpr hx.agreed.orderly.resolved_tags
  · obtain ⟨new, -, hissued, hlive, -⟩ := World.proceeds_next hx h
    exact ⟨new, hissued, hlive⟩
  · rcases World.resolved_next hx h with hres | ⟨k, hk, d, outcome, -, -, hsession, hlive, hres⟩
    · exact Or.inl hres
    · exact Or.inr ⟨k, hk, outcome, hx.agreed.orderly.issued_of_held hk, hsession, hlive, hres⟩
  · exact hx.agreed.steady.resolve_eq api t outcome

/-- A message is stored and acked. A second one is on its way when the session is lost; the next session hands it out
again, before the worker has seen the first hand-out, and the sink has just stored it. -/
def handedOutAgain : List Happening :=
  List.replicate 10 .moves ++
    [.publishes ⟨"a", "k", [123, 125]⟩, .forwards 0, .moves, .moves, .answers (.ok ()) 3, .moves,
      .publishes ⟨"a", "k", [123, 125]⟩, .forwards 0, .drops "cable pulled", .hears] ++
    List.replicate 12 .moves ++ [.forwards 1, .moves, .moves, .answers (.ok ()) 3]

/-- The second message is about to be acked, as the first was. The tag of the first is that of a dead session, though
the live one has a delivery under the same number. -/
theorem tags_used_once_handedOutAgain :
    let router : Router (Sink Unit) := .only ⟨"documents", fun _ => .ok ()⟩
    ∃ x, (World.start "courier" router [⟨"a", "q", "k"⟩] (.standard "1") ["a"] ⟨0, 0⟩).after handedOutAgain = x ∧
      x.broker.issued.map (·.tag) = [⟨1, 1⟩, ⟨1, 2⟩, ⟨2, 1⟩] ∧
      (x.past.calls.map (·.tag) = [⟨1, 1⟩, ⟨2, 1⟩] ∧ ∀ d ∈ x.past.calls, ∃ k ∈ x.broker.issued, k.delivery = d) ∧
      (x.broker.acks = [⟨1, 1⟩] ∧ ∀ r ∈ x.broker.resolutions, r.held ∈ x.broker.issued) ∧
      ((x.next .moves).broker.acks = [⟨1, 1⟩, ⟨2, 1⟩] ∧ ∃ k ∈ x.broker.held, ∃ outcome,
        x.worker.connection.session = some k.tag.generation ∧
          (x.next .moves).broker.resolutions = x.broker.resolutions ++ [⟨k, outcome⟩]) ∧
      x.worker.connection.resolve (Broker.api 0) ⟨1, 1⟩ .ack = (.ok (), x.worker.connection) := by
  intro router
  have h := tags_used_once "courier" router [⟨"a", "q", "k"⟩] (.standard "1") ["a"] ⟨0, 0⟩ handedOutAgain
  obtain ⟨x, hx⟩ : ∃ x, (World.start "courier" router [⟨"a", "q", "k"⟩] (.standard "1") ["a"] ⟨0, 0⟩).after
    handedOutAgain = x := ⟨_, rfl⟩
  have hissued : x.broker.issued.map (·.tag) = [⟨1, 1⟩, ⟨1, 2⟩, ⟨2, 1⟩] := hx ▸ by decide +kernel
  have hcalled : x.past.calls.map (·.tag) = [⟨1, 1⟩, ⟨2, 1⟩] := hx ▸ by decide +kernel
  have hacked : x.broker.acks = [⟨1, 1⟩] := hx ▸ by decide +kernel
  have hlater : (x.next .moves).broker.acks = [⟨1, 1⟩, ⟨2, 1⟩] := hx ▸ by decide +kernel
  have hdead : x.worker.connection.session ≠ some 1 := hx ▸ by decide +kernel
  rw [hx] at h
  obtain ⟨-, ⟨-, hcalls⟩, ⟨-, hresolved⟩, hnext, hresolve⟩ := h
  refine ⟨x, hx, hissued, ⟨hcalled, hcalls⟩, ⟨hacked, hresolved⟩, ⟨hlater, ?_⟩,
    (hresolve (Broker.api 0) ⟨1, 1⟩ .ack).trans (if_neg hdead)⟩
  rcases (hnext .moves).2 with hsame | ⟨k, hk, outcome, -, hsession, -, hresolutions⟩
  · have hchanged : (x.next .moves).broker.resolutions ≠ x.broker.resolutions := hx ▸ by decide +kernel
    exact absurd hsame hchanged
  · exact ⟨k, hk, outcome, hsession, hresolutions⟩

end EventCourier
