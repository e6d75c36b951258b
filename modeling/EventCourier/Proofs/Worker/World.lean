import EventCourier.Proofs.Worker.Agreement
import EventCourier.Proofs.Worker.Step

/-!
# The worker on the in-memory broker

`World` is a worker that is the only client of the in-memory broker, with the notices on their way to it and
what has happened so far. `Happening` lists everything that can happen next: the worker moves, a backend
answers, someone publishes, the connection is lost, a forwarder passes a delivery on, and so on, in any order.
`World.after` is the world after any of that. At every moment connection and broker agree, and a worker that has
stopped has no session (`sound_after`).
-/

namespace EventCourier

open Broker Connection

open scoped List

variable {ρ : Type}

/-- What a backend answered to the request of a sink for a delivery. -/
structure Answer (ρ : Type) where
  delivery : Delivery
  request : ρ
  result : Except SinkError Unit

/-- What has happened so far: the copies that were put on queues, the deliveries whose events were handed to a
sink, and the answers of backends. -/
structure Past (ρ : Type) where
  routed : List (String × Message)
  calls : List Delivery
  answers : List (Answer ρ)

/-- A worker, the broker it is the only client of, and the notices that have not reached it. -/
structure World (ρ : Type) where
  worker : Worker Broker ρ
  underway : List Notice
  past : Past ρ

/-- Something that happens: the worker makes a step, ends a pause or gets an answer; someone publishes, drops the
connection or refuses sessions; a notice arrives; a forwarder moves, or is granted room; the shutdown flag is set
or the clock goes on; or the receiver of a worker that has stopped is gone. -/
inductive Happening where
  | moves
  | resumes
  | answers (result : Except SinkError Unit) (duration : Nat)
  | publishes (m : Message)
  | drops (reason : String)
  | hears
  | refusesNext (count : Nat)
  | refusesAll
  | forwards (id : Nat)
  | grants
  | setsShutdown (value : Bool)
  | ticks (clock : Instant)
  | leaves

namespace Worker

/-- The delivery whose event the worker hands to a sink when it moves: the one it handles, if that is current and
can be decoded. -/
def sinkCall? {β : Type} (w : Worker β ρ) : Option Delivery :=
  match w.activity with
  | .handling d =>
    match w.connection.isCurrent d.tag, d.message.event? w.clock with
    | true, .ok _ => some d
    | _, _ => none
  | _ => none

/-- The answer of a backend, if the worker waits for one. -/
def answered? {β : Type} (w : Worker β ρ) (result : Except SinkError Unit) : Option (Answer ρ) :=
  match w.activity with
  | .persisting d p => some ⟨d, p.request, result⟩
  | _ => none

end Worker

namespace World

variable {x : World ρ}

/-- A worker that is about to run on a broker with some exchanges. -/
def start (name : String) (router : Router (Sink ρ)) (bindings : List Binding) (config : WorkerConfig)
    (exchanges : List String) (clock : Instant) : World ρ where
  worker := .start name router bindings config (.withExchanges exchanges) clock
  underway := []
  past := ⟨[], [], []⟩

/-- The broker. -/
def broker (x : World ρ) : Broker := x.worker.connection.broker

/-- Something is done to the broker. -/
def act (x : World ρ) (a : Act) : World ρ :=
  { x with
    worker := { x.worker with connection := { x.worker.connection with broker := a.run x.broker } }
    past := { x.past with routed := x.past.routed ++ a.routes x.broker } }

/-- The world with another state of the channel. -/
def withChannel (x : World ρ) (ch : Channel) : World ρ := { x with worker := { x.worker with channel := ch } }

/-- What happens next. -/
def next (x : World ρ) : Happening → World ρ
  | .moves =>
    match x.worker.step? (Broker.api 0) with
    | some w => { x with worker := w, past := { x.past with calls := x.past.calls ++ x.worker.sinkCall?.toList } }
    | none => x
  | .resumes => { x with worker := x.worker.resume }
  | .answers result duration =>
    { x with
      worker := x.worker.answer result duration
      past := { x.past with answers := x.past.answers ++ (x.worker.answered? result).toList } }
  | .publishes m => x.act (.publish m)
  | .drops reason =>
    { x.act (.drop reason) with underway := x.underway ++ ((x.broker.drop reason).1.map (·.2)).toList }
  | .hears =>
    match x.underway with
    | n :: rest => { x with underway := rest, worker := { x.worker with notices := x.worker.notices ++ [n] } }
    | [] => x
  | .refusesNext count => x.act (.refuseNext count)
  | .refusesAll => x.act .refuseAll
  | .forwards id =>
    match x.broker.forward? x.worker.channel id with
    | some (_, ch) => (x.act (.forward x.worker.channel id)).withChannel ch
    | none => x
  | .grants => (x.act (.grant 0 x.worker.channel)).withChannel (x.broker.grant 0 x.worker.channel).2.2
  | .setsShutdown value => { x with worker := { x.worker with shutdown := value } }
  | .ticks clock => { x with worker := { x.worker with clock := clock } }
  | .leaves => if x.worker.result?.isSome then x.withChannel { x.worker.channel.shut with waiting := [] } else x

/-- The world after some happenings. -/
def after (x : World ρ) (happenings : List Happening) : World ρ := happenings.foldl next x

/-! ## What can happen -/

/-- What is on its way to the worker: what consumers carry, and what is in the channel. -/
def onTheWay (x : World ρ) : List Delivery := x.broker.carried ++ x.worker.channel.buffer

/-- From one world to the next, only the live session hands out deliveries, and they are on their way unless they
are gone. -/
inductive Passes (x x' : World ρ) : Prop where
  | intro (new : List Held) (gone : List Delivery) (issued : x'.broker.issued = x.broker.issued ++ new)
      (live : ∀ k ∈ new, x.broker.live = some k.tag.generation)
      (onward : x'.onTheWay ++ gone ~ x.onTheWay ++ new.map Held.delivery)

/-- An act of others than the worker: it opens no session and sets none up, and resolves nothing. -/
structure Foreign (a : Act) : Prop where
  opens : ∀ receiver g notify, a ≠ .openSession receiver g notify
  limits : ∀ g count, a ≠ .setPrefetch g count
  subscribes : ∀ receiver g queue consumerTag, a ≠ .consume receiver g queue consumerTag
  resolves : ∀ g v outcome, a ≠ .resolve g v outcome

theorem foreign_of_byOthers {a : Act} (h : a.byOthers = true) : Foreign a := by
  constructor
  · rintro receiver g notify rfl
    cases h
  · rintro g count rfl
    cases h
  · rintro receiver g queue consumerTag rfl
    cases h
  · rintro g v outcome rfl
    cases h

/-- A world differs from another only by what others than the worker do: at most one act on the broker, and what
they make of channel, notices, flag and clock. -/
structure Aside (x x' : World ρ) : Prop where
  activity : x'.worker.activity = x.worker.activity
  router : x'.worker.router = x.worker.router
  calls : x'.past.calls = x.past.calls
  answers : x'.past.answers = x.past.answers
  acts : x'.worker.connection = x.worker.connection ∧ x'.past.routed = x.past.routed ∨
    ∃ a, Foreign a ∧ x'.worker.connection = { x.worker.connection with broker := a.run x.broker } ∧
      x'.past.routed = x.past.routed ++ a.routes x.broker
  passes : Orderly x.broker → Passes x x'

/-- What a happening leads to. -/
inductive Leads (x : World ρ) : World ρ → Prop where
  | moved {w : Worker Broker ρ} (h : Worker.Stepped (Broker.api 0) x.worker w) :
      Leads x { x with
        worker := w
        past := { x.past with calls := x.past.calls ++ x.worker.sinkCall?.toList } }
  | resumed : Leads x { x with worker := x.worker.resume }
  | answered (result : Except SinkError Unit) (duration : Nat) :
      Leads x { x with
        worker := x.worker.answer result duration
        past := { x.past with answers := x.past.answers ++ (x.worker.answered? result).toList } }
  | aside {x' : World ρ} (h : Aside x x') : Leads x x'

/-- What is handed out is on its way, and less of what was in the channel may be. -/
theorem passes_of_handedOut {x x' : World ρ} (h : HandedOut x.broker x'.broker)
    (hbuffer : ∃ lost, x'.worker.channel.buffer ++ lost ~ x.worker.channel.buffer) : Passes x x' := by
  obtain ⟨new, gone, hissued, hlive, hcarried⟩ := h
  obtain ⟨lost, hlost⟩ := hbuffer
  refine ⟨new, gone ++ lost, hissued, hlive, List.perm_iff_count.mpr fun d => ?_⟩
  have hcount := hcarried.count_eq d
  have hkept := hlost.count_eq d
  simp only [onTheWay, List.count_append] at hcount hkept ⊢
  omega

theorem passes_refl (x : World ρ) : Passes x x :=
  passes_of_handedOut (handedOut_refl _) ⟨[], by simp⟩

theorem aside_refl (x : World ρ) : Aside x x :=
  ⟨rfl, rfl, rfl, rfl, Or.inl ⟨rfl, rfl⟩, fun _ => passes_refl x⟩

/-- An act of others, with whatever becomes of channel and notices. -/
theorem aside_act {x x' : World ρ} {a : Act} (ha : Foreign a) (hpast : x'.past = (x.act a).past)
    (hworker : x'.worker = { (x.act a).worker with
      channel := x'.worker.channel
      notices := x'.worker.notices })
    (hbuffer : ∃ lost, x'.worker.channel.buffer ++ lost ~ x.worker.channel.buffer) : Aside x x' := by
  have hconnection : x'.worker.connection = { x.worker.connection with broker := a.run x.broker } := by
    rw [hworker]
    rfl
  refine ⟨by rw [hworker]; rfl, by rw [hworker]; rfl, by rw [hpast]; rfl, by rw [hpast]; rfl,
    Or.inr ⟨a, ha, hconnection, by rw [hpast]; rfl⟩, fun hb => passes_of_handedOut ?_ hbuffer⟩
  have hbroker : x'.broker = a.run x.broker := by
    show x'.worker.connection.broker = _
    rw [hconnection]
  rw [hbroker]
  exact (orderly_run hb a ha.opens).2.handedOut

/-- A forwarder takes a delivery from its consumer to the channel. -/
theorem aside_forward {id : Nat} {b : Broker} {ch : Channel}
    (h : x.broker.forward? x.worker.channel id = some (b, ch)) :
    Aside x ((x.act (.forward x.worker.channel id)).withChannel ch) := by
  refine ⟨rfl, rfl, rfl, rfl,
    Or.inr ⟨.forward x.worker.channel id, foreign_of_byOthers rfl, rfl, rfl⟩, fun hb => ?_⟩
  obtain ⟨moved, gone, hbuffer, hperm⟩ := forward?_carried hb.ids h
  have hbroker : ((x.act (.forward x.worker.channel id)).withChannel ch).broker = b := Act.run_forward h
  have hissued : b.issued = x.broker.issued := by
    rw [(forward?_frame h).1]
  refine ⟨[], gone, ?_, fun _ hk => absurd hk List.not_mem_nil, List.perm_iff_count.mpr fun d => ?_⟩
  · rw [hbroker, hissued, List.append_nil]
  · have hway : ((x.act (.forward x.worker.channel id)).withChannel ch).onTheWay = b.carried ++ ch.buffer := by
      unfold onTheWay
      rw [hbroker]
      rfl
    have hcount := hperm.count_eq d
    rw [hway, hbuffer]
    simp only [onTheWay, List.count_append, List.map_nil, List.count_nil] at hcount ⊢
    omega

/-- **Nothing else can happen.** -/
theorem leads_next (x : World ρ) (h : Happening) : Leads x (x.next h) := by
  cases h with
  | moves =>
    show Leads x (match x.worker.step? (Broker.api 0) with
      | some w => _
      | none => x)
    cases hw : x.worker.step? (Broker.api 0) with
    | none => exact .aside (aside_refl x)
    | some w => exact .moved (Worker.stepped_of_step? hw)
  | resumes => exact .resumed
  | answers result duration => exact .answered result duration
  | publishes m =>
    exact .aside (aside_act (a := .publish m) (foreign_of_byOthers rfl) rfl rfl ⟨[], by simp [next, act]⟩)
  | drops reason =>
    exact .aside (aside_act (a := .drop reason) (foreign_of_byOthers rfl) rfl rfl ⟨[], by simp [next, act]⟩)
  | hears =>
    show Leads x (match x.underway with
      | n :: rest => _
      | [] => x)
    cases x.underway with
    | nil => exact .aside (aside_refl x)
    | cons n rest =>
      exact .aside ⟨rfl, rfl, rfl, rfl, Or.inl ⟨rfl, rfl⟩,
        fun _ => passes_of_handedOut (handedOut_refl _) ⟨[], by simp⟩⟩
  | refusesNext count =>
    exact .aside (aside_act (a := .refuseNext count) (foreign_of_byOthers rfl) rfl rfl
      ⟨[], by simp [next, act]⟩)
  | refusesAll =>
    exact .aside (aside_act (a := .refuseAll) (foreign_of_byOthers rfl) rfl rfl ⟨[], by simp [next, act]⟩)
  | forwards id =>
    show Leads x (match x.broker.forward? x.worker.channel id with
      | some (_, ch) => _
      | none => x)
    cases hf : x.broker.forward? x.worker.channel id with
    | none => exact .aside (aside_refl x)
    | some r => exact .aside (aside_forward hf)
  | grants =>
    have hbuffer := congrArg Channel.buffer
      (grantTo_spec 0 x.worker.channel.waiting x.broker x.worker.channel).2.2.1
    refine .aside (aside_act (a := .grant 0 x.worker.channel) (foreign_of_byOthers rfl) rfl rfl ⟨[], ?_⟩)
    rw [List.append_nil]
    exact .of_eq hbuffer
  | setsShutdown value =>
    exact .aside ⟨rfl, rfl, rfl, rfl, Or.inl ⟨rfl, rfl⟩,
      fun _ => passes_of_handedOut (handedOut_refl _) ⟨[], by simp [next]⟩⟩
  | ticks clock =>
    exact .aside ⟨rfl, rfl, rfl, rfl, Or.inl ⟨rfl, rfl⟩,
      fun _ => passes_of_handedOut (handedOut_refl _) ⟨[], by simp [next]⟩⟩
  | leaves =>
    show Leads x (if x.worker.result?.isSome then x.withChannel { x.worker.channel.shut with waiting := [] }
      else x)
    split
    · exact .aside ⟨rfl, rfl, rfl, rfl, Or.inl ⟨rfl, rfl⟩,
        fun _ => passes_of_handedOut (handedOut_refl _) ⟨x.worker.channel.buffer, .refl _⟩⟩
    · exact .aside (aside_refl x)

/-- What is kept by the changes of the connection and by the acts of others is kept, whatever happens. Only what
the worker is resolving is resolved. -/
theorem Leads.keeps {P : Connection Broker → Option Attempt → List (String × Message) → Prop} {x' : World ρ}
    (h : Leads x x') (hx : P x.worker.connection x.worker.activity.underway x.past.routed)
    (hchange : ∀ {c' l a'}, (l = none ∨ ∃ d outcome, x.worker.activity = .resolving d outcome ∧
        l = some (d.tag, outcome)) →
      Change (Broker.api 0) x.worker.connection c' l x.worker.activity.underway a' → P c' a' x.past.routed)
    (hact : ∀ a, Foreign a → P { x.worker.connection with broker := a.run x.broker } x.worker.activity.underway
      (x.past.routed ++ a.routes x.broker)) :
    P x'.worker.connection x'.worker.activity.underway x'.past.routed := by
  cases h with
  | moved h =>
    obtain ⟨l, hl, hc⟩ := h.change
    exact hchange hl hc
  | resumed =>
    rcases Worker.resume_spec x.worker with heq | ⟨r, ha, heq⟩ | ⟨d, outcome, ha, heq⟩
    · rw [heq]
      exact hx
    · rw [ha] at hx
      rw [heq]
      show P _ r.resume.underway _
      rw [Retry.resume_underway]
      exact hx
    · rw [ha] at hx
      rw [heq]
      exact hx
  | answered result duration =>
    rcases Worker.answer_spec x.worker result duration with heq | ⟨d, p, j, ha, heq⟩
    · rw [heq]
      exact hx
    · rw [heq]
      dsimp only
      rw [Worker.toward_underway, show none = x.worker.activity.underway by rw [ha]; rfl]
      exact hchange (Or.inl rfl) (.quiet ⟨rfl, rfl, rfl, rfl, rfl, rfl⟩)
  | aside h =>
    rw [h.activity]
    rcases h.acts with ⟨hconnection, hrouted⟩ | ⟨a, ha, hconnection, hrouted⟩
    · rw [hconnection, hrouted]
      exact hx
    · rw [hconnection, hrouted]
      exact hact a ha

/-- Nothing gives the worker another router. -/
theorem Leads.router_eq {x' : World ρ} (h : Leads x x') : x'.worker.router = x.worker.router := by
  cases h with
  | moved h => cases h <;> rfl
  | resumed =>
    rcases Worker.resume_spec x.worker with heq | ⟨r, -, heq⟩ | ⟨d, outcome, -, heq⟩ <;> rw [heq] <;> rfl
  | answered result duration =>
    rcases Worker.answer_spec x.worker result duration with heq | ⟨d, p, j, -, heq⟩ <;> rw [heq]
  | aside h => exact h.router

/-- A worker that has stopped just now released its session, and one that had stopped was left alone, but for what
others do to the broker. -/
theorem Leads.stopped {x' : World ρ} (h : Leads x x') {result : Except WorkerError Unit}
    (hstopped : x'.worker.activity = .stopped result) :
    x'.worker.connection.session = none ∨
      x.worker.activity = .stopped result ∧ x'.worker.connection.session = x.worker.connection.session := by
  cases h with
  | moved h =>
    cases h with
    | stopped _ same => exact Or.inl (same.session.trans (release_session _ _))
    | refused => exact absurd hstopped (Worker.toward_ne_stopped _ _ _ _)
    | ignored ha => exact absurd (ha.symm.trans hstopped) nofun
    | _ => cases hstopped
  | resumed =>
    rcases Worker.resume_spec x.worker with heq | ⟨r, -, heq⟩ | ⟨d, outcome, -, heq⟩
    · rw [heq] at hstopped ⊢
      exact Or.inr ⟨hstopped, rfl⟩
    · rw [heq] at hstopped
      cases hstopped
    · rw [heq] at hstopped
      cases hstopped
  | answered answer duration =>
    rcases Worker.answer_spec x.worker answer duration with heq | ⟨d, p, j, -, heq⟩
    · rw [heq] at hstopped ⊢
      exact Or.inr ⟨hstopped, rfl⟩
    · rw [heq] at hstopped
      exact absurd hstopped (Worker.toward_ne_stopped _ _ _ _)
  | aside h =>
    refine Or.inr ⟨h.activity ▸ hstopped, ?_⟩
    rcases h.acts with ⟨hconnection, -⟩ | ⟨a, -, hconnection, -⟩ <;> rw [hconnection]

/-! ## What is always so -/

/-- The worker has its router and its configuration, connection and broker agree, and a worker that has stopped
has no session. -/
structure Sound (router : Router (Sink ρ)) (config : WorkerConfig) (x : World ρ) : Prop where
  router : x.worker.router = router
  config : x.worker.connection.config = config
  agreed : Agreed x.past.routed x.worker.connection x.worker.activity.underway
  stopped : ∀ result, x.worker.activity = .stopped result → x.worker.connection.session = none

variable {router : Router (Sink ρ)} {config : WorkerConfig}

theorem sound_start (name : String) (router : Router (Sink ρ)) (bindings : List Binding) (config : WorkerConfig)
    (exchanges : List String) (clock : Instant) :
    Sound router config (start name router bindings config exchanges clock) := by
  refine ⟨rfl, rfl, ?_, fun _ _ => rfl⟩
  refine ⟨coherent_withExchanges exchanges, orderly_withExchanges exchanges, .of_none rfl _, fun g hl => ?_,
    fun _ hk => absurd hk List.not_mem_nil, fun _ _ hk => absurd hk List.not_mem_nil⟩
  cases hl

/-- **Whatever happens keeps what is always so.** -/
theorem sound_next (hx : Sound router config x) (h : Happening) : Sound router config (x.next h) := by
  have hleads := leads_next x h
  refine ⟨hleads.router_eq.trans hx.router, ?_, ?_, fun result hstopped => ?_⟩
  · exact hleads.keeps (P := fun c _ _ => c.config = config) hx.config
      (fun _ hc => hc.config_eq.trans hx.config) fun _ _ => hx.config
  · exact hleads.keeps (P := fun c a ps => Agreed ps c a) hx.agreed
      (fun _ hc => agreed_change hc hx.agreed) fun a ha => agreed_act hx.agreed a ha.opens
  · rcases hleads.stopped hstopped with hnone | ⟨hbefore, hsession⟩
    · exact hnone
    · exact hsession.trans (hx.stopped result hbefore)

theorem sound_after (happenings : List Happening) : ∀ {x : World ρ}, Sound router config x →
    Sound router config (x.after happenings) := by
  induction happenings with
  | nil => exact fun hx => hx
  | cons h happenings ih => exact fun hx => ih (sound_next hx h)

end World
end EventCourier
