import EventCourier.Proofs.Broker.Order
import EventCourier.Proofs.Worker.World

/-!
# What is held fits the window

A session is set up in three stages: exchanges and queues, then the window, then consumers (`setupCalls_sorted`).
So there is no consumer before the window is in force (`Windowed`), and the broker hands out nothing beyond it
(`within_give`). Hence no more deliveries are ever held than the configuration allows (`windowed_after`).
-/

namespace EventCourier

open Broker Connection

variable {ρ : Type}

namespace Broker

variable {a : Act} {b b' : Broker} {window : Nat}

/-- No more is held than a window allows, and that window is in force as soon as there are consumers. -/
structure Within (window : Nat) (b : Broker) : Prop where
  inForce : b.consumers ≠ [] → b.prefetch = some window
  held : b.held.length ≤ window

/-- What holds less, for fewer consumers, stays within the window. -/
theorem Within.of_le (h : Within window b) (hconsumers : b'.consumers ≠ [] → b.consumers ≠ [])
    (hprefetch : b'.prefetch = b.prefetch) (hheld : b'.held.length ≤ b.held.length) : Within window b' :=
  ⟨fun hne => hprefetch.trans (h.inForce (hconsumers hne)), Nat.le_trans hheld h.held⟩

/-- A copy is handed out only while there is room in the window. -/
theorem within_give (ho : Orderly b) (h : Within window b) {g : Nat} {c : Consumer} {copy : Copy}
    {rest : List Copy} (hg : Gives b g c copy rest) : Within window (b.give g c copy rest) := by
  have hforce : b.prefetch = some window := h.inForce (List.ne_nil_of_mem hg.mem)
  refine ⟨fun _ => hforce, ?_⟩
  have hinFlight : b.inFlight g = b.held.length := List.countP_eq_length.mpr fun k hk =>
    beq_iff_eq.mpr (Option.some.inj ((ho.live k hk).symm.trans hg.live))
  have hroom : b.inFlight g < window := by
    have hroom := hg.room
    unfold hasRoom at hroom
    rw [hforce] at hroom
    exact of_decide_eq_true hroom
  rw [ho.held_give hg, List.length_append, List.length_singleton]
  omega

theorem within_endSession (h : Within window b) (g : Nat) : Within window (b.endSession g) := by
  obtain ⟨queues, -, heq⟩ := endSession_eq b g
  rw [heq]
  refine h.of_le (fun hne hnil => hne ?_) rfl (List.length_filter_le _ _)
  dsimp only
  rw [hnil]
  rfl

theorem within_settle (h : Within window b) (k : Held) (outcome : Outcome) :
    Within window (b.settle k outcome) := by
  unfold settle
  split <;> exact h.of_le id rfl (List.length_filter_le _ _)

/-- Other states of the same consumers leave what is held within the window. -/
theorem Within.of_consumers (h : Within window b) (hframe : b' = { b with consumers := b'.consumers })
    (hids : b'.consumers.map (·.id) = b.consumers.map (·.id)) : Within window b' := by
  refine h.of_le (fun hne hnil => hne ?_) (by rw [hframe]) (Nat.le_of_eq (by rw [hframe]))
  rw [hnil] at hids
  exact List.map_eq_nil_iff.mp hids

/-- Every act but opening a session keeps what is held within the window, if it sets no other one, and adds
consumers only when that one is in force. -/
theorem within_run (ho : Orderly b) (h : Within window b)
    (ha : ∀ receiver g notify, a ≠ .openSession receiver g notify)
    (hlimit : ∀ g count, a = .setPrefetch g count → count = window)
    (hsubscribe : ∀ receiver g queue consumerTag, a = .consume receiver g queue consumerTag → b.live = some g →
      b.prefetch = some window) : Within window (a.run b) := by
  exact (run_keeps_orderly (P := fun b => Within window b) ho h ha
    (fun m _ {b queue} h => h.of_le id rfl (Nat.le_refl _))
    (fun k _ outcome _ => within_settle h k outcome)
    (fun ch id r _ hf => h.of_consumers (forward?_frame hf).1 (forward?_frame hf).2.1)
    (fun receiver ch _ => h.of_consumers (grantTo_spec receiver ch.waiting b ch).1
      (grantTo_spec receiver ch.waiting b ch).2.1)
    (fun g count ha => ⟨fun _ => by rw [hlimit g count ha], h.held⟩)
    (fun receiver g queue consumerTag ha hl => ⟨fun _ => hsubscribe receiver g queue consumerTag ha hl, h.held⟩)
    (fun h hsame => h.of_le (hsame.consumers ▸ id) hsame.prefetch (hsame.held ▸ Nat.le_refl _))
    (fun ho h hg => within_give ho h hg) (fun h => h.of_le id rfl (Nat.le_refl _))
    fun g _ h => within_endSession h g).2

/-- A window that is in force stays in force until the next session is opened, if no other is set. -/
theorem prefetch_run (hb : b.prefetch = some window)
    (ha : ∀ receiver g notify, a ≠ .openSession receiver g notify)
    (hlimit : ∀ g count, a = .setPrefetch g count → count = window) : (a.run b).prefetch = some window := by
  have hdispatch : ∀ {b : Broker}, b.prefetch = some window → b.dispatch.prefetch = some window :=
    dispatch_keeps (P := fun b => b.prefetch = some window) (fun h _ => h) id
  refine run_keeps (P := fun b => b.prefetch = some window) hb
    (fun m _ => publish_keeps (P := fun b => b.prefetch = some window) (fun h => hdispatch h) hb)
    (fun receiver g notify h => absurd h (ha receiver g notify)) (fun h _ outcome _ _ => ?_)
    (fun ch id r _ hf => ?_) (fun receiver ch _ => ?_) (fun g count ha _ => congrArg some (hlimit g count ha))
    (fun _ _ _ _ _ _ => hb) (fun h hsame => hsame.prefetch.trans h) hdispatch (fun g h => ?_)
  · unfold settle
    split <;> exact hb
  · rw [(forward?_frame hf).1]
    exact hb
  · rw [(grantTo_spec receiver ch.waiting b ch).1]
    exact hb
  · obtain ⟨queues, -, heq⟩ := endSession_eq _ g
    rw [heq]
    exact h

/-- The window that the live session is given is in force. -/
theorem prefetch_setPrefetch {g : Nat} (hl : b.live = some g) (window : Nat) :
    ((Act.setPrefetch g window).run b).prefetch = some window := by
  show (setPrefetch g window b).2.prefetch = some window
  unfold setPrefetch onLive
  rw [if_pos hl]
  exact dispatch_keeps (P := fun b => b.prefetch = some window) (fun h _ => h) id rfl

end Broker

/-! ## The set-up -/

/-- The stage of the set-up that a call belongs to. -/
def SetupCall.stage : SetupCall → Nat
  | .declareExchange _ | .assertExchange _ | .declareQueue _ => 0
  | .setPrefetch _ => 1
  | .consume _ _ => 2

/-- The set-up goes from stage to stage. -/
theorem setupCalls_sorted (bindings : List Binding) (config : WorkerConfig) :
    (setupCalls bindings config).Pairwise fun x y => x.stage ≤ y.stage := by
  unfold setupCalls
  cases config.declareExchanges <;> simp [List.pairwise_append, List.pairwise_map, List.pairwise_of_forall,
    SetupCall.stage]

/-- The only window that is set is the configured one. -/
theorem limit_mem_setupCalls {bindings : List Binding} {config : WorkerConfig} {count : Nat} :
    .setPrefetch count ∈ setupCalls bindings config ↔ count = config.prefetch := by
  unfold setupCalls
  cases config.declareExchanges <;> simp

/-! ## The connection -/

variable {l : Option (Tag × Outcome)} {a a' : Option Attempt} {c c' : Connection Broker}
  {ps : List (String × Message)} {receiver : Nat}

/-- What is held fits the configured window. As long as a session is being set up, that window is still to be set
or it is in force, unless the session was lost. -/
structure Windowed (c : Connection Broker) (a : Option Attempt) : Prop where
  within : Within c.config.prefetch c.broker
  stage : ∀ left, a = some (.settingUp left) → left <:+ setupCalls c.bindings c.config ∧
    (c.broker.live ≠ none → .setPrefetch c.config.prefetch ∈ left ∨
      c.broker.prefetch = some c.config.prefetch)

namespace Windowed

theorem same (hw : Windowed c a) (hsame : Same c c') : Windowed c' a := by
  obtain ⟨hwithin, hstage⟩ := hw
  constructor
  · rwa [hsame.config, hsame.broker]
  · rwa [hsame.bindings, hsame.config, hsame.broker]

/-- Unless a session is being set up there is nothing to say of calls that are left. -/
theorem of_within (h : Within c.config.prefetch c.broker) (hsame : Same c c')
    (ha : ∀ left, a ≠ some (.settingUp left)) : Windowed c' a :=
  Windowed.same ⟨h, fun left hleft => absurd hleft (ha left)⟩ hsame

/-- What is done to the broker keeps it, unless that sets another window or adds a consumer too early. -/
theorem act (hw : Windowed c a) (h : Agreed ps c a) {x : Act}
    (hopens : ∀ receiver g notify, x ≠ .openSession receiver g notify)
    (hlimit : ∀ g count, x = .setPrefetch g count → count = c.config.prefetch)
    (hsubscribe : ∀ receiver g queue consumerTag, x = .consume receiver g queue consumerTag →
      c.broker.live = some g → c.broker.prefetch = some c.config.prefetch) :
    Windowed { c with broker := x.run c.broker } a := by
  refine ⟨within_run h.orderly hw.within hopens hlimit hsubscribe, fun left hleft => ?_⟩
  obtain ⟨hsuffix, hstage⟩ := hw.stage left hleft
  refine ⟨hsuffix, fun hl => ?_⟩
  have hlive : c.broker.live ≠ none := by
    rcases (orderly_run h.orderly x hopens).2.live with heq | heq
    · exact heq ▸ hl
    · exact absurd heq hl
  exact (hstage hlive).imp id fun hforce => prefetch_run hforce hopens hlimit

/-- A call of the set-up comes after those of the stages before it. -/
theorem call {call : SetupCall} {left : List SetupCall} (hw : Windowed c (some (.settingUp (call :: left))))
    (h : Agreed ps c (some (.settingUp (call :: left)))) (receiver : Nat) :
    Windowed { c with broker := (call.act receiver c.generation).run c.broker }
      (some (.settingUp (call :: left))) := by
  obtain ⟨hsuffix, hstage⟩ := hw.stage _ rfl
  have hsorted := (setupCalls_sorted c.bindings c.config).sublist hsuffix.sublist
  refine hw.act h (own_setup (l := none) none receiver c.generation call).opens (fun g count heq => ?_)
    fun receiver' g queue consumerTag heq hl => ?_
  · cases call with
    | setPrefetch count' =>
      cases heq
      exact limit_mem_setupCalls.mp (hsuffix.subset List.mem_cons_self)
    | _ => cases heq
  · cases call with
    | consume queue' consumerTag' =>
      rcases hstage (by rw [hl]; nofun) with hmem | hforce
      · rcases List.mem_cons.mp hmem with hcall | hlater
        · cases hcall
        · exact absurd ((List.pairwise_cons.mp hsorted).1 _ hlater) (Nat.not_succ_le_self 1)
      · exact hforce
    | _ => cases heq

/-- Once a call of the set-up is made, the window is among those that are left or in force. -/
theorem called {call : SetupCall} {left : List SetupCall} (hw : Windowed c (some (.settingUp (call :: left))))
    (h : Agreed ps c (some (.settingUp (call :: left)))) (receiver : Nat) :
    Windowed { c with broker := (call.act receiver c.generation).run c.broker } (some (.settingUp left)) := by
  have hcall := hw.call h receiver
  refine ⟨hcall.within, fun left' hleft => ?_⟩
  cases hleft
  obtain ⟨hsuffix, hstage⟩ := hcall.stage _ rfl
  refine ⟨(List.suffix_cons call left).trans hsuffix, fun hl => ?_⟩
  rcases hstage hl with hmem | hforce
  · rcases List.mem_cons.mp hmem with hthis | hlater
    · -- the session that is set up is the live one, so the call has set its window
      obtain rfl : call = .setPrefetch c.config.prefetch := hthis.symm
      refine Or.inr (prefetch_setPrefetch ?_ _)
      rcases (orderly_run h.orderly _ (own_setup (l := none) none receiver c.generation _).opens).2.live
        with heq | heq
      · obtain ⟨g, hg⟩ := Option.ne_none_iff_exists'.mp (heq ▸ hl)
        rw [hg, h.current hg]
      · exact absurd heq hl
    · exact Or.inl hlater
  · exact Or.inr hforce

/-- A session is opened when there is none, and without a window. -/
theorem opened (h : Agreed ps c (some .opening)) (receiver : Nat) :
    Within c.config.prefetch (openSession receiver c.generation c.notify c.broker).2 := by
  have hsame := unmoved_openSession receiver c.generation c.notify c.broker
  refine ⟨fun hne => absurd (hsame.consumers.trans h.consumers_of_opening) hne, ?_⟩
  rw [hsame.held, h.held_of_opening]
  exact Nat.zero_le _

/-- To let go of the session leaves what is held within the window. -/
theorem release (hw : Windowed c none) (h : Agreed ps c none) (receiver : Nat) :
    Within c.config.prefetch (c.release (Broker.api receiver)).broker := by
  rcases release_act receiver c with ⟨-, heq⟩ | ⟨g, -, heq⟩
  · rw [heq]
    exact hw.within
  · rw [heq]
    exact (hw.act h (x := .close g) nofun nofun nofun).within

/-- **Every change of the connection keeps what is held within the window.** -/
theorem change (hw : Windowed c a) (h : Agreed ps c a) (hc : Change (Broker.api receiver) c c' l a a') :
    Windowed c' a' := by
  cases hc with
  | quiet hsame => exact hw.same hsame
  | reported hsame => exact of_within hw.within hsame fun _ => nofun
  | started hsame =>
    refine of_within ?_ hsame fun _ => nofun
    rw [show ({ c.release (Broker.api receiver) with generation := _ } : Connection Broker).config = c.config from
      release_config _ c]
    exact hw.release h receiver
  | refused call hsame =>
    have hwithin := opened h receiver
    rw [show openSession receiver c.generation c.notify c.broker = _ from call] at hwithin
    exact of_within hwithin hsame fun _ => nofun
  | opened call hsame =>
    have hwithin := opened h receiver
    rw [show openSession receiver c.generation c.notify c.broker = _ from call] at hwithin
    refine Windowed.same ⟨hwithin, fun left hleft => ?_⟩ hsame
    cases hleft
    exact ⟨List.suffix_refl _, fun _ => Or.inl (limit_mem_setupCalls.mpr rfl)⟩
  | called hsame =>
    rw [setup_act] at hsame
    exact (hw.called h receiver).same hsame
  | failed hsame =>
    rw [setup_act] at hsame
    exact of_within (hw.call h receiver).within hsame fun _ => nofun
  | established hsame =>
    refine of_within ?_ hsame fun _ => nofun
    exact hw.within
  | undone hsame =>
    exact of_within (hw.act h (x := .close c.generation) nofun nofun nofun).within hsame fun _ => nofun
  | released hsame =>
    refine of_within ?_ hsame fun _ => nofun
    rw [release_config]
    exact hw.release h receiver
  | resolved session current hsame =>
    rw [resolve_act] at hsame
    exact (hw.act h (x := .resolve _ _ _) nofun nofun nofun).same hsame

end Windowed

/-! ## The worker -/

namespace World

variable {x : World ρ} {router : Router (Sink ρ)} {config : WorkerConfig}

theorem windowed_start (name : String) (router : Router (Sink ρ)) (bindings : List Binding)
    (config : WorkerConfig) (exchanges : List String) (clock : Instant) :
    let x := start name router bindings config exchanges clock
    Windowed x.worker.connection x.worker.activity.underway := by
  intro x
  have hunderway : x.worker.activity.underway = none := by
    show (if bindings.isEmpty then _ else _ : Activity ρ).underway = none
    split
    · rfl
    · exact Retry.start_underway config
  rw [hunderway]
  exact .of_within ⟨fun hne => absurd rfl hne, Nat.zero_le _⟩ (.refl _) fun _ => nofun

/-- **Whatever happens, what is held fits the window.** -/
theorem windowed_next (hx : Sound router config x) (hw : Windowed x.worker.connection x.worker.activity.underway)
    (h : Happening) :
    Windowed (x.next h).worker.connection (x.next h).worker.activity.underway :=
  (leads_next x h).keeps (P := fun c a _ => Windowed c a) hw (fun _ hc => hw.change hx.agreed hc) fun _ ha =>
    hw.act hx.agreed ha.opens (fun g count heq => absurd heq (ha.limits g count))
      fun receiver g queue consumerTag heq _ => absurd heq (ha.subscribes receiver g queue consumerTag)

theorem windowed_after (happenings : List Happening) : ∀ {x : World ρ}, Sound router config x →
    Windowed x.worker.connection x.worker.activity.underway →
    Windowed (x.after happenings).worker.connection (x.after happenings).worker.activity.underway := by
  induction happenings with
  | nil => exact fun _ hw => hw
  | cons h happenings ih => exact fun hx hw => ih (sound_next hx h) (windowed_next hx hw h)

end World

end EventCourier
