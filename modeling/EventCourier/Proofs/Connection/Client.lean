import EventCourier.Proofs.Broker.Prompt
import EventCourier.Proofs.Worker.Unlogged
import EventCourier.Proofs.Worker.Window

/-!
# The window is exact

A connection is the only client of the in-memory broker, whose receiver stays. Then every change of the connection
and every act of others keeps what `Exact` says: no more is held than the configured window allows, and nothing
waits while there is room (`exact_change`, `exact_act`). So the bound is never exceeded, and no message is forgotten
(`window_exact`).
-/

namespace EventCourier

open Broker Connection

variable {l : Option (Tag × Outcome)} {a a' : Option Attempt} {c c' : Connection Broker} {receiver : Nat}

/-- Connection and broker agree; what is held fits the window, and nothing that fits it waits. -/
structure Exact (c : Connection Broker) (a : Option Attempt) : Prop where
  agreed : ∃ ps, Agreed ps c a
  windowed : Windowed c a
  running : Running c.broker
  prompt : Prompt c.broker

/-- The owner of a session leaves forwarders alone. -/
theorem Own.reaches {session : Option Nat} {x : Act} (h : Own session l x) : x.reaches = true := by
  cases x with
  | forward ch id => exact absurd rfl (h.forwards ch id)
  | _ => rfl

theorem exact_change (hc : Change (Broker.api receiver) c c' l a a') (h : Exact c a) : Exact c' a' := by
  obtain ⟨⟨ps, hagreed⟩, hwindowed, hrunning, hprompt⟩ := h
  have hbroker : Running c'.broker ∧ Prompt c'.broker := by
    rcases change_act hagreed.steady hc with heq | ⟨x, hx, heq⟩ | ⟨rfl, heq⟩
    · rw [heq]
      exact ⟨hrunning, hprompt⟩
    · rw [heq]
      exact ⟨running_run hrunning hx.reaches, prompt_run hagreed.orderly hrunning hprompt hx.opens⟩
    · rw [heq]
      exact ⟨running_run (a := .openSession receiver c.generation c.notify) hrunning rfl,
        prompt_openSession hagreed.consumers_of_opening receiver c.generation c.notify⟩
  exact ⟨⟨ps, agreed_change hc hagreed⟩, hwindowed.change hagreed hc, hbroker.1, hbroker.2⟩

theorem exact_act (h : Exact c a) {x : Act} (hx : x.byOthers = true) (hreaches : x.reaches = true) :
    Exact { c with broker := x.run c.broker } a := by
  obtain ⟨⟨ps, hagreed⟩, hwindowed, hrunning, hprompt⟩ := h
  have hforeign := World.foreign_of_byOthers hx
  refine ⟨⟨_, agreed_act hagreed x hforeign.opens⟩, ?_, running_run hrunning hreaches,
    prompt_run hagreed.orderly hrunning hprompt hforeign.opens⟩
  exact hwindowed.act hagreed hforeign.opens (fun g count heq => absurd heq (hforeign.limits g count))
    fun receiver g queue consumerTag heq _ => absurd heq (hforeign.subscribes receiver g queue consumerTag)

theorem exact_closed (bindings : List Binding) (config : WorkerConfig) (notify : Bool) (exchanges : List String) :
    Exact (.closed bindings config notify (.withExchanges exchanges)) none where
  agreed := ⟨[], coherent_withExchanges exchanges, orderly_withExchanges exchanges, .of_none rfl none, nofun, nofun,
    nofun⟩
  windowed := .of_within ⟨fun hne => absurd rfl hne, Nat.zero_le _⟩ (.refl _) nofun
  running := running_withExchanges exchanges
  prompt := prompt_withExchanges exchanges

namespace Use

/-- What happens to the broker besides the connection is what others do to it, and no forwarder finds the receiver
gone. -/
def Turn.Sole : Turn Broker → Prop
  | .outside f => ∃ x : Act, f = x.run ∧ x.byOthers = true ∧ x.reaches = true
  | _ => True

theorem exact_next {t : Turn Broker} (ht : t.Sole) {s : Use × Connection (Logged Broker)}
    (h : Exact s.2.unlogged s.1.underway) :
    Exact (next (Broker.api receiver) t s).2.unlogged (next (Broker.api receiver) t s).1.underway := by
  rcases next_change (Broker.api receiver) t s with ⟨l, hc⟩ | ⟨f, rfl, heq⟩
  · exact exact_change hc.unlogged h
  · obtain ⟨x, rfl, hx, hreaches⟩ := ht
    rw [heq]
    exact exact_act h hx hreaches

end Use

/-- **The window is exact.** However the only client of a broker is used, and whatever else happens to that while
the receiver stays: never is more unresolved than the configuration allows; and as long as less is unresolved in the
live session than its window allows, no message waits in a queue it consumes from. All consumers are those of the
live session, which has the configured window. -/
theorem window_exact (receiver : Nat) (exchanges : List String) (bindings : List Binding) (config : WorkerConfig)
    (notify : Bool) {turns : List (Use.Turn Broker)} (hturns : ∀ t ∈ turns, t.Sole) :
    let b := (Use.after (Broker.api receiver) turns
      (.idle, .closed bindings config notify ⟨.withExchanges exchanges, []⟩)).2.broker.broker
    b.held.length ≤ config.prefetch ∧
      (∀ g, b.live = some g → (∀ window, b.prefetch = some window → b.inFlight g < window) →
        ∀ k ∈ b.consumers, k.generation = g → b.ready k.queue = []) ∧
      ∀ k ∈ b.consumers, b.live = some k.generation ∧ b.prefetch = some config.prefetch := by
  intro b
  let start : Use × Connection (Logged Broker) :=
    (.idle, .closed bindings config notify ⟨.withExchanges exchanges, []⟩)
  obtain ⟨h, hconfig⟩ : Exact (Use.after (Broker.api receiver) turns start).2.unlogged _ ∧
      (Use.after (Broker.api receiver) turns start).2.config = config :=
    Use.after_keeps_of_mem (Broker.api receiver) (P := fun s => Exact s.2.unlogged s.1.underway ∧ s.2.config = config)
      (fun t ht s hs => ⟨Use.exact_next (hturns t ht) hs.1, (Use.config_next _ t s).trans hs.2⟩)
      ⟨exact_closed bindings config notify exchanges, rfl⟩
  obtain ⟨ps, hagreed⟩ := h.agreed
  have hwithin : Within config.prefetch b := hconfig ▸ h.windowed.within
  refine ⟨hwithin.held, fun g hl hroom k hk hg => h.prompt g hl ?_ k hk hg, fun k hk =>
    ⟨hagreed.orderly.attended k hk, hwithin.inForce (List.ne_nil_of_mem hk)⟩⟩
  show b.hasRoom g = true
  unfold hasRoom
  split
  · rename_i window hwindow
    exact decide_eq_true (hroom window hwindow)
  · rfl

/-- A connection with a window of two, on two queues. Five messages come; the first delivery is acked and the second
goes back to its queue; the connection is lost and opened again; and the two deliveries of the new session are acked,
and one more. -/
def refilled : List (Use.Turn Broker) :=
  let publish (key : String) : Use.Turn Broker := .outside (Act.publish ⟨"a", key, []⟩).run
  .connect :: List.replicate 9 (.step false) ++ List.replicate 3 (publish "k") ++ List.replicate 2 (publish "l") ++
    [.resolve ⟨1, 1⟩ .ack, .resolve ⟨1, 2⟩ (.reject true), .outside (Act.drop "cable pulled").run, .connect] ++
    List.replicate 9 (.step false) ++
    [.resolve ⟨2, 1⟩ .ack, .resolve ⟨2, 2⟩ .ack, .resolve ⟨2, 3⟩ .ack]

theorem window_exact_refilled :
    let config : WorkerConfig := { WorkerConfig.standard "1" with prefetch := 2 }
    let start : Use × Connection (Logged Broker) :=
      (.idle, .closed [⟨"a", "q", "k"⟩, ⟨"a", "r", "l"⟩] config true ⟨.withExchanges ["a"], []⟩)
    let b := (Use.after (Broker.api 0) refilled start).2.broker.broker
    let before := (Use.after (Broker.api 0) (refilled.take 15) start).2.broker.broker
    (before.held.length = 2 ∧ (before.ready "q").length = 1 ∧ (before.ready "r").length = 2) ∧
      (b.live = some 2 ∧ b.inFlight 2 = 1 ∧ b.consumers.map (·.queue) = ["q", "r"]) ∧
      b.held.length ≤ 2 ∧ ∀ k ∈ b.consumers, k.generation = 2 → b.ready k.queue = [] := by
  have hothers : ∀ x : Act, x.byOthers = true → x.reaches = true → Use.Turn.Sole (.outside x.run) :=
    fun x hx hreaches => ⟨x, rfl, hx, hreaches⟩
  have hoften : ∀ (n : Nat) (t : Use.Turn Broker), t.Sole → ∀ t' ∈ List.replicate n t, t'.Sole :=
    fun n t ht t' ht' => List.eq_of_mem_replicate ht' ▸ ht
  have hsole : ∀ t ∈ refilled, t.Sole := by
    simp only [refilled, List.forall_mem_append, List.forall_mem_cons]
    exact ⟨⟨⟨⟨⟨⟨trivial, hoften 9 (.step false) trivial⟩, hoften 3 _ (hothers (.publish _) rfl rfl)⟩,
      hoften 2 _ (hothers (.publish _) rfl rfl)⟩, trivial, trivial, hothers (.drop _) rfl rfl, trivial, nofun⟩,
      hoften 9 (.step false) trivial⟩, trivial, trivial, trivial, nofun⟩
  have h := window_exact 0 ["a"] [⟨"a", "q", "k"⟩, ⟨"a", "r", "l"⟩] { WorkerConfig.standard "1" with prefetch := 2 }
    true hsole
  refine ⟨⟨by decide +kernel, by decide +kernel, by decide +kernel⟩,
    ⟨by decide +kernel, by decide +kernel, by decide +kernel⟩, h.1, h.2.1 2 (by decide +kernel) ?_⟩
  intro window hwindow
  obtain rfl : window = 2 := Option.some.inj (hwindow.symm.trans (by decide +kernel))
  decide +kernel

end EventCourier
