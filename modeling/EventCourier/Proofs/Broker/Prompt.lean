import EventCourier.Proofs.Broker.Order

/-!
# Nothing waits while there is room

As long as consumers listen, a dispatch goes on until none of them is next in turn (`nextConsumer?_dispatch`): then
the live session has no room, or nothing waits for it (`Prompt`). Whatever makes room or a copy ready is followed by
a dispatch, and all else leaves room and queues as they are; so every act keeps it (`prompt_run`).
-/

namespace EventCourier
namespace Broker

open scoped List

variable {a : Act} {b b' : Broker}

/-- Every consumer listens: its forwarder has not found the receiver gone. -/
structure Running (b : Broker) : Prop where
  increasing : Dictionary.Increasing b.queues
  listening : ∀ c ∈ b.consumers, c.forwarder ≠ .ended

/-- While the live session has room, no copy waits in a queue it consumes from. -/
def Prompt (b : Broker) : Prop :=
  ∀ g, b.live = some g → b.hasRoom g = true → ∀ c ∈ b.consumers, c.generation = g → b.ready c.queue = []

/-- True of an act that finds no receiver gone. -/
def Act.reaches : Act → Bool
  | .forward ch _ => ch.isOpen
  | _ => true

/-! ## Consumers listen -/

theorem listening_send (h : ∀ c ∈ b.consumers, c.forwarder ≠ .ended) (id : Nat) (d : Delivery) :
    ∀ c ∈ send id d b.consumers, c.forwarder ≠ .ended := by
  have hmap : (send id d b.consumers).map (·.forwarder) = b.consumers.map (·.forwarder) :=
    map_send (fun _ _ => rfl) id d b.consumers
  intro c hc
  have hmem : c.forwarder ∈ b.consumers.map (·.forwarder) := hmap ▸ List.mem_map_of_mem hc
  obtain ⟨k, hk, heq⟩ := List.mem_map.mp hmem
  exact heq ▸ h k hk

theorem running_give (h : Running b) (g : Nat) (c : Consumer) (copy : Copy) (rest : List Copy) :
    Running (b.give g c copy rest) where
  increasing := Dictionary.increasing_insert _ _ h.increasing
  listening := listening_send h.listening c.id _

theorem running_dispatch (h : Running b) : Running b.dispatch :=
  dispatch_keeps (P := Running) (fun h _ => running_give h _ _ _ _) (fun h => ⟨h.increasing, h.listening⟩) h

theorem running_append (h : Running b) (m : Message) (queue : String) : Running (b.append m queue) where
  increasing := Dictionary.increasing_insert _ _ h.increasing
  listening := h.listening

theorem running_subscribe (h : Running b) (receiver g : Nat) (queue consumerTag : String) :
    Running (b.subscribe receiver g queue consumerTag) where
  increasing := h.increasing
  listening c hc := by
    rcases List.mem_append.mp hc with hc | hc
    · exact h.listening c hc
    · rw [List.mem_singleton.mp hc]
      exact nofun

theorem running_settle (h : Running b) (k : Held) (outcome : Outcome) : Running (b.settle k outcome) := by
  unfold settle
  split
  · exact ⟨Dictionary.increasing_insert _ _ h.increasing, h.listening⟩
  · exact ⟨h.increasing, h.listening⟩

theorem running_endSession (h : Running b) (g : Nat) : Running (b.endSession g) := by
  obtain ⟨queues, hqueues, heq⟩ := endSession_eq b g
  rw [heq]
  exact ⟨(hqueues h.increasing).1, fun c hc => h.listening c (List.mem_filter.mp hc).1⟩

/-- Another state of a consumer that listens. -/
theorem running_setConsumer (h : Running b) {c : Consumer} (hc : c.forwarder ≠ .ended) :
    Running (b.setConsumer c) where
  increasing := h.increasing
  listening k hk := by
    obtain ⟨k', hk', rfl⟩ := List.mem_map.mp hk
    split
    · exact hc
    · exact h.listening k' hk'

/-- Consumers listen until a forwarder finds the receiver gone. -/
theorem running_run (h : Running b) (ha : a.reaches = true) : Running (a.run b) := by
  refine run_keeps h
    (fun m _ => publish_keeps (P := Running) (fun h => running_dispatch (running_append h _ _)) h)
    (fun receiver g notify _ => ?_) (fun k _ outcome _ _ => running_settle h k outcome) (fun ch id r haeq hf => ?_)
    (fun receiver ch _ =>
      grantTo_keeps (P := Running) receiver (fun h _ _ => running_setConsumer h nofun) ch.waiting ch h)
    (fun _ _ _ _ => ⟨h.increasing, h.listening⟩) (fun _ _ _ _ _ _ => running_subscribe h _ _ _ _)
    (fun h hsame => ⟨hsame.queues ▸ h.increasing, hsame.consumers ▸ h.listening⟩) running_dispatch
    fun g h => running_endSession h g
  · have hsame := unmoved_openSession receiver g notify b
    exact ⟨hsame.queues ▸ h.increasing, hsame.consumers ▸ h.listening⟩
  · subst haeq
    obtain ⟨c, c', moved, gone, -, heq, hmove⟩ := forward?_some hf
    rw [heq]
    exact running_setConsumer h (hmove.listening ha)

theorem running_withExchanges (exchanges : List String) : Running (.withExchanges exchanges) :=
  ⟨List.Pairwise.nil, nofun⟩

/-! ## A dispatch goes on to the end -/

/-- As many copies wait as are listed. -/
theorem readyCount_eq (b : Broker) : b.readyCount = b.waiting.length := by
  unfold readyCount waiting
  induction b.queues with
  | nil => rfl
  | cons e rest ih =>
    rw [List.map_cons, total, ih, List.flatMap_cons, List.length_append, List.length_map]

/-- A copy that is handed out no longer waits. -/
theorem readyCount_give (h : Running b) {g : Nat} {c : Consumer} {copy : Copy} {rest : List Copy}
    (hg : Gives b g c copy rest) : (b.give g c copy rest).readyCount + 1 = b.readyCount := by
  have htake := (waiting_take h.increasing hg.ready).length_eq
  rw [readyCount_eq, readyCount_eq, ← htake]
  rfl

theorem nextConsumer?_dispatchUpTo (n : Nat) : ∀ {b : Broker}, Running b → b.readyCount < n →
    (dispatchUpTo n b).nextConsumer? = none := by
  induction n with
  | zero => exact fun _ hn => absurd hn (Nat.not_lt_zero _)
  | succ n ih =>
    intro b h hn
    unfold dispatchUpTo
    cases hout : b.handOut with
    | nothing => exact handOut_nothing hout
    | refused b' =>
      obtain ⟨-, c, hc, hended⟩ := handOut_refused hout
      exact absurd hended (h.listening c hc)
    | given b' =>
      obtain ⟨g, c, copy, rest, hg, rfl⟩ := handOut_given hout
      have hcount := readyCount_give h hg
      exact ih (running_give h g c copy rest) (by omega)

/-- **A dispatch leaves nobody next in turn.** -/
theorem nextConsumer?_dispatch (h : Running b) : b.dispatch.nextConsumer? = none :=
  nextConsumer?_dispatchUpTo _ h (Nat.lt_succ_self _)

/-- If nobody is next in turn while the session has room, nothing waits for its consumers. -/
theorem prompt_of_nextConsumer? (h : b.nextConsumer? = none) : Prompt b := by
  intro g hl hroom c hc hg
  simp only [nextConsumer?, hl, hroom, Option.bind_eq_bind, Option.bind_some, if_true, Option.bind_eq_none_iff] at h
  cases hfound : b.consumers.find? fun c => c.generation == g && !(b.ready c.queue).isEmpty with
  | some k => exact absurd (h k hfound) nofun
  | none => simpa [hg] using List.find?_eq_none.mp hfound c hc

theorem prompt_dispatch (h : Running b) : Prompt b.dispatch := prompt_of_nextConsumer? (nextConsumer?_dispatch h)

/-! ## What makes no room and queues nothing -/

/-- The window and what is held decide on room. -/
theorem hasRoom_congr (hprefetch : b'.prefetch = b.prefetch) (hheld : b'.held = b.held) (g : Nat) :
    b'.hasRoom g = b.hasRoom g := by
  unfold hasRoom inFlight
  rw [hprefetch, hheld]

/-- The same room, the same queues and no consumer in another role leave nothing waiting. -/
theorem Prompt.of_eq (h : Prompt b) (hlive : b'.live = b.live) (hprefetch : b'.prefetch = b.prefetch)
    (hheld : b'.held = b.held) (hready : ∀ q, b'.ready q = b.ready q)
    (hroles : ∀ c ∈ b'.consumers, ∃ k ∈ b.consumers, k.role = c.role) : Prompt b' := by
  intro g hl hroom c hc hg
  obtain ⟨k, hk, hrole⟩ := hroles c hc
  have hgeneration : k.generation = c.generation := congrArg (·.1) hrole
  have hqueue : k.queue = c.queue := congrArg (·.2.1) hrole
  rw [hready, ← hqueue]
  exact h g (hlive ▸ hl) ((hasRoom_congr hprefetch hheld g).symm.trans hroom) k hk (hgeneration.trans hg)

theorem Prompt.alike (h : Prompt b) (hsame : Alike b b') : Prompt b' :=
  h.of_eq hsame.live hsame.prefetch hsame.held (fun q => by unfold ready; rw [hsame.queues])
    fun c hc => ⟨c, hsame.consumers ▸ hc, rfl⟩

/-- Consumers that keep their roles. -/
theorem Prompt.of_roles (h : Prompt b) (hframe : b' = { b with consumers := b'.consumers })
    (hroles : b'.consumers.map Consumer.role = b.consumers.map Consumer.role) : Prompt b' := by
  rw [hframe]
  refine h.of_eq rfl rfl rfl (fun _ => rfl) fun c hc => ?_
  exact List.mem_map.mp (hroles ▸ List.mem_map_of_mem hc)

theorem prompt_of_not_live (h : b.live = none) : Prompt b := fun g hl => by
  rw [h] at hl
  cases hl

/-- A session that ends was live, or held nothing. -/
theorem prompt_endSession (ho : Orderly b) (h : Prompt b) (g : Nat) : Prompt (b.endSession g) := by
  by_cases hl : b.live = some g
  · exact prompt_of_not_live (by rw [endSession_live, if_pos hl])
  · obtain ⟨horphans, hothers⟩ := ho.held_of_not_live hl
    obtain ⟨queues, -, heq⟩ := endSession_eq b g
    refine h.of_eq (by rw [endSession_live, if_neg hl]) (by rw [heq]) (by rw [heq]; exact hothers)
      (fun q => by rw [ready_endSession, horphans]; rfl) fun c hc => ⟨c, ?_, rfl⟩
    rw [heq] at hc
    exact (List.mem_filter.mp hc).1

/-! ## All acts -/

/-- **No act leaves anything waiting while there is room**, as long as consumers listen. -/
theorem prompt_run (ho : Orderly b) (hr : Running b) (h : Prompt b)
    (ha : ∀ receiver g notify, a ≠ .openSession receiver g notify) : Prompt (a.run b) := by
  have hsame : ∀ {b'}, Alike b b' → Prompt b' := fun hsame => h.alike hsame
  cases a with
  | openSession receiver g notify => exact absurd rfl (ha receiver g notify)
  -- what is followed by a dispatch
  | publish m =>
    exact (publish_keeps (P := fun b => Running b ∧ Prompt b)
      (fun h => ⟨running_dispatch (running_append h.1 m _), prompt_dispatch (running_append h.1 m _)⟩) ⟨hr, h⟩).2
  | resolve g tag outcome =>
    show Prompt (resolve g tag outcome b).2
    rcases resolve_eq b g tag outcome with ⟨heq, -⟩ | ⟨k, -, -, -, heq⟩
    · rw [heq]
      exact h
    · rw [heq]
      exact prompt_dispatch (running_settle hr k outcome)
  | setPrefetch g count =>
    have hlimited : Running { b with prefetch := some count } := ⟨hr.increasing, hr.listening⟩
    show Prompt (setPrefetch g count b).2
    exact onLive_keeps h fun _ => prompt_dispatch hlimited
  | consume receiver g queue consumerTag =>
    show Prompt (consume receiver g queue consumerTag b).2
    exact onLive_keeps h fun _ => prompt_dispatch (running_subscribe hr receiver g queue consumerTag)
  -- what ends a session
  | drop reason =>
    show Prompt (b.drop reason).2
    unfold drop
    cases b.live with
    | none => exact h
    | some g => exact prompt_endSession ho h g
  | close g =>
    have hclosed : Alike b { b with closed := b.closed ++ [g] } :=
      ⟨rfl, rfl, rfl, rfl, rfl, rfl, rfl, rfl, rfl, rfl⟩
    exact prompt_endSession (ho.alike hclosed) (hsame hclosed) g
  -- what passes deliveries on
  | forward ch id =>
    show Prompt (((b.forward? ch id).map (·.1)).getD b)
    cases hf : b.forward? ch id with
    | none => exact h
    | some r => exact h.of_roles (forward?_frame hf).1 (forward?_roles ho.ids hf)
  | grant receiver ch =>
    exact h.of_roles (grantTo_spec receiver ch.waiting b ch).1 (grantTo_roles ho.ids receiver ch.waiting ch)
  -- what has no bearing on copies
  | refuseNext count => exact hsame ⟨rfl, rfl, rfl, rfl, rfl, rfl, rfl, rfl, rfl, rfl⟩
  | refuseAll => exact hsame ⟨rfl, rfl, rfl, rfl, rfl, rfl, rfl, rfl, rfl, rfl⟩
  | assertExchange g exchange =>
    show Prompt (assertExchange g exchange b).2
    refine onLive_keeps h fun _ => ?_
    split <;> exact hsame ⟨rfl, rfl, rfl, rfl, rfl, rfl, rfl, rfl, rfl, rfl⟩
  | declareExchange g exchange =>
    show Prompt (declareExchange g exchange b).2
    exact onLive_keeps h fun _ => hsame ⟨rfl, rfl, rfl, rfl, rfl, rfl, rfl, rfl, rfl, rfl⟩
  | declareQueue g t =>
    show Prompt (declareQueue g t b).2
    refine onLive_keeps h fun _ => ?_
    split <;> exact hsame ⟨rfl, rfl, rfl, rfl, rfl, rfl, rfl, rfl, rfl, rfl⟩

/-- A session that is opened has no consumers yet. -/
theorem prompt_openSession (h : b.consumers = []) (receiver g : Nat) (notify : Bool) :
    Prompt (openSession receiver g notify b).2 := fun _ _ _ c hc => by
  rw [(unmoved_openSession receiver g notify b).consumers, h] at hc
  cases hc

theorem prompt_withExchanges (exchanges : List String) : Prompt (.withExchanges exchanges) :=
  prompt_of_not_live rfl

end Broker
end EventCourier
