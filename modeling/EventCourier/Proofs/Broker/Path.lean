import EventCourier.Proofs.Broker.Order

/-!
# Deliveries stay in order on their way

Of the consumers of a queue only the first is ever handed anything, its leader (`Gives.leader`). Whatever is held
of a queue is on its way, in the order in which it was handed out: first what has reached the receiver, then what
the leader carries (`Along`). Every act but a move of a forwarder leaves that as it is (`along_run`), and a
forwarder takes a delivery from the one to the other (`along_forward`).
-/

namespace EventCourier
namespace Broker

open scoped List

variable {a : Act} {b b' : Broker} {front : List Delivery} {consumers : List Consumer}

/-- The first consumer of a queue. -/
def leader? (q : String) (consumers : List Consumer) : Option Consumer := consumers.find? fun c => c.queue = q

/-- What the first consumer of a queue carries. -/
def carriedOn (q : String) (consumers : List Consumer) : List Delivery :=
  (leader? q consumers).elim [] Consumer.carried

/-- What is held of a queue is among what has reached the receiver and what the leader of the queue carries, in
this order. -/
def Along (front : List Delivery) (b : Broker) : Prop :=
  ∀ q, (b.heldOf q).map Held.delivery <+ front ++ carriedOn q b.consumers

theorem queue_of_leader {q : String} {c : Consumer} (h : leader? q consumers = some c) : c.queue = q := by
  unfold leader? at h
  simpa using List.find?_some h

/-- A copy is handed out to the leader of its queue. -/
theorem Gives.leader (ho : Orderly b) {g : Nat} {c : Consumer} {copy : Copy} {rest : List Copy}
    (hg : Gives b g c copy rest) : leader? c.queue b.consumers = some c := by
  refine find?_of_imp (fun k hk hq => ?_) (decide_eq_true rfl) hg.first
  have hgen : k.generation = g := Option.some.inj ((ho.attended k hk).symm.trans hg.live)
  simpa [hgen] using hq

theorem carriedOn_of_leader {q : String} {c : Consumer} (h : leader? q consumers = some c) :
    carriedOn q consumers = c.carried := by
  unfold carriedOn
  rw [h]
  rfl

theorem carriedOn_subset (q : String) (consumers : List Consumer) :
    carriedOn q consumers ⊆ carriedBy consumers := by
  intro d hd
  cases hleader : leader? q consumers with
  | none =>
    unfold carriedOn at hd
    rw [hleader] at hd
    cases hd
  | some c =>
    rw [carriedOn_of_leader hleader] at hd
    exact List.mem_flatMap.mpr ⟨c, List.mem_of_find?_eq_some hleader, hd⟩

/-- A change of one consumer that leaves it on its queue changes what is carried on a queue if it leads that. -/
theorem carriedOn_map (hids : (consumers.map (·.id)).Nodup) {c : Consumer} (hc : c ∈ consumers)
    {f : Consumer → Consumer} (hf : (f c).queue = c.queue) (q : String) :
    carriedOn q (consumers.map fun k => if k.id = c.id then f k else k) =
      if leader? q consumers = some c then (f c).carried else carriedOn q consumers := by
  obtain ⟨before, after, hsplit, hmap⟩ := map_id_split hids hc
  have hne : ∀ k ∈ before ++ after, k ≠ c := by
    rintro k hk rfl
    rw [hsplit] at hids
    have hmid : ((k :: (before ++ after)).map (·.id)).Nodup := (List.perm_middle.map _).nodup_iff.mp hids
    exact (List.nodup_cons.mp hmid).1 (List.mem_map_of_mem hk)
  rw [hmap f, hsplit]
  unfold carriedOn leader?
  rw [List.find?_append, List.find?_append, List.find?_cons, List.find?_cons, hf]
  cases hbefore : before.find? fun k => k.queue = q with
  | some k =>
    have hk := hne k (List.mem_append_left _ (List.mem_of_find?_eq_some hbefore))
    simp [hk]
  | none =>
    by_cases hq : c.queue = q
    · simp [hq]
    · simp only [hq, decide_false, Option.none_or]
      rw [if_neg]
      intro hafter
      exact hne c (List.mem_append_right _ (List.mem_of_find?_eq_some hafter)) rfl

/-! ## What acts consist of -/

/-- Less that is held is still on its way. -/
theorem Along.of_sublist (h : Along front b) (hheld : b'.held <+ b.held)
    (hconsumers : b'.consumers = b.consumers) : Along front b' := by
  intro q
  rw [hconsumers]
  exact ((hheld.filter _).map _).trans (h q)

theorem along_of_held_nil (hheld : b.held = []) (front : List Delivery) : Along front b := by
  intro q
  unfold heldOf
  rw [hheld]
  exact List.nil_sublist _

theorem along_give (ho : Orderly b) (h : Along front b) {g : Nat} {c : Consumer} {copy : Copy} {rest : List Copy}
    (hg : Gives b g c copy rest) : Along front (b.give g c copy rest) := by
  intro q
  have hcarried : carriedOn q (b.give g c copy rest).consumers = if leader? q b.consumers = some c
      then c.carried ++ [(b.nextHeld g c copy).delivery] else carriedOn q b.consumers := by
    refine (carriedOn_map ho.ids hg.mem rfl q).trans ?_
    simp only [Consumer.carried, List.append_assoc]
  have hpath := h q
  rw [ho.heldOf_give hg, hcarried, List.map_append]
  by_cases hq : c.queue = q
  · -- what is handed out goes last on both sides
    subst hq
    have hleader := hg.leader ho
    rw [carriedOn_of_leader hleader] at hpath
    rw [if_pos rfl, if_pos hleader, ← List.append_assoc]
    exact hpath.append (List.Sublist.refl _)
  · have hnot : leader? q b.consumers ≠ some c := fun hleader => hq (queue_of_leader hleader)
    rw [if_neg hq, if_neg hnot, List.map_nil, List.append_nil]
    exact hpath

theorem along_endSession (ho : Orderly b) (h : Along front b) (g : Nat) : Along front (b.endSession g) := by
  obtain ⟨queues, -, heq⟩ := endSession_eq b g
  have hheld : (b.endSession g).held = b.others g := by rw [heq]
  rcases ho.held_split g with ⟨-, hothers⟩ | ⟨hnot, -, hothers⟩
  · exact along_of_held_nil (hheld.trans hothers) front
  · -- the session that ends is not the live one, so all consumers stay
    refine h.of_sublist (hheld.trans hothers ▸ .refl _) ?_
    rw [heq]
    refine List.filter_eq_self.mpr fun c hc => ?_
    have hne : c.generation ≠ g := fun hg => hnot (hg ▸ ho.attended c hc)
    simpa using hne

theorem along_settle (h : Along front b) (k : Held) (outcome : Outcome) : Along front (b.settle k outcome) := by
  have hsettle : (b.settle k outcome).held = b.held.filter (fun x => x.tag ≠ k.tag) ∧
      (b.settle k outcome).consumers = b.consumers := by
    unfold settle
    split <;> exact ⟨rfl, rfl⟩
  exact h.of_sublist (hsettle.1 ▸ List.filter_sublist) hsettle.2

/-- One more consumer leads a queue only if it is the first, and carries nothing yet. -/
theorem along_subscribe (h : Along front b) (receiver g : Nat) (queue consumerTag : String) :
    Along front (b.subscribe receiver g queue consumerTag) := by
  intro q
  have hcarried : carriedOn q (b.subscribe receiver g queue consumerTag).consumers = carriedOn q b.consumers := by
    unfold carriedOn leader? subscribe
    rw [List.find?_append]
    cases b.consumers.find? fun c => c.queue = q with
    | some c => rfl
    | none =>
      by_cases hq : queue = q
      · simp [hq, Consumer.carried, Forwarder.inHand]
      · simp [hq]
  rw [hcarried]
  exact h q

/-- A consumer that passes on the first of what it carries keeps the order. -/
theorem along_setConsumer (hids : (b.consumers.map (·.id)).Nodup) (h : Along front b) {c c' : Consumer}
    (hc : c ∈ b.consumers) {moved : List Delivery} (hcarried : c.carried = moved ++ c'.carried)
    (hid : c'.id = c.id) (hqueue : c'.queue = c.queue) : Along (front ++ moved) (b.setConsumer c') := by
  intro q
  have hset : carriedOn q (b.setConsumer c').consumers =
      if leader? q b.consumers = some c then c'.carried else carriedOn q b.consumers := by
    unfold setConsumer
    rw [hid]
    exact carriedOn_map hids hc hqueue q
  refine (h q).trans ?_
  rw [hset]
  by_cases hleader : leader? q b.consumers = some c
  · rw [if_pos hleader, carriedOn_of_leader hleader, hcarried, List.append_assoc]
  · -- what comes between is of another queue
    rw [if_neg hleader]
    exact (List.sublist_append_left front moved).append_right _

/-- A forwarder takes a delivery from what is carried to what has reached the receiver. -/
theorem along_forward (ho : Orderly b) {ch ch' : Channel} {id : Nat}
    (hf : b.forward? ch id = some (b', ch')) (hopen : ch.isOpen = true) {first : List Delivery}
    (h : Along (first ++ ch.buffer) b) : Along (first ++ ch'.buffer) b' := by
  obtain ⟨c, c', moved, gone, hc, rfl, hmove⟩ := forward?_some hf
  have hcarried : c.carried = moved ++ c'.carried := by
    rw [hmove.carried, hmove.kept hopen, List.append_nil]
  rw [hmove.buffer, ← List.append_assoc]
  exact along_setConsumer ho.ids h (List.mem_of_find?_eq_some hc) hcarried hmove.id hmove.queue

theorem along_grant (ho : Orderly b) (h : Along front b) (receiver : Nat) (ids : List Nat) (ch : Channel) :
    Along front (b.grantTo receiver ids ch).2.1 := by
  refine (grantTo_keeps (P := fun b => (b.consumers.map (·.id)).Nodup ∧ Along front b) receiver
    (fun {b c d} h hc hf => ⟨?_, ?_⟩) ids ch ⟨ho.ids, h⟩).2
  · rw [map_id_setConsumer]
    exact h.1
  · have hcarried : c.carried = [] ++ ({ c with forwarder := .waiting d true } : Consumer).carried := by
      simp [Consumer.carried, hf, Forwarder.inHand]
    have hset := along_setConsumer h.1 h.2 hc hcarried rfl rfl
    rwa [List.append_nil] at hset

/-! ## All acts -/

/-- **What is held stays on its way, in order**, by every act but opening a session and moving a forwarder. -/
theorem along_run (ho : Orderly b) (h : Along front b)
    (ha : ∀ receiver g notify, a ≠ .openSession receiver g notify) (hforward : ∀ ch id, a ≠ .forward ch id) :
    Along front (a.run b) := by
  exact (run_keeps_orderly (P := fun b => Along front b) ho h ha
    (fun m _ {b queue} h => h.of_sublist (.refl _) rfl)
    (fun k _ outcome _ => along_settle h k outcome) (fun ch id r ha _ => absurd ha (hforward ch id))
    (fun receiver ch _ => along_grant ho h receiver ch.waiting ch) (fun _ _ _ => h.of_sublist (.refl _) rfl)
    (fun receiver g queue consumerTag _ _ => along_subscribe h receiver g queue consumerTag)
    (fun h hsame => h.of_sublist (hsame.held ▸ .refl _) hsame.consumers) (fun ho h hg => along_give ho h hg)
    (fun h => h.of_sublist (.refl _) rfl) fun g ho h => along_endSession ho h g).2

end Broker
end EventCourier
