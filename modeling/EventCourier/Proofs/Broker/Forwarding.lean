import EventCourier.Broker.Channel
import EventCourier.Proofs.Broker.Dispatch
import Mathlib.Data.List.Nodup

/-!
# Deliveries on their way through the forwarders

A consumer carries what is in its outbox and what its forwarder has in hand (`carried`). Handing out adds one
delivery to what is carried (`carried_send`), a move of a forwarder takes one to the channel at most
(`forward?_carried`), and a grant moves nothing (`grantTo_spec`).
-/

namespace EventCourier

/-- The delivery a forwarder has in hand. -/
def Forwarder.inHand : Forwarder → List Delivery
  | .waiting d _ => [d]
  | .idle | .ended => []

/-- The deliveries that a consumer has been given and its forwarder has not passed on. -/
def Consumer.carried (c : Consumer) : List Delivery := c.forwarder.inHand ++ c.outbox

/-- What a consumer is there for: its session, its queue, and its tag. -/
def Consumer.role (c : Consumer) : Nat × String × String := (c.generation, c.queue, c.tag)

/-- The deliveries that consumers carry. -/
def carriedBy (consumers : List Consumer) : List Delivery := consumers.flatMap Consumer.carried

namespace Broker

open scoped List

variable {b b' : Broker} {ch ch' : Channel} {consumers : List Consumer}

/-- The deliveries that the consumers of the broker carry. -/
def carried (b : Broker) : List Delivery := carriedBy b.consumers

/-- A change of the consumer with one identifier leaves all others alone. -/
theorem map_id_split (hids : (consumers.map (·.id)).Nodup) {c : Consumer} (hc : c ∈ consumers) :
    ∃ before after, consumers = before ++ c :: after ∧ ∀ f : Consumer → Consumer,
      (consumers.map fun k => if k.id = c.id then f k else k) = before ++ f c :: after := by
  obtain ⟨before, after, rfl⟩ := List.append_of_mem hc
  refine ⟨before, after, rfl, fun f => ?_⟩
  have hne : ∀ k ∈ before ++ after, k.id ≠ c.id := by
    intro k hk heq
    have hmid : ((c :: (before ++ after)).map (·.id)).Nodup :=
      (List.perm_middle.map _).nodup_iff.mp hids
    exact (List.nodup_cons.mp hmid).1 (List.mem_map.mpr ⟨k, hk, heq⟩)
  have hsame : ∀ l : List Consumer, (∀ k ∈ l, k ∈ before ++ after) →
      (l.map fun k => if k.id = c.id then f k else k) = l := by
    intro l hl
    refine (List.map_congr_left fun k hk => ?_).trans (List.map_id l)
    exact if_neg (hne k (hl k hk))
  rw [List.map_append, List.map_cons, hsame before fun k hk => List.mem_append_left _ hk,
    hsame after fun k hk => List.mem_append_right _ hk, if_pos rfl]

/-- The delivery that is handed out is carried with the others. -/
theorem carried_send (hids : (consumers.map (·.id)).Nodup) {c : Consumer} (hc : c ∈ consumers) (d : Delivery) :
    carriedBy (send c.id d consumers) ~ d :: carriedBy consumers := by
  obtain ⟨before, after, hsplit, hmap⟩ := map_id_split hids hc
  have hsend : send c.id d consumers = before ++ { c with outbox := c.outbox ++ [d] } :: after := hmap _
  rw [hsend, hsplit]
  apply List.perm_iff_count.mpr
  intro x
  simp only [carriedBy, List.flatMap_append, List.flatMap_cons, Consumer.carried, List.count_append,
    List.count_cons, List.count_nil]
  omega

/-- To send a delivery changes an outbox and nothing else. -/
theorem map_send {α : Type} {f : Consumer → α} (hf : ∀ c outbox, f { c with outbox := outbox } = f c) (id : Nat)
    (d : Delivery) (consumers : List Consumer) : (send id d consumers).map f = consumers.map f := by
  unfold send
  rw [List.map_map]
  refine List.map_congr_left fun c _ => ?_
  simp only [Function.comp]
  split
  · exact hf c _
  · rfl

theorem map_id_send (id : Nat) (d : Delivery) (consumers : List Consumer) :
    (send id d consumers).map (·.id) = consumers.map (·.id) := map_send (fun _ _ => rfl) id d consumers

theorem map_role_send (id : Nat) (d : Delivery) (consumers : List Consumer) :
    (send id d consumers).map Consumer.role = consumers.map Consumer.role := map_send (fun _ _ => rfl) id d consumers

/-- Another state of a consumer stands for the one it had. -/
theorem carried_setConsumer (hids : (b.consumers.map (·.id)).Nodup) {c c' : Consumer} {id : Nat}
    (hc : b.consumer? id = some c) (hid : c'.id = c.id) :
    (b.setConsumer c').carried ++ c.carried ~ b.carried ++ c'.carried := by
  obtain ⟨before, after, hsplit, hmap⟩ := map_id_split hids (List.mem_of_find?_eq_some hc)
  have hset : (b.setConsumer c').consumers = before ++ c' :: after := by
    unfold setConsumer
    rw [hid]
    exact hmap fun _ => c'
  unfold carried
  rw [hset, hsplit]
  apply List.perm_iff_count.mpr
  intro x
  simp only [carriedBy, List.flatMap_append, List.flatMap_cons, List.count_append]
  omega

theorem map_id_setConsumer (b : Broker) (c : Consumer) :
    (b.setConsumer c).consumers.map (·.id) = b.consumers.map (·.id) := by
  unfold setConsumer
  rw [List.map_map]
  refine List.map_congr_left fun k _ => ?_
  simp only [Function.comp]
  split
  · rename_i h
    exact h.symm
  · rfl

/-- Another state of a consumer leaves every consumer with its role. -/
theorem map_role_setConsumer (hids : (b.consumers.map (·.id)).Nodup) {c c' : Consumer} (hc : c ∈ b.consumers)
    (hid : c'.id = c.id) (hrole : c'.role = c.role) :
    (b.setConsumer c').consumers.map Consumer.role = b.consumers.map Consumer.role := by
  obtain ⟨before, after, hsplit, hmap⟩ := map_id_split hids hc
  have hset : (b.setConsumer c').consumers = before ++ c' :: after := by
    unfold setConsumer
    rw [hid]
    exact hmap fun _ => c'
  rw [hset, hsplit, List.map_append, List.map_append, List.map_cons, List.map_cons, hrole]

/-- Another state of a consumer leaves every consumer with its session. -/
theorem generation_setConsumer {c c' k : Consumer} (hc : c ∈ b.consumers) (hk : k ∈ (b.setConsumer c').consumers)
    (hg : c'.generation = c.generation) : ∃ k' ∈ b.consumers, k'.generation = k.generation := by
  obtain ⟨k', hk', rfl⟩ := List.mem_map.mp hk
  split
  · exact ⟨c, hc, hg.symm⟩
  · exact ⟨k', hk', rfl⟩

/-- A move of the forwarder of a consumer `c`: it takes `moved` from the front of what that carries to the channel,
and once the channel is closed it lets go of all and ends. -/
structure Forwarded (ch : Channel) (c c' : Consumer) (ch' : Channel) (moved gone : List Delivery) : Prop where
  id : c'.id = c.id
  generation : c'.generation = c.generation
  queue : c'.queue = c.queue
  tag : c'.tag = c.tag
  buffer : ch'.buffer = ch.buffer ++ moved
  isOpen : ch'.isOpen = ch.isOpen
  carried : c.carried = moved ++ c'.carried ++ gone
  kept : ch.isOpen = true → gone = []
  listening : ch.isOpen = true → c'.forwarder ≠ .ended

/-- A move of a forwarder changes its consumer only. -/
theorem forward?_some {id : Nat} (h : b.forward? ch id = some (b', ch')) :
    ∃ c c' moved gone, b.consumer? id = some c ∧ b' = b.setConsumer c' ∧ Forwarded ch c c' ch' moved gone := by
  unfold forward? at h
  cases hc : b.consumer? id with
  | none => simp [hc] at h
  | some c =>
    simp only [hc, Option.bind_eq_bind, Option.bind_some] at h
    let ended : Consumer := { c with forwarder := .ended, outbox := [] }
    have hended : ¬ch.isOpen = true → Forwarded ch c ended ch [] c.carried := fun hopen =>
      ⟨rfl, rfl, rfl, rfl, (List.append_nil _).symm, rfl, rfl, fun h => absurd h hopen, fun h => absurd h hopen⟩
    split at h
    · rename_i d granted hf
      split at h
      · rename_i hopen
        cases h
        exact ⟨c, ended, [], c.carried, rfl, rfl, hended (by simpa using hopen)⟩
      · split at h
        · cases h
          refine ⟨c, { c with forwarder := .idle }, [d], [], rfl, rfl,
            ⟨rfl, rfl, rfl, rfl, rfl, rfl, ?_, fun _ => rfl, fun _ => nofun⟩⟩
          simp [Consumer.carried, hf, Forwarder.inHand]
        · cases h
    · rename_i d rest hf hout
      split at h
      · rename_i hopen
        cases h
        exact ⟨c, ended, [], c.carried, rfl, rfl, hended (by simpa using hopen)⟩
      · split at h
        · cases h
          refine ⟨c, { c with outbox := rest }, [d], [], rfl, rfl,
            ⟨rfl, rfl, rfl, rfl, rfl, rfl, ?_, fun _ => rfl, fun _ => by simp [hf]⟩⟩
          simp [Consumer.carried, hf, hout, Forwarder.inHand]
        · cases h
          refine ⟨c, { c with outbox := rest, forwarder := .waiting d false }, [], [], rfl, rfl,
            ⟨rfl, rfl, rfl, rfl, (List.append_nil _).symm, rfl, ?_, fun _ => rfl, fun _ => nofun⟩⟩
          simp [Consumer.carried, hf, hout, Forwarder.inHand]
    · cases h

/-- A move of a forwarder changes nothing but consumers, and leaves them with their sessions. -/
theorem forward?_frame {id : Nat} (h : b.forward? ch id = some (b', ch')) :
    b' = { b with consumers := b'.consumers } ∧ b'.consumers.map (·.id) = b.consumers.map (·.id) ∧
      ∀ k ∈ b'.consumers, ∃ k' ∈ b.consumers, k'.generation = k.generation := by
  obtain ⟨c, c', moved, gone, hc, rfl, hmove⟩ := forward?_some h
  exact ⟨rfl, map_id_setConsumer b c',
    fun k hk => generation_setConsumer (List.mem_of_find?_eq_some hc) hk hmove.generation⟩

/-- A move of a forwarder leaves consumers with their roles. -/
theorem forward?_roles (hids : (b.consumers.map (·.id)).Nodup) {id : Nat}
    (h : b.forward? ch id = some (b', ch')) : b'.consumers.map Consumer.role = b.consumers.map Consumer.role := by
  obtain ⟨c, c', moved, gone, hc, rfl, hmove⟩ := forward?_some h
  refine map_role_setConsumer hids (List.mem_of_find?_eq_some hc) hmove.id ?_
  unfold Consumer.role
  rw [hmove.generation, hmove.queue, hmove.tag]

/-- What a forwarder takes from what is carried goes to the channel or away. -/
theorem forward?_carried (hids : (b.consumers.map (·.id)).Nodup) {id : Nat}
    (h : b.forward? ch id = some (b', ch')) :
    ∃ moved gone, ch'.buffer = ch.buffer ++ moved ∧ b'.carried ++ (moved ++ gone) ~ b.carried := by
  obtain ⟨c, c', moved, gone, hc, rfl, hmove⟩ := forward?_some h
  refine ⟨moved, gone, hmove.buffer, List.perm_iff_count.mpr fun x => ?_⟩
  have hset := (carried_setConsumer hids hc hmove.id).count_eq x
  have hcount := congrArg (List.count x) hmove.carried
  simp only [List.count_append] at hset hcount ⊢
  omega

/-- Granting room changes consumers only and moves nothing. -/
theorem grantTo_spec (receiver : Nat) (ids : List Nat) (b : Broker) (ch : Channel) :
    (b.grantTo receiver ids ch).2.1 = { b with consumers := (b.grantTo receiver ids ch).2.1.consumers } ∧
      (b.grantTo receiver ids ch).2.1.consumers.map (·.id) = b.consumers.map (·.id) ∧
      (b.grantTo receiver ids ch).2.2 = { ch with waiting := (b.grantTo receiver ids ch).2.2.waiting } ∧
      ((b.consumers.map (·.id)).Nodup → (b.grantTo receiver ids ch).2.1.carried ~ b.carried) := by
  induction ids generalizing b with
  | nil => exact ⟨rfl, rfl, rfl, fun _ => .refl _⟩
  | cons id rest ih =>
    unfold grantTo
    split
    · exact ih b
    · rename_i c hc
      split
      · rename_i d hf
        split
        · have hid := map_id_setConsumer b { c with forwarder := .waiting d true }
          obtain ⟨heq, hmap, hbuf, hperm⟩ := ih (b.setConsumer { c with forwarder := .waiting d true })
          refine ⟨heq, hmap.trans hid, hbuf, fun hids => (hperm (hid ▸ hids)).trans ?_⟩
          have hset : (b.setConsumer { c with forwarder := .waiting d true }).carried ++ c.carried ~
              b.carried ++ ({ c with forwarder := .waiting d true } : Consumer).carried :=
            carried_setConsumer hids hc rfl
          have hcarried : ({ c with forwarder := .waiting d true } : Consumer).carried = c.carried := by
            simp only [Consumer.carried, hf, Forwarder.inHand]
          rw [hcarried] at hset
          exact (List.perm_append_right_iff _).mp hset
        · exact ⟨rfl, rfl, rfl, fun _ => .refl _⟩
      · exact ih b

/-- What is kept by one grant is kept by granting what room there is. -/
theorem grantTo_keeps {P : Broker → Prop} (receiver : Nat)
    (hset : ∀ {b c d}, P b → c ∈ b.consumers → c.forwarder = .waiting d false →
      P (b.setConsumer { c with forwarder := .waiting d true })) (ids : List Nat) {b : Broker} (ch : Channel)
    (h : P b) : P (b.grantTo receiver ids ch).2.1 := by
  induction ids generalizing b with
  | nil => exact h
  | cons id rest ih =>
    unfold grantTo
    split
    · exact ih h
    · rename_i c hc
      split
      · rename_i d hf
        split
        · exact ih (hset h (List.mem_of_find?_eq_some hc) hf)
        · exact h
      · exact ih h

/-- Granting room leaves consumers with their roles. -/
theorem grantTo_roles (hids : (b.consumers.map (·.id)).Nodup) (receiver : Nat) (ids : List Nat) (ch : Channel) :
    (b.grantTo receiver ids ch).2.1.consumers.map Consumer.role = b.consumers.map Consumer.role := by
  refine (grantTo_keeps (P := fun b' => (b'.consumers.map (·.id)).Nodup ∧
    b'.consumers.map Consumer.role = b.consumers.map Consumer.role) receiver (fun {b c d} h hc _ => ?_) ids ch
    ⟨hids, rfl⟩).2
  let granted : Consumer := { c with forwarder := .waiting d true }
  have hroles : (b.setConsumer granted).consumers.map Consumer.role = b.consumers.map Consumer.role :=
    map_role_setConsumer h.1 hc rfl rfl
  exact ⟨(map_id_setConsumer b granted).symm ▸ h.1, hroles.trans h.2⟩

/-- Granting room leaves consumers with their sessions. -/
theorem generation_grantTo (receiver : Nat) (ids : List Nat) (b : Broker) (ch : Channel) :
    ∀ k ∈ (b.grantTo receiver ids ch).2.1.consumers, ∃ k' ∈ b.consumers, k'.generation = k.generation := by
  refine grantTo_keeps (P := fun b' => ∀ k ∈ b'.consumers, ∃ k' ∈ b.consumers, k'.generation = k.generation)
    receiver (fun h hc _ k hk => ?_) ids ch fun k hk => ⟨k, hk, rfl⟩
  obtain ⟨k', hk', heq⟩ := generation_setConsumer hc hk rfl
  obtain ⟨k'', hk'', heq'⟩ := h k' hk'
  exact ⟨k'', hk'', heq'.trans heq⟩

end Broker
end EventCourier
