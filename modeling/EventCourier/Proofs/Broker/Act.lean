import EventCourier.Proofs.Broker.Copies
import EventCourier.Proofs.Broker.Forwarding

/-!
# What is done to the broker

`Act` lists everything that is ever done to the broker: by publishers and by the network, by a client on its
sessions, and by the forwarders. `after` is the broker after a list of acts, in any order and on any sessions.
Ending a session is one change of the whole broker (`endSession_eq`), and so is resolving a delivery
(`resolve_eq`); `run_keeps` tells what has to be shown of something that every act is to keep.
-/

namespace EventCourier
namespace Broker

open scoped List

variable {b : Broker}

/-- Something that is done to the broker. -/
inductive Act where
  | publish (m : Message)
  | drop (reason : String)
  | refuseNext (count : Nat)
  | refuseAll
  | openSession (receiver generation : Nat) (notify : Bool)
  | assertExchange (generation : Nat) (exchange : String)
  | declareExchange (generation : Nat) (exchange : String)
  | declareQueue (generation : Nat) (t : Binding)
  | setPrefetch (generation count : Nat)
  | consume (receiver generation : Nat) (queue consumerTag : String)
  | resolve (generation tag : Nat) (outcome : Outcome)
  | close (generation : Nat)
  | forward (ch : Channel) (id : Nat)
  | grant (receiver : Nat) (ch : Channel)
deriving DecidableEq, Repr

/-- The broker after an act. -/
def Act.run (a : Act) (b : Broker) : Broker :=
  match a with
  | .publish m => b.publish m
  | .drop reason => (b.drop reason).2
  | .refuseNext count => { b with refusals := count }
  | .refuseAll => { b with refuseAll := true }
  | .openSession receiver g notify => (Broker.openSession receiver g notify b).2
  | .assertExchange g exchange => (Broker.assertExchange g exchange b).2
  | .declareExchange g exchange => (Broker.declareExchange g exchange b).2
  | .declareQueue g t => (Broker.declareQueue g t b).2
  | .setPrefetch g count => (Broker.setPrefetch g count b).2
  | .consume receiver g queue consumerTag => (Broker.consume receiver g queue consumerTag b).2
  | .resolve g tag outcome => (Broker.resolve g tag outcome b).2
  | .close g => (Broker.close g b).2
  | .forward ch id => ((b.forward? ch id).map (·.1)).getD b
  | .grant receiver ch => (b.grant receiver ch).2.1

/-- True of acts of publishers, of the network, and of forwarders. -/
def Act.byOthers : Act → Bool
  | .publish _ | .drop _ | .refuseNext _ | .refuseAll | .forward _ _ | .grant _ _ => true
  | _ => false

/-- The broker after acts, in order. -/
def after (b : Broker) (acts : List Act) : Broker := acts.foldl (fun b a => a.run b) b

/-- The broker with one more consumer. -/
def subscribe (b : Broker) (receiver g : Nat) (queue consumerTag : String) : Broker :=
  { b with
    consumers := b.consumers ++ [⟨b.subscribed, g, consumerTag, queue, receiver, [], .idle⟩]
    subscribed := b.subscribed + 1
    woken := b.woken ++ [b.subscribed] }

/-- Two brokers have the same copies in the same places, the same consumers and the same live session with the same
window. -/
structure Alike (b b' : Broker) : Prop where
  live : b'.live = b.live
  nextTag : b'.nextTag = b.nextTag
  queues : b'.queues = b.queues
  consumers : b'.consumers = b.consumers
  held : b'.held = b.held
  issued : b'.issued = b.issued
  resolutions : b'.resolutions = b.resolutions
  queued : b'.queued = b.queued
  subscribed : b'.subscribed = b.subscribed
  prefetch : b'.prefetch = b.prefetch

/-! ## The end of a session -/

/-- The copies a session holds. -/
def orphans (b : Broker) (g : Nat) : List Held := b.held.filter fun h => h.tag.generation == g

/-- The copies other sessions hold. -/
def others (b : Broker) (g : Nat) : List Held := b.held.filter fun h => h.tag.generation != g

theorem perm_orphans_others (b : Broker) (g : Nat) : b.orphans g ++ b.others g ~ b.held := by
  have h := List.filter_append_perm (fun h : Held => h.tag.generation == g) b.held
  exact h

/-- When a session ends its consumers go, what it held waits again, and if it was live none is. -/
theorem endSession_eq (b : Broker) (g : Nat) :
    ∃ queues : Dictionary (List Copy),
      (Dictionary.Increasing b.queues → Dictionary.Increasing queues ∧
        ({ b with queues := queues } : Broker).waiting ~ (b.orphans g).map Held.entry ++ b.waiting) ∧
      b.endSession g = { b with
        queues := queues
        consumers := b.consumers.filter fun c => c.generation != g
        held := b.others g
        live := if b.live = some g then none else b.live
        listener := if b.live = some g then none else b.listener
        nextTag := if b.live = some g then 0 else b.nextTag } := by
  let cleared : Broker := { b with
    consumers := b.consumers.filter fun c => c.generation != g
    held := b.others g }
  refine ⟨(cleared.putBackAll (b.orphans g)).queues, fun hb => waiting_putBackAll (b := cleared) hb _, ?_⟩
  have hend : b.endSession g = if (cleared.putBackAll (b.orphans g)).live = some g then
      { cleared.putBackAll (b.orphans g) with live := none, listener := none, nextTag := 0 }
    else cleared.putBackAll (b.orphans g) := rfl
  rw [hend, putBackAll_frame]
  by_cases hl : b.live = some g
  · simp [cleared, hl]
  · simp [cleared, hl]

/-- A session that has ended is not live. -/
theorem endSession_live (b : Broker) (g : Nat) :
    (b.endSession g).live = if b.live = some g then none else b.live := by
  obtain ⟨_, -, heq⟩ := endSession_eq b g
  rw [heq]

/-! ## The end of a delivery -/

/-- The broker after the delivery `h` was resolved, before anything else is handed out. -/
def settle (b : Broker) (h : Held) (outcome : Outcome) : Broker :=
  let b := { b with
    held := b.held.filter fun k => k.tag ≠ h.tag
    resolutions := b.resolutions ++ [⟨h, outcome⟩] }
  if outcome = .reject true then b.putBack h.queue { h.copy with redelivered := true } else b

/-- A delivery is resolved on the live session only, and only one that is held; otherwise nothing happens. -/
theorem resolve_eq (b : Broker) (g tag : Nat) (outcome : Outcome) :
    (resolve g tag outcome b).2 = b ∧ (b.live = some g → ∀ h ∈ b.held, h.tag ≠ ⟨g, tag⟩) ∨
      ∃ h ∈ b.held, h.tag = ⟨g, tag⟩ ∧ b.live = some g ∧
        (resolve g tag outcome b).2 = (b.settle h outcome).dispatch := by
  unfold resolve onLive
  split
  · rename_i hl
    cases hfound : b.held.find? fun h => h.tag = (⟨g, tag⟩ : Tag) with
    | none =>
      simp only [hfound]
      exact Or.inl ⟨trivial, fun _ h hh => by simpa using List.find?_eq_none.mp hfound h hh⟩
    | some h =>
      have htag : h.tag = ⟨g, tag⟩ := by simpa using List.find?_some hfound
      refine Or.inr ⟨h, List.mem_of_find?_eq_some hfound, htag, hl, ?_⟩
      simp only [hfound, settle, htag]
  · rename_i hl
    exact Or.inl ⟨rfl, fun h => absurd h hl⟩

/-- Of copies under different tags, taking away the tag of one takes away that one. -/
theorem perm_filter_tag {held : List Held} (hnd : (held.map (·.tag)).Nodup) {h : Held} (hh : h ∈ held) :
    h :: held.filter (fun k => k.tag ≠ h.tag) ~ held := by
  induction held with
  | nil => cases hh
  | cons k rest ih =>
    obtain ⟨hk, hrest⟩ := List.nodup_cons.mp hnd
    by_cases hkh : k.tag = h.tag
    · have hkeep : rest.filter (fun k => k.tag ≠ h.tag) = rest := by
        refine List.filter_eq_self.mpr fun x hx => ?_
        have : x.tag ≠ h.tag := fun e => hk (List.mem_map.mpr ⟨x, hx, e.trans hkh.symm⟩)
        simpa using this
      have heq : h = k := by
        rcases List.mem_cons.mp hh with e | hin
        · exact e
        · exact absurd (List.mem_map.mpr ⟨h, hin, hkh.symm⟩) hk
      subst heq
      rw [List.filter_cons_of_neg (by simp), hkeep]
    · have hin : h ∈ rest := by
        rcases List.mem_cons.mp hh with e | hin
        · exact absurd (congrArg Held.tag e.symm) hkh
        · exact hin
      rw [List.filter_cons_of_pos (by simpa using hkh)]
      exact (List.Perm.swap k h _).trans ((ih hrest hin).cons k)

/-! ## What every act keeps -/

/-- A move of a forwarder is an act. -/
theorem Act.run_forward {ch ch' : Channel} {id : Nat} {b' : Broker} (h : b.forward? ch id = some (b', ch')) :
    (Act.forward ch id).run b = b' := by
  show ((b.forward? ch id).map (·.1)).getD b = b'
  rw [h]
  rfl

/-- Something is kept by an act if it is kept by that act where the act is one of seven, and by the other things
that acts consist of: changes of settings, handing out, and the end of a session. -/
theorem run_keeps {P : Broker → Prop} {a : Act} (hb : P b)
    (hpublish : ∀ m, a = .publish m → P (b.publish m))
    (hopen : ∀ receiver g notify, a = .openSession receiver g notify → P (openSession receiver g notify b).2)
    (hsettle : ∀ h ∈ b.held, ∀ outcome, a = .resolve h.tag.generation h.tag.value outcome →
      b.live = some h.tag.generation → P (b.settle h outcome))
    (hforward : ∀ ch id r, a = .forward ch id → b.forward? ch id = some r → P r.1)
    (hgrant : ∀ receiver ch, a = .grant receiver ch → P (b.grantTo receiver ch.waiting ch).2.1)
    (hlimit : ∀ g count, a = .setPrefetch g count → b.live = some g → P { b with prefetch := some count })
    (hsubscribe : ∀ receiver g queue consumerTag, a = .consume receiver g queue consumerTag → b.live = some g →
      P (b.subscribe receiver g queue consumerTag))
    (halike : ∀ {b b'}, P b → Alike b b' → P b')
    (hdispatch : ∀ {b}, P b → P b.dispatch)
    (hend : ∀ {b} g, P b → P (b.endSession g)) :
    P (a.run b) := by
  cases a with
  | publish m => exact hpublish m rfl
  | openSession receiver g notify => exact hopen receiver g notify rfl
  | resolve g tag outcome =>
    show P (resolve g tag outcome b).2
    rcases resolve_eq b g tag outcome with ⟨heq, -⟩ | ⟨h, hh, htag, hl, heq⟩
    · rw [heq]
      exact hb
    · rw [heq]
      exact hdispatch (hsettle h hh outcome (by rw [htag]) (by rw [htag]; exact hl))
  | forward ch id =>
    show P (((b.forward? ch id).map (·.1)).getD b)
    cases hf : b.forward? ch id with
    | none => exact hb
    | some r => exact hforward ch id r rfl hf
  | grant receiver ch => exact hgrant receiver ch rfl
  | drop reason =>
    show P (b.drop reason).2
    unfold drop
    cases b.live with
    | none => exact hb
    | some g => exact hend g hb
  | refuseNext count => exact halike hb ⟨rfl, rfl, rfl, rfl, rfl, rfl, rfl, rfl, rfl, rfl⟩
  | refuseAll => exact halike hb ⟨rfl, rfl, rfl, rfl, rfl, rfl, rfl, rfl, rfl, rfl⟩
  | assertExchange g exchange =>
    show P (assertExchange g exchange b).2
    refine onLive_keeps hb fun _ => ?_
    split <;> exact halike hb ⟨rfl, rfl, rfl, rfl, rfl, rfl, rfl, rfl, rfl, rfl⟩
  | declareExchange g exchange =>
    show P (declareExchange g exchange b).2
    exact onLive_keeps hb fun _ => halike hb ⟨rfl, rfl, rfl, rfl, rfl, rfl, rfl, rfl, rfl, rfl⟩
  | declareQueue g t =>
    show P (declareQueue g t b).2
    refine onLive_keeps hb fun _ => ?_
    split <;> exact halike hb ⟨rfl, rfl, rfl, rfl, rfl, rfl, rfl, rfl, rfl, rfl⟩
  | setPrefetch g count =>
    show P (setPrefetch g count b).2
    exact onLive_keeps hb fun hl => hdispatch (hlimit g count rfl hl)
  | consume receiver g queue consumerTag =>
    show P (consume receiver g queue consumerTag b).2
    exact onLive_keeps hb fun hl => hdispatch (hsubscribe receiver g queue consumerTag rfl hl)
  | close g =>
    show P (close g b).2
    exact hend g (halike hb ⟨rfl, rfl, rfl, rfl, rfl, rfl, rfl, rfl, rfl, rfl⟩)

end Broker
end EventCourier
