import EventCourier.Proofs.Broker.Dispatch
import EventCourier.Proofs.Dictionary

/-!
# Where the copies are

`whereabouts` lists every copy the broker has, with its place: it waits in its queue, is held under a tag, or
was resolved for good under one. `entries` forgets the places. The lemmas say what putting a copy back, taking
one from its queue and queueing one do to the copies that wait (`waiting_putBack`, `waiting_take`,
`waiting_append`), and that a new tag goes among those held without another one being lost (`perm_hold`).
-/

namespace EventCourier

/-- A copy as it was queued: its number, its queue and its message. -/
structure Entry where
  serial : Nat
  queue : String
  message : Message
deriving DecidableEq, Repr

/-- A place where a copy can be: ready in its queue, held under a tag, or acked or rejected for good under one.
-/
inductive Place where
  | ready
  | held (t : Tag)
  | acked (t : Tag)
  | rejected (t : Tag)
deriving DecidableEq, Repr

/-- The entry of a copy in a queue. -/
def Copy.entry (queue : String) (c : Copy) : Entry := ⟨c.serial, queue, c.message⟩

/-- The entry of a copy that was handed out. -/
def Held.entry (h : Held) : Entry := h.copy.entry h.queue

/-- The place of a resolved copy; none if it went back to its queue. -/
def Resolution.place? (r : Resolution) : Option Place :=
  match r.outcome with
  | .ack => some (.acked r.held.tag)
  | .reject false => some (.rejected r.held.tag)
  | .reject true => none

/-- The entry of a copy that was resolved for good, with its place. -/
def Resolution.final? (r : Resolution) : Option (Entry × Place) := r.place?.map fun p => (r.held.entry, p)

namespace Broker

open scoped List

variable {b : Broker} {q : String}

/-- All copies with their places. -/
def whereabouts (b : Broker) : List (Entry × Place) :=
  (b.queues.flatMap fun e => e.2.map fun c => (c.entry e.1, Place.ready)) ++
    b.held.map (fun h => (h.entry, Place.held h.tag)) ++
    b.resolutions.filterMap Resolution.final?

/-- The copies that wait. -/
def waiting (b : Broker) : List Entry := b.queues.flatMap fun e => e.2.map (Copy.entry e.1)

/-- The copies that were resolved for good. -/
def settled (b : Broker) : List Entry := b.resolutions.filterMap fun r => r.final?.map (·.1)

/-- All copies, wherever they are. -/
def entries (b : Broker) : List Entry := b.waiting ++ (b.held.map Held.entry ++ b.settled)

/-- The entries are the whereabouts without the places. -/
theorem map_whereabouts (b : Broker) : b.whereabouts.map (·.1) = b.entries := by
  unfold whereabouts entries waiting settled
  simp only [List.map_append, List.map_flatMap, List.map_map, List.map_filterMap, List.append_assoc]
  rfl

/-- A resolution settles its copy unless it puts it back. -/
theorem settled_append (b : Broker) (r : Resolution) :
    ({ b with resolutions := b.resolutions ++ [r] } : Broker).settled =
      b.settled ++ if r.outcome = .reject true then [] else [r.held.entry] := by
  unfold settled
  rw [List.filterMap_append]
  refine congrArg _ ?_
  match r with
  | ⟨_, .ack⟩ | ⟨_, .reject false⟩ | ⟨_, .reject true⟩ => rfl

/-! ## Queues -/

/-- Other copies in a queue stand for those that were there. -/
theorem waiting_setReady (hb : Dictionary.Increasing b.queues) (q : String) (copies : List Copy) :
    (b.setReady q copies).waiting ++ (b.ready q).map (Copy.entry q) ~
      b.waiting ++ copies.map (Copy.entry q) := by
  have h := Dictionary.perm_flatMap_insert (fun e : String × List Copy => e.2.map (Copy.entry e.1)) q copies hb
  have hready : ((Dictionary.get? q b.queues).elim [] fun u => u.map (Copy.entry q)) =
      (b.ready q).map (Copy.entry q) := by
    unfold ready
    cases Dictionary.get? q b.queues <;> rfl
  rwa [hready] at h

/-- A copy put back waits with the others. -/
theorem waiting_putBack (hb : Dictionary.Increasing b.queues) (q : String) (copy : Copy) :
    (b.putBack q copy).waiting ~ copy.entry q :: b.waiting := by
  apply (List.perm_append_right_iff ((b.ready q).map (Copy.entry q))).mp
  exact (waiting_setReady hb q (copy :: b.ready q)).trans List.perm_middle

/-- A copy taken from its queue no longer waits. -/
theorem waiting_take (hb : Dictionary.Increasing b.queues) {copy : Copy} {rest : List Copy}
    (hready : b.ready q = copy :: rest) : copy.entry q :: (b.setReady q rest).waiting ~ b.waiting := by
  apply (List.perm_append_right_iff (rest.map (Copy.entry q))).mp
  have h := waiting_setReady hb q rest
  rw [hready] at h
  exact List.perm_middle.symm.trans h

/-- A copy behind the others waits with them. -/
theorem waiting_append (hb : Dictionary.Increasing b.queues) (q : String) (m : Message) :
    (b.append m q).waiting ~ ⟨b.queued, q, m⟩ :: b.waiting := by
  apply (List.perm_append_right_iff ((b.ready q).map (Copy.entry q))).mp
  have h := waiting_setReady hb q (b.ready q ++ [⟨b.queued, m, false⟩])
  rw [List.map_append] at h
  calc (b.append m q).waiting ++ (b.ready q).map (Copy.entry q)
    _ ~ b.waiting ++ ((b.ready q).map (Copy.entry q) ++ [(⟨b.queued, q, m⟩ : Entry)]) := h
    _ ~ b.waiting ++ ((⟨b.queued, q, m⟩ : Entry) :: (b.ready q).map (Copy.entry q)) :=
      (List.perm_append_singleton _ _).append_left _
    _ ~ ⟨b.queued, q, m⟩ :: (b.waiting ++ (b.ready q).map (Copy.entry q)) := List.perm_middle

/-! ## Held copies -/

/-- A new tag goes among those held, and no other one is lost. -/
theorem perm_hold {h : Held} {held : List Held} (hnew : h.tag ∉ held.map (·.tag)) :
    hold h held ~ h :: held := by
  induction held with
  | nil => exact .refl _
  | cons k rest ih =>
    simp only [List.map_cons, List.mem_cons, not_or] at hnew
    unfold hold
    rw [if_neg hnew.1]
    split
    · exact .refl _
    · exact ((ih hnew.2).cons k).trans (.swap h k rest)

/-- The copies of a session that ends are put back, the oldest first. -/
def putBackAll (b : Broker) (orphans : List Held) : Broker :=
  orphans.foldr (fun h b => b.putBack h.queue { h.copy with redelivered := true }) b

/-- Putting copies back changes nothing but queues. -/
theorem putBackAll_frame (b : Broker) (orphans : List Held) :
    b.putBackAll orphans = { b with queues := (b.putBackAll orphans).queues } := by
  induction orphans with
  | nil => rfl
  | cons h rest ih =>
    have hcons : b.putBackAll (h :: rest) =
      (b.putBackAll rest).putBack h.queue { h.copy with redelivered := true } := rfl
    rw [hcons, ih]
    rfl

/-- Copies that are put back wait with the others. -/
theorem waiting_putBackAll (hb : Dictionary.Increasing b.queues) (orphans : List Held) :
    Dictionary.Increasing (b.putBackAll orphans).queues ∧
      (b.putBackAll orphans).waiting ~ orphans.map Held.entry ++ b.waiting := by
  induction orphans with
  | nil => exact ⟨hb, .refl _⟩
  | cons h rest ih =>
    exact ⟨Dictionary.increasing_insert _ _ ih.1, (waiting_putBack ih.1 h.queue _).trans (ih.2.cons _)⟩

end Broker
end EventCourier
