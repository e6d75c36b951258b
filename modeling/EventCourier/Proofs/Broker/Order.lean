import EventCourier.Proofs.Broker.Conservation
import EventCourier.Proofs.Broker.Tags

/-!
# The copies of a queue stay in line

`lineup` lists the copies of a queue: those that were resolved for good, in the order in which they were; then
those that are held, as they were handed out; then those that wait. To hand out a copy or to end a session moves a
copy over one of the two borders and leaves the line as it is (`lineup_give`, `lineup_endSession`), and so does
resolving a delivery that is due (`lineup_settle`); to queue a copy puts it at the end (`lineup_append`). So
the lineup is the list of the copies that were put on the queue, in order, as long as nothing is resolved that is
not due (`inLine_run`).
-/

namespace EventCourier
namespace Broker

variable {a : Act} {b : Broker} {ps : List (String × Message)}

/-- The entries of a queue. -/
def onQueue (q : String) (entries : List Entry) : List Entry := entries.filter fun e => e.queue = q

/-- What is held of a queue, the oldest first. -/
def heldOf (b : Broker) (q : String) : List Held := b.held.filter fun h => h.queue = q

/-- The copies of a queue: those that were resolved for good, in the order in which they were; those that are
held, the oldest first; those that wait, the next one first. -/
def lineup (b : Broker) (q : String) : List Entry :=
  onQueue q b.settled ++ ((b.heldOf q).map Held.entry ++ (b.ready q).map (Copy.entry q))

/-- A delivery is due if no older one of its queue is held; one that goes back has to be the only one. -/
def Due (b : Broker) (h : Held) (outcome : Outcome) : Prop :=
  ∃ rest, b.heldOf h.queue = h :: rest ∧ (outcome = .reject true → rest = [])

/-- The copies of every queue are in the order in which they were put on it. -/
structure InLine (b : Broker) (ps : List (String × Message)) : Prop where
  lineup : ∀ q, b.lineup q = onQueue q (numbered ps)
  queued : b.queued = ps.length

/-- What was put in a queue is what waits there. -/
theorem ready_setReady (b : Broker) (queue q : String) (copies : List Copy) :
    (b.setReady queue copies).ready q = if queue = q then copies else b.ready q := by
  unfold setReady ready
  rw [Dictionary.get?_insert]
  split <;> rfl

/-- The lineup consists of what was resolved, what is held, and what waits. -/
theorem lineup_congr {b' : Broker} (hresolutions : b'.resolutions = b.resolutions) (hheld : b'.held = b.held)
    (hqueues : b'.queues = b.queues) (q : String) : b'.lineup q = b.lineup q := by
  unfold lineup settled heldOf ready
  rw [hresolutions, hheld, hqueues]

/-! ## Handing out and queueing -/

/-- A tag beyond all others goes last. -/
theorem hold_last {h : Held} {held : List Held} (hlast : ∀ k ∈ held, tagBefore k.tag h.tag = true) :
    hold h held = held ++ [h] := by
  induction held with
  | nil => rfl
  | cons k rest ih =>
    have hk : k.tag.generation < h.tag.generation ∨
        k.tag.generation = h.tag.generation ∧ k.tag.value < h.tag.value :=
      of_decide_eq_true (hlast k List.mem_cons_self)
    have hne : h.tag ≠ k.tag := by
      intro heq
      rw [heq] at hk
      omega
    have hnot : ¬tagBefore h.tag k.tag = true := by
      intro hbefore
      have hlt : h.tag.generation < k.tag.generation ∨
          h.tag.generation = k.tag.generation ∧ h.tag.value < k.tag.value := of_decide_eq_true hbefore
      omega
    rw [hold, if_neg hne, if_neg hnot, ih fun k' hk' => hlast k' (List.mem_cons_of_mem _ hk')]
    rfl

/-- What is handed out is held behind all others. -/
theorem Orderly.held_give (hb : Orderly b) {g : Nat} {c : Consumer} {copy : Copy} {rest : List Copy}
    (hg : Gives b g c copy rest) : (b.give g c copy rest).held = b.held ++ [b.nextHeld g c copy] := by
  refine hold_last fun k hk => decide_eq_true ?_
  exact (hb.fresh g hg.live k (hb.issued_of_held hk)).imp id fun ⟨hgen, hle⟩ => ⟨hgen, Nat.lt_succ_of_le hle⟩

theorem Orderly.heldOf_give (hb : Orderly b) {g : Nat} {c : Consumer} {copy : Copy} {rest : List Copy}
    (hg : Gives b g c copy rest) (q : String) :
    (b.give g c copy rest).heldOf q = b.heldOf q ++ if c.queue = q then [b.nextHeld g c copy] else [] := by
  unfold heldOf
  rw [hb.held_give hg, List.filter_append]
  by_cases hq : c.queue = q
  · simp [hq, nextHeld]
  · simp [hq, nextHeld]

theorem lineup_give (hb : Orderly b) {g : Nat} {c : Consumer} {copy : Copy} {rest : List Copy}
    (hg : Gives b g c copy rest) (q : String) : (b.give g c copy rest).lineup q = b.lineup q := by
  have hready : (b.give g c copy rest).ready q = if c.queue = q then rest else b.ready q :=
    ready_setReady b c.queue q rest
  unfold lineup
  rw [hb.heldOf_give hg, hready]
  by_cases hq : c.queue = q
  · -- the copy is the last one that is held instead of the first one that waits
    subst hq
    rw [if_pos rfl, if_pos rfl, hg.ready, List.map_append, List.append_assoc]
    rfl
  · rw [if_neg hq, if_neg hq, List.append_nil]
    rfl

theorem lineup_append (b : Broker) (m : Message) (queue q : String) :
    (b.append m queue).lineup q = b.lineup q ++ onQueue q [⟨b.queued, queue, m⟩] := by
  have hready : (b.append m queue).ready q =
      if queue = q then b.ready queue ++ [⟨b.queued, m, false⟩] else b.ready q := ready_setReady b queue q _
  unfold lineup
  rw [hready]
  by_cases hq : queue = q
  · subst hq
    rw [if_pos rfl, List.map_append, ← List.append_assoc, ← List.append_assoc, ← List.append_assoc]
    simp only [onQueue, List.filter_cons, decide_true, if_true]
    rfl
  · simp only [onQueue, List.filter_cons, decide_eq_true_eq, if_neg hq, List.filter_nil, List.append_nil]
    rfl

/-! ## The end of a session -/

/-- What is put back waits before the others, the oldest first. -/
theorem ready_putBackAll (b : Broker) (orphans : List Held) (q : String) :
    (b.putBackAll orphans).ready q =
      (orphans.filter fun h => h.queue = q).map (fun h => { h.copy with redelivered := true }) ++ b.ready q := by
  induction orphans with
  | nil => rfl
  | cons h rest ih =>
    have hcons : (b.putBackAll (h :: rest)).ready q =
        if h.queue = q then { h.copy with redelivered := true } :: (b.putBackAll rest).ready h.queue
        else (b.putBackAll rest).ready q := ready_setReady _ _ _ _
    rw [hcons, List.filter_cons]
    by_cases hq : h.queue = q
    · rw [if_pos hq, if_pos (decide_eq_true hq), hq, ih]
      rfl
    · rw [if_neg hq, if_neg (by simpa using hq), ih]

theorem ready_endSession (b : Broker) (g : Nat) (q : String) :
    (b.endSession g).ready q =
      ((b.orphans g).filter fun h => h.queue = q).map (fun h => { h.copy with redelivered := true }) ++
        b.ready q := by
  refine Eq.trans ?_ (ready_putBackAll { b with
    consumers := b.consumers.filter fun c => c.generation != g
    held := b.others g } (b.orphans g) q)
  unfold endSession
  dsimp only
  split <;> rfl

/-- A session that is not live holds nothing. -/
theorem Orderly.held_of_not_live (hb : Orderly b) {g : Nat} (hl : b.live ≠ some g) :
    b.orphans g = [] ∧ b.others g = b.held := by
  have hnone : ∀ h ∈ b.held, h.tag.generation ≠ g := fun h hh heq => hl (heq ▸ hb.live h hh)
  refine ⟨List.filter_eq_nil_iff.mpr fun h hh => ?_, List.filter_eq_self.mpr fun h hh => ?_⟩
  · simp [hnone h hh]
  · simp [hnone h hh]

/-- Only the live session holds anything. -/
theorem Orderly.held_split (hb : Orderly b) (g : Nat) :
    b.orphans g = b.held ∧ b.others g = [] ∨ b.live ≠ some g ∧ b.orphans g = [] ∧ b.others g = b.held := by
  by_cases hl : b.live = some g
  · have hall : ∀ h ∈ b.held, h.tag.generation = g := fun h hh => Option.some.inj ((hb.live h hh).symm.trans hl)
    refine Or.inl ⟨List.filter_eq_self.mpr fun h hh => ?_, List.filter_eq_nil_iff.mpr fun h hh => ?_⟩
    · simp [hall h hh]
    · simp [hall h hh]
  · exact Or.inr ⟨hl, hb.held_of_not_live hl⟩

theorem lineup_endSession (hb : Orderly b) (g : Nat) (q : String) : (b.endSession g).lineup q = b.lineup q := by
  obtain ⟨queues, -, heq⟩ := endSession_eq b g
  have hresolutions : (b.endSession g).settled = b.settled := by
    rw [heq]
    rfl
  have hheld : (b.endSession g).heldOf q = (b.others g).filter fun h => h.queue = q := by
    rw [heq]
    rfl
  unfold lineup
  rw [hresolutions, hheld, ready_endSession, List.map_append, List.map_map]
  -- a copy keeps its entry when it is put back
  have hentry : ((b.orphans g).filter fun h => h.queue = q).map
      (Copy.entry q ∘ fun h => { h.copy with redelivered := true }) =
        ((b.orphans g).filter fun h => h.queue = q).map Held.entry := by
    refine List.map_congr_left fun h hh => ?_
    have hq : h.queue = q := of_decide_eq_true (List.mem_filter.mp hh).2
    subst hq
    rfl
  rw [hentry]
  rcases hb.held_split g with ⟨horphans, hothers⟩ | ⟨-, horphans, hothers⟩
  · rw [horphans, hothers]
    rfl
  · rw [horphans, hothers]
    rfl

/-! ## The end of a delivery -/

/-- Without a delivery that is due, what is held of its queue is the rest, and of other queues the same. -/
theorem heldOf_without (hnd : (b.held.map (·.tag)).Nodup) {h : Held} {rest : List Held}
    (hrest : b.heldOf h.queue = h :: rest) (q : String) :
    (b.heldOf q).filter (fun k => k.tag ≠ h.tag) = if h.queue = q then rest else b.heldOf q := by
  have hmem : h ∈ b.held := (List.mem_filter.mp (hrest ▸ List.mem_cons_self)).1
  by_cases hq : h.queue = q
  · have htags : ((h :: rest).map (·.tag)).Nodup := hrest ▸ hnd.sublist (List.filter_sublist.map _)
    have hkeep : ∀ k ∈ rest, k.tag ≠ h.tag := fun k hk heq =>
      (List.nodup_cons.mp htags).1 (List.mem_map.mpr ⟨k, hk, heq⟩)
    rw [if_pos hq, ← hq, hrest, List.filter_cons_of_neg (by simp), List.filter_eq_self]
    exact fun k hk => decide_eq_true (hkeep k hk)
  · rw [if_neg hq, List.filter_eq_self]
    intro k hk
    obtain ⟨hk, hkq⟩ := List.mem_filter.mp hk
    refine decide_eq_true fun heq => hq ?_
    rw [← List.inj_on_of_nodup_map hnd hk hmem heq]
    exact of_decide_eq_true hkq

theorem lineup_settle (hb : Orderly b) {h : Held} {outcome : Outcome} (hdue : Due b h outcome) (q : String) :
    (b.settle h outcome).lineup q = b.lineup q := by
  obtain ⟨rest, hrest, hback⟩ := hdue
  let cleared : Broker := { b with
    held := b.held.filter fun k => k.tag ≠ h.tag
    resolutions := b.resolutions ++ [⟨h, outcome⟩] }
  have hheld : cleared.heldOf q = if h.queue = q then rest else b.heldOf q := by
    rw [← heldOf_without hb.held_tags hrest]
    exact List.filter_comm ..
  have hsettled : cleared.settled = b.settled ++ if outcome = .reject true then [] else [h.entry] :=
    settled_append { b with held := cleared.held } ⟨h, outcome⟩
  have hfirst : (b.heldOf q).map Held.entry =
      onQueue q [h.entry] ++ (if h.queue = q then rest else b.heldOf q).map Held.entry := by
    by_cases hq : h.queue = q
    · subst hq
      rw [hrest, if_pos rfl]
      simp [onQueue, Held.entry, Copy.entry]
    · simp [onQueue, Held.entry, Copy.entry, hq]
  unfold settle
  by_cases hout : outcome = .reject true
  · -- nothing else of the queue is held, so the copy is again the next after what was resolved
    have hready : (cleared.putBack h.queue { h.copy with redelivered := true }).ready q =
        if h.queue = q then { h.copy with redelivered := true } :: b.ready h.queue else b.ready q :=
      ready_setReady cleared _ q _
    rw [if_pos hout, List.append_nil] at hsettled
    rw [if_pos hout]
    show onQueue q cleared.settled ++ ((cleared.heldOf q).map Held.entry ++ _) = _
    unfold lineup
    rw [hsettled, hheld, hready, hfirst, hback hout]
    by_cases hq : h.queue = q
    · subst hq
      simp [onQueue, Held.entry, Copy.entry]
    · simp [onQueue, Held.entry, Copy.entry, hq]
  · rw [if_neg hout] at hsettled ⊢
    show onQueue q cleared.settled ++ ((cleared.heldOf q).map Held.entry ++ _) = _
    unfold lineup
    rw [hsettled, hheld, hfirst]
    simp only [onQueue, List.filter_append, List.append_assoc]
    rfl

/-! ## All acts -/

/-- What leaves the lineup as it is and queues nothing keeps copies in line. -/
theorem InLine.of_eq {b' : Broker} (hb : InLine b ps) (hlineup : ∀ q, b'.lineup q = b.lineup q)
    (hqueued : b'.queued = b.queued) : InLine b' ps :=
  ⟨fun q => (hlineup q).trans (hb.lineup q), hqueued.trans hb.queued⟩

theorem InLine.give (hb : InLine b ps) (ho : Orderly b) {g : Nat} {c : Consumer} {copy : Copy} {rest : List Copy}
    (hg : Gives b g c copy rest) : InLine (b.give g c copy rest) ps := hb.of_eq (lineup_give ho hg) rfl

theorem InLine.spend (hb : InLine b ps) : InLine b.spend ps := hb.of_eq (fun _ => rfl) rfl

theorem InLine.append (hb : InLine b ps) (m : Message) (queue : String) :
    InLine (b.append m queue) (ps ++ [(queue, m)]) := by
  refine ⟨fun q => ?_, ?_⟩
  · rw [lineup_append, hb.lineup, numbered_append, hb.queued]
    simp only [onQueue, List.filter_append]
  · simp [Broker.append, setReady, hb.queued]

theorem InLine.alike {b' : Broker} (hb : InLine b ps) (h : Alike b b') : InLine b' ps :=
  hb.of_eq (lineup_congr h.resolutions h.held h.queues) h.queued

theorem queued_endSession (b : Broker) (g : Nat) : (b.endSession g).queued = b.queued := by
  obtain ⟨queues, -, heq⟩ := endSession_eq b g
  rw [heq]

theorem queued_settle (b : Broker) (h : Held) (outcome : Outcome) : (b.settle h outcome).queued = b.queued := by
  unfold settle
  split <;> rfl

/-- **Copies stay in line** by every act but opening a session, if nothing is resolved that is not due. -/
theorem inLine_run (ho : Orderly b) (hb : InLine b ps)
    (ha : ∀ receiver g notify, a ≠ .openSession receiver g notify)
    (hdue : ∀ h ∈ b.held, ∀ outcome, a = .resolve h.tag.generation h.tag.value outcome → Due b h outcome) :
    InLine (a.run b) (ps ++ a.routes b) := by
  by_cases hpublish : ∃ m, a = .publish m
  · obtain ⟨m, rfl⟩ := hpublish
    have hall := publish_tracks (P := fun b' ps => (Orderly b' ∧ Extends (.publish m) b b') ∧ InLine b' ps)
      (fun h => dispatch_keeps_orderly (P := fun b => InLine b _) (fun ho hb hg => hb.give ho hg) InLine.spend
        ⟨orderly_append m _ h.1, h.2.append m _⟩) ⟨⟨ho, extends_refl _ b⟩, hb⟩
    exact hall.2
  · rw [Act.routes_of_ne fun m hm => hpublish ⟨m, hm⟩, List.append_nil]
    exact (run_keeps_orderly (P := fun b => InLine b ps) ho hb ha
      (fun m hm => absurd ⟨m, hm⟩ hpublish)
      (fun h hh outcome ha => hb.of_eq (lineup_settle ho (hdue h hh outcome ha)) (queued_settle b h outcome))
      (fun ch id r _ hf => (forward?_frame hf).1 ▸ hb.of_eq (fun _ => rfl) rfl)
      (fun receiver ch _ => (grantTo_spec receiver ch.waiting b ch).1 ▸ hb.of_eq (fun _ => rfl) rfl)
      (fun _ _ _ => hb.of_eq (fun _ => rfl) rfl) (fun _ _ _ _ _ _ => hb.of_eq (fun _ => rfl) rfl)
      InLine.alike (fun ho hb hg => hb.give ho hg) InLine.spend
      fun g ho hb => hb.of_eq (lineup_endSession ho g) (queued_endSession _ g)).2

/-- Opening a session moves no copy. -/
theorem inLine_openSession (hb : InLine b ps) (receiver g : Nat) (notify : Bool) :
    InLine (openSession receiver g notify b).2 ps :=
  have hsame := unmoved_openSession receiver g notify b
  hb.of_eq (lineup_congr hsame.resolutions hsame.held hsame.queues) hsame.queued

theorem inLine_withExchanges (exchanges : List String) : InLine (.withExchanges exchanges) [] :=
  ⟨fun _ => rfl, rfl⟩

end Broker
end EventCourier
