import EventCourier.Proofs.Broker.Recovery

/-!
# Redelivered copies

A delivery is flagged as redelivered just if its copy was handed out before (`Flagged`). The flag is set on every way
back to a queue and then goes with the copy, so that a copy in a queue has it just if it is on the record of
hand-outs; deliveries under way are all on that record. `Recorded` says so of a broker, and every act keeps it
(`recorded_run`). A copy that was acked or rejected for good is in no queue any more, so nothing later on the record
is of it (`Retired`, `retired_run`). The two together make the flag exact (`redelivery_exact`).
-/

namespace EventCourier
namespace Broker

open scoped List

variable {b b' : Broker} {ps : List (String × Message)} {q : String}

/-- The numbers of the copies that were handed out. -/
def handed (b : Broker) : List Nat := b.issued.map (·.copy.serial)

/-- On a record of hand-outs, a copy is flagged just if it is on the record before. -/
def Flagged (issued : List Held) : Prop :=
  ∀ before h later, issued = before ++ h :: later →
    (h.copy.redelivered = true ↔ ∃ k ∈ before, k.copy.serial = h.copy.serial)

/-- What was handed out is flagged as it has to be and was put on queues; what waits is flagged if it was handed out;
what is held and what is under way was handed out. -/
structure Recorded (b : Broker) (ps : List (String × Message)) : Prop where
  flagged : Flagged b.issued
  ready : ∀ q, ∀ c ∈ b.ready q, (c.redelivered = true ↔ c.serial ∈ b.handed)
  held : ∀ h ∈ b.held, h.copy.serial ∈ b.handed
  known : ∀ h ∈ b.issued, h.entry ∈ numbered ps
  carried : ∀ d ∈ b.carried, d ∈ b.issued.map Held.delivery

/-- A copy was resolved for good, and since the record was `old` it was not handed out. -/
structure Retired (serial : Nat) (old : List Held) (b : Broker) : Prop where
  settled : serial ∈ b.settled.map (·.serial)
  silent : ∃ new, b.issued = old ++ new ∧ ∀ k ∈ new, k.copy.serial ≠ serial

/-! ## Copies by their numbers -/

/-- No two copies have one number. -/
theorem Coherent.serials (hb : Coherent b ps) : (b.entries.map (·.serial)).Nodup := by
  have hserials : b.entries.map (·.serial) ~ List.range ps.length := by
    rw [← map_serial_numbered]
    exact hb.entries.map _
  exact hserials.nodup_iff.mpr List.nodup_range

/-- A copy in a queue is one of those that wait. -/
theorem mem_waiting {c : Copy} (h : c ∈ b.ready q) : c.entry q ∈ b.waiting := by
  have hmem : ∀ {d : Dictionary (List Copy)}, c ∈ (d.get? q).getD [] →
      c.entry q ∈ d.flatMap fun e => e.2.map (Copy.entry e.1) := by
    intro d hd
    induction d with
    | nil => cases hd
    | cons e d ih =>
      obtain ⟨key, copies⟩ := e
      rw [List.flatMap_cons, List.mem_append]
      rw [Dictionary.get?] at hd
      by_cases hkey : key = q
      · rw [if_pos hkey] at hd
        subst hkey
        exact Or.inl (List.mem_map_of_mem hd)
      · rw [if_neg hkey] at hd
        exact Or.inr (ih hd)
  exact hmem h

/-- The next copy of a queue is no other copy that waits, and was not resolved. -/
theorem Coherent.next_serial (hb : Coherent b ps) {copy : Copy} {rest : List Copy}
    (hready : b.ready q = copy :: rest) :
    (∀ q', ∀ c ∈ (b.setReady q rest).ready q', c.serial ≠ copy.serial) ∧
      copy.serial ∉ b.settled.map (·.serial) := by
  have htake : copy.entry q :: ((b.setReady q rest).waiting ++ (b.held.map Held.entry ++ b.settled)) ~
      b.entries := (waiting_take hb.increasing hready).append_right _
  have hnodup := (htake.map (·.serial)).nodup_iff.mpr hb.serials
  obtain ⟨hnot, -⟩ := List.nodup_cons.mp hnodup
  simp only [List.map_append, List.mem_append, not_or] at hnot
  refine ⟨fun q' c hc heq => hnot.1 ?_, hnot.2.2⟩
  rw [show (copy.entry q).serial = (c.entry q').serial from heq.symm]
  exact List.mem_map_of_mem (mem_waiting hc)

/-! ## The record -/

theorem flagged_nil : Flagged [] := by
  intro before h later heq
  simp at heq

/-- One more hand-out is judged by all that are on the record. -/
theorem Flagged.concat {issued : List Held} {h : Held} (hissued : Flagged issued)
    (hh : h.copy.redelivered = true ↔ ∃ k ∈ issued, k.copy.serial = h.copy.serial) : Flagged (issued ++ [h]) := by
  intro before k later heq
  rcases List.eq_nil_or_concat later with rfl | ⟨init, last, rfl⟩
  · obtain ⟨rfl, hlast⟩ := List.append_inj' heq rfl
    cases hlast
    exact hh
  · rw [List.concat_eq_append, ← List.cons_append, ← List.append_assoc] at heq
    obtain ⟨rfl, -⟩ := List.append_inj' heq rfl
    exact hissued _ _ _ rfl

/-- A copy that was handed out was put on a queue. -/
theorem Recorded.lt_of_handed (hb : Recorded b ps) {i : Nat} (hi : i ∈ b.handed) : i < ps.length := by
  obtain ⟨h, hh, rfl⟩ := List.mem_map.mp hi
  exact (List.getElem?_eq_some_iff.mp (mem_numbered.mp (hb.known h hh))).1

/-- To send a delivery adds it to what is under way, and nothing else. -/
theorem mem_carriedBy_send {id : Nat} {d d' : Delivery} {consumers : List Consumer}
    (h : d' ∈ carriedBy (send id d consumers)) : d' = d ∨ d' ∈ carriedBy consumers := by
  obtain ⟨k, hk, hd'⟩ := List.mem_flatMap.mp h
  obtain ⟨c, hc, rfl⟩ := List.mem_map.mp hk
  split at hd'
  · rw [Consumer.carried, ← List.append_assoc] at hd'
    rcases List.mem_append.mp hd' with hin | hin
    · exact Or.inr (List.mem_flatMap.mpr ⟨c, hc, hin⟩)
    · exact Or.inl (List.mem_singleton.mp hin)
  · exact Or.inr (List.mem_flatMap.mpr ⟨c, hc, hd'⟩)

/-- A consumer that carries no more than it did adds nothing to what is under way. -/
theorem carried_setConsumer_subset {c c' : Consumer} (hc : c ∈ b.consumers) (h : c'.carried ⊆ c.carried) :
    (b.setConsumer c').carried ⊆ b.carried := by
  intro d hd
  obtain ⟨k, hk, hd⟩ := List.mem_flatMap.mp hd
  obtain ⟨k', hk', rfl⟩ := List.mem_map.mp hk
  split at hd
  · exact List.mem_flatMap.mpr ⟨c, hc, h hd⟩
  · exact List.mem_flatMap.mpr ⟨k', hk', hd⟩

/-- A move of a forwarder takes from what is under way, and what it takes to the channel was under way. -/
theorem forward?_subset {ch ch' : Channel} {id : Nat} (h : b.forward? ch id = some (b', ch')) :
    b'.carried ⊆ b.carried ∧ ∃ moved, ch'.buffer = ch.buffer ++ moved ∧ moved ⊆ b.carried := by
  obtain ⟨c, c', moved, gone, hc, rfl, hmove⟩ := forward?_some h
  have hmem : c ∈ b.consumers := List.mem_of_find?_eq_some hc
  refine ⟨carried_setConsumer_subset hmem ?_, moved, hmove.buffer, fun d hd => ?_⟩
  · rw [hmove.carried]
    exact fun d hd => List.mem_append_left _ (List.mem_append_right _ hd)
  · refine List.mem_flatMap.mpr ⟨c, hmem, ?_⟩
    rw [hmove.carried]
    exact List.mem_append_left _ (List.mem_append_left _ hd)

theorem grantTo_subset (receiver : Nat) (ids : List Nat) (b : Broker) (ch : Channel) :
    (b.grantTo receiver ids ch).2.1.carried ⊆ b.carried := by
  refine grantTo_keeps (P := fun b' => b'.carried ⊆ b.carried) receiver (fun h hc hf => ?_) ids ch
    fun _ hd => hd
  refine List.Subset.trans (carried_setConsumer_subset hc fun d hd => ?_) h
  rw [Consumer.carried, hf]
  exact hd

/-! ## What acts keep of all copies -/

theorem Alike.unmoved (h : Alike b b') : Unmoved b b' :=
  ⟨h.queues, h.consumers, h.held, h.issued, h.resolutions, h.queued⟩

/-- Every act keeps the copies and what is kept, as long as they are, by the things that acts consist of: moving
nothing, passing deliveries on, queueing, handing out, and the ends of a delivery and of a session. -/
theorem run_keeps_coherent {P : Broker → List (String × Message) → Prop} (a : Act) (hb : Coherent b ps)
    (hp : P b ps) (ha : ∀ receiver g notify, a = .openSession receiver g notify → b.inFlight g = 0)
    (hsame : ∀ {b b' ps}, P b ps → Unmoved b b' → P b' ps)
    (hpass : ∀ {b ps} {consumers : List Consumer}, P b ps → carriedBy consumers ⊆ b.carried →
      P { b with consumers := consumers } ps)
    (happend : ∀ {b ps} m queue, Coherent b ps → P b ps → P (b.append m queue) (ps ++ [(queue, m)]))
    (hgive : ∀ {b ps g c copy rest}, Coherent b ps → P b ps → Gives b g c copy rest →
      P (b.give g c copy rest) ps)
    (hsettle : ∀ h ∈ b.held, ∀ outcome, P (b.settle h outcome) ps)
    (hend : ∀ {b ps} g, P b ps → P (b.endSession g) ps) :
    Coherent (a.run b) (ps ++ a.routes b) ∧ P (a.run b) (ps ++ a.routes b) := by
  have hdispatch : ∀ {b ps}, Coherent b ps ∧ P b ps → Coherent b.dispatch ps ∧ P b.dispatch ps := by
    intro b ps h
    exact dispatch_keeps (P := fun b => Coherent b ps ∧ P b ps)
      (fun h hg => ⟨coherent_give h.1 hg, hgive h.1 h.2 hg⟩)
      (fun h => ⟨coherent_spend h.1, hsame h.2 ⟨rfl, rfl, rfl, rfl, rfl, rfl⟩⟩) h
  by_cases hpublish : ∃ m, a = .publish m
  · obtain ⟨m, rfl⟩ := hpublish
    exact publish_tracks (P := fun b ps => Coherent b ps ∧ P b ps)
      (fun h => hdispatch ⟨coherent_append h.1 m _, happend m _ h.1 h.2⟩) ⟨hb, hp⟩
  · rw [Act.routes_of_ne fun m hm => hpublish ⟨m, hm⟩, List.append_nil]
    refine run_keeps (P := fun b => Coherent b ps ∧ P b ps) ⟨hb, hp⟩ (fun m hm => absurd ⟨m, hm⟩ hpublish)
      ?opened ?settled ?forwarded ?granted ?limited ?subscribed
      (fun h hsm => ⟨h.1.alike hsm, hsame h.2 hsm.unmoved⟩) hdispatch
      fun g h => ⟨coherent_endSession h.1 g, hend g h.2⟩
    case opened =>
      intro receiver g notify h
      exact ⟨coherent_openSession hb receiver g notify (ha receiver g notify h),
        hsame hp (unmoved_openSession receiver g notify b)⟩
    case settled => exact fun h hh outcome _ _ => ⟨coherent_settle hb hh outcome, hsettle h hh outcome⟩
    case forwarded =>
      intro ch id r _ hf
      rw [(forward?_frame hf).1]
      exact ⟨hb.consumers _, hpass hp (forward?_subset hf).1⟩
    case granted =>
      intro receiver ch _
      rw [(grantTo_spec receiver ch.waiting b ch).1]
      exact ⟨hb.consumers _, hpass hp (grantTo_subset receiver ch.waiting b ch)⟩
    case limited =>
      intro g count _ _
      exact ⟨⟨hb.increasing, hb.tags, hb.spent, hb.entries, hb.queued⟩, hsame hp ⟨rfl, rfl, rfl, rfl, rfl, rfl⟩⟩
    case subscribed =>
      intro receiver g queue consumerTag _ _
      refine ⟨⟨hb.increasing, hb.tags, hb.spent, hb.entries, hb.queued⟩, ?_⟩
      have hcarried : carriedBy (b.subscribe receiver g queue consumerTag).consumers ⊆ b.carried := by
        simp [carriedBy, carried, subscribe, Consumer.carried, Forwarder.inHand]
      exact hsame (hpass hp hcarried) ⟨rfl, rfl, rfl, rfl, rfl, rfl⟩

/-! ## What keeps the record -/

namespace Recorded

theorem unmoved (hb : Recorded b ps) (h : Unmoved b b') : Recorded b' ps := by
  have hready : ∀ q, b'.ready q = b.ready q := fun q => by rw [Broker.ready, h.queues, ← Broker.ready]
  have hhanded : b'.handed = b.handed := by rw [handed, h.issued, ← handed]
  refine ⟨h.issued ▸ hb.flagged, fun q => ?_, ?_, h.issued ▸ hb.known, ?_⟩
  · rw [hready, hhanded]
    exact hb.ready q
  · rw [h.held, hhanded]
    exact hb.held
  · rw [Broker.carried, h.consumers, h.issued]
    exact hb.carried

/-- Less under way is on the record as well. -/
theorem pass (hb : Recorded b ps) {consumers : List Consumer} (h : carriedBy consumers ⊆ b.carried) :
    Recorded { b with consumers := consumers } ps :=
  ⟨hb.flagged, hb.ready, hb.held, hb.known, fun d hd => hb.carried d (h hd)⟩

/-- A new copy has a number that was not handed out. -/
theorem append (hb : Recorded b ps) (hc : Coherent b ps) (m : Message) (queue : String) :
    Recorded (b.append m queue) (ps ++ [(queue, m)]) := by
  have hready : ∀ q, (b.append m queue).ready q =
      if queue = q then b.ready queue ++ [⟨b.queued, m, false⟩] else b.ready q :=
    fun q => ready_setReady b queue q _
  refine ⟨hb.flagged, fun q c hmem => ?_, hb.held, fun h hh => ?_, hb.carried⟩
  · rw [hready] at hmem
    by_cases hq : queue = q
    · rw [if_pos hq] at hmem
      rcases List.mem_append.mp hmem with hold | hnew
      · exact hb.ready queue c hold
      · rw [List.mem_singleton.mp hnew]
        refine ⟨nofun, fun hin => ?_⟩
        have hlt : b.queued < ps.length := hb.lt_of_handed hin
        rw [hc.queued] at hlt
        exact absurd hlt (Nat.lt_irrefl _)
    · rw [if_neg hq] at hmem
      exact hb.ready q c hmem
  · rw [numbered_append]
    exact List.mem_append_left _ (hb.known h hh)

/-- A copy is handed out with the flag it had in its queue, where no other copy has its number. -/
theorem give (hb : Recorded b ps) (hc : Coherent b ps) {g : Nat} {c : Consumer} {copy : Copy} {rest : List Copy}
    (hg : Gives b g c copy rest) : Recorded (b.give g c copy rest) ps := by
  obtain ⟨hothers, -⟩ := hc.next_serial hg.ready
  have hcopy : copy ∈ b.ready c.queue := by rw [hg.ready]; exact List.mem_cons_self
  have hhanded : (b.give g c copy rest).handed = b.handed ++ [copy.serial] := List.map_append ..
  refine ⟨hb.flagged.concat ?_, fun q c' hc' => ?_, fun h hh => ?_, fun h hh => ?_, fun d hd => ?_⟩
  · show copy.redelivered = true ↔ _
    rw [hb.ready c.queue copy hcopy, handed, List.mem_map]
    rfl
  · have hold : c' ∈ b.ready q := by
      have hmem : c' ∈ (b.setReady c.queue rest).ready q := hc'
      rw [ready_setReady] at hmem
      by_cases hq : c.queue = q
      · rw [if_pos hq] at hmem
        rw [← hq, hg.ready]
        exact List.mem_cons_of_mem _ hmem
      · rwa [if_neg hq] at hmem
    have hne : c'.serial ≠ copy.serial := hothers q c' hc'
    rw [hb.ready q c' hold, hhanded]
    simp [hne]
  · rw [hhanded]
    rcases mem_hold hh with rfl | hh
    · exact List.mem_append_right _ (List.mem_singleton_self _)
    · exact List.mem_append_left _ (hb.held h hh)
  · rcases List.mem_append.mp hh with hh | hh
    · exact hb.known h hh
    · rw [List.mem_singleton.mp hh]
      exact hc.entries.mem_iff.mp (List.mem_append_left _ (mem_waiting hcopy))
  · show d ∈ (b.issued ++ [b.nextHeld g c copy]).map Held.delivery
    rw [List.map_append, List.mem_append]
    rcases mem_carriedBy_send hd with rfl | hd
    · exact Or.inr (List.mem_singleton_self _)
    · exact Or.inl (hb.carried d hd)

/-- A copy that goes back to its queue is flagged. -/
theorem putBack (hb : Recorded b ps) {h : Held} (hh : h.copy.serial ∈ b.handed) :
    Recorded (b.putBack h.queue { h.copy with redelivered := true }) ps := by
  refine ⟨hb.flagged, fun q c hc => ?_, hb.held, hb.known, hb.carried⟩
  have hready : (b.putBack h.queue { h.copy with redelivered := true }).ready q =
      if h.queue = q then { h.copy with redelivered := true } :: b.ready h.queue else b.ready q :=
    ready_setReady b h.queue q _
  rw [hready] at hc
  by_cases hq : h.queue = q
  · rw [if_pos hq] at hc
    rcases List.mem_cons.mp hc with rfl | hc
    · exact ⟨fun _ => hh, fun _ => rfl⟩
    · exact hb.ready h.queue c hc
  · rw [if_neg hq] at hc
    exact hb.ready q c hc

theorem settle (hb : Recorded b ps) {h : Held} (hh : h ∈ b.held) (outcome : Outcome) :
    Recorded (b.settle h outcome) ps := by
  have hcleared : Recorded { b with
      held := b.held.filter fun k => k.tag ≠ h.tag
      resolutions := b.resolutions ++ [⟨h, outcome⟩] } ps :=
    ⟨hb.flagged, hb.ready, fun k hk => hb.held k (List.mem_filter.mp hk).1, hb.known, hb.carried⟩
  unfold Broker.settle
  split
  · exact hcleared.putBack (hb.held h hh)
  · exact hcleared

theorem putBackAll (hb : Recorded b ps) {orphans : List Held} (h : ∀ k ∈ orphans, k.copy.serial ∈ b.handed) :
    Recorded (b.putBackAll orphans) ps := by
  induction orphans with
  | nil => exact hb
  | cons k orphans ih =>
    obtain ⟨hk, horphans⟩ := List.forall_mem_cons.mp h
    have hhanded : (b.putBackAll orphans).handed = b.handed := by
      rw [putBackAll_frame]
      rfl
    exact (ih horphans).putBack (by rwa [hhanded])

theorem endSession (hb : Recorded b ps) (g : Nat) : Recorded (b.endSession g) ps := by
  have hcleared : Recorded { b with
      consumers := b.consumers.filter fun c => c.generation != g
      held := b.others g } ps := by
    refine ⟨hb.flagged, hb.ready, fun k hk => hb.held k (List.mem_filter.mp hk).1, hb.known, fun d hd => ?_⟩
    obtain ⟨c, hc, hd⟩ := List.mem_flatMap.mp hd
    exact hb.carried d (List.mem_flatMap.mpr ⟨c, (List.mem_filter.mp hc).1, hd⟩)
  have horphans : ∀ k ∈ b.orphans g, k.copy.serial ∈ b.handed :=
    fun k hk => hb.held k (List.mem_filter.mp hk).1
  have hback := hcleared.putBackAll horphans
  unfold Broker.endSession
  dsimp only
  split
  · exact hback.unmoved ⟨rfl, rfl, rfl, rfl, rfl, rfl⟩
  · exact hback

end Recorded

theorem recorded_withExchanges (exchanges : List String) : Recorded (.withExchanges exchanges) [] :=
  ⟨flagged_nil, fun _ => nofun, nofun, nofun, nofun⟩

/-- Every act keeps the record exact. -/
theorem recorded_run (hc : Coherent b ps) (hb : Recorded b ps) (a : Act)
    (ha : ∀ receiver g notify, a = .openSession receiver g notify → b.inFlight g = 0) :
    Recorded (a.run b) (ps ++ a.routes b) :=
  (run_keeps_coherent (P := Recorded) a hc hb ha Recorded.unmoved (fun hb h => hb.pass h)
    (fun m queue hc hb => hb.append hc m queue) (fun hc hb hg => hb.give hc hg)
    (fun _ hh outcome => hb.settle hh outcome) fun g hb => hb.endSession g).2

/-! ## What was resolved for good -/

theorem settled_settle (b : Broker) (h : Held) (outcome : Outcome) :
    (b.settle h outcome).settled = b.settled ++ if outcome = .reject true then [] else [h.entry] := by
  refine Eq.trans ?_ (settled_append b ⟨h, outcome⟩)
  unfold settle
  split <;> rfl

theorem issued_settle (b : Broker) (h : Held) (outcome : Outcome) : (b.settle h outcome).issued = b.issued := by
  unfold settle
  split <;> rfl

namespace Retired

variable {serial : Nat} {old : List Held}

theorem unmoved (hb : Retired serial old b) (h : Unmoved b b') : Retired serial old b' := by
  refine ⟨?_, h.issued ▸ hb.silent⟩
  rw [Broker.settled, h.resolutions]
  exact hb.settled

/-- What is handed out waited, so it was not resolved. -/
theorem give (hb : Retired serial old b) (hc : Coherent b ps) {g : Nat} {c : Consumer} {copy : Copy}
    {rest : List Copy} (hg : Gives b g c copy rest) : Retired serial old (b.give g c copy rest) := by
  obtain ⟨new, hissued, hnew⟩ := hb.silent
  refine ⟨hb.settled, new ++ [b.nextHeld g c copy], ?_, fun k hk => ?_⟩
  · show b.issued ++ _ = _
    rw [hissued, List.append_assoc]
  · rcases List.mem_append.mp hk with hk | hk
    · exact hnew k hk
    · rw [List.mem_singleton.mp hk]
      rintro rfl
      exact (hc.next_serial hg.ready).2 hb.settled

theorem settle (hb : Retired serial old b) (h : Held) (outcome : Outcome) :
    Retired serial old (b.settle h outcome) := by
  refine ⟨?_, issued_settle b h outcome ▸ hb.silent⟩
  rw [settled_settle, List.map_append]
  exact List.mem_append_left _ hb.settled

theorem endSession (hb : Retired serial old b) (g : Nat) : Retired serial old (b.endSession g) := by
  obtain ⟨queues, -, heq⟩ := endSession_eq b g
  rw [heq]
  exact ⟨hb.settled, hb.silent⟩

end Retired

/-- No act hands out a copy that was resolved for good. -/
theorem retired_run {serial : Nat} {old : List Held} (hc : Coherent b ps) (hb : Retired serial old b) (a : Act)
    (ha : ∀ receiver g notify, a = .openSession receiver g notify → b.inFlight g = 0) :
    Retired serial old (a.run b) :=
  (run_keeps_coherent (P := fun b _ => Retired serial old b) a hc hb ha Retired.unmoved
    (fun hb _ => ⟨hb.settled, hb.silent⟩) (fun _ _ _ hb => ⟨hb.settled, hb.silent⟩)
    (fun hc hb hg => hb.give hc hg) (fun h _ outcome => hb.settle h outcome) fun g hb => hb.endSession g).2

/-- To resolve a delivery for good retires its copy, whatever is handed out then. -/
theorem retired_resolve (hc : Coherent b ps) {h : Held} (hh : h ∈ b.held) (hl : b.live = some h.tag.generation)
    {outcome : Outcome} (hout : outcome ≠ .reject true) :
    Retired h.copy.serial b.issued ((Act.resolve h.tag.generation h.tag.value outcome).run b) := by
  have hsettled : Retired h.copy.serial b.issued (b.settle h outcome) := by
    refine ⟨?_, [], ?_, nofun⟩
    · rw [settled_settle, if_neg hout, List.map_append]
      exact List.mem_append_right _ (List.mem_singleton_self _)
    · rw [issued_settle, List.append_nil]
  show Retired _ _ (resolve h.tag.generation h.tag.value outcome b).2
  rcases resolve_eq b h.tag.generation h.tag.value outcome with ⟨-, hnot⟩ | ⟨k, hk, htag, -, heq⟩
  · exact absurd rfl (hnot hl h hh)
  · obtain rfl : k = h := List.inj_on_of_nodup_map hc.tags hk hh htag
    rw [heq]
    exact (dispatch_keeps (P := fun b => Coherent b ps ∧ Retired k.copy.serial _ b)
      (fun h hg => ⟨coherent_give h.1 hg, h.2.give h.1 hg⟩)
      (fun h => ⟨coherent_spend h.1, h.2.unmoved ⟨rfl, rfl, rfl, rfl, rfl, rfl⟩⟩)
      ⟨coherent_settle hc hk outcome, hsettled⟩).2

/-! ## Runs -/

theorem after_append (b : Broker) (acts more : List Act) : b.after (acts ++ more) = (b.after acts).after more :=
  List.foldl_append

theorem proper_append {acts more : List Act} :
    Proper b (acts ++ more) ↔ Proper b acts ∧ Proper (b.after acts) more := by
  induction acts generalizing b with
  | nil => simp [Proper, after]
  | cons a acts ih =>
    show _ ∧ Proper (a.run b) (acts ++ more) ↔ (_ ∧ Proper (a.run b) acts) ∧ _
    rw [ih, and_assoc]
    rfl

/-- What is kept by every act on all copies is kept by acts one after the other. -/
theorem after_keeps_coherent {P : Broker → List (String × Message) → Prop}
    (hrun : ∀ {b ps} (a : Act), Coherent b ps → P b ps →
      (∀ receiver g notify, a = .openSession receiver g notify → b.inFlight g = 0) →
      P (a.run b) (ps ++ a.routes b))
    (acts : List Act) : ∀ {b ps}, Coherent b ps → P b ps → Proper b acts →
      P (b.after acts) (ps ++ routed b acts) := by
  induction acts with
  | nil =>
    intro b ps _ hp _
    simpa [routed, after] using hp
  | cons a acts ih =>
    intro b ps hb hp hproper
    obtain ⟨ha, hacts⟩ := hproper
    have hfirst : ∀ receiver g notify, a = .openSession receiver g notify → b.inFlight g = 0 := by
      rintro receiver g notify rfl
      exact ha
    have h := ih (coherent_run hb a hfirst) (hrun a hb hp hfirst) hacts
    rwa [List.append_assoc] at h

/-- **Redelivery is exact.** After any acts in any order, of any two hand-outs of one copy the later one is flagged as
redelivered, and no others are; everything under way to a receiver and everything a forwarder puts into a channel is a
delivery of one of these. What is acked or rejected for good is not handed out from then on. -/
theorem redelivery_exact (exchanges : List String) (acts : List Act)
    (h : Proper (.withExchanges exchanges) acts) :
    (∀ before k later, (after (.withExchanges exchanges) acts).issued = before ++ k :: later →
      (k.copy.redelivered = true ↔ ∃ k' ∈ before, k'.copy.serial = k.copy.serial)) ∧
    (∀ k ∈ (after (.withExchanges exchanges) acts).issued,
      (routed (.withExchanges exchanges) acts)[k.copy.serial]? = some (k.queue, k.copy.message)) ∧
    (∀ d ∈ (after (.withExchanges exchanges) acts).carried,
      ∃ k ∈ (after (.withExchanges exchanges) acts).issued, d = k.delivery) ∧
    (∀ ch id b ch', (after (.withExchanges exchanges) acts).forward? ch id = some (b, ch') →
      ∃ moved, ch'.buffer = ch.buffer ++ moved ∧
        ∀ d ∈ moved, ∃ k ∈ (after (.withExchanges exchanges) acts).issued, d = k.delivery) ∧
    ∀ k ∈ (after (.withExchanges exchanges) acts).held, ∀ outcome ≠ .reject true, ∀ more,
      (after (.withExchanges exchanges) acts).live = some k.tag.generation →
      Proper (.withExchanges exchanges) (acts ++ .resolve k.tag.generation k.tag.value outcome :: more) →
      ∃ new, (after (.withExchanges exchanges)
          (acts ++ .resolve k.tag.generation k.tag.value outcome :: more)).issued =
        (after (.withExchanges exchanges) acts).issued ++ new ∧ ∀ k' ∈ new, k'.copy.serial ≠ k.copy.serial := by
  have hc := coherent_after acts (coherent_withExchanges exchanges) h
  have hb := after_keeps_coherent (P := Recorded) (fun a hc hb ha => recorded_run hc hb a ha) acts
    (coherent_withExchanges exchanges) (recorded_withExchanges exchanges) h
  rw [List.nil_append] at hc hb
  have hcarried : ∀ d ∈ (after (.withExchanges exchanges) acts).carried,
      ∃ k ∈ (after (.withExchanges exchanges) acts).issued, d = k.delivery := by
    intro d hd
    obtain ⟨k, hk, rfl⟩ := List.mem_map.mp (hb.carried d hd)
    exact ⟨k, hk, rfl⟩
  refine ⟨hb.flagged, fun k hk => mem_numbered.mp (hb.known k hk), hcarried, ?_, ?_⟩
  · intro ch id b ch' hf
    obtain ⟨-, moved, hbuffer, hmoved⟩ := forward?_subset hf
    exact ⟨moved, hbuffer, fun d hd => hcarried d (hmoved hd)⟩
  · intro k hk outcome hout more hl hproper
    obtain ⟨-, -, hmore⟩ := proper_append.mp hproper
    rw [after_append]
    have hresolved := retired_resolve hc hk hl hout
    have hcoherent := coherent_run hc (.resolve k.tag.generation k.tag.value outcome) fun _ _ _ h => by cases h
    exact (after_keeps_coherent (P := fun b _ => Retired k.copy.serial _ b)
      (fun a hc hb ha => retired_run hc hb a ha) more hcoherent hresolved hmore).silent

/-- Two copies go back to their queue in every way there is: the first is rejected, their session is replaced and
then closed, and the one after that is lost. -/
def returned : List Act :=
  [.openSession 0 1 true, .declareQueue 1 ⟨"a", "q", "k"⟩, .consume 0 1 "q" "first", .publish ⟨"a", "k", [1]⟩,
    .publish ⟨"a", "k", [2]⟩, .resolve 1 1 (.reject true), .openSession 0 2 true, .close 1,
    .consume 0 2 "q" "second", .drop "cable pulled", .openSession 0 3 true, .consume 0 3 "q" "third"]

/-- The second copy, the last time it is handed out. -/
def lastHandOut : Held := ⟨⟨3, 1⟩, "q", ⟨1, ⟨"a", "k", [2]⟩, true⟩⟩

theorem redelivery_exact_returned :
    Proper (.withExchanges ["a"]) returned ∧
      ((after (.withExchanges ["a"]) returned).issued.map fun k => (k.tag.generation, k.copy.serial)) =
        [(1, 0), (1, 1), (1, 0), (2, 1), (2, 0), (3, 1), (3, 0)] ∧
      (∃ k ∈ (after (.withExchanges ["a"]) returned).issued.take 5, k.copy.serial = lastHandOut.copy.serial) ∧
      ∃ new, (after (.withExchanges ["a"]) (returned ++ .resolve 3 1 .ack ::
          [.drop "again", .openSession 0 4 true, .consume 0 4 "q" "fourth"])).issued =
        (after (.withExchanges ["a"]) returned).issued ++ new ∧
          ∀ k ∈ new, k.copy.serial ≠ lastHandOut.copy.serial := by
  have hproper : Proper (.withExchanges ["a"]) returned := by decide
  obtain ⟨hflagged, -, -, -, hretired⟩ := redelivery_exact ["a"] returned hproper
  refine ⟨hproper, by decide, ?_, ?_⟩
  · refine (hflagged _ lastHandOut ((after (.withExchanges ["a"]) returned).issued.drop 6) ?_).mp rfl
    decide
  · exact hretired lastHandOut (by decide) .ack nofun _ (by decide) (by decide)

end Broker
end EventCourier
