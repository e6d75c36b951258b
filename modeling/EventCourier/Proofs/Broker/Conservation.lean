import EventCourier.Proofs.Broker.Act

/-!
# Copies are conserved

`routed` lists, for a sequence of acts, the copies that publishing put on queues, in order. As long as no
session is opened under a generation that still holds deliveries (`Proper`), every one of them is in exactly
one place, in its own queue or under one tag, with the message it was published with, and there are no others
(`copies_in_one_place`). The invariant behind this is `Coherent`; `coherent_run` shows that every act keeps it.
-/

namespace EventCourier
namespace Broker

open scoped List

variable {b : Broker} {ps : List (String × Message)}

/-- The entries of copies that were put on queues, numbered in order. -/
def numbered (ps : List (String × Message)) : List Entry := ps.mapIdx fun i p => ⟨i, p.1, p.2⟩

/-- The entry of one more copy comes last. -/
theorem numbered_append (ps : List (String × Message)) (q : String) (m : Message) :
    numbered (ps ++ [(q, m)]) = numbered ps ++ [⟨ps.length, q, m⟩] := by
  simp [numbered, List.mapIdx_append]

/-- The broker has exactly the copies that were put on queues: every queue has one list, no tag is held twice,
and the next number of the live session is beyond those of the tags it holds. -/
structure Coherent (b : Broker) (ps : List (String × Message)) : Prop where
  increasing : Dictionary.Increasing b.queues
  tags : (b.held.map (·.tag)).Nodup
  spent : ∀ h ∈ b.held, b.live = some h.tag.generation → h.tag.value ≤ b.nextTag
  entries : b.entries ~ numbered ps
  queued : b.queued = ps.length

/-! ## Handing out -/

/-- A number beyond those of a session is not held. -/
theorem fresh_of_spent {g : Nat} (hspent : ∀ h ∈ b.held, h.tag.generation = g → h.tag.value ≤ b.nextTag) :
    (⟨g, b.nextTag + 1⟩ : Tag) ∉ b.held.map (·.tag) := by
  intro hmem
  obtain ⟨h, hh, htag⟩ := List.mem_map.mp hmem
  have hle := hspent h hh (by rw [htag])
  rw [htag] at hle
  exact absurd hle (Nat.not_succ_le_self _)

/-- The number of a copy that is handed out is not held. -/
theorem Coherent.fresh (hb : Coherent b ps) {g : Nat} (hl : b.live = some g) :
    (⟨g, b.nextTag + 1⟩ : Tag) ∉ b.held.map (·.tag) :=
  fresh_of_spent fun h hh hg => hb.spent h hh (by rw [hg]; exact hl)

theorem coherent_give {g : Nat} {c : Consumer} {copy : Copy} {rest : List Copy} (hb : Coherent b ps)
    (hg : Gives b g c copy rest) : Coherent (b.give g c copy rest) ps := by
  have hheld : (b.give g c copy rest).held ~ b.nextHeld g c copy :: b.held := perm_hold (hb.fresh hg.live)
  refine ⟨Dictionary.increasing_insert _ _ hb.increasing, ?_, ?_, ?_, hb.queued⟩
  · exact (hheld.map _).nodup_iff.mpr (List.nodup_cons.mpr ⟨hb.fresh hg.live, hb.tags⟩)
  · intro h hh hl
    rcases List.mem_cons.mp (hheld.mem_iff.mp hh) with rfl | hold
    · exact Nat.le_refl _
    · exact Nat.le_succ_of_le (hb.spent h hold hl)
  · -- the copy leaves its queue and enters the table under its tag
    refine List.Perm.trans ?_ hb.entries
    calc (b.give g c copy rest).entries
      _ ~ (b.setReady c.queue rest).waiting ++ (copy.entry c.queue :: (b.held.map Held.entry ++ b.settled)) :=
        ((hheld.map Held.entry).append_right _).append_left _
      _ ~ copy.entry c.queue :: (b.setReady c.queue rest).waiting ++ (b.held.map Held.entry ++ b.settled) :=
        List.perm_middle
      _ ~ b.waiting ++ (b.held.map Held.entry ++ b.settled) :=
        (waiting_take hb.increasing hg.ready).append_right _

theorem coherent_spend (hb : Coherent b ps) : Coherent b.spend ps :=
  ⟨hb.increasing, hb.tags, fun h hh hl => Nat.le_succ_of_le (hb.spent h hh hl), hb.entries, hb.queued⟩

theorem coherent_dispatch (hb : Coherent b ps) : Coherent b.dispatch ps :=
  dispatch_keeps (P := fun b => Coherent b ps) coherent_give coherent_spend hb

/-! ## Publishing -/

theorem coherent_append (hb : Coherent b ps) (m : Message) (q : String) :
    Coherent (b.append m q) (ps ++ [(q, m)]) := by
  refine ⟨Dictionary.increasing_insert _ _ hb.increasing, hb.tags, hb.spent, ?_, ?_⟩
  · rw [numbered_append, ← hb.queued]
    calc (b.append m q).entries
      _ ~ (⟨b.queued, q, m⟩ : Entry) :: b.entries := (waiting_append hb.increasing q m).append_right _
      _ ~ (⟨b.queued, q, m⟩ : Entry) :: numbered ps := hb.entries.cons _
      _ ~ numbered ps ++ [(⟨b.queued, q, m⟩ : Entry)] := (List.perm_append_singleton _ _).symm
  · simp [append, setReady, hb.queued]

/-! ## Sessions -/

theorem coherent_endSession (hb : Coherent b ps) (g : Nat) : Coherent (b.endSession g) ps := by
  obtain ⟨queues, hqueues, heq⟩ := endSession_eq b g
  obtain ⟨hinc, hwait⟩ := hqueues hb.increasing
  have hsub : (b.others g).Sublist b.held := List.filter_sublist
  rw [heq]
  refine ⟨hinc, hb.tags.sublist (hsub.map _), ?_, ?_, hb.queued⟩
  · intro h hh hl
    dsimp only at hl ⊢
    by_cases hg : b.live = some g
    · rw [if_pos hg] at hl
      cases hl
    · rw [if_neg hg] at hl ⊢
      exact hb.spent h (hsub.subset hh) hl
  · -- what the session held waits again, what others hold stays
    refine List.Perm.trans ?_ hb.entries
    calc (({ b with queues := queues } : Broker).waiting ++ ((b.others g).map Held.entry ++ b.settled))
      _ ~ (b.orphans g).map Held.entry ++ b.waiting ++ ((b.others g).map Held.entry ++ b.settled) :=
        hwait.append_right _
      _ ~ b.waiting ++ (b.orphans g).map Held.entry ++ ((b.others g).map Held.entry ++ b.settled) :=
        List.perm_append_comm.append_right _
      _ = b.waiting ++ ((b.orphans g ++ b.others g).map Held.entry ++ b.settled) := by
        simp only [List.map_append, List.append_assoc]
      _ ~ b.waiting ++ (b.held.map Held.entry ++ b.settled) :=
        (((perm_orphans_others b g).map _).append_right _).append_left _

theorem coherent_openSession (hb : Coherent b ps) (receiver g : Nat) (notify : Bool) (hg : b.inFlight g = 0) :
    Coherent (openSession receiver g notify b).2 ps := by
  unfold openSession
  dsimp only
  split
  · exact ⟨hb.increasing, hb.tags, hb.spent, hb.entries, hb.queued⟩
  · refine ⟨hb.increasing, hb.tags, fun h hh hl => ?_, hb.entries, hb.queued⟩
    have hne := List.countP_eq_zero.mp hg h hh
    simp only [Option.some.injEq] at hl
    exact absurd (beq_iff_eq.mpr hl.symm) hne

/-- A delivery that is resolved goes back to its queue or is settled. -/
theorem coherent_settle (hb : Coherent b ps) {h : Held} (hh : h ∈ b.held) (outcome : Outcome) :
    Coherent (b.settle h outcome) ps := by
  let cleared : Broker := { b with
    held := b.held.filter fun k => k.tag ≠ h.tag
    resolutions := b.resolutions ++ [⟨h, outcome⟩] }
  have hsub : cleared.held.Sublist b.held := List.filter_sublist
  have htags : (cleared.held.map (·.tag)).Nodup := hb.tags.sublist (hsub.map _)
  have hspent : ∀ k ∈ cleared.held, b.live = some k.tag.generation → k.tag.value ≤ b.nextTag :=
    fun k hk hl => hb.spent k (hsub.subset hk) hl
  have hheld : (h :: cleared.held).map Held.entry ~ b.held.map Held.entry :=
    (perm_filter_tag hb.tags hh).map _
  have hsettled : cleared.settled = b.settled ++ if outcome = .reject true then [] else [h.entry] :=
    settled_append { b with held := cleared.held } ⟨h, outcome⟩
  unfold settle
  by_cases hout : outcome = .reject true
  · rw [if_pos hout] at hsettled ⊢
    rw [List.append_nil] at hsettled
    refine ⟨Dictionary.increasing_insert _ _ hb.increasing, htags, hspent, ?_, hb.queued⟩
    refine List.Perm.trans ?_ hb.entries
    calc (cleared.putBack h.queue { h.copy with redelivered := true }).entries
      _ ~ h.entry :: b.waiting ++ (cleared.held.map Held.entry ++ cleared.settled) :=
        (waiting_putBack (b := cleared) hb.increasing h.queue _).append_right _
      _ ~ b.waiting ++ (h.entry :: (cleared.held.map Held.entry ++ cleared.settled)) := List.perm_middle.symm
      _ = b.waiting ++ ((h :: cleared.held).map Held.entry ++ b.settled) := by rw [hsettled]; rfl
      _ ~ b.waiting ++ (b.held.map Held.entry ++ b.settled) := (hheld.append_right _).append_left _
  · rw [if_neg hout] at hsettled ⊢
    refine ⟨hb.increasing, htags, hspent, ?_, hb.queued⟩
    refine List.Perm.trans ?_ hb.entries
    calc cleared.entries
      _ = b.waiting ++ (cleared.held.map Held.entry ++ (b.settled ++ [h.entry])) := by rw [← hsettled]; rfl
      _ ~ b.waiting ++ (cleared.held.map Held.entry ++ (h.entry :: b.settled)) :=
        ((List.perm_append_singleton _ _).append_left _).append_left _
      _ ~ b.waiting ++ ((h :: cleared.held).map Held.entry ++ b.settled) := List.perm_middle.append_left _
      _ ~ b.waiting ++ (b.held.map Held.entry ++ b.settled) := (hheld.append_right _).append_left _

/-! ## All acts -/

/-- The copies that an act puts on queues: one for every binding with exactly the exchange and the routing key
of the message that is published. -/
def Act.routes (a : Act) (b : Broker) : List (String × Message) :=
  match a with
  | .publish m =>
    (b.bindings.filter fun t => t.exchange = m.exchange ∧ t.routingKey = m.routingKey).map fun t => (t.queue, m)
  | _ => []

/-- Only publishing puts copies on queues. -/
theorem Act.routes_of_ne {a : Act} (ha : ∀ m, a ≠ .publish m) (b : Broker) : a.routes b = [] := by
  cases a with
  | publish m => exact absurd rfl (ha m)
  | _ => rfl

/-- What is kept by queueing a copy, and told of the copies that were put on queues, is kept by publishing. -/
theorem publish_tracks {P : Broker → List (String × Message) → Prop} {m : Message}
    (henqueue : ∀ {b ps queue}, P b ps → P (enqueue m b queue) (ps ++ [(queue, m)])) (h : P b ps) :
    P (b.publish m) (ps ++ (Act.publish m).routes b) := by
  have hfold : ∀ (queues : List String) {b ps}, P b ps →
      P (queues.foldl (enqueue m) b) (ps ++ queues.map (·, m)) := by
    intro queues
    induction queues with
    | nil =>
      intro b ps h
      simpa using h
    | cons queue queues ih =>
      intro b ps h
      simpa using ih (henqueue h)
  have hall := hfold (b.routes m) h
  unfold Broker.routes at hall
  rw [List.map_map] at hall
  exact hall

/-- The copies that acts put on queues, in order. -/
def routed (b : Broker) : List Act → List (String × Message)
  | [] => []
  | a :: acts => a.routes b ++ routed (a.run b) acts

/-- No session is opened under a generation that still holds deliveries. -/
def Proper (b : Broker) : List Act → Prop
  | [] => True
  | a :: acts => (match a with
    | .openSession _ g _ => b.inFlight g = 0
    | _ => True) ∧ Proper (a.run b) acts

instance decidableProper : ∀ (b : Broker) (acts : List Act), Decidable (Proper b acts)
  | _, [] => .isTrue trivial
  | b, a :: acts =>
    have : Decidable (Proper (a.run b) acts) := decidableProper _ acts
    match a with
    | .openSession _ _ _ => inferInstanceAs (Decidable (_ ∧ _))
    | .publish _ | .drop _ | .refuseNext _ | .refuseAll | .assertExchange _ _ | .declareExchange _ _
    | .declareQueue _ _ | .setPrefetch _ _ | .consume _ _ _ _ | .resolve _ _ _ | .close _ | .forward _ _
    | .grant _ _ => inferInstanceAs (Decidable (True ∧ _))

theorem Coherent.alike {b' : Broker} (hb : Coherent b ps) (h : Alike b b') : Coherent b' ps := by
  obtain ⟨hlive, htag, hqueues, -, hheld, -, hres, hqueued, -, -⟩ := h
  refine ⟨hqueues ▸ hb.increasing, hheld ▸ hb.tags, ?_, ?_, hqueued.trans hb.queued⟩
  · rw [hheld, hlive, htag]
    exact hb.spent
  · have hentries : b'.entries = b.entries := by
      unfold Broker.entries waiting settled
      rw [hqueues, hheld, hres]
    rw [hentries]
    exact hb.entries

/-- Consumers hold no copies. -/
theorem Coherent.consumers (hb : Coherent b ps) (consumers : List Consumer) :
    Coherent { b with consumers := consumers } ps :=
  ⟨hb.increasing, hb.tags, hb.spent, hb.entries, hb.queued⟩

/-- Every act keeps the copies that were put on queues, and publishing adds to them. -/
theorem coherent_run (hb : Coherent b ps) (a : Act)
    (ha : ∀ receiver g notify, a = .openSession receiver g notify → b.inFlight g = 0) :
    Coherent (a.run b) (ps ++ a.routes b) := by
  match a with
  | .publish m => exact publish_tracks (P := Coherent) (fun hb => coherent_dispatch (coherent_append hb m _)) hb
  | .drop _ | .refuseNext _ | .refuseAll | .openSession _ _ _ | .assertExchange _ _ | .declareExchange _ _
  | .declareQueue _ _ | .setPrefetch _ _ | .consume _ _ _ _ | .resolve _ _ _ | .close _ | .forward _ _
  | .grant _ _ =>
    rw [show Act.routes _ b = [] from rfl, List.append_nil]
    exact run_keeps (P := fun b => Coherent b ps) hb (fun m h => by cases h)
      (fun receiver g notify h => coherent_openSession hb receiver g notify (ha receiver g notify h))
      (fun h hh outcome _ _ => coherent_settle hb hh outcome)
      (fun ch id r _ hf => (forward?_frame hf).1 ▸ hb.consumers _)
      (fun receiver ch _ => (grantTo_spec receiver ch.waiting b ch).1 ▸ hb.consumers _)
      (fun _ _ _ _ => ⟨hb.increasing, hb.tags, hb.spent, hb.entries, hb.queued⟩)
      (fun _ _ _ _ _ _ => ⟨hb.increasing, hb.tags, hb.spent, hb.entries, hb.queued⟩)
      Coherent.alike coherent_dispatch fun g hb => coherent_endSession hb g

/-- A broker without queues has no copies. -/
theorem coherent_withExchanges (exchanges : List String) : Coherent (.withExchanges exchanges) [] :=
  ⟨List.Pairwise.nil, List.nodup_nil, fun _ hh => (List.not_mem_nil hh).elim, .refl _, rfl⟩

/-- Acts keep the copies that were put on queues before, and have those they put there. -/
theorem coherent_after (acts : List Act) : ∀ {b : Broker} {ps : List (String × Message)}, Coherent b ps →
    Proper b acts → Coherent (b.after acts) (ps ++ routed b acts) := by
  induction acts with
  | nil =>
    intro b ps hb _
    simpa [routed, after] using hb
  | cons a acts ih =>
    intro b ps hb hp
    obtain ⟨ha, hacts⟩ := hp
    have hrun := coherent_run hb a fun receiver g notify h => by
      subst h
      exact ha
    have h := ih hrun hacts
    rwa [List.append_assoc] at h

/-! ## One place for every copy -/

/-- Among things with different keys, one key finds one thing. -/
theorem filter_key_eq {α β : Type} [DecidableEq β] {key : α → β} {l : List α} (hnd : (l.map key).Nodup) {x : α}
    (hx : x ∈ l) : (l.filter fun y => key y = key x) = [x] := by
  obtain ⟨before, after, rfl⟩ := List.append_of_mem hx
  have hmid : ((x :: (before ++ after)).map key).Nodup := (List.perm_middle.map key).nodup_iff.mp hnd
  have hnone : ∀ s : List α, (∀ y ∈ s, y ∈ before ++ after) → (s.filter fun y => key y = key x) = [] := by
    intro s hs
    refine List.filter_eq_nil_iff.mpr fun y hy hkey => ?_
    exact (List.nodup_cons.mp hmid).1 (List.mem_map.mpr ⟨y, hs y hy, of_decide_eq_true hkey⟩)
  rw [List.filter_append, List.filter_cons_of_pos (by simp), hnone before fun y hy => List.mem_append_left _ hy,
    hnone after fun y hy => List.mem_append_right _ hy]
  rfl

theorem map_serial_numbered (ps : List (String × Message)) :
    (numbered ps).map (·.serial) = List.range ps.length := by
  apply List.ext_getElem
  · simp [numbered]
  · intro i _ _
    simp [numbered]

/-- An entry is one of those numbered if its number leads to its queue and its message. -/
theorem mem_numbered {e : Entry} : e ∈ numbered ps ↔ ps[e.serial]? = some (e.queue, e.message) := by
  unfold numbered
  rw [List.mem_mapIdx]
  constructor
  · rintro ⟨i, hi, rfl⟩
    exact List.getElem?_eq_getElem hi
  · intro h
    obtain ⟨hi, hget⟩ := List.getElem?_eq_some_iff.mp h
    exact ⟨e.serial, hi, by rw [hget]⟩

/-- A copy that was put on a queue is in exactly one place. -/
theorem Coherent.one_place (hb : Coherent b ps) {i : Nat} {q : String} {m : Message} (h : ps[i]? = some (q, m)) :
    ∃ p, (b.whereabouts.filter fun x => x.1.serial = i) = [(⟨i, q, m⟩, p)] := by
  have hentries : b.whereabouts.map (·.1) ~ numbered ps := map_whereabouts b ▸ hb.entries
  have hserials : (b.whereabouts.map fun x => x.1.serial) ~ List.range ps.length := by
    have hmap := hentries.map (·.serial)
    rwa [List.map_map, map_serial_numbered] at hmap
  have hmem : (⟨i, q, m⟩ : Entry) ∈ b.whereabouts.map (·.1) := hentries.mem_iff.mpr (mem_numbered.mpr h)
  obtain ⟨⟨e, p⟩, hx, rfl⟩ := List.mem_map.mp hmem
  exact ⟨p, filter_key_eq (hserials.nodup_iff.mpr List.nodup_range) hx⟩

/-- There are no copies that were not put on a queue. -/
theorem Coherent.no_others (hb : Coherent b ps) {x : Entry × Place} (hx : x ∈ b.whereabouts) :
    ps[x.1.serial]? = some (x.1.queue, x.1.message) :=
  mem_numbered.mp (hb.entries.mem_iff.mp (map_whereabouts b ▸ List.mem_map_of_mem hx))

theorem routed_append (acts more : List Act) : ∀ b : Broker,
    routed b (acts ++ more) = routed b acts ++ routed (b.after acts) more := by
  induction acts with
  | nil => exact fun _ => rfl
  | cons a acts ih =>
    intro b
    simp only [List.cons_append, routed, ih, List.append_assoc]
    rfl

/-- **Copies are conserved.** After any acts in any order, every copy that publishing put on a queue is in
exactly one place, with its queue and its message; there are no other copies, and further acts put further
copies behind those. -/
theorem copies_in_one_place (exchanges : List String) (acts : List Act)
    (h : Proper (.withExchanges exchanges) acts) :
    (∀ i q m, (routed (.withExchanges exchanges) acts)[i]? = some (q, m) →
      ∃ p, ((after (.withExchanges exchanges) acts).whereabouts.filter fun x => x.1.serial = i) =
        [(⟨i, q, m⟩, p)]) ∧
    (∀ x ∈ (after (.withExchanges exchanges) acts).whereabouts,
      (routed (.withExchanges exchanges) acts)[x.1.serial]? = some (x.1.queue, x.1.message)) ∧
    ∀ more, routed (.withExchanges exchanges) acts <+: routed (.withExchanges exchanges) (acts ++ more) := by
  have hb := coherent_after acts (coherent_withExchanges exchanges) h
  rw [List.nil_append] at hb
  exact ⟨fun i q m hi => hb.one_place hi, fun x hx => hb.no_others hx,
    fun more => ⟨_, (routed_append acts more _).symm⟩⟩

/-- A session that still holds deliveries is replaced by another; the first goes on to be closed, and the second
resolves what it is given, once for good and once not. -/
def replacedSession : List Act :=
  [.openSession 0 1 true, .declareQueue 1 ⟨"a", "q", "k"⟩, .declareQueue 1 ⟨"a", "r", "k"⟩, .setPrefetch 1 2,
    .consume 0 1 "q" "first-q", .consume 0 1 "r" "first-r", .publish ⟨"a", "k", [1]⟩, .publish ⟨"a", "k", [2]⟩,
    .resolve 1 1 (.reject true), .openSession 0 2 true, .consume 0 2 "q" "second-q", .consume 0 2 "r" "second-r",
    .resolve 1 2 .ack, .close 1, .resolve 2 1 .ack, .resolve 2 2 (.reject false), .publish ⟨"a", "other", [3]⟩,
    .drop "cable pulled"]

/-- What the first session held waits again; of the other two copies one was acked and one was rejected. -/
theorem copies_in_one_place_replacedSession :
    let b := after (.withExchanges ["a"]) replacedSession
    Proper (.withExchanges ["a"]) replacedSession ∧
      (b.whereabouts.filter fun x => x.1.serial = 1) = [(⟨1, "r", ⟨"a", "k", [1]⟩⟩, .ready)] ∧
      (b.whereabouts.filter fun x => x.1.serial = 2) = [(⟨2, "q", ⟨"a", "k", [2]⟩⟩, .acked ⟨2, 1⟩)] ∧
      (b.whereabouts.filter fun x => x.1.serial = 3) = [(⟨3, "r", ⟨"a", "k", [2]⟩⟩, .rejected ⟨2, 2⟩)] := by
  intro b
  have hproper : Proper (.withExchanges ["a"]) replacedSession := by decide
  have hplace : ∀ i q m p, (routed (.withExchanges ["a"]) replacedSession)[i]? = some (q, m) →
      (⟨i, q, m⟩, p) ∈ b.whereabouts → (b.whereabouts.filter fun x => x.1.serial = i) = [(⟨i, q, m⟩, p)] := by
    intro i q m p hrouted hmem
    obtain ⟨p', hone⟩ := (copies_in_one_place ["a"] replacedSession hproper).1 i q m hrouted
    have hp : (⟨i, q, m⟩, p) ∈ b.whereabouts.filter fun x => x.1.serial = i :=
      List.mem_filter.mpr ⟨hmem, decide_eq_true rfl⟩
    rw [hone, List.mem_singleton] at hp
    rw [hone, hp]
  exact ⟨hproper, hplace 1 _ _ _ (by decide) (by decide), hplace 2 _ _ _ (by decide) (by decide),
    hplace 3 _ _ _ (by decide) (by decide)⟩

end Broker
end EventCourier
