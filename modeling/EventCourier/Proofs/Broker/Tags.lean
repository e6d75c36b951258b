import EventCourier.Proofs.Broker.Act

/-!
# Tags are handed out once

As long as a session is opened only when there is none, and under a generation beyond all tags (`orderly_open`),
no tag is handed out twice, and what was handed out is held by the live session, resolved, or gone with its
session: `Orderly`. Every other act keeps that, and what it adds to what was handed out, carried and resolved
is told by `Extends` (`orderly_run`).
-/

namespace EventCourier
namespace Broker

open scoped List

variable {a : Act} {b b₀ b' : Broker}

/-- Tags are handles of one hand-out: what is held is of the live session; what is held or resolved was handed
out, and no two under one tag; the next tag is beyond all of them. Consumers have identifiers of their own, and are
those of the live session. -/
structure Orderly (b : Broker) : Prop where
  live : ∀ h ∈ b.held, b.live = some h.tag.generation
  handles : ∃ gone, b.held ++ b.resolutions.map (·.held) ++ gone ~ b.issued
  once : (b.issued.map (·.tag)).Nodup
  fresh : ∀ g, b.live = some g → ∀ h ∈ b.issued,
    h.tag.generation < g ∨ h.tag.generation = g ∧ h.tag.value ≤ b.nextTag
  ids : (b.consumers.map (·.id)).Nodup
  below : ∀ c ∈ b.consumers, c.id < b.subscribed
  attended : ∀ c ∈ b.consumers, b.live = some c.generation

/-- What a broker `b` has handed out until it is `b'`: only its live session did, and it is carried unless it is
gone. -/
inductive HandedOut (b b' : Broker) : Prop where
  | intro (new : List Held) (gone : List Delivery) (issued : b'.issued = b.issued ++ new)
      (live : ∀ h ∈ new, b.live = some h.tag.generation)
      (carried : b'.carried ++ gone ~ b.carried ++ new.map Held.delivery)

/-- What an act adds to what was handed out, and to what was resolved: only resolving a delivery that the live
session holds resolves it. -/
structure Extends (a : Act) (b b' : Broker) : Prop where
  live : b'.live = b.live ∨ b'.live = none
  handedOut : HandedOut b b'
  resolved : b'.resolutions = b.resolutions ∨ ∃ h ∈ b.held, ∃ outcome,
    a = .resolve h.tag.generation h.tag.value outcome ∧ b.live = some h.tag.generation ∧
      b'.resolutions = b.resolutions ++ [⟨h, outcome⟩]

theorem orderly_withExchanges (exchanges : List String) : Orderly (.withExchanges exchanges) where
  live _ hh := absurd hh List.not_mem_nil
  handles := ⟨[], .refl _⟩
  once := List.nodup_nil
  fresh _ hl := by cases hl
  ids := List.nodup_nil
  below _ hc := absurd hc List.not_mem_nil
  attended _ hc := absurd hc List.not_mem_nil

namespace Orderly

/-- What is held and what was resolved was handed out. -/
theorem issued_of_held (hb : Orderly b) {h : Held} (hh : h ∈ b.held) : h ∈ b.issued := by
  obtain ⟨gone, hgone⟩ := hb.handles
  exact hgone.mem_iff.mp (List.mem_append_left _ (List.mem_append_left _ hh))

theorem issued_of_resolved (hb : Orderly b) {r : Resolution} (hr : r ∈ b.resolutions) : r.held ∈ b.issued := by
  obtain ⟨gone, hgone⟩ := hb.handles
  exact hgone.mem_iff.mp (List.mem_append_left _ (List.mem_append_right _ (List.mem_map_of_mem hr)))

/-- No tag is held or resolved twice. -/
theorem tags (hb : Orderly b) : ((b.held ++ b.resolutions.map (·.held)).map (·.tag)).Nodup := by
  obtain ⟨gone, hgone⟩ := hb.handles
  have hall : ((b.held ++ b.resolutions.map (·.held) ++ gone).map (·.tag)).Nodup :=
    (hgone.map _).nodup_iff.mpr hb.once
  rw [List.map_append] at hall
  exact hall.of_append_left

theorem held_tags (hb : Orderly b) : (b.held.map (·.tag)).Nodup := by
  have h := hb.tags
  rw [List.map_append] at h
  exact h.of_append_left

theorem resolved_tags (hb : Orderly b) : (b.resolutions.map (·.held.tag)).Nodup := by
  have h := hb.tags
  rw [List.map_append, List.map_map] at h
  exact h.of_append_right

/-- A tag belongs to one hand-out. -/
theorem held_eq (hb : Orderly b) {h k : Held} (hh : h ∈ b.issued) (hk : k ∈ b.issued) (htag : h.tag = k.tag) :
    h = k :=
  List.inj_on_of_nodup_map hb.once hh hk htag

/-- The number of a copy that is handed out is new. -/
theorem next_tag (hb : Orderly b) {g : Nat} (hl : b.live = some g) :
    (⟨g, b.nextTag + 1⟩ : Tag) ∉ b.issued.map (·.tag) := by
  intro hmem
  obtain ⟨h, hh, htag⟩ := List.mem_map.mp hmem
  rcases hb.fresh g hl h hh with hlt | ⟨-, hle⟩
  · rw [htag] at hlt
    exact Nat.lt_irrefl _ hlt
  · rw [htag] at hle
    exact Nat.not_succ_le_self _ hle

end Orderly

/-- What some consumers carry is a part of what all carry. -/
theorem carried_filter (p : Consumer → Bool) (consumers : List Consumer) :
    ∃ gone, carriedBy (consumers.filter p) ++ gone ~ carriedBy consumers := by
  refine ⟨carriedBy (consumers.filter fun c => !p c), ?_⟩
  unfold carriedBy
  rw [← List.flatMap_append]
  exact (List.filter_append_perm p consumers).flatMap_right _

/-! ## What acts consist of -/

theorem handedOut_refl (b : Broker) : HandedOut b b :=
  ⟨[], [], by simp, fun _ hh => absurd hh List.not_mem_nil, by simp⟩

/-- Consumers that carry less have been handed out no more. -/
theorem HandedOut.of_eq (h : HandedOut b₀ b) (hissued : b'.issued = b.issued)
    (hcarried : ∃ gone, b'.carried ++ gone ~ b.carried) : HandedOut b₀ b' := by
  obtain ⟨new, gone, hnew, hlive, hperm⟩ := h
  obtain ⟨left, hleft⟩ := hcarried
  refine ⟨new, left ++ gone, hissued.trans hnew, hlive, ?_⟩
  rw [← List.append_assoc]
  exact (hleft.append_right _).trans hperm

/-- While no session is live nothing is handed out. -/
theorem HandedOut.issued_eq (h : HandedOut b b') (hl : b.live = none) : b'.issued = b.issued := by
  obtain ⟨new, gone, hissued, hlive, -⟩ := h
  cases new with
  | nil => rw [hissued, List.append_nil]
  | cons k new =>
    have hk := hlive k List.mem_cons_self
    rw [hl] at hk
    cases hk

/-- The same consumers carry the same. -/
theorem HandedOut.of_consumers (h : HandedOut b₀ b) (hissued : b'.issued = b.issued)
    (hconsumers : b'.consumers = b.consumers) : HandedOut b₀ b' :=
  h.of_eq hissued ⟨[], by rw [List.append_nil, carried, hconsumers]; exact .refl _⟩

theorem extends_refl (a : Act) (b : Broker) : Extends a b b where
  live := Or.inl rfl
  handedOut := handedOut_refl b
  resolved := Or.inl rfl

/-- A copy that is handed out is held and carried under a new tag. -/
theorem orderly_give {g : Nat} {c : Consumer} {copy : Copy} {rest : List Copy}
    (h : Orderly b ∧ Extends a b₀ b) (hg : Gives b g c copy rest) :
    Orderly (b.give g c copy rest) ∧ Extends a b₀ (b.give g c copy rest) := by
  obtain ⟨hb, hext⟩ := h
  have hnew := hb.next_tag hg.live
  have hheld : (b.give g c copy rest).held ~ b.nextHeld g c copy :: b.held :=
    perm_hold fun hmem => by
      obtain ⟨h, hh, htag⟩ := List.mem_map.mp hmem
      exact hnew (List.mem_map.mpr ⟨h, hb.issued_of_held hh, htag⟩)
  constructor
  · refine ⟨fun h hh => ?_, ?_, ?_, fun g' hl h hh => ?_, ?_, fun k hk => ?_, fun k hk => ?_⟩
    · rcases List.mem_cons.mp (hheld.mem_iff.mp hh) with rfl | hh
      · exact hg.live
      · exact hb.live h hh
    · obtain ⟨gone, hgone⟩ := hb.handles
      refine ⟨gone, ?_⟩
      calc (b.give g c copy rest).held ++ b.resolutions.map (·.held) ++ gone
        _ ~ b.nextHeld g c copy :: b.held ++ b.resolutions.map (·.held) ++ gone :=
          (hheld.append_right _).append_right _
        _ ~ b.nextHeld g c copy :: b.issued := hgone.cons _
        _ ~ b.issued ++ [b.nextHeld g c copy] := (List.perm_append_singleton _ _).symm
    · show ((b.issued ++ [b.nextHeld g c copy]).map (·.tag)).Nodup
      rw [List.map_append]
      refine List.nodup_append.mpr ⟨hb.once, List.nodup_singleton _, ?_⟩
      rintro t ht t' ht' rfl
      rw [List.mem_singleton.mp ht'] at ht
      exact hnew ht
    · rcases List.mem_append.mp hh with hh | hh
      · exact (hb.fresh g' hl h hh).imp id fun ⟨hg', hle⟩ => ⟨hg', Nat.le_succ_of_le hle⟩
      · rw [List.mem_singleton.mp hh]
        exact Or.inr ⟨Option.some.inj (hg.live.symm.trans hl), Nat.le_refl _⟩
    · show ((send c.id _ b.consumers).map (·.id)).Nodup
      rw [map_id_send]
      exact hb.ids
    · have hk' : k.id ∈ (send c.id (b.nextHeld g c copy).delivery b.consumers).map (·.id) :=
        List.mem_map_of_mem hk
      rw [map_id_send] at hk'
      obtain ⟨c', hc', heq⟩ := List.mem_map.mp hk'
      exact heq ▸ hb.below c' hc'
    · obtain ⟨k', hk', rfl⟩ := List.mem_map.mp hk
      show b.live = _
      rw [hb.attended k' hk']
      split <;> rfl
  · obtain ⟨hlive, ⟨new, gone, hissued, hnewlive, hcarried⟩, hresolved⟩ := hext
    have hlive₀ : b₀.live = some g := by
      rcases hlive with h | h
      · exact h.symm.trans hg.live
      · rw [hg.live] at h
        cases h
    refine ⟨hlive, ⟨new ++ [b.nextHeld g c copy], gone, ?_, fun h hh => ?_, ?_⟩, hresolved⟩
    · show b.issued ++ _ = _
      rw [hissued, List.append_assoc]
    · rcases List.mem_append.mp hh with hh | hh
      · exact hnewlive h hh
      · rw [List.mem_singleton.mp hh]
        exact hlive₀
    · have hsend : (b.give g c copy rest).carried ~ (b.nextHeld g c copy).delivery :: b.carried :=
        carried_send hb.ids hg.mem _
      rw [List.map_append, ← List.append_assoc]
      calc (b.give g c copy rest).carried ++ gone
        _ ~ (b.nextHeld g c copy).delivery :: (b.carried ++ gone) := hsend.append_right _
        _ ~ (b.nextHeld g c copy).delivery :: (b₀.carried ++ new.map Held.delivery) := hcarried.cons _
        _ ~ b₀.carried ++ new.map Held.delivery ++ [(b.nextHeld g c copy).delivery] :=
          (List.perm_append_singleton _ _).symm

theorem orderly_spend (h : Orderly b ∧ Extends a b₀ b) : Orderly b.spend ∧ Extends a b₀ b.spend := by
  obtain ⟨hb, hext⟩ := h
  refine ⟨⟨hb.live, hb.handles, hb.once, fun g hl h hh => ?_, hb.ids, hb.below,
    hb.attended⟩,
    ⟨hext.live, hext.handedOut.of_consumers rfl rfl, hext.resolved⟩⟩
  exact (hb.fresh g hl h hh).imp id fun ⟨hg, hle⟩ => ⟨hg, Nat.le_succ_of_le hle⟩

theorem Orderly.alike (hb : Orderly b) (hsame : Alike b b') : Orderly b' := by
  obtain ⟨hlive, hhandles, honce, hfresh, hids, hbelow, hattended⟩ := hb
  obtain ⟨hl, ht, -, hc, hh, hi, hr, -, hs, -⟩ := hsame
  constructor
  · rwa [hh, hl]
  · rwa [hh, hr, hi]
  · rwa [hi]
  · rwa [hl, hi, ht]
  · rwa [hc]
  · rwa [hc, hs]
  · rwa [hc, hl]

theorem Extends.alike (hext : Extends a b₀ b) (hsame : Alike b b') : Extends a b₀ b' := by
  obtain ⟨hlive, hout, hres⟩ := hext
  obtain ⟨hl, -, -, hc, -, hi, hr, -, -, -⟩ := hsame
  constructor
  · rwa [hl]
  · exact hout.of_consumers hi hc
  · rwa [hr]

/-- A session that ends takes what it holds with it, and its consumers. -/
theorem orderly_endSession (g : Nat) (h : Orderly b ∧ Extends a b₀ b) :
    Orderly (b.endSession g) ∧ Extends a b₀ (b.endSession g) := by
  obtain ⟨hb, hext⟩ := h
  obtain ⟨queues, -, heq⟩ := endSession_eq b g
  rw [heq]
  constructor
  · have hstill : ∀ {g'}, b.live = some g' → (g' != g) = true →
        (if b.live = some g then none else b.live) = some g' := by
      intro g' hl hne
      rw [if_neg (by rw [hl]; simpa using hne), hl]
    refine ⟨fun h hh => ?_, ?_, hb.once, fun g' hl h hh => ?_, ?_, fun c hc => ?_, fun c hc => ?_⟩
    · obtain ⟨hmem, hne⟩ := List.mem_filter.mp hh
      exact hstill (hb.live h hmem) hne
    · obtain ⟨gone, hgone⟩ := hb.handles
      refine ⟨b.orphans g ++ gone, List.Perm.trans (List.perm_iff_count.mpr fun h => ?_) hgone⟩
      have hcount := (perm_orphans_others b g).count_eq h
      simp only [List.count_append] at hcount ⊢
      omega
    · dsimp only at hl ⊢
      by_cases hg : b.live = some g
      · rw [if_pos hg] at hl
        cases hl
      · rw [if_neg hg] at hl ⊢
        exact hb.fresh g' hl h hh
    · exact hb.ids.sublist (List.filter_sublist.map _)
    · exact hb.below c (List.mem_filter.mp hc).1
    · obtain ⟨hmem, hne⟩ := List.mem_filter.mp hc
      exact hstill (hb.attended c hmem) hne
  · refine ⟨?_, ?_, hext.resolved⟩
    · dsimp only
      split
      · exact Or.inr rfl
      · exact hext.live
    · exact hext.handedOut.of_eq rfl (carried_filter (fun c => c.generation != g) b.consumers)

theorem orderly_subscribe (receiver g : Nat) (queue consumerTag : String) (hl : b.live = some g)
    (h : Orderly b ∧ Extends a b₀ b) :
    Orderly (b.subscribe receiver g queue consumerTag) ∧
      Extends a b₀ (b.subscribe receiver g queue consumerTag) := by
  obtain ⟨hb, hext⟩ := h
  constructor
  · refine ⟨hb.live, hb.handles, hb.once, hb.fresh, ?_, fun c hc => ?_, fun c hc => ?_⟩
    · show (List.map (·.id) (b.consumers ++ [(⟨b.subscribed, g, _, _, _, _, _⟩ : Consumer)])).Nodup
      rw [List.map_append]
      refine List.nodup_append.mpr ⟨hb.ids, List.nodup_singleton _, ?_⟩
      rintro id hid id' hid' rfl
      obtain ⟨c, hc, rfl⟩ := List.mem_map.mp hid
      exact Nat.lt_irrefl _ (List.mem_singleton.mp hid' ▸ hb.below c hc)
    · rcases List.mem_append.mp hc with hc | hc
      · exact Nat.lt_succ_of_lt (hb.below c hc)
      · rw [List.mem_singleton.mp hc]
        exact Nat.lt_succ_self _
    · rcases List.mem_append.mp hc with hc | hc
      · exact hb.attended c hc
      · rw [List.mem_singleton.mp hc]
        exact hl
  · refine ⟨hext.live, ?_, hext.resolved⟩
    have hcarried : (b.subscribe receiver g queue consumerTag).carried = b.carried := by
      simp [carried, carriedBy, subscribe, Consumer.carried, Forwarder.inHand]
    exact hext.handedOut.of_eq rfl ⟨[], by rw [List.append_nil, hcarried]⟩

/-- The window has no bearing on tags. -/
theorem orderly_limit (count : Nat) (h : Orderly b ∧ Extends a b₀ b) :
    Orderly { b with prefetch := some count } ∧ Extends a b₀ { b with prefetch := some count } :=
  ⟨⟨h.1.live, h.1.handles, h.1.once, h.1.fresh, h.1.ids, h.1.below, h.1.attended⟩,
    ⟨h.2.live, h.2.handedOut.of_consumers rfl rfl, h.2.resolved⟩⟩

/-- Nothing but what consumers carry has become different, and that less. -/
theorem orderly_consumers (hb : Orderly b) (hframe : b' = { b with consumers := b'.consumers })
    (hids : b'.consumers.map (·.id) = b.consumers.map (·.id))
    (hgenerations : ∀ k ∈ b'.consumers, ∃ k' ∈ b.consumers, k'.generation = k.generation)
    (hcarried : ∃ gone, b'.carried ++ gone ~ b.carried) : Orderly b' ∧ Extends a b b' := by
  rw [hframe]
  constructor
  · refine ⟨hb.live, hb.handles, hb.once, hb.fresh, hids ▸ hb.ids, fun c hc => ?_, fun c hc => ?_⟩
    · have hmem : c.id ∈ b'.consumers.map (·.id) := List.mem_map_of_mem hc
      rw [hids] at hmem
      obtain ⟨c', hc', heq⟩ := List.mem_map.mp hmem
      exact heq ▸ hb.below c' hc'
    · obtain ⟨k, hk, heq⟩ := hgenerations c hc
      exact heq ▸ hb.attended k hk
  · exact ⟨Or.inl rfl, (handedOut_refl b).of_eq rfl hcarried, Or.inl rfl⟩

/-- A copy that is queued is not handed out yet. -/
theorem orderly_append (m : Message) (q : String) (h : Orderly b ∧ Extends a b₀ b) :
    Orderly (b.append m q) ∧ Extends a b₀ (b.append m q) :=
  ⟨⟨h.1.live, h.1.handles, h.1.once, h.1.fresh, h.1.ids, h.1.below, h.1.attended⟩,
    ⟨h.2.live, h.2.handedOut.of_consumers rfl rfl, h.2.resolved⟩⟩

/-- A delivery that is resolved is no longer held. -/
theorem orderly_settle (hb : Orderly b) {h : Held} (hh : h ∈ b.held) {outcome : Outcome}
    (ha : a = .resolve h.tag.generation h.tag.value outcome) (hl : b.live = some h.tag.generation) :
    Orderly (b.settle h outcome) ∧ Extends a b (b.settle h outcome) := by
  let cleared : Broker := { b with
    held := b.held.filter fun k => k.tag ≠ h.tag
    resolutions := b.resolutions ++ [⟨h, outcome⟩] }
  have hcleared : Orderly cleared ∧ Extends a b cleared := by
    constructor
    · refine ⟨fun k hk => hb.live k (List.mem_filter.mp hk).1, ?_, hb.once, hb.fresh, hb.ids, hb.below,
        hb.attended⟩
      obtain ⟨gone, hgone⟩ := hb.handles
      refine ⟨gone, List.Perm.trans (List.perm_iff_count.mpr fun k => ?_) hgone⟩
      have hcount := (perm_filter_tag hb.held_tags hh).count_eq k
      simp only [cleared, List.map_append, List.map_cons, List.map_nil, List.count_append, List.count_cons,
        List.count_nil] at hcount ⊢
      omega
    · exact ⟨Or.inl rfl, (handedOut_refl b).of_consumers rfl rfl, Or.inr ⟨h, hh, outcome, ha, hl, rfl⟩⟩
  unfold settle
  split
  · exact ⟨⟨hcleared.1.live, hcleared.1.handles, hcleared.1.once, hcleared.1.fresh, hcleared.1.ids,
      hcleared.1.below, hcleared.1.attended⟩,
      ⟨hcleared.2.live, hcleared.2.handedOut.of_consumers rfl rfl, hcleared.2.resolved⟩⟩
  · exact hcleared

/-- A forwarder takes from what is carried. -/
theorem orderly_forward (hb : Orderly b) {ch : Channel} {id : Nat} {r : Broker × Channel}
    (hf : b.forward? ch id = some r) : Orderly r.1 ∧ Extends a b r.1 := by
  obtain ⟨hframe, hids, hgenerations⟩ := forward?_frame hf
  obtain ⟨moved, gone, -, hgone⟩ := forward?_carried hb.ids hf
  exact orderly_consumers hb hframe hids hgenerations ⟨moved ++ gone, hgone⟩

/-- A grant moves nothing. -/
theorem orderly_grant (hb : Orderly b) (receiver : Nat) (ch : Channel) :
    Orderly (b.grantTo receiver ch.waiting ch).2.1 ∧ Extends a b (b.grantTo receiver ch.waiting ch).2.1 := by
  obtain ⟨hframe, hids, -, hcarried⟩ := grantTo_spec receiver ch.waiting b ch
  exact orderly_consumers hb hframe hids (generation_grantTo receiver ch.waiting b ch)
    ⟨[], (List.append_nil _).symm ▸ hcarried hb.ids⟩

/-! ## All acts -/

/-- What is kept by handing out one copy while tags are in order is kept by dispatching. -/
theorem dispatch_keeps_orderly {P : Broker → Prop}
    (hgive : ∀ {b g c copy rest}, Orderly b → P b → Gives b g c copy rest → P (b.give g c copy rest))
    (hspend : ∀ {b}, P b → P b.spend) (h : (Orderly b ∧ Extends a b₀ b) ∧ P b) :
    (Orderly b.dispatch ∧ Extends a b₀ b.dispatch) ∧ P b.dispatch :=
  dispatch_keeps (P := fun b => (Orderly b ∧ Extends a b₀ b) ∧ P b)
    (fun h hg => ⟨orderly_give h.1 hg, hgive h.1.1 h.2 hg⟩) (fun h => ⟨orderly_spend h.1, hspend h.2⟩) h

/-- Every act but opening a session keeps tags in order, and keeps what is kept by the things that acts consist of
as long as tags are in order. -/
theorem run_keeps_orderly {P : Broker → Prop} (hb : Orderly b) (hp : P b)
    (ha : ∀ receiver g notify, a ≠ .openSession receiver g notify)
    (happend : ∀ m, a = .publish m → ∀ {b queue}, P b → P (b.append m queue))
    (hsettle : ∀ h ∈ b.held, ∀ outcome, a = .resolve h.tag.generation h.tag.value outcome → P (b.settle h outcome))
    (hforward : ∀ ch id r, a = .forward ch id → b.forward? ch id = some r → P r.1)
    (hgrant : ∀ receiver ch, a = .grant receiver ch → P (b.grantTo receiver ch.waiting ch).2.1)
    (hlimit : ∀ g count, a = .setPrefetch g count → P { b with prefetch := some count })
    (hsubscribe : ∀ receiver g queue consumerTag, a = .consume receiver g queue consumerTag → b.live = some g →
      P (b.subscribe receiver g queue consumerTag))
    (halike : ∀ {b b'}, P b → Alike b b' → P b')
    (hgive : ∀ {b g c copy rest}, Orderly b → P b → Gives b g c copy rest → P (b.give g c copy rest))
    (hspend : ∀ {b}, P b → P b.spend)
    (hend : ∀ {b} g, Orderly b → P b → P (b.endSession g)) :
    (Orderly (a.run b) ∧ Extends a b (a.run b)) ∧ P (a.run b) := by
  have hrefl : Orderly b ∧ Extends a b b := ⟨hb, extends_refl a b⟩
  exact run_keeps (P := fun b' => (Orderly b' ∧ Extends a b b') ∧ P b') (a := a) ⟨hrefl, hp⟩
    (fun m hm => publish_keeps (P := fun b' => (Orderly b' ∧ Extends a b b') ∧ P b')
      (fun h => dispatch_keeps_orderly hgive hspend ⟨orderly_append _ _ h.1, happend m hm h.2⟩) ⟨hrefl, hp⟩)
    (fun receiver g notify h => absurd h (ha receiver g notify))
    (fun h hh outcome ha hl => ⟨orderly_settle hb hh ha hl, hsettle h hh outcome ha⟩)
    (fun ch id r ha hf => ⟨orderly_forward hb hf, hforward ch id r ha hf⟩)
    (fun receiver ch ha => ⟨orderly_grant hb receiver ch, hgrant receiver ch ha⟩)
    (fun g count ha _ => ⟨orderly_limit count hrefl, hlimit g count ha⟩)
    (fun receiver g queue consumerTag ha hl =>
      ⟨orderly_subscribe receiver g queue consumerTag hl hrefl, hsubscribe receiver g queue consumerTag ha hl⟩)
    (fun h hsame => ⟨⟨h.1.1.alike hsame, h.1.2.alike hsame⟩, halike h.2 hsame⟩)
    (dispatch_keeps_orderly hgive hspend) fun g h => ⟨orderly_endSession g h.1, hend g h.1.1 h.2⟩

/-- **Every act but opening a session keeps tags in order.** -/
theorem orderly_run (hb : Orderly b) (a : Act) (ha : ∀ receiver g notify, a ≠ .openSession receiver g notify) :
    Orderly (a.run b) ∧ Extends a b (a.run b) :=
  (run_keeps_orderly (P := fun _ => True) hb trivial ha (fun _ _ {_ _} _ => trivial)
    (fun _ _ _ _ => trivial)
    (fun _ _ _ _ _ => trivial) (fun _ _ _ => trivial) (fun _ _ _ => trivial) (fun _ _ _ _ _ _ => trivial)
    (fun _ _ => trivial) (fun _ _ _ => trivial) (fun _ => trivial) fun _ _ _ => trivial).1

/-- What was resolved, or could not be, is not held any more. -/
theorem Orderly.not_held_of_resolve (hb : Orderly b) (t : Tag) (outcome : Outcome) :
    ∀ h ∈ ((Act.resolve t.generation t.value outcome).run b).held, h.tag ≠ t := by
  have hrun : Orderly ((Act.resolve t.generation t.value outcome).run b) :=
    (orderly_run hb (.resolve t.generation t.value outcome) nofun).1
  have hheld : ((Act.resolve t.generation t.value outcome).run b).held =
    (resolve t.generation t.value outcome b).2.held := rfl
  rcases resolve_eq b t.generation t.value outcome with ⟨heq, hnot⟩ | ⟨k, -, htag, -, heq⟩
  · intro h hh ht
    rw [hheld, heq] at hh
    exact hnot (ht ▸ hb.live h hh) h hh ht
  · -- it is among what was resolved, and no tag is both held and resolved
    have hresolved : (⟨k, outcome⟩ : Resolution) ∈ (b.settle k outcome).dispatch.resolutions := by
      refine dispatch_keeps (P := fun b => (⟨k, outcome⟩ : Resolution) ∈ b.resolutions) (fun h _ => h) id ?_
      unfold settle
      split <;> exact List.mem_append_right _ (List.mem_singleton_self _)
    intro h hh ht
    have htags := hrun.tags
    rw [List.map_append, List.map_map] at htags
    have hmem : k.tag ∈ ((Act.resolve t.generation t.value outcome).run b).resolutions.map
        (Held.tag ∘ Resolution.held) :=
      List.mem_map.mpr ⟨⟨k, outcome⟩, (congrArg Broker.resolutions heq).symm ▸ hresolved, rfl⟩
    exact (List.nodup_append.mp htags).2.2 _ (List.mem_map_of_mem hh) _ hmem (ht.trans htag.symm)

/-! ## Opening a session -/

/-- A session is refused, and then all is as before; or it is live without a window, and its tags start anew. -/
theorem openSession_cases (receiver g : Nat) (notify : Bool) (b : Broker) :
    (∃ e b', openSession receiver g notify b = (.error e, b') ∧ Alike b b') ∨
      ∃ b', openSession receiver g notify b = (.ok (), b') ∧
        Alike { b with live := some g, nextTag := 0, prefetch := none } b' := by
  unfold openSession
  dsimp only
  split
  · exact Or.inl ⟨_, _, rfl, rfl, rfl, rfl, rfl, rfl, rfl, rfl, rfl, rfl, rfl⟩
  · exact Or.inr ⟨_, rfl, rfl, rfl, rfl, rfl, rfl, rfl, rfl, rfl, rfl, rfl⟩

/-- Two brokers have the same copies in the same places, and the same consumers. -/
structure Unmoved (b b' : Broker) : Prop where
  queues : b'.queues = b.queues
  consumers : b'.consumers = b.consumers
  held : b'.held = b.held
  issued : b'.issued = b.issued
  resolutions : b'.resolutions = b.resolutions
  queued : b'.queued = b.queued

/-- Opening a session moves nothing. -/
theorem unmoved_openSession (receiver g : Nat) (notify : Bool) (b : Broker) :
    Unmoved b (openSession receiver g notify b).2 := by
  unfold openSession
  dsimp only
  split <;> exact ⟨rfl, rfl, rfl, rfl, rfl, rfl⟩

/-- Tags stay in order when a session is opened, if there is none and its generation is beyond all tags. -/
theorem orderly_open (hb : Orderly b) (receiver g : Nat) (notify : Bool) (hl : b.live = none)
    (hg : ∀ h ∈ b.issued, h.tag.generation < g) : Orderly (openSession receiver g notify b).2 := by
  have hnone : ∀ h ∈ b.held, False := by
    intro h hh
    have := hb.live h hh
    rw [hl] at this
    cases this
  have hopened : Orderly { b with live := some g, nextTag := 0, prefetch := none } :=
    ⟨fun h hh => (hnone h hh).elim, hb.handles, hb.once,
      fun g' hg' h hh => Or.inl (Option.some.inj hg' ▸ hg h hh), hb.ids, hb.below,
      fun c hc => absurd (hb.attended c hc) (by rw [hl]; nofun)⟩
  rcases openSession_cases receiver g notify b with ⟨e, b', heq, hsame⟩ | ⟨b', heq, hsame⟩
  · rw [heq]
    exact hb.alike hsame
  · rw [heq]
    exact hopened.alike hsame

end Broker
end EventCourier
