import EventCourier.Proofs.Broker.Act

/-!
# The layout of a broker

Exchanges, bindings, the window and the roles of consumers change by the calls that set them and by the end of a
session, and by nothing else: whatever is handed out, published or passed on leaves the broker laid out as it was
(`laid_dispatch`, `laid_publish`, `laid_others`). So in every state that can be reached no binding is listed twice
and no two consumers share an identifier (`kempt_after`).
-/

namespace EventCourier
namespace Broker

variable {a : Act} {b b' : Broker}

/-- Two brokers have the same exchanges and bindings. -/
structure SameTopology (b b' : Broker) : Prop where
  exchanges : b'.exchanges = b.exchanges
  bindings : b'.bindings = b.bindings

theorem SameTopology.trans {b'' : Broker} (h : SameTopology b b') (h' : SameTopology b' b'') : SameTopology b b'' :=
  ⟨h'.exchanges.trans h.exchanges, h'.bindings.trans h.bindings⟩

/-- Two brokers are laid out alike: they have the same topology and the same live session, with the same window and
consumers in the same roles. -/
structure LaidAlike (b b' : Broker) : Prop where
  exchanges : b'.exchanges = b.exchanges
  bindings : b'.bindings = b.bindings
  live : b'.live = b.live
  prefetch : b'.prefetch = b.prefetch
  roles : b'.consumers.map Consumer.role = b.consumers.map Consumer.role

theorem LaidAlike.refl (b : Broker) : LaidAlike b b := ⟨rfl, rfl, rfl, rfl, rfl⟩

theorem LaidAlike.topology (h : LaidAlike b b') : SameTopology b b' := ⟨h.exchanges, h.bindings⟩

theorem LaidAlike.trans {b'' : Broker} (h : LaidAlike b b') (h' : LaidAlike b' b'') : LaidAlike b b'' :=
  ⟨h'.exchanges.trans h.exchanges, h'.bindings.trans h.bindings, h'.live.trans h.live,
    h'.prefetch.trans h.prefetch, h'.roles.trans h.roles⟩

/-- Consumers that keep their roles leave the layout as it is. -/
theorem LaidAlike.of_roles (hframe : b' = { b with consumers := b'.consumers })
    (hroles : b'.consumers.map Consumer.role = b.consumers.map Consumer.role) : LaidAlike b b' := by
  rw [hframe]
  exact ⟨rfl, rfl, rfl, rfl, hroles⟩

/-! ## What leaves the layout as it is -/

theorem laid_dispatch (b : Broker) : LaidAlike b b.dispatch :=
  dispatch_keeps (P := LaidAlike b)
    (fun h _ => ⟨h.exchanges, h.bindings, h.live, h.prefetch, (map_role_send _ _ _).trans h.roles⟩)
    (fun h => ⟨h.exchanges, h.bindings, h.live, h.prefetch, h.roles⟩) (.refl b)

theorem laid_publish (m : Message) (b : Broker) : LaidAlike b (b.publish m) := by
  refine publish_keeps (P := LaidAlike b) (fun {b' queue} h => ?_) (.refl b)
  have happend : LaidAlike b' (b'.append m queue) := ⟨rfl, rfl, rfl, rfl, rfl⟩
  exact (h.trans happend).trans (laid_dispatch _)

/-- The end of a session leaves exchanges and bindings. -/
theorem topology_endSession (b : Broker) (g : Nat) : SameTopology b (b.endSession g) := by
  obtain ⟨queues, -, heq⟩ := endSession_eq b g
  rw [heq]
  exact ⟨rfl, rfl⟩

/-- To close a session leaves exchanges and bindings. -/
theorem topology_close (b : Broker) (g : Nat) : SameTopology b ((Act.close g).run b) :=
  have hclosed : SameTopology b { b with closed := b.closed ++ [g] } := ⟨rfl, rfl⟩
  hclosed.trans (topology_endSession _ g)

/-- To open a session leaves exchanges and bindings. -/
theorem topology_openSession (receiver g : Nat) (notify : Bool) (b : Broker) :
    SameTopology b (openSession receiver g notify b).2 := by
  unfold openSession
  dsimp only
  split <;> exact ⟨rfl, rfl⟩

/-- What others do leaves the layout as it is, unless the connection is dropped. -/
theorem laid_others (hids : (b.consumers.map (·.id)).Nodup) (ha : a.byOthers = true) :
    LaidAlike b (a.run b) ∨ SameTopology b (a.run b) ∧ (a.run b).live = none := by
  cases a with
  | publish m => exact Or.inl (laid_publish m b)
  | drop reason =>
    show LaidAlike b (b.drop reason).2 ∨ SameTopology b (b.drop reason).2 ∧ (b.drop reason).2.live = none
    unfold drop
    cases hl : b.live with
    | none => exact Or.inl (.refl b)
    | some g => exact Or.inr ⟨topology_endSession b g, by rw [endSession_live, if_pos hl]⟩
  | refuseNext count => exact Or.inl ⟨rfl, rfl, rfl, rfl, rfl⟩
  | refuseAll => exact Or.inl ⟨rfl, rfl, rfl, rfl, rfl⟩
  | forward ch id =>
    cases hf : b.forward? ch id with
    | none =>
      show LaidAlike b (((b.forward? ch id).map (·.1)).getD b) ∨ _
      rw [hf]
      exact Or.inl (.refl b)
    | some r =>
      rw [Act.run_forward hf]
      exact Or.inl (.of_roles (forward?_frame hf).1 (forward?_roles hids hf))
  | grant receiver ch =>
    exact Or.inl (.of_roles (grantTo_spec receiver ch.waiting b ch).1 (grantTo_roles hids receiver ch.waiting ch))
  | _ => cases ha

/-! ## Identifiers -/

/-- Consumers have identifiers of their own, below those that are still to come. -/
structure Seated (b : Broker) : Prop where
  ids : (b.consumers.map (·.id)).Nodup
  below : ∀ id ∈ b.consumers.map (·.id), id < b.subscribed

/-- The same identifiers. -/
theorem Seated.of_ids (h : Seated b) (hids : b'.consumers.map (·.id) = b.consumers.map (·.id))
    (hsubscribed : b'.subscribed = b.subscribed) : Seated b' :=
  ⟨hids ▸ h.ids, fun id hid => hsubscribed ▸ h.below id (hids ▸ hid)⟩

theorem seated_dispatch (h : Seated b) : Seated b.dispatch :=
  dispatch_keeps (P := Seated) (fun h _ => h.of_ids (map_id_send _ _ _) rfl) (fun h => ⟨h.ids, h.below⟩) h

theorem seated_subscribe (h : Seated b) (receiver g : Nat) (queue consumerTag : String) :
    Seated (b.subscribe receiver g queue consumerTag) := by
  have hids : (b.subscribe receiver g queue consumerTag).consumers.map (·.id) =
      b.consumers.map (·.id) ++ [b.subscribed] := List.map_append
  refine ⟨?_, fun id hid => ?_⟩
  · rw [hids]
    refine List.nodup_append.mpr ⟨h.ids, List.nodup_singleton _, ?_⟩
    rintro id hid id' hid' rfl
    exact Nat.lt_irrefl _ (List.mem_singleton.mp hid' ▸ h.below id hid)
  · rw [hids] at hid
    rcases List.mem_append.mp hid with hid | hid
    · exact Nat.lt_succ_of_lt (h.below id hid)
    · rw [List.mem_singleton.mp hid]
      exact Nat.lt_succ_self _

theorem seated_run (h : Seated b) (a : Act) : Seated (a.run b) := by
  refine run_keeps (P := Seated) h
    (fun m _ => publish_keeps (P := Seated) (fun h => seated_dispatch ⟨h.ids, h.below⟩) h)
    (fun receiver g notify _ => ?_) (fun k _ outcome _ _ => ?_)
    (fun ch id r _ hf => ?_) (fun receiver ch _ => ?_) (fun _ _ _ _ => ⟨h.ids, h.below⟩)
    (fun _ _ _ _ _ _ => seated_subscribe h _ _ _ _)
    (fun h hsame => h.of_ids (by rw [hsame.consumers]) hsame.subscribed) seated_dispatch
    fun {b} g h => ?_
  · unfold openSession
    dsimp only
    split <;> exact ⟨h.ids, h.below⟩
  · unfold settle
    split <;> exact ⟨h.ids, h.below⟩
  · obtain ⟨hframe, hids, -⟩ := forward?_frame hf
    exact h.of_ids hids (by rw [hframe])
  · obtain ⟨hframe, hids, -⟩ := grantTo_spec receiver ch.waiting b ch
    exact h.of_ids hids (by rw [hframe])
  · obtain ⟨queues, -, heq⟩ := endSession_eq _ g
    rw [heq]
    have hsub := (List.filter_sublist (p := fun c : Consumer => c.generation != g) (l := b.consumers)).map (·.id)
    exact ⟨h.ids.sublist hsub, fun id hid => h.below id (hsub.subset hid)⟩

/-! ## Every state that can be reached -/

/-- No binding is listed twice, and consumers have identifiers of their own. -/
structure Kempt (b : Broker) : Prop extends Seated b where
  bindings : b.bindings.Nodup

/-- To list a binding unless it is listed lists none twice. -/
theorem nodup_bind {bindings : List Binding} (h : bindings.Nodup) (t : Binding) :
    (if bindings.contains t then bindings else bindings ++ [t]).Nodup := by
  split
  · exact h
  · rename_i hnew
    refine List.nodup_append.mpr ⟨h, List.nodup_singleton t, ?_⟩
    rintro u hu u' hu' rfl
    exact hnew (List.contains_iff_mem.mpr (List.mem_singleton.mp hu' ▸ hu))

theorem kempt_run (h : Kempt b) (a : Act) : Kempt (a.run b) := by
  refine ⟨seated_run h.toSeated a, ?_⟩
  cases hothers : a.byOthers with
  | true =>
    have htopology : SameTopology b (a.run b) := by
      rcases laid_others h.ids hothers with hsame | ⟨hsame, -⟩
      · exact hsame.topology
      · exact hsame
    rw [htopology.bindings]
    exact h.bindings
  | false =>
    cases a with
    | openSession receiver g notify =>
      show (openSession receiver g notify b).2.bindings.Nodup
      rw [(topology_openSession receiver g notify b).bindings]
      exact h.bindings
    | assertExchange g exchange =>
      refine onLive_keeps (P := fun b => b.bindings.Nodup) h.bindings fun _ => ?_
      split <;> exact h.bindings
    | declareExchange g exchange =>
      exact onLive_keeps (P := fun b => b.bindings.Nodup) h.bindings fun _ => h.bindings
    | declareQueue g t =>
      refine onLive_keeps (P := fun b => b.bindings.Nodup) h.bindings fun _ => ?_
      split
      · exact nodup_bind h.bindings t
      · exact h.bindings
    | setPrefetch g count =>
      refine onLive_keeps (P := fun b => b.bindings.Nodup) h.bindings fun _ => ?_
      rw [(laid_dispatch _).bindings]
      exact h.bindings
    | consume receiver g queue consumerTag =>
      refine onLive_keeps (P := fun b => b.bindings.Nodup) h.bindings fun _ => ?_
      rw [(laid_dispatch _).bindings]
      exact h.bindings
    | resolve g tag outcome =>
      show (resolve g tag outcome b).2.bindings.Nodup
      rcases resolve_eq b g tag outcome with ⟨heq, -⟩ | ⟨k, -, -, -, heq⟩
      · rw [heq]
        exact h.bindings
      · rw [heq, (laid_dispatch _).bindings]
        unfold settle
        split <;> exact h.bindings
    | close g =>
      rw [(topology_close b g).bindings]
      exact h.bindings
    | _ => cases hothers

theorem kempt_after (acts : List Act) : ∀ {b : Broker}, Kempt b → Kempt (b.after acts) := by
  induction acts with
  | nil => exact fun h => h
  | cons a acts ih => exact fun h => ih (kempt_run h a)

theorem kempt_withExchanges (exchanges : List String) : Kempt (.withExchanges exchanges) :=
  ⟨⟨List.nodup_nil, nofun⟩, List.nodup_nil⟩

end Broker
end EventCourier
