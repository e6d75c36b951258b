import EventCourier.Proofs.Broker.Conservation
import EventCourier.Proofs.Broker.Order

/-!
# What a session leaves behind

Before a session is opened the broker is `Untouched` by it: nothing is consumed, held or handed out under its
generation. From then on it is `Opened`: as long as the session is live it holds all that it was handed, and once it
is not, everything of it is ready again. Opening the session leads from one to the other (`opened_openSession`), and
every other act keeps both, as long as nothing is resolved (`untouched_run`, `opened_run`).
-/

namespace EventCourier
namespace Broker

open scoped List

variable {a : Act} {before b b' : Broker} {g : Nat}

/-- Since the broker was as `before`, nothing was done under the generation `g`. -/
structure Untouched (before : Broker) (g : Nat) (b : Broker) : Prop where
  live : b.live = some g → before.live = some g
  consumers : ∀ k ∈ b.consumers, k.generation ≠ g
  held : ∀ h ∈ b.held, h.tag.generation ≠ g
  issued : ∃ new, b.issued = before.issued ++ new ∧ ∀ h ∈ new, h.tag.generation ≠ g

/-- Since the broker was as `before`, the session `g` was opened. It is live or none is; consumers and deliveries of it
are there only while it is live. What it was handed it holds, or that is ready again. -/
structure Opened (before : Broker) (g : Nat) (b : Broker) : Prop where
  live : b.live = some g ∨ b.live = none
  consumers : ∀ k ∈ b.consumers, k.generation = g → b.live = some g
  held : ∀ h ∈ b.held, h.tag.generation = g → b.live = some g ∧ h.tag.value ≤ b.nextTag
  issued : ∃ new, b.issued = before.issued ++ new ∧ ∀ h ∈ new, h.tag.generation = g →
    h ∈ b.held ∨ b.live = none ∧ { h.copy with redelivered := true } ∈ b.ready h.queue

/-- What is held after a hand-out is what was held and what is handed out. -/
theorem mem_hold {h k : Held} {held : List Held} (hk : k ∈ hold h held) : k = h ∨ k ∈ held := by
  induction held with
  | nil => exact Or.inl (List.mem_singleton.mp hk)
  | cons x rest ih =>
    unfold hold at hk
    split at hk
    · exact (List.mem_cons.mp hk).imp id (List.mem_cons_of_mem x)
    · split at hk
      · exact List.mem_cons.mp hk
      · rcases List.mem_cons.mp hk with rfl | hk
        · exact Or.inr List.mem_cons_self
        · exact (ih hk).imp id (List.mem_cons_of_mem x)

/-- To send a delivery leaves consumers with their sessions. -/
theorem generation_send {id : Nat} {d : Delivery} {consumers : List Consumer} {k : Consumer}
    (hk : k ∈ send id d consumers) : ∃ k' ∈ consumers, k'.generation = k.generation := by
  have hmem : k.generation ∈ (send id d consumers).map (·.generation) := List.mem_map_of_mem hk
  rw [map_send fun _ _ => rfl] at hmem
  exact List.mem_map.mp hmem

/-! ## Before the session is opened -/

namespace Untouched

theorem start (hconsumers : ∀ k ∈ b.consumers, k.generation < g) (hheld : ∀ h ∈ b.held, h.tag.generation < g) :
    Untouched b g b where
  live h := h
  consumers k hk := Nat.ne_of_lt (hconsumers k hk)
  held h hh := Nat.ne_of_lt (hheld h hh)
  issued := ⟨[], (List.append_nil _).symm, nofun⟩

theorem alike (h : Untouched before g b) (hsame : Alike b b') : Untouched before g b' := by
  obtain ⟨hlive, -, -, hconsumers, hheld, hissued, -, -, -, -⟩ := hsame
  exact ⟨hlive ▸ h.live, hconsumers ▸ h.consumers, hheld ▸ h.held, hissued ▸ h.issued⟩

/-- The session has no consumer that could be handed anything. -/
theorem give (h : Untouched before g b) {g' : Nat} {c : Consumer} {copy : Copy} {rest : List Copy}
    (hg : Gives b g' c copy rest) : Untouched before g (b.give g' c copy rest) := by
  have hne : g' ≠ g := hg.generation ▸ h.consumers c hg.mem
  refine ⟨h.live, fun k hk => ?_, fun k hk => ?_, ?_⟩
  · obtain ⟨k', hk', heq⟩ := generation_send hk
    exact heq ▸ h.consumers k' hk'
  · rcases mem_hold hk with rfl | hk
    · exact hne
    · exact h.held k hk
  · obtain ⟨new, hissued, hnew⟩ := h.issued
    refine ⟨new ++ [b.nextHeld g' c copy], ?_, List.forall_mem_append.mpr ⟨hnew, ?_⟩⟩
    · show b.issued ++ _ = _
      rw [hissued, List.append_assoc]
    · rintro k hk
      rw [List.mem_singleton.mp hk]
      exact hne

theorem dispatch (h : Untouched before g b) : Untouched before g b.dispatch :=
  dispatch_keeps (P := Untouched before g) (fun h hg => h.give hg)
    (fun h => ⟨h.live, h.consumers, h.held, h.issued⟩) h

theorem endSession (h : Untouched before g b) (g' : Nat) : Untouched before g (b.endSession g') := by
  obtain ⟨queues, -, heq⟩ := endSession_eq b g'
  rw [heq]
  refine ⟨fun hl => h.live ?_, fun k hk => h.consumers k (List.mem_filter.mp hk).1,
    fun k hk => h.held k (List.mem_filter.mp hk).1, h.issued⟩
  dsimp only at hl
  split at hl
  · cases hl
  · exact hl

/-- Nothing is done under a generation but by its own session. -/
theorem run (h : Untouched before g b) (hopens : ∀ receiver g notify, a ≠ .openSession receiver g notify)
    (hsubscribes : ∀ receiver g queue consumerTag, a ≠ .consume receiver g queue consumerTag) :
    Untouched before g (a.run b) := by
  refine run_keeps (P := Untouched before g) h
    (fun m _ => publish_keeps (P := Untouched before g)
      (fun h => Untouched.dispatch ⟨h.live, h.consumers, h.held, h.issued⟩) h)
    (fun receiver g notify h => absurd h (hopens receiver g notify)) (fun k _ outcome _ _ => ?_)
    (fun ch id r _ hf => ?_) (fun receiver ch _ => ?_)
    (fun _ _ _ _ => ⟨h.live, h.consumers, h.held, h.issued⟩)
    (fun receiver g queue consumerTag h => absurd h (hsubscribes receiver g queue consumerTag)) (fun h => h.alike)
    dispatch fun g h => h.endSession g
  · unfold settle
    split <;> exact ⟨h.live, h.consumers, fun k hk => h.held k (List.mem_filter.mp hk).1, h.issued⟩
  · obtain ⟨hframe, -, hgenerations⟩ := forward?_frame hf
    rw [hframe]
    refine ⟨h.live, fun k hk => ?_, h.held, h.issued⟩
    obtain ⟨k', hk', heq⟩ := hgenerations k hk
    exact heq ▸ h.consumers k' hk'
  · rw [(grantTo_spec receiver ch.waiting b ch).1]
    refine ⟨h.live, fun k hk => ?_, h.held, h.issued⟩
    obtain ⟨k', hk', heq⟩ := generation_grantTo receiver ch.waiting b ch k hk
    exact heq ▸ h.consumers k' hk'

end Untouched

/-! ## From then on -/

namespace Opened

/-- A session that is opened has nothing yet. -/
theorem of_untouched (h : Untouched before g b) :
    Opened before g { b with live := some g, nextTag := 0, prefetch := none } where
  live := Or.inl rfl
  consumers k hk hg := absurd hg (h.consumers k hk)
  held k hk hg := absurd hg (h.held k hk)
  issued := by
    obtain ⟨new, hissued, hnew⟩ := h.issued
    exact ⟨new, hissued, fun k hk hg => absurd hg (hnew k hk)⟩

theorem alike (h : Opened before g b) (hsame : Alike b b') : Opened before g b' := by
  obtain ⟨hlive, htag, hqueues, hconsumers, hheld, hissued, -, -, -, -⟩ := hsame
  constructor
  · rw [hlive]
    exact h.live
  · rw [hconsumers, hlive]
    exact h.consumers
  · rw [hheld, hlive, htag]
    exact h.held
  · unfold ready
    rw [hissued, hheld, hlive, hqueues]
    exact h.issued

/-- No other session is live. -/
theorem live_eq (h : Opened before g b) {g' : Nat} (hl : b.live = some g') : g' = g := by
  rcases h.live with hlive | hlive
  · exact Option.some.inj (hl.symm.trans hlive)
  · rw [hl] at hlive
    cases hlive

/-- What is handed out the session holds. -/
theorem give (h : Opened before g b) {g' : Nat} {c : Consumer} {copy : Copy} {rest : List Copy}
    (hg : Gives b g' c copy rest) : Opened before g (b.give g' c copy rest) := by
  obtain rfl := h.live_eq hg.live
  have hlive := hg.live
  have hheld : (b.give g' c copy rest).held ~ b.nextHeld g' c copy :: b.held :=
    perm_hold (fresh_of_spent fun k hk hk' => (h.held k hk hk').2)
  refine ⟨Or.inl hlive, fun _ _ _ => hlive, fun k hk hkg => ⟨hlive, ?_⟩, ?_⟩
  · rcases mem_hold hk with rfl | hk
    · exact Nat.le_refl _
    · exact Nat.le_succ_of_le (h.held k hk hkg).2
  · obtain ⟨new, hissued, hnew⟩ := h.issued
    refine ⟨new ++ [b.nextHeld g' c copy], ?_,
      List.forall_mem_append.mpr ⟨fun k hk hkg => Or.inl ?_, fun k hk _ => ?_⟩⟩
    · show b.issued ++ _ = _
      rw [hissued, List.append_assoc]
    · rcases hnew k hk hkg with hmem | ⟨hnone, -⟩
      · exact hheld.mem_iff.mpr (List.mem_cons_of_mem _ hmem)
      · rw [hlive] at hnone
        cases hnone
    · rw [List.mem_singleton.mp hk]
      exact Or.inl (hheld.mem_iff.mpr List.mem_cons_self)

theorem dispatch (h : Opened before g b) : Opened before g b.dispatch :=
  dispatch_keeps (P := Opened before g) (fun h hg => h.give hg)
    (fun h => ⟨h.live, h.consumers, fun k hk hg => (h.held k hk hg).imp id Nat.le_succ_of_le, h.issued⟩) h

/-- A copy that is queued stands behind those that are ready again. -/
theorem append (h : Opened before g b) (m : Message) (queue : String) : Opened before g (b.append m queue) := by
  obtain ⟨new, hissued, hnew⟩ := h.issued
  refine ⟨h.live, h.consumers, h.held, new, hissued,
    fun k hk hg => (hnew k hk hg).imp id fun ⟨hl, hready⟩ => ⟨hl, ?_⟩⟩
  have hqueue : (b.append m queue).ready k.queue =
      if queue = k.queue then b.ready queue ++ [⟨b.queued, m, false⟩] else b.ready k.queue := ready_setReady _ _ _ _
  rw [hqueue]
  split
  · rename_i heq
    exact List.mem_append_left _ (heq ▸ hready)
  · exact hready

/-- What a session holds is ready again when it ends. -/
theorem endSession (h : Opened before g b) (g' : Nat) : Opened before g (b.endSession g') := by
  obtain ⟨new, hissued, hnew⟩ := h.issued
  obtain ⟨queues, -, heq⟩ := endSession_eq b g'
  have hlive : (b.endSession g').live = if b.live = some g' then none else b.live := endSession_live b g'
  have hconsumers : (b.endSession g').consumers = b.consumers.filter fun c => c.generation != g' := by rw [heq]
  have hheld : (b.endSession g').held = b.others g' := by rw [heq]
  have hissued' : (b.endSession g').issued = before.issued ++ new := by rw [heq, ← hissued]
  by_cases hg : g' = g
  · -- nothing of the session is left, and what it held is ready
    subst hg
    have hnone : (b.endSession g').live = none := by
      rw [hlive]
      rcases h.live with hl | hl
      · rw [if_pos hl]
      · rw [hl]
        rfl
    refine ⟨Or.inr hnone, fun k hk hkg => ?_, fun k hk hkg => ?_, new, hissued',
      fun k hk hkg => Or.inr ⟨hnone, ?_⟩⟩
    · rw [hconsumers] at hk
      simpa [hkg] using (List.mem_filter.mp hk).2
    · rw [hheld] at hk
      simpa [hkg] using (List.mem_filter.mp hk).2
    · rw [ready_endSession]
      rcases hnew k hk hkg with hmem | ⟨-, hready⟩
      · refine List.mem_append_left _ (List.mem_map.mpr ⟨k, List.mem_filter.mpr ⟨?_, decide_eq_true rfl⟩, rfl⟩)
        exact List.mem_filter.mpr ⟨hmem, beq_iff_eq.mpr hkg⟩
      · exact List.mem_append_right _ hready
  · -- the session that ends is another one, which is not live
    have hother : b.live ≠ some g' := fun hl => hg (h.live_eq hl)
    have hsame : (b.endSession g').live = b.live := by rw [hlive, if_neg hother]
    have htag : (b.endSession g').nextTag = b.nextTag := by
      rw [heq]
      exact if_neg hother
    refine ⟨hsame ▸ h.live, fun k hk hkg => ?_, fun k hk hkg => ?_, new, hissued', fun k hk hkg => ?_⟩
    · rw [hconsumers] at hk
      rw [hsame]
      exact h.consumers k (List.mem_filter.mp hk).1 hkg
    · rw [hheld] at hk
      rw [hsame, htag]
      exact h.held k (List.mem_filter.mp hk).1 hkg
    · rw [hheld, hsame, ready_endSession]
      refine (hnew k hk hkg).imp (fun hmem => List.mem_filter.mpr ⟨hmem, ?_⟩)
        fun ⟨hl, hready⟩ => ⟨hl, List.mem_append_right _ hready⟩
      rw [hkg]
      exact bne_iff_ne.mpr fun heq => hg heq.symm

/-- No act but a resolution takes anything from the session. -/
theorem run (h : Opened before g b) (hopens : ∀ receiver g notify, a ≠ .openSession receiver g notify)
    (hresolves : ∀ g tag outcome, a ≠ .resolve g tag outcome) : Opened before g (a.run b) := by
  have hroles : ∀ {b'}, b' = { b with consumers := b'.consumers } →
      (∀ k ∈ b'.consumers, ∃ k' ∈ b.consumers, k'.generation = k.generation) → Opened before g b' := by
    intro b' hframe hgenerations
    rw [hframe]
    refine ⟨h.live, fun k hk hg => ?_, h.held, h.issued⟩
    obtain ⟨k', hk', heq⟩ := hgenerations k hk
    exact h.consumers k' hk' (heq.trans hg)
  refine run_keeps (P := Opened before g) h
    (fun m _ => publish_keeps (P := Opened before g) (fun h => (h.append m _).dispatch) h)
    (fun receiver g notify h => absurd h (hopens receiver g notify))
    (fun k _ outcome h _ => absurd h (hresolves _ _ _)) (fun ch id r _ hf => ?_)
    (fun receiver ch _ => hroles (grantTo_spec receiver ch.waiting b ch).1 (generation_grantTo receiver ch.waiting b ch))
    (fun _ _ _ _ => ⟨h.live, h.consumers, h.held, h.issued⟩) (fun receiver g' queue consumerTag _ hl => ?_)
    (fun h => h.alike) dispatch fun g h => h.endSession g
  · obtain ⟨hframe, -, hgenerations⟩ := forward?_frame hf
    exact hroles hframe hgenerations
  · obtain rfl := h.live_eq hl
    exact ⟨h.live, fun _ _ _ => hl, h.held, h.issued⟩

end Opened
end Broker
end EventCourier
