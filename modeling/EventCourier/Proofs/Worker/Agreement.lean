import EventCourier.Proofs.Broker.Conservation
import EventCourier.Proofs.Broker.Tags
import EventCourier.Proofs.Connection.Change

/-!
# Connection and broker agree

A change of a connection on the in-memory broker comes down to at most one act on the broker (`change_act`).
`Agreed` says that connection and broker agree: what is live is the session in hand, and nothing was handed out
under a generation still to come. Every change of the connection keeps it (`agreed_change`), and so does
everything that others do to the broker (`agreed_act`). So no session is ever opened under a generation that
still holds deliveries (`Agreed.inFlight_of_opening`).
-/

namespace EventCourier

open Broker Connection

open scoped List

variable {l : Option (Tag × Outcome)} {a a' : Option Attempt} {c c' : Connection Broker}
  {ps : List (String × Message)} {receiver : Nat}

/-! ## Acts of a connection -/

/-- The act that a call of the set-up is. -/
def SetupCall.act (receiver g : Nat) : SetupCall → Act
  | .declareExchange exchange => .declareExchange g exchange
  | .assertExchange exchange => .assertExchange g exchange
  | .declareQueue t => .declareQueue g t
  | .setPrefetch count => .setPrefetch g count
  | .consume queue consumerTag => .consume receiver g queue consumerTag

theorem setup_act (receiver g : Nat) (call : SetupCall) (b : Broker) :
    (call.run (Broker.api receiver) g b).2 = (call.act receiver g).run b := by
  cases call <;> rfl

theorem resolve_act (receiver g tag : Nat) (outcome : Outcome) (b : Broker) :
    ((Broker.api receiver).resolve g tag outcome b).2 = (Act.resolve g tag outcome).run b := by
  cases outcome <;> rfl

/-- An act of the owner of a session, other than opening one: it publishes and forwards nothing, and resolves only
what `l` is. -/
structure Own (session : Option Nat) (l : Option (Tag × Outcome)) (x : Act) : Prop where
  opens : ∀ receiver g notify, x ≠ .openSession receiver g notify
  publishes : ∀ m, x ≠ .publish m
  forwards : ∀ ch id, x ≠ .forward ch id
  resolves : ∀ g v outcome, x = .resolve g v outcome → session = some g ∧ l = some (⟨g, v⟩, outcome)

/-- What an act of its own puts on queues is nothing. -/
theorem Own.routes {session : Option Nat} {x : Act} (h : Own session l x) (b : Broker) : x.routes b = [] :=
  Act.routes_of_ne h.publishes b

theorem own_close (session : Option Nat) (g : Nat) : Own session l (.close g) :=
  ⟨nofun, nofun, nofun, nofun⟩

theorem own_setup (session : Option Nat) (receiver g : Nat) (call : SetupCall) :
    Own session l (call.act receiver g) := by
  cases call <;> exact ⟨nofun, nofun, nofun, nofun⟩

/-- To let go of the session closes it, if there is one. -/
theorem release_act (receiver : Nat) (c : Connection Broker) :
    c.session = none ∧ (c.release (Broker.api receiver)).broker = c.broker ∨
      ∃ g, c.session = some g ∧ (c.release (Broker.api receiver)).broker = (Act.close g).run c.broker := by
  unfold release
  cases c.session with
  | none => exact Or.inl ⟨rfl, rfl⟩
  | some g => exact Or.inr ⟨g, rfl, rfl⟩

/-- A session that was closed is not live. -/
theorem live_close (g : Nat) (b : Broker) :
    ((Act.close g).run b).live = if b.live = some g then none else b.live :=
  endSession_live { b with closed := b.closed ++ [g] } g

/-- A change of a connection is no act on the broker, one of its own, or the opening of a session. -/
theorem change_act (hs : c.Steady a) (hc : Change (Broker.api receiver) c c' l a a') :
    c'.broker = c.broker ∨ (∃ x, Own c.session l x ∧ c'.broker = x.run c.broker) ∨
      a = some .opening ∧ c'.broker = (openSession receiver c.generation c.notify c.broker).2 := by
  cases hc with
  | quiet h | reported h | established h => exact Or.inl h.broker
  | started h | released h =>
    rcases release_act receiver c with ⟨-, heq⟩ | ⟨g, -, heq⟩
    · exact Or.inl (h.broker.trans heq)
    · exact Or.inr (Or.inl ⟨.close g, own_close _ _, h.broker.trans heq⟩)
  | refused call h | opened call h =>
    refine Or.inr (Or.inr ⟨rfl, h.broker.trans ?_⟩)
    show _ = ((Broker.api receiver).openSession c.generation c.notify c.broker).2
    rw [call]
  | called h | failed h =>
    exact Or.inr (Or.inl ⟨_, own_setup _ receiver c.generation _, h.broker.trans (setup_act ..)⟩)
  | undone h => exact Or.inr (Or.inl ⟨.close c.generation, own_close _ _, h.broker⟩)
  | resolved session current h =>
    rename_i g t outcome
    have hg : g = t.generation := (hs.current g session).trans current.symm
    refine Or.inr (Or.inl ⟨.resolve g t.value outcome, ⟨nofun, nofun, nofun, ?_⟩,
      h.broker.trans (resolve_act ..)⟩)
    rintro g' v outcome' heq
    cases heq
    exact ⟨session, by rw [hg]⟩

/-! ## Agreement -/

/-- Broker and connection agree. The broker has the copies `ps`, its tags are in order, the session that is live
is the one in hand, and no tag is of a generation still to come. -/
structure Agreed (ps : List (String × Message)) (c : Connection Broker) (a : Option Attempt) : Prop where
  coherent : Coherent c.broker ps
  orderly : Orderly c.broker
  steady : c.Steady a
  live : ∀ g, c.broker.live = some g → c.inHand a = some g
  reached : ∀ h ∈ c.broker.issued, h.tag.generation ≤ c.generation
  fresh : a = some .opening → ∀ h ∈ c.broker.issued, h.tag.generation < c.generation

namespace Agreed

/-- What is live is of the current generation. -/
theorem current (h : Agreed ps c a) {g : Nat} (hl : c.broker.live = some g) : g = c.generation :=
  h.steady.inHand_eq (h.live g hl)

/-- Without a session in hand none is live. -/
theorem live_eq_none (h : Agreed ps c a) (hnone : c.inHand a = none) : c.broker.live = none := by
  cases hl : c.broker.live with
  | none => rfl
  | some g => exact absurd (h.live g hl) (by rw [hnone]; simp)

/-- Without a session in hand nothing is held. -/
theorem held_eq_nil (h : Agreed ps c a) (hnone : c.inHand a = none) : c.broker.held = [] := by
  refine List.eq_nil_iff_forall_not_mem.mpr fun k hk => ?_
  have hl := h.orderly.live k hk
  rw [h.live_eq_none hnone] at hl
  cases hl

/-- When a session is asked for, none is live. -/
theorem live_of_opening (h : Agreed ps c (some .opening)) : c.broker.live = none :=
  h.live_eq_none ((inHand_of_not_halfway rfl).trans (h.steady.free _ rfl rfl))

/-- When a session is asked for, nothing is held. -/
theorem held_of_opening (h : Agreed ps c (some .opening)) : c.broker.held = [] :=
  h.held_eq_nil ((inHand_of_not_halfway rfl).trans (h.steady.free _ rfl rfl))

/-- When a session is asked for, there are no consumers. -/
theorem consumers_of_opening (h : Agreed ps c (some .opening)) : c.broker.consumers = [] := by
  refine List.eq_nil_iff_forall_not_mem.mpr fun k hk => ?_
  have hl := h.orderly.attended k hk
  rw [h.live_of_opening] at hl
  cases hl

/-- When a session is asked for, nothing is in flight under its generation. -/
theorem inFlight_of_opening (h : Agreed ps c (some .opening)) : c.broker.inFlight c.generation = 0 := by
  unfold inFlight
  rw [h.held_of_opening]
  rfl

/-- What is handed out is of the current generation. -/
theorem reached_of (h : Agreed ps c a) {b : Broker} (hout : HandedOut c.broker b) :
    ∀ k ∈ b.issued, k.tag.generation ≤ c.generation := by
  obtain ⟨new, gone, hissued, hnew, -⟩ := hout
  intro k hk
  rw [hissued] at hk
  rcases List.mem_append.mp hk with hk | hk
  · exact h.reached k hk
  · exact Nat.le_of_eq (h.current (hnew k hk))

end Agreed

/-- **What others do to the broker keeps the agreement.** -/
theorem agreed_act (h : Agreed ps c a) (x : Act) (hx : ∀ receiver g notify, x ≠ .openSession receiver g notify) :
    Agreed (ps ++ x.routes c.broker) { c with broker := x.run c.broker } a := by
  obtain ⟨horderly, hext⟩ := orderly_run h.orderly x hx
  refine ⟨coherent_run h.coherent x fun receiver g notify he => absurd he (hx receiver g notify), horderly,
    ⟨h.steady.current, h.steady.free⟩, fun g hl => ?_, h.reached_of hext.handedOut, fun ha => ?_⟩
  · rcases hext.live with heq | heq
    · exact h.live g (heq ▸ hl)
    · rw [heq] at hl
      cases hl
  · subst ha
    rw [hext.handedOut.issued_eq h.live_of_opening]
    exact h.fresh rfl

/-- A change of the connection keeps copies and tags, and hands out at most. -/
theorem change_broker (hc : Change (Broker.api receiver) c c' l a a') (h : Agreed ps c a) :
    Coherent c'.broker ps ∧ Orderly c'.broker ∧ HandedOut c.broker c'.broker := by
  rcases change_act h.steady hc with heq | ⟨x, hx, heq⟩ | ⟨ha, heq⟩
  · rw [heq]
    exact ⟨h.coherent, h.orderly, handedOut_refl _⟩
  · have hrun := agreed_act h x hx.opens
    rw [hx.routes, List.append_nil] at hrun
    rw [heq]
    exact ⟨hrun.coherent, hrun.orderly, (orderly_run h.orderly x hx.opens).2.handedOut⟩
  · subst ha
    rw [heq]
    refine ⟨coherent_openSession h.coherent receiver c.generation c.notify h.inFlight_of_opening,
      orderly_open h.orderly receiver c.generation c.notify h.live_of_opening (h.fresh rfl), ?_⟩
    have hsame := unmoved_openSession receiver c.generation c.notify c.broker
    exact (handedOut_refl _).of_consumers hsame.issued hsame.consumers

/-- Only what a change resolves is resolved, on the session that is live and holds it. -/
theorem change_resolved (hc : Change (Broker.api receiver) c c' l a a') (h : Agreed ps c a) :
    c'.broker.resolutions = c.broker.resolutions ∨ ∃ k ∈ c.broker.held, ∃ outcome,
      l = some (k.tag, outcome) ∧ c.session = some k.tag.generation ∧
        c.broker.live = some k.tag.generation ∧
        c'.broker.resolutions = c.broker.resolutions ++ [⟨k, outcome⟩] := by
  rcases change_act h.steady hc with heq | ⟨x, hx, heq⟩ | ⟨-, heq⟩
  · exact Or.inl (by rw [heq])
  · rw [heq]
    rcases (orderly_run h.orderly x hx.opens).2.resolved with hres | ⟨k, hk, outcome, hxeq, hlive, hres⟩
    · exact Or.inl hres
    · obtain ⟨hsession, hl⟩ := hx.resolves _ _ _ hxeq
      exact Or.inr ⟨k, hk, outcome, hl, hsession, hlive, hres⟩
  · refine Or.inl ?_
    rw [heq]
    exact (unmoved_openSession receiver c.generation c.notify c.broker).resolutions

/-- After the session was let go of none is live. -/
theorem Agreed.live_release (h : Agreed ps c none) (receiver : Nat) :
    (c.release (Broker.api receiver)).broker.live = none := by
  rcases release_act receiver c with ⟨hs, heq⟩ | ⟨g, hs, heq⟩
  · rw [heq]
    exact h.live_eq_none (by rw [inHand_of_not_halfway rfl, hs])
  · rw [heq, live_close]
    split
    · rfl
    · rename_i hne
      cases hl : c.broker.live with
      | none => rfl
      | some g' =>
        have hg := h.live g' hl
        rw [inHand_of_not_halfway rfl, hs] at hg
        rw [hl, hg] at hne
        exact absurd rfl hne

/-- Own acts but opening leave the live session live, or none. -/
theorem Agreed.live_own (h : Agreed ps c a) {x : Act} (hx : Own c.session l x) {g : Nat}
    (hl : (x.run c.broker).live = some g) : c.inHand a = some g := by
  rcases (orderly_run h.orderly x hx.opens).2.live with heq | heq
  · exact h.live g (heq ▸ hl)
  · rw [heq] at hl
    cases hl

/-- What is live after a change is what is in hand then. -/
theorem change_live (hc : Change (Broker.api receiver) c c' l a a') (h : Agreed ps c a) {g : Nat}
    (hl : c'.broker.live = some g) : c'.inHand a' = some g := by
  have hs : c'.Steady a' := hc.steady h.steady
  cases hc with
  | quiet hsame =>
    rw [hsame.inHand]
    exact h.live g (hsame.broker ▸ hl)
  | reported hsame =>
    have hhand := h.live g (hsame.broker ▸ hl)
    rw [inHand_of_not_halfway rfl] at hhand ⊢
    exact hsame.session.trans hhand
  | started hsame | released hsame =>
    rw [hsame.broker] at hl
    have hnone := h.live_release receiver
    rw [hnone] at hl
    cases hl
  | refused call hsame =>
    rcases openSession_cases receiver c.generation c.notify c.broker with ⟨e, b, hopen, halike⟩ | ⟨b, hopen, -⟩
    · cases call.symm.trans hopen
      rw [hsame.broker, halike.live, h.live_of_opening] at hl
      cases hl
    · cases call.symm.trans hopen
  | opened call hsame =>
    rcases openSession_cases receiver c.generation c.notify c.broker with ⟨e, b, hopen, -⟩ | ⟨b, hopen, halike⟩
    · cases call.symm.trans hopen
    · cases call.symm.trans hopen
      rw [hsame.broker, halike.live] at hl
      rw [inHand_of_halfway (hs.free _ rfl rfl) rfl, hsame.generation]
      exact hl
  | called hsame | failed hsame =>
    rw [hsame.broker] at hl
    have hhand := h.live_own (own_setup (l := none) c.session receiver c.generation _) (setup_act .. ▸ hl)
    rw [inHand_of_halfway (h.steady.free _ rfl rfl) rfl] at hhand
    rw [inHand_of_halfway (hs.free _ rfl rfl) rfl, hsame.generation]
    exact hhand
  | established hsame =>
    have hhand := h.live g (hsame.broker ▸ hl)
    rw [inHand_of_halfway (h.steady.free _ rfl rfl) rfl] at hhand
    rw [inHand_of_not_halfway rfl, hsame.session]
    exact hhand
  | undone hsame =>
    rw [hsame.broker] at hl
    have hclosed : (if c.broker.live = some c.generation then none else c.broker.live) = some g :=
      live_close c.generation c.broker ▸ hl
    split at hclosed
    · cases hclosed
    · rename_i hne
      have hhand := h.live g hclosed
      rw [inHand_of_halfway (h.steady.free _ rfl rfl) rfl] at hhand
      rw [hclosed, hhand] at hne
      exact absurd rfl hne
  | resolved session current hsame =>
    have hhand : c.inHand none = some g := by
      rcases change_act h.steady (.resolved session current hsame) with heq | ⟨x, hx, heq⟩ | ⟨ha, -⟩
      · exact h.live g (heq ▸ hl)
      · exact h.live_own hx (heq ▸ hl)
      · cases ha
    rw [inHand_of_not_halfway rfl] at hhand ⊢
    exact hsame.session.trans hhand

/-- **Every change of a connection keeps its agreement with the broker.** -/
theorem agreed_change (hc : Change (Broker.api receiver) c c' l a a') (h : Agreed ps c a) : Agreed ps c' a' := by
  obtain ⟨hcoherent, horderly, hout⟩ := change_broker hc h
  refine ⟨hcoherent, horderly, hc.steady h.steady, fun g hl => change_live hc h hl,
    fun k hk => Nat.le_trans (h.reached_of hout k hk) hc.generation_le, fun ha k hk => ?_⟩
  subst ha
  cases hc with
  | quiet hsame =>
    rw [hsame.broker] at hk
    rw [hsame.generation]
    exact h.fresh rfl k hk
  | started hsame =>
    rw [hsame.generation]
    exact Nat.lt_succ_of_le (Nat.le_trans (h.reached_of hout k hk) (Nat.le_of_eq (release_generation _ c).symm))

end EventCourier
