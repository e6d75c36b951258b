import EventCourier.Broker.Memory

/-!
# Handing out, one copy at a time

A copy is handed out exactly as `give` does it, under the conditions of `Gives` (`handOut_given`); otherwise
at most a number is spent (`handOut_refused`). What both keep is kept by `dispatch` (`dispatch_keeps`), and
what dispatching and queueing keep is kept by `publish` (`publish_keeps`).
-/

namespace EventCourier

/-- The delivery of a copy that is handed out. -/
def Held.delivery (h : Held) : Delivery := ⟨h.copy.message, h.tag, h.copy.redelivered⟩

namespace Broker

/-- The next copy for consumer `c` of the live session `g` can be handed out. No consumer of the session that came
before `c` is on its queue. -/
structure Gives (b : Broker) (g : Nat) (c : Consumer) (copy : Copy) (rest : List Copy) : Prop where
  live : b.live = some g
  room : b.hasRoom g = true
  mem : c ∈ b.consumers
  generation : c.generation = g
  first : (b.consumers.find? fun k => k.generation == g && k.queue == c.queue) = some c
  ready : b.ready c.queue = copy :: rest
  listening : c.forwarder ≠ .ended

/-- A copy for consumer `c` under the next number of session `g`. -/
def nextHeld (b : Broker) (g : Nat) (c : Consumer) (copy : Copy) : Held := ⟨⟨g, b.nextTag + 1⟩, c.queue, copy⟩

/-- The broker after it handed out a copy to consumer `c`, in whose queue `rest` stays. -/
def give (b : Broker) (g : Nat) (c : Consumer) (copy : Copy) (rest : List Copy) : Broker :=
  { b.setReady c.queue rest with
    nextTag := b.nextTag + 1
    consumers := send c.id (b.nextHeld g c copy).delivery b.consumers
    held := hold (b.nextHeld g c copy) b.held
    issued := b.issued ++ [b.nextHeld g c copy]
    woken := if c.forwarder = .idle then b.woken ++ [c.id] else b.woken }

/-- The broker after a number was spent on nothing. -/
def spend (b : Broker) : Broker := { b with nextTag := b.nextTag + 1 }

/-- The first of those with one property is the first of those with a stronger one, if it has that. -/
theorem find?_of_imp {α : Type} {p q : α → Bool} {l : List α} (hpq : ∀ x ∈ l, q x = true → p x = true) {x : α}
    (hx : q x = true) (h : l.find? p = some x) : l.find? q = some x := by
  induction l with
  | nil => cases h
  | cons y l ih =>
    rw [List.find?_cons] at h ⊢
    cases hp : p y with
    | true =>
      rw [hp] at h
      cases h
      rw [hx]
    | false =>
      rw [hp] at h
      have hq : q y = false := by
        cases hq : q y with
        | false => rfl
        | true => exact absurd (hpq y List.mem_cons_self hq) (by rw [hp]; exact Bool.false_ne_true)
      rw [hq]
      exact ih (fun x hx => hpq x (List.mem_cons_of_mem _ hx)) h

/-- The consumer next in turn is the first of the live session on a queue where a copy waits, and the session has
room. -/
theorem nextConsumer?_some {b : Broker} {g : Nat} {c : Consumer} (h : b.nextConsumer? = some (g, c)) :
    b.live = some g ∧ b.hasRoom g = true ∧ b.ready c.queue ≠ [] ∧
      (b.consumers.find? fun k => k.generation == g && k.queue == c.queue) = some c := by
  unfold nextConsumer? at h
  cases hl : b.live with
  | none => simp [hl] at h
  | some g' =>
    cases hr : b.hasRoom g' with
    | false => simp [hl, hr] at h
    | true =>
      simp only [hl, hr, Option.bind_eq_bind, Option.bind_some, if_true, Option.bind_eq_some_iff] at h
      obtain ⟨k, hk, hp⟩ := h
      simp only [Option.pure_def, Option.some.injEq, Prod.mk.injEq] at hp
      obtain ⟨rfl, rfl⟩ := hp
      have hfound := List.find?_some hk
      simp only [Bool.and_eq_true, beq_iff_eq, Bool.not_eq_true', List.isEmpty_eq_false_iff] at hfound
      refine ⟨rfl, hr, hfound.2, find?_of_imp (fun x _ hx => ?_) (by simp [hfound.1]) hk⟩
      simp only [Bool.and_eq_true, beq_iff_eq] at hx
      simpa [hx.1, hx.2] using hfound.2

/-- A copy is handed out as `give` does it. -/
theorem handOut_given {b b' : Broker} (h : b.handOut = .given b') :
    ∃ g c copy rest, Gives b g c copy rest ∧ b' = b.give g c copy rest := by
  unfold handOut at h
  split at h
  · cases h
  · rename_i g c hnext
    obtain ⟨hl, hroom, -, hfirst⟩ := nextConsumer?_some hnext
    have hg : c.generation = g := by
      have hfound := List.find?_some hfirst
      simp only [Bool.and_eq_true, beq_iff_eq] at hfound
      exact hfound.1
    split at h
    · cases h
    · rename_i copy rest hready
      split at h
      · cases h
      · rename_i hopen
        simp only [HandOut.given.injEq] at h
        exact ⟨g, c, copy, rest,
          ⟨hl, hroom, List.mem_of_find?_eq_some hfirst, hg, hfirst, hready, hopen⟩, h.symm⟩

/-- A copy is refused by a consumer whose forwarder has ended. It stays where it is; only its number is spent. -/
theorem handOut_refused {b b' : Broker} (h : b.handOut = .refused b') :
    b' = b.spend ∧ ∃ c ∈ b.consumers, c.forwarder = .ended := by
  unfold handOut at h
  split at h
  · cases h
  · rename_i g c hnext
    obtain ⟨-, -, -, hfirst⟩ := nextConsumer?_some hnext
    split at h
    · cases h
    · split at h
      · rename_i hended
        simp only [HandOut.refused.injEq] at h
        exact ⟨h.symm, c, List.mem_of_find?_eq_some hfirst, hended⟩
      · cases h

/-- Nothing is handed out only if no consumer is next in turn. -/
theorem handOut_nothing {b : Broker} (h : b.handOut = .nothing) : b.nextConsumer? = none := by
  unfold handOut at h
  split at h
  · assumption
  · rename_i g c hnext
    split at h
    · rename_i hready
      exact absurd hready (nextConsumer?_some hnext).2.2.1
    · split at h <;> cases h

/-- What is kept by handing out one copy and by spending a number is kept by dispatching. -/
theorem dispatch_keeps {P : Broker → Prop}
    (hgive : ∀ {b g c copy rest}, P b → Gives b g c copy rest → P (b.give g c copy rest))
    (hspend : ∀ {b}, P b → P b.spend) {b : Broker} (h : P b) : P b.dispatch := by
  have hupTo : ∀ n b, P b → P (dispatchUpTo n b) := by
    intro n
    induction n with
    | zero => exact fun b hb => hb
    | succ n ih =>
      intro b hb
      unfold dispatchUpTo
      cases hout : b.handOut with
      | nothing => exact hb
      | refused b' => exact (handOut_refused hout).1 ▸ hspend hb
      | given b' =>
        obtain ⟨g, c, copy, rest, hgives, rfl⟩ := handOut_given hout
        exact ih _ (hgive hb hgives)
  exact hupTo _ b h

/-- The broker after a copy was put behind the others of a queue, before it is dispatched. -/
def append (b : Broker) (m : Message) (queue : String) : Broker :=
  { b.setReady queue (b.ready queue ++ [⟨b.queued, m, false⟩]) with queued := b.queued + 1 }

/-- What is kept by queueing a copy is kept by publishing a message. -/
theorem publish_keeps {P : Broker → Prop} {m : Message} (henqueue : ∀ {b queue}, P b → P (enqueue m b queue))
    {b : Broker} (h : P b) : P (b.publish m) := by
  have hfold : ∀ (queues : List String) (b : Broker), P b → P (queues.foldl (enqueue m) b) := by
    intro queues
    induction queues with
    | nil => exact fun b hb => hb
    | cons queue queues ih => exact fun b hb => ih _ (henqueue hb)
  exact hfold _ b h

/-- A call on a session that is not live fails and changes nothing. -/
theorem onLive_keeps {P : Broker → Prop} {g : Nat} {call : Call Broker} {b : Broker} (h : P b)
    (hcall : b.live = some g → P (call b).2) : P (onLive g call b).2 := by
  unfold onLive
  split
  · rename_i hl
    exact hcall hl
  · exact h

end Broker
end EventCourier
