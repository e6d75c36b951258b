import EventCourier.Proofs.Connection.Change
import EventCourier.Worker

/-!
# One step of the worker

`Stepped` lists the steps that a worker makes on its own, each with the worker it leads to; there are no others
(`stepped_of_step?`). Each of them is one change of the connection (`Stepped.change`).
-/

namespace EventCourier

variable {β ρ : Type}

open Connection

/-- The attempt to connect that the worker is in the midst of. -/
def Activity.underway : Activity ρ → Option Attempt
  | .connecting r => r.underway
  | _ => none

/-- What a worker turns to with the outcome of a delivery. -/
def Activity.toward (config : WorkerConfig) (d : Delivery) (outcome : Outcome) : Activity ρ :=
  if outcome = .reject true ∧ config.requeueDelay ≠ 0 then .holding d outcome else .resolving d outcome

namespace Worker

/-- What a worker reports when it ends: a shutdown that it heeded is no failure. -/
def reported : Except WorkerError Unit → Except WorkerError Unit
  | .error .shutdown => .ok ()
  | result => result

variable {api : BrokerApi β} {w w' : Worker β ρ}

/-- The worker that one step leads to. -/
inductive Stepped (api : BrokerApi β) (w : Worker β ρ) : Worker β ρ → Prop where
  | connects {r r' : Retry} {c : Connection β} (h : w.activity = .connecting r)
      (change : Change api w.connection c none r.underway r'.underway) :
      Stepped api w { w with connection := c, activity := .connecting r' }
  | connected (h : w.activity = .connecting (.done (.ok ()))) : Stepped api w (w.turnTo .choosing)
  | failed {e : WorkerError} (h : w.activity = .connecting (.done (.error e))) :
      Stepped api w (w.turnTo (.closing (.error e)))
  | leaving (h : w.activity = .choosing) (flag : w.shutdown = true) : Stepped api w (w.turnTo (.closing (.ok ())))
  | lost {n : Notice} {rest : List Notice} (h : w.activity = .choosing) (flag : w.shutdown = false)
      (notices : w.notices = n :: rest) (current : (w.connection.lose api n).1 = true) :
      Stepped api w { w with
        notices := rest
        connection := (w.connection.lose api n).2
        activity := .connecting (.start (w.connection.lose api n).2.config) }
  | ignored {n : Notice} {rest : List Notice} (h : w.activity = .choosing) (flag : w.shutdown = false)
      (notices : w.notices = n :: rest) (stale : (w.connection.lose api n).1 = false) :
      Stepped api w { w with notices := rest }
  | took {d : Delivery} {rest : List Delivery} (h : w.activity = .choosing)
      (buffer : w.channel.buffer = d :: rest) (flag : w.shutdown = false) (notices : w.notices = []) :
      Stepped api w { w with channel := { w.channel with buffer := rest }, activity := .handling d }
  | stale {d : Delivery} (h : w.activity = .handling d) (hd : w.connection.isCurrent d.tag = false) :
      Stepped api w { w with connection := w.connection.mark .stale, activity := .choosing }
  | asked {d : Delivery} {p : Prepared ρ} (h : w.activity = .handling d) (hd : w.connection.isCurrent d.tag = true)
      (prepared : Pipeline.prepare w.router d.message w.clock = .ok p) :
      Stepped api w { w with
        connection := w.connection.mark (.received d.message.routingKey)
        activity := .persisting d p }
  | refused {d : Delivery} {e : WorkerError} {j : Journal} (h : w.activity = .handling d)
      (hd : w.connection.isCurrent d.tag = true)
      (prepared : Pipeline.prepare w.router d.message w.clock = .error e) :
      Stepped api w { w with
        connection := { w.connection with journal := j }
        activity := .toward w.connection.config d (Pipeline.outcomeOf w.connection.config.rejectPolicy e) }
  | hurried {d : Delivery} {outcome : Outcome} (h : w.activity = .holding d outcome) (flag : w.shutdown = true) :
      Stepped api w (w.turnTo (.resolving d outcome))
  | settled {d : Delivery} {outcome : Outcome} {c : Connection β} (h : w.activity = .resolving d outcome)
      (same : Same (w.connection.resolve api d.tag outcome).2 c) :
      Stepped api w { w with connection := c, activity := .choosing }
  | stopped {result result' : Except WorkerError Unit} {c : Connection β} (h : w.activity = .closing result)
      (same : Same (w.connection.close api) c) (reports : result' = reported result) :
      Stepped api w { w with connection := c, activity := .stopped result' }

theorem decided_eq (w : Worker β ρ) (d : Delivery) (result : Outcome × Journal) :
    w.decided d result = { w with
      connection := { w.connection with journal := result.2 }
      activity := .toward w.connection.config d result.1 } := by
  unfold decided Activity.toward turnTo
  dsimp only
  split <;> rfl

/-! ## What leads to a step -/

/-- A notice of another session than the current one leaves the connection as it is. -/
theorem lose_stale {c : Connection β} {n : Notice} (h : (c.lose api n).1 = false) : (c.lose api n).2 = c := by
  unfold Connection.lose at h ⊢
  split
  · rename_i hlost
    simp [hlost] at h
  · rfl

theorem stepped_of_choose? (h : w.activity = .choosing) (hw : w.choose? api = some w') : Stepped api w w' := by
  unfold choose? at hw
  split at hw
  · rename_i flag
    cases hw
    exact .leaving h flag
  · rename_i flag
    have flag : w.shutdown = false := Bool.eq_false_iff.mpr flag
    split at hw
    · rename_i n rest notices
      simp only [Option.some.injEq] at hw
      subst hw
      split
      · rename_i current
        exact .lost h flag notices current
      · rename_i stale
        have stale : (w.connection.lose api n).1 = false := Bool.eq_false_iff.mpr stale
        rw [lose_stale stale]
        exact .ignored h flag notices stale
    · rename_i notices
      split at hw
      · rename_i d rest buffer
        cases hw
        exact .took h buffer flag notices
      · cases hw

theorem stepped_handle {d : Delivery} (h : w.activity = .handling d) : Stepped api w (w.handle d) := by
  unfold handle
  cases hd : w.connection.isCurrent d.tag with
  | false =>
    rw [if_neg (by simp)]
    exact .stale h hd
  | true =>
    rw [if_pos rfl]
    dsimp only
    split
    · rename_i p hp
      exact .asked h hd hp
    · rename_i e he
      rw [decided_eq]
      exact .refused h hd he

theorem stepped_settle {d : Delivery} {outcome : Outcome} (h : w.activity = .resolving d outcome) :
    Stepped api w (w.settle api d outcome) := by
  have hsettled : ∀ c, Same (w.connection.resolve api d.tag outcome).2 c →
      Stepped api w { w with connection := c, activity := .choosing } := fun c hc => .settled h hc
  unfold settle
  split
  · rename_i c hc
    exact hsettled c (hc ▸ .refl c)
  · rename_i e c hc
    exact hsettled _ (hc ▸ ⟨rfl, rfl, rfl, rfl, rfl, rfl⟩)

/-- A worker that finishes has closed its connection, and reports what it is closing with. -/
theorem finish_eq (api : BrokerApi β) (w : Worker β ρ) (result : Except WorkerError Unit) :
    ∃ c, Same (w.connection.close api) c ∧
      w.finish api result = { w with connection := c, activity := .stopped (reported result) } := by
  unfold finish
  match result with
  | .ok () | .error .shutdown => exact ⟨_, .refl _, rfl⟩
  | .error (.connection _) | .error (.topology _) | .error (.decode _) | .error (.sink _)
  | .error (.reconnectExhausted _ _) | .error (.config _) =>
    exact ⟨(w.connection.close api).record (.workerFailed w.name _), ⟨rfl, rfl, rfl, rfl, rfl, rfl⟩, rfl⟩

theorem stepped_finish {result : Except WorkerError Unit} (h : w.activity = .closing result) :
    Stepped api w (w.finish api result) := by
  obtain ⟨c, hsame, heq⟩ := finish_eq api w result
  rw [heq]
  exact .stopped h hsame rfl

/-- A worker makes no other steps than those listed. -/
theorem stepped_of_step? (hw : w.step? api = some w') : Stepped api w w' := by
  unfold step? at hw
  split at hw
  · rename_i h
    cases hw
    exact .connected h
  · rename_i e h
    cases hw
    exact .failed h
  · rename_i r _ _ h
    rw [Option.map_eq_some_iff] at hw
    obtain ⟨⟨r', c⟩, hstep, rfl⟩ := hw
    exact .connects h (Retry.step?_change hstep)
  · rename_i h
    exact stepped_of_choose? h hw
  · rename_i d h
    cases hw
    exact stepped_handle h
  · cases hw
  · rename_i d outcome h
    split at hw <;> cases hw
    rename_i flag
    exact .hurried h flag
  · rename_i d outcome h
    cases hw
    exact stepped_settle h
  · rename_i result h
    cases hw
    exact stepped_finish h
  · cases hw

/-! ## The connection -/

/-- With the outcome of a delivery no attempt is under way. -/
theorem toward_underway (config : WorkerConfig) (d : Delivery) (outcome : Outcome) :
    (Activity.toward config d outcome : Activity ρ).underway = none := by
  unfold Activity.toward
  split <;> rfl

theorem toward_ne_stopped (config : WorkerConfig) (d : Delivery) (outcome : Outcome)
    (result : Except WorkerError Unit) : (Activity.toward config d outcome : Activity ρ) ≠ .stopped result := by
  unfold Activity.toward
  split <;> nofun

/-- A step of the worker is one change of its connection; only what it is resolving is resolved. -/
theorem Stepped.change (h : Stepped api w w') :
    ∃ l, (l = none ∨ ∃ d outcome, w.activity = .resolving d outcome ∧ l = some (d.tag, outcome)) ∧
      Change api w.connection w'.connection l w.activity.underway w'.activity.underway := by
  cases h with
  | connects h change =>
    rw [h]
    exact ⟨none, Or.inl rfl, change⟩
  | connected h | failed h | leaving h | hurried h =>
    rw [h]
    exact ⟨none, Or.inl rfl, .quiet (.refl _)⟩
  | lost h =>
    rw [h]
    rw [show Activity.underway (.connecting (.start _) : Activity ρ) = none from Retry.start_underway _]
    exact ⟨none, Or.inl rfl, lose_change api _ _⟩
  | ignored h =>
    rw [h]
    exact ⟨none, Or.inl rfl, .quiet (.refl _)⟩
  | took h buffer =>
    rw [h]
    exact ⟨none, Or.inl rfl, .quiet (.refl _)⟩
  | stale h | asked h =>
    rw [h]
    exact ⟨none, Or.inl rfl, .quiet ⟨rfl, rfl, rfl, rfl, rfl, rfl⟩⟩
  | refused h hd prepared =>
    rw [h, toward_underway]
    exact ⟨none, Or.inl rfl, .quiet ⟨rfl, rfl, rfl, rfl, rfl, rfl⟩⟩
  | settled h same =>
    rename_i d outcome c
    obtain ⟨l, hl, hc⟩ := resolve_change api w.connection d.tag outcome
    rw [h]
    exact ⟨l, hl.imp id fun hl => ⟨d, outcome, rfl, hl⟩, hc.trans_same same⟩
  | stopped h same =>
    rw [h]
    exact ⟨none, Or.inl rfl, (close_change api _).trans_same same⟩

/-! ## Pauses and answers -/

/-- The end of a pause leads to the next attempt, or to the resolution of the delivery that was held. -/
theorem resume_spec (w : Worker β ρ) :
    w.resume = w ∨ (∃ r, w.activity = .connecting r ∧ w.resume = w.turnTo (.connecting r.resume)) ∨
      ∃ d outcome, w.activity = .holding d outcome ∧ w.resume = w.turnTo (.resolving d outcome) := by
  unfold resume
  split
  · rename_i r h
    exact Or.inr (Or.inl ⟨r, h, rfl⟩)
  · rename_i d outcome h
    exact Or.inr (Or.inr ⟨d, outcome, h, rfl⟩)
  · exact Or.inl rfl

/-- An answer decides the delivery that the backend was asked for. -/
theorem answer_spec (w : Worker β ρ) (result : Except SinkError Unit) (duration : Nat) :
    w.answer result duration = w ∨ ∃ d p j, w.activity = .persisting d p ∧
      w.answer result duration = { w with
        connection := { w.connection with journal := j }
        activity := .toward w.connection.config d
          (Pipeline.conclude w.connection.config.rejectPolicy d p.sink duration result
            w.connection.journal).1 } := by
  unfold answer
  split
  · rename_i d p h
    exact Or.inr ⟨d, p, _, h, decided_eq _ _ _⟩
  · exact Or.inl rfl

end Worker
end EventCourier
