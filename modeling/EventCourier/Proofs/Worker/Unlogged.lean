import EventCourier.Proofs.Worker.Sessions

/-!
# The log changes nothing

The log of sessions stands in front of a broker and is never read. Without it every operation of a connection
has the same result and leads to the same connection (`attempt_unlogged`, `retry_unlogged`, `lose_unlogged`,
`resolve_unlogged`, `close_unlogged`), and a worker takes the same turns (`after_unlogged`).
-/

namespace EventCourier

variable {β ρ : Type}

open Connection

/-- The connection on the broker itself. -/
def Connection.unlogged (c : Connection (Logged β)) : Connection β where
  bindings := c.bindings
  config := c.config
  notify := c.notify
  session := c.session
  generation := c.generation
  state := c.state
  broker := c.broker.broker
  journal := c.journal

/-! ## The connection -/

theorem release_unlogged (api : BrokerApi β) (c : Connection (Logged β)) :
    (c.release api.logged).unlogged = c.unlogged.release api := by
  obtain ⟨bindings, config, notify, session, generation, state, broker, journal⟩ := c
  cases session <;> rfl

theorem startAttempt_unlogged (api : BrokerApi β) (c : Connection (Logged β)) :
    (c.startAttempt api.logged).unlogged = c.unlogged.startAttempt api := by
  have hrelease := release_unlogged api c
  unfold startAttempt
  dsimp only
  rw [← hrelease]
  rfl

theorem close_unlogged (api : BrokerApi β) (c : Connection (Logged β)) :
    (c.close api.logged).unlogged = c.unlogged.close api :=
  release_unlogged api (c.publish .shuttingDown)

theorem lose_unlogged (api : BrokerApi β) (c : Connection (Logged β)) (n : Notice) :
    (c.lose api.logged n).1 = (c.unlogged.lose api n).1 ∧
      (c.lose api.logged n).2.unlogged = (c.unlogged.lose api n).2 := by
  have hrelease := release_unlogged api ((c.record (.sessionLost n)).mark .lost)
  have hcurrent : (c.unlogged.session.isSome && n.generation == c.unlogged.generation) =
      (c.session.isSome && n.generation == c.generation) := rfl
  unfold lose
  rw [hcurrent]
  split
  · exact ⟨rfl, congrArg (fun c => c.publish .disconnected) hrelease⟩
  · exact ⟨rfl, rfl⟩

theorem resolve_unlogged (api : BrokerApi β) (c : Connection (Logged β)) (t : Tag) (outcome : Outcome) :
    (c.resolve api.logged t outcome).1 = (c.unlogged.resolve api t outcome).1 ∧
      (c.resolve api.logged t outcome).2.unlogged = (c.unlogged.resolve api t outcome).2 := by
  have hcurrent : c.unlogged.isCurrent t = c.isCurrent t := rfl
  unfold resolve
  rw [show c.unlogged.session = c.session from rfl, hcurrent]
  cases c.session with
  | none => exact ⟨rfl, rfl⟩
  | some g =>
    cases c.isCurrent t with
    | false => exact ⟨rfl, rfl⟩
    | true => cases outcome <;> exact ⟨rfl, rfl⟩

/-- An attempt makes the same steps without the log. -/
theorem attempt_unlogged (api : BrokerApi β) (a : Attempt) (c : Connection (Logged β)) :
    (a.step api.logged c).1 = (a.step api c.unlogged).1 ∧
      (a.step api.logged c).2.unlogged = (a.step api c.unlogged).2 := by
  obtain ⟨bindings, config, notify, session, generation, state, broker, journal⟩ := c
  match a with
  | .opening =>
    simp only [Attempt.step, BrokerApi.logged, unlogged]
    rcases api.openSession generation notify broker.broker with ⟨e | ⟨⟩, b⟩ <;> exact ⟨rfl, rfl⟩
  | .settingUp (call :: left) =>
    simp only [Attempt.step, setup_logged, Call.unnoted, unlogged]
    rcases call.run api generation broker.broker with ⟨e | ⟨⟩, b⟩ <;> exact ⟨rfl, rfl⟩
  | .settingUp [] => exact ⟨rfl, rfl⟩
  | .undoing e => exact ⟨rfl, rfl⟩
  | .over result => exact ⟨rfl, rfl⟩

theorem afterFailure_unlogged (attempt maxAttempts : Nat) (e : WorkerError) (c : Connection (Logged β)) :
    (Retry.afterFailure attempt maxAttempts e c).1 = (Retry.afterFailure attempt maxAttempts e c.unlogged).1 ∧
      (Retry.afterFailure attempt maxAttempts e c).2.unlogged =
        (Retry.afterFailure attempt maxAttempts e c.unlogged).2 := by
  cases e <;> exact ⟨rfl, rfl⟩

/-- So does a series of attempts. -/
theorem retry_unlogged (api : BrokerApi β) (shutdown : Bool) (r : Retry) (c : Connection (Logged β)) :
    (r.step? api.logged shutdown c).map (fun s => (s.1, s.2.unlogged)) = r.step? api shutdown c.unlogged := by
  have hstep : ∀ (attempt : Nat) (a : Attempt),
      (some (Retry.attempting attempt (a.step api.logged c).1, (a.step api.logged c).2)).map
        (fun s => (s.1, s.2.unlogged)) =
      some (Retry.attempting attempt (a.step api c.unlogged).1, (a.step api c.unlogged).2) := by
    intro attempt a
    obtain ⟨hattempt, hconnection⟩ := attempt_unlogged api a c
    rw [Option.map_some, hattempt, hconnection]
  match r with
  | .trying attempt =>
    cases shutdown with
    | true => rfl
    | false => exact congrArg (fun c => some (Retry.attempting attempt .opening, c)) (startAttempt_unlogged api c)
  | .attempting attempt .opening => exact hstep attempt .opening
  | .attempting attempt (.settingUp left) => exact hstep attempt (.settingUp left)
  | .attempting attempt (.undoing e) => exact hstep attempt (.undoing e)
  | .attempting attempt (.over (.ok ())) => rfl
  | .attempting attempt (.over (.error e)) =>
    obtain ⟨hretry, hconnection⟩ := afterFailure_unlogged attempt c.config.maxAttempts e c
    exact congrArg some (Prod.ext hretry hconnection)
  | .pausing attempt => cases shutdown <;> rfl
  | .done result => rfl

theorem openSession_unlogged {api : BrokerApi β} {g : Nat} {notify : Bool} {s s' : Logged β}
    {result : Except WorkerError Unit} (call : api.logged.openSession g notify s = (result, s')) :
    api.openSession g notify s.broker = (result, s'.broker) := by
  simp only [BrokerApi.logged] at call
  split at call <;> cases call <;> assumption

theorem Connection.Same.unlogged {c c' : Connection (Logged β)} (h : Same c c') : Same c.unlogged c'.unlogged :=
  ⟨h.bindings, h.config, h.notify, h.session, h.generation, congrArg Logged.broker h.broker⟩

/-- What one step makes of a connection it makes of the connection on the broker itself. -/
theorem Connection.Change.unlogged {api : BrokerApi β} {c c' : Connection (Logged β)}
    {l : Option (Tag × Outcome)} {a a' : Option Attempt} (h : Change api.logged c c' l a a') :
    Change api c.unlogged c'.unlogged l a a' := by
  cases h with
  | quiet h => exact .quiet h.unlogged
  | reported h => exact .reported h.unlogged
  | started h =>
    refine .started ?_
    rw [← release_unlogged]
    exact h.unlogged
  | refused call h => exact .refused (openSession_unlogged call) h.unlogged
  | opened call h => exact .opened (openSession_unlogged call) h.unlogged
  | called h =>
    rw [setup_logged] at h
    exact .called h.unlogged
  | failed h =>
    rw [setup_logged] at h
    exact .failed h.unlogged
  | established h => exact .established h.unlogged
  | undone h => exact .undone h.unlogged
  | released h =>
    refine .released ?_
    rw [← release_unlogged]
    exact h.unlogged
  | resolved session current h =>
    rw [resolve_logged] at h
    exact .resolved session current h.unlogged

/-! ## The worker -/

namespace Worker

/-- The worker on the broker itself. -/
def unlogged (w : Worker (Logged β) ρ) : Worker β ρ where
  name := w.name
  router := w.router
  connection := w.connection.unlogged
  channel := w.channel
  notices := w.notices
  shutdown := w.shutdown
  clock := w.clock
  activity := w.activity

/-- What happens next to a worker on the broker itself. -/
def nextUnlogged (api : BrokerApi β) (w : Worker β ρ) : Turn β → Worker β ρ
  | .step => (w.step? api).getD w
  | .resume => w.resume
  | .answer result duration => w.answer result duration
  | .outside f channel notices shutdown clock =>
    { w with
      connection := { w.connection with broker := f w.connection.broker }
      channel := channel
      notices := notices
      shutdown := shutdown
      clock := clock }

theorem decided_unlogged (w : Worker (Logged β) ρ) (d : Delivery) (result : Outcome × Journal) :
    (w.decided d result).unlogged = w.unlogged.decided d result := by
  rw [decided_eq, decided_eq]
  rfl

theorem choose?_unlogged (api : BrokerApi β) (w : Worker (Logged β) ρ) :
    (w.choose? api.logged).map unlogged = w.unlogged.choose? api := by
  obtain ⟨name, router, c, channel, notices, shutdown, clock, activity⟩ := w
  unfold choose? unlogged
  dsimp only
  cases shutdown with
  | true => rfl
  | false =>
    cases notices with
    | nil =>
      obtain ⟨capacity, buffer, waiting, isOpen⟩ := channel
      cases buffer <;> rfl
    | cons n rest =>
      obtain ⟨hlost, hconnection⟩ := lose_unlogged api c n
      simp only [Bool.false_eq_true, if_false, Option.map_some, ← hlost, ← hconnection]
      split <;> rfl

theorem handle_unlogged (w : Worker (Logged β) ρ) (d : Delivery) :
    (w.handle d).unlogged = w.unlogged.handle d := by
  have hcurrent : w.unlogged.connection.isCurrent d.tag = w.connection.isCurrent d.tag := rfl
  have hprepared : Pipeline.prepare w.unlogged.router d.message w.unlogged.clock =
      Pipeline.prepare w.router d.message w.clock := rfl
  unfold handle
  rw [hcurrent]
  cases w.connection.isCurrent d.tag with
  | false => rfl
  | true =>
    simp only [if_true, hprepared]
    cases Pipeline.prepare w.router d.message w.clock with
    | ok p => rfl
    | error e => exact decided_unlogged _ d _

theorem settle_unlogged (api : BrokerApi β) (w : Worker (Logged β) ρ) (d : Delivery) (outcome : Outcome) :
    (w.settle api.logged d outcome).unlogged = w.unlogged.settle api d outcome := by
  obtain ⟨name, router, c, channel, notices, shutdown, clock, activity⟩ := w
  obtain ⟨hresult, hconnection⟩ := resolve_unlogged api c d.tag outcome
  unfold settle unlogged
  dsimp only
  rcases hl : c.resolve api.logged d.tag outcome with ⟨r, c₁⟩
  rcases hr : c.unlogged.resolve api d.tag outcome with ⟨r', c₂⟩
  rw [hl, hr] at hresult hconnection
  cases hresult
  cases hconnection
  cases r <;> rfl

theorem finish_unlogged (api : BrokerApi β) (w : Worker (Logged β) ρ) (result : Except WorkerError Unit) :
    (w.finish api.logged result).unlogged = w.unlogged.finish api result := by
  obtain ⟨name, router, c, channel, notices, shutdown, clock, activity⟩ := w
  unfold finish unlogged
  dsimp only
  rw [← close_unlogged]
  split <;> rfl

/-- A worker makes the same steps without the log. -/
theorem step?_unlogged (api : BrokerApi β) (w : Worker (Logged β) ρ) :
    (w.step? api.logged).map unlogged = w.unlogged.step? api := by
  unfold step?
  rw [show w.unlogged.activity = w.activity from rfl]
  split
  · rfl
  · rfl
  · rw [show w.unlogged.connection = w.connection.unlogged from rfl,
      show w.unlogged.shutdown = w.shutdown from rfl, ← retry_unlogged, Option.map_map, Option.map_map]
    rfl
  · exact choose?_unlogged api w
  · exact congrArg some (handle_unlogged w _)
  · rfl
  · show Option.map unlogged (if w.shutdown then _ else _) = if w.shutdown then _ else _
    split <;> rfl
  · exact congrArg some (settle_unlogged api w _ _)
  · exact congrArg some (finish_unlogged api w _)
  · rfl

theorem next_unlogged (api : BrokerApi β) (w : Worker (Logged β) ρ) (t : Turn β) :
    (next api w t).unlogged = w.unlogged.nextUnlogged api t := by
  cases t with
  | step =>
    show ((w.step? api.logged).getD w).unlogged = (w.unlogged.step? api).getD w.unlogged
    rw [← step?_unlogged]
    cases w.step? api.logged <;> rfl
  | resume =>
    show w.resume.unlogged = w.unlogged.resume
    unfold resume
    rw [show w.unlogged.activity = w.activity from rfl]
    split <;> rfl
  | answer result duration =>
    show (w.answer result duration).unlogged = w.unlogged.answer result duration
    unfold answer
    rw [show w.unlogged.activity = w.activity from rfl]
    split
    · exact decided_unlogged w _ _
    · rfl
  | outside f channel notices shutdown clock => rfl

/-- **The log changes nothing**: without it the same turns lead a worker to the same state. -/
theorem after_unlogged (api : BrokerApi β) (turns : List (Turn β)) : ∀ w : Worker (Logged β) ρ,
    (after api w turns).unlogged = turns.foldl (nextUnlogged api) w.unlogged := by
  induction turns with
  | nil => exact fun _ => rfl
  | cons t turns ih =>
    intro w
    show (after api (next api w t) turns).unlogged = turns.foldl (nextUnlogged api) (w.unlogged.nextUnlogged api t)
    rw [ih, next_unlogged]

end Worker
end EventCourier
