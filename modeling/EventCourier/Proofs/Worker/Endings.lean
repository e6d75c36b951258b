import EventCourier.Proofs.Connection.Series
import EventCourier.Proofs.Worker.Sessions
import Mathlib.Data.List.Induction

/-!
# Why a worker ends

While it connects, a worker makes a series of attempts (`Cycle`). There are two causes for which it ends: it heeds
a shutdown between two deliveries, or such a series comes to a failure (`Cause`). Whatever fails for one message,
or for one session, is no cause (`caused_after`). What a worker reports is read off its cause
(`worker_outlives_failures`).
-/

namespace EventCourier

variable {β ρ : Type}

open Connection

namespace Worker

theorem after_append (api : BrokerApi β) (w : Worker (Logged β) ρ) (turns turns' : List (Turn β)) :
    after api w (turns ++ turns') = after api (after api w turns) turns' :=
  List.foldl_append

/-! ## The series that a worker makes -/

/-- What a turn of a worker is to the series that it makes. -/
def seriesTurn (w : Worker (Logged β) ρ) : Turn β → Series.Turn β
  | .step => .step w.shutdown
  | .resume => .resume
  | .answer _ _ => .outside id
  | .outside f _ _ _ _ => .outside f

/-- What the turns of a worker are to the series that it makes. -/
def seriesTurns (api : BrokerApi β) (w : Worker (Logged β) ρ) : List (Turn β) → List (Series.Turn β)
  | [] => []
  | t :: turns => w.seriesTurn t :: (next api w t).seriesTurns api turns

theorem seriesTurns_concat (api : BrokerApi β) (t : Turn β) (turns : List (Turn β)) :
    ∀ w : Worker (Logged β) ρ,
      w.seriesTurns api (turns ++ [t]) = w.seriesTurns api turns ++ [(after api w turns).seriesTurn t] := by
  induction turns with
  | nil => exact fun _ => rfl
  | cons t' turns ih => exact fun w => congrArg (w.seriesTurn t' :: ·) (ih (next api w t'))

/-- When a series sees a requested shutdown, the worker does. -/
theorem flag_of_seriesTurns {api : BrokerApi β} {turns : List (Turn β)} : ∀ {w : Worker (Logged β) ρ},
    .step true ∈ w.seriesTurns api turns →
      ∃ before rest, turns = before ++ .step :: rest ∧ (after api w before).shutdown = true := by
  induction turns with
  | nil => nofun
  | cons t turns ih =>
    intro w h
    rcases List.mem_cons.mp h with heq | h
    · cases t with
      | step => exact ⟨[], turns, rfl, (Series.Turn.step.inj heq).symm⟩
      | resume | answer _ _ | outside _ _ _ _ _ => cases heq
    · obtain ⟨before, rest, rfl, hflag⟩ := ih h
      exact ⟨t :: before, rest, rfl, hflag⟩

variable {api : BrokerApi β} {w w₀ : Worker (Logged β) ρ} {s : Series β} {before during turns : List (Turn β)}
  {t : Turn β}

/-- What happens to a worker that connects happens to its series, unless that is at its end and the worker goes
on from there. -/
theorem next_connecting (ha : w.activity = .connecting s.retry) (hc : w.connection = s.connection)
    (ht : ∀ result, s.retry = .done result → t ≠ .step) :
    (next api w t).activity = .connecting (Series.next api s (w.seriesTurn t)).retry ∧
      (next api w t).connection = (Series.next api s (w.seriesTurn t)).connection := by
  cases t with
  | step =>
    have hstep : w.step? api.logged = (s.retry.step? api.logged w.shutdown s.connection).map fun (r, c) =>
        { w with connection := c, activity := .connecting r } := by
      unfold step?
      rw [ha, hc]
      cases hr : s.retry with
      | done result => exact absurd rfl (ht result hr)
      | trying _ | attempting _ _ | pausing _ => rfl
    show ((w.step? api.logged).getD w).activity = .connecting (Series.next api s (.step w.shutdown)).retry ∧
      ((w.step? api.logged).getD w).connection = (Series.next api s (.step w.shutdown)).connection
    rw [hstep, Series.next]
    cases s.retry.step? api.logged w.shutdown s.connection with
    | none => exact ⟨ha, hc⟩
    | some result => exact ⟨rfl, rfl⟩
  | resume =>
    have hresume : next api w .resume = w.turnTo (.connecting s.retry.resume) := by
      show w.resume = _
      unfold resume
      rw [ha]
    rw [hresume]
    exact ⟨rfl, hc⟩
  | answer result duration =>
    have hanswer : next api w (.answer result duration) = w := by
      show w.answer result duration = w
      unfold answer
      rw [ha]
    rw [hanswer]
    exact ⟨ha, hc⟩
  | outside f channel notices shutdown clock => exact ⟨ha, congrArg (·.disturb f) hc⟩

/-- A worker takes notice that its session is lost. -/
structure Loses (api : BrokerApi β) (w : Worker (Logged β) ρ) : Prop where
  choosing : w.activity = .choosing
  flag : w.shutdown = false
  lost : ∃ n rest, w.notices = n :: rest ∧ (w.connection.lose api.logged n).1 = true

/-- A series that a worker began after some turns, and made in the turns after them. It is the first thing that the
worker does, or the worker has just lost its session. -/
structure Cycle (api : BrokerApi β) (w₀ : Worker (Logged β) ρ) (before during : List (Turn β)) (s : Series β) :
    Prop where
  began : before = [] ∨ ∃ earlier, before = earlier ++ [.step] ∧ (after api w₀ earlier).Loses api
  started : (after api w₀ before).activity = .connecting (.start (after api w₀ before).connection.config)
  made : Series.after api (.start (after api w₀ before).connection) ((after api w₀ before).seriesTurns api during) = s
  activity : (after api w₀ (before ++ during)).activity = .connecting s.retry
  connection : (after api w₀ (before ++ during)).connection = s.connection

/-- A series goes on with every turn until the worker goes on from its end. -/
theorem Cycle.concat (h : Cycle api w₀ before during s) (ht : ∀ result, s.retry = .done result → t ≠ .step) :
    Cycle api w₀ before (during ++ [t]) (Series.next api s ((after api w₀ (before ++ during)).seriesTurn t)) := by
  obtain ⟨hactivity, hconnection⟩ := next_connecting (t := t) h.activity h.connection ht
  have hafter : after api w₀ (before ++ (during ++ [t])) = next api (after api w₀ (before ++ during)) t := by
    rw [← List.append_assoc, after_append]
    rfl
  refine ⟨h.began, h.started, ?_, by rw [hafter]; exact hactivity, by rw [hafter]; exact hconnection⟩
  rw [seriesTurns_concat, ← after_append, Series.after, List.foldl_append]
  show Series.next api (Series.after api _ _) _ = _
  rw [h.made]

/-! ## Causes -/

/-- Why a worker is to close, after some turns: it saw a requested shutdown between deliveries, or a series came
to a failure. -/
inductive Cause (api : BrokerApi β) (w₀ : Worker (Logged β) ρ) (turns : List (Turn β)) :
    Except WorkerError Unit → Prop where
  | asked {before rest : List (Turn β)} (split : turns = before ++ .step :: rest)
      (choosing : (after api w₀ before).activity = .choosing) (flag : (after api w₀ before).shutdown = true) :
      Cause api w₀ turns (.ok ())
  | failed {before during rest : List (Turn β)} {s : Series β} {e : WorkerError}
      (split : turns = before ++ during ++ rest) (cycle : Cycle api w₀ before during s)
      (done : s.retry = .done (.error e)) : Cause api w₀ turns (.error e)

theorem Cause.concat {result : Except WorkerError Unit} (h : Cause api w₀ turns result) (t : Turn β) :
    Cause api w₀ (turns ++ [t]) result := by
  cases h with
  | @asked before rest split choosing flag =>
    have hsplit : turns ++ [t] = before ++ .step :: (rest ++ [t]) := by
      rw [split, List.append_assoc, List.cons_append]
    exact .asked hsplit choosing flag
  | @failed before during rest s e split cycle done =>
    have hsplit : turns ++ [t] = before ++ during ++ (rest ++ [t]) := by rw [split, List.append_assoc]
    exact .failed hsplit cycle done

/-- Nothing but the end of a worker without anything to do, and of one with a cause. -/
def Caused (api : BrokerApi β) (w₀ : Worker (Logged β) ρ) (turns : List (Turn β)) : Activity ρ → Prop
  | .connecting r => ∃ before during s, turns = before ++ during ∧ Cycle api w₀ before during s ∧ s.retry = r
  | .closing result => Cause api w₀ turns result
  | .stopped result => ∃ cause, Cause api w₀ turns cause ∧ result = reported cause
  | _ => True

theorem caused_toward (config : WorkerConfig) (d : Delivery) (outcome : Outcome) :
    Caused api w₀ turns (.toward config d outcome) := by
  unfold Activity.toward
  split <;> trivial

/-- What keeps the worker at what it is about keeps its cause. -/
theorem Caused.concat {a : Activity ρ} (h : Caused api w₀ turns a) (ha : ∀ r, a ≠ .connecting r) (t : Turn β) :
    Caused api w₀ (turns ++ [t]) a := by
  match a, h with
  | .connecting r, _ => exact absurd rfl (ha r)
  | .closing result, h => exact Cause.concat h t
  | .stopped result, ⟨cause, hcause, hresult⟩ => exact ⟨cause, hcause.concat t, hresult⟩
  | .choosing, _ | .handling _, _ | .persisting _ _, _ | .holding _ _, _ | .resolving _ _, _ => trivial

/-- The worker goes on from the end of a series. -/
theorem step_done {result : Except WorkerError Unit} (ha : w.activity = .connecting (.done result)) :
    next api w .step = w.turnTo (if result = .ok () then .choosing else .closing result) := by
  unfold next step?
  rw [ha]
  match result with
  | .ok () => rfl
  | .error e => rfl

theorem caused_connecting {r : Retry} (h : Caused api w₀ turns (.connecting r))
    (ha : (after api w₀ turns).activity = .connecting r) (t : Turn β) :
    Caused api w₀ (turns ++ [t]) (next api (after api w₀ turns) t).activity := by
  obtain ⟨before, during, s, rfl, hcycle, rfl⟩ := h
  -- The worker goes on from the end of a series by a step; every other turn is one of the series.
  by_cases hend : t = .step ∧ ∃ result, s.retry = .done result
  · obtain ⟨rfl, result, hdone⟩ := hend
    rw [step_done (hdone ▸ ha)]
    match result, hdone with
    | .ok (), _ => trivial
    | .error e, hdone => exact Cause.failed rfl hcycle hdone
  · have ht : ∀ result, s.retry = .done result → t ≠ .step := fun result hdone ht => hend ⟨ht, result, hdone⟩
    rw [(next_connecting hcycle.activity hcycle.connection ht).1]
    exact ⟨before, during ++ [t], _, List.append_assoc .., hcycle.concat ht, rfl⟩

theorem caused_step {w' : Worker (Logged β) ρ} (h : Caused api w₀ turns (after api w₀ turns).activity)
    (hne : ∀ r, (after api w₀ turns).activity ≠ .connecting r) (hstep : Stepped api.logged (after api w₀ turns) w')
    (hw' : after api w₀ (turns ++ [.step]) = w') : Caused api w₀ (turns ++ [.step]) w'.activity := by
  cases hstep with
  | connects ha | connected ha | failed ha => exact absurd ha (hne _)
  | leaving ha flag => exact Cause.asked (show turns ++ [.step] = turns ++ .step :: [] from rfl) ha flag
  | lost ha flag notices current =>
    refine ⟨turns ++ [.step], [], .start (after api w₀ (turns ++ [.step])).connection, (List.append_nil _).symm,
      ?_, ?_⟩
    · have hstarted : (after api w₀ (turns ++ [.step])).activity =
          .connecting (.start (after api w₀ (turns ++ [.step])).connection.config) := by rw [hw']
      refine ⟨Or.inr ⟨turns, rfl, ha, flag, _, _, notices, current⟩, hstarted, rfl, ?_, ?_⟩
      · rw [List.append_nil]
        exact hstarted
      · rw [List.append_nil]
        rfl
    · rw [hw']
      rfl
  | ignored ha => exact h.concat hne _
  | took | stale | asked | hurried | settled => trivial
  | refused => exact caused_toward _ _ _
  | stopped ha same reports =>
    rw [ha] at h
    exact ⟨_, Cause.concat h _, reports⟩

/-- **One turn**: a worker that is to close, or has stopped, has a cause. -/
theorem caused_next (h : Caused api w₀ turns (after api w₀ turns).activity) (t : Turn β) :
    Caused api w₀ (turns ++ [t]) (after api w₀ (turns ++ [t])).activity := by
  have hnext : after api w₀ (turns ++ [t]) = next api (after api w₀ turns) t := after_append api w₀ turns [t]
  by_cases hconnecting : ∃ r, (after api w₀ turns).activity = .connecting r
  · obtain ⟨r, ha⟩ := hconnecting
    rw [hnext]
    exact caused_connecting (ha ▸ h) ha t
  have hne : ∀ r, (after api w₀ turns).activity ≠ .connecting r := fun r ha => hconnecting ⟨r, ha⟩
  cases t with
  | step =>
    cases hstep : (after api w₀ turns).step? api.logged with
    | none =>
      rw [hnext, show next api (after api w₀ turns) .step = after api w₀ turns by rw [next, hstep]; rfl]
      exact h.concat hne _
    | some w' =>
      have hw' : after api w₀ (turns ++ [.step]) = w' := by
        rw [hnext, next, hstep]
        rfl
      rw [hw']
      exact caused_step h hne (stepped_of_step? hstep) hw'
  | resume =>
    rw [hnext]
    rcases resume_spec (after api w₀ turns) with heq | ⟨r, ha, -⟩ | ⟨d, outcome, -, heq⟩
    · rw [next, heq]
      exact h.concat hne _
    · exact absurd ha (hne r)
    · rw [next, heq]
      trivial
  | answer result duration =>
    rw [hnext]
    rcases answer_spec (after api w₀ turns) result duration with heq | ⟨d, p, j, -, heq⟩
    · rw [next, heq]
      exact h.concat hne _
    · rw [next, heq]
      exact caused_toward _ _ _
  | outside f channel notices shutdown clock =>
    rw [hnext]
    exact h.concat hne _

/-- **Every run**: whatever happens to a worker that is to connect, or to choose, it does not close without a
cause. -/
theorem caused_after (api : BrokerApi β) {w₀ : Worker (Logged β) ρ}
    (h : w₀.activity = .choosing ∨ w₀.activity = .connecting (.start w₀.connection.config))
    (turns : List (Turn β)) : Caused api w₀ turns (after api w₀ turns).activity := by
  induction turns using List.reverseRecOn with
  | nil =>
    show Caused api w₀ [] w₀.activity
    rcases h with ha | ha
    · rw [ha]
      trivial
    · rw [ha]
      exact ⟨[], [], .start w₀.connection, rfl, ⟨Or.inl rfl, ha, rfl, ha, rfl⟩, rfl⟩
  | append_singleton turns t ih => exact caused_next ih t

/-! ## What a cause comes to -/

/-- What happens next is one change of the connection, or happens to the broker alone. -/
theorem next_change (api : BrokerApi β) (w : Worker (Logged β) ρ) (t : Turn β) :
    (∃ l, Change api.logged w.connection (next api w t).connection l w.activity.underway
      (next api w t).activity.underway) ∨
      ∃ f channel notices shutdown clock, t = .outside f channel notices shutdown clock := by
  cases t with
  | step =>
    left
    show ∃ l, Change api.logged w.connection ((w.step? api.logged).getD w).connection l w.activity.underway
      ((w.step? api.logged).getD w).activity.underway
    cases hstep : w.step? api.logged with
    | none => exact ⟨none, .quiet (.refl _)⟩
    | some w' =>
      obtain ⟨l, -, hchange⟩ := (stepped_of_step? hstep).change
      exact ⟨l, hchange⟩
  | resume =>
    left
    refine ⟨none, ?_⟩
    show Change api.logged w.connection w.resume.connection none w.activity.underway w.resume.activity.underway
    rcases resume_spec w with heq | ⟨r, ha, heq⟩ | ⟨d, outcome, ha, heq⟩
    · rw [heq]
      exact .quiet (.refl _)
    · rw [heq, ha]
      show Change api.logged w.connection w.connection none r.underway r.resume.underway
      rw [Retry.resume_underway]
      exact .quiet (.refl _)
    · rw [heq, ha]
      exact .quiet (.refl _)
  | answer result duration =>
    left
    refine ⟨none, ?_⟩
    show Change api.logged w.connection (w.answer result duration).connection none w.activity.underway
      (w.answer result duration).activity.underway
    rcases answer_spec w result duration with heq | ⟨d, p, j, ha, heq⟩
    · rw [heq]
      exact .quiet (.refl _)
    · rw [heq, ha, toward_underway]
      exact .quiet ⟨rfl, rfl, rfl, rfl, rfl, rfl⟩
  | outside f channel notices shutdown clock => exact Or.inr ⟨f, channel, notices, shutdown, clock, rfl⟩

/-- The configuration of a worker stays. -/
theorem config_after (api : BrokerApi β) (turns : List (Turn β)) (w : Worker (Logged β) ρ) :
    (after api w turns).connection.config = w.connection.config := by
  refine after_keeps api (P := fun w' => w'.connection.config = w.connection.config) ?_ turns rfl
  intro w' t h
  rcases next_change api w' t with ⟨l, hchange⟩ | ⟨f, channel, notices, shutdown, clock, rfl⟩
  · exact hchange.config_eq.trans h
  · exact h

/-- What a series that failed has done: the results of its attempts, each under the next generation. -/
theorem Cycle.ended {result : Except WorkerError Unit} (h : Cycle api w₀ before during s)
    (hdone : s.retry = .done result) :
    let c := (after api w₀ before).connection
    ∃ results, Series.Ended w₀.connection.config.maxAttempts w₀.connection.config.reconnectDelay c.generation
        results result s.signs ∧
      attempts s.connection.broker.log = attempts c.broker.log ++ List.range' (c.generation + 1) results.length := by
  intro c
  have hbegun := Series.begun_after api c ((after api w₀ before).seriesTurns api during) (Series.begun_start c)
  rw [h.made] at hbegun
  have hstage := hbegun.stage
  rw [hdone, show c.config = w₀.connection.config from config_after api before w₀] at hstage
  generalize hk : s.connection.generation = k at hstage
  cases hstage with
  | @done results _ _ hended =>
    refine ⟨results, hended, ?_⟩
    have hnumbered := hbegun.numbered.attempts_eq (by rw [hdone]; rfl)
    rwa [hk, Nat.add_sub_cancel_left] at hnumbered

/-- A shutdown that a series heeded was seen by the worker. -/
theorem Cycle.heeded (h : Cycle api w₀ before during s) (hdone : s.retry = .done (.error .shutdown)) :
    ∃ earlier later, before ++ during = earlier ++ .step :: later ∧ (after api w₀ earlier).shutdown = true := by
  obtain ⟨results, hended, -⟩ := h.ended hdone
  have hsigns : .heeds ∈ s.signs := by
    rw [hended.signs_eq.1 rfl]
    exact List.mem_concat_self
  rw [← h.made] at hsigns
  obtain ⟨earlier, later, rfl, hflag⟩ := flag_of_seriesTurns ((Series.heeds_after hsigns).resolve_left nofun)
  rw [← after_append] at hflag
  exact ⟨before ++ earlier, later, (List.append_assoc ..).symm, hflag⟩

/-- A worker that is closing with a result, or has closed. -/
def Finishing (result : Except WorkerError Unit) : Activity ρ → Prop
  | .closing result' => result' = result
  | .stopped result' => result' = reported result
  | _ => False

/-- Such a worker makes no attempt, and is not turned away from closing. -/
theorem finishing_next (api : BrokerApi β) {result : Except WorkerError Unit} (h : Finishing result w.activity)
    (t : Turn β) :
    Finishing result (next api w t).activity ∧
      attempts (next api w t).connection.broker.log = attempts w.connection.broker.log := by
  have hresume : w.resume = w := by
    rcases resume_spec w with heq | ⟨r, ha, -⟩ | ⟨d, outcome, ha, -⟩
    · exact heq
    · rw [ha] at h
      exact h.elim
    · rw [ha] at h
      exact h.elim
  have hanswer : ∀ answer duration, w.answer answer duration = w := by
    intro answer duration
    rcases answer_spec w answer duration with heq | ⟨d, p, j, ha, -⟩
    · exact heq
    · rw [ha] at h
      exact h.elim
  cases t with
  | step =>
    cases ha : w.activity with
    | closing result' =>
      rw [ha] at h
      obtain ⟨c, hsame, heq⟩ := finish_eq api.logged w result'
      have hstep : next api w .step = w.finish api.logged result' := by
        unfold next step?
        rw [ha]
        rfl
      rw [hstep, heq, show result' = result from h]
      refine ⟨rfl, ?_⟩
      show attempts c.broker.log = _
      rw [hsame.broker]
      exact attempts_release api _
    | stopped result' =>
      have hstep : next api w .step = w := by
        unfold next step?
        rw [ha]
        rfl
      rw [hstep]
      exact ⟨h, rfl⟩
    | _ =>
      rw [ha] at h
      exact h.elim
  | resume =>
    rw [show next api w .resume = w from hresume]
    exact ⟨h, rfl⟩
  | answer answer duration =>
    rw [show next api w (.answer answer duration) = w from hanswer answer duration]
    exact ⟨h, rfl⟩
  | outside f channel notices shutdown clock => exact ⟨h, rfl⟩

theorem finishing_after (api : BrokerApi β) {result : Except WorkerError Unit} (turns : List (Turn β)) :
    ∀ {w : Worker (Logged β) ρ}, Finishing result w.activity →
      Finishing result (after api w turns).activity ∧
        attempts (after api w turns).connection.broker.log = attempts w.connection.broker.log := by
  intro w h
  refine after_keeps api (P := fun w' => Finishing result w'.activity ∧
    attempts w'.connection.broker.log = attempts w.connection.broker.log) ?_ turns ⟨h, rfl⟩
  rintro w' t ⟨hfinishing, hbefore⟩
  obtain ⟨hnext, hattempts⟩ := finishing_next api hfinishing t
  exact ⟨hnext, hattempts.trans hbefore⟩

/-- At the end of a series that failed, a worker can only close. -/
theorem failing_after (api : BrokerApi β) {e : WorkerError} (turns : List (Turn β)) :
    ∀ {w : Worker (Logged β) ρ}, w.activity = .connecting (.done (.error e)) →
      ((after api w turns).activity = .connecting (.done (.error e)) ∨
        Finishing (.error e) (after api w turns).activity) ∧
      attempts (after api w turns).connection.broker.log = attempts w.connection.broker.log := by
  induction turns with
  | nil => exact fun ha => ⟨Or.inl ha, rfl⟩
  | cons t turns ih =>
    intro w ha
    by_cases ht : t = .step
    · have hnext : next api w t = w.turnTo (.closing (.error e)) := by
        rw [ht, step_done ha]
        rfl
      have hfinishing : Finishing (.error e) (next api w t).activity := by
        rw [hnext]
        rfl
      obtain ⟨hafter, hattempts⟩ := finishing_after api turns hfinishing
      refine ⟨Or.inr hafter, hattempts.trans ?_⟩
      rw [hnext]
      rfl
    · obtain ⟨hactivity, hconnection⟩ := next_connecting (t := t)
        (s := ⟨.done (.error e), w.connection, []⟩) ha rfl fun _ _ => ht
      have hkept : ∀ t', (Series.next api ⟨.done (.error e), w.connection, []⟩ t').retry = .done (.error e) ∧
          attempts (Series.next api ⟨.done (.error e), w.connection, []⟩ t').connection.broker.log =
            attempts w.connection.broker.log := by
        intro t'
        cases t' <;> exact ⟨rfl, rfl⟩
      rw [(hkept _).1] at hactivity
      obtain ⟨hafter, hattempts⟩ := ih hactivity
      refine ⟨hafter, hattempts.trans ?_⟩
      rw [hconnection]
      exact (hkept _).2

/-- After a series that failed, whatever happens, the worker makes no further attempt. -/
theorem Cycle.failed (h : Cycle api w₀ before during s) {e : WorkerError} (hdone : s.retry = .done (.error e))
    (later : List (Turn β)) :
    ((after api w₀ (before ++ during ++ later)).activity = .connecting (.done (.error e)) ∨
      Finishing (.error e) (after api w₀ (before ++ during ++ later)).activity) ∧
    attempts (after api w₀ (before ++ during ++ later)).connection.broker.log =
      attempts s.connection.broker.log := by
  have hlater := failing_after api later (h.activity.trans (congrArg _ hdone))
  rwa [← after_append, h.connection] at hlater

/-- A worker without bindings has stopped, and stays as it is. -/
theorem stopped_after (api : BrokerApi β) {result : Except WorkerError Unit} (turns : List (Turn β)) :
    ∀ {w : Worker (Logged β) ρ}, w.activity = .stopped result →
      (after api w turns).activity = .stopped result ∧
        (after api w turns).connection.broker.log = w.connection.broker.log := by
  intro w ha
  refine after_keeps api (P := fun w' => w'.activity = .stopped result ∧
    w'.connection.broker.log = w.connection.broker.log) ?_ turns ⟨ha, rfl⟩
  rintro w' t ⟨ha', hlog⟩
  unfold next step? resume answer
  cases t <;> simp only [ha', Option.getD_none, Connection.disturb, hlog, and_self]

/-- A worker with bindings begins by a series of attempts. -/
theorem start_activity (name : String) (router : Router (Sink ρ)) {bindings : List Binding} (hne : bindings ≠ [])
    (config : WorkerConfig) (broker : β) (clock : Instant) :
    (start name router bindings config broker clock).activity = .connecting (.start config) := by
  have hempty : bindings.isEmpty = false := List.isEmpty_eq_false_iff.mpr hne
  unfold start
  simp only [hempty, Bool.false_eq_true, if_false]

theorem result?_eq_some {w : Worker β ρ} {result : Except WorkerError Unit} :
    w.result? = some result ↔ w.activity = .stopped result := by
  unfold result?
  cases w.activity with
  | stopped result' =>
    exact ⟨fun h => congrArg _ (Option.some.inj h), fun h => congrArg some (Activity.stopped.inj h)⟩
  | _ => exact ⟨nofun, nofun⟩

theorem reported_eq_ok {result : Except WorkerError Unit} (h : reported result = .ok ()) :
    result = .ok () ∨ result = .error .shutdown := by
  unfold reported at h
  split at h
  · exact Or.inr rfl
  · exact Or.inl h

theorem reported_eq_error {result : Except WorkerError Unit} {e : WorkerError} (h : reported result = .error e) :
    result = .error e ∧ e ≠ .shutdown := by
  unfold reported at h
  split at h
  · cases h
  · rename_i hne
    refine ⟨h, ?_⟩
    rintro rfl
    exact hne h

end Worker

/-- A series that failed other than by a shutdown was ended by its last attempt: that found a topology that is not
usable, or was the last that could be made. -/
theorem Series.Ended.failure {limit delay g : Nat} {results : List (Except WorkerError Unit)} {e : WorkerError}
    {signs : List Sign} (h : Series.Ended limit delay g results (.error e) signs) (hne : e ≠ .shutdown) :
    e.isTopology = true ∧ results.getLast? = some (.error e) ∨
      e = .reconnectExhausted limit (lastMessage results) ∧ results.length = limit ∧
        ∀ r ∈ results, FailsPlainly r := by
  have hexhausted : ∀ {n text}, e = .reconnectExhausted n text →
      e = .reconnectExhausted limit (lastMessage results) ∧ results.length = limit ∧
        ∀ r ∈ results, FailsPlainly r := by
    rintro n text rfl
    obtain ⟨rfl, rfl, hlength, hplain⟩ := (h.exhausted_iff n text).mp rfl
    exact ⟨rfl, hlength, hplain⟩
  cases h with
  | without => exact Or.inr (hexhausted rfl)
  | heeded => exact absurd rfl hne
  | unusable plain left topology => exact Or.inl ⟨topology, List.getLast?_concat⟩
  | exhausted => exact Or.inr (hexhausted rfl)

/-- Such a failure is fatal, and never one of the configuration. -/
theorem Series.Ended.fatal {limit delay g : Nat} {results : List (Except WorkerError Unit)} {e : WorkerError}
    {signs : List Sign} (h : Series.Ended limit delay g results (.error e) signs) (hne : e ≠ .shutdown) :
    e.isFatal = true ∧ ∀ reason, e ≠ .config reason := by
  rcases h.failure hne with ⟨htopology, -⟩ | ⟨rfl, -⟩
  · cases e with
    | topology _ => exact ⟨rfl, nofun⟩
    | _ => cases htopology
  · exact ⟨rfl, nofun⟩

/-! ## The main result -/

/-- **Only a requested shutdown, or a series of attempts that failed, ends a worker.** A worker without bindings
has stopped, and never asks for a session. Whatever the broker and the backends answer, whatever reaches a worker
and whatever fails, one with bindings ends well only if it saw a requested shutdown; if it ends with a failure,
that is a fatal one, and it is the failure of the last series of attempts that it made: its last attempt found a
topology that is not usable, or all of its attempts failed otherwise. From where a worker is about to choose, it
comes to close only because it chooses to with a requested shutdown, or because the attempts that follow a lost
session failed. -/
theorem worker_outlives_failures (api : BrokerApi β) (name : String) (router : Router (Sink ρ))
    (bindings : List Binding) (config : WorkerConfig) (state : β) (clock : Instant) (turns : List (Worker.Turn β)) :
    let w₀ : Worker (Logged β) ρ := .start name router bindings config ⟨state, []⟩ clock
    (bindings = [] →
      (Worker.after api w₀ turns).result? = some (.error (.config "no queue bindings configured")) ∧
        (Worker.after api w₀ turns).connection.broker.log = []) ∧
    ((Worker.after api w₀ turns).result? = some (.ok ()) →
      ∃ before rest, turns = before ++ .step :: rest ∧ (Worker.after api w₀ before).shutdown = true) ∧
    (∀ e, (Worker.after api w₀ turns).result? = some (.error e) →
      e.isFatal = true ∧ ((∃ reason, e = .config reason) ↔ bindings = []) ∧
        (bindings ≠ [] → ∃ before during rest s results,
          turns = before ++ during ++ rest ∧ Worker.Cycle api w₀ before during s ∧ s.retry = .done (.error e) ∧
          s.signs = (Series.paced config.reconnectDelay (Worker.after api w₀ before).connection.generation
            results).dropLast ∧
          (e.isTopology = true ∧ results.getLast? = some (.error e) ∨
            e = .reconnectExhausted config.maxAttempts (Series.lastMessage results) ∧
              results.length = config.maxAttempts ∧ ∀ r ∈ results, Series.FailsPlainly r) ∧
          attempts (Worker.after api w₀ turns).connection.broker.log =
            attempts (Worker.after api w₀ before).connection.broker.log ++
              List.range' ((Worker.after api w₀ before).connection.generation + 1) results.length ∧
          ∀ mid r, mid <+: rest → (Worker.after api w₀ (before ++ during ++ mid)).activity = .connecting r →
            r = .done (.error e))) ∧
    ∀ (v : Worker (Logged β) ρ) (later : List (Worker.Turn β)) (result : Except WorkerError Unit),
      v.activity = .choosing → (Worker.after api v later).activity = .closing result →
        (result = .ok () ∧ ∃ before rest, later = before ++ .step :: rest ∧
          (Worker.after api v before).activity = .choosing ∧ (Worker.after api v before).shutdown = true) ∨
        ∃ e earlier during rest s, result = .error e ∧ later = earlier ++ [.step] ++ during ++ rest ∧
          (Worker.after api v earlier).Loses api ∧ Worker.Cycle api v (earlier ++ [.step]) during s ∧
          s.retry = .done (.error e) := by
  intro w₀
  have hconfig : w₀.connection.config = config := rfl
  have hempty : bindings = [] →
      (Worker.after api w₀ turns).activity = .stopped (.error (.config "no queue bindings configured")) ∧
        (Worker.after api w₀ turns).connection.broker.log = [] := by
    rintro rfl
    exact Worker.stopped_after api turns rfl
  have hcaused : bindings ≠ [] → Worker.Caused api w₀ turns (Worker.after api w₀ turns).activity := fun hne =>
    Worker.caused_after api (Or.inr (Worker.start_activity name router hne config _ clock)) turns
  refine ⟨fun hnil => ⟨Worker.result?_eq_some.mpr (hempty hnil).1, (hempty hnil).2⟩, fun hresult => ?_,
    fun e hresult => ?_, fun v later result hv hclosing => ?_⟩
  · have ha := Worker.result?_eq_some.mp hresult
    have hne : bindings ≠ [] := fun hnil => by cases ha.symm.trans (hempty hnil).1
    have h := hcaused hne
    rw [ha] at h
    obtain ⟨cause, hcause, hreported⟩ := h
    cases hcause with
    | @asked before rest split choosing flag => exact ⟨before, rest, split, flag⟩
    | @failed before during rest s e split cycle done =>
      rcases Worker.reported_eq_ok hreported.symm with heq | heq
      · cases heq
      · cases heq
        obtain ⟨earlier, later, heq, hflag⟩ := cycle.heeded done
        exact ⟨earlier, later ++ rest, by rw [split, heq, List.append_assoc, List.cons_append], hflag⟩
  · have ha := Worker.result?_eq_some.mp hresult
    by_cases hnil : bindings = []
    · obtain ⟨hactivity, -⟩ := hempty hnil
      cases ha.symm.trans hactivity
      exact ⟨rfl, ⟨fun _ => hnil, fun _ => ⟨_, rfl⟩⟩, fun hne => absurd hnil hne⟩
    have h := hcaused hnil
    rw [ha] at h
    obtain ⟨cause, hcause, hreported⟩ := h
    obtain ⟨rfl, hne⟩ := Worker.reported_eq_error hreported.symm
    cases hcause with
    | @failed before during rest s _ split cycle done =>
      obtain ⟨results, hended, hattempts⟩ := cycle.ended done
      obtain ⟨hfatal, hconfigured⟩ := hended.fatal hne
      refine ⟨hfatal, ⟨fun ⟨reason, heq⟩ => absurd heq (hconfigured reason), fun h => absurd h hnil⟩,
        fun _ => ⟨before, during, rest, s, results, split, cycle, done,
          hended.signs_eq.2 fun h => hne (Except.error.inj h), hended.failure hne, ?_, fun mid r _ hr => ?_⟩⟩
      · rw [split, (cycle.failed done rest).2, hattempts]
      · rcases (cycle.failed done mid).1 with hmid | hmid
        · exact Activity.connecting.inj (hr.symm.trans hmid)
        · rw [hr] at hmid
          exact hmid.elim
  · have h := Worker.caused_after api (Or.inl hv) later
    rw [hclosing] at h
    cases h with
    | @asked before rest split choosing flag => exact Or.inl ⟨rfl, before, rest, split, choosing, flag⟩
    | @failed before during rest s e split cycle done =>
      rcases cycle.began with rfl | ⟨earlier, rfl, hloses⟩
      · cases hv.symm.trans cycle.started
      · exact Or.inr ⟨e, earlier, during, rest, s, rfl, split, hloses, cycle, done⟩

/-- A worker that rejects a delivery it cannot decode, loses its session, and is refused twice. -/
def bereft : List (Worker.Turn Broker) :=
  let midnight : Instant := ⟨0, 0⟩
  let unreadable : Delivery := ⟨⟨"a", "k", [255]⟩, ⟨1, 1⟩, false⟩
  let pull (b : Broker) : Broker := { (b.drop "cable pulled").2 with refusals := 2 }
  List.replicate 9 .step ++ [.outside id { Channel.empty 1 with buffer := [unreadable] } [] false midnight] ++
    List.replicate 3 .step ++ [.outside pull (.empty 1) [⟨1, "cable pulled"⟩] false midnight] ++
    List.replicate 4 .step ++ [.resume] ++ List.replicate 5 .step

theorem worker_outlives_failures_bereft :
    let config : WorkerConfig := (WorkerConfig.standard "1").withReconnect 2 50
    let router : Router (Sink Unit) := .only ⟨"documents", fun _ => .ok ()⟩
    let start := fun bindings => Worker.start "courier" router bindings config
      (⟨.withExchanges ["a"], []⟩ : Logged Broker) ⟨0, 0⟩
    let after := fun w turns => Worker.after (Broker.api 0) w turns
    let w₀ := start [⟨"a", "q", "k"⟩]
    let e : WorkerError := .reconnectExhausted 2 (WorkerError.connection "connection refused").message
    let v : Worker (Logged Broker) Unit := { w₀ with
      connection := { w₀.connection with
        config := config.withReconnect 1 50
        session := some 1
        generation := 1
        broker := ⟨{ Broker.withExchanges ["a"] with refusals := 1 }, []⟩ }
      notices := [⟨1, "cable pulled"⟩]
      activity := .choosing }
    ((after (start []) restarted).result? = some (.error (.config "no queue bindings configured"))) ∧
      ((after w₀ restarted).result? = some (.ok ()) ∧
        ∃ before rest, restarted = before ++ .step :: rest ∧ (after w₀ before).shutdown = true) ∧
      ((after w₀ bereft).result? = some (.error e) ∧ e.isFatal = true ∧
        ∃ results, e = .reconnectExhausted 2 (Series.lastMessage results) ∧ results.length = 2) ∧
      (v.activity = .choosing ∧
        ∃ earlier during rest, List.replicate 5 .step = earlier ++ [.step] ++ during ++ rest ∧
          (after v earlier).Loses (Broker.api 0)) := by
  intro config router start after w₀ e v
  have h := fun bindings => @worker_outlives_failures Broker Unit (Broker.api 0) "courier" router bindings config
    (.withExchanges ["a"]) ⟨0, 0⟩
  have hempty := ((h [] restarted).1 rfl).1
  have hstopped : (after w₀ restarted).result? = some (.ok ()) := by decide +kernel
  have hok := (h [⟨"a", "q", "k"⟩] restarted).2.1 hstopped
  have hended : (after w₀ bereft).result? = some (.error e) := by decide +kernel
  obtain ⟨hfatal, -, hseries⟩ := (h [⟨"a", "q", "k"⟩] bereft).2.2.1 e hended
  obtain ⟨before, during, rest, s, results, -, -, -, -, hfailure, -⟩ := hseries (by decide)
  have hclosing : (after v (List.replicate 5 .step)).activity =
      .closing (.error (.reconnectExhausted 1 (WorkerError.connection "connection refused").message)) := by rfl
  refine ⟨hempty, ⟨hstopped, hok⟩, ⟨hended, hfatal, results, ?_⟩, rfl, ?_⟩
  · rcases hfailure with ⟨htopology, -⟩ | ⟨heq, hlength, -⟩
    · cases htopology
    · exact ⟨heq, hlength⟩
  · rcases (h [⟨"a", "q", "k"⟩] []).2.2.2 v _ _ rfl hclosing with ⟨hresult, -⟩ | hlost
    · cases hresult
    · obtain ⟨-, earlier, during, rest, s, -, hsplit, hloses, -⟩ := hlost
      exact ⟨earlier, during, rest, hsplit, hloses⟩

end EventCourier
