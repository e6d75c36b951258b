import EventCourier.Proofs.Metrics
import EventCourier.Proofs.Worker.Endings
import EventCourier.Proofs.Worker.Outcomes
import EventCourier.Proofs.Worker.States
import Mathlib.Data.Bool.Count

/-!
# The metrics account for what a worker did

What a worker adds to the marks goes with what it does: `Booked` says so of the delivery that it handles, `Attempted`
of the attempt that it makes, and both hold of every step (`entered_step`), pause (`entered_resume`) and answer
(`entered_answer`). So the marks tally with the deliveries that were taken, the events that were stored and the
sessions that were established, up to the delivery and the attempt that the worker is in the midst of (`Tally`). The
metrics show the marks, and at the head of the loop they account for everything (`metrics_account`).
-/

namespace EventCourier

variable {β ρ : Type}

open Connection

/-! ## Attempts -/

/-- True of what is counted of a delivery. -/
def Mark.ofDelivery : Mark → Bool
  | .received _ | .acked _ _ | .rejected _ _ | .stale => true
  | .attempt _ | .lost | .state _ => false

namespace Connection

/-- How many attempts are under way: one or none. -/
def trying (a : Option Attempt) : Nat := a.toList.length

/-- How many attempts have succeeded that were not counted yet: one or none. -/
def won : Option Attempt → Nat
  | some (.over (.ok ())) => 1
  | _ => 0

/-- The session that a connection has now and did not have before. -/
def gained (before now : Option Nat) : List Nat := if now = before then [] else now.toList

variable {api : BrokerApi β} {c c' : Connection β} {a a' : Option Attempt} {new : List Mark}

/-- Every generation has its attempt, which is counted when it is over, and every session its success. -/
structure Attempted (c c' : Connection β) (a a' : Option Attempt) (new : List Mark) : Prop where
  generation : c'.generation + trying a = c.generation + (new.filterMap Mark.attempt?).length + trying a'
  established : (new.filterMap Mark.attempt?).count true + won a' =
    won a + (gained c.session c'.session).length

/-- No attempt is counted, and none begins or succeeds. -/
theorem Attempted.none (hnew : ∀ m ∈ new, m.attempt? = .none) (hgeneration : c'.generation = c.generation)
    (hsession : c'.session = c.session ∨ c'.session = .none) (htrying : trying a' = trying a)
    (hwon : won a' = won a) : Attempted c c' a a' new := by
  have hempty : new.filterMap Mark.attempt? = [] := List.filterMap_eq_nil_iff.mpr hnew
  have hgained : gained c.session c'.session = [] := by
    rcases hsession with hsession | hsession <;> simp [gained, hsession]
  constructor
  · rw [hempty, hgeneration, htrying, List.length_nil, Nat.add_zero]
  · rw [hempty, hgained, hwon, List.count_nil, List.length_nil, Nat.zero_add, Nat.add_zero]

/-- What a connection adds to the marks is about attempts and not about deliveries. -/
def Enters (c c' : Connection β) (a a' : Option Attempt) : Prop :=
  ∃ new, c'.journal.marks = c.journal.marks ++ new ∧ (∀ m ∈ new, m.ofDelivery = false) ∧
    Attempted c c' a a' new

theorem Enters.nothing (hmarks : c'.journal.marks = c.journal.marks) (hgeneration : c'.generation = c.generation)
    (hsession : c'.session = c.session) (htrying : trying a' = trying a) (hwon : won a' = won a) :
    Enters c c' a a' :=
  ⟨[], hmarks.trans (List.append_nil _).symm, nofun, .none nofun hgeneration (Or.inl hsession) htrying hwon⟩

theorem journal_release (api : BrokerApi β) (c : Connection β) : (c.release api).journal = c.journal := by
  unfold release
  cases c.session <;> rfl

/-- An attempt begins, with a generation of its own. -/
theorem enters_startAttempt (api : BrokerApi β) (c : Connection β) :
    Enters c (c.startAttempt api) none (some .opening) := by
  refine ⟨[.state .connecting], congrArg (·.marks ++ _) (journal_release api c), by simp [Mark.ofDelivery], ?_, ?_⟩
  · show (c.release api).generation + 1 + 0 = c.generation + 0 + 1
    rw [release_generation]
  · have hsession : (c.startAttempt api).session = none := release_session api c
    rw [hsession]
    unfold gained
    split <;> rfl

/-- A step of an attempt only publishes how it ended, and a session is established by one that succeeds. -/
theorem enters_attempt {x : Attempt} (hx : x.isOver = false) (hs : c.Steady (some x)) :
    Enters c (x.step api c).2 (some x) (some (x.step api c).1) := by
  have hsession : c.session = none := hs.free x rfl hx
  match x, hx with
  | .opening, _ =>
    rcases hcall : api.openSession c.generation c.notify c.broker with ⟨e | ⟨⟩, b⟩
    · simp only [Attempt.step, hcall]
      exact ⟨[.state .disconnected], rfl, by simp [Mark.ofDelivery],
        .none (by simp [Mark.attempt?]) rfl (Or.inl rfl) rfl rfl⟩
    · simp only [Attempt.step, hcall]
      exact .nothing rfl rfl rfl rfl rfl
  | .settingUp [], _ =>
    refine ⟨[.state .connected], rfl, by simp [Mark.ofDelivery], rfl, ?_⟩
    show 0 + 1 = 0 + (gained c.session (some c.generation)).length
    rw [hsession]
    rfl
  | .settingUp (call :: left), _ =>
    rcases hcall : call.run api c.generation c.broker with ⟨e | ⟨⟩, b⟩
    · simp only [Attempt.step, hcall]
      exact .nothing rfl rfl rfl rfl rfl
    · simp only [Attempt.step, hcall]
      exact .nothing rfl rfl rfl rfl rfl
  | .undoing e, _ =>
    exact ⟨[.state .disconnected], rfl, by simp [Mark.ofDelivery],
      .none (by simp [Mark.attempt?]) rfl (Or.inl rfl) rfl rfl⟩

/-- A step of a series counts an attempt just when it is over. -/
theorem enters_retry {shutdown : Bool} {r r' : Retry} (hs : c.Steady r.underway)
    (h : r.step? api shutdown c = some (r', c')) : Enters c c' r.underway r'.underway := by
  have hfailed : ∀ record e, Enters c ((c.mark (.attempt false)).record record) (some (.over (.error e))) none :=
    fun record e => ⟨[.attempt false], rfl, by simp [Mark.ofDelivery], rfl, by
      show 0 + 0 = 0 + (gained c.session c.session).length
      simp [gained]⟩
  cases Retry.stepped_of_step? h with
  | cancelled | interrupted => exact .nothing rfl rfl rfl rfl rfl
  | begun => exact enters_startAttempt api c
  | went hover => exact enters_attempt hover hs
  | succeeded =>
    refine ⟨[.attempt true], rfl, by simp [Mark.ofDelivery], rfl, ?_⟩
    show 1 + 0 = 1 + (gained c.session c.session).length
    simp [gained]
  | unusable | paused | exhausted => exact hfailed _ _

theorem enters_lose (api : BrokerApi β) (c : Connection β) (n : Notice) : Enters c (c.lose api n).2 none none := by
  unfold lose
  split
  · refine ⟨[.lost, .state .disconnected], ?_, by simp [Mark.ofDelivery],
      .none (by simp [Mark.attempt?]) (release_generation api _) (Or.inr (release_session api _)) rfl rfl⟩
    refine (congrArg (·.marks ++ [.state .disconnected]) (journal_release api _)).trans ?_
    exact List.append_assoc _ _ _
  · exact .nothing rfl rfl rfl rfl rfl

theorem enters_resolve (api : BrokerApi β) (c : Connection β) (t : Tag) (outcome : Outcome) :
    Enters c (c.resolve api t outcome).2 none none := by
  rw [resolve_eq]
  split
  · exact .nothing rfl rfl rfl rfl rfl
  · split <;> exact .nothing rfl rfl rfl rfl rfl

theorem enters_close (api : BrokerApi β) (c : Connection β) : Enters c (c.close api) none none :=
  ⟨[.state .shuttingDown], congrArg Journal.marks (journal_release api _), by simp [Mark.ofDelivery],
    .none (by simp [Mark.attempt?]) (release_generation api _) (Or.inr (release_session api _)) rfl rfl⟩

/-- A record is no mark. -/
theorem Enters.record (h : Enters c c' a a') (r : LogRecord) : Enters c (c'.record r) a a' := by
  obtain ⟨new, hmarks, hnew, hattempted⟩ := h
  exact ⟨new, hmarks, hnew, hattempted.generation, hattempted.established⟩

end Connection

/-! ## Deliveries -/

namespace Activity

/-- How many deliveries were taken that are not counted yet: one or none. -/
def fresh : Activity ρ → Nat
  | .handling _ => 1
  | _ => 0

/-- How many deliveries were received that have no outcome yet: one or none. -/
def asking : Activity ρ → Nat
  | .persisting _ _ => 1
  | _ => 0

theorem fresh_toward (config : WorkerConfig) (d : Delivery) (outcome : Outcome) :
    (Activity.toward config d outcome : Activity ρ).fresh = 0 := by
  unfold Activity.toward
  split <;> rfl

theorem asking_toward (config : WorkerConfig) (d : Delivery) (outcome : Outcome) :
    (Activity.toward config d outcome : Activity ρ).asking = 0 := by
  unfold Activity.toward
  split <;> rfl

/-- The head of the loop: no delivery is in hand, and no attempt to connect is under way. -/
def AtHead (a : Activity ρ) : Prop := a.delivery? = none ∧ a.underway = none

/-- At the head of the loop everything is counted. -/
theorem AtHead.idle {a : Activity ρ} (h : a.AtHead) : a.fresh = 0 ∧ a.asking = 0 ∧ a.underway = none := by
  obtain ⟨hdelivery, hunderway⟩ := h
  cases a with
  | handling d | persisting d p => cases hdelivery
  | _ => exact ⟨rfl, rfl, hunderway⟩

end Activity

namespace Worker

/-- The deliveries that went from one channel on the way to another. -/
def takenFrom (before now : Channel) : List Delivery :=
  before.buffer.take (before.buffer.length - now.buffer.length)

theorem takenFrom_self (channel : Channel) : takenFrom channel channel = [] := by
  simp [takenFrom]

variable {api : BrokerApi β} {w w' : Worker β ρ} {a : Activity ρ} {stored : List String} {new : List Mark}

/-- Every delivery that was taken is counted, as received or as stale, and every one that was received has an outcome,
which for those that were stored is an ack under the name of the sink. -/
structure Booked (w w' : Worker β ρ) (stored : List String) (new : List Mark) : Prop where
  taken : (takenFrom w.channel w'.channel).length + w.activity.fresh =
    new.countP Mark.isReceived + new.count .stale + w'.activity.fresh
  resolved : new.countP Mark.isReceived + w.activity.asking =
    (new.filterMap Mark.acked?).length + new.countP Mark.isRejected + w'.activity.asking
  stored : new.filterMap Mark.acked? = stored

/-- No delivery is taken, and none has its outcome. -/
theorem Booked.none (hnew : ∀ m ∈ new, m.ofDelivery = false) (hchannel : w'.channel = w.channel)
    (hfresh : w'.activity.fresh = w.activity.fresh) (hasking : w'.activity.asking = w.activity.asking) :
    Booked w w' [] new := by
  have hreceived : new.countP Mark.isReceived = 0 := List.countP_eq_zero.mpr fun m hm => by
    have := hnew m hm
    cases m <;> simp_all [Mark.ofDelivery, Mark.isReceived]
  have hacked : new.filterMap Mark.acked? = [] := List.filterMap_eq_nil_iff.mpr fun m hm => by
    have := hnew m hm
    cases m <;> simp_all [Mark.ofDelivery, Mark.acked?]
  have hrejected : new.countP Mark.isRejected = 0 := List.countP_eq_zero.mpr fun m hm => by
    have := hnew m hm
    cases m <;> simp_all [Mark.ofDelivery, Mark.isRejected]
  have hstale : new.count .stale = 0 := List.count_eq_zero.mpr fun hm => by
    cases hnew _ hm
  refine ⟨?_, ?_, hacked⟩
  · rw [hchannel, takenFrom_self, hreceived, hstale, hfresh, List.length_nil]
  · rw [hreceived, hacked, hrejected, hasking, List.length_nil]

/-- What a worker adds to the marks goes with what it does. -/
def Entered (w w' : Worker β ρ) (stored : List String) : Prop :=
  ∃ new, w'.connection.journal.marks = w.connection.journal.marks ++ new ∧ Booked w w' stored new ∧
    Attempted w.connection w'.connection w.activity.underway w'.activity.underway new

/-- The connection does something, and no delivery is handled. -/
theorem Entered.of_enters (ha : w.activity = a)
    (h : Enters w.connection w'.connection a.underway w'.activity.underway) (hchannel : w'.channel = w.channel)
    (hfresh : w'.activity.fresh = a.fresh) (hasking : w'.activity.asking = a.asking) : Entered w w' [] := by
  subst ha
  obtain ⟨new, hmarks, hnew, hattempted⟩ := h
  exact ⟨new, hmarks, .none hnew hchannel hfresh hasking, hattempted⟩

/-- The worker goes on to something else. -/
theorem Entered.turn {a' : Activity ρ} (ha : w.activity = a) (hunderway : a'.underway = a.underway)
    (hfresh : a'.fresh = a.fresh) (hasking : a'.asking = a.asking) : Entered w (w.turnTo a') [] :=
  .of_enters ha (.nothing rfl rfl rfl (congrArg _ hunderway) (congrArg _ hunderway)) rfl hfresh hasking

/-- A delivery is handled, and the connection stays as it is but for the marks. -/
theorem Entered.of_booked (hmarks : w'.connection.journal.marks = w.connection.journal.marks ++ new)
    (hbooked : Booked w w' stored new) (hnew : ∀ m ∈ new, m.attempt? = none)
    (hgeneration : w'.connection.generation = w.connection.generation)
    (hsession : w'.connection.session = w.connection.session) (hbefore : w.activity.underway = none)
    (hnow : w'.activity.underway = none) : Entered w w' stored :=
  ⟨new, hmarks, hbooked, .none hnew hgeneration (Or.inl hsession) (by rw [hbefore, hnow]) (by rw [hbefore, hnow])⟩

/-- What is counted of a delivery when it is first looked at: it is received or stale, and one that is received is
rejected or a backend is asked. -/
structure Counted (new : List Mark) (a : Activity ρ) : Prop where
  once : new.countP Mark.isReceived + new.count .stale = 1
  received : new.countP Mark.isReceived = new.countP Mark.isRejected + a.asking
  acked : new.filterMap Mark.acked? = []
  fresh : a.fresh = 0
  attempts : ∀ m ∈ new, m.attempt? = none
  underway : a.underway = none

theorem entered_choose (ha : w.activity = .choosing) (h : w.choose? api = some w') : Entered w w' [] := by
  unfold choose? at h
  split at h
  · cases h
    exact .turn ha rfl rfl rfl
  · split at h
    · rename_i n rest hnotices
      simp only [Option.some.injEq] at h
      subst h
      have hlose := enters_lose api w.connection n
      split
      · refine .of_enters ha ?_ rfl rfl rfl
        show Enters w.connection _ none (Retry.start _).underway
        rw [Retry.start_underway]
        exact hlose
      · refine .of_enters rfl ?_ rfl rfl rfl
        show Enters w.connection _ w.activity.underway w.activity.underway
        rw [ha]
        exact hlose
    · split at h
      · rename_i d rest hbuffer
        cases h
        refine .of_booked (List.append_nil _).symm ⟨?_, ?_, rfl⟩ nofun rfl rfl (by rw [ha]; rfl) rfl
        · rw [ha, takenFrom, hbuffer]
          simp [Activity.fresh]
        · rw [ha]
          rfl
      · cases h

/-- A delivery in hand is counted once, as received or as stale. -/
theorem entered_handle {d : Delivery} (ha : w.activity = .handling d) : Entered w (w.handle d) [] := by
  -- neither the channel nor anything of the connection but the marks becomes different
  have hcounted : ∀ new c a, Counted new a → c.journal.marks = w.connection.journal.marks ++ new →
      c.generation = w.connection.generation → c.session = w.connection.session →
      Entered w { w with connection := c, activity := a } [] := by
    intro new c a hnew hmarks hgeneration hsession
    have hfresh : w.activity.fresh = 1 := by rw [ha]; rfl
    have hasking : w.activity.asking = 0 := by rw [ha]; rfl
    refine .of_booked hmarks ⟨?_, ?_, hnew.acked⟩ hnew.attempts hgeneration hsession (by rw [ha]; rfl)
      hnew.underway
    · show (takenFrom w.channel w.channel).length + _ = _
      rw [takenFrom_self, hfresh, hnew.once, hnew.fresh, List.length_nil]
    · rw [hasking, hnew.acked, hnew.received, List.length_nil, Nat.zero_add, Nat.add_zero]
  unfold handle
  split
  · dsimp only
    split
    · exact hcounted [.received d.message.routingKey] _ _ ⟨rfl, rfl, rfl, rfl, by simp [Mark.attempt?], rfl⟩
        rfl rfl rfl
    · rename_i e he
      rw [decided_eq]
      exact hcounted [.received d.message.routingKey, .rejected e.kind _] _ _
        ⟨rfl, by rw [Activity.asking_toward]; rfl, rfl, Activity.fresh_toward _ _ _, by simp [Mark.attempt?],
          toward_underway _ _ _⟩ (List.append_assoc _ _ _) rfl rfl
  · exact hcounted [.stale] _ _ ⟨rfl, rfl, rfl, rfl, by simp [Mark.attempt?], rfl⟩ rfl rfl rfl

theorem entered_settle {d : Delivery} {outcome : Outcome} (ha : w.activity = .resolving d outcome) :
    Entered w (w.settle api d outcome) [] := by
  have hresolve := enters_resolve api w.connection d.tag outcome
  unfold settle
  split
  · rename_i c hc
    rw [hc] at hresolve
    exact .of_enters ha hresolve rfl rfl rfl
  · rename_i e c hc
    rw [hc] at hresolve
    exact .of_enters ha (hresolve.record _) rfl rfl rfl

theorem entered_finish {result : Except WorkerError Unit} (ha : w.activity = .closing result) :
    Entered w (w.finish api result) [] := by
  have hclose := enters_close api w.connection
  unfold finish
  dsimp only
  split
  · exact .of_enters ha hclose rfl rfl rfl
  · exact .of_enters ha hclose rfl rfl rfl
  · exact .of_enters ha (hclose.record _) rfl rfl rfl

/-- **What a step adds to the marks goes with what it does.** -/
theorem entered_step (hs : w.connection.Steady w.activity.underway) (h : w.step? api = some w') :
    Entered w w' [] := by
  unfold step? at h
  split at h <;> rename_i ha
  · cases h
    exact .turn ha rfl rfl rfl
  · cases h
    exact .turn ha rfl rfl rfl
  · rw [Option.map_eq_some_iff] at h
    obtain ⟨⟨r, c⟩, hstep, rfl⟩ := h
    rw [ha] at hs
    exact .of_enters ha (enters_retry hs hstep) rfl rfl rfl
  · exact entered_choose ha h
  · cases h
    exact entered_handle ha
  · cases h
  · split at h <;> cases h
    exact .turn ha rfl rfl rfl
  · cases h
    exact entered_settle ha
  · cases h
    exact entered_finish ha
  · cases h

theorem entered_resume (w : Worker β ρ) : Entered w w.resume [] := by
  rcases resume_spec w with heq | ⟨r, ha, heq⟩ | ⟨d, outcome, ha, heq⟩
  · rw [heq]
    exact .turn rfl rfl rfl rfl
  · rw [heq]
    exact .turn ha (Retry.resume_underway r) rfl rfl
  · rw [heq]
    exact .turn ha rfl rfl rfl

/-- The name of the sink that stores an event, if the backend that a worker asks answers well. -/
def storing (w : Worker β ρ) (result : Except SinkError Unit) : List String :=
  match w.activity, result with
  | .persisting d _, .ok () => [(w.router.select d.message.routingKey).name]
  | _, _ => []

/-- A worker asks a backend for the sink of the routing key. -/
def Named (w : Worker β ρ) : Prop :=
  ∀ d p, w.activity = .persisting d p → p.sink = (w.router.select d.message.routingKey).name

theorem Named.of_asking (h : w.activity.asking = 0) : w.Named := by
  intro d p ha
  rw [ha] at h
  cases h

/-- An answer gives the delivery its outcome, which is an ack just if the event was stored. -/
theorem entered_answer (hw : w.Named) (result : Except SinkError Unit) (duration : Nat) :
    Entered w (w.answer result duration) (w.storing result) := by
  unfold answer
  split
  · rename_i d p ha
    have hgiven : ∀ m : Mark, [m].countP Mark.isReceived = 0 → [m].count .stale = 0 →
        ([m].filterMap Mark.acked?).length + [m].countP Mark.isRejected = 1 → m.attempt? = none →
        ∀ j outcome, j.marks = w.connection.journal.marks ++ [m] →
          Entered w { w with
            connection := { w.connection with journal := j }
            activity := .toward w.connection.config d outcome } ([m].filterMap Mark.acked?) := by
      intro m hreceived hstale hone hattempt j outcome hmarks
      refine .of_booked hmarks ⟨?_, ?_, rfl⟩ (by simp [hattempt]) rfl rfl (by rw [ha]; rfl)
        (toward_underway _ _ _)
      · rw [hreceived, hstale, ha, Activity.fresh_toward]
        exact congrArg List.length (takenFrom_self w.channel)
      · rw [hreceived, hone, ha, Activity.asking_toward]
        rfl
    rw [decided_eq]
    cases result with
    | ok =>
      have hstored : w.storing (.ok ()) = [p.sink] := by simp [storing, ha, hw d p ha]
      rw [hstored]
      exact hgiven (.acked p.sink duration) rfl rfl rfl rfl _ _ rfl
    | error e =>
      have hstored : w.storing (.error e) = [] := by simp [storing, ha]
      rw [hstored]
      exact hgiven (.rejected _ _) rfl rfl rfl rfl _ _ rfl
  · rename_i ha
    have hstored : w.storing result = [] := by
      unfold storing
      split
      · exact absurd ‹_› (ha _ _)
      · rfl
    rw [hstored]
    exact .turn rfl rfl rfl rfl

/-! ## Runs -/

/-- What the turns of a run give, one after another. -/
def gathered {α : Type} (api : BrokerApi β) (f : Worker (Logged β) ρ → Turn β → List α)
    (w : Worker (Logged β) ρ) : List (Turn β) → List α
  | [] => []
  | t :: turns => f w t ++ gathered api f (next api w t) turns

/-- The deliveries that a worker takes from its channel in a turn. -/
def takenIn (api : BrokerApi β) (w : Worker (Logged β) ρ) : Turn β → List Delivery
  | .outside _ _ _ _ _ => []
  | t => takenFrom w.channel (next api w t).channel

/-- The names of the sinks that store an event in a turn. -/
def storedIn (w : Worker (Logged β) ρ) : Turn β → List String
  | .answer result _ => w.storing result
  | .step | .resume | .outside _ _ _ _ _ => []

/-- The session that a worker establishes in a turn. -/
def establishedIn (api : BrokerApi β) (w : Worker (Logged β) ρ) (t : Turn β) : List Nat :=
  gained w.connection.session (next api w t).connection.session

/-- The marks tally with what was taken, stored and established, up to what the worker is in the midst of. -/
structure Tally (w : Worker β ρ) (taken : List Delivery) (stored : List String) (established : List Nat) :
    Prop where
  taken : taken.length = w.connection.journal.marks.countP Mark.isReceived +
    w.connection.journal.marks.count .stale + w.activity.fresh
  resolved : w.connection.journal.marks.countP Mark.isReceived =
    (w.connection.journal.marks.filterMap Mark.acked?).length +
      w.connection.journal.marks.countP Mark.isRejected + w.activity.asking
  stored : w.connection.journal.marks.filterMap Mark.acked? = stored
  generation : w.connection.generation =
    (w.connection.journal.marks.filterMap Mark.attempt?).length + trying w.activity.underway
  established : (w.connection.journal.marks.filterMap Mark.attempt?).count true + won w.activity.underway =
    established.length

theorem Tally.entered {taken : List Delivery} {stored stored' : List String} {established : List Nat}
    (h : Tally w taken stored established) (he : Entered w w' stored') :
    Tally w' (taken ++ takenFrom w.channel w'.channel) (stored ++ stored')
      (established ++ gained w.connection.session w'.connection.session) := by
  obtain ⟨new, hmarks, hbooked, hattempted⟩ := he
  have htaken := h.taken
  have hresolved := h.resolved
  have hgeneration := h.generation
  have hestablished := h.established
  have hbookedTaken := hbooked.taken
  have hbookedResolved := hbooked.resolved
  have hattemptedGeneration := hattempted.generation
  have hattemptedEstablished := hattempted.established
  constructor
  · rw [hmarks, List.countP_append, List.count_append, List.length_append]
    omega
  · rw [hmarks, List.countP_append, List.countP_append, List.filterMap_append, List.length_append]
    omega
  · rw [hmarks, List.filterMap_append, h.stored, hbooked.stored]
  · rw [hmarks, List.filterMap_append, List.length_append]
    omega
  · rw [hmarks, List.filterMap_append, List.count_append, List.length_append]
    omega

/-- What is prepared is for the sink of the routing key. -/
theorem prepare_sink {router : Router (Sink ρ)} {m : Message} {receivedAt : Instant} {p : Prepared ρ}
    (h : Pipeline.prepare router m receivedAt = .ok p) : p.sink = (router.select m.routingKey).name := by
  unfold Pipeline.prepare at h
  split at h
  · cases h
  · rename_i event hevent
    dsimp only at h
    split at h <;> cases h
    exact congrArg (fun key => (router.select key).name) (event?_routingKey hevent)

theorem Named.stepped (hw : w.Named) (h : Stepped api w w') : w'.Named := by
  cases h with
  | asked h hd prepared =>
    intro d p ha
    cases ha
    exact prepare_sink prepared
  | refused => exact .of_asking (Activity.asking_toward _ _ _)
  | ignored => exact hw
  | _ => exact .of_asking rfl

variable {w : Worker (Logged β) ρ} {taken : List Delivery} {stored : List String} {established : List Nat}

/-- The marks of a worker tally, and what else this rests on. -/
structure Tallied (w : Worker (Logged β) ρ) (taken : List Delivery) (stored : List String)
    (established : List Nat) : Prop where
  tally : Tally w taken stored established
  named : w.Named
  tidy : Tidy w
  numbered : Numbered [] 0 w.connection w.activity.underway

/-- Whatever happens next, the marks tally with it. -/
theorem tallied_next (api : BrokerApi β) (h : Tallied w taken stored established) (t : Turn β) :
    Tallied (next api w t) (taken ++ takenIn api w t) (stored ++ w.storedIn t)
      (established ++ establishedIn api w t) := by
  have hsteady := h.tidy.accounted.steady
  refine ⟨?_, ?_, tidy_next api h.tidy t, ?_⟩
  · cases t with
    | step =>
      refine h.tally.entered ?_
      show Entered w ((w.step? api.logged).getD w) []
      cases hw : w.step? api.logged with
      | none => exact .turn rfl rfl rfl rfl
      | some w' => exact entered_step hsteady hw
    | resume =>
      exact h.tally.entered (entered_resume w)
    | answer result duration => exact h.tally.entered (entered_answer h.named result duration)
    | outside f channel notices shutdown clock =>
      have hgained : establishedIn api w (.outside f channel notices shutdown clock) = [] := if_pos rfl
      rw [hgained, takenIn, storedIn, List.append_nil, List.append_nil, List.append_nil]
      exact ⟨h.tally.taken, h.tally.resolved, h.tally.stored, h.tally.generation, h.tally.established⟩
  · cases t with
    | step =>
      show ((w.step? api.logged).getD w).Named
      cases hw : w.step? api.logged with
      | none => exact h.named
      | some w' => exact h.named.stepped (stepped_of_step? hw)
    | resume =>
      show w.resume.Named
      rcases resume_spec w with heq | ⟨r, -, heq⟩ | ⟨d, outcome, -, heq⟩ <;> rw [heq]
      · exact h.named
      · exact .of_asking rfl
      · exact .of_asking rfl
    | answer result duration =>
      show (w.answer result duration).Named
      rcases answer_spec w result duration with heq | ⟨d, p, j, -, heq⟩ <;> rw [heq]
      · exact h.named
      · exact .of_asking (Activity.asking_toward _ _ _)
    | outside f channel notices shutdown clock => exact h.named
  · rcases next_change api w t with ⟨l, hchange⟩ | ⟨f, channel, notices, shutdown, clock, rfl⟩
    · exact numbered_change hchange h.numbered
    · exact numbered_disturb h.numbered f

theorem tallied_after (api : BrokerApi β) (turns : List (Turn β)) :
    ∀ {w : Worker (Logged β) ρ} {taken : List Delivery} {stored : List String} {established : List Nat},
      Tallied w taken stored established →
        Tallied (after api w turns) (taken ++ gathered api (takenIn api) w turns)
          (stored ++ gathered api storedIn w turns) (established ++ gathered api (establishedIn api) w turns) := by
  induction turns with
  | nil =>
    intro w taken stored established h
    simp only [gathered, List.append_nil]
    exact h
  | cons t turns ih =>
    intro w taken stored established h
    have := ih (tallied_next api h t)
    rwa [List.append_assoc, List.append_assoc, List.append_assoc] at this

theorem tallied_start (name : String) (router : Router (Sink ρ)) (bindings : List Binding) (config : WorkerConfig)
    (state : β) (clock : Instant) :
    Tallied (start name router bindings config (⟨state, []⟩ : Logged β) clock) [] [] [] := by
  have hunderway := start_underway name router bindings config (⟨state, []⟩ : Logged β) clock
  obtain ⟨hfresh, hasking⟩ : (start name router bindings config (⟨state, []⟩ : Logged β) clock).activity.fresh = 0 ∧
      (start name router bindings config (⟨state, []⟩ : Logged β) clock).activity.asking = 0 := by
    unfold start
    dsimp only
    split <;> exact ⟨rfl, rfl⟩
  refine ⟨⟨?_, ?_, rfl, ?_, ?_⟩, .of_asking hasking, tidy_start _ _ _ _ _ _, ?_⟩
  · rw [hfresh]
    rfl
  · rw [hasking]
    rfl
  · rw [hunderway]
    rfl
  · rw [hunderway]
    rfl
  · rw [hunderway]
    exact numbered_closed bindings config true state

/-- A worker that has stopped adds nothing to its journal. -/
theorem journal_stopped (api : BrokerApi β) {result : Except WorkerError Unit} (turns : List (Turn β))
    (ha : w.activity = .stopped result) : (after api w turns).connection.journal = w.connection.journal := by
  refine (after_keeps api (P := fun w' => w'.activity = .stopped result ∧
    w'.connection.journal = w.connection.journal) ?_ turns ⟨ha, rfl⟩).2
  rintro w' t ⟨ha', hjournal⟩
  unfold next step? resume answer
  cases t <;> simp only [ha', Option.getD_none, Connection.disturb, hjournal, and_self]

/-- The state that was published last is the state of the connection. -/
theorem state_after (api : BrokerApi β) (name : String) (router : Router (Sink ρ)) (bindings : List Binding)
    (config : WorkerConfig) (state : β) (clock : Instant) (turns : List (Turn β)) {s : ConnectionState} :
    let w := after api (.start name router bindings config ⟨state, []⟩ clock) turns
    w.connection.journal.states.getLast? = some s → w.connection.state = s := by
  intro w hs
  by_cases hne : bindings = []
  · subst hne
    have hjournal := journal_stopped api turns
      (w := start name router [] config (⟨state, []⟩ : Logged β) clock) rfl
    rw [show w.connection.journal = _ from hjournal] at hs
    cases hs
  · have hopen : w.Open := open_after api turns (open_start name router hne config _ clock)
    have hlast := hopen.trailed.last
    rw [trail, List.getLast?_cons, hs] at hlast
    exact (Option.some.inj hlast).symm

end Worker

/-! ## The main result -/

/-- **The metrics account for every delivery and every attempt.** In every run of a worker and at every moment of it,
the received deliveries were acked or rejected, and with the stale ones they are all that were taken from the channel,
but for one in hand that is not counted yet. Those acked for a sink are the events that sinks of its name stored. The
attempts that succeeded and those that failed are the generations and the calls to open a session, and those that
succeeded the sessions that were established, but for one under way. At the head of the loop nothing is left out. The
gauge shows the state of the connection from the first that was published on. -/
theorem metrics_account (api : BrokerApi β) (name : String) (router : Router (Sink ρ)) (bindings : List Binding)
    (config : WorkerConfig) (state : β) (clock : Instant) (turns : List (Worker.Turn β)) (w : Worker (Logged β) ρ) :
    let w₀ : Worker (Logged β) ρ := .start name router bindings config ⟨state, []⟩ clock
    let metrics := Metrics.seriesOf name w.connection.journal.marks
    let total (metric : String) : Nat := Metrics.shown metric (fun _ => true) metrics
    let received := total "amqp_worker_deliveries_received_total"
    let resolved := total "amqp_worker_deliveries_acked_total" + total "amqp_worker_deliveries_rejected_total"
    let stale := total "amqp_worker_stale_deliveries_total"
    let attempted (status : String) : Nat :=
      Metrics.shown "amqp_worker_connect_attempts_total" (· = [("worker", name), ("status", status)]) metrics
    let opens := attempts w.connection.broker.log
    let taken := Worker.gathered api (Worker.takenIn api) w₀ turns
    let established := Worker.gathered api (Worker.establishedIn api) w₀ turns
    Worker.after api w₀ turns = w →
      (received = resolved + w.activity.asking ∧ received + stale + w.activity.fresh = taken.length) ∧
      (∀ sink, Metrics.shown "amqp_worker_deliveries_acked_total" (· = [("worker", name), ("sink", sink)]) metrics =
        (Worker.gathered api Worker.storedIn w₀ turns).count sink) ∧
      (attempted "success" + attempted "failed" + trying w.activity.underway = w.connection.generation ∧
        opens.length + (w.connection.announced w.activity.underway).length = w.connection.generation ∧
        attempted "success" + won w.activity.underway = established.length) ∧
      (w.activity.AtHead →
        (received = resolved ∧ received + stale = taken.length) ∧
          attempted "success" + attempted "failed" = w.connection.generation ∧
            opens.length = w.connection.generation ∧ attempted "success" = established.length) ∧
      ∀ s, w.connection.journal.states.getLast? = some s → w.connection.state = s ∧
        (metrics.filter fun t =>
          t.name = "amqp_worker_connection_state" ∧ t.labels = [("worker", name)]).map Metrics.Series.value =
            [s.gauge] := by
  intro w₀ metrics total received resolved stale attempted opens taken established hw
  have h := Worker.tallied_after api turns (Worker.tallied_start name router bindings config state clock)
  rw [hw, List.nil_append, List.nil_append, List.nil_append] at h
  obtain ⟨htally, -, -, hnumbered⟩ := h
  have hdeliveries : received = resolved + w.activity.asking ∧
      received + stale + w.activity.fresh = taken.length := by
    simp only [received, resolved, stale, total, metrics, Metrics.shown_received, (Metrics.shown_acked _ _).1,
      Metrics.shown_rejected, Metrics.shown_stale]
    exact ⟨htally.resolved, htally.taken.symm⟩
  have hattempts : attempted "success" + attempted "failed" + trying w.activity.underway = w.connection.generation ∧
      opens.length + (w.connection.announced w.activity.underway).length = w.connection.generation ∧
      attempted "success" + won w.activity.underway = established.length := by
    have hsuccess : attempted "success" = _ := Metrics.shown_attempts name w.connection.journal.marks true
    have hfailed : attempted "failed" = _ := Metrics.shown_attempts name w.connection.journal.marks false
    have hopens := congrArg List.length hnumbered.attempts
    rw [List.length_append, List.nil_append, List.length_range', Nat.sub_zero] at hopens
    rw [hsuccess, hfailed, List.count_true_add_count_false]
    exact ⟨htally.generation.symm, hopens, htally.established⟩
  refine ⟨hdeliveries, fun sink => ?_, hattempts, fun hhead => ?_, fun s hs => ⟨?_, Metrics.gauge_state name hs⟩⟩
  · rw [← htally.stored]
    exact (Metrics.shown_acked name _).2 sink
  · obtain ⟨hfresh, hasking, hunderway⟩ := hhead.idle
    rw [hfresh, hasking] at hdeliveries
    rw [hunderway] at hattempts
    exact ⟨hdeliveries, hattempts⟩
  · subst hw
    exact Worker.state_after api name router bindings config state clock turns hs

/-- A worker takes one delivery that is stored, one that cannot be decoded and one of another session; then it loses
its session, is refused the second and opens a third. -/
def threeTaken : List (Worker.Turn Broker) :=
  let midnight : Instant := ⟨0, 0⟩
  let delivery (body : List UInt8) (t : Tag) : Delivery := ⟨⟨"a", "k", body⟩, t, false⟩
  let three := [delivery [123, 125] ⟨1, 1⟩, delivery [255] ⟨1, 2⟩, delivery [123, 125] ⟨0, 1⟩]
  let pull (b : Broker) : Broker := { (b.drop "cable pulled").2 with refusals := 1 }
  List.replicate 10 .step ++ [.outside id ⟨3, three, [], true⟩ [] false midnight] ++ List.replicate 2 .step ++
    [.answer (.ok ()) 3] ++ List.replicate 6 .step ++
    [.outside pull (.empty 1) [⟨1, "cable pulled"⟩] false midnight] ++ List.replicate 5 .step ++ [.resume] ++
    List.replicate 10 .step

theorem metrics_account_threeTaken :
    let router : Router (Sink Unit) := .only ⟨"documents", fun _ => .ok ()⟩
    let w₀ : Worker (Logged Broker) Unit :=
      .start "courier" router [⟨"a", "q", "k"⟩] (.standard "1") ⟨.withExchanges ["a"], []⟩ ⟨0, 0⟩
    ∃ w, Worker.after (Broker.api 0) w₀ threeTaken = w ∧ w.activity.AtHead ∧
      w.connection.journal.states.getLast? = some .connected ∧
      let metrics := Metrics.seriesOf "courier" w.connection.journal.marks
      let total (metric : String) : Nat := Metrics.shown metric (fun _ => true) metrics
      let attempted (status : String) : Nat :=
        Metrics.shown "amqp_worker_connect_attempts_total" (· = [("worker", "courier"), ("status", status)]) metrics
      total "amqp_worker_deliveries_received_total" =
          total "amqp_worker_deliveries_acked_total" + total "amqp_worker_deliveries_rejected_total" ∧
        total "amqp_worker_deliveries_received_total" + total "amqp_worker_stale_deliveries_total" = 3 ∧
        Metrics.shown "amqp_worker_deliveries_acked_total" (· = [("worker", "courier"), ("sink", "documents")])
          metrics = 1 ∧
        attempted "success" + attempted "failed" = 3 ∧ attempted "success" = 2 ∧
        (metrics.filter fun t =>
          t.name = "amqp_worker_connection_state" ∧ t.labels = [("worker", "courier")]).map Metrics.Series.value =
            [2] := by
  intro router w₀
  obtain ⟨w, hw⟩ : ∃ w, Worker.after (Broker.api 0) w₀ threeTaken = w := ⟨_, rfl⟩
  have hhead : w.activity.AtHead := hw ▸ ⟨by decide +kernel, by decide +kernel⟩
  have hlast : w.connection.journal.states.getLast? = some .connected := hw ▸ by decide +kernel
  have hgeneration : w.connection.generation = 3 := hw ▸ by decide +kernel
  obtain ⟨-, hacked, -, hcounted, hgauge⟩ := metrics_account (Broker.api 0) "courier" router
    [⟨"a", "q", "k"⟩] (.standard "1") (.withExchanges ["a"]) ⟨0, 0⟩ threeTaken w hw
  obtain ⟨⟨hresolved, htaken⟩, hall, -, hsuccess⟩ := hcounted hhead
  exact ⟨w, hw, hhead, hlast, hresolved, htaken.trans (by decide +kernel),
    (hacked "documents").trans (by decide +kernel), hall.trans hgeneration, hsuccess.trans (by decide +kernel),
    (hgauge _ hlast).2⟩

end EventCourier
