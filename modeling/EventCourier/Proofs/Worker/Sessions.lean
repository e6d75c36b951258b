import EventCourier.Broker.Memory
import EventCourier.Proofs.Connection.Ledger
import EventCourier.Proofs.Worker.Step

/-!
# No session leaks

A connection on any broker is used by any operations in any order, and between two calls on the broker anything
may happen to it (`Use`); so is the connection of a worker (`Worker.Turn`). At every moment at most one session
that was opened has not been closed, the one in hand; sessions are closed before the next one is asked for, and
each is closed once; a worker that has stopped leaves none (`sessions_never_leak`).
-/

namespace EventCourier

variable {β ρ : Type}

open Connection

/-! ## A connection and its user -/

/-- What the user of a connection is about: nothing, one attempt, or a series of attempts. -/
inductive Use where
  | idle
  | attempting (a : Attempt)
  | retrying (r : Retry)

namespace Use

/-- What may happen to a connection: an operation begins, which it does only when no other is under way; the one
under way makes a step or ends its pause; or something happens to the broker. -/
inductive Turn (β : Type) where
  | connect
  | retry
  | lose (n : Notice)
  | resolve (t : Tag) (outcome : Outcome)
  | close
  | step (shutdown : Bool)
  | resume
  | outside (f : β → β)

/-- The attempt under way. -/
def underway : Use → Option Attempt
  | .idle => none
  | .attempting a => some a
  | .retrying r => r.underway

/-- What happens next. -/
def next (api : BrokerApi β) (t : Turn β) (s : Use × Connection (Logged β)) : Use × Connection (Logged β) :=
  match t, s with
  | .connect, (.idle, c) => (.attempting .opening, c.startAttempt api.logged)
  | .retry, (.idle, c) => (.retrying (.start c.config), c)
  | .lose n, (.idle, c) =>
    (if (c.lose api.logged n).1 then .retrying (.start c.config) else .idle, (c.lose api.logged n).2)
  | .resolve t outcome, (.idle, c) => (.idle, (c.resolve api.logged t outcome).2)
  | .close, (.idle, c) => (.idle, c.close api.logged)
  | .step _, (.attempting (.over _), c) => (.idle, c)
  | .step _, (.attempting a, c) => (.attempting (a.step api.logged c).1, (a.step api.logged c).2)
  | .step _, (.retrying (.done _), c) => (.idle, c)
  | .step shutdown, (.retrying r, c) =>
    match r.step? api.logged shutdown c with
    | some (r, c) => (.retrying r, c)
    | none => (.retrying r, c)
  | .resume, (.retrying r, c) => (.retrying r.resume, c)
  | .outside f, (u, c) => (u, c.disturb f)
  | _, s => s

/-- What has happened after some turns. -/
def after (api : BrokerApi β) (turns : List (Turn β)) (s : Use × Connection (Logged β)) :
    Use × Connection (Logged β) :=
  turns.foldl (fun s t => next api t s) s

/-- What every one of some turns keeps is kept by all of them. -/
theorem after_keeps_of_mem (api : BrokerApi β) {P : Use × Connection (Logged β) → Prop} {turns : List (Turn β)}
    (hnext : ∀ t ∈ turns, ∀ s, P s → P (next api t s)) :
    ∀ {s : Use × Connection (Logged β)}, P s → P (after api turns s) := by
  induction turns with
  | nil => exact fun h => h
  | cons t turns ih =>
    exact fun h => ih (fun t ht => hnext t (List.mem_cons_of_mem _ ht)) (hnext t List.mem_cons_self _ h)

/-- What happens next is one change of the connection, or happens to the broker alone. -/
theorem next_change (api : BrokerApi β) (t : Turn β) (s : Use × Connection (Logged β)) :
    (∃ l, Change api.logged s.2 (next api t s).2 l s.1.underway (next api t s).1.underway) ∨
      ∃ f, t = .outside f ∧ next api t s = (s.1, s.2.disturb f) := by
  unfold next
  split
  · exact Or.inl ⟨none, .started ⟨rfl, rfl, rfl, rfl, rfl, rfl⟩⟩
  · dsimp only
    rw [show (Use.retrying (.start _)).underway = none from Retry.start_underway _]
    exact Or.inl ⟨none, .quiet (.refl _)⟩
  · have hnone : ∀ p : Prop, ∀ [Decidable p], ∀ config,
        (if p then Use.retrying (.start config) else .idle).underway = none := by
      intro p _ config
      split
      · exact Retry.start_underway _
      · rfl
    dsimp only
    rw [hnone]
    exact Or.inl ⟨none, lose_change _ _ _⟩
  · obtain ⟨l, -, hc⟩ := resolve_change api.logged _ _ _
    exact Or.inl ⟨l, hc⟩
  · exact Or.inl ⟨none, close_change _ _⟩
  · exact Or.inl ⟨none, .reported (.refl _)⟩
  · exact Or.inl ⟨none, Attempt.step_change _ _ _⟩
  · exact Or.inl ⟨none, .quiet (.refl _)⟩
  · split
    · rename_i hstep
      exact Or.inl ⟨none, Retry.step?_change hstep⟩
    · exact Or.inl ⟨none, .quiet (.refl _)⟩
  · dsimp only
    rw [show (Use.retrying (Retry.resume _)).underway = _ from Retry.resume_underway _]
    exact Or.inl ⟨none, .quiet (.refl _)⟩
  · exact Or.inr ⟨_, rfl, rfl⟩
  · exact Or.inl ⟨none, .quiet (.refl _)⟩

/-- The configuration stays. -/
theorem config_next (api : BrokerApi β) (t : Turn β) (s : Use × Connection (Logged β)) :
    (next api t s).2.config = s.2.config := by
  rcases next_change api t s with ⟨l, hc⟩ | ⟨f, -, heq⟩
  · exact hc.config_eq
  · rw [heq]
    rfl

theorem accounted_next (api : BrokerApi β) (t : Turn β) {s : Use × Connection (Logged β)}
    (h : Accounted s.2 s.1.underway) : Accounted (next api t s).2 (next api t s).1.underway := by
  rcases next_change api t s with ⟨l, hc⟩ | ⟨f, -, heq⟩
  · exact accounted_change hc h
  · rw [heq]
    exact accounted_disturb h f

theorem accounted_after (api : BrokerApi β) (turns : List (Turn β)) {s : Use × Connection (Logged β)}
    (h : Accounted s.2 s.1.underway) : Accounted (after api turns s).2 (after api turns s).1.underway :=
  after_keeps_of_mem api (P := fun s => Accounted s.2 s.1.underway) (fun t _ _ h => accounted_next api t h) h

/-- An attempt that is over after some steps leaves its user idle after one more, or earlier. -/
theorem after_steps (api : BrokerApi β) (n : Nat) : ∀ {a : Attempt} {c c' : Connection (Logged β)}
    {result : Except WorkerError Unit}, a.steps api.logged n c = (.over result, c') →
    after api (List.replicate (n + 1) (.step false)) (.attempting a, c) = (.idle, c') := by
  have hidle : ∀ n (c : Connection (Logged β)),
      after api (List.replicate n (.step false)) (.idle, c) = (.idle, c) := by
    intro n c
    induction n with
    | zero => rfl
    | succ n ih => exact ih
  have hover : ∀ n result (c : Connection (Logged β)), (Attempt.over result).steps api.logged n c =
      (.over result, c) := by
    intro n result c
    induction n with
    | zero => rfl
    | succ n ih => exact ih
  induction n with
  | zero =>
    intro a c c' result h
    cases h
    rfl
  | succ n ih =>
    intro a c c' result h
    match a, h with
    | .over result', h =>
      rw [hover] at h
      cases h
      exact hidle (n + 1) c
    | .opening, h | .settingUp left, h | .undoing e, h => exact ih h

/-- An attempt that is made at once is one way to use the connection. -/
theorem after_connect (api : BrokerApi β) (c : Connection (Logged β)) :
    ∃ turns, after api turns (.idle, c) = (.idle, (c.connect api.logged).2) := by
  obtain ⟨n, hn⟩ := connect_eq_steps api.logged c
  exact ⟨.connect :: List.replicate (n + 1) (.step false), after_steps api n hn⟩

end Use

/-! ## A worker -/

namespace Worker

/-- What may happen to a worker: it makes a step, ends its pause or is answered; or anything else becomes
different, the broker among it. -/
inductive Turn (β : Type) where
  | step
  | resume
  | answer (result : Except SinkError Unit) (duration : Nat)
  | outside (f : β → β) (channel : Channel) (notices : List Notice) (shutdown : Bool) (clock : Instant)

/-- What happens next. -/
def next (api : BrokerApi β) (w : Worker (Logged β) ρ) : Turn β → Worker (Logged β) ρ
  | .step => (w.step? api.logged).getD w
  | .resume => w.resume
  | .answer result duration => w.answer result duration
  | .outside f channel notices shutdown clock =>
    { w with
      connection := w.connection.disturb f
      channel := channel
      notices := notices
      shutdown := shutdown
      clock := clock }

/-- What has happened after some turns. -/
def after (api : BrokerApi β) (w : Worker (Logged β) ρ) (turns : List (Turn β)) : Worker (Logged β) ρ :=
  turns.foldl (next api) w

/-- What every turn keeps is kept by all of them. -/
theorem after_keeps (api : BrokerApi β) {P : Worker (Logged β) ρ → Prop}
    (hnext : ∀ {w} t, P w → P (next api w t)) (turns : List (Turn β)) : ∀ {w : Worker (Logged β) ρ},
    P w → P (after api w turns) := by
  induction turns with
  | nil => exact fun h => h
  | cons t turns ih => exact fun h => ih (hnext t h)

/-- A worker that has stopped has no session, and the sessions of its connection are accounted for. -/
structure Tidy (w : Worker (Logged β) ρ) : Prop where
  accounted : Accounted w.connection w.activity.underway
  stopped : ∀ result, w.activity = .stopped result → w.connection.session = none

/-- A worker begins with no attempt under way. -/
theorem start_underway (name : String) (router : Router (Sink ρ)) (bindings : List Binding) (config : WorkerConfig)
    (broker : β) (clock : Instant) : (start name router bindings config broker clock).activity.underway = none := by
  unfold start
  dsimp only
  split
  · rfl
  · exact Retry.start_underway config

theorem tidy_start (name : String) (router : Router (Sink ρ)) (bindings : List Binding) (config : WorkerConfig)
    (state : β) (clock : Instant) : Tidy (start name router bindings config (⟨state, []⟩ : Logged β) clock) := by
  refine ⟨?_, fun _ _ => rfl⟩
  rw [start_underway]
  exact accounted_closed bindings config true state

theorem tidy_step {api : BrokerApi β} {w w' : Worker (Logged β) ρ} (h : Tidy w)
    (hw : Stepped api.logged w w') : Tidy w' := by
  obtain ⟨l, -, hc⟩ := hw.change
  refine ⟨accounted_change hc h.accounted, fun result hstopped => ?_⟩
  cases hw with
  | stopped _ same => exact same.session.trans (release_session api.logged _)
  | refused => exact absurd hstopped (toward_ne_stopped _ _ _ _)
  | ignored ha =>
    rw [ha] at hstopped
    cases hstopped
  | _ => cases hstopped

theorem tidy_next (api : BrokerApi β) {w : Worker (Logged β) ρ} (h : Tidy w) (t : Turn β) :
    Tidy (next api w t) := by
  cases t with
  | step =>
    show Tidy ((w.step? api.logged).getD w)
    cases hw : w.step? api.logged with
    | none => exact h
    | some w' => exact tidy_step h (stepped_of_step? hw)
  | resume =>
    show Tidy w.resume
    rcases resume_spec w with heq | ⟨r, ha, heq⟩ | ⟨d, outcome, ha, heq⟩
    · rw [heq]
      exact h
    · rw [heq]
      refine ⟨?_, fun _ hstopped => by cases hstopped⟩
      have haccounted := h.accounted
      rw [ha] at haccounted
      show Accounted w.connection r.resume.underway
      rw [Retry.resume_underway]
      exact haccounted
    · rw [heq]
      refine ⟨?_, fun _ hstopped => by cases hstopped⟩
      have haccounted := h.accounted
      rwa [ha] at haccounted
  | answer result duration =>
    show Tidy (w.answer result duration)
    rcases answer_spec w result duration with heq | ⟨d, p, j, ha, heq⟩
    · rw [heq]
      exact h
    · rw [heq]
      refine ⟨?_, fun _ hstopped => absurd hstopped (toward_ne_stopped _ _ _ _)⟩
      rw [show (Activity.toward _ _ _ : Activity ρ).underway = w.activity.underway by
        rw [toward_underway, ha]; rfl]
      exact h.accounted.same ⟨rfl, rfl, rfl, rfl, rfl, rfl⟩
  | outside f channel notices shutdown clock => exact ⟨accounted_disturb h.accounted f, h.stopped⟩

theorem tidy_after (api : BrokerApi β) (turns : List (Turn β)) : ∀ {w : Worker (Logged β) ρ},
    Tidy w → Tidy (after api w turns) :=
  after_keeps api (P := Tidy) (fun t h => tidy_next api h t) turns

end Worker

/-! ## The main result -/

/-- **No session leaks.** However a connection on a broker is used, whatever the broker answers and whatever
else happens to it, the sessions of the log are accounted for, and each was closed once or is the one in hand.
The same holds of the connection of a worker; when the worker has stopped, each was closed once, in increasing
order. -/
theorem sessions_never_leak (api : BrokerApi β) (bindings : List Binding) (config : WorkerConfig) (state : β) :
    (∀ (notify : Bool) (turns : List (Use.Turn β)) (u : Use) (c : Connection (Logged β)),
      Use.after api turns (.idle, .closed bindings config notify ⟨state, []⟩) = (u, c) →
        Accounts c.broker.log (c.inHand u.underway) ∧
        ∀ g ∈ openings c.broker.log,
          (closings c.broker.log).count g = 1 ∧ c.inHand u.underway ≠ some g ∨
            (closings c.broker.log).count g = 0 ∧ c.inHand u.underway = some g) ∧
    ∀ (name : String) (router : Router (Sink ρ)) (clock : Instant) (turns : List (Worker.Turn β))
      (w : Worker (Logged β) ρ),
      Worker.after api (.start name router bindings config ⟨state, []⟩ clock) turns = w →
        Accounts w.connection.broker.log (w.connection.inHand w.activity.underway) ∧
        ∀ result, w.result? = some result →
          (∀ g ∈ openings w.connection.broker.log, (closings w.connection.broker.log).count g = 1) ∧
            closings w.connection.broker.log = openings w.connection.broker.log ∧
            (closings w.connection.broker.log).Pairwise (· < ·) := by
  constructor
  · rintro notify turns u c hafter
    have h : Accounted c u.underway := by
      have := Use.accounted_after api turns (s := (.idle, .closed bindings config notify ⟨state, []⟩))
        (accounted_closed bindings config notify state)
      rwa [hafter] at this
    exact ⟨h.accounts, fun g hg => h.accounts.once hg⟩
  · rintro name router clock turns w rfl
    have h := Worker.tidy_after api turns (Worker.tidy_start name router bindings config state clock)
    revert h
    generalize Worker.after api (.start name router bindings config ⟨state, []⟩ clock) turns = w
    intro h
    refine ⟨h.accounted.accounts, fun result hresult => ?_⟩
    have hactivity : ∃ result, w.activity = .stopped result := by
      unfold Worker.result? at hresult
      split at hresult
      · rename_i result' ha
        exact ⟨result', ha⟩
      · cases hresult
    obtain ⟨result', ha⟩ := hactivity
    have haccounts := h.accounted.accounts
    rw [ha, inHand_of_not_halfway rfl, h.stopped result' ha] at haccounts
    have heq : openings w.connection.broker.log = closings w.connection.broker.log := by
      simpa using haccounts.left
    refine ⟨fun g hg => ?_, heq.symm, heq ▸ haccounts.increasing⟩
    rcases haccounts.once hg with ⟨hone, -⟩ | ⟨-, hsome⟩
    · exact hone
    · cases hsome

/-- A connection that is opened twice without being closed in between. -/
def reopened : List (Use.Turn Broker) :=
  .connect :: List.replicate 8 (.step false) ++ [.connect] ++ List.replicate 3 (.step false)

/-- A worker that loses its first session, is refused the second, opens a third and is told to stop. -/
def restarted : List (Worker.Turn Broker) :=
  let midnight : Instant := ⟨0, 0⟩
  let pull (b : Broker) : Broker := { (b.drop "cable pulled").2 with refusals := 1 }
  List.replicate 10 .step ++ [.outside pull (.empty 1) [⟨1, "cable pulled"⟩] false midnight] ++
    List.replicate 5 .step ++ [.resume] ++ List.replicate 10 .step ++
    [.outside id (.empty 1) [] true midnight] ++ List.replicate 2 .step

theorem sessions_never_leak_restarted :
    let bindings : List Binding := [⟨"a", "q", "k"⟩]
    let state : Broker := .withExchanges ["a"]
    let router : Router (Sink Unit) := .only ⟨"documents", fun _ => .ok ()⟩
    let s := Use.after (Broker.api 0) reopened
      (.idle, .closed bindings (.standard "1") true ⟨state, []⟩)
    let w := Worker.after (Broker.api 0) (.start "courier" router bindings (.standard "1") ⟨state, []⟩ ⟨0, 0⟩)
      restarted
    (openings s.2.broker.log = [1, 2] ∧ closings s.2.broker.log = [1] ∧
      Accounts s.2.broker.log (s.2.inHand s.1.underway)) ∧
      w.result? = some (.ok ()) ∧ openings w.connection.broker.log = [1, 3] ∧
      closings w.connection.broker.log = openings w.connection.broker.log := by
  have h := @sessions_never_leak Broker Unit (Broker.api 0) [⟨"a", "q", "k"⟩] (.standard "1")
    (.withExchanges ["a"])
  refine ⟨⟨by decide +kernel, by decide +kernel, (h.1 true reopened _ _ rfl).1⟩, by rfl, by decide +kernel, ?_⟩
  exact ((h.2 "courier" _ _ restarted _ rfl).2 (.ok ()) (by rfl)).2.1

end EventCourier
