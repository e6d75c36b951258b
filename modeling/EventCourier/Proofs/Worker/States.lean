import EventCourier.Health
import EventCourier.Proofs.Connection.Generations
import EventCourier.Proofs.Connection.States
import EventCourier.Proofs.Worker.Sessions
import Mathlib.Data.List.Chain

/-!
# What is published about the connection

Whenever no operation is under way, a connection shows as connected just while it has a session, and so does the
readiness probe; its generation counts the sessions that were asked for. A worker publishes its states in six
kinds of steps only, and that it shuts down at its very end, once (`states_published`).
-/

namespace EventCourier

variable {β ρ : Type}

open Connection

/-! ## A connection and its user -/

namespace Use

/-- Whatever happens next, the connection shows whether it has a session. -/
theorem shown_next (api : BrokerApi β) (t : Turn β) {s : Use × Connection (Logged β)}
    (h : Shown s.2 s.1.underway) : Shown (next api t s).2 (next api t s).1.underway := by
  unfold next
  split
  · exact shown_startAttempt _ _
  · dsimp only
    rw [show (Use.retrying (.start _)).underway = none from Retry.start_underway _]
    exact h
  · rename_i n c
    have hlost : Shown (c.lose api.logged n).2 none := shown_lose h n
    dsimp only
    split
    · rw [show (Use.retrying (.start _)).underway = none from Retry.start_underway _]
      exact hlost
    · exact hlost
  · exact shown_resolve h _ _
  · exact shown_close _ _
  · exact h.same (.none rfl rfl) rfl rfl
  · exact shown_step h
  · exact h
  · split
    · rename_i hstep
      exact shown_retry h hstep
    · exact h
  · dsimp only
    rw [show (Use.retrying (Retry.resume _)).underway = _ from Retry.resume_underway _]
    exact h
  · exact ⟨h.connected, h.connecting⟩
  · exact h

theorem numbered_next (api : BrokerApi β) (t : Turn β) {s : Use × Connection (Logged β)}
    (h : Numbered [] 0 s.2 s.1.underway) : Numbered [] 0 (next api t s).2 (next api t s).1.underway := by
  rcases next_change api t s with ⟨l, hc⟩ | ⟨f, -, heq⟩
  · exact numbered_change hc h
  · rw [heq]
    exact numbered_disturb h f

theorem after_keeps (api : BrokerApi β) {P : Use × Connection (Logged β) → Prop}
    (hnext : ∀ t s, P s → P (next api t s)) (turns : List (Turn β)) {s : Use × Connection (Logged β)} (h : P s) :
    P (after api turns s) :=
  after_keeps_of_mem api (fun t _ => hnext t) h

end Use

/-- A probe for readiness is answered well just if the connection shows as connected. -/
theorem Health.status_ready {s : Health.Standing} {method target : String}
    (hprobe : Health.probe? (Health.path target) = some .ready) (hmethod : method = "GET" ∨ method = "HEAD") :
    (Health.answer s method target).status = ⟨200⟩ ↔ s.state = .connected := by
  have hstatus : (Health.answer s method target).status = (Health.respond s .ready).status := by
    unfold Health.answer
    rw [hprobe]
    rcases hmethod with rfl | rfl <;> rfl
  rw [hstatus]
  unfold Health.respond Health.isReady
  by_cases h : s.state = .connected <;> simp [h]

/-! ## Steps between states -/

/-- The steps that are made between states. -/
def ConnectionState.steps : List (ConnectionState × ConnectionState) :=
  [(.disconnected, .connecting), (.connecting, .connected), (.connecting, .disconnected),
    (.connected, .disconnected), (.connected, .shuttingDown), (.disconnected, .shuttingDown)]

namespace Connection

variable {c c' : Connection β} {s : Option ConnectionState}

/-- The states that were published, from the first on. -/
def trail (c : Connection β) : List ConnectionState := .disconnected :: c.journal.states

/-- States were published in the steps that are made, and the last one is current. -/
structure Trailed (c : Connection β) : Prop where
  chain : c.trail.IsChain fun s t => (s, t) ∈ ConnectionState.steps
  last : c.trail.getLast? = some c.state

theorem Trailed.told (h : Trailed c) (ht : Told c c' s)
    (hs : ∀ x ∈ s, (c.state, x) ∈ ConnectionState.steps) : Trailed c' := by
  have htrail : c'.trail = c.trail ++ s.toList := by simp only [trail, ht.states, List.cons_append]
  constructor
  · rw [htrail]
    refine List.isChain_append.mpr ⟨h.chain, by cases s <;> simp, fun y hy x hx => ?_⟩
    rw [h.last] at hy
    rw [← Option.mem_some.mp hy]
    cases s with
    | none => cases hx
    | some z => exact hs x hx
  · rw [htrail, List.getLast?_append, h.last, ht.state]
    cases s <;> rfl

/-- From shutting down there are no steps, so it can only be the last state. -/
theorem Trailed.last_shuttingDown (h : Trailed c) {before after : List ConnectionState}
    (hsplit : c.journal.states = before ++ .shuttingDown :: after) : after = [] := by
  cases after with
  | nil => rfl
  | cons t after =>
    have hchain := h.chain
    rw [trail, hsplit, ← List.cons_append] at hchain
    have hstep := (List.isChain_cons_cons.mp (List.isChain_append.mp hchain).2.1).1
    have hno : ∀ t, (.shuttingDown, t) ∉ ConnectionState.steps := fun t => by cases t <;> decide
    exact absurd hstep (hno t)

/-- It is published that the connection shuts down just if it does, once, and at the end. -/
theorem Trailed.shuttingDown (h : Trailed c) :
    (c.state = .shuttingDown → ∃ before, c.journal.states = before ++ [.shuttingDown] ∧ .shuttingDown ∉ before) ∧
      (c.state ≠ .shuttingDown → .shuttingDown ∉ c.journal.states) := by
  have hlast := h.last
  constructor
  · intro hstate
    obtain ⟨before, hbefore⟩ := List.getLast?_eq_some_iff.mp (hstate ▸ hlast)
    cases before with
    | nil => cases hbefore
    | cons x before =>
      have hstates : c.journal.states = before ++ [.shuttingDown] := (List.cons.inj hbefore).2
      refine ⟨before, hstates, fun hmem => ?_⟩
      obtain ⟨l, m, rfl⟩ := List.append_of_mem hmem
      rw [List.append_assoc, List.cons_append] at hstates
      simpa using h.last_shuttingDown hstates
  · intro hstate hmem
    obtain ⟨l, m, hsplit⟩ := List.append_of_mem hmem
    obtain rfl := h.last_shuttingDown hsplit
    rw [trail, hsplit, ← List.cons_append, List.getLast?_concat] at hlast
    exact hstate (Option.some.inj hlast).symm

end Connection

/-! ## What a worker shows -/

/-- What is shown during an attempt. -/
def Attempt.showing : Attempt → ConnectionState
  | .over (.ok _) => .connected
  | .over (.error _) => .disconnected
  | .opening | .settingUp _ | .undoing _ => .connecting

/-- What is shown during a series of attempts that did not begin with a session. -/
def Retry.showing : Retry → ConnectionState
  | .attempting _ a => a.showing
  | .done (.ok _) => .connected
  | .trying _ | .pausing _ | .done (.error _) => .disconnected

theorem Retry.showing_start (config : WorkerConfig) : (Retry.start config).showing = .disconnected := by
  unfold Retry.start
  split <;> rfl

/-- A series of attempts never shows that the connection shuts down. -/
theorem Retry.showing_ne (r : Retry) : r.showing ≠ .shuttingDown := by
  have hattempt : ∀ a : Attempt, a.showing ≠ .shuttingDown := by
    intro a
    match a with
    | .over (.ok _) | .over (.error _) | .opening | .settingUp _ | .undoing _ => nofun
  match r with
  | .attempting _ a => exact hattempt a
  | .done (.ok _) | .done (.error _) | .trying _ | .pausing _ => nofun

theorem Attempt.showing_of_pending {a : Attempt} (h : a.isOver = false) : a.showing = .connecting := by
  match a with
  | .over result => cases h
  | .opening | .settingUp _ | .undoing _ => rfl

/-- A step of a series makes a step between states, or none. -/
theorem Retry.step?_showing {api : BrokerApi β} {shutdown : Bool} {r r' : Retry} {c c' : Connection β}
    (h : c.state = r.showing) (hstep : r.step? api shutdown c = some (r', c')) :
    ∃ s, Told c c' s ∧ c'.state = r'.showing ∧ ∀ x ∈ s, (c.state, x) ∈ ConnectionState.steps := by
  have hnone : ∀ x ∈ (none : Option ConnectionState), (c.state, x) ∈ ConnectionState.steps := nofun
  have hfailed : ∀ record, Told c ((c.mark (.attempt false)).record record) none := fun record =>
    (told_mark c (by simp)).after_none (told_record _ _)
  cases stepped_of_step? hstep with
  | cancelled | interrupted => exact ⟨none, .none rfl rfl, h, hnone⟩
  | begun =>
    obtain ⟨ht, -⟩ := startAttempt_told api c
    refine ⟨_, ht, ht.state, ?_⟩
    rw [show c.state = .disconnected from h]
    decide
  | @went _ a ha =>
    have hstate : c.state = .connecting := h.trans (Attempt.showing_of_pending ha)
    rcases Attempt.step_told api ha c with ⟨hover, ht, -⟩ | ⟨e, hover, ht, -⟩ | ⟨hover, ht, -⟩
    · exact ⟨none, ht, ht.state.trans (hstate.trans (Attempt.showing_of_pending hover).symm), hnone⟩
    · exact ⟨_, ht, by rw [ht.state, hover]; rfl, by rw [hstate]; decide⟩
    · exact ⟨_, ht, by rw [ht.state, hover]; rfl, by rw [hstate]; decide⟩
  | succeeded => exact ⟨none, told_mark c (by simp), h, hnone⟩
  | unusable | paused | exhausted => exact ⟨none, hfailed _, h, hnone⟩

/-- What a worker shows while it is about something. -/
def Activity.Shows : Activity ρ → ConnectionState → Prop
  | .connecting r, s => s = r.showing
  | .closing _, s => s = .connected ∨ s = .disconnected
  | .stopped _, s => s = .shuttingDown
  | _, s => s = .connected

theorem Activity.shows_toward {config : WorkerConfig} {d : Delivery} {outcome : Outcome} {s : ConnectionState}
    (h : s = .connected) : (Activity.toward config d outcome : Activity ρ).Shows s := by
  unfold Activity.toward
  split <;> exact h

theorem Pipeline.states_reject (policy : RejectPolicy) (d : Delivery) (e : WorkerError) (j : Journal) :
    (Pipeline.reject policy d e j).2.states = j.states :=
  (Journal.states_mark _ _).trans (List.append_nil _)

theorem Pipeline.states_conclude (policy : RejectPolicy) (d : Delivery) (sink : String) (duration : Nat)
    (answer : Except SinkError Unit) (j : Journal) :
    (Pipeline.conclude policy d sink duration answer j).2.states = j.states := by
  cases answer with
  | ok => exact (Journal.states_mark _ _).trans (List.append_nil _)
  | error e => exact Pipeline.states_reject policy d (.sink e) j

namespace Worker

variable {api : BrokerApi β} {w w' : Worker β ρ}

/-- A worker goes from what it shows to what it shows then, by a step between states or none. -/
def Showing (w w' : Worker β ρ) : Prop :=
  ∃ s, Told w.connection w'.connection s ∧ w'.activity.Shows w'.connection.state ∧
    ∀ x ∈ s, (w.connection.state, x) ∈ ConnectionState.steps

/-- Nothing is published. -/
theorem Showing.quiet (ht : Told w.connection w'.connection none)
    (h : w'.activity.Shows w.connection.state) : Showing w w' :=
  ⟨none, ht, by rw [ht.state]; exact h, nofun⟩

theorem showing_decided {d : Delivery} {result : Outcome × Journal} (hw : w.connection.state = .connected)
    (hj : result.2.states = w.connection.journal.states) : Showing w (w.decided d result) := by
  rw [decided_eq]
  exact .quiet (.none hj rfl) (Activity.shows_toward hw)

theorem showing_choose (ha : w.activity = .choosing) (hw : w.connection.state = .connected)
    (h : w.choose? api = some w') : Showing w w' := by
  unfold choose? at h
  split at h
  · cases h
    exact .quiet (.none rfl rfl) (Or.inl hw)
  · split at h
    · rename_i n rest hnotices
      simp only [Option.some.injEq] at h
      subst h
      rcases lose_told api w.connection n with heq | ⟨-, hlost, ht, -⟩
      · rw [heq]
        refine .quiet (.none rfl rfl) ?_
        show w.activity.Shows w.connection.state
        rw [ha]
        exact hw
      · rw [hlost]
        refine ⟨_, ht, ht.state.trans (Retry.showing_start _).symm, ?_⟩
        rw [hw]
        decide
    · split at h
      · cases h
        exact .quiet (.none rfl rfl) hw
      · cases h

theorem showing_handle (hw : w.connection.state = .connected) (d : Delivery) : Showing w (w.handle d) := by
  have hmarked : ∀ {m : Mark}, (∀ s, m ≠ .state s) →
      (w.connection.mark m).journal.states = w.connection.journal.states :=
    fun hm => (told_mark w.connection hm).states.trans (List.append_nil _)
  unfold handle
  split
  · dsimp only
    split
    · exact .quiet (told_mark _ (by simp)) hw
    · rw [decided_eq]
      exact .quiet (.none ((Pipeline.states_reject _ _ _ _).trans (hmarked (by simp))) rfl)
        (Activity.shows_toward hw)
  · exact .quiet (told_mark _ (by simp)) hw

theorem showing_settle (hw : w.connection.state = .connected) (d : Delivery) (outcome : Outcome) :
    Showing w (w.settle api d outcome) := by
  have ht := (resolve_told api w.connection d.tag outcome).1
  unfold settle
  split
  · rename_i c hc
    rw [hc] at ht
    exact .quiet ht hw
  · rename_i e c hc
    rw [hc] at ht
    exact .quiet (ht.after_none (told_record _ _)) hw

theorem showing_finish (hw : w.connection.state = .connected ∨ w.connection.state = .disconnected)
    (result : Except WorkerError Unit) : Showing w (w.finish api result) := by
  have ht := (close_told api w.connection).1
  have hstep : ∀ x ∈ some ConnectionState.shuttingDown, (w.connection.state, x) ∈ ConnectionState.steps := by
    rcases hw with hw | hw <;> rw [hw] <;> decide
  unfold finish
  dsimp only
  split
  · exact ⟨_, ht, ht.state, hstep⟩
  · exact ⟨_, ht, ht.state, hstep⟩
  · exact ⟨_, ht.then_none (told_record _ _), ht.state, hstep⟩

/-- A step of a worker makes a step between states, or none. -/
theorem showing_step (h : w.activity.Shows w.connection.state) (hw : w.step? api = some w') : Showing w w' := by
  unfold step? at hw
  split at hw <;> rename_i ha <;> rw [ha] at h
  · cases hw
    exact .quiet (.none rfl rfl) h
  · cases hw
    exact .quiet (.none rfl rfl) (Or.inr h)
  · rw [Option.map_eq_some_iff] at hw
    obtain ⟨⟨r, c⟩, hstep, rfl⟩ := hw
    exact Retry.step?_showing h hstep
  · exact showing_choose ha h hw
  · cases hw
    exact showing_handle h _
  · cases hw
  · split at hw <;> cases hw
    exact .quiet (.none rfl rfl) h
  · cases hw
    exact showing_settle h _ _
  · cases hw
    exact showing_finish h _
  · cases hw

/-- A worker shows what it is about, and came there in the steps that are made. -/
structure Open (w : Worker β ρ) : Prop where
  shows : w.activity.Shows w.connection.state
  trailed : w.connection.Trailed

theorem Showing.opens (hs : Showing w w') (h : w.connection.Trailed) : w'.Open := by
  obtain ⟨s, ht, hshows, hsteps⟩ := hs
  exact ⟨hshows, h.told ht hsteps⟩

theorem open_start (name : String) (router : Router (Sink ρ)) {bindings : List Binding} (hne : bindings ≠ [])
    (config : WorkerConfig) (broker : β) (clock : Instant) :
    (start name router bindings config broker clock).Open := by
  have hempty : bindings.isEmpty = false := List.isEmpty_eq_false_iff.mpr hne
  refine ⟨?_, ⟨.singleton _, rfl⟩⟩
  simp only [start, hempty]
  exact (Retry.showing_start config).symm

/-- Whatever happens next, a worker shows what it is about. -/
theorem open_next (api : BrokerApi β) (t : Turn β) {w : Worker (Logged β) ρ} (h : w.Open) :
    (next api w t).Open := by
  cases t with
  | step =>
    show ((w.step? api.logged).getD w).Open
    cases hw : w.step? api.logged with
    | none => exact h
    | some w' => exact (showing_step h.shows hw).opens h.trailed
  | resume =>
    show w.resume.Open
    have hshows := h.shows
    rcases resume_spec w with heq | ⟨r, ha, heq⟩ | ⟨d, outcome, ha, heq⟩
    · rwa [heq]
    · rw [ha] at hshows
      rw [heq]
      refine ⟨?_, h.trailed⟩
      cases r <;> exact hshows
    · rw [ha] at hshows
      rw [heq]
      exact ⟨hshows, h.trailed⟩
  | answer result duration =>
    show (w.answer result duration).Open
    have hshows := h.shows
    unfold answer
    split
    · rename_i d p ha
      rw [ha] at hshows
      exact (showing_decided hshows (Pipeline.states_conclude _ _ _ _ _ _)).opens h.trailed
    · exact h
  | outside f channel notices shutdown clock => exact ⟨h.shows, h.trailed.chain, h.trailed.last⟩

theorem open_after (api : BrokerApi β) (turns : List (Turn β)) : ∀ {w : Worker (Logged β) ρ},
    w.Open → (after api w turns).Open :=
  after_keeps api (P := Open) (fun t h => open_next api t h) turns

/-- A worker shows that it is shutting down just when it has stopped. -/
theorem Open.shuttingDown_iff (h : w.Open) : w.connection.state = .shuttingDown ↔ w.result?.isSome := by
  have hshows := h.shows
  unfold result?
  cases ha : w.activity with
  | stopped result =>
    rw [ha] at hshows
    exact ⟨fun _ => rfl, fun _ => hshows⟩
  | connecting r =>
    rw [ha] at hshows
    exact ⟨fun hstate => absurd (hshows.symm.trans hstate) (Retry.showing_ne r), nofun⟩
  | closing result =>
    rw [ha] at hshows
    rcases hshows with hstate | hstate <;> simp [hstate]
  | _ =>
    rw [ha] at hshows
    have hstate : w.connection.state = .connected := hshows
    simp [hstate]

end Worker

/-! ## The main result -/

/-- **What is published about the connection is true.** However a connection on a broker was used, when no
operation is under way it shows as connected, and is ready to a probe, just if it has a session; that session was
opened under the current generation, and sessions were asked for as often as the generation says. The states that
a worker with bindings publishes follow each other in the steps that are made; that it is shutting down is among
them just if it has stopped, once and at the end. -/
theorem states_published (api : BrokerApi β) (config : WorkerConfig) (state : β) (bindings : List Binding) :
    (∀ (notify : Bool) (turns : List (Use.Turn β)) (c : Connection (Logged β)),
      Use.after api turns (.idle, .closed bindings config notify ⟨state, []⟩) = (.idle, c) →
        (c.state = .connected ↔ c.session.isSome) ∧
        (∀ g, c.session = some g → g = c.generation ∧ g ∈ openings c.broker.log) ∧
        c.generation = (attempts c.broker.log).length ∧
        ∀ (s : Health.Standing) (method target : String), s.state = c.state →
          Health.probe? (Health.path target) = some .ready → method = "GET" ∨ method = "HEAD" →
            ((Health.answer s method target).status = ⟨200⟩ ↔ c.session.isSome)) ∧
    ∀ (name : String) (router : Router (Sink ρ)) (clock : Instant) (turns : List (Worker.Turn β))
      (w : Worker (Logged β) ρ),
      bindings ≠ [] → Worker.after api (.start name router bindings config ⟨state, []⟩ clock) turns = w →
        (ConnectionState.disconnected :: w.connection.journal.states).IsChain
          (fun s t => (s, t) ∈ ConnectionState.steps) ∧
        (w.result? = none → .shuttingDown ∉ w.connection.journal.states) ∧
        ∀ result, w.result? = some result →
          ∃ before, w.connection.journal.states = before ++ [.shuttingDown] ∧ .shuttingDown ∉ before := by
  constructor
  · intro notify turns c hafter
    have hshown := Use.after_keeps api (Use.shown_next api) turns
      (s := (.idle, .closed bindings config notify ⟨state, []⟩)) (shown_closed bindings config notify _)
    have hnumbered := Use.after_keeps api (Use.numbered_next api) turns
      (s := (.idle, .closed bindings config notify ⟨state, []⟩)) (numbered_closed bindings config notify state)
    have haccounted := Use.accounted_after api turns
      (s := (.idle, .closed bindings config notify ⟨state, []⟩)) (accounted_closed bindings config notify state)
    rw [hafter] at hshown hnumbered haccounted
    have hshown : Shown c none := hshown
    have hnumbered : Numbered [] 0 c none := hnumbered
    have haccounted : Accounted c none := haccounted
    refine ⟨hshown.connected, fun g hg => ⟨haccounted.steady.current g hg, ?_⟩, ?_, ?_⟩
    · have hleft := haccounted.accounts.left
      rw [inHand_of_not_halfway rfl, hg] at hleft
      rw [hleft]
      exact List.mem_append_right _ (Option.mem_toList.mpr rfl)
    · rw [hnumbered.attempts_eq rfl, List.nil_append, List.length_range', Nat.sub_zero]
    · intro s method target hs hprobe hmethod
      rw [← hshown.connected, ← hs]
      exact Health.status_ready hprobe hmethod
  · rintro name router clock turns w hne rfl
    have h := Worker.open_after api turns
      (Worker.open_start name router hne config (⟨state, []⟩ : Logged β) clock)
    refine ⟨h.trailed.chain, fun hnone => ?_, fun result hresult => ?_⟩
    · exact h.trailed.shuttingDown.2 fun hstate => by simpa [hnone] using h.shuttingDown_iff.mp hstate
    · exact h.trailed.shuttingDown.1 (h.shuttingDown_iff.mpr (by rw [hresult]; rfl))

/-- The states of a worker that loses its first session, is refused the second and is stopped with the third, and
of a connection after its second session was opened. -/
theorem states_published_restarted :
    let bindings : List Binding := [⟨"a", "q", "k"⟩]
    let state : Broker := .withExchanges ["a"]
    let router : Router (Sink Unit) := .only ⟨"documents", fun _ => .ok ()⟩
    let s := Use.after (Broker.api 0) (reopened ++ List.replicate 5 (.step false))
      (.idle, .closed bindings (.standard "1") true ⟨state, []⟩)
    let w := Worker.after (Broker.api 0) (.start "courier" router bindings (.standard "1") ⟨state, []⟩ ⟨0, 0⟩)
      restarted
    (s.2.session = some 2 ∧ s.2.generation = (attempts s.2.broker.log).length ∧
      ((Health.answer ⟨"courier", "1", s.2.state, none⟩ "GET" "/ready?x").status = ⟨200⟩ ↔ s.2.session.isSome)) ∧
      bindings ≠ [] ∧ w.result? = some (.ok ()) ∧
      w.connection.journal.states = [.connecting, .connected, .disconnected, .connecting, .disconnected,
        .connecting, .connected, .shuttingDown] ∧
      (ConnectionState.disconnected :: w.connection.journal.states).IsChain
        (fun s t => (s, t) ∈ ConnectionState.steps) ∧
      ∃ before, w.connection.journal.states = before ++ [.shuttingDown] ∧ .shuttingDown ∉ before := by
  have h := @states_published Broker Unit (Broker.api 0) (.standard "1") (.withExchanges ["a"]) [⟨"a", "q", "k"⟩]
  have hidle := h.1 true (reopened ++ List.replicate 5 (.step false)) _ rfl
  have hworker := h.2 "courier" (.only ⟨"documents", fun _ => .ok ()⟩) ⟨0, 0⟩ restarted _ (by decide) rfl
  refine ⟨⟨by decide +kernel, hidle.2.2.1, ?_⟩, by decide, by rfl, by decide +kernel, hworker.1, ?_⟩
  · exact hidle.2.2.2 _ "GET" "/ready?x" rfl (by decide +kernel) (Or.inl rfl)
  · exact hworker.2.2 (.ok ()) (by rfl)

end EventCourier
