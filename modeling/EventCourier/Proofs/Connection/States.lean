import EventCourier.Proofs.Connection.Retry

/-!
# The state that is published

`Told` says which state an operation publishes, if any. An attempt that goes on publishes nothing, and its end
publishes how it ended (`Attempt.step_told`). `Shown` is what this makes of the connection: it shows as connected
just while it has a session, and as connecting just while an attempt is not over.
-/

namespace EventCourier

variable {β : Type}

namespace Journal

theorem states_mark (j : Journal) (m : Mark) :
    (j.mark m).states = j.states ++ match m with
      | .state s => [s]
      | _ => [] := by
  simp only [states, mark, List.filterMap_append]
  cases m <;> rfl

end Journal

namespace Connection

variable {api : BrokerApi β} {a : Option Attempt} {c c' c'' : Connection β} {s : Option ConnectionState}

/-- What is published on the way from one connection to another: one state, or none. -/
structure Told (c c' : Connection β) (s : Option ConnectionState) : Prop where
  states : c'.journal.states = c.journal.states ++ s.toList
  state : c'.state = s.getD c.state

theorem Told.none (hstates : c'.journal.states = c.journal.states) (hstate : c'.state = c.state) :
    Told c c' none := ⟨hstates.trans (List.append_nil _).symm, hstate⟩

/-- Nothing is published before a state. -/
theorem Told.after_none (h : Told c c' .none) (h' : Told c' c'' s) : Told c c'' s where
  states := by rw [h'.states, h.states, Option.toList_none, List.append_nil]
  state := by rw [h'.state, h.state, Option.getD_none]

/-- Nothing is published after a state. -/
theorem Told.then_none (h : Told c c' s) (h' : Told c' c'' .none) : Told c c'' s where
  states := by rw [h'.states, h.states, Option.toList_none, List.append_nil]
  state := by rw [h'.state, h.state, Option.getD_none]

theorem told_publish (c : Connection β) (s : ConnectionState) : Told c (c.publish s) (some s) where
  states := Journal.states_mark _ _
  state := rfl

theorem told_record (c : Connection β) (r : LogRecord) : Told c (c.record r) .none := .none rfl rfl

theorem told_mark (c : Connection β) {m : Mark} (h : ∀ s, m ≠ .state s) : Told c (c.mark m) .none := by
  refine .none ((Journal.states_mark _ _).trans ?_) rfl
  cases m with
  | state s => exact absurd rfl (h s)
  | _ => exact List.append_nil _

theorem told_release (api : BrokerApi β) (c : Connection β) : Told c (c.release api) .none := by
  unfold release
  cases c.session with
  | none => exact .none rfl rfl
  | some g => exact .none rfl rfl

/-! ## Operations -/

/-- An attempt begins without a session. -/
theorem startAttempt_told (api : BrokerApi β) (c : Connection β) :
    Told c (c.startAttempt api) (some .connecting) ∧ (c.startAttempt api).session = none := by
  have hrelease := told_release api c
  have hquiet : Told c { c.release api with generation := (c.release api).generation + 1 } none :=
    ⟨hrelease.states, hrelease.state⟩
  exact ⟨hquiet.after_none (told_publish _ _), release_session api c⟩

/-- A notice is ignored, or the session it is about is gone. -/
theorem lose_told (api : BrokerApi β) (c : Connection β) (n : Notice) :
    c.lose api n = (false, c) ∨
      c.session.isSome ∧ (c.lose api n).1 = true ∧ Told c (c.lose api n).2 (some .disconnected) ∧
        (c.lose api n).2.session = none := by
  unfold lose
  split
  · rename_i h
    have hmark : Told c ((c.record (.sessionLost n)).mark .lost) none :=
      (told_record c _).after_none (told_mark _ (by simp))
    exact Or.inr ⟨(Bool.and_eq_true_iff.mp h).1, rfl,
      (hmark.after_none (told_release api _)).after_none (told_publish _ _), release_session api _⟩
  · exact Or.inl rfl

theorem resolve_told (api : BrokerApi β) (c : Connection β) (t : Tag) (outcome : Outcome) :
    Told c (c.resolve api t outcome).2 none ∧ (c.resolve api t outcome).2.session = c.session := by
  rw [resolve_eq]
  split
  · exact ⟨.none rfl rfl, rfl⟩
  · split
    · exact ⟨.none rfl rfl, rfl⟩
    · exact ⟨.none rfl rfl, rfl⟩

theorem close_told (api : BrokerApi β) (c : Connection β) :
    Told c (c.close api) (some .shuttingDown) ∧ (c.close api).session = none :=
  ⟨(told_publish c _).then_none (told_release api _), release_session api _⟩

end Connection

open Connection

/-- A step of an attempt goes on, ends in failure or ends in a session. -/
theorem Attempt.step_told (api : BrokerApi β) {a : Attempt} (ha : a.isOver = false) (c : Connection β) :
    ((a.step api c).1.isOver = false ∧ Told c (a.step api c).2 none ∧ (a.step api c).2.session = c.session) ∨
      (∃ e, (a.step api c).1 = .over (.error e) ∧ Told c (a.step api c).2 (some .disconnected) ∧
        (a.step api c).2.session = c.session) ∨
      ((a.step api c).1 = .over (.ok ()) ∧ Told c (a.step api c).2 (some .connected) ∧
        (a.step api c).2.session = some c.generation) := by
  have hquiet : ∀ b, Told c { c with broker := b } none := fun b => .none rfl rfl
  match a, ha with
  | .opening, _ =>
    rcases hcall : api.openSession c.generation c.notify c.broker with ⟨e | ⟨⟩, b⟩
    · simp only [step, hcall]
      exact Or.inr (Or.inl ⟨e, rfl, (hquiet b).after_none (told_publish _ _), rfl⟩)
    · simp only [step, hcall]
      exact Or.inl ⟨rfl, hquiet b, trivial⟩
  | .settingUp [], _ =>
    have hsession : Told c { c with session := some c.generation } none := .none rfl rfl
    exact Or.inr (Or.inr ⟨rfl, hsession.after_none (told_publish _ _), rfl⟩)
  | .settingUp (call :: left), _ =>
    rcases hcall : call.run api c.generation c.broker with ⟨e | ⟨⟩, b⟩
    · simp only [step, hcall]
      exact Or.inl ⟨rfl, hquiet b, trivial⟩
    · simp only [step, hcall]
      exact Or.inl ⟨rfl, hquiet b, trivial⟩
  | .undoing e, _ => exact Or.inr (Or.inl ⟨e, rfl, (hquiet _).after_none (told_publish _ _), rfl⟩)

/-! ## What the state shows -/

namespace Connection

variable {api : BrokerApi β} {a : Option Attempt} {c c' : Connection β} {s : Option ConnectionState}

/-- True while an attempt is not over. -/
def pending (a : Option Attempt) : Bool := a.any fun x => !x.isOver

/-- A connection shows as connected just while it has a session, and as connecting just while an attempt is
not over. -/
structure Shown (c : Connection β) (a : Option Attempt) : Prop where
  connected : c.state = .connected ↔ c.session.isSome
  connecting : c.state = .connecting ↔ pending a = true

theorem shown_closed (bindings : List Binding) (config : WorkerConfig) (notify : Bool) (broker : β) :
    Shown (.closed bindings config notify broker) none := ⟨by simp [closed], by simp [closed, pending]⟩

theorem Shown.same (h : Shown c a) (ht : Told c c' none) (hs : c'.session = c.session) {a' : Option Attempt}
    (ha : pending a' = pending a) : Shown c' a' where
  connected := by rw [ht.state, hs, Option.getD_none]; exact h.connected
  connecting := by rw [ht.state, ha, Option.getD_none]; exact h.connecting

/-- While an attempt is not over there is no session. -/
theorem Shown.session (h : Shown c a) (ha : pending a = true) : c.session = none := by
  have hstate := h.connecting.mpr ha
  cases hs : c.session with
  | none => rfl
  | some g =>
    have := h.connected.mpr (by rw [hs]; rfl)
    rw [hstate] at this
    cases this

/-- A state that was published, without a session and but while connecting. -/
theorem shown_told (ht : Told c c' s) (hs : c'.session = none) {x : ConnectionState} (hx : s = some x)
    (hconnected : x ≠ .connected) (hconnecting : x = .connecting ↔ pending a = true) : Shown c' a where
  connected := by
    rw [ht.state, hx, hs]
    simpa using hconnected
  connecting := by
    rw [ht.state, hx]
    exact hconnecting

theorem shown_startAttempt (api : BrokerApi β) (c : Connection β) :
    Shown (c.startAttempt api) (some .opening) :=
  have h := startAttempt_told api c
  shown_told h.1 h.2 rfl (by decide) (by decide)

theorem shown_step {x : Attempt} (h : Shown c (some x)) :
    Shown (x.step api c).2 (some (x.step api c).1) := by
  cases hx : x.isOver with
  | true =>
    match x with
    | .over result => exact h
  | false =>
    have hpending : pending (some x) = true := by simp [pending, hx]
    have hnone := h.session hpending
    rcases Attempt.step_told api hx c with ⟨hover, ht, hs⟩ | ⟨e, hover, ht, hs⟩ | ⟨hover, ht, hs⟩
    · exact h.same ht hs (by simp [pending, hover, hx])
    · exact shown_told ht (hs.trans hnone) rfl (by decide) (by simp [pending, hover, Attempt.isOver])
    · refine ⟨?_, ?_⟩
      · rw [ht.state, hs]
        exact ⟨fun _ => rfl, fun _ => rfl⟩
      · rw [ht.state, hover]
        exact ⟨nofun, nofun⟩

theorem shown_retry {shutdown : Bool} {r r' : Retry} (h : Shown c r.underway)
    (hstep : r.step? api shutdown c = some (r', c')) : Shown c' r'.underway := by
  have hfailed : ∀ e record, Told c ((c.mark (.attempt e)).record record) none := fun e record =>
    (told_mark c (by simp)).after_none (told_record _ _)
  cases Retry.stepped_of_step? hstep with
  | cancelled | interrupted => exact h
  | begun => exact shown_startAttempt api c
  | went => exact shown_step h
  | succeeded => exact h.same (told_mark c (by simp)) rfl rfl
  | unusable | paused | exhausted => exact h.same (hfailed _ _) rfl rfl

theorem shown_lose (h : Shown c none) (n : Notice) : Shown (c.lose api n).2 none := by
  rcases lose_told api c n with heq | ⟨-, -, ht, hs⟩
  · rw [heq]
    exact h
  · exact shown_told ht hs rfl (by decide) (by decide)

theorem shown_resolve (h : Shown c none) (t : Tag) (outcome : Outcome) :
    Shown (c.resolve api t outcome).2 none :=
  have ht := resolve_told api c t outcome
  h.same ht.1 ht.2 rfl

theorem shown_close (api : BrokerApi β) (c : Connection β) : Shown (c.close api) none :=
  have ht := close_told api c
  shown_told ht.1 ht.2 rfl (by decide) (by decide)

end Connection
end EventCourier
