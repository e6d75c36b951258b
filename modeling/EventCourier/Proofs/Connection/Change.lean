import EventCourier.Connection

/-!
# What can become of a connection

`Change` lists everything that one step does to a connection, each with at most one call on the broker: one
step of an attempt (`Attempt.step_change`) or of a series (`Retry.step?_change`), and the other operations
(`lose_change`, `resolve_change`, `close_change`). What all changes keep of the connection alone is `Steady`:
its session is that of the current generation, and while an attempt is not over there is none. An attempt made
at once is an attempt made call by call that nothing comes in between (`connect_eq_steps`).
-/

namespace EventCourier

variable {β : Type}

/-- Resolves a delivery with a session. -/
def BrokerApi.resolve (api : BrokerApi β) (session tag : Nat) : Outcome → Call β
  | .ack => api.ack session tag
  | .reject requeue => api.reject session tag requeue

/-- True of an attempt that has opened a session and neither set it up nor closed it. -/
def Attempt.isHalfway : Attempt → Bool
  | .settingUp _ | .undoing _ => true
  | .opening | .over _ => false

/-- True of an attempt that is over. -/
def Attempt.isOver : Attempt → Bool
  | .over _ => true
  | .opening | .settingUp _ | .undoing _ => false

/-- The attempt that a series is in the midst of. -/
def Retry.underway : Retry → Option Attempt
  | .attempting _ a => some a
  | .trying _ | .pausing _ | .done _ => none

namespace Connection

variable {api : BrokerApi β} {l : Option (Tag × Outcome)} {a a' : Option Attempt} {c c' : Connection β}

/-- The session that is open: the one the connection has, or the one that an attempt under way has opened. -/
def inHand (c : Connection β) (a : Option Attempt) : Option Nat :=
  c.session.or (if a.any Attempt.isHalfway then some c.generation else none)

/-- Two connections differ at most in the state that is published and in the journal. -/
structure Same (c c' : Connection β) : Prop where
  bindings : c'.bindings = c.bindings
  config : c'.config = c.config
  notify : c'.notify = c.notify
  session : c'.session = c.session
  generation : c'.generation = c.generation
  broker : c'.broker = c.broker

theorem Same.refl (c : Connection β) : Same c c := ⟨rfl, rfl, rfl, rfl, rfl, rfl⟩

theorem Same.trans {c₁ c₂ c₃ : Connection β} (h : Same c₁ c₂) (h' : Same c₂ c₃) : Same c₁ c₃ :=
  ⟨h'.bindings.trans h.bindings, h'.config.trans h.config, h'.notify.trans h.notify, h'.session.trans h.session,
    h'.generation.trans h.generation, h'.broker.trans h.broker⟩

/-- What one step makes of a connection `c`: the delivery it resolves, if it does, and what it makes of the attempt
that is under way. -/
inductive Change (api : BrokerApi β) (c c' : Connection β) :
    Option (Tag × Outcome) → Option Attempt → Option Attempt → Prop where
  | quiet {a : Option Attempt} (h : Same c c') : Change api c c' none a a
  | reported {result : Except WorkerError Unit} (h : Same c c') :
      Change api c c' none (some (.over result)) none
  | started (h : Same { c.release api with generation := (c.release api).generation + 1 } c') :
      Change api c c' none none (some .opening)
  | refused {e : WorkerError} {b : β} (call : api.openSession c.generation c.notify c.broker = (.error e, b))
      (h : Same { c with broker := b } c') : Change api c c' none (some .opening) (some (.over (.error e)))
  | opened {b : β} (call : api.openSession c.generation c.notify c.broker = (.ok (), b))
      (h : Same { c with broker := b } c') :
      Change api c c' none (some .opening) (some (.settingUp (setupCalls c.bindings c.config)))
  | called {call : SetupCall} {left : List SetupCall}
      (h : Same { c with broker := (call.run api c.generation c.broker).2 } c') :
      Change api c c' none (some (.settingUp (call :: left))) (some (.settingUp left))
  | failed {call : SetupCall} {left : List SetupCall} {e : WorkerError}
      (h : Same { c with broker := (call.run api c.generation c.broker).2 } c') :
      Change api c c' none (some (.settingUp (call :: left))) (some (.undoing e))
  | established (h : Same { c with session := some c.generation } c') :
      Change api c c' none (some (.settingUp [])) (some (.over (.ok ())))
  | undone {e : WorkerError} (h : Same { c with broker := (api.close c.generation c.broker).2 } c') :
      Change api c c' none (some (.undoing e)) (some (.over (.error e)))
  | released (h : Same (c.release api) c') : Change api c c' none none none
  | resolved {g : Nat} {t : Tag} {outcome : Outcome} (session : c.session = some g)
      (current : t.generation = c.generation)
      (h : Same { c with broker := (api.resolve g t.value outcome c.broker).2 } c') :
      Change api c c' (some (t, outcome)) none none

/-- A change and then nothing that concerns more than state and journal is that change. -/
theorem Change.trans_same {c'' : Connection β} (h : Change api c c' l a a') (hs : Same c' c'') :
    Change api c c'' l a a' := by
  cases h with
  | quiet h => exact .quiet (h.trans hs)
  | reported h => exact .reported (h.trans hs)
  | started h => exact .started (h.trans hs)
  | refused call h => exact .refused call (h.trans hs)
  | opened call h => exact .opened call (h.trans hs)
  | called h => exact .called (h.trans hs)
  | failed h => exact .failed (h.trans hs)
  | established h => exact .established (h.trans hs)
  | undone h => exact .undone (h.trans hs)
  | released h => exact .released (h.trans hs)
  | resolved session current h => exact .resolved session current (h.trans hs)

end Connection

/-! ## Steps are changes -/

open Connection

variable {api : BrokerApi β} {c c' : Connection β}

/-- One step of an attempt is a change. -/
theorem Attempt.step_change (api : BrokerApi β) (a : Attempt) (c : Connection β) :
    Change api c (a.step api c).2 none (some a) (some (a.step api c).1) := by
  match a with
  | .opening =>
    rcases hcall : api.openSession c.generation c.notify c.broker with ⟨e | ⟨⟩, b⟩
    · simp only [step, hcall]
      exact .refused hcall ⟨rfl, rfl, rfl, rfl, rfl, rfl⟩
    · simp only [step, hcall]
      exact .opened hcall (.refl _)
  | .settingUp [] => exact .established ⟨rfl, rfl, rfl, rfl, rfl, rfl⟩
  | .settingUp (call :: left) =>
    rcases hcall : call.run api c.generation c.broker with ⟨e | ⟨⟩, b⟩
    · simp only [step, hcall]
      exact .failed ⟨rfl, rfl, rfl, rfl, rfl, by rw [hcall]⟩
    · simp only [step, hcall]
      exact .called ⟨rfl, rfl, rfl, rfl, rfl, by rw [hcall]⟩
  | .undoing e => exact .undone ⟨rfl, rfl, rfl, rfl, rfl, rfl⟩
  | .over result => exact .quiet (.refl c)

namespace Retry

theorem start_underway (config : WorkerConfig) : (start config).underway = none := by
  unfold start
  split <;> rfl

theorem resume_underway (r : Retry) : r.resume.underway = r.underway := by
  cases r <;> rfl

/-- A failed attempt is followed by a pause or by the end of the series, and only noted. -/
theorem afterFailure_spec (attempt maxAttempts : Nat) (e : WorkerError) (c : Connection β) :
    (afterFailure attempt maxAttempts e c).1.underway = none ∧
      Same c (afterFailure attempt maxAttempts e c).2 := by
  unfold afterFailure
  cases e with
  | topology reason => exact ⟨rfl, rfl, rfl, rfl, rfl, rfl, rfl⟩
  | _ => exact ⟨by dsimp only; split <;> rfl, rfl, rfl, rfl, rfl, rfl, rfl⟩

/-- One step of a series is a change. -/
theorem step?_change {shutdown : Bool} {r r' : Retry} (h : r.step? api shutdown c = some (r', c')) :
    Change api c c' none r.underway r'.underway := by
  cases r with
  | trying attempt =>
    simp only [step?] at h
    split at h <;> cases h
    · exact .quiet (.refl c)
    · exact .started ⟨rfl, rfl, rfl, rfl, rfl, rfl⟩
  | attempting attempt a =>
    have hstep : ∀ a, some (attempting attempt (a.step api c).1, (a.step api c).2) = some (r', c') →
        Change api c c' none (some a) r'.underway := by
      intro a heq
      cases heq
      exact Attempt.step_change api a c
    match a with
    | .opening => exact hstep .opening h
    | .settingUp left => exact hstep (.settingUp left) h
    | .undoing e => exact hstep (.undoing e) h
    | .over (.ok ()) =>
      cases h
      exact .reported ⟨rfl, rfl, rfl, rfl, rfl, rfl⟩
    | .over (.error e) =>
      obtain ⟨hunder, hsame⟩ := afterFailure_spec attempt c.config.maxAttempts e c
      have heq : afterFailure attempt c.config.maxAttempts e c = (r', c') := Option.some.inj h
      rw [heq] at hunder hsame
      rw [hunder]
      exact .reported hsame
  | pausing attempt =>
    simp only [step?] at h
    split at h <;> cases h
    exact .quiet (.refl c)
  | done result => cases h

end Retry

namespace Connection

variable {l : Option (Tag × Outcome)} {a a' : Option Attempt}

/-- To let go of the session takes no notice of the journal. -/
theorem release_same (h : Same c c') : Same (c.release api) (c'.release api) := by
  obtain ⟨hbindings, hconfig, hnotify, hsession, hgeneration, hbroker⟩ := h
  unfold release
  rw [hsession]
  cases c.session with
  | none => exact ⟨hbindings, hconfig, hnotify, hsession, hgeneration, hbroker⟩
  | some g => exact ⟨hbindings, hconfig, hnotify, rfl, hgeneration, by rw [hbroker]⟩

/-- A notice of a lost session releases it, if it is the current one. -/
theorem lose_change (api : BrokerApi β) (c : Connection β) (n : Notice) :
    Change api c (c.lose api n).2 none none none := by
  unfold lose
  split
  · have h : Same (c.release api) (((c.record (.sessionLost n)).mark .lost).release api) :=
      release_same ⟨rfl, rfl, rfl, rfl, rfl, rfl⟩
    exact .released ⟨h.bindings, h.config, h.notify, h.session, h.generation, h.broker⟩
  · exact .quiet (.refl c)

theorem resolve_eq (api : BrokerApi β) (c : Connection β) (t : Tag) (outcome : Outcome) :
    c.resolve api t outcome = match c.session with
      | none => (.ok (), c)
      | some g =>
        if t.generation = c.generation then
          ((api.resolve g t.value outcome c.broker).1,
            { c with broker := (api.resolve g t.value outcome c.broker).2 })
        else (.ok (), c) := by
  unfold resolve isCurrent
  cases hs : c.session with
  | none => rfl
  | some g =>
    by_cases ht : t.generation = c.generation
    · cases outcome <;> simp [ht, BrokerApi.resolve]
    · simp [ht]

/-- A delivery is resolved with the session the connection has, if its tag is of the current generation. -/
theorem resolve_change (api : BrokerApi β) (c : Connection β) (t : Tag) (outcome : Outcome) :
    ∃ l, (l = none ∨ l = some (t, outcome)) ∧ Change api c (c.resolve api t outcome).2 l none none := by
  rw [resolve_eq]
  split
  · exact ⟨none, Or.inl rfl, .quiet (.refl c)⟩
  · rename_i g hs
    split
    · rename_i ht
      exact ⟨some (t, outcome), Or.inr rfl, .resolved hs ht (.refl _)⟩
    · exact ⟨none, Or.inl rfl, .quiet (.refl c)⟩

theorem close_change (api : BrokerApi β) (c : Connection β) : Change api c (c.close api) none none none :=
  .released (release_same ⟨rfl, rfl, rfl, rfl, rfl, rfl⟩)

/-! ## What all changes keep -/

/-- The session of a connection is that of the current generation, and there is none as long as an attempt is
not over. -/
structure Steady (c : Connection β) (a : Option Attempt) : Prop where
  current : ∀ g, c.session = some g → g = c.generation
  free : ∀ x, a = some x → x.isOver = false → c.session = none

theorem release_session (api : BrokerApi β) (c : Connection β) : (c.release api).session = none := by
  unfold release
  cases hs : c.session with
  | none => exact hs
  | some g => rfl

theorem release_generation (api : BrokerApi β) (c : Connection β) :
    (c.release api).generation = c.generation := by
  unfold release
  cases c.session <;> rfl

/-- A connection that has no session is steady whatever is under way. -/
theorem Steady.of_none (h : c.session = none) (a : Option Attempt) : c.Steady a :=
  ⟨fun g hg => absurd (h.symm.trans hg) (by simp), fun _ _ _ => h⟩

theorem Same.steady (h : Same c c') (hs : c.Steady a) : c'.Steady a :=
  ⟨fun g hg => (hs.current g (h.session ▸ hg)).trans h.generation.symm,
    fun x hx hover => h.session.trans (hs.free x hx hover)⟩

theorem Change.steady (h : Change api c c' l a a') (hs : c.Steady a) : c'.Steady a' := by
  cases h with
  | quiet h => exact h.steady hs
  | reported h => exact h.steady ⟨hs.current, fun _ hx => by cases hx⟩
  | started h => exact .of_none (h.session.trans (release_session api c)) _
  | refused call h => exact .of_none (h.session.trans (hs.free _ rfl rfl)) _
  | opened call h => exact .of_none (h.session.trans (hs.free _ rfl rfl)) _
  | called h => exact .of_none (h.session.trans (hs.free _ rfl rfl)) _
  | failed h => exact .of_none (h.session.trans (hs.free _ rfl rfl)) _
  | established h =>
    refine ⟨fun g hg => ?_, fun x hx hover => ?_⟩
    · rw [h.session] at hg
      exact (Option.some.inj hg).symm.trans h.generation.symm
    · cases hx
      cases hover
  | undone h => exact .of_none (h.session.trans (hs.free _ rfl rfl)) _
  | released h => exact .of_none (h.session.trans (release_session api c)) _
  | resolved session current h => exact h.steady ⟨hs.current, hs.free⟩

/-- An attempt that is not halfway has nothing in hand. -/
theorem inHand_of_not_halfway (h : a.any Attempt.isHalfway = false) : c.inHand a = c.session := by
  unfold inHand
  rw [h]
  simp

/-- An attempt that is halfway has the current session in hand. -/
theorem inHand_of_halfway (hs : c.session = none) (h : a.any Attempt.isHalfway = true) :
    c.inHand a = some c.generation := by
  unfold inHand
  rw [h, hs]
  rfl

theorem Same.inHand (h : Same c c') (a : Option Attempt) : c'.inHand a = c.inHand a := by
  unfold Connection.inHand
  rw [h.session, h.generation]

theorem release_config (api : BrokerApi β) (c : Connection β) : (c.release api).config = c.config := by
  unfold release
  cases c.session <;> rfl

/-- The configuration stays. -/
theorem Change.config_eq (h : Change api c c' l a a') : c'.config = c.config := by
  cases h with
  | started h | released h => exact h.config.trans (release_config api c)
  | _ => rename_i h; exact h.config

theorem release_bindings (api : BrokerApi β) (c : Connection β) : (c.release api).bindings = c.bindings := by
  unfold release
  cases c.session <;> rfl

/-- The bindings stay. -/
theorem Change.bindings_eq (h : Change api c c' l a a') : c'.bindings = c.bindings := by
  cases h with
  | started h | released h => exact h.bindings.trans (release_bindings api c)
  | _ => rename_i h; exact h.bindings

/-- During an attempt the generation stays. -/
theorem Change.generation_eq {x : Attempt} (h : Change api c c' l (some x) a') : c'.generation = c.generation := by
  cases h with
  | _ => rename_i h; exact h.generation

/-- Generations only go up. -/
theorem Change.generation_le (h : Change api c c' l a a') : c.generation ≤ c'.generation := by
  cases h with
  | started h =>
    rw [h.generation]
    exact Nat.le_succ_of_le (Nat.le_of_eq (release_generation api c).symm)
  | released h =>
    rw [h.generation]
    exact Nat.le_of_eq (release_generation api c).symm
  | _ => rename_i h; exact Nat.le_of_eq h.generation.symm

/-- The session that is open is that of the current generation. -/
theorem Steady.inHand_eq (hs : c.Steady a) {g : Nat} (h : c.inHand a = some g) : g = c.generation := by
  unfold inHand at h
  cases hsession : c.session with
  | some g' =>
    rw [hsession] at h
    cases h
    exact hs.current _ hsession
  | none =>
    rw [hsession, Option.none_or] at h
    split at h <;> cases h
    rfl

/-- **A tag goes to the session that issued it, or nowhere**: there is a call only on the session of the tag's
own generation, and only while the connection has it. -/
theorem Steady.resolve_eq (hs : c.Steady a) (api : BrokerApi β) (t : Tag) (outcome : Outcome) :
    c.resolve api t outcome = if c.session = some t.generation then
        ((api.resolve t.generation t.value outcome c.broker).1,
          { c with broker := (api.resolve t.generation t.value outcome c.broker).2 })
      else (.ok (), c) := by
  rw [Connection.resolve_eq]
  cases hsession : c.session with
  | none => rw [if_neg (by simp)]
  | some g =>
    have hg : g = c.generation := hs.current g hsession
    by_cases ht : t.generation = c.generation
    · dsimp only
      rw [if_pos ht, if_pos (by rw [hg, ht]), hg, ht]
    · dsimp only
      rw [if_neg ht, if_neg fun heq => ht ((Option.some.inj heq).symm.trans hg)]

/-! ## An attempt at once -/

/-- Setting up a session at once is setting it up call by call. -/
theorem settingUp_eq_steps (api : BrokerApi β) (calls : List SetupCall) : ∀ c : Connection β,
    ∃ n, Attempt.steps api n (.settingUp calls) c =
      match Call.all (calls.map (·.run api c.generation)) c.broker with
      | (.error e, b) => (.over (.error e), { c with broker := b }.undo api)
      | (.ok (), b) => (.over (.ok ()), { c with broker := b }.establish) := by
  induction calls with
  | nil => exact fun c => ⟨1, rfl⟩
  | cons call calls ih =>
    intro c
    rcases hcall : call.run api c.generation c.broker with ⟨e | ⟨⟩, b⟩
    · refine ⟨2, ?_⟩
      simp only [Attempt.steps, Attempt.step, List.map_cons, Call.all, Call.andThen, hcall]
    · obtain ⟨n, hn⟩ := ih { c with broker := b }
      refine ⟨n + 1, ?_⟩
      simp only [Attempt.steps, Attempt.step, List.map_cons, Call.all, Call.andThen, hcall]
      exact hn

/-- An attempt at once is an attempt call by call. -/
theorem connect_eq_steps (api : BrokerApi β) (c : Connection β) :
    ∃ n, Attempt.steps api n .opening (c.startAttempt api) = (.over (c.connect api).1, (c.connect api).2) := by
  unfold connect
  generalize c.startAttempt api = c
  rcases hcall : api.openSession c.generation c.notify c.broker with ⟨e | ⟨⟩, b⟩
  · refine ⟨1, ?_⟩
    simp only [Attempt.steps, Attempt.step, hcall]
  · obtain ⟨n, hn⟩ := settingUp_eq_steps api (setupCalls c.bindings c.config) { c with broker := b }
    refine ⟨n + 1, ?_⟩
    simp only [Attempt.steps, Attempt.step, hcall]
    rw [hn]
    dsimp only
    cases Call.all ((setupCalls c.bindings c.config).map (·.run api c.generation)) b with
    | mk result b => cases result <;> rfl

end Connection
end EventCourier
