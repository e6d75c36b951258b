import EventCourier.Proofs.Broker.Recovery
import EventCourier.Proofs.Connection.Series
import EventCourier.Proofs.Connection.Setup
import EventCourier.Proofs.Worker.Agreement
import Mathlib.Data.List.Induction

/-!
# An attempt sets a session up whole, or undoes it whole

Between any two calls of an attempt others may do to the broker what they like (`Attempt.amid`). `Stage` says for
every point of an attempt what holds of the broker then: before the session is opened the broker is untouched by it;
then the calls that were made have made what they are for; and behind an attempt that failed, nothing is left of its
session. What others do keeps the stage (`Stage.others`), and a step leads to the next one (`Stage.step`). So an
attempt that succeeds leaves a session that is set up as configured, and one that fails leaves nothing of its own
(`set_up_or_undone`); only a session of the same generation that another opened may be live behind it.
-/

namespace EventCourier

open Broker Connection

variable {receiver g : Nat} {before b : Broker} {calls : List SetupCall} {a : Attempt} {session : Option Nat}

/-! ## An attempt among others -/

namespace Attempt

/-- What happens in the course of an attempt: it makes a step, or others do something to the broker. -/
inductive Move where
  | step
  | others (x : Act)
deriving DecidableEq, Repr

/-- The attempt and the connection after a move. -/
def move (receiver : Nat) (s : Attempt × Connection Broker) : Move → Attempt × Connection Broker
  | .step => s.1.step (Broker.api receiver) s.2
  | .others x => (s.1, { s.2 with broker := x.run s.2.broker })

/-- The attempt and the connection after moves, in order. -/
def amid (receiver : Nat) (moves : List Move) (s : Attempt × Connection Broker) : Attempt × Connection Broker :=
  moves.foldl (move receiver) s

theorem amid_concat (receiver : Nat) (moves : List Move) (m : Move) (s : Attempt × Connection Broker) :
    amid receiver (moves ++ [m]) s = move receiver (amid receiver moves s) m := List.foldl_concat ..

/-- Without others an attempt makes its steps. -/
theorem amid_replicate (receiver n : Nat) : ∀ s : Attempt × Connection Broker,
    amid receiver (List.replicate n .step) s = s.1.steps (Broker.api receiver) n s.2 := by
  induction n with
  | zero => exact fun _ => rfl
  | succ n ih => exact fun s => ih (s.1.step (Broker.api receiver) s.2)

/-- A step changes the broker by one act at most. -/
theorem step_act (receiver : Nat) (a : Attempt) (c : Connection Broker) :
    (a.step (Broker.api receiver) c).2.broker = c.broker ∨
      ∃ x : Act, (a.step (Broker.api receiver) c).2.broker = x.run c.broker := by
  match a with
  | .opening =>
    refine Or.inr ⟨.openSession receiver c.generation c.notify, ?_⟩
    have hrun : (Act.openSession receiver c.generation c.notify).run c.broker =
      ((Broker.api receiver).openSession c.generation c.notify c.broker).2 := rfl
    rw [hrun]
    rcases hcall : (Broker.api receiver).openSession c.generation c.notify c.broker with ⟨e | ⟨⟩, b⟩
    · simp only [step, hcall]
      rfl
    · simp only [step, hcall]
  | .settingUp [] => exact Or.inl rfl
  | .settingUp (call :: left) =>
    refine Or.inr ⟨call.act receiver c.generation, ?_⟩
    rw [← setup_act]
    rcases hcall : call.run (Broker.api receiver) c.generation c.broker with ⟨e | ⟨⟩, b⟩
    · simp only [step, hcall]
    · simp only [step, hcall]
  | .undoing e => exact Or.inr ⟨.close c.generation, rfl⟩
  | .over result => exact Or.inl rfl

/-- No step leads back to the beginning. -/
theorem step_ne_opening (receiver : Nat) (a : Attempt) (c : Connection Broker) :
    (a.step (Broker.api receiver) c).1 ≠ .opening := by
  intro h
  cases a with
  | opening =>
    rcases hcall : (Broker.api receiver).openSession c.generation c.notify c.broker with ⟨e | ⟨⟩, b⟩
    · simp [step, hcall] at h
    · simp [step, hcall] at h
  | settingUp left =>
    cases left with
    | nil => cases h
    | cons call left =>
      rcases hcall : call.run (Broker.api receiver) c.generation c.broker with ⟨e | ⟨⟩, b⟩
      · simp [step, hcall] at h
      · simp [step, hcall] at h
  | _ => cases h

variable {s : Attempt × Connection Broker} {moves : List Move}

/-- An attempt that is about to ask for a session has been so all the time. -/
theorem amid_opening (h : (amid receiver moves s).1 = .opening) {done : List Move} (hdone : done <+: moves) :
    (amid receiver done s).1 = .opening := by
  induction moves using List.reverseRecOn with
  | nil =>
    rw [List.prefix_nil.mp hdone]
    exact h
  | append_singleton moves m ih =>
    rcases List.prefix_concat_iff.mp hdone with rfl | hdone
    · exact h
    · refine ih ?_ hdone
      rw [amid_concat] at h
      cases m with
      | step => exact absurd h (step_ne_opening receiver (amid receiver moves s).1 _)
      | others x => exact h

/-- An attempt fails because a call failed, or because it was refused the session. -/
theorem amid_failed {e : WorkerError} (hs : s.1 = .opening) (h : (amid receiver moves s).1 = .over (.error e)) :
    (∃ done, done <+: moves ∧ (amid receiver done s).1 = .undoing e) ∨
      ∀ done, done <+: moves → (amid receiver done s).1.isHalfway = false := by
  induction moves using List.reverseRecOn with
  | nil =>
    rw [show amid receiver [] s = s from rfl, hs] at h
    cases h
  | append_singleton moves m ih =>
    have hwhole : (amid receiver (moves ++ [m]) s).1.isHalfway = false := by
      rw [h]
      rfl
    have hlater : (amid receiver moves s).1 = .over (.error e) →
        (∃ done, done <+: moves ++ [m] ∧ (amid receiver done s).1 = .undoing e) ∨
          ∀ done, done <+: moves ++ [m] → (amid receiver done s).1.isHalfway = false := by
      intro hover
      rcases ih hover with ⟨done, hdone, hundoing⟩ | hnever
      · exact Or.inl ⟨done, hdone.trans (List.prefix_append ..), hundoing⟩
      · refine Or.inr fun done hdone => ?_
        rcases List.prefix_concat_iff.mp hdone with rfl | hdone
        · exact hwhole
        · exact hnever done hdone
    have hmoved := h
    rw [amid_concat] at hmoved
    cases m with
    | others x => exact hlater hmoved
    | step =>
      change ((amid receiver moves s).1.step (Broker.api receiver) (amid receiver moves s).2).1 = _ at hmoved
      match ha : (amid receiver moves s).1 with
      | .opening =>
        refine Or.inr fun done hdone => ?_
        rcases List.prefix_concat_iff.mp hdone with rfl | hdone
        · exact hwhole
        · rw [amid_opening ha hdone]
          rfl
      | .settingUp [] =>
        rw [ha] at hmoved
        cases hmoved
      | .settingUp (call :: left) =>
        rw [ha] at hmoved
        rcases hcall : call.run (Broker.api receiver) (amid receiver moves s).2.generation
          (amid receiver moves s).2.broker with ⟨e | ⟨⟩, b⟩
        · simp [step, hcall] at hmoved
        · simp [step, hcall] at hmoved
      | .undoing e' =>
        rw [ha] at hmoved
        cases hmoved
        exact Or.inl ⟨moves, List.prefix_append .., ha⟩
      | .over result =>
        rw [ha] at hmoved
        exact hlater (ha.trans hmoved)

/-- After as many steps as its calls and two more an attempt is over. -/
theorem amid_over (receiver : Nat) (moves : List Move) : ∀ {s : Attempt × Connection Broker},
    Series.attemptLeft (setupCalls s.2.bindings s.2.config).length s.1 ≤ moves.count .step →
    (amid receiver moves s).1.isOver = true := by
  induction moves with
  | nil =>
    rintro ⟨a, c⟩ h
    cases a with
    | opening | settingUp _ | undoing _ => simp [Series.attemptLeft] at h
    | _ => rfl
  | cons m moves ih =>
    intro s h
    cases m with
    | others x =>
      refine ih (s := (s.1, _)) ?_
      rwa [List.count_cons_of_ne (by simp)] at h
    | step =>
      have hchange := step_change (Broker.api receiver) s.1 s.2
      rw [List.count_cons_self] at h
      refine ih (s := s.1.step (Broker.api receiver) s.2) ?_
      rw [hchange.bindings_eq, hchange.config_eq]
      cases hover : s.1.isOver with
      | false =>
        have hless := Series.attemptLeft_step (Broker.api receiver) hover s.2
        omega
      | true =>
        obtain ⟨a, c⟩ := s
        cases a with
        | opening | settingUp _ | undoing _ => cases hover
        | _ => exact Nat.zero_le _

end Attempt

/-! ## Stages -/

/-- What holds of the broker at each point of an attempt to set up the session `g` by the calls `calls`, since it was
as `before`, and which session the connection has. -/
inductive Stage (before : Broker) (g : Nat) (calls : List SetupCall) (b : Broker) : Attempt → Option Nat → Prop where
  | opening (untouched : Untouched before g b) (topology : SameTopology before b) :
      Stage before g calls b .opening none
  | settingUp {done left : List SetupCall} (split : calls = done ++ left) (opened : Opened before g b)
      (made : Made before g done b) : Stage before g calls b (.settingUp left) none
  | undoing {done left : List SetupCall} {call : SetupCall} {e : WorkerError} (split : calls = done ++ call :: left)
      (opened : Opened before g b) (made : Made before g done b) (cause : Failure g call b e) :
      Stage before g calls b (.undoing e) none
  | refused {e : WorkerError} (untouched : Untouched before g b) (topology : SameTopology before b) :
      Stage before g calls b (.over (.error e)) none
  | undone {done left : List SetupCall} {call : SetupCall} {e : WorkerError} (split : calls = done ++ call :: left)
      (opened : Opened before g b) (made : Made before g done b) (gone : b.live = none) :
      Stage before g calls b (.over (.error e)) none
  | established (opened : Opened before g b) (made : Made before g calls b) :
      Stage before g calls b (.over (.ok ())) (some g)

/-- **What others do keeps the stage.** -/
theorem Stage.others (h : Stage before g calls b a session) (hids : (b.consumers.map (·.id)).Nodup) {x : Act}
    (hx : x.byOthers = true) : Stage before g calls (x.run b) a session := by
  have hopens : ∀ receiver g notify, x ≠ .openSession receiver g notify := by
    rintro receiver g notify rfl
    cases hx
  have hsubscribes : ∀ receiver g queue consumerTag, x ≠ .consume receiver g queue consumerTag := by
    rintro receiver g queue consumerTag rfl
    cases hx
  have hresolves : ∀ g tag outcome, x ≠ .resolve g tag outcome := by
    rintro g tag outcome rfl
    cases hx
  have hlaid := laid_others hids hx
  have htopology : SameTopology b (x.run b) := by
    rcases hlaid with hsame | ⟨hsame, -⟩
    · exact hsame.topology
    · exact hsame
  have hlive : (x.run b).live = b.live ∨ (x.run b).live = none := hlaid.imp (·.live) (·.2)
  cases h with
  | opening untouched topology => exact .opening (untouched.run hopens hsubscribes) (topology.trans htopology)
  | settingUp split opened made => exact .settingUp split (opened.run hopens hresolves) (made.of_laid hlaid)
  | undoing split opened made cause =>
    refine .undoing split (opened.run hopens hresolves) (made.of_laid hlaid) ?_
    cases cause with
    | lost gone =>
      refine .lost ?_
      rcases hlive with heq | heq
      · exact heq ▸ gone
      · rw [heq]
        nofun
    | missing exchange needed missing => exact .missing exchange needed (htopology.exchanges ▸ missing)
  | refused untouched topology => exact .refused (untouched.run hopens hsubscribes) (topology.trans htopology)
  | undone split opened made gone =>
    refine .undone split (opened.run hopens hresolves) (made.of_laid hlaid) ?_
    rcases hlive with heq | heq
    · exact heq.trans gone
    · exact heq
  | established opened made => exact .established (opened.run hopens hresolves) (made.of_laid hlaid)

/-- A session that is opened has made nothing yet. -/
theorem made_nil (untouched : Untouched before g b) (topology : SameTopology before b) {b' : Broker}
    (htopology : SameTopology b b') (hconsumers : b'.consumers = b.consumers) (hprefetch : b'.prefetch = none) :
    Made before g [] b' where
  exchanges := nofun
  bindings := nofun
  undeclared _ := htopology.exchanges.trans topology.exchanges
  unbound _ := htopology.bindings.trans topology.bindings
  window _ := hprefetch
  subscriptions _ := by
    unfold subscriptions
    rw [hconsumers, List.filter_eq_nil_iff.mpr fun k hk => by simpa using untouched.consumers k hk]
    rfl

/-- What a connection does while it sets a session up takes nothing from that. -/
theorem Broker.Opened.own (h : Opened before g b) {x : Act} (hx : Own none none x) : Opened before g (x.run b) := by
  refine h.run hx.opens fun g' v outcome heq => ?_
  obtain ⟨hsession, -⟩ := hx.resolves g' v outcome heq
  cases hsession

/-- **A step leads from stage to stage.** -/
theorem Stage.step {c : Connection Broker} (h : Stage before c.generation calls c.broker a c.session)
    (hcalls : calls = setupCalls c.bindings c.config) (receiver : Nat) :
    Stage before c.generation calls (a.step (Broker.api receiver) c).2.broker (a.step (Broker.api receiver) c).1
      (a.step (Broker.api receiver) c).2.session := by
  obtain ⟨bindings, config, notify, session, generation, state, broker, journal⟩ := c
  dsimp only at h hcalls ⊢
  cases h with
  | opening untouched topology =>
    have htopology := topology_openSession receiver generation notify broker
    rcases openSession_cases receiver generation notify broker with ⟨e, b', hopen, hsame⟩ | ⟨b', hopen, hsame⟩
    · rw [hopen] at htopology
      have hcall : (Broker.api receiver).openSession generation notify broker = (.error e, b') := hopen
      simp only [Attempt.step, hcall]
      exact .refused (untouched.alike hsame) (topology.trans htopology)
    · rw [hopen] at htopology
      have hcall : (Broker.api receiver).openSession generation notify broker = (.ok (), b') := hopen
      simp only [Attempt.step, hcall]
      have hsplit : calls = [] ++ setupCalls bindings config := hcalls
      exact .settingUp hsplit ((Opened.of_untouched untouched).alike hsame)
        (made_nil untouched topology htopology hsame.consumers hsame.prefetch)
  | @settingUp done left split opened made =>
    cases left with
    | nil =>
      rw [List.append_nil] at split
      exact .established opened (split ▸ made)
    | cons call left =>
      rcases hcall : call.run (Broker.api receiver) generation broker with ⟨e | ⟨⟩, b'⟩
      · obtain ⟨rfl, hcause⟩ := call_failed hcall
        simp only [Attempt.step, hcall]
        exact .undoing split opened made hcause
      · simp only [Attempt.step, hcall]
        have hrun : b' = (call.act receiver generation).run broker := by
          rw [← setup_act, hcall]
        have hsplit : calls = (done ++ [call]) ++ left := split.trans (List.append_cons ..)
        refine .settingUp hsplit ?_ (made.concat (call_succeeded hcall))
        rw [hrun]
        exact opened.own (own_setup none receiver generation call)
  | @undoing done left call e split opened made cause =>
    have hgone : ((Act.close generation).run broker).live = none := by
      rw [live_close]
      rcases opened.live with hl | hl
      · rw [if_pos hl]
      · rw [hl]
        rfl
    exact .undone split (opened.own (own_close none generation))
      (made.of_laid (Or.inr ⟨topology_close broker generation, hgone⟩)) hgone
  | refused untouched topology => exact .refused untouched topology
  | undone split opened made gone => exact .undone split opened made gone
  | established opened made => exact .established opened made

/-! ## A whole attempt -/

/-- The set-up of the session `c.generation + 1`, which began at the connection `c`, is at some stage. -/
structure Underway (c : Connection Broker) (s : Attempt × Connection Broker) : Prop where
  generation : s.2.generation = c.generation + 1
  bindings : s.2.bindings = c.bindings
  config : s.2.config = c.config
  kempt : Kempt s.2.broker
  stage : Stage c.broker (c.generation + 1) (setupCalls c.bindings c.config) s.2.broker s.1 s.2.session

namespace Underway

variable {c : Connection Broker} {s : Attempt × Connection Broker}

/-- An attempt begins by letting go of the session before it. -/
theorem start (hkempt : Kempt c.broker) (hconsumers : ∀ k ∈ c.broker.consumers, k.generation ≤ c.generation)
    (hheld : ∀ h ∈ c.broker.held, h.tag.generation ≤ c.generation) (receiver : Nat) :
    Underway c (.opening, c.startAttempt (Broker.api receiver)) := by
  have huntouched : Untouched c.broker (c.generation + 1) c.broker :=
    .start (fun k hk => Nat.lt_succ_of_le (hconsumers k hk)) fun h hh => Nat.lt_succ_of_le (hheld h hh)
  have hreleased : Kempt (c.release (Broker.api receiver)).broker ∧
      Untouched c.broker (c.generation + 1) (c.release (Broker.api receiver)).broker ∧
      SameTopology c.broker (c.release (Broker.api receiver)).broker := by
    rcases release_act receiver c with ⟨-, heq⟩ | ⟨g, -, heq⟩
    · rw [heq]
      exact ⟨hkempt, huntouched, rfl, rfl⟩
    · rw [heq]
      exact ⟨kempt_run hkempt _, huntouched.run nofun nofun, topology_close c.broker g⟩
  obtain ⟨hkempt', huntouched', htopology⟩ := hreleased
  refine ⟨congrArg (· + 1) (release_generation _ c), release_bindings _ c, release_config _ c, hkempt', ?_⟩
  show Stage _ _ _ (c.release (Broker.api receiver)).broker .opening (c.release (Broker.api receiver)).session
  rw [release_session]
  exact .opening huntouched' htopology

theorem move (h : Underway c s) {m : Attempt.Move} (hm : ∀ x, m = .others x → x.byOthers = true) (receiver : Nat) :
    Underway c (Attempt.move receiver s m) := by
  obtain ⟨hgeneration, hbindings, hconfig, hkempt, hstage⟩ := h
  cases m with
  | step =>
    have hchange := Attempt.step_change (Broker.api receiver) s.1 s.2
    refine ⟨hchange.generation_eq.trans hgeneration, hchange.bindings_eq.trans hbindings,
      hchange.config_eq.trans hconfig, ?_, ?_⟩
    · show Kempt (s.1.step (Broker.api receiver) s.2).2.broker
      rcases Attempt.step_act receiver s.1 s.2 with heq | ⟨x, heq⟩
      · exact heq ▸ hkempt
      · exact heq ▸ kempt_run hkempt x
    · rw [← hgeneration, ← hbindings, ← hconfig] at hstage ⊢
      exact hstage.step rfl receiver
  | others x =>
    exact ⟨hgeneration, hbindings, hconfig, kempt_run hkempt x, hstage.others hkempt.ids (hm x rfl)⟩

/-- Whatever others do in its course, an attempt is at some stage. -/
theorem amid (receiver : Nat) (moves : List Attempt.Move) : ∀ {s : Attempt × Connection Broker}, Underway c s →
    (∀ x, .others x ∈ moves → x.byOthers = true) → Underway c (Attempt.amid receiver moves s) := by
  induction moves with
  | nil => exact fun h _ => h
  | cons m moves ih =>
    intro s h hmoves
    exact ih (h.move (fun x hx => hmoves x (hx ▸ List.mem_cons_self)) receiver)
      fun x hx => hmoves x (List.mem_cons_of_mem m hx)

end Underway

/-! ## A missing exchange -/

/-- As long as an exchange is missing that is only checked, the set-up is at the exchanges up to the missing one. -/
theorem next_check {bindings : List Binding} {config : WorkerConfig} {y : String} {done left : List SetupCall}
    (hoff : config.declareExchanges = false)
    (hfind : (Topology.exchanges bindings).find? (fun x => !before.exchanges.contains x) = some y)
    (hsplit : setupCalls bindings config = done ++ left) (hmade : Made before g done b) :
    SameTopology before b ∧ ∃ x rest, left = .assertExchange x :: rest ∧ (x ∈ b.exchanges ∨ x = y) := by
  obtain ⟨hmissing, found, rest, hexchanges, hfound⟩ := List.find?_eq_some_iff_append.mp hfind
  have hchecks : ∃ later, setupCalls bindings config =
      found.map .assertExchange ++ SetupCall.assertExchange y :: later := by
    refine ⟨rest.map .assertExchange ++ bindings.map .declareQueue ++ [.setPrefetch config.prefetch] ++
      bindings.map fun t => .consume t.queue (config.consumerTagFor t.queue), ?_⟩
    simp [setupCalls, hoff, hexchanges]
  obtain ⟨later, hlater⟩ := hchecks
  have hdeclares : ∀ x, .declareExchange x ∉ done := by
    intro x hx
    have hmem : .declareExchange x ∈ setupCalls bindings config := hsplit ▸ List.mem_append_left _ hx
    simp [setupCalls, hoff] at hmem
  have hsame : b.exchanges = before.exchanges := hmade.undeclared hdeclares
  -- the missing exchange has not been found, so it is still to be checked
  obtain ⟨ahead, hdone, hleft⟩ : ∃ ahead, found.map .assertExchange = done ++ ahead ∧
      left = ahead ++ .assertExchange y :: later := by
    rcases List.append_eq_append_iff.mp (hlater.symm.trans hsplit) with
      ⟨more, hdone, hleft⟩ | ⟨ahead, hdone, hleft⟩
    · cases more with
      | nil => exact ⟨[], by simpa using hdone.symm, by simpa using hleft.symm⟩
      | cons call more =>
        obtain ⟨rfl, -⟩ := List.cons.inj hleft
        have hmem : .assertExchange y ∈ done := hdone ▸ List.mem_append_right _ List.mem_cons_self
        have hfound : y ∈ b.exchanges := hmade.exchanges y (List.mem_filterMap.mpr ⟨_, hmem, rfl⟩)
        simp [hsame ▸ hfound] at hmissing
    · exact ⟨ahead, hdone, hleft⟩
  have hbinds : ∀ t, .declareQueue t ∉ done := by
    intro t ht
    have hmem : .declareQueue t ∈ found.map SetupCall.assertExchange := hdone ▸ List.mem_append_left _ ht
    simp at hmem
  refine ⟨⟨hsame, hmade.unbound hbinds⟩, ?_⟩
  cases ahead with
  | nil => exact ⟨y, later, hleft, Or.inr rfl⟩
  | cons call ahead =>
    have hmem : call ∈ found.map SetupCall.assertExchange := hdone ▸ List.mem_append_right _ List.mem_cons_self
    obtain ⟨x, hx, rfl⟩ := List.mem_map.mp hmem
    refine ⟨x, _, hleft, Or.inl ?_⟩
    rw [hsame]
    simpa using hfound x hx

/-! ## The main result -/

namespace Connection

/-- An attempt to connect, after what happened in its course. -/
def connectAmid (receiver : Nat) (c : Connection Broker) (moves : List Attempt.Move) :
    Attempt × Connection Broker :=
  Attempt.amid receiver moves (.opening, c.startAttempt (Broker.api receiver))

/-- The session after those of `c` is set up as configured: its exchanges and bindings are there, no binding twice,
its window is in force, and it has one consumer for each binding, in that order. -/
structure SetUp (c c' : Connection Broker) : Prop where
  session : c'.session = some (c.generation + 1)
  exchanges : ∀ x ∈ Topology.exchanges c.bindings, x ∈ c'.broker.exchanges
  bindings : ∀ t ∈ c.bindings, t ∈ c'.broker.bindings
  once : c'.broker.bindings.Nodup
  window : c'.broker.prefetch = some c.config.prefetch
  consumers : c'.broker.subscriptions (c.generation + 1) =
    c.bindings.map fun t => (t.queue, c.config.consumerTagFor t.queue)

/-- The session after those of `c` is emptied: it is not in hand, it has no consumers and holds nothing, and what it was
handed is ready again. -/
structure Emptied (c c' : Connection Broker) : Prop where
  session : c'.session = none
  consumers : ∀ k ∈ c'.broker.consumers, k.generation ≠ c.generation + 1
  held : ∀ h ∈ c'.broker.held, h.tag.generation ≠ c.generation + 1
  ready : ∃ new, c'.broker.issued = c.broker.issued ++ new ∧ ∀ h ∈ new, h.tag.generation = c.generation + 1 →
    { h.copy with redelivered := true } ∈ c'.broker.ready h.queue

/-- Nothing is left of the session after those of `c`: it is emptied, and not live. -/
structure Undone (c c' : Connection Broker) : Prop extends Emptied c c' where
  live : c'.broker.live ≠ some (c.generation + 1)

theorem setUp_of_stage {c c' : Connection Broker} (h : Underway c (.over (.ok ()), c'))
    (hl : c'.broker.live = some (c.generation + 1)) : SetUp c c' := by
  obtain ⟨-, -, -, hkempt, hstage⟩ := h
  generalize hsession : c'.session = session at hstage
  cases hstage with
  | established opened made =>
    refine ⟨hsession, fun x hx => made.exchanges x ?_, fun t ht => made.bindings t ?_, hkempt.bindings, ?_, ?_⟩
    · rw [exchanges_setupCalls]
      exact hx
    · rw [bindings_setupCalls]
      exact ht
    · rw [made.window hl, windows_setupCalls]
      rfl
    · rw [made.subscriptions hl, subscriptions_setupCalls]

theorem emptied_of_stage {c c' : Connection Broker} {e : WorkerError} (h : Underway c (.over (.error e), c')) :
    Emptied c c' := by
  have hstage := h.stage
  dsimp only at hstage
  generalize hsession : c'.session = session at hstage
  cases hstage with
  | refused untouched topology =>
    obtain ⟨new, hissued, hnew⟩ := untouched.issued
    exact ⟨hsession, untouched.consumers, untouched.held, new, hissued, fun k hk hg => absurd hg (hnew k hk)⟩
  | undone split opened made gone =>
    have hnot : c'.broker.live ≠ some (c.generation + 1) := by
      rw [gone]
      nofun
    obtain ⟨new, hissued, hnew⟩ := opened.issued
    refine ⟨hsession, fun k hk hg => hnot (opened.consumers k hk hg), fun k hk hg => hnot (opened.held k hk hg).1,
      new, hissued, fun k hk hg => ?_⟩
    rcases hnew k hk hg with hmem | ⟨-, hready⟩
    · exact absurd (opened.held k hmem hg).1 hnot
    · exact hready

/-- A refusal leaves the live session as it was, and one that was opened is closed again. -/
theorem undone_of_stage {c c' : Connection Broker} {e : WorkerError} (h : Underway c (.over (.error e), c'))
    (hlive : c.broker.live ≠ some (c.generation + 1)) : Undone c c' := by
  refine ⟨emptied_of_stage h, ?_⟩
  have hstage := h.stage
  dsimp only at hstage
  generalize c'.session = session at hstage
  cases hstage with
  | refused untouched topology => exact fun hl => hlive (untouched.live hl)
  | undone split opened made gone =>
    rw [gone]
    nofun

/-- A missing exchange that is only checked ends the set-up before anything is bound. -/
theorem missing_of_stage {c c' : Connection Broker} {a : Attempt} {y : String} (h : Underway c (a, c'))
    (hoff : c.config.declareExchanges = false)
    (hfind : (Topology.exchanges c.bindings).find? (fun x => !c.broker.exchanges.contains x) = some y) :
    c'.broker.bindings = c.broker.bindings ∧ a ≠ .over (.ok ()) ∧
      (∀ left, a = .settingUp left → ∃ x rest, left = .assertExchange x :: rest) ∧
      ∀ e, a = .undoing e → c'.broker.live = some (c.generation + 1) → e = exchangeMissing y := by
  have hstage := h.stage
  dsimp only at hstage
  generalize hsession : c'.session = session at hstage
  cases hstage with
  | opening untouched topology => exact ⟨topology.bindings, nofun, nofun, nofun⟩
  | refused untouched topology => exact ⟨topology.bindings, nofun, nofun, nofun⟩
  | settingUp split opened made =>
    obtain ⟨htopology, x, rest, hleft, -⟩ := next_check hoff hfind split made
    refine ⟨htopology.bindings, nofun, fun left heq => ?_, nofun⟩
    cases heq
    exact ⟨x, rest, hleft⟩
  | undoing split opened made cause =>
    obtain ⟨htopology, x, rest, hleft, hx⟩ := next_check hoff hfind split made
    refine ⟨htopology.bindings, nofun, nofun, fun e heq hl => ?_⟩
    cases heq
    obtain ⟨rfl, -⟩ := List.cons.inj hleft
    cases cause with
    | lost gone => exact absurd hl gone
    | missing x' needed missing =>
      cases needed
      rcases hx with hx | rfl
      · exact absurd hx missing
      · rfl
  | undone split opened made gone =>
    exact ⟨(next_check hoff hfind split made).1.bindings, nofun, nofun, nofun⟩
  | established opened made =>
    obtain ⟨-, x, rest, hleft, -⟩ := next_check hoff hfind (List.append_nil _).symm made
    cases hleft

end Connection

/-- **An attempt sets a session up whole, or undoes it whole.** The broker may be in any state that acts lead to, as
long as nothing is consumed or held under a generation still to come; and in the course of the attempt others may
publish, drop the connection, refuse sessions and pass deliveries on.

If the attempt succeeds, and the session has not been lost, it is set up as configured. If it fails, the session is
emptied; and nothing is left of it unless another session of its generation was live all along, which an attempt that is
refused does not close. When exchanges are only checked and one is missing, no queue is bound and every call checks an
exchange; and if the session is opened and not lost, the attempt fails for the first exchange that is missing. After as
many steps as the set-up has calls and two more the attempt is over; made at once, it is one of these. -/
theorem set_up_or_undone (receiver : Nat) (exchanges : List String) (acts : List Act) (c : Connection Broker)
    (hreached : c.broker = (Broker.withExchanges exchanges).after acts)
    (hconsumers : ∀ k ∈ c.broker.consumers, k.generation ≤ c.generation)
    (hheld : ∀ h ∈ c.broker.held, h.tag.generation ≤ c.generation) :
    (∀ moves, (∀ x, .others x ∈ moves → x.byOthers = true) → ∀ a c', c.connectAmid receiver moves = (a, c') →
      (a = .over (.ok ()) → c'.broker.live = some (c.generation + 1) → SetUp c c') ∧
      (∀ e, a = .over (.error e) → Emptied c c' ∧ (c.broker.live ≠ some (c.generation + 1) → Undone c c')) ∧
      (c.config.declareExchanges = false →
        ∀ y, (Topology.exchanges c.bindings).find? (fun x => !c.broker.exchanges.contains x) = some y →
          c'.broker.bindings = c.broker.bindings ∧
          (∀ left, a = .settingUp left → ∃ x rest, left = .assertExchange x :: rest) ∧
          ((∃ done, done <+: moves ∧ (c.connectAmid receiver done).1.isHalfway = true) →
            (∀ done, done <+: moves → (c.connectAmid receiver done).1.isHalfway = true →
              (c.connectAmid receiver done).2.broker.live = some (c.generation + 1)) →
            ∀ result, a = .over result → result = .error (exchangeMissing y))) ∧
      ((setupCalls c.bindings c.config).length + 2 ≤ moves.count .step → ∃ result, a = .over result)) ∧
    ∃ n, c.connectAmid receiver (List.replicate n .step) =
      (.over (c.connect (Broker.api receiver)).1, (c.connect (Broker.api receiver)).2) := by
  have hkempt : Kempt c.broker := hreached ▸ kempt_after acts (kempt_withExchanges exchanges)
  have hstart : Underway c (.opening, c.startAttempt (Broker.api receiver)) :=
    .start hkempt hconsumers hheld receiver
  constructor
  · intro moves hmoves a c' hafter
    have hunderway : ∀ done, done <+: moves → Underway c (c.connectAmid receiver done) := fun done hdone =>
      .amid receiver done hstart fun x hx => hmoves x (hdone.subset hx)
    have h : Underway c (a, c') := hafter ▸ hunderway moves (List.prefix_refl moves)
    refine ⟨?_, ?_, fun hoff y hfind => ?_, fun hcount => ?_⟩
    · rintro rfl hl
      exact setUp_of_stage h hl
    · rintro e rfl
      exact ⟨emptied_of_stage h, undone_of_stage h⟩
    · obtain ⟨hbindings, hnot, hchecks, -⟩ := missing_of_stage h hoff hfind
      refine ⟨hbindings, hchecks, fun ⟨opened, hopened, hhalfway⟩ hkept result hover => ?_⟩
      match result with
      | .ok () => exact absurd hover hnot
      | .error e =>
        have hfailed : (c.connectAmid receiver moves).1 = .over (.error e) := by
          rw [hafter]
          exact hover
        rcases Attempt.amid_failed rfl hfailed with ⟨done, hdone, hundoing⟩ | hnever
        · -- the call failed on the live session, so for want of an exchange
          have hlive : (c.connectAmid receiver done).2.broker.live = some (c.generation + 1) :=
            hkept done hdone (by rw [connectAmid, hundoing]; rfl)
          exact congrArg _ ((missing_of_stage (hunderway done hdone) hoff hfind).2.2.2 e hundoing hlive)
        · exact absurd hhalfway (by rw [connectAmid, hnever opened hopened]; exact Bool.false_ne_true)
    · have hover : a.isOver = true := by
        have := Attempt.amid_over receiver moves (s := (.opening, c.startAttempt (Broker.api receiver))) ?_
        · rwa [show Attempt.amid receiver moves _ = _ from hafter] at this
        · show (setupCalls (c.startAttempt (Broker.api receiver)).bindings
            (c.startAttempt (Broker.api receiver)).config).length + 2 ≤ _
          rw [hstart.bindings, hstart.config]
          exact hcount
      match a, hover with
      | .over result, _ => exact ⟨result, rfl⟩
  · obtain ⟨n, hn⟩ := connect_eq_steps (Broker.api receiver) c
    exact ⟨n, (Attempt.amid_replicate receiver n _).trans hn⟩

/-- A connection whose first session was dropped, with a delivery unresolved. -/
def dropped (bindings : List Binding) : Connection Broker :=
  { Connection.closed bindings (.standard "1") true ((Broker.withExchanges ["a"]).after
      [.openSession 0 1 true, .declareQueue 1 ⟨"a", "q", "k"⟩, .publish ⟨"a", "k", []⟩, .consume 0 1 "q" "first",
        .drop "cable pulled"]) with
    generation := 1 }

/-- It is opened again; or it is dropped again between its two consumers; or an exchange is missing. -/
theorem set_up_or_undone_dropped :
    let c := dropped [⟨"a", "q", "k"⟩, ⟨"a", "r", "l"⟩]
    let again := c.connectAmid 0 (.replicate 8 .step)
    let lost := c.connectAmid 0 (.replicate 6 .step ++ [.others (.drop "cable pulled")] ++ .replicate 2 .step)
    let d := dropped [⟨"a", "q", "k"⟩, ⟨"b", "r", "l"⟩]
    let missing := d.connectAmid 0 (.replicate 4 .step)
    SetUp c again.2 ∧ (lost.2.broker.issued.length = 2 ∧ Undone c lost.2) ∧
      missing.1 = .over (.error (exchangeMissing "b")) ∧ missing.2.broker.bindings = [⟨"a", "q", "k"⟩] := by
  have hsteps : ∀ n x, .others x ∈ List.replicate n Attempt.Move.step → x.byOthers = true := by
    intro n x hx
    cases List.eq_of_mem_replicate hx
  have hlost : ∀ x, .others x ∈ List.replicate 6 Attempt.Move.step ++ [.others (.drop "cable pulled")] ++
      .replicate 2 .step → x.byOthers = true := by
    intro x hx
    rcases List.mem_append.mp hx with hx | hx
    · rcases List.mem_append.mp hx with hx | hx
      · exact hsteps 6 x hx
      · cases List.mem_singleton.mp hx
        rfl
    · exact hsteps 2 x hx
  have hc := set_up_or_undone 0 ["a"] _ (dropped [⟨"a", "q", "k"⟩, ⟨"a", "r", "l"⟩]) rfl (by decide +kernel)
    (by decide +kernel)
  have hd := set_up_or_undone 0 ["a"] _ (dropped [⟨"a", "q", "k"⟩, ⟨"b", "r", "l"⟩]) rfl (by decide +kernel)
    (by decide +kernel)
  have hagain := (hc.1 _ (hsteps 8) _ _ rfl).1 rfl (by decide +kernel)
  have hundone := ((hc.1 _ hlost _ _ rfl).2.1 channelClosed rfl).2 (by decide +kernel)
  have hmissing := (hd.1 _ (hsteps 4) _ _ rfl).2.2.1 rfl "b" (by decide +kernel)
  exact ⟨hagain, ⟨by decide +kernel, hundone⟩, by rfl, hmissing.1.trans (by decide +kernel)⟩

/-- A connection that was never opened. At its broker another has its first session, without any consumers, and the next
session is refused. -/
def besideAnother : Connection Broker :=
  let other := (Connection.closed [] (.standard "2") true (Broker.withExchanges ["a"])).connect (Broker.api 1)
  Connection.closed [⟨"a", "q", "k"⟩] (.standard "1") true ((Act.refuseNext 1).run other.2.broker)

/-- The attempt is refused and leaves nothing consumed or held, but a session of its generation is live. -/
theorem refused_besideAnother :
    (∃ acts, besideAnother.broker = (Broker.withExchanges ["a"]).after acts) ∧
      (∀ k ∈ besideAnother.broker.consumers, k.generation ≤ besideAnother.generation) ∧
      (∀ h ∈ besideAnother.broker.held, h.tag.generation ≤ besideAnother.generation) ∧
      (besideAnother.connect (Broker.api 0)).1 = .error (.connection "connection refused") ∧
      (besideAnother.connect (Broker.api 0)).2.broker.live =
        some (besideAnother.connect (Broker.api 0)).2.generation :=
  ⟨⟨[.openSession 1 1 true, .setPrefetch 1 1, .refuseNext 1], rfl⟩, nofun, nofun, rfl, rfl⟩

end EventCourier
