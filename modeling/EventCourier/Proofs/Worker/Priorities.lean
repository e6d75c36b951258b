import EventCourier.Proofs.Connection.Notices
import EventCourier.Proofs.Worker.Endings
import EventCourier.Proofs.Worker.Outcomes

/-!
# What comes first

`Deed` lists what a worker does that others can see. Its deeds come in whole blocks, one for each delivery that it
processes and one for each reconnection (`deeds_blocks`): a delivery that it has begun to process it resolves, once
and with the outcome it came to, before it does anything else. Between two blocks a requested shutdown comes first
(`closing_deeds`), and a notice of the current session before the deliveries of that session (`barred_deeds`).
-/

namespace EventCourier

variable {β ρ : Type}

open Connection

/-- What a worker does: it begins to process a delivery, hands its event to a sink, comes to an outcome, has the
delivery resolved; or it begins to reconnect. -/
inductive Deed where
  | begins (d : Delivery)
  | asks (d : Delivery)
  | decides (d : Delivery) (outcome : Outcome)
  | resolves (d : Delivery) (outcome : Outcome)
  | reconnects
deriving DecidableEq

namespace Deed

/-- How the processing of a delivery begins; one that cannot be decoded is handed to no sink. -/
def opening (d : Delivery) (asked : Bool) : List Deed := .begins d :: if asked then [.asks d] else []

/-- A whole block of deeds: a reconnection, or the processing of a delivery up to its resolution. -/
inductive Whole : List Deed → Prop where
  | reconnected : Whole [.reconnects]
  | handled (d : Delivery) (asked : Bool) (outcome : Outcome) :
      Whole (opening d asked ++ [.decides d outcome, .resolves d outcome])

end Deed

/-- The deeds of a block that is not whole yet. -/
def Activity.Unfinished : Activity ρ → List Deed → Prop
  | .persisting d _, deeds => deeds = Deed.opening d true
  | .holding d outcome, deeds | .resolving d outcome, deeds =>
    ∃ asked, deeds = Deed.opening d asked ++ [.decides d outcome]
  | _, deeds => deeds = []

/-- The delivery that is being processed. -/
def Activity.inProcess? : Activity ρ → Option Delivery
  | .persisting d _ | .holding d _ | .resolving d _ => some d
  | _ => none

namespace Worker

/-- True of a worker that will reconnect when it chooses. -/
def isLosing (api : BrokerApi β) (w : Worker β ρ) : Bool :=
  !w.shutdown && w.notices.head?.any fun n => (w.connection.lose api n).1

/-- What a worker does in a turn. -/
def deedsIn (api : BrokerApi β) (w : Worker (Logged β) ρ) : Turn β → List Deed
  | .step =>
    match w.activity with
    | .choosing => if w.isLosing api.logged then [.reconnects] else []
    | .handling d =>
      if w.connection.isCurrent d.tag then
        .begins d :: w.sinkCall?.toList.map .asks ++
          match Pipeline.prepare w.router d.message w.clock with
          | .ok _ => []
          | .error e => [.decides d (Pipeline.outcomeOf w.connection.config.rejectPolicy e)]
      else []
    | .resolving d outcome => [.resolves d outcome]
    | _ => []
  | .answer result duration =>
    match w.activity with
    | .persisting d p =>
      [.decides d (Pipeline.conclude w.connection.config.rejectPolicy d p.sink duration result
        w.connection.journal).1]
    | _ => []
  | .resume | .outside _ _ _ _ _ => []

/-- What a worker does in some turns. -/
def deeds (api : BrokerApi β) (w : Worker (Logged β) ρ) : List (Turn β) → List Deed
  | [] => []
  | t :: turns => w.deedsIn api t ++ (next api w t).deeds api turns

theorem deeds_append (api : BrokerApi β) (turns turns' : List (Turn β)) : ∀ w : Worker (Logged β) ρ,
    w.deeds api (turns ++ turns') = w.deeds api turns ++ (after api w turns).deeds api turns' := by
  induction turns with
  | nil => exact fun _ => rfl
  | cons t turns ih =>
    intro w
    show w.deedsIn api t ++ (next api w t).deeds api (turns ++ turns') = _
    rw [ih, ← List.append_assoc]
    rfl

variable {api : BrokerApi β} {w w' : Worker (Logged β) ρ} {t : Turn β} {l : List Deed}

/-! ## Blocks -/

/-- A delivery that is handed to a sink is the one that is processed. -/
theorem sinkCall?_toList {d : Delivery} (ha : w.activity = .handling d) :
    ∃ asked, Deed.begins d :: w.sinkCall?.toList.map Deed.asks = Deed.opening d asked := by
  unfold sinkCall?
  rw [ha]
  dsimp only
  split
  · exact ⟨true, rfl⟩
  · exact ⟨false, rfl⟩

/-- A delivery that a backend is asked for was handed to a sink. -/
theorem sinkCall?_prepared {d : Delivery} {p : Prepared ρ} (ha : w.activity = .handling d)
    (hd : w.connection.isCurrent d.tag = true) (hp : Pipeline.prepare w.router d.message w.clock = .ok p) :
    w.sinkCall? = some d := by
  obtain ⟨event, hevent, -⟩ := prepare_ok hp
  unfold sinkCall?
  rw [ha]
  dsimp only
  rw [hd, hevent]

/-- A worker that makes no step does nothing. -/
theorem deedsIn_of_none (h : w.step? api.logged = none) : w.deedsIn api .step = [] := by
  unfold step? at h
  unfold deedsIn
  split at h
  · cases h
  · cases h
  · rename_i ha
    rw [ha]
  · rename_i ha
    rw [ha]
    unfold choose? at h
    unfold isLosing
    cases hflag : w.shutdown with
    | true => rw [hflag] at h; cases h
    | false =>
      cases hnotices : w.notices with
      | nil => rfl
      | cons n rest => rw [hflag, hnotices] at h; cases h
  · cases h
  · rename_i ha
    rw [ha]
  · rename_i ha
    rw [ha]
  · cases h
  · cases h
  · rename_i ha
    rw [ha]

theorem unfinished_toward (config : WorkerConfig) (d : Delivery) (outcome : Outcome) (asked : Bool) :
    (Activity.toward config d outcome : Activity ρ).Unfinished
      (Deed.opening d asked ++ [.decides d outcome]) := by
  unfold Activity.toward
  split <;> exact ⟨asked, rfl⟩

/-- Whole blocks of deeds, and one that is not whole yet if the activity says so. -/
def InBlocks (a : Activity ρ) (deeds : List Deed) : Prop :=
  ∃ (blocks : List (List Deed)) (rest : List Deed),
    (∀ b ∈ blocks, Deed.Whole b) ∧ a.Unfinished rest ∧ deeds = blocks.flatten ++ rest

theorem InBlocks.rest {a : Activity ρ} (h : a.Unfinished l) : InBlocks a l := ⟨[], l, nofun, h, rfl⟩

/-- A step goes on with a block, or makes it whole. -/
theorem inBlocks_stepped (h : w.activity.Unfinished l) (hstep : Stepped api.logged w w') :
    InBlocks w'.activity (l ++ w.deedsIn api .step) := by
  unfold deedsIn
  cases hstep with
  | connects ha | connected ha | failed ha =>
    rw [ha] at h ⊢
    rw [show l = [] from h]
    exact .rest rfl
  | leaving ha flag =>
    rw [ha] at h ⊢
    rw [show l = [] from h, isLosing, flag]
    exact .rest rfl
  | lost ha flag notices current =>
    rw [ha] at h ⊢
    have hlosing : w.isLosing api.logged = true := by simp [isLosing, flag, notices, current]
    rw [show l = [] from h, hlosing]
    exact ⟨[[.reconnects]], [], by simpa using Deed.Whole.reconnected, rfl, rfl⟩
  | ignored ha flag notices stale =>
    have hlosing : w.isLosing api.logged = false := by simp [isLosing, notices, stale]
    rw [ha] at h ⊢
    rw [show l = [] from h, hlosing]
    exact .rest rfl
  | took ha buffer flag notices =>
    rw [ha] at h ⊢
    have hlosing : w.isLosing api.logged = false := by simp [isLosing, notices]
    rw [show l = [] from h, hlosing]
    exact .rest rfl
  | stale ha hd =>
    rw [ha] at h ⊢
    rw [show l = [] from h]
    dsimp only
    rw [hd]
    exact .rest rfl
  | @asked d p ha hd prepared =>
    have hcall := sinkCall?_prepared ha hd prepared
    rw [ha] at h ⊢
    rw [show l = [] from h]
    dsimp only
    rw [hd, prepared, hcall]
    exact .rest rfl
  | @refused d e j ha hd prepared =>
    obtain ⟨asked, hasked⟩ := sinkCall?_toList ha
    rw [ha] at h ⊢
    rw [show l = [] from h]
    dsimp only
    rw [hd, prepared, if_pos rfl, hasked]
    exact .rest (unfinished_toward _ _ _ asked)
  | hurried ha flag =>
    rw [ha] at h ⊢
    rw [List.append_nil]
    exact .rest h
  | @settled d outcome c ha same =>
    rw [ha] at h ⊢
    obtain ⟨asked, rfl⟩ := h
    refine ⟨[Deed.opening d asked ++ [.decides d outcome, .resolves d outcome]], [], ?_, rfl, by simp⟩
    simpa using Deed.Whole.handled d asked outcome
  | stopped ha =>
    rw [ha] at h ⊢
    rw [show l = [] from h]
    exact .rest rfl

/-- **One turn** goes on with a block, or makes it whole. -/
theorem inBlocks_next (api : BrokerApi β) (h : w.activity.Unfinished l) (t : Turn β) :
    InBlocks (next api w t).activity (l ++ w.deedsIn api t) := by
  cases t with
  | step =>
    show InBlocks ((w.step? api.logged).getD w).activity _
    cases hstep : w.step? api.logged with
    | none =>
      rw [deedsIn_of_none hstep, List.append_nil]
      exact .rest h
    | some w' => exact inBlocks_stepped h (stepped_of_step? hstep)
  | resume =>
    show InBlocks w.resume.activity (l ++ [])
    rw [List.append_nil]
    rcases resume_spec w with heq | ⟨r, ha, heq⟩ | ⟨d, outcome, ha, heq⟩
    · rw [heq]
      exact .rest h
    · rw [ha] at h
      rw [heq]
      exact .rest h
    · rw [ha] at h
      rw [heq]
      exact .rest h
  | answer result duration =>
    show InBlocks (w.answer result duration).activity _
    unfold deedsIn answer
    cases ha : w.activity with
    | persisting d p =>
      rw [ha] at h
      dsimp only
      rw [decided_eq, show l = Deed.opening d true from h]
      exact .rest (unfinished_toward _ _ _ true)
    | _ =>
      dsimp only
      rw [List.append_nil]
      exact .rest h
  | outside f channel notices shutdown clock =>
    show InBlocks w.activity (l ++ [])
    rw [List.append_nil]
    exact .rest h

/-- **The deeds of a worker come in whole blocks**, but for the one that it is about. -/
theorem deeds_blocks (api : BrokerApi β) (turns : List (Turn β)) : ∀ {w : Worker (Logged β) ρ} {l : List Deed},
    w.activity.Unfinished l → InBlocks (after api w turns).activity (l ++ w.deeds api turns) := by
  induction turns with
  | nil =>
    intro w l h
    rw [deeds, List.append_nil]
    exact .rest h
  | cons t turns ih =>
    intro w l h
    obtain ⟨blocks, rest, hblocks, hrest, heq⟩ := inBlocks_next api h t
    obtain ⟨blocks', rest', hblocks', hrest', heq'⟩ := ih hrest
    refine ⟨blocks ++ blocks', rest', List.forall_mem_append.mpr ⟨hblocks, hblocks'⟩, hrest', ?_⟩
    rw [deeds, ← List.append_assoc, heq, List.append_assoc, heq', List.flatten_append, List.append_assoc]

/-! ## A delivery is resolved -/

/-- True of what happens around a worker and not by it. -/
def Turn.isOutside : Turn β → Bool
  | .outside _ _ _ _ _ => true
  | .step | .resume | .answer _ _ => false

theorem activity_outside (api : BrokerApi β) {turns : List (Turn β)} : ∀ w : Worker (Logged β) ρ,
    (∀ t ∈ turns, t.isOutside = true) → (after api w turns).activity = w.activity := by
  induction turns with
  | nil => exact fun _ _ => rfl
  | cons t turns ih =>
    intro w h
    have ht := h t List.mem_cons_self
    cases t with
    | outside f channel notices shutdown clock =>
      exact ih _ fun t' ht' => h t' (List.mem_cons_of_mem _ ht')
    | step | resume | answer _ _ => cases ht

/-- With the answer of a backend a delivery has its outcome. -/
theorem answer_decided {d : Delivery} (h : w.activity.inProcess? = some d) (result : Except SinkError Unit)
    (duration : Nat) : ∃ outcome, (w.answer result duration).activity = .holding d outcome ∨
      (w.answer result duration).activity = .resolving d outcome := by
  unfold answer
  cases ha : w.activity with
  | persisting d' p =>
    rw [ha] at h
    cases h
    dsimp only
    rw [decided_eq]
    unfold Activity.toward
    split
    · exact ⟨_, Or.inl rfl⟩
    · exact ⟨_, Or.inr rfl⟩
  | holding d' outcome =>
    rw [ha] at h
    cases h
    exact ⟨outcome, Or.inl ha⟩
  | resolving d' outcome =>
    rw [ha] at h
    cases h
    exact ⟨outcome, Or.inr ha⟩
  | _ =>
    rw [ha] at h
    cases h

/-- With the end of its pause it is resolved next. -/
theorem resume_resolving {d : Delivery} {outcome : Outcome}
    (h : w.activity = .holding d outcome ∨ w.activity = .resolving d outcome) :
    w.resume.activity = .resolving d outcome := by
  unfold resume
  rcases h with ha | ha
  · rw [ha]
    rfl
  · rw [ha]
    exact ha

/-- **A delivery in process is resolved** once its backend has answered and its pause has ended, whatever else
happens meanwhile. -/
theorem resolves_in_process {d : Delivery} (h : w.activity.inProcess? = some d) (result : Except SinkError Unit)
    (duration : Nat) {first second third : List (Turn β)}
    (houtside : ∀ t ∈ first ++ second ++ third, t.isOutside = true) :
    ∃ outcome, .resolves d outcome ∈
      w.deeds api (first ++ .answer result duration :: second ++ .resume :: third ++ [.step]) := by
  have hfirst := activity_outside api w fun t ht =>
    houtside t (List.mem_append_left _ (List.mem_append_left _ ht))
  obtain ⟨outcome, hanswered⟩ := answer_decided (hfirst ▸ h) result duration
  have hsecond := activity_outside api ((after api w first).answer result duration) fun t ht =>
    houtside t (List.mem_append_left _ (List.mem_append_right _ ht))
  rw [← hsecond] at hanswered
  have hresumed := resume_resolving hanswered
  have hthird := activity_outside api (after api ((after api w first).answer result duration) second).resume
    fun t ht => houtside t (List.mem_append_right _ ht)
  have hresolving : (after api w (first ++ .answer result duration :: second ++ .resume :: third)).activity =
      .resolving d outcome := by
    rw [after_append, after_append]
    exact hthird.trans hresumed
  refine ⟨outcome, ?_⟩
  rw [deeds_append]
  refine List.mem_append_right _ ?_
  rw [deeds, deeds, deedsIn, hresolving]
  exact List.mem_singleton.mpr rfl

/-! ## A requested shutdown -/

/-- A worker that is closing, or has closed, does nothing more. -/
theorem closing_deeds {result : Except WorkerError Unit} (turns : List (Turn β)) : ∀ {w : Worker (Logged β) ρ},
    Finishing result w.activity → w.deeds api turns = [] := by
  induction turns with
  | nil => exact fun _ => rfl
  | cons t turns ih =>
    intro w h
    have hnone : w.deedsIn api t = [] := by
      unfold deedsIn
      cases ha : w.activity with
      | closing _ | stopped _ => cases t <;> rfl
      | _ =>
        rw [ha] at h
        exact h.elim
    rw [deeds, hnone]
    exact ih (finishing_next api h t).1

/-- One step of its own, and it has closed. -/
theorem finishing_stops {result : Except WorkerError Unit} {turns : List (Turn β)} :
    ∀ {w : Worker (Logged β) ρ}, Finishing result w.activity → .step ∈ turns →
      (after api w turns).activity = .stopped (reported result) := by
  induction turns with
  | nil => exact fun _ h => absurd h List.not_mem_nil
  | cons t turns ih =>
    intro w h hstep
    by_cases ht : t = .step
    · have hstopped : (next api w t).activity = .stopped (reported result) := by
        rw [ht]
        unfold next step?
        cases ha : w.activity with
        | closing result' =>
          rw [ha] at h
          obtain ⟨c, -, heq⟩ := finish_eq api.logged w result'
          rw [show result' = result from h] at heq ⊢
          show (w.finish api.logged result).activity = _
          rw [heq]
        | stopped result' =>
          rw [ha] at h
          exact ha.trans (congrArg _ h)
        | _ =>
          rw [ha] at h
          exact h.elim
      exact (stopped_after api turns hstopped).1
    · exact ih (finishing_next api h t).1 ((List.mem_cons.mp hstep).resolve_left (Ne.symm ht))

theorem choosing_shutdown (api : BrokerApi β) (ha : w.activity = .choosing) (flag : w.shutdown = true) :
    next api w .step = w.turnTo (.closing (.ok ())) ∧ w.deedsIn api .step = [] := by
  constructor
  · unfold next step?
    rw [ha]
    simp [choose?, flag]
  · unfold deedsIn
    rw [ha]
    simp [isLosing, flag]

end Worker

/-! ## Notices of the current session -/

namespace Worker

variable {api : BrokerApi β} {w w' : Worker (Logged β) ρ} {t : Turn β} {n : Notice}

/-- Nothing takes a notice from the queue but the worker. -/
def NoticesKept (api : BrokerApi β) (w : Worker (Logged β) ρ) : List (Turn β) → Prop
  | [] => True
  | t :: turns =>
    (∀ f channel notices shutdown clock, t = .outside f channel notices shutdown clock → w.notices <+: notices) ∧
      NoticesKept api (next api w t) turns

/-- A worker takes up no delivery of the session that a notice is about: the notice is about the session it holds
and in front of the deliveries, the session is gone, or the worker is about to end. -/
inductive Barred (n : Notice) (w : Worker (Logged β) ρ) : Prop where
  | announced (choosing : w.activity = .choosing) (held : w.connection.session.isSome = true)
      (current : n.generation = w.connection.generation) (queued : n ∈ w.notices)
  | gone (h : w.connection.Beyond n.generation w.activity.underway)
  | ending {result : Except WorkerError Unit} (h : Finishing result w.activity)

theorem barred_chosen (ha : w.activity = .choosing) (held : w.connection.session.isSome = true)
    (current : n.generation = w.connection.generation) (queued : n ∈ w.notices)
    (hstep : Stepped api.logged w w') : Barred n w' := by
  cases hstep with
  | leaving => exact .ending (show Finishing (.ok ()) (.closing (.ok ()) : Activity ρ) from rfl)
  | lost _ flag notices lost =>
    obtain ⟨hsession, hgeneration⟩ := lose_current lost
    exact .gone (Or.inr ⟨current.trans hgeneration.symm, hsession, Retry.start_underway _⟩)
  | @ignored n' rest _ flag notices stale =>
    have hne : n ≠ n' := by
      rintro rfl
      simp [Connection.lose, held, current] at stale
    have hrest : n ∈ rest := by
      rw [notices] at queued
      exact (List.mem_cons.mp queued).resolve_left hne
    exact .announced ha held current hrest
  | took _ buffer flag notices =>
    rw [notices] at queued
    cases queued
  | connects h | connected h | failed h | stale h | asked h | refused h | hurried h | settled h | stopped h =>
    cases ha.symm.trans h

/-- **One turn** leaves a session barred. -/
theorem barred_next (h : Barred n w)
    (ht : ∀ f channel notices shutdown clock, t = .outside f channel notices shutdown clock →
      w.notices <+: notices) : Barred n (next api w t) := by
  cases h with
  | ending h => exact .ending (finishing_next api h t).1
  | gone h =>
    rcases next_change api w t with ⟨l, hchange⟩ | ⟨f, channel, notices, shutdown, clock, rfl⟩
    · exact .gone (beyond_change hchange h)
    · exact .gone h
  | announced ha held current queued =>
    cases t with
    | step =>
      show Barred n ((w.step? api.logged).getD w)
      cases hstep : w.step? api.logged with
      | none => exact .announced ha held current queued
      | some w' => exact barred_chosen ha held current queued (stepped_of_step? hstep)
    | resume =>
      have hsame : next api w .resume = w := by
        show w.resume = w
        unfold resume
        rw [ha]
      rw [hsame]
      exact .announced ha held current queued
    | answer result duration =>
      have hsame : next api w (.answer result duration) = w := by
        show w.answer result duration = w
        unfold answer
        rw [ha]
      rw [hsame]
      exact .announced ha held current queued
    | outside f channel notices shutdown clock =>
      exact .announced ha held current ((ht f channel notices shutdown clock rfl).subset queued)

/-- What is handed to a sink is the delivery at hand, of the session that is held. -/
theorem asks_mem {d : Delivery} (h : .asks d ∈ w.deedsIn api t) :
    w.activity = .handling d ∧ w.connection.isCurrent d.tag = true := by
  unfold deedsIn at h
  cases t with
  | step =>
    cases ha : w.activity with
    | handling d' =>
      obtain ⟨asked, hasked⟩ := sinkCall?_toList ha
      rw [ha] at h
      dsimp only at h
      rw [hasked] at h
      split at h
      · rename_i hcurrent
        have hd : d = d' := by
          unfold Deed.opening at h
          rcases List.mem_append.mp h with h | h
          · cases asked with
            | false => simp at h
            | true => simpa using h
          · split at h <;> simp at h
        exact ⟨by rw [hd], hd ▸ hcurrent⟩
      · cases h
    | choosing =>
      rw [ha] at h
      dsimp only at h
      split at h <;> simp at h
    | resolving _ _ =>
      rw [ha] at h
      simp at h
    | _ =>
      rw [ha] at h
      cases h
  | answer result duration =>
    cases ha : w.activity <;> rw [ha] at h <;> simp at h
  | resume | outside _ _ _ _ _ => cases h

theorem barred_asks {d : Delivery} (h : Barred n w) (hd : .asks d ∈ w.deedsIn api t) :
    d.tag.generation ≠ n.generation := by
  obtain ⟨ha, hcurrent⟩ := asks_mem hd
  unfold isCurrent at hcurrent
  simp only [Bool.and_eq_true, beq_iff_eq] at hcurrent
  cases h with
  | announced choosing => cases choosing.symm.trans ha
  | ending h =>
    rw [ha] at h
    exact h.elim
  | gone h =>
    rcases h with hlt | ⟨-, hnone, -⟩
    · omega
    · rw [hnone] at hcurrent
      cases hcurrent.1

/-- **Every run** leaves a session barred. -/
theorem barred_deeds {turns : List (Turn β)} : ∀ {w : Worker (Logged β) ρ}, Barred n w → NoticesKept api w turns →
    ∀ d, .asks d ∈ w.deeds api turns → d.tag.generation ≠ n.generation := by
  induction turns with
  | nil => exact fun _ _ d hd => absurd hd List.not_mem_nil
  | cons t turns ih =>
    intro w h hkept d hd
    rcases List.mem_append.mp hd with hd | hd
    · exact barred_asks h hd
    · exact ih (barred_next h hkept.1) hkept.2 d hd

/-- To resolve a delivery is to have the connection resolve it. -/
theorem resolves_mem {d : Delivery} {outcome : Outcome} (h : .resolves d outcome ∈ w.deedsIn api t) :
    w.activity = .resolving d outcome ∧
      Same (w.connection.resolve api.logged d.tag outcome).2 (next api w t).connection := by
  have hresolving : t = .step ∧ w.activity = .resolving d outcome := by
    unfold deedsIn at h
    cases t with
    | step =>
      cases ha : w.activity with
      | handling d' =>
        rw [ha] at h
        dsimp only at h
        split at h
        · split at h <;> simp at h
        · cases h
      | choosing =>
        rw [ha] at h
        dsimp only at h
        split at h <;> simp at h
      | resolving d' outcome' =>
        rw [ha] at h
        simp only [List.mem_singleton, Deed.resolves.injEq] at h
        exact ⟨rfl, by rw [h.1, h.2]⟩
      | _ =>
        rw [ha] at h
        cases h
    | answer result duration =>
      cases ha : w.activity <;> rw [ha] at h <;> simp at h
    | resume | outside _ _ _ _ _ => cases h
  obtain ⟨rfl, ha⟩ := hresolving
  refine ⟨ha, ?_⟩
  have hstep : next api w .step = w.settle api.logged d outcome := by
    unfold next step?
    rw [ha]
    rfl
  rw [hstep]
  unfold settle
  split
  · rename_i c hc
    exact hc ▸ .refl c
  · rename_i e c hc
    exact hc ▸ ⟨rfl, rfl, rfl, rfl, rfl, rfl⟩

end Worker

/-! ## The main result -/

/-- **What comes first.** Of a worker that consumes on any broker, whatever reaches it: if a shutdown is requested
when it chooses what is next, it does nothing more, asks for no further session and ends well with its next step.
Its deeds come in whole blocks, so that a delivery it has begun to process is resolved once, with the outcome its
processing came to, before anything else; only a block that it is still about is not whole, and the backend's
answer and the end of the pause bring it to its end, whatever happens meanwhile. If a notice of the session that it
holds is in its queue when it chooses, no delivery of that session is handed to a sink from then on. -/
theorem priorities_kept (api : BrokerApi β) (w : Worker (Logged β) ρ) (ha : w.activity = .choosing) :
    (w.shutdown = true → ∀ later,
      w.deeds api (.step :: later) = [] ∧
      attempts (Worker.after api w (.step :: later)).connection.broker.log = attempts w.connection.broker.log ∧
      (.step ∈ later → (Worker.after api w (.step :: later)).result? = some (.ok ()))) ∧
    (∀ turns, ∃ (blocks : List (List Deed)) (rest : List Deed),
      (∀ b ∈ blocks, Deed.Whole b) ∧ (Worker.after api w turns).activity.Unfinished rest ∧
        w.deeds api turns = blocks.flatten ++ rest) ∧
    (∀ turns t d outcome, .resolves d outcome ∈ (Worker.after api w turns).deedsIn api t →
      Same ((Worker.after api w turns).connection.resolve api.logged d.tag outcome).2
        (Worker.after api w (turns ++ [t])).connection) ∧
    (∀ turns d, (Worker.after api w turns).activity.inProcess? = some d →
      ∀ result duration first second third, (∀ t ∈ first ++ second ++ third, Worker.Turn.isOutside t = true) →
        ∃ outcome, .resolves d outcome ∈ (Worker.after api w turns).deeds api
          (first ++ .answer result duration :: second ++ .resume :: third ++ [.step])) ∧
    ∀ n ∈ w.notices, w.connection.session.isSome = true → n.generation = w.connection.generation →
      ∀ turns, Worker.NoticesKept api w turns →
        ∀ d, .asks d ∈ w.deeds api turns → d.tag.generation ≠ n.generation := by
  refine ⟨fun flag later => ?_, fun turns => ?_, fun turns t d outcome hd => ?_,
    fun turns d hd result duration first second third houtside =>
      Worker.resolves_in_process hd result duration houtside,
    fun n hn hheld hcurrent turns hkept => Worker.barred_deeds (.announced ha hheld hcurrent hn) hkept⟩
  · obtain ⟨hnext, hdeeds⟩ := Worker.choosing_shutdown api ha flag
    have hfinishing : Worker.Finishing (.ok ()) (Worker.next api w .step).activity := by
      rw [hnext]
      rfl
    refine ⟨?_, ?_, fun hstep => ?_⟩
    · rw [Worker.deeds, hdeeds]
      exact Worker.closing_deeds later hfinishing
    · refine (Worker.finishing_after api later hfinishing).2.trans ?_
      rw [hnext]
      rfl
    · exact Worker.result?_eq_some.mpr (Worker.finishing_stops hfinishing hstep)
  · have hfree : w.activity.Unfinished [] := by
      rw [ha]
      rfl
    exact Worker.deeds_blocks api turns hfree
  · rw [Worker.after_append]
    exact (Worker.resolves_mem hd).2

/-- A worker with deliveries in its channel, and a notice of the session that issued them behind one of an earlier
session. -/
def crowded : Worker (Logged Broker) Unit :=
  let config : WorkerConfig := { WorkerConfig.standard "1" with rejectPolicy := .requeueTransient }
  let letter (value : Nat) : Delivery := ⟨⟨"a", "k", [123, 125]⟩, ⟨2, value⟩, false⟩
  { name := "courier"
    router := .only ⟨"documents", fun _ => .ok ()⟩
    connection := { Connection.closed [⟨"a", "q", "k"⟩] config true ⟨.withExchanges ["a"], []⟩ with
      session := some 2
      generation := 2 }
    channel := { Channel.empty 2 with buffer := [letter 1, letter 2] }
    notices := [⟨1, "heartbeat"⟩, ⟨2, "cable pulled"⟩]
    shutdown := false
    clock := ⟨0, 0⟩
    activity := .choosing }

/-- The worker asks a backend, which cannot be reached; while it waits to put the delivery back, its session is
lost and a shutdown is requested. -/
def interrupted : List (Worker.Turn Broker) :=
  [.step, .step, .answer (.error (.unavailable "down")) 3,
    .outside id (.empty 2) [⟨2, "cable pulled"⟩] true ⟨0, 0⟩, .step, .step, .step]

theorem priorities_kept_crowded :
    let letter : Delivery := ⟨⟨"a", "k", [123, 125]⟩, ⟨2, 1⟩, false⟩
    let busy : Worker (Logged Broker) Unit := { crowded with notices := [] }
    let told : Worker (Logged Broker) Unit := { crowded with shutdown := true }
    (told.deeds (Broker.api 0) [.step, .resume, .step] = [] ∧
        (Worker.after (Broker.api 0) told [.step, .resume, .step]).result? = some (.ok ())) ∧
      (busy.deeds (Broker.api 0) interrupted =
          [.begins letter, .asks letter, .decides letter (.reject true), .resolves letter (.reject true)] ∧
        ∃ (blocks : List (List Deed)) (rest : List Deed), (∀ b ∈ blocks, Deed.Whole b) ∧
          busy.deeds (Broker.api 0) interrupted = blocks.flatten ++ rest) ∧
      ((Worker.after (Broker.api 0) busy [.step, .step]).activity.inProcess? = some letter ∧
        ∃ outcome, .resolves letter outcome ∈ (Worker.after (Broker.api 0) busy [.step, .step]).deeds (Broker.api 0)
          [.answer (.ok ()) 3, .outside id (.empty 2) [⟨2, "cable pulled"⟩] true ⟨0, 0⟩, .resume, .step]) ∧
      crowded.deeds (Broker.api 0) (List.replicate 16 .step) = [.reconnects] ∧
      ∀ d, .asks d ∈ crowded.deeds (Broker.api 0) (List.replicate 16 .step) → d.tag.generation ≠ 2 := by
  intro letter busy told
  have htold := (priorities_kept (Broker.api 0) told rfl).1 rfl [.resume, .step]
  have hbusy := priorities_kept (Broker.api 0) busy rfl
  have hcrowded := (priorities_kept (Broker.api 0) crowded rfl).2.2.2.2 ⟨2, "cable pulled"⟩ (by decide) rfl rfl
  obtain ⟨blocks, rest, hblocks, -, heq⟩ := hbusy.2.1 interrupted
  have hprocess : (Worker.after (Broker.api 0) busy [.step, .step]).activity.inProcess? = some letter := by
    decide +kernel
  refine ⟨⟨htold.1, htold.2.2 (by simp)⟩, ⟨by decide +kernel, blocks, rest, hblocks, heq⟩, ⟨hprocess, ?_⟩,
    by decide +kernel, hcrowded _ ?_⟩
  · exact hbusy.2.2.2.1 [.step, .step] letter hprocess (.ok ()) 3 []
      [.outside id (.empty 2) [⟨2, "cable pulled"⟩] true ⟨0, 0⟩] [] (by simp [Worker.Turn.isOutside])
  · simp [List.replicate, Worker.NoticesKept]

end EventCourier
