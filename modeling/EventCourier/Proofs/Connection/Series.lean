import EventCourier.Broker.Memory
import EventCourier.Proofs.Connection.Generations

/-!
# Series of attempts

A series makes its steps and ends its pauses while anything may happen to the broker and the shutdown flag
(`Series`), and gives signs of what it does. `Stage` says where a series stands after the attempts it has made:
all have failed but perhaps the last one, and behind each but the last there was one pause. `attempts_bounded`
reads off it how many attempts there are and what the series comes to, and shows that it ends.
-/

namespace EventCourier

variable {β : Type}

open Connection

/-- What a series of attempts makes known: an attempt begins under a generation, or ends; the series waits for a
while, or heeds a requested shutdown. -/
inductive Sign where
  | starts (generation : Nat)
  | ends (result : Except WorkerError Unit)
  | waits (duration : Nat)
  | heeds

/-- The signs of a step that makes `c'` of a connection. -/
def Retry.signs (c' : Connection β) : Retry → Retry → List Sign
  | .trying _, .attempting _ _ => [.starts c'.generation]
  | .attempting _ _, .attempting _ (.over result) => [.ends result]
  | .attempting _ _, r' => (r'.pause? c'.config).toList.map .waits
  | .trying _, .done _ | .pausing _, .done _ => [.heeds]
  | _, _ => []

/-- A series of attempts, its connection, and the signs it has given. -/
structure Series (β : Type) where
  retry : Retry
  connection : Connection (Logged β)
  signs : List Sign

namespace Series

/-- What may happen to a series: it makes a step, for which it may see the shutdown flag, or ends its pause; or
something happens to the broker. -/
inductive Turn (β : Type) where
  | step (shutdown : Bool)
  | resume
  | outside (f : β → β)

/-- A series that is about to begin. -/
def start (c : Connection (Logged β)) : Series β := ⟨.start c.config, c, []⟩

/-- What happens next. -/
def next (api : BrokerApi β) (s : Series β) : Turn β → Series β
  | .step shutdown =>
    match s.retry.step? api.logged shutdown s.connection with
    | some (r, c) => ⟨r, c, s.signs ++ Retry.signs c s.retry r⟩
    | none => s
  | .resume => { s with retry := s.retry.resume }
  | .outside f => { s with connection := s.connection.disturb f }

/-- What has happened after some turns. -/
def after (api : BrokerApi β) (s : Series β) (turns : List (Turn β)) : Series β := turns.foldl (next api) s

/-! ## Where a series stands -/

/-- A failure after which another attempt may help. -/
def FailsPlainly (result : Except WorkerError Unit) : Prop := ∃ e, result = .error e ∧ e.isTopology = false

theorem not_failsPlainly_ok : ¬FailsPlainly (.ok ()) := nofun

theorem not_failsPlainly_topology {e : WorkerError} (h : e.isTopology = true) : ¬FailsPlainly (.error e) := by
  rintro ⟨e', he, h'⟩
  cases he
  exact Bool.false_ne_true (h'.symm.trans h)

/-- The signs of attempts beyond a generation, each with a pause behind it. -/
def paced (delay : Nat) : Nat → List (Except WorkerError Unit) → List Sign
  | _, [] => []
  | g, result :: results => .starts (g + 1) :: .ends result :: .waits delay :: paced delay (g + 1) results

theorem paced_concat (delay g : Nat) (results : List (Except WorkerError Unit)) (last : Except WorkerError Unit) :
    paced delay g (results ++ [last]) =
      paced delay g results ++ [.starts (g + results.length + 1), .ends last, .waits delay] := by
  induction results generalizing g with
  | nil => rfl
  | cons r results ih => simp [paced, ih, Nat.add_assoc, Nat.add_comm 1]

/-- What a series with at most `limit` attempts comes to, and the signs it has given by then. -/
inductive Ended (limit delay g : Nat) :
    List (Except WorkerError Unit) → Except WorkerError Unit → List Sign → Prop where
  | without (h : limit = 0) : Ended limit delay g [] (.error (.reconnectExhausted 0 "")) []
  | heeded {failed : List (Except WorkerError Unit)} (plain : ∀ r ∈ failed, FailsPlainly r)
      (left : failed.length < limit) :
      Ended limit delay g failed (.error .shutdown) (paced delay g failed ++ [.heeds])
  | succeeded {failed : List (Except WorkerError Unit)} (plain : ∀ r ∈ failed, FailsPlainly r)
      (left : failed.length < limit) :
      Ended limit delay g (failed ++ [.ok ()]) (.ok ())
        (paced delay g failed ++ [.starts (g + failed.length + 1), .ends (.ok ())])
  | unusable {failed : List (Except WorkerError Unit)} {e : WorkerError} (plain : ∀ r ∈ failed, FailsPlainly r)
      (left : failed.length < limit) (topology : e.isTopology = true) :
      Ended limit delay g (failed ++ [.error e]) (.error e)
        (paced delay g failed ++ [.starts (g + failed.length + 1), .ends (.error e)])
  | exhausted {failed : List (Except WorkerError Unit)} {e : WorkerError} (plain : ∀ r ∈ failed, FailsPlainly r)
      (last : failed.length + 1 = limit) (h : e.isTopology = false) :
      Ended limit delay g (failed ++ [.error e]) (.error (.reconnectExhausted limit e.message))
        (paced delay g failed ++ [.starts (g + failed.length + 1), .ends (.error e)])

/-- Where a series with at most `limit` attempts stands, with the generation and the signs that belong there. -/
inductive Stage (limit delay g : Nat) : Retry → Nat → List Sign → Prop where
  | trying {failed : List (Except WorkerError Unit)} (plain : ∀ r ∈ failed, FailsPlainly r)
      (left : failed.length < limit) :
      Stage limit delay g (.trying (failed.length + 1)) (g + failed.length) (paced delay g failed)
  | attempting {failed : List (Except WorkerError Unit)} {a : Attempt} (plain : ∀ r ∈ failed, FailsPlainly r)
      (left : failed.length < limit) (h : a.isOver = false) :
      Stage limit delay g (.attempting (failed.length + 1) a) (g + failed.length + 1)
        (paced delay g failed ++ [.starts (g + failed.length + 1)])
  | attempted {failed : List (Except WorkerError Unit)} {result : Except WorkerError Unit}
      (plain : ∀ r ∈ failed, FailsPlainly r) (left : failed.length < limit) :
      Stage limit delay g (.attempting (failed.length + 1) (.over result)) (g + failed.length + 1)
        (paced delay g failed ++ [.starts (g + failed.length + 1), .ends result])
  | pausing {failed : List (Except WorkerError Unit)} (plain : ∀ r ∈ failed, FailsPlainly r)
      (left : failed.length < limit) :
      Stage limit delay g (.pausing failed.length) (g + failed.length) (paced delay g failed)
  | done {results : List (Except WorkerError Unit)} {result : Except WorkerError Unit} {signs : List Sign}
      (h : Ended limit delay g results result signs) :
      Stage limit delay g (.done result) (g + results.length) signs

theorem stage_start (config : WorkerConfig) (delay g : Nat) :
    Stage config.maxAttempts delay g (.start config) g [] := by
  unfold Retry.start
  split
  · rename_i h
    exact .done (.without h)
  · rename_i h
    exact @Stage.trying config.maxAttempts delay g [] nofun (Nat.pos_of_ne_zero h)

theorem stage_resume {limit delay g k : Nat} {r : Retry} {signs : List Sign} (h : Stage limit delay g r k signs) :
    Stage limit delay g r.resume k signs := by
  cases h with
  | pausing plain left => exact .trying plain left
  | trying plain left => exact .trying plain left
  | attempting plain left h => exact .attempting plain left h
  | attempted plain left => exact .attempted plain left
  | done h => exact .done h

variable {api : BrokerApi β} {shutdown : Bool} {r r' : Retry} {c c' : Connection β}

/-- The signs of an attempt that goes on or ends. -/
theorem signs_attempting (c' : Connection β) (n : Nat) (a a' : Attempt) :
    (a'.isOver = false ∧ Retry.signs c' (.attempting n a) (.attempting n a') = []) ∨
      ∃ result, a' = .over result ∧ Retry.signs c' (.attempting n a) (.attempting n a') = [.ends result] := by
  match a' with
  | .over result => exact Or.inr ⟨result, rfl, rfl⟩
  | .opening | .settingUp _ | .undoing _ => exact Or.inl ⟨rfl, rfl⟩

/-- What one step makes of where a series stands. -/
theorem stage_step {g k : Nat} {signs : List Sign} (hk : c.generation = k)
    (h : Stage c.config.maxAttempts c.config.reconnectDelay g r k signs)
    (hstep : r.step? api shutdown c = some (r', c')) :
    Stage c.config.maxAttempts c.config.reconnectDelay g r' c'.generation (signs ++ Retry.signs c' r r') := by
  have hsteps := Retry.stepped_of_step? hstep
  cases h with
  | @trying failed plain left =>
    cases hsteps with
    | cancelled flag =>
      rw [hk]
      exact .done (.heeded plain left)
    | begun flag =>
      have hgeneration : (c.startAttempt api).generation = g + failed.length + 1 :=
        congrArg (· + 1) ((release_generation api c).trans hk)
      show Stage _ _ _ _ _ (_ ++ [.starts (c.startAttempt api).generation])
      rw [hgeneration]
      exact .attempting plain left rfl
  | @attempting failed a plain left hover =>
    cases hsteps with
    | went _ =>
      have hgeneration : (a.step api c).2.generation = g + failed.length + 1 :=
        (Attempt.step_change api a c).generation_eq.trans hk
      rw [hgeneration]
      rcases signs_attempting (a.step api c).2 (failed.length + 1) a (a.step api c).1 with
        ⟨hgoes, hsigns⟩ | ⟨result, hover, hsigns⟩
      · rw [hsigns, List.append_nil]
        exact .attempting plain left hgoes
      · rw [hsigns, List.append_assoc, hover]
        exact .attempted plain left
    | _ => cases hover
  | @attempted failed result plain left =>
    have hgeneration : c.generation = g + (failed ++ [result]).length := by
      rw [hk, List.length_append, List.length_singleton, Nat.add_assoc]
    have hended : ∀ {result'} (c' : Connection β), c'.generation = c.generation →
        Ended c.config.maxAttempts c.config.reconnectDelay g (failed ++ [result]) result'
          (paced c.config.reconnectDelay g failed ++ [.starts (g + failed.length + 1), .ends result]) →
        Stage c.config.maxAttempts c.config.reconnectDelay g (.done result') c'.generation
          ((paced c.config.reconnectDelay g failed ++ [.starts (g + failed.length + 1), .ends result]) ++ []) := by
      intro result' c' hc' h
      rw [hc', hgeneration, List.append_nil]
      exact .done h
    cases hsteps with
    | went h => cases h
    | succeeded => exact hended _ rfl (.succeeded plain left)
    | unusable h => exact hended _ rfl (.unusable plain left h)
    | exhausted h hn => exact hended _ rfl (.exhausted plain (by omega) h)
    | @paused _ e h hn =>
      have hsigns : (paced c.config.reconnectDelay g failed ++
            [.starts (g + failed.length + 1), .ends (.error e)]) ++ [.waits c.config.reconnectDelay] =
          paced c.config.reconnectDelay g (failed ++ [.error e]) := by
        rw [paced_concat, List.append_assoc]
        rfl
      have hplain : ∀ r ∈ failed ++ [Except.error e], FailsPlainly r :=
        List.forall_mem_append.mpr ⟨plain, List.forall_mem_singleton.mpr ⟨e, rfl, h⟩⟩
      have hlength : failed.length + 1 = (failed ++ [Except.error e]).length := by simp
      show Stage _ _ _ _ c.generation (_ ++ [.waits c.config.reconnectDelay])
      rw [hgeneration, hsigns, hlength]
      exact .pausing hplain (hlength ▸ hn)
  | pausing plain left =>
    cases hsteps with
    | interrupted flag =>
      rw [hk]
      exact .done (.heeded plain left)
  | done h => cases hsteps

/-- A series that began with a connection: its configuration is the same, its attempts were made under the
generations that follow, and it stands where its signs say. -/
structure Begun (c : Connection (Logged β)) (s : Series β) : Prop where
  bindings : s.connection.bindings = c.bindings
  config : s.connection.config = c.config
  numbered : Numbered (attempts c.broker.log) c.generation s.connection s.retry.underway
  stage : Stage c.config.maxAttempts c.config.reconnectDelay c.generation s.retry s.connection.generation s.signs

theorem begun_start (c : Connection (Logged β)) : Begun c (start c) where
  bindings := rfl
  config := rfl
  numbered := by
    rw [show (start c).retry.underway = none from Retry.start_underway c.config]
    exact numbered_self c
  stage := stage_start c.config _ _

theorem begun_next (api : BrokerApi β) {c : Connection (Logged β)} {s : Series β} (h : Begun c s) (t : Turn β) :
    Begun c (next api s t) := by
  cases t with
  | step shutdown =>
    unfold next
    dsimp only
    split
    · rename_i r c' hstep
      have hchange := Retry.step?_change hstep
      refine ⟨hchange.bindings_eq.trans h.bindings, hchange.config_eq.trans h.config,
        numbered_change hchange h.numbered, ?_⟩
      have hstage := h.stage
      rw [← h.config] at hstage ⊢
      exact stage_step rfl hstage hstep
    · exact h
  | resume =>
    refine ⟨h.bindings, h.config, ?_, stage_resume h.stage⟩
    show Numbered _ _ s.connection s.retry.resume.underway
    rw [Retry.resume_underway]
    exact h.numbered
  | outside f => exact ⟨h.bindings, h.config, numbered_disturb h.numbered f, h.stage⟩

theorem begun_after (api : BrokerApi β) (c : Connection (Logged β)) (turns : List (Turn β)) :
    ∀ {s : Series β}, Begun c s → Begun c (after api s turns) := by
  induction turns with
  | nil => exact fun h => h
  | cons t turns ih => exact fun h => ih (begun_next api h t)

/-! ## The shutdown flag -/

/-- What a series heeds is a shutdown that it sees. -/
theorem heeds_next {api : BrokerApi β} {s : Series β} {t : Turn β} (h : .heeds ∈ (next api s t).signs) :
    .heeds ∈ s.signs ∨ t = .step true := by
  cases t with
  | step shutdown =>
    unfold next at h
    dsimp only at h
    split at h
    · rename_i r' c' hstep
      refine (List.mem_append.mp h).imp id fun hsigns => ?_
      generalize s.retry = r at hstep hsigns
      cases Retry.stepped_of_step? hstep with
      | cancelled flag | interrupted flag => rw [flag]
      | @went n a ha =>
        rcases signs_attempting (a.step api.logged s.connection).2 n a (a.step api.logged s.connection).1 with
          ⟨-, heq⟩ | ⟨result, -, heq⟩
        · rw [heq] at hsigns
          cases hsigns
        · rw [heq] at hsigns
          cases List.mem_singleton.mp hsigns
      | begun flag => cases List.mem_singleton.mp hsigns
      | paused h hn => cases List.mem_singleton.mp hsigns
      | succeeded | unusable _ | exhausted _ _ => cases hsigns
    · exact Or.inl h
  | resume | outside _ => exact Or.inl h

theorem heeds_after {api : BrokerApi β} {turns : List (Turn β)} : ∀ {s : Series β},
    .heeds ∈ (after api s turns).signs → .heeds ∈ s.signs ∨ .step true ∈ turns := by
  induction turns with
  | nil => exact Or.inl
  | cons t turns ih =>
    intro s h
    rcases ih h with h | h
    · exact (heeds_next h).imp id fun (ht : t = .step true) => ht ▸ List.mem_cons_self
    · exact Or.inr (List.mem_cons_of_mem _ h)

/-- A series that sees a requested shutdown makes no further attempt. -/
theorem generation_next {api : BrokerApi β} {s : Series β} {t : Turn β} (ht : t ≠ .step false) :
    (next api s t).connection.generation = s.connection.generation := by
  cases t with
  | step shutdown =>
    unfold next
    dsimp only
    split
    · rename_i r' c' hstep
      generalize s.retry = r at hstep
      cases Retry.stepped_of_step? hstep with
      | begun flag => exact absurd (congrArg Turn.step flag) ht
      | went _ => exact (Attempt.step_change api.logged _ _).generation_eq
      | _ => rfl
    · rfl
  | resume | outside _ => rfl

theorem generation_after (api : BrokerApi β) {turns : List (Turn β)} (ht : .step false ∉ turns) :
    ∀ s : Series β, (after api s turns).connection.generation = s.connection.generation := by
  induction turns with
  | nil => exact fun _ => rfl
  | cons t turns ih =>
    intro s
    have hne : t ≠ .step false := fun heq => ht (heq ▸ List.mem_cons_self)
    exact (ih (fun h => ht (List.mem_cons_of_mem _ h)) (next api s t)).trans (generation_next hne)

/-! ## The end -/

/-- A bound on the steps that are left of an attempt, when `calls` set up a session. -/
def attemptLeft (calls : Nat) : Attempt → Nat
  | .opening => calls + 2
  | .settingUp left => left.length + 1
  | .undoing _ => 1
  | .over _ => 0

/-- A bound on the rounds that are left of a series. -/
def roundsLeft (limit calls : Nat) : Retry → Nat
  | .trying n => (limit - n) * (calls + 5) + (calls + 5)
  | .attempting n a => (limit - n) * (calls + 5) + (attemptLeft calls a + 2)
  | .pausing n => (limit - n) * (calls + 5) + 1
  | .done _ => 0

theorem attemptLeft_step (api : BrokerApi β) {a : Attempt} (ha : a.isOver = false) (c : Connection β) :
    attemptLeft (setupCalls c.bindings c.config).length (a.step api c).1 <
      attemptLeft (setupCalls c.bindings c.config).length a := by
  match a, ha with
  | .opening, _ =>
    rcases hcall : api.openSession c.generation c.notify c.broker with ⟨e | ⟨⟩, b⟩
    · simp [Attempt.step, hcall, attemptLeft]
    · simp [Attempt.step, hcall, attemptLeft]
  | .settingUp [], _ => exact Nat.zero_lt_one
  | .settingUp (call :: left), _ =>
    rcases hcall : call.run api c.generation c.broker with ⟨e | ⟨⟩, b⟩
    · simp [Attempt.step, hcall, attemptLeft]
    · simp [Attempt.step, hcall, attemptLeft]
  | .undoing e, _ => exact Nat.zero_lt_one

/-- A round: something may happen to the broker, the series makes a step, and then its pause ends if it is in
one. -/
def round (t : (β → β) × Bool) : List (Turn β) := [.outside t.1, .step t.2, .resume]

/-- A step brings a series closer to its end. -/
theorem roundsLeft_step (hstep : r.step? api shutdown c = some (r', c')) :
    roundsLeft c.config.maxAttempts (setupCalls c.bindings c.config).length r' <
      roundsLeft c.config.maxAttempts (setupCalls c.bindings c.config).length r := by
  cases Retry.stepped_of_step? hstep with
  | @went n a ha =>
    have hattempt := attemptLeft_step api ha c
    simp only [roundsLeft]
    omega
  | _ =>
    simp only [roundsLeft, attemptLeft]
    omega

/-- There is no step only in a pause and at the end. -/
theorem step?_eq_none (h : r.step? api shutdown c = none) :
    (∃ n, r = .pausing n) ∨ ∃ result, r = .done result := by
  cases r with
  | trying n => cases shutdown <;> cases h
  | attempting n a =>
    match a with
    | .opening | .settingUp _ | .undoing _ | .over (.ok ()) | .over (.error _) => cases h
  | pausing n => exact Or.inl ⟨n, rfl⟩
  | done result => exact Or.inr ⟨result, rfl⟩

/-- So does the end of a pause. -/
theorem roundsLeft_resume {limit delay g k : Nat} {signs : List Sign} (h : Stage limit delay g r k signs)
    (calls : Nat) : roundsLeft limit calls r.resume ≤ roundsLeft limit calls r ∧
      ∀ n, r = .pausing n → roundsLeft limit calls r.resume < roundsLeft limit calls r := by
  cases h with
  | @pausing failed plain left =>
    obtain ⟨m, hm⟩ := Nat.exists_eq_add_of_lt left
    have hlt : roundsLeft limit calls (.trying (failed.length + 1)) <
        roundsLeft limit calls (.pausing failed.length) := by
      have hless : limit - failed.length = m + 1 ∧ limit - (failed.length + 1) = m := by omega
      simp only [roundsLeft, hless, Nat.succ_mul]
      omega
    exact ⟨Nat.le_of_lt hlt, fun _ _ => hlt⟩
  | _ => exact ⟨Nat.le_refl _, nofun⟩

theorem roundsLeft_start (config : WorkerConfig) (calls : Nat) :
    roundsLeft config.maxAttempts calls (.start config) ≤ config.maxAttempts * (calls + 5) := by
  unfold Retry.start
  split
  · exact Nat.zero_le _
  · rename_i h
    obtain ⟨m, hm⟩ := Nat.exists_eq_succ_of_ne_zero h
    rw [hm, Nat.succ_mul]
    exact Nat.le_refl _

/-- Each round brings a series closer to its end. -/
theorem roundsLeft_round (api : BrokerApi β) {c : Connection (Logged β)} {s : Series β} (h : Begun c s)
    (t : (β → β) × Bool) :
    let left := fun s : Series β => roundsLeft c.config.maxAttempts (setupCalls c.bindings c.config).length s.retry
    left (after api s (round t)) ≤ left s - 1 := by
  intro left
  have hdisturbed : Begun c (next api s (.outside t.1)) := begun_next api h _
  have hstepped : Begun c (next api (next api s (.outside t.1)) (.step t.2)) := begun_next api hdisturbed _
  show roundsLeft _ _ (next api (next api s (.outside t.1)) (.step t.2)).retry.resume ≤ roundsLeft _ _ s.retry - 1
  have hresume := roundsLeft_resume hstepped.stage (setupCalls c.bindings c.config).length
  cases hstep : s.retry.step? api.logged t.2 (next api s (.outside t.1)).connection with
  | some result =>
    obtain ⟨r', c'⟩ := result
    have hnext : (next api (next api s (.outside t.1)) (.step t.2)).retry = r' := by
      rw [next.eq_1, show (next api s (.outside t.1)).retry = s.retry from rfl, hstep]
    have hlt := roundsLeft_step hstep
    rw [hdisturbed.config, hdisturbed.bindings] at hlt
    rw [hnext] at hresume ⊢
    omega
  | none =>
    have hnext : (next api (next api s (.outside t.1)) (.step t.2)).retry = s.retry := by
      rw [next.eq_1, show (next api s (.outside t.1)).retry = s.retry from rfl, hstep]
      rfl
    rw [hnext] at hresume ⊢
    rcases step?_eq_none hstep with ⟨n, hn⟩ | ⟨result, hdone⟩
    · have := hresume.2 n hn
      omega
    · rw [hdone]
      exact Nat.zero_le _

theorem roundsLeft_rounds (api : BrokerApi β) {c : Connection (Logged β)} (rounds : List ((β → β) × Bool)) :
    ∀ {s : Series β}, Begun c s →
      roundsLeft c.config.maxAttempts (setupCalls c.bindings c.config).length
          (after api s (rounds.flatMap round)).retry ≤
        roundsLeft c.config.maxAttempts (setupCalls c.bindings c.config).length s.retry - rounds.length := by
  induction rounds with
  | nil => exact fun _ => Nat.le_refl _
  | cons t rounds ih =>
    intro s h
    have hround := roundsLeft_round api h t
    have hrest := ih (begun_after api c (round t) h)
    rw [List.flatMap_cons, List.length_cons]
    show roundsLeft _ _ ((round t ++ rounds.flatMap round).foldl (next api) s).retry ≤ _
    rw [List.foldl_append]
    refine Nat.le_trans hrest ?_
    dsimp only at hround
    omega

/-- A series ends after no more rounds than it is given. -/
theorem ends (api : BrokerApi β) (c : Connection (Logged β)) {rounds : List ((β → β) × Bool)}
    (h : Retry.bound c.bindings c.config ≤ rounds.length) :
    ∃ result, (after api (start c) (rounds.flatMap round)).retry = .done result := by
  have hleft := roundsLeft_rounds api rounds (begun_start c)
  have hstart := roundsLeft_start c.config (setupCalls c.bindings c.config).length
  have hzero : roundsLeft c.config.maxAttempts (setupCalls c.bindings c.config).length
      (after api (start c) (rounds.flatMap round)).retry = 0 := by
    unfold Retry.bound at h
    show _ = 0
    have : (start c).retry = .start c.config := rfl
    rw [this] at hleft
    omega
  cases hr : (after api (start c) (rounds.flatMap round)).retry with
  | done result => exact ⟨result, rfl⟩
  | _ =>
    rw [hr] at hzero
    simp only [roundsLeft] at hzero
    omega

/-! ## What a series comes to -/

/-- The last failure in words, if there is one. -/
def lastMessage (results : List (Except WorkerError Unit)) : String :=
  match results.getLast? with
  | some (.error e) => e.message
  | _ => ""

namespace Ended

variable {limit delay g : Nat} {results : List (Except WorkerError Unit)} {result : Except WorkerError Unit}
  {signs : List Sign}

theorem length_le (h : Ended limit delay g results result signs) : results.length ≤ limit := by
  cases h with
  | without h => exact Nat.zero_le _
  | heeded plain left => exact Nat.le_of_lt left
  | succeeded plain left | unusable plain left _ =>
    rw [List.length_append]
    exact left
  | exhausted plain last _ =>
    rw [List.length_append]
    exact Nat.le_of_eq last

/-- All attempts but the last one failed plainly. -/
theorem plain (h : Ended limit delay g results result signs) : ∀ r ∈ results.dropLast, FailsPlainly r := by
  cases h with
  | without h => exact nofun
  | heeded plain left => exact fun r hr => plain r (List.dropLast_subset _ hr)
  | succeeded plain | unusable plain | exhausted plain =>
    rw [List.dropLast_concat]
    exact plain

/-- The signs are those of the attempts with the pauses between them; one more pause and its end stand behind the
attempts if a shutdown is heeded. -/
theorem signs_eq (h : Ended limit delay g results result signs) :
    (result = .error .shutdown → signs = paced delay g results ++ [.heeds]) ∧
      (result ≠ .error .shutdown → signs = (paced delay g results).dropLast) := by
  have hdrop : ∀ failed last, (paced delay g (failed ++ [last])).dropLast =
      paced delay g failed ++ [.starts (g + failed.length + 1), .ends last] := by
    intro failed last
    rw [paced_concat, List.dropLast_append_of_ne_nil (by simp)]
    rfl
  cases h with
  | without h => exact ⟨nofun, fun _ => rfl⟩
  | heeded plain left => exact ⟨fun _ => rfl, fun hne => absurd rfl hne⟩
  | succeeded plain | exhausted plain => exact ⟨nofun, fun _ => (hdrop _ _).symm⟩
  | unusable plain left topology =>
    refine ⟨?_, fun _ => (hdrop _ _).symm⟩
    rintro heq
    cases heq
    cases topology

/-- A series succeeds just if its last attempt does. -/
theorem ok_iff (h : Ended limit delay g results result signs) :
    result = .ok () ↔ results.getLast? = some (.ok ()) := by
  cases h with
  | without h => exact ⟨nofun, nofun⟩
  | heeded plain left =>
    exact ⟨nofun, fun hlast => absurd (plain _ (List.mem_of_getLast? hlast)) not_failsPlainly_ok⟩
  | succeeded plain => simp
  | unusable plain | exhausted plain => simp

/-- A series reports a topology that is not usable just if its last attempt does. -/
theorem topology_iff (h : Ended limit delay g results result signs) (reason : String) :
    result = .error (.topology reason) ↔ results.getLast? = some (.error (.topology reason)) := by
  cases h with
  | without h => exact ⟨nofun, nofun⟩
  | heeded plain left =>
    exact ⟨nofun, fun hlast => absurd (plain _ (List.mem_of_getLast? hlast)) (not_failsPlainly_topology rfl)⟩
  | succeeded plain => simp
  | unusable plain => simp
  | exhausted plain last h =>
    refine ⟨nofun, fun hlast => ?_⟩
    rw [List.getLast?_concat] at hlast
    cases hlast
    cases h

/-- A series is exhausted just if all attempts were made and failed plainly. -/
theorem exhausted_iff (h : Ended limit delay g results result signs) (n : Nat) (text : String) :
    result = .error (.reconnectExhausted n text) ↔
      n = limit ∧ text = lastMessage results ∧ results.length = limit ∧ ∀ r ∈ results, FailsPlainly r := by
  cases h with
  | without h =>
    refine ⟨fun heq => ?_, ?_⟩
    · cases heq
      exact ⟨h.symm, rfl, h.symm, nofun⟩
    · rintro ⟨rfl, rfl, -, -⟩
      rw [h]
      rfl
  | heeded plain left => exact ⟨nofun, fun ⟨_, _, hlength, _⟩ => absurd hlength (Nat.ne_of_lt left)⟩
  | succeeded plain =>
    exact ⟨nofun, fun ⟨_, _, _, hplain⟩ => absurd (hplain _ List.mem_concat_self) not_failsPlainly_ok⟩
  | unusable plain left topology =>
    refine ⟨fun heq => ?_, fun ⟨_, _, _, hplain⟩ =>
      absurd (hplain _ List.mem_concat_self) (not_failsPlainly_topology topology)⟩
    cases heq
    cases topology
  | @exhausted failed e plain last h =>
    have hmessage : lastMessage (failed ++ [.error e]) = e.message := by
      rw [lastMessage, List.getLast?_concat]
    rw [hmessage]
    refine ⟨fun heq => ?_, ?_⟩
    · cases heq
      refine ⟨rfl, rfl, by rw [List.length_append]; exact last, ?_⟩
      exact List.forall_mem_append.mpr ⟨plain, List.forall_mem_singleton.mpr ⟨e, rfl, h⟩⟩
    · rintro ⟨rfl, rfl, -, -⟩
      rfl

/-- A series ends by a shutdown just if attempts were left and all had failed plainly. -/
theorem shutdown_iff (h : Ended limit delay g results result signs) :
    result = .error .shutdown ↔ results.length < limit ∧ ∀ r ∈ results, FailsPlainly r := by
  cases h with
  | without h => exact ⟨nofun, fun ⟨hlength, _⟩ => absurd hlength (by rw [h]; exact Nat.lt_irrefl 0)⟩
  | heeded plain left => exact ⟨fun _ => ⟨left, plain⟩, fun _ => rfl⟩
  | succeeded plain => exact ⟨nofun, fun ⟨_, hplain⟩ => absurd (hplain _ List.mem_concat_self) not_failsPlainly_ok⟩
  | unusable plain left topology =>
    refine ⟨fun heq => ?_, fun ⟨_, hplain⟩ =>
      absurd (hplain _ List.mem_concat_self) (not_failsPlainly_topology topology)⟩
    cases heq
    cases topology
  | exhausted plain last h =>
    refine ⟨nofun, fun ⟨hlength, _⟩ => ?_⟩
    rw [List.length_append, List.length_singleton, last] at hlength
    exact absurd hlength (Nat.lt_irrefl _)

end Ended

/-! ## The main result -/

/-- **Attempts are bounded.** When a series has come to a result, it has made at most the configured number of
attempts, each under the next generation and with one call to open a session. All but the last one failed, not by
a topology that is not usable; between any two there was one pause, and behind the last one only if a shutdown was
heeded in it. The results of the attempts alone say what the series comes to, and a shutdown is reported only if
one was seen. A series that sees one begins no further attempt, and every series ends. -/
theorem attempts_bounded (api : BrokerApi β) (c : Connection (Logged β)) :
    (∀ (turns : List (Turn β)) (s : Series β) (result : Except WorkerError Unit),
      after api (start c) turns = s → s.retry = .done result →
        ∃ results : List (Except WorkerError Unit),
          results.length ≤ c.config.maxAttempts ∧
          (∀ r ∈ results.dropLast, FailsPlainly r) ∧
          s.connection.generation = c.generation + results.length ∧
          attempts s.connection.broker.log =
            attempts c.broker.log ++ List.range' (c.generation + 1) results.length ∧
          (result = .error .shutdown →
            s.signs = paced c.config.reconnectDelay c.generation results ++ [.heeds] ∧ .step true ∈ turns) ∧
          (result ≠ .error .shutdown → s.signs = (paced c.config.reconnectDelay c.generation results).dropLast) ∧
          (result = .ok () ↔ results.getLast? = some (.ok ())) ∧
          (∀ reason, result = .error (.topology reason) ↔ results.getLast? = some (.error (.topology reason))) ∧
          (∀ n text, result = .error (.reconnectExhausted n text) ↔
            n = c.config.maxAttempts ∧ text = lastMessage results ∧
              results.length = c.config.maxAttempts ∧ ∀ r ∈ results, FailsPlainly r) ∧
          (result = .error .shutdown ↔
            results.length < c.config.maxAttempts ∧ ∀ r ∈ results, FailsPlainly r)) ∧
    (∀ (s : Series β) (later : List (Turn β)), .step false ∉ later →
      (after api s later).connection.generation = s.connection.generation) ∧
    ∀ rounds : List ((β → β) × Bool), Retry.bound c.bindings c.config ≤ rounds.length →
      ∃ result, (after api (start c) (rounds.flatMap round)).retry = .done result := by
  refine ⟨?_, fun s later hlater => generation_after api hlater s, fun rounds h => ends api c h⟩
  rintro turns s result rfl hdone
  have hbegun := begun_after api c turns (begun_start c)
  have hstage := hbegun.stage
  rw [hdone] at hstage
  generalize hk : (after api (start c) turns).connection.generation = k at hstage
  generalize hsigns : (after api (start c) turns).signs = signs at hstage
  cases hstage with
  | @done results _ _ hended =>
    have hnumbered := hbegun.numbered.attempts_eq (by rw [hdone]; rfl)
    rw [hk, Nat.add_sub_cancel_left] at hnumbered
    refine ⟨results, hended.length_le, hended.plain, rfl, hnumbered, fun hresult => ?_, hended.signs_eq.2,
      hended.ok_iff, hended.topology_iff, hended.exhausted_iff, hended.shutdown_iff⟩
    have heq := hended.signs_eq.1 hresult
    have hheeds : .heeds ∈ (after api (start c) turns).signs := by
      rw [hsigns, heq]
      exact List.mem_concat_self
    exact ⟨heq, (heeds_after hheeds).resolve_left nofun⟩

/-- A series whose two attempts are refused, with a pause between them; one that heeds a shutdown in that pause and
begins nothing after it; and one that is given as many rounds as there may be. -/
theorem attempts_bounded_refused :
    let config : WorkerConfig := (WorkerConfig.standard "1").withReconnect 2 50
    let broker : Broker := { Broker.withExchanges ["a"] with refusals := 2 }
    let c : Connection (Logged Broker) := .closed [⟨"a", "q", "k"⟩] config true ⟨broker, []⟩
    let first : List (Turn Broker) := List.replicate 3 (.step false)
    let refused := after (Broker.api 0) (start c) (first ++ [.resume] ++ first)
    let stopped := after (Broker.api 0) (start c) (first ++ [.step true])
    (∃ text, refused.retry = .done (.error (.reconnectExhausted 2 text)) ∧
      ∃ results, refused.connection.generation = 0 + results.length ∧ text = lastMessage results ∧
        results.length = 2 ∧ refused.signs = (paced 50 0 results).dropLast) ∧
      (stopped.retry = .done (.error .shutdown) ∧
        ∃ results, stopped.connection.generation = 0 + results.length ∧ results.length < 2 ∧
          stopped.signs = paced 50 0 results ++ [.heeds]) ∧
      (after (Broker.api 0) (after (Broker.api 0) (start c) first)
        [.step true, .resume]).connection.generation = 1 ∧
      (Retry.bound c.bindings c.config = 19 ∧
        ∃ result, (after (Broker.api 0) (start c) ((List.replicate 19 (id, false)).flatMap round)).retry =
          .done result) := by
  intro config broker c first refused stopped
  have h := attempts_bounded (Broker.api 0) c
  obtain ⟨results, -, -, hgeneration, -, -, hsigns, -, -, hexhausted, -⟩ :=
    h.1 (first ++ [.resume] ++ first) refused _ rfl rfl
  obtain ⟨results', -, -, hgeneration', -, hsigns', -, -, -, -, hshutdown⟩ :=
    h.1 (first ++ [.step true]) stopped (.error .shutdown) rfl rfl
  have hlast := (hexhausted 2 _).mp rfl
  have hlater : Turn.step false ∉ ([.step true, .resume] : List (Turn Broker)) := by simp
  exact ⟨⟨_, rfl, results, hgeneration, hlast.2.1, hlast.2.2.1, hsigns nofun⟩, ⟨rfl, results', hgeneration',
    (hshutdown.mp rfl).1, (hsigns' rfl).1⟩, (h.2.1 _ _ hlater).trans rfl, rfl,
    h.2.2 (List.replicate 19 (id, false)) (Nat.le_refl 19)⟩

end Series
end EventCourier
