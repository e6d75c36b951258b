import EventCourier.Proofs.Broker.Notices
import EventCourier.Proofs.Connection.Series
import EventCourier.Proofs.Worker.Sessions

/-!
# One loss, one reconnection

A notice of the session that a connection holds makes it close that session and begin one series of attempts
(`upon_current`); any other notice is ignored (`ignores_iff`). A connection that has lost a session is beyond its
generation, and whatever it does next keeps it there (`beyond_change`), so that no notice up to that generation counts
again. Hence no session is lost twice, and sessions are lost only after they were established
(`increasing_losses`, `losses_sublist`).
-/

namespace EventCourier

variable {β : Type}

open Connection
open scoped List

namespace Connection

variable {api : BrokerApi β} {c c' : Connection β} {g : Nat} {n : Notice} {l : Option (Tag × Outcome)}
  {a a' : Option Attempt}

/-! ## Beyond a session -/

/-- A connection does not hold the session of a generation, and will not again. -/
def Beyond (c : Connection β) (g : Nat) (a : Option Attempt) : Prop :=
  g < c.generation ∨ g = c.generation ∧ c.session = none ∧ a = none

theorem beyond_change (hc : Change api c c' l a a') (h : c.Beyond g a) : c'.Beyond g a' := by
  rcases h with hlt | ⟨rfl, hnone, rfl⟩
  · exact Or.inl (Nat.lt_of_lt_of_le hlt hc.generation_le)
  · cases hc with
    | quiet hs => exact Or.inr ⟨hs.generation.symm, hs.session.trans hnone, rfl⟩
    | started hs =>
      have hgeneration : c'.generation = c.generation + 1 :=
        hs.generation.trans (congrArg (· + 1) (release_generation api c))
      exact Or.inl (by omega)
    | released hs =>
      exact Or.inr ⟨(hs.generation.trans (release_generation api c)).symm,
        hs.session.trans (release_session api c), rfl⟩
    | resolved session => cases hnone.symm.trans session

/-- A notice counts just if it is of the session that is held. -/
theorem lose_eq_true_iff : (c.lose api n).1 = true ↔ c.session.isSome = true ∧ n.generation = c.generation := by
  unfold lose
  split <;> simp_all

/-- A notice of the current session leaves no session, and the generation as it is. -/
theorem lose_current (h : (c.lose api n).1 = true) :
    (c.lose api n).2.session = none ∧ (c.lose api n).2.generation = c.generation := by
  unfold lose at h ⊢
  split
  · exact ⟨release_session api _, release_generation api _⟩
  · rename_i hstale
    simp [hstale] at h

theorem beyond_lose (h : (c.lose api n).1 = true) : (c.lose api n).2.Beyond n.generation none := by
  obtain ⟨hsession, hgeneration⟩ := lose_current h
  exact Or.inr ⟨(lose_eq_true_iff.mp h).2.trans hgeneration.symm, hsession, rfl⟩

/-- A change establishes a session only where there was none. -/
theorem Change.session_cases (hc : Change api c c' l a a') (hs : c.Steady a) :
    c.session = none ∨ c'.session = none ∨ c'.session = c.session := by
  cases hc with
  | started h => exact Or.inr (Or.inl (h.session.trans (release_session api c)))
  | released h => exact Or.inr (Or.inl (h.session.trans (release_session api c)))
  | established h => exact Or.inl (hs.free _ rfl rfl)
  | _ => rename_i h; exact Or.inr (Or.inr h.session)

end Connection

/-! ## What follows a notice -/

/-- What a notice leads to: a series of attempts if it is of the session that is held, and a success at once if it is
not. -/
def Series.upon (api : BrokerApi β) (c : Connection (Logged β)) (n : Notice) : Series β :=
  ⟨if (c.lose api.logged n).1 then .start c.config else .done (.ok ()), (c.lose api.logged n).2, []⟩

/-- A notice is ignored: it leads to a success at once, and connection, journal, broker and log stay as they are. -/
def Connection.Ignores (api : BrokerApi β) (c : Connection (Logged β)) (n : Notice) : Prop :=
  Series.upon api c n = ⟨.done (.ok ()), c, []⟩

section

variable {api : BrokerApi β} {c : Connection (Logged β)} {n : Notice} {g : Nat}

/-- Just the notices of other sessions than the one that is held are ignored. -/
theorem ignores_iff : c.Ignores api n ↔ c.session = none ∨ n.generation ≠ c.generation := by
  have hiff : (c.lose api.logged n).1 = true ↔ c.session.isSome = true ∧ n.generation = c.generation :=
    lose_eq_true_iff
  have hstale : (c.lose api.logged n).1 = false → (c.lose api.logged n).2 = c := Worker.lose_stale
  unfold Ignores Series.upon
  cases hlost : (c.lose api.logged n).1 with
  | true =>
    obtain ⟨hheld, hcurrent⟩ := hiff.mp hlost
    obtain ⟨g, hg⟩ := Option.isSome_iff_exists.mp hheld
    have hstart : Retry.start c.config ≠ .done (.ok ()) := by
      unfold Retry.start
      split <;> simp
    simp [hg, hcurrent, hstart]
  | false =>
    rw [hstale hlost]
    simp only [Bool.false_eq_true, if_false, true_iff]
    by_contra hnot
    rw [not_or, not_not] at hnot
    rw [hiff.mpr ⟨Option.isSome_iff_ne_none.mpr hnot.1, hnot.2⟩] at hlost
    cases hlost

/-- Beyond a session all notices up to it are ignored. -/
theorem ignores_of_beyond {a : Option Attempt} (h : c.Beyond g a) (hn : n.generation ≤ g) : c.Ignores api n := by
  rw [ignores_iff]
  rcases h with hlt | ⟨-, hnone, -⟩
  · exact Or.inr (by omega)
  · exact Or.inl hnone

/-- A notice of the session that is held makes the connection close it and begin one series of attempts. -/
theorem upon_current (hg : c.session = some g) (hn : n.generation = c.generation) :
    ∃ c', Series.upon api c n = Series.start c' ∧ c'.session = none ∧ c'.generation = c.generation ∧
      c'.state = .disconnected ∧ c'.bindings = c.bindings ∧ c'.config = c.config ∧
      c'.broker = ⟨(api.close g c.broker.broker).2, c.broker.log ++ [.closed g]⟩ := by
  have hlost : (c.lose api.logged n).1 = true := lose_eq_true_iff.mpr ⟨by simp [hg], hn⟩
  refine ⟨(c.lose api.logged n).2, ?_, ?_⟩
  · simp only [Series.upon, hlost, if_true, Series.start, (lose_change api.logged c n).config_eq]
  · simp [lose, release, publish, mark, record, hg, hn, BrokerApi.logged]

end

namespace Use

variable {api : BrokerApi β} {s : Use × Connection (Logged β)} {t : Turn β}

/-- To use a connection by a notice is to go through what the notice leads to. -/
theorem next_lose (api : BrokerApi β) (c : Connection (Logged β)) (n : Notice) :
    next api (.lose n) (.idle, c) =
      (if (c.lose api.logged n).1 then .retrying (Series.upon api c n).retry else .idle,
        (Series.upon api c n).connection) := by
  unfold next Series.upon
  dsimp only
  split <;> rfl

theorem beyond_next {g : Nat} (t : Turn β) (h : s.2.Beyond g s.1.underway) :
    (next api t s).2.Beyond g (next api t s).1.underway := by
  rcases next_change api t s with ⟨l, hc⟩ | ⟨f, -, heq⟩
  · exact beyond_change hc h
  · rw [heq]
    exact h

theorem beyond_after {g : Nat} (api : BrokerApi β) (turns : List (Turn β)) (h : s.2.Beyond g s.1.underway) :
    (after api turns s).2.Beyond g (after api turns s).1.underway :=
  after_keeps_of_mem api (P := fun s => s.2.Beyond g s.1.underway) (fun t _ _ h => beyond_next t h) h

/-- A reconnection leaves a connection beyond the session that was lost. -/
theorem beyond_next_lose {c : Connection (Logged β)} {n : Notice} (h : (c.lose api.logged n).1 = true) :
    (next api (.lose n) (.idle, c)).2.Beyond n.generation (next api (.lose n) (.idle, c)).1.underway := by
  rw [next_lose, if_pos h]
  show (c.lose api.logged n).2.Beyond n.generation (Series.upon api c n).retry.underway
  have hstart : (Series.upon api c n).retry = .start c.config := if_pos h
  rw [hstart, Retry.start_underway]
  exact beyond_lose h

theorem steady_next (api : BrokerApi β) (t : Turn β) (h : s.2.Steady s.1.underway) :
    (next api t s).2.Steady (next api t s).1.underway := by
  rcases next_change api t s with ⟨l, hc⟩ | ⟨f, -, heq⟩
  · exact hc.steady h
  · rw [heq]
    exact ⟨h.current, h.free⟩

/-! ## Losses are counted -/

/-- The generation of the session with whose loss a turn begins a reconnection. -/
def lostIn (api : BrokerApi β) (t : Turn β) (s : Use × Connection (Logged β)) : Option Nat :=
  match t, s with
  | .lose n, (.idle, c) => if (c.lose api.logged n).1 then some c.generation else none
  | _, _ => none

/-- The session that a turn establishes. -/
def establishedIn (api : BrokerApi β) (t : Turn β) (s : Use × Connection (Logged β)) : Option Nat :=
  if s.2.session = none then (next api t s).2.session else none

/-- The generations of the sessions with whose losses reconnections begin, in order. -/
def losses (api : BrokerApi β) (s : Use × Connection (Logged β)) : List (Turn β) → List Nat
  | [] => []
  | t :: turns => (lostIn api t s).toList ++ losses api (next api t s) turns

/-- The sessions that are established, in order. -/
def established (api : BrokerApi β) (s : Use × Connection (Logged β)) : List (Turn β) → List Nat
  | [] => []
  | t :: turns => (establishedIn api t s).toList ++ established api (next api t s) turns

/-- With the loss of a session a connection that held it is left without. -/
theorem lostIn_eq_some {g : Nat} (hs : s.2.Steady s.1.underway) (h : lostIn api t s = some g) :
    s.2.session = some g ∧ (next api t s).2.session = none ∧
      (next api t s).2.Beyond g (next api t s).1.underway := by
  unfold lostIn at h
  split at h
  · rename_i n c
    rw [Option.ite_none_right_eq_some] at h
    obtain ⟨hlost, hg⟩ := h
    obtain ⟨hheld, hcurrent⟩ := lose_eq_true_iff.mp hlost
    obtain ⟨g', hg'⟩ := Option.isSome_iff_exists.mp hheld
    have hsession : g' = c.generation := hs.current g' hg'
    have hbeyond := beyond_next_lose hlost
    rw [hcurrent, Option.some.inj hg] at hbeyond
    exact ⟨by rw [← Option.some.inj hg, ← hsession]; exact hg', (lose_current hlost).1, hbeyond⟩
  · cases h

/-- A turn leaves the session that was held, or the one that it establishes, or none. -/
theorem session_next (t : Turn β) (hs : s.2.Steady s.1.underway) :
    (next api t s).2.session.toList <+ s.2.session.toList ++ (establishedIn api t s).toList := by
  have hcases : s.2.session = none ∨ (next api t s).2.session = none ∨ (next api t s).2.session = s.2.session := by
    rcases next_change api t s with ⟨l, hc⟩ | ⟨f, -, heq⟩
    · exact hc.session_cases hs
    · rw [heq]
      exact Or.inr (Or.inr rfl)
  unfold establishedIn
  rcases hcases with h | h | h
  · rw [h, if_pos rfl]
    exact List.Sublist.refl _
  · rw [h]
    exact List.nil_sublist _
  · rw [h]
    exact List.sublist_append_left _ _

/-- **Only sessions that were established are lost**, in the order in which they were, and each of them once. -/
theorem losses_sublist (api : BrokerApi β) (turns : List (Turn β)) : ∀ {s : Use × Connection (Logged β)},
    s.2.Steady s.1.underway → losses api s turns <+ s.2.session.toList ++ established api s turns := by
  induction turns with
  | nil => intro s _; exact List.nil_sublist _
  | cons t turns ih =>
    intro s hs
    have hrest := ih (steady_next api t hs)
    simp only [losses, established]
    cases hlost : lostIn api t s with
    | none =>
      rw [Option.toList_none, List.nil_append, ← List.append_assoc]
      exact hrest.trans ((session_next t hs).append (List.Sublist.refl _))
    | some g =>
      obtain ⟨hheld, hnone, -⟩ := lostIn_eq_some hs hlost
      rw [hnone, Option.toList_none, List.nil_append] at hrest
      rw [hheld, Option.toList_some]
      exact (hrest.trans (List.sublist_append_right _ _)).append_left [g]

/-- Beyond a session only later ones are lost. -/
theorem lt_of_mem_losses {g k : Nat} (turns : List (Turn β)) : ∀ {s : Use × Connection (Logged β)},
    s.2.Steady s.1.underway → s.2.Beyond g s.1.underway → k ∈ losses api s turns → g < k := by
  induction turns with
  | nil => intro s _ _ hk; cases hk
  | cons t turns ih =>
    intro s hs hbeyond hk
    rcases List.mem_append.mp hk with hk | hk
    · obtain ⟨hheld, -⟩ := lostIn_eq_some hs (Option.mem_toList.mp hk)
      rcases hbeyond with hlt | ⟨-, hnone, -⟩
      · rw [hs.current k hheld]
        exact hlt
      · cases hnone.symm.trans hheld
    · exact ih (steady_next api t hs) (beyond_next t hbeyond) hk

/-- **No session is lost twice.** -/
theorem increasing_losses (turns : List (Turn β)) : ∀ {s : Use × Connection (Logged β)},
    s.2.Steady s.1.underway → (losses api s turns).Pairwise (· < ·) := by
  induction turns with
  | nil => intro s _; exact List.Pairwise.nil
  | cons t turns ih =>
    intro s hs
    have hrest := ih (steady_next api t hs)
    simp only [losses]
    cases hlost : lostIn api t s with
    | none => exact hrest
    | some g =>
      obtain ⟨-, -, hbeyond⟩ := lostIn_eq_some hs hlost
      rw [Option.toList_some, List.singleton_append, List.pairwise_cons]
      exact ⟨fun k hk => lt_of_mem_losses turns (steady_next api t hs) hbeyond hk, hrest⟩

end Use

/-! ## The main result -/

/-- **One loss, one reconnection.** In every state of a connection on any broker, a notice of another session than the
one it holds is ignored; one of that session makes it close the session and begin one series of attempts, and from then
on, whatever the series comes to and however the connection is used, every notice up to that one's generation is
ignored. So a connection that was not open before reconnects for each session at most once, and not more often than
sessions were established. The in-memory broker sends at most one notice for each session, as long as all sessions are
asked for under different generations, and none after the session was closed. -/
theorem one_cycle_per_loss (api : BrokerApi β) :
    (∀ (c : Connection (Logged β)) (n : Notice),
      (c.session = none ∨ n.generation ≠ c.generation → c.Ignores api n) ∧
      ∀ g, c.session = some g → n.generation = c.generation →
        (∃ c', Series.upon api c n = Series.start c' ∧ c'.session = none ∧ c'.generation = c.generation ∧
          c'.state = .disconnected ∧ c'.bindings = c.bindings ∧ c'.config = c.config ∧
          c'.broker = ⟨(api.close g c.broker.broker).2, c.broker.log ++ [.closed g]⟩) ∧
        ∀ turns u c', Use.after api (.lose n :: turns) (.idle, c) = (u, c') →
          ∀ m : Notice, m.generation ≤ n.generation → c'.Ignores api m) ∧
    (∀ (bindings : List Binding) (config : WorkerConfig) (notify : Bool) (state : β) (turns : List (Use.Turn β)),
      let s : Use × Connection (Logged β) := (.idle, .closed bindings config notify ⟨state, []⟩)
      (Use.losses api s turns).Pairwise (· < ·) ∧ Use.losses api s turns <+ Use.established api s turns ∧
        (Use.losses api s turns).length ≤ (Use.established api s turns).length) ∧
    ∀ (exchanges : List String) (acts : List Broker.Act), (Broker.askedFor acts).Nodup →
      ((Broker.notices (.withExchanges exchanges) acts).map (·.generation)).Nodup ∧
      ∀ before g later, acts = before ++ .close g :: later → g ∈ Broker.askedFor before →
        ∃ rest, Broker.notices (.withExchanges exchanges) acts =
          Broker.notices (.withExchanges exchanges) (before ++ [.close g]) ++ rest ∧
            ∀ n ∈ rest, n.generation ≠ g := by
  refine ⟨?_, ?_, ?_⟩
  · intro c n
    refine ⟨ignores_iff.mpr, ?_⟩
    intro g hg hn
    refine ⟨upon_current hg hn, ?_⟩
    intro turns u c' hafter m hm
    have hlost : (c.lose api.logged n).1 = true := lose_eq_true_iff.mpr ⟨by simp [hg], hn⟩
    have hbeyond := Use.beyond_after api turns (Use.beyond_next_lose hlost)
    rw [show Use.after api turns (Use.next api (.lose n) (.idle, c)) = (u, c') from hafter] at hbeyond
    exact ignores_of_beyond hbeyond hm
  · intro bindings config notify state turns s
    have hsteady : s.2.Steady s.1.underway := .of_none rfl none
    have hsublist := Use.losses_sublist api turns hsteady
    exact ⟨Use.increasing_losses turns hsteady, hsublist, hsublist.length_le⟩
  · intro exchanges acts hasked
    refine ⟨Broker.nodup_notices acts hasked nofun, ?_⟩
    rintro before g later rfl hg
    exact Broker.notices_after_close hasked hg

/-- A connection is opened and lost, and told so three times, the last time after it was opened again; it is lost once
more, and told of that after another notice of the first loss. -/
def lostTwice : List (Use.Turn Broker) :=
  let dropped : Use.Turn Broker := .outside (Broker.Act.drop "cable pulled").run
  .connect :: List.replicate 7 (.step false) ++ [dropped, .lose ⟨1, "cable pulled"⟩, .lose ⟨1, "cable pulled"⟩] ++
    List.replicate 9 (.step false) ++ [.lose ⟨1, "cable pulled"⟩, dropped, .lose ⟨1, "cable pulled"⟩,
      .lose ⟨2, "cable pulled"⟩] ++ List.replicate 9 (.step false)

theorem one_cycle_per_loss_lostTwice :
    let start : Use × Connection (Logged Broker) :=
      (.idle, .closed [⟨"a", "q", "k"⟩] (.standard "1") true ⟨.withExchanges ["a"], []⟩)
    let s := Use.after (Broker.api 0) (lostTwice.take 8) start
    let acts : List Broker.Act := [.openSession 0 1 true, .drop "cable pulled", .drop "cable pulled",
      .openSession 0 2 true, .close 2, .drop "cable pulled"]
    (Use.losses (Broker.api 0) start lostTwice = [1, 2] ∧ Use.established (Broker.api 0) start lostTwice = [1, 2, 3] ∧
      [1, 2] <+ [1, 2, 3]) ∧
      (s.2.session = some 1 ∧ (Use.after (Broker.api 0) [.lose ⟨1, "cable pulled"⟩] (.idle, s.2)).2.Ignores
        (Broker.api 0) ⟨1, "cable pulled"⟩) ∧
      (Broker.notices (.withExchanges []) acts).map (·.generation) = [1] ∧
        ∃ rest, Broker.notices (.withExchanges []) acts = [⟨1, "cable pulled"⟩] ++ rest ∧
          ∀ n ∈ rest, n.generation ≠ 2 := by
  intro start s acts
  have h := one_cycle_per_loss (Broker.api 0)
  have hlosses : Use.losses (Broker.api 0) start lostTwice = [1, 2] := by decide +kernel
  have hestablished : Use.established (Broker.api 0) start lostTwice = [1, 2, 3] := by decide +kernel
  have hsublist := (h.2.1 [⟨"a", "q", "k"⟩] (.standard "1") true (.withExchanges ["a"]) lostTwice).2.1
  have hheld : s.2.session = some 1 := by decide +kernel
  have hignores := ((h.1 s.2 ⟨1, "cable pulled"⟩).2 1 hheld (by decide +kernel)).2 [] _ _ rfl
    ⟨1, "cable pulled"⟩ (Nat.le_refl 1)
  have hclosed := (h.2.2 [] acts (by decide +kernel)).2 (acts.take 4) 2 (acts.drop 5) rfl (by decide +kernel)
  refine ⟨⟨hlosses, hestablished, ?_⟩, ⟨hheld, hignores⟩, by decide +kernel, hclosed⟩
  rw [hlosses, hestablished] at hsublist
  exact hsublist

end EventCourier
