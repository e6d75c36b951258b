import EventCourier.Proofs.Broker.Recovery
import EventCourier.Proofs.Connection.Change
import EventCourier.Proofs.Connection.Setup

/-!
# Calls that fail

A call on a session either fails and leaves the whole broker as it was, or its session is the live one
(`SessionCall.failed`, `SessionCall.on_closed`). Resolving a delivery fails on the live session just if its tag is not
held (`resolve_cases`). What acts may do to the tags of one session is told once (`Onward`, `onward_run`): as long as
nobody opens the session, it hands out tags beyond its last one only. So a tag that was resolved stays free, if it was
not beyond those to come, which it is not if the session was never opened while it held deliveries (`ProperFor`).
-/

namespace EventCourier
namespace Broker

variable {b b' b'' : Broker} {g tag receiver : Nat} {e : WorkerError}

/-! ## Calls on a session -/

/-- A call on a session, other than closing it. -/
inductive SessionCall where
  | setUp (call : SetupCall)
  | resolve (tag : Nat) (outcome : Outcome)
deriving DecidableEq, Repr

/-- Makes the call. -/
def SessionCall.run (receiver g : Nat) : SessionCall → Call Broker
  | .setUp call => call.run (Broker.api receiver) g
  | .resolve tag outcome => (Broker.api receiver).resolve g tag outcome

theorem SessionCall.run_resolve (receiver g tag : Nat) (outcome : Outcome) :
    (SessionCall.resolve tag outcome).run receiver g = Broker.resolve g tag outcome := by
  cases outcome <;> rfl

/-- A delivery is not resolved because the session is closed or the tag is unknown; or it is resolved, and what waits
is handed out. -/
theorem resolve_cases (b : Broker) (g tag : Nat) (outcome : Outcome) :
    b.live ≠ some g ∧ resolve g tag outcome b = (.error channelClosed, b) ∨
      b.live = some g ∧ (∀ h ∈ b.held, h.tag ≠ ⟨g, tag⟩) ∧ resolve g tag outcome b = (.error (unknownTag tag), b) ∨
      b.live = some g ∧ ∃ h ∈ b.held, h.tag = ⟨g, tag⟩ ∧
        resolve g tag outcome b = (.ok (), (b.settle h outcome).dispatch) := by
  unfold resolve onLive
  split
  · rename_i hl
    refine Or.inr ?_
    cases hfound : b.held.find? fun h => h.tag = (⟨g, tag⟩ : Tag) with
    | none =>
      refine Or.inl ⟨hl, fun h hh => ?_, ?_⟩
      · simpa using List.find?_eq_none.mp hfound h hh
      · simp only [hfound]
    | some h =>
      have htag : h.tag = ⟨g, tag⟩ := by simpa using List.find?_some hfound
      refine Or.inr ⟨hl, h, List.mem_of_find?_eq_some hfound, htag, ?_⟩
      simp only [hfound, settle, htag]
  · rename_i hl
    exact Or.inl ⟨hl, rfl⟩

namespace SessionCall

/-- **A call that fails leaves the broker as it was.** -/
theorem failed {call : SessionCall} (h : call.run receiver g b = (.error e, b')) : b' = b := by
  cases call with
  | setUp call => exact (call_failed h).1
  | resolve tag outcome =>
    rw [run_resolve] at h
    rcases resolve_cases b g tag outcome with ⟨-, heq⟩ | ⟨-, -, heq⟩ | ⟨-, _, -, -, heq⟩
    · rw [heq] at h
      cases h
      rfl
    · rw [heq] at h
      cases h
      rfl
    · rw [heq] at h
      cases h

/-- Every call on a session that is not live fails. -/
theorem on_closed (call : SessionCall) (hl : b.live ≠ some g) :
    call.run receiver g b = (.error channelClosed, b) := by
  cases call with
  | setUp call => cases call <;> exact if_neg hl
  | resolve tag outcome =>
    rw [run_resolve]
    exact if_neg hl

/-- On the live session, resolving a delivery fails just if nothing is held under its tag. -/
theorem resolve_fails_iff (hl : b.live = some g) (outcome : Outcome) :
    (∃ e b', (SessionCall.resolve tag outcome).run receiver g b = (.error e, b')) ↔
      ∀ h ∈ b.held, h.tag ≠ ⟨g, tag⟩ := by
  rw [run_resolve]
  rcases resolve_cases b g tag outcome with ⟨hnot, -⟩ | ⟨-, hfree, heq⟩ | ⟨-, h, hh, htag, heq⟩
  · exact absurd hl hnot
  · exact ⟨fun _ => hfree, fun _ => ⟨_, _, heq⟩⟩
  · constructor
    · rintro ⟨e, b', hfailed⟩
      rw [heq] at hfailed
      cases hfailed
    · intro hfree
      exact absurd htag (hfree h hh)

end SessionCall

/-! ## The tags of one session -/

/-- What may happen to the tags of the session `g` while nobody opens it: it can only stay live, and what it holds it
held before or has under a number beyond its last. Resolutions are added to those before. -/
structure Onward (g : Nat) (b b' : Broker) : Prop where
  live : b'.live = some g → b.live = some g ∧ b.nextTag ≤ b'.nextTag
  held : ∀ h ∈ b'.held, h.tag.generation = g → h ∈ b.held ∨
    b.live = some g ∧ b.nextTag < h.tag.value ∧ (b'.live = some g → h.tag.value ≤ b'.nextTag)
  resolutions : b.resolutions <+: b'.resolutions

/-- What the session `g` holds while it is live has numbers up to the last. -/
def Numbered (g : Nat) (b : Broker) : Prop :=
  b.live = some g → ∀ h ∈ b.held, h.tag.generation = g → h.tag.value ≤ b.nextTag

/-- A tag of the session `g` is not held, and is not to come. -/
def Free (g tag : Nat) (b : Broker) : Prop :=
  (∀ h ∈ b.held, h.tag ≠ ⟨g, tag⟩) ∧ (b.live = some g → tag ≤ b.nextTag)

namespace Onward

theorem refl (g : Nat) (b : Broker) : Onward g b b :=
  ⟨fun hl => ⟨hl, Nat.le_refl _⟩, fun _ hh _ => Or.inl hh, List.prefix_refl _⟩

theorem trans (h : Onward g b b') (h' : Onward g b' b'') : Onward g b b'' := by
  refine ⟨fun hl => ?_, fun k hk hg => ?_, h.resolutions.trans h'.resolutions⟩
  · obtain ⟨hl', hle'⟩ := h'.live hl
    obtain ⟨hl, hle⟩ := h.live hl'
    exact ⟨hl, Nat.le_trans hle hle'⟩
  · rcases h'.held k hk hg with hold | ⟨hl', hlt', hbound'⟩
    · rcases h.held k hold hg with hold | ⟨hl, hlt, hbound⟩
      · exact Or.inl hold
      · refine Or.inr ⟨hl, hlt, fun hl'' => ?_⟩
        obtain ⟨hl', hle'⟩ := h'.live hl''
        exact Nat.le_trans (hbound hl') hle'
    · obtain ⟨hl, hle⟩ := h.live hl'
      exact Or.inr ⟨hl, Nat.lt_of_le_of_lt hle hlt', hbound'⟩

/-- The same tags are held, and none is spent. -/
theorem of_same (hl : b'.live = b.live) (ht : b'.nextTag = b.nextTag) (hh : b'.held ⊆ b.held)
    (hr : b.resolutions <+: b'.resolutions) : Onward g b b' := by
  refine ⟨fun hlive => ?_, fun k hk _ => Or.inl (hh hk), hr⟩
  rw [hl] at hlive
  exact ⟨hlive, Nat.le_of_eq ht.symm⟩

theorem alike (h : Alike b b') : Onward g b b' := by
  refine of_same h.live h.nextTag ?_ ?_
  · rw [h.held]
    exact List.Subset.refl _
  · exact h.resolutions ▸ List.prefix_refl _

theorem give {g' : Nat} {c : Consumer} {copy : Copy} {rest : List Copy} (hg : Gives b g' c copy rest) :
    Onward g b (b.give g' c copy rest) := by
  refine ⟨fun hl => ⟨hl, Nat.le_succ _⟩, fun k hk hgen => ?_, List.prefix_refl _⟩
  rcases mem_hold hk with rfl | hk
  · have hl : b.live = some g := hgen ▸ hg.live
    exact Or.inr ⟨hl, Nat.lt_succ_self _, fun _ => Nat.le_refl _⟩
  · exact Or.inl hk

theorem spend : Onward g b b.spend :=
  ⟨fun hl => ⟨hl, Nat.le_succ _⟩, fun _ hh _ => Or.inl hh, List.prefix_refl _⟩

theorem dispatch (b : Broker) : Onward g b b.dispatch :=
  dispatch_keeps (P := Onward g b) (fun h hg => h.trans (give hg)) (fun h => h.trans spend) (refl g b)

theorem settle (b : Broker) (h : Held) (outcome : Outcome) : Onward g b (b.settle h outcome) := by
  have hcleared : Onward g b { b with
      held := b.held.filter fun k => k.tag ≠ h.tag
      resolutions := b.resolutions ++ [⟨h, outcome⟩] } :=
    of_same rfl rfl (List.filter_subset_self _) (List.prefix_append _ _)
  unfold Broker.settle
  split
  · exact hcleared.trans (of_same rfl rfl (List.Subset.refl _) (List.prefix_refl _))
  · exact hcleared

theorem endSession (b : Broker) (g' : Nat) : Onward g b (b.endSession g') := by
  obtain ⟨queues, -, heq⟩ := endSession_eq b g'
  rw [heq]
  refine ⟨fun hl => ?_, fun k hk _ => Or.inl (List.mem_filter.mp hk).1, List.prefix_refl _⟩
  dsimp only at hl ⊢
  by_cases hg : b.live = some g'
  · rw [if_pos hg] at hl
    cases hl
  · rw [if_neg hg] at hl ⊢
    exact ⟨hl, Nat.le_refl _⟩

/-- To open another session leaves the tags of this one alone. -/
theorem openSession {g' : Nat} (hne : g' ≠ g) (receiver : Nat) (notify : Bool) (b : Broker) :
    Onward g b (Broker.openSession receiver g' notify b).2 := by
  rcases openSession_cases receiver g' notify b with ⟨e, b', heq, hsame⟩ | ⟨b', heq, hsame⟩
  · rw [heq]
    exact alike hsame
  · rw [heq]
    refine ⟨fun hl => ?_, fun k hk _ => Or.inl ?_, ?_⟩
    · have hlive : some g' = some g := hsame.live.symm.trans hl
      exact absurd (Option.some.inj hlive) hne
    · exact (congrArg (k ∈ ·) hsame.held).mp hk
    · show b.resolutions <+: b'.resolutions
      exact hsame.resolutions ▸ List.prefix_refl _

theorem numbered (h : Onward g b b') (hb : Numbered g b) : Numbered g b' := by
  intro hl k hk hg
  obtain ⟨hlive, hle⟩ := h.live hl
  rcases h.held k hk hg with hold | ⟨-, -, hbound⟩
  · exact Nat.le_trans (hb hlive k hold hg) hle
  · exact hbound hl

/-- A tag that is free stays free. -/
theorem free (h : Onward g b b') (hb : Free g tag b) : Free g tag b' := by
  refine ⟨fun k hk heq => ?_, fun hl => ?_⟩
  · rcases h.held k hk (by rw [heq]) with hold | ⟨hl, hlt, -⟩
    · exact hb.1 k hold heq
    · have hle := hb.2 hl
      rw [heq] at hlt
      exact absurd hlt (Nat.not_lt.mpr hle)
  · obtain ⟨hlive, hle⟩ := h.live hl
    exact Nat.le_trans (hb.2 hlive) hle

end Onward

/-! ## Acts -/

/-- **What every act does to the tags of a session** but opening that session. -/
theorem onward_run (b : Broker) (a : Act) (ha : ∀ receiver notify, a ≠ .openSession receiver g notify) :
    Onward g b (a.run b) := by
  refine run_keeps (P := Onward g b) (.refl g b) ?published ?opened ?settled ?forwarded ?granted ?limited ?subscribed
    (fun h hsame => h.trans (.alike hsame)) (fun h => h.trans (.dispatch _))
    fun g' h => h.trans (.endSession _ g')
  case published =>
    intro m _
    refine publish_keeps (P := Onward g b) (fun {b' queue} h => ?_) (.refl g b)
    have happended : Onward g b' (b'.append m queue) :=
      .of_same rfl rfl (List.Subset.refl _) (List.prefix_refl _)
    exact (h.trans happended).trans (.dispatch _)
  case opened =>
    rintro receiver g' notify rfl
    exact .openSession (fun hg => ha receiver notify (by rw [hg])) receiver notify b
  case settled => exact fun h _ outcome _ _ => .settle b h outcome
  case forwarded =>
    intro ch id r _ hf
    rw [(forward?_frame hf).1]
    exact .of_same rfl rfl (List.Subset.refl _) (List.prefix_refl _)
  case granted =>
    intro receiver ch _
    rw [(grantTo_spec receiver ch.waiting b ch).1]
    exact .of_same rfl rfl (List.Subset.refl _) (List.prefix_refl _)
  case limited => exact fun _ _ _ _ => .of_same rfl rfl (List.Subset.refl _) (List.prefix_refl _)
  case subscribed => exact fun _ _ _ _ _ _ => .of_same rfl rfl (List.Subset.refl _) (List.prefix_refl _)

theorem onward_after {acts : List Act} (hacts : ∀ receiver notify, .openSession receiver g notify ∉ acts) :
    Onward g b (b.after acts) := by
  induction acts generalizing b with
  | nil => exact .refl g b
  | cons a acts ih =>
    have hfirst : ∀ receiver notify, a ≠ .openSession receiver g notify := by
      rintro receiver notify rfl
      exact hacts receiver notify List.mem_cons_self
    exact (onward_run b a hfirst).trans (ih fun receiver notify h => hacts receiver notify (List.mem_cons_of_mem a h))

/-- The session `g` is not opened while deliveries are held under it. -/
def ProperFor (g : Nat) (b : Broker) : List Act → Prop
  | [] => True
  | a :: acts => (match a with
    | .openSession receiver g' notify =>
      g' = g → (openSession receiver g' notify b).1.isOk = true → b.inFlight g = 0
    | _ => True) ∧ ProperFor g (a.run b) acts

instance decidableProperFor (g : Nat) : ∀ (b : Broker) (acts : List Act), Decidable (ProperFor g b acts)
  | _, [] => .isTrue trivial
  | b, a :: acts =>
    have : Decidable (ProperFor g (a.run b) acts) := decidableProperFor g _ acts
    match a with
    | .openSession _ _ _ => inferInstanceAs (Decidable (_ ∧ _))
    | .publish _ | .drop _ | .refuseNext _ | .refuseAll | .assertExchange _ _ | .declareExchange _ _
    | .declareQueue _ _ | .setPrefetch _ _ | .consume _ _ _ _ | .resolve _ _ _ | .close _ | .forward _ _
    | .grant _ _ => inferInstanceAs (Decidable (True ∧ _))

/-- To open a session that holds nothing, or not to succeed in it, leaves its tags numbered. -/
theorem numbered_openSession (hb : Numbered g b) (receiver : Nat) (notify : Bool)
    (hg : (openSession receiver g notify b).1.isOk = true → b.inFlight g = 0) :
    Numbered g (openSession receiver g notify b).2 := by
  rcases openSession_cases receiver g notify b with ⟨e, b', heq, hsame⟩ | ⟨b', heq, hsame⟩
  · rw [heq]
    intro hl k hk hgen
    rw [hsame.live] at hl
    rw [hsame.held] at hk
    rw [hsame.nextTag]
    exact hb hl k hk hgen
  · rw [heq] at hg ⊢
    intro hl k hk hgen
    have hk : k ∈ b.held := (congrArg (k ∈ ·) hsame.held).mp hk
    have hnone := List.countP_eq_zero.mp (hg rfl) k hk
    exact absurd (beq_iff_eq.mpr hgen) hnone

theorem numbered_after (acts : List Act) : ∀ {b : Broker}, Numbered g b → ProperFor g b acts →
    Numbered g (b.after acts) := by
  induction acts with
  | nil => exact fun hb _ => hb
  | cons a acts ih =>
    intro b hb hproper
    obtain ⟨ha, hacts⟩ := hproper
    refine ih ?_ hacts
    by_cases hopen : ∃ receiver notify, a = .openSession receiver g notify
    · obtain ⟨receiver, notify, rfl⟩ := hopen
      exact numbered_openSession hb receiver notify (ha rfl)
    · exact (onward_run b a fun receiver notify h => hopen ⟨receiver, notify, h⟩).numbered hb

/-- A tag that was resolved is free. -/
theorem free_of_resolved (hb : Numbered g b) {outcome : Outcome} (hok : resolve g tag outcome b = (.ok (), b')) :
    Free g tag b' ∧ ∃ h ∈ b.held, h.tag = ⟨g, tag⟩ ∧ b'.resolutions = b.resolutions ++ [⟨h, outcome⟩] := by
  rcases resolve_cases b g tag outcome with ⟨-, heq⟩ | ⟨-, -, heq⟩ | ⟨hl, h, hh, htag, heq⟩
  · rw [heq] at hok
    cases hok
  · rw [heq] at hok
    cases hok
  · rw [heq] at hok
    cases hok
    have hle : tag ≤ b.nextTag := by
      have hvalue := hb hl h hh (by rw [htag])
      rwa [htag] at hvalue
    have hsettled : Free g tag (b.settle h outcome) ∧
        (b.settle h outcome).resolutions = b.resolutions ++ [⟨h, outcome⟩] := by
      have hfiltered : ∀ k ∈ b.held.filter (fun k => k.tag ≠ h.tag), k.tag ≠ ⟨g, tag⟩ := by
        intro k hk
        rw [← htag]
        exact of_decide_eq_true (List.mem_filter.mp hk).2
      unfold settle
      split <;> exact ⟨⟨hfiltered, fun _ => hle⟩, rfl⟩
    refine ⟨(Onward.dispatch _).free hsettled.1, h, hh, htag, ?_⟩
    rw [← hsettled.2]
    exact dispatch_keeps (P := fun b' => b'.resolutions = (b.settle h outcome).resolutions) (fun h _ => h) id rfl

/-- **Calls that fail change nothing.** A call on a session that is not live fails; on the live one resolving a
delivery fails just if nothing is held under its tag. A tag that was resolved is not resolved again before its session
is opened again, unless that was opened while it held deliveries; and what came of it first stays on record. -/
theorem failures_change_nothing (receiver g : Nat) :
    (∀ (call : SessionCall) b e b', call.run receiver g b = (.error e, b') → b' = b) ∧
    (∀ (call : SessionCall) b, b.live ≠ some g → call.run receiver g b = (.error channelClosed, b)) ∧
    (∀ b tag outcome, b.live = some g →
      ((∃ e b', (SessionCall.resolve tag outcome).run receiver g b = (.error e, b')) ↔
        ∀ h ∈ b.held, h.tag ≠ ⟨g, tag⟩)) ∧
    ∀ exchanges acts tag outcome b, ProperFor g (.withExchanges exchanges) acts →
      (SessionCall.resolve tag outcome).run receiver g (after (.withExchanges exchanges) acts) = (.ok (), b) →
      (∃ h ∈ (after (.withExchanges exchanges) acts).held, h.tag = ⟨g, tag⟩ ∧
        b.resolutions = (after (.withExchanges exchanges) acts).resolutions ++ [⟨h, outcome⟩]) ∧
      ∀ between again, (∀ receiver notify, .openSession receiver g notify ∉ between) →
        (∃ e, (SessionCall.resolve tag again).run receiver g (b.after between) = (.error e, b.after between)) ∧
        b.resolutions <+: (b.after between).resolutions := by
  refine ⟨fun call b e b' => call.failed, fun call b => call.on_closed,
    fun b tag outcome hl => SessionCall.resolve_fails_iff hl outcome, ?_⟩
  intro exchanges acts tag outcome b hproper hok
  have hnumbered : Numbered g (after (.withExchanges exchanges) acts) :=
    numbered_after acts (fun _ _ hh => absurd hh List.not_mem_nil) hproper
  rw [SessionCall.run_resolve] at hok
  obtain ⟨hfree, hresolved⟩ := free_of_resolved hnumbered hok
  refine ⟨hresolved, fun between again hbetween => ?_⟩
  have honward : Onward g b (b.after between) := onward_after hbetween
  refine ⟨?_, honward.resolutions⟩
  by_cases hl : (b.after between).live = some g
  · obtain ⟨e, b', hfailed⟩ := (SessionCall.resolve_fails_iff hl again).mpr (honward.free hfree).1
    obtain rfl := SessionCall.failed hfailed
    exact ⟨e, hfailed⟩
  · exact ⟨channelClosed, SessionCall.on_closed _ hl⟩

/-- A session is opened and handed a copy. -/
def handedOne : List Act :=
  [.openSession 0 1 true, .declareQueue 1 ⟨"a", "q", "k"⟩, .consume 0 1 "q" "first", .publish ⟨"a", "k", [1]⟩]

/-- The copy goes back and is handed out again, but not under the tag it had. -/
theorem failures_change_nothing_handedOne :
    ProperFor 1 (.withExchanges ["a"]) handedOne ∧
      ∃ b, (SessionCall.resolve 1 (.reject true)).run 0 1 (after (.withExchanges ["a"]) handedOne) = (.ok (), b) ∧
        (∃ e, (SessionCall.resolve 1 .ack).run 0 1 (b.after [.drop "cable pulled", .openSession 0 2 true]) =
          (.error e, b.after [.drop "cable pulled", .openSession 0 2 true])) ∧
        b.resolutions <+: (b.after [.drop "cable pulled", .openSession 0 2 true]).resolutions := by
  have hproper : ProperFor 1 (.withExchanges ["a"]) handedOne := by decide
  refine ⟨hproper, _, rfl, ?_⟩
  refine ((failures_change_nothing 0 1).2.2.2 ["a"] handedOne 1 (.reject true) _ hproper rfl).2 _ .ack ?_
  intro receiver notify hmem
  simp at hmem

/-- A session that holds a copy is opened again, and rejects the copy. It is handed out under the same tag, since tags
start anew, so the tag is resolved a second time. -/
theorem tag_resolved_twice :
    ¬∀ (receiver g : Nat) (exchanges : List String) (acts between : List Act) (tag : Nat) (outcome again : Outcome)
      (b : Broker),
      (SessionCall.resolve tag outcome).run receiver g (after (.withExchanges exchanges) acts) = (.ok (), b) →
      (∀ receiver g notify, .openSession receiver g notify ∉ between) →
      ∃ e, (SessionCall.resolve tag again).run receiver g (b.after between) = (.error e, b.after between) := by
  intro h
  obtain ⟨e, he⟩ := h 0 1 ["a"] (handedOne ++ [.openSession 0 1 true]) [] 1 (.reject true) .ack _ rfl
    fun _ _ _ => List.not_mem_nil
  have hresult := congrArg Prod.fst he
  cases hresult

end Broker
end EventCourier
