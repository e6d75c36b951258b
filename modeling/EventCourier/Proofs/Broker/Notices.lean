import EventCourier.Proofs.Broker.Act

/-!
# Notices of lost sessions

A notice is sent when the live session is dropped, and then no session is live until another one is opened
(`live_run`). So as long as every session is asked for under a generation of its own, each session is told to be lost
at most once (`nodup_notices`), and no more once it was closed (`notices_after_close`).
-/

namespace EventCourier
namespace Broker

variable {b : Broker} {g : Nat}

/-- The generation under which an act asks for a session. -/
def Act.asks? : Act → Option Nat
  | .openSession _ g _ => some g
  | _ => none

/-- The generations under which acts ask for sessions, in order. -/
def askedFor (acts : List Act) : List Nat := acts.filterMap Act.asks?

/-- The notice that an act makes the broker send. -/
def Act.notice? (a : Act) (b : Broker) : Option Notice :=
  match a with
  | .drop reason => (b.drop reason).1.map (·.2)
  | _ => none

/-- The notices that acts make the broker send, in order. -/
def notices (b : Broker) : List Act → List Notice
  | [] => []
  | a :: acts => (a.notice? b).toList ++ notices (a.run b) acts

theorem notices_append (acts more : List Act) : ∀ b : Broker,
    notices b (acts ++ more) = notices b acts ++ notices (b.after acts) more := by
  induction acts with
  | nil => intro b; rfl
  | cons a acts ih =>
    intro b
    simp only [List.cons_append, notices, ih, List.append_assoc]
    rfl

theorem mem_askedFor_cons {a : Act} {acts : List Act} :
    g ∈ askedFor (a :: acts) ↔ a.asks? = some g ∨ g ∈ askedFor acts := by
  unfold askedFor
  cases h : a.asks? with
  | none => simp [h]
  | some g' => simp [h, eq_comm]

/-! ## The live session -/

/-- A session that is live after an act was live before it, or was asked for by it. -/
theorem live_run (a : Act) (h : (a.run b).live = some g) : b.live = some g ∨ a.asks? = some g := by
  let P : Broker → Prop := fun b' => b'.live = some g → b.live = some g ∨ a.asks? = some g
  have hsame : ∀ {b' b'' : Broker}, P b' → b''.live = b'.live → P b'' := by
    intro b' b'' hb heq hl
    exact hb (heq.symm.trans hl)
  have hdispatch : ∀ {b' : Broker}, P b' → P b'.dispatch :=
    dispatch_keeps (P := P) (fun hb _ => hsame hb rfl) (fun hb => hsame hb rfl)
  refine run_keeps (P := P) Or.inl ?_ ?_ ?_ ?_ ?_ ?_ ?_ ?_ hdispatch ?_ h
  · intro m _
    exact publish_keeps (P := P) (fun hb => hdispatch (hsame hb rfl)) Or.inl
  · intro receiver g' notify ha hl
    subst ha
    unfold openSession at hl
    dsimp only at hl
    split at hl
    · exact Or.inl hl
    · exact Or.inr hl
  · intro k _ outcome _ _ hl
    apply Or.inl
    unfold settle at hl
    split at hl <;> exact hl
  · intro ch id r _ hf hl
    rw [(forward?_frame hf).1] at hl
    exact Or.inl hl
  · intro receiver ch _ hl
    rw [(grantTo_spec receiver ch.waiting b ch).1] at hl
    exact Or.inl hl
  · intro _ _ _ _
    exact Or.inl
  · intro _ _ _ _ _ _
    exact Or.inl
  · intro b' b'' hb halike
    exact hsame hb halike.live
  · intro b' g' hb hl
    rw [endSession_live] at hl
    split at hl
    · cases hl
    · exact hb hl

/-- A session that was closed is not live. -/
theorem live_run_close (b : Broker) (g : Nat) : ((Act.close g).run b).live ≠ some g := by
  show (endSession { b with closed := b.closed ++ [g] } g).live ≠ some g
  rw [endSession_live]
  split
  · simp
  · assumption

/-! ## Notices -/

/-- A notice is about the live session, which is gone then. -/
theorem notice?_eq_some {a : Act} {n : Notice} (h : a.notice? b = some n) :
    b.live = some n.generation ∧ (a.run b).live = none := by
  cases a with
  | drop reason =>
    simp only [Act.notice?, Act.run, drop] at h ⊢
    cases hl : b.live with
    | none => simp [hl] at h
    | some g =>
      simp only [hl, Option.map_map, Option.map_eq_some_iff] at h
      obtain ⟨receiver, -, rfl⟩ := h
      simp [endSession_live, hl]
  | _ => cases h

/-- A notice is about a session that is live or is asked for later. -/
theorem mem_notices {n : Notice} (acts : List Act) : ∀ {b : Broker}, n ∈ notices b acts →
    b.live = some n.generation ∨ n.generation ∈ askedFor acts := by
  induction acts with
  | nil => intro b h; cases h
  | cons a acts ih =>
    intro b h
    rw [mem_askedFor_cons]
    rcases List.mem_append.mp h with h | h
    · exact Or.inl (notice?_eq_some (Option.mem_toList.mp h)).1
    · rcases ih h with h | h
      · exact (live_run a h).imp id Or.inl
      · exact Or.inr (Or.inr h)

/-- **Each session is told to be lost at most once**, if all are asked for under different generations. -/
theorem nodup_notices (acts : List Act) : ∀ {b : Broker}, (askedFor acts).Nodup →
    (∀ g, b.live = some g → g ∉ askedFor acts) → ((notices b acts).map (·.generation)).Nodup := by
  induction acts with
  | nil => intro b _ _; exact List.nodup_nil
  | cons a acts ih =>
    intro b hnodup hlive
    have hrest : (askedFor acts).Nodup := by
      unfold askedFor at hnodup ⊢
      exact hnodup.sublist ((List.sublist_cons_self a acts).filterMap _)
    have hlater : ∀ g, (a.run b).live = some g → g ∉ askedFor acts := by
      intro g hg hmem
      rcases live_run a hg with h | h
      · exact hlive g h (mem_askedFor_cons.mpr (Or.inr hmem))
      · simp only [askedFor, List.filterMap_cons, h, List.nodup_cons] at hnodup
        exact hnodup.1 hmem
    have hnext := ih hrest hlater
    cases hn : a.notice? b with
    | none =>
      simp only [notices, hn, Option.toList_none, List.nil_append]
      exact hnext
    | some n =>
      obtain ⟨hl, hgone⟩ := notice?_eq_some hn
      simp only [notices, hn, Option.toList_some, List.singleton_append, List.map_cons, List.nodup_cons]
      refine ⟨?_, hnext⟩
      -- the session is gone, and it is not asked for again
      intro hmem
      obtain ⟨m, hm, heq⟩ := List.mem_map.mp hmem
      rcases mem_notices acts hm with h | h
      · rw [hgone] at h
        cases h
      · exact hlive n.generation hl (mem_askedFor_cons.mpr (Or.inr (heq ▸ h)))

/-- **A session that was closed is not told to be lost any more.** -/
theorem notices_after_close {before later : List Act} (h : (askedFor (before ++ .close g :: later)).Nodup)
    (hg : g ∈ askedFor before) : ∃ rest, notices b (before ++ .close g :: later) =
      notices b (before ++ [.close g]) ++ rest ∧ ∀ n ∈ rest, n.generation ≠ g := by
  refine ⟨notices (b.after (before ++ [.close g])) later, ?_, ?_⟩
  · rw [← notices_append, List.append_assoc, List.singleton_append]
  rintro n hn rfl
  have hlater : n.generation ∉ askedFor later := by
    unfold askedFor at h hg ⊢
    rw [List.filterMap_append] at h
    intro hmem
    exact (List.nodup_append.mp h).2.2 _ hg _ hmem rfl
  rcases mem_notices later hn with hl | hmem
  · unfold after at hl
    rw [List.foldl_append] at hl
    exact live_run_close _ _ hl
  · exact hlater hmem

end Broker
end EventCourier
