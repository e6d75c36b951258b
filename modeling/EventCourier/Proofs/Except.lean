import Mathlib.Data.List.Forall2

/-!
# Computations that may fail

What succeeds as a whole succeeds in its parts: one after the other (`bind_eq_ok`), and for every member of a
list (`mapM_eq_ok_iff`). What fails does so in the first part that fails (`bind_eq_error`, `mapM_eq_error_iff`).
Checks that are made one after the other succeed just if all members of a list fit, and fail with what is wrong with
the first member that does not (`InTurn`).
-/

namespace EventCourier

variable {ε α β : Type}

theorem ok_bind (a : α) (f : α → Except ε β) : (Except.ok a >>= f) = f a := rfl

/-- A computation that succeeds does so in both of its parts. -/
theorem bind_eq_ok {x : Except ε α} {f : α → Except ε β} {b : β} (h : x >>= f = .ok b) :
    ∃ a, x = .ok a ∧ f a = .ok b := by
  cases x with
  | error e => cases h
  | ok a => exact ⟨a, rfl, h⟩

theorem bind_eq_ok_iff {x : Except ε α} {f : α → Except ε β} {b : β} :
    x >>= f = .ok b ↔ ∃ a, x = .ok a ∧ f a = .ok b := by
  refine ⟨bind_eq_ok, ?_⟩
  rintro ⟨a, rfl, h⟩
  exact h

/-- A computation fails in its first part, or else in its second. -/
theorem bind_eq_error {x : Except ε α} {f : α → Except ε β} {e : ε} :
    x >>= f = .error e ↔ x = .error e ∨ ∃ a, x = .ok a ∧ f a = .error e := by
  cases x with
  | error e' => simp [bind, Except.bind]
  | ok a => simp [ok_bind]

/-- A list is gone through without a failure just if every member is. -/
theorem mapM_eq_ok_iff {f : α → Except ε β} {as : List α} {bs : List β} :
    as.mapM f = .ok bs ↔ List.Forall₂ (fun a b => f a = .ok b) as bs := by
  induction as generalizing bs with
  | nil => cases bs <;> simp [pure, Except.pure]
  | cons a as ih =>
    rw [List.mapM_cons]
    constructor
    · intro h
      obtain ⟨b, hb, h⟩ := bind_eq_ok h
      obtain ⟨bs', hbs, h⟩ := bind_eq_ok h
      cases h
      exact .cons hb (ih.mp hbs)
    · rintro (_ | ⟨hb, hbs⟩)
      rw [hb, ih.mpr hbs]
      rfl

/-- The first member of a list that is no longer as those in front of it: it is the head, or the first one behind. -/
theorem exists_first_cons {ι : Type*} {P Q : ι → Prop} {i : ι} {l : List ι} :
    (∃ before j behind, i :: l = before ++ j :: behind ∧ (∀ k ∈ before, P k) ∧ Q j) ↔
      Q i ∨ P i ∧ ∃ before j behind, l = before ++ j :: behind ∧ (∀ k ∈ before, P k) ∧ Q j := by
  constructor
  · rintro ⟨before, j, behind, heq, hbefore, hj⟩
    cases before with
    | nil =>
      obtain ⟨rfl, rfl⟩ := List.cons.inj heq
      exact Or.inl hj
    | cons k before =>
      obtain ⟨rfl, rfl⟩ := List.cons.inj heq
      obtain ⟨hk, hbefore⟩ := List.forall_mem_cons.mp hbefore
      exact Or.inr ⟨hk, before, j, behind, rfl, hbefore, hj⟩
  · rintro (hi | ⟨hi, before, j, behind, rfl, hbefore, hj⟩)
    · exact ⟨[], i, l, rfl, nofun, hi⟩
    · exact ⟨i :: before, j, behind, rfl, List.forall_mem_cons.mpr ⟨hi, hbefore⟩, hj⟩

/-- What goes through a list fails at the first member that fails. -/
theorem mapM_eq_error_iff {f : α → Except ε β} {as : List α} {e : ε} :
    as.mapM f = .error e ↔
      ∃ before a behind, as = before ++ a :: behind ∧ (∀ b ∈ before, ∃ c, f b = .ok c) ∧ f a = .error e := by
  induction as with
  | nil => simp [pure, Except.pure]
  | cons a as ih =>
    have hrest : ∀ c, (as.mapM f >>= fun cs => pure (c :: cs)) = .error e ↔ as.mapM f = .error e := by
      intro c
      simp [bind_eq_error, pure, Except.pure]
    rw [List.mapM_cons, bind_eq_error, exists_first_cons, ← ih]
    simp only [hrest, exists_and_right]

/-! ## Checks, one after the other -/

section InTurn

variable {ι : Type*} {Fits : ι → Prop} {Offends : ι → ε → Prop} {i : ι} {is : List ι}

/-- A computation succeeds just if all members of a list fit, and fails with what is wrong with the first member that
does not. -/
structure InTurn (Fits : ι → Prop) (Offends : ι → ε → Prop) (is : List ι) (x : Except ε α) : Prop where
  ok : (∃ a, x = .ok a) ↔ ∀ i ∈ is, Fits i
  error : ∀ e, x = .error e ↔ ∃ before i behind, is = before ++ i :: behind ∧ (∀ j ∈ before, Fits j) ∧ Offends i e

theorem InTurn.nil (a : α) : InTurn Fits Offends [] (.ok a) where
  ok := by simp
  error e := by simp

/-- The check of one member goes in front of those that follow. -/
theorem InTurn.cons {x : Except ε α} {f : α → Except ε β} (hok : (∃ a, x = .ok a) ↔ Fits i)
    (herror : ∀ e, x = .error e ↔ Offends i e) (hf : ∀ a, InTurn Fits Offends is (f a)) :
    InTurn Fits Offends (i :: is) (x >>= f) where
  ok := by
    rw [List.forall_mem_cons, ← hok]
    constructor
    · rintro ⟨b, hb⟩
      obtain ⟨a, ha, hb⟩ := bind_eq_ok hb
      exact ⟨⟨a, ha⟩, (hf a).ok.mp ⟨b, hb⟩⟩
    · rintro ⟨⟨a, ha⟩, hrest⟩
      obtain ⟨b, hb⟩ := (hf a).ok.mpr hrest
      exact ⟨b, bind_eq_ok_iff.mpr ⟨a, ha, hb⟩⟩
  error e := by
    rw [bind_eq_error, herror, exists_first_cons, ← hok]
    simp only [(hf _).error, exists_and_right]

end InTurn

end EventCourier
