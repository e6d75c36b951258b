import EventCourier.Proofs.Text.Lower

/-!
# Sigmas around a dot

What a capital sigma becomes depends on the characters around it, and dots are passed over. So the small form of two
texts with a dot between them need not be that of the texts on their own: a sigma at the end of the first is final only
if the second does not go on with a letter, and a sigma on its own is final only behind a letter (`Parted`). These are
the only texts of which the small form depends on whether they are joined before or after (`lower_join_iff`).
-/

namespace EventCourier.LetterCase

variable {before behind cs : List Char}

/-! ## Letters behind ignorable characters -/

theorem meetsCased_cons_ignorable {c : Char} (hc : isIgnorable c = true) (cs : List Char) :
    meetsCased (c :: cs) = meetsCased cs := by
  rw [meetsCased, meetsCased, List.dropWhile_cons, if_pos hc]

/-- Ignorable characters are passed over. -/
theorem meetsCased_append (h : ∀ c ∈ cs, isIgnorable c = true) (behind : List Char) :
    meetsCased (cs ++ behind) = meetsCased behind := by
  rw [meetsCased, meetsCased, List.dropWhile_append_of_pos h]

theorem meetsCased_of_forall (h : ∀ c ∈ cs, isIgnorable c = true) : meetsCased cs = false := by
  rw [← List.append_nil cs, meetsCased_append h]
  rfl

/-- What stands behind other characters does not count. -/
theorem meetsCased_append_of_exists (h : ¬∀ c ∈ cs, isIgnorable c = true) (behind : List Char) :
    meetsCased (cs ++ behind) = meetsCased cs := by
  induction cs with
  | nil => exact absurd nofun h
  | cons c cs ih =>
    rw [List.cons_append]
    by_cases hc : isIgnorable c = true
    · rw [meetsCased_cons_ignorable hc, meetsCased_cons_ignorable hc, ih]
      exact fun hall => h (List.forall_mem_cons.mpr ⟨hc, hall⟩)
    · simp [meetsCased, hc]

/-! ## A text before others -/

/-- Two readings of a text are the same if every sigma becomes the same in both, and what follows is the same. -/
theorem lowerFrom_append_eq_iff {before' rest : List Char} :
    lowerFrom before (cs ++ behind) = lowerFrom before' cs ++ rest ↔
      (∀ front back, cs = front ++ '\u03a3' :: back → smallSigma (front.reverse ++ before) (back ++ behind) =
        smallSigma (front.reverse ++ before') back) ∧ lowerFrom (cs.reverse ++ before) behind = rest := by
  induction cs generalizing before before' with
  | nil => simp [lowerFrom]
  | cons c cs ih =>
    have hsplit : (∀ front back, c :: cs = front ++ '\u03a3' :: back →
        smallSigma (front.reverse ++ before) (back ++ behind) = smallSigma (front.reverse ++ before') back) ↔
        (c = '\u03a3' → smallSigma before (cs ++ behind) = smallSigma before' cs) ∧
          ∀ front back, cs = front ++ '\u03a3' :: back →
            smallSigma (front.reverse ++ c :: before) (back ++ behind) =
              smallSigma (front.reverse ++ c :: before') back := by
      constructor
      · intro h
        constructor
        · rintro rfl
          exact h [] cs rfl
        · rintro front back rfl
          simpa using h (c :: front) back rfl
      · rintro ⟨hhere, hthere⟩ (_ | ⟨d, front⟩) back heq
        · obtain ⟨rfl, rfl⟩ := List.cons.inj heq
          exact hhere rfl
        · obtain ⟨rfl, rfl⟩ := List.cons.inj heq
          simpa using hthere front back rfl
    rw [hsplit, List.cons_append, lowerFrom, lowerFrom, List.append_assoc, List.reverse_cons, List.append_assoc,
      List.singleton_append]
    by_cases hc : c = '\u03a3'
    · rw [if_pos hc, if_pos hc, List.singleton_append, List.singleton_append, List.cons.injEq, ih, and_assoc]
      simp only [hc, forall_const]
    · rw [if_neg hc, if_neg hc, List.append_cancel_left_eq, ih]
      simp only [hc, false_implies, true_and]

/-! ## Texts around a dot -/

theorem smallSigma_eq_iff {before' behind' : List Char} : smallSigma before behind = smallSigma before' behind' ↔
    (meetsCased before = true ∧ meetsCased behind = false ↔ meetsCased before' = true ∧ meetsCased behind' = false) := by
  have hne : '\u03c2' ≠ '\u03c3' := by decide
  unfold smallSigma
  cases meetsCased before <;> cases meetsCased behind <;> cases meetsCased before' <;> cases meetsCased behind' <;>
    simp [hne, hne.symm]

/-- A sigma is the same with more behind it, unless it is final and a letter follows. -/
theorem smallSigma_behind_iff {back : List Char} : smallSigma before (back ++ behind) = smallSigma before back ↔
    ¬(meetsCased before = true ∧ (∀ c ∈ back, isIgnorable c = true) ∧ meetsCased behind = true) := by
  rw [smallSigma_eq_iff]
  by_cases hback : ∀ c ∈ back, isIgnorable c = true
  · rw [meetsCased_append hback, meetsCased_of_forall hback, and_iff_right hback]
    simp
  · rw [meetsCased_append_of_exists hback]
    simp [hback]

/-- A sigma is the same with more before it, unless it is on its own and a letter stands there. -/
theorem smallSigma_before_iff {front : List Char} : smallSigma (front ++ before) behind = smallSigma front behind ↔
    ¬((∀ c ∈ front, isIgnorable c = true) ∧ meetsCased before = true ∧ meetsCased behind = false) := by
  rw [smallSigma_eq_iff]
  by_cases hfront : ∀ c ∈ front, isIgnorable c = true
  · rw [meetsCased_append hfront, meetsCased_of_forall hfront, and_iff_right hfront]
    simp
  · rw [meetsCased_append_of_exists hfront]
    simp [hfront]

/-- A text ends in a capital sigma behind a letter, ignorable characters passed over. -/
def EndsInSigma (cs : List Char) : Prop := ∃ front back, cs = front ++ '\u03a3' :: back ∧
  meetsCased front.reverse = true ∧ ∀ c ∈ back, isIgnorable c = true

/-- A text begins with a capital sigma without a letter behind it, ignorable characters passed over. -/
def LoneSigma (cs : List Char) : Prop := ∃ front back, cs = front ++ '\u03a3' :: back ∧
  (∀ c ∈ front, isIgnorable c = true) ∧ meetsCased back = false

/-- A dot between two texts passes for the end of a word: a sigma in front of it, with a letter behind it, or a sigma
behind it, with a letter in front. -/
def Parted (xs ys : List Char) : Prop :=
  EndsInSigma xs ∧ meetsCased ys = true ∨ meetsCased xs.reverse = true ∧ LoneSigma ys

/-- The small form of texts around a dot is that of the texts on their own, unless the dot parts them. -/
theorem lowerFrom_join_iff {xs ys : List Char} :
    lowerFrom [] (xs ++ '.' :: ys) = lowerFrom [] xs ++ '.' :: lowerFrom [] ys ↔ ¬Parted xs ys := by
  have hdot : isIgnorable '.' = true := by decide +kernel
  have hcons : ∀ before, lowerFrom before ('.' :: ys) = '.' :: lowerFrom ('.' :: before) ys := fun before => by
    rw [lowerFrom, if_neg (by decide), small_special.2.2.2.2]
    rfl
  have hback : lowerFrom ('.' :: xs.reverse) ys = lowerFrom [] ys ↔ ∀ front back, ys = front ++ '\u03a3' :: back →
      smallSigma (front.reverse ++ '.' :: xs.reverse) back = smallSigma front.reverse back := by
    have h : lowerFrom ('.' :: xs.reverse) (ys ++ []) = lowerFrom [] ys ++ [] ↔ _ := lowerFrom_append_eq_iff
    simpa [lowerFrom] using h
  rw [lowerFrom_append_eq_iff, List.append_nil, hcons, List.cons.injEq, hback]
  simp only [List.append_nil, smallSigma_behind_iff, smallSigma_before_iff, meetsCased_cons_ignorable hdot,
    List.mem_reverse, true_and]
  constructor
  · rintro ⟨hxs, hys⟩ (⟨⟨front, back, heq, hletter, hback⟩, hmeets⟩ | ⟨hmeets, front, back, heq, hfront, hend⟩)
    · exact hxs front back heq ⟨hletter, hback, hmeets⟩
    · exact hys front back heq ⟨hfront, hmeets, hend⟩
  · intro h
    constructor
    · rintro front back heq ⟨hletter, hback, hmeets⟩
      exact h (Or.inl ⟨⟨front, back, heq, hletter, hback⟩, hmeets⟩)
    · rintro front back heq ⟨hfront, hmeets, hend⟩
      exact h (Or.inr ⟨hmeets, front, back, heq, hfront, hend⟩)

/-- Without capital sigmas, no dot parts texts. -/
theorem not_parted {xs ys : List Char} (hxs : '\u03a3' ∉ xs) (hys : '\u03a3' ∉ ys) : ¬Parted xs ys := by
  rintro (⟨⟨front, back, rfl, -⟩, -⟩ | ⟨-, front, back, rfl, -⟩)
  · exact hxs (by simp)
  · exact hys (by simp)

end EventCourier.LetterCase
