import EventCourier.Text.Split
import Mathlib.Data.List.Basic
import Mathlib.Data.List.TakeWhile

/-!
# The parts of a text

What stands in front of the first separator does not depend on what follows it (`takeWhile_append_stop`), and what
follows stays as it is (`dropWhile_append_stop`). A text may also be cut at every separator. The parts hold no
separator (`not_mem_of_mem_splitAtAll`) and make up the text with separators between them, and there is only one way to
cut a text so (`splitAtAll_eq_iff`). A text that is joined at a separator is cut there (`splitAtAll_append`), also if
others count as separators too. Where it need not be the only separator, two texts may be joined at different ones
(`join_eq_iff`).
-/

namespace EventCourier

/-! ## Cutting at the first separator -/

section Cutting

variable {p : Char → Bool} {c : Char} {cs : List Char}

theorem takeWhile_append_stop (hc : p c = false) (xs ys : List Char) :
    (xs ++ c :: ys).takeWhile p = xs.takeWhile p := by
  induction xs with
  | nil => simp [hc]
  | cons x xs ih => rw [List.cons_append, List.takeWhile_cons, List.takeWhile_cons, ih]

theorem dropWhile_append_stop (hc : p c = false) (xs ys : List Char) :
    (xs ++ c :: ys).dropWhile p = xs.dropWhile p ++ c :: ys := by
  induction xs with
  | nil => simp [hc]
  | cons x xs ih =>
    rw [List.cons_append, List.dropWhile_cons, List.dropWhile_cons, ih]
    split <;> rfl

theorem drop_takeWhile (p : Char → Bool) (cs : List Char) : cs.drop (cs.takeWhile p).length = cs.dropWhile p := by
  have hsplit : cs.takeWhile p ++ cs.dropWhile p = cs := List.takeWhile_append_dropWhile
  calc cs.drop (cs.takeWhile p).length
    _ = (cs.takeWhile p ++ cs.dropWhile p).drop (cs.takeWhile p).length := by rw [hsplit]
    _ = cs.dropWhile p := List.drop_left

theorem decide_ne (h : c ∉ cs) : ∀ d ∈ cs, decide (d ≠ c) = true := by
  intro d hd
  rw [decide_eq_true_eq]
  rintro rfl
  exact h hd

/-- Without a separator everything is in front of it. -/
theorem takeWhile_ne (h : c ∉ cs) : cs.takeWhile (· ≠ c) = cs := List.takeWhile_eq_self_iff.mpr (decide_ne h)

theorem dropWhile_ne (h : c ∉ cs) : cs.dropWhile (· ≠ c) = [] := List.dropWhile_eq_nil_iff.mpr (decide_ne h)

end Cutting

/-! ## Cutting at every separator -/

theorem splitAtAll_ne_nil (isSeparator : Char → Bool) (cs : List Char) : splitAtAll isSeparator cs ≠ [] := by
  cases cs with
  | nil => exact List.cons_ne_nil _ _
  | cons c cs =>
    unfold splitAtAll
    split
    · exact List.cons_ne_nil _ _
    · split <;> exact List.cons_ne_nil _ _

/-- The parts hold no separator. -/
theorem not_mem_of_mem_splitAtAll {separator : Char} {cs part : List Char}
    (h : part ∈ splitAtAll (· == separator) cs) : separator ∉ part := by
  induction cs generalizing part with
  | nil =>
    rw [List.mem_singleton.mp h]
    exact List.not_mem_nil
  | cons c cs ih =>
    unfold splitAtAll at h
    split at h
    · rcases List.mem_cons.mp h with rfl | h
      · exact List.not_mem_nil
      · exact ih h
    · rename_i hc
      have hne : separator ≠ c := by
        rintro rfl
        exact hc (beq_self_eq_true _)
      split at h
      · rename_i first parts heq
        rw [heq] at ih
        rcases List.mem_cons.mp h with rfl | h
        · exact fun hmem => (List.mem_cons.mp hmem).elim hne (ih List.mem_cons_self)
        · exact ih (List.mem_cons_of_mem _ h)
      · rw [List.mem_singleton.mp h]
        exact fun hmem => hne (List.mem_singleton.mp hmem)

theorem splitAtAll_eq_splitOn (c : Char) (cs : List Char) : splitAtAll (· == c) cs = cs.splitOn c := by
  induction cs with
  | nil => rfl
  | cons d cs ih =>
    rw [List.splitOn_eq_splitOnP] at ih ⊢
    rw [splitAtAll, List.splitOnP_cons_eq_if_modifyHead, ih]
    split
    · rfl
    · obtain ⟨part, parts, hparts⟩ := List.exists_cons_of_ne_nil (List.splitOnP_ne_nil (· == c) cs)
      rw [hparts]
      rfl

/-- The parts of a text are those that hold no separator and make it up with separators between them. -/
theorem splitAtAll_eq_iff {c : Char} {cs : List Char} {parts : List (List Char)} :
    splitAtAll (· == c) cs = parts ↔ parts ≠ [] ∧ (∀ part ∈ parts, c ∉ part) ∧ cs = [c].intercalate parts := by
  constructor
  · rintro rfl
    refine ⟨splitAtAll_ne_nil _ cs, fun part => not_mem_of_mem_splitAtAll, ?_⟩
    rw [splitAtAll_eq_splitOn, List.intercalate_splitOn]
  · rintro ⟨hne, hparts, rfl⟩
    rw [splitAtAll_eq_splitOn, List.splitOn_intercalate c hparts hne]

section Predicates

variable {p : Char → Bool} {c : Char}

/-- A separator cuts a text into the parts in front of it and behind it. -/
theorem splitAtAll_append (hc : p c = true) (xs ys : List Char) :
    splitAtAll p (xs ++ c :: ys) = splitAtAll p xs ++ splitAtAll p ys := by
  induction xs with
  | nil => simp [splitAtAll, hc]
  | cons x xs ih =>
    rw [List.cons_append, splitAtAll, splitAtAll, ih]
    split
    · rfl
    · obtain ⟨part, parts, hparts⟩ := List.exists_cons_of_ne_nil (splitAtAll_ne_nil p xs)
      rw [hparts]
      rfl

/-- A text without separators is one part. -/
theorem splitAtAll_of_forall {cs : List Char} (h : ∀ c ∈ cs, p c = false) : splitAtAll p cs = [cs] := by
  induction cs with
  | nil => rfl
  | cons c cs ih =>
    obtain ⟨hc, hcs⟩ := List.forall_mem_cons.mp h
    simp [splitAtAll, hc, ih hcs]

/-- Parts with a separator between any two are the parts that the text is cut into. -/
theorem splitAtAll_intercalate (hc : p c = true) : ∀ {parts : List (List Char)}, parts ≠ [] →
    (∀ part ∈ parts, ∀ d ∈ part, p d = false) → splitAtAll p ([c].intercalate parts) = parts
  | [], hne, _ => absurd rfl hne
  | [part], _, h => by
    rw [List.intercalate_singleton]
    exact splitAtAll_of_forall (h part List.mem_cons_self)
  | part :: next :: parts, _, h => by
    obtain ⟨hpart, hparts⟩ := List.forall_mem_cons.mp h
    rw [List.intercalate_cons_cons, List.append_assoc, List.singleton_append, splitAtAll_append hc,
      splitAtAll_of_forall hpart, splitAtAll_intercalate hc (List.cons_ne_nil _ _) hparts]
    rfl

/-- What holds of the parts and of the separator holds of the text. -/
theorem forall_mem_intercalate {P : Char → Prop} (hc : P c) : ∀ {parts : List (List Char)},
    (∀ part ∈ parts, ∀ d ∈ part, P d) → ∀ d ∈ [c].intercalate parts, P d
  | [], _ => nofun
  | [part], h => by
    rw [List.intercalate_singleton]
    exact h part List.mem_cons_self
  | part :: next :: parts, h => by
    obtain ⟨hpart, hparts⟩ := List.forall_mem_cons.mp h
    rw [List.intercalate_cons_cons, List.append_assoc, List.singleton_append]
    exact List.forall_mem_append.mpr ⟨hpart, List.forall_mem_cons.mpr ⟨hc, forall_mem_intercalate hc hparts⟩⟩

end Predicates

/-- A text is cut into two parts just if it holds one separator. -/
theorem splitAtAll_eq_pair {c : Char} {cs xs ys : List Char} :
    splitAtAll (· == c) cs = [xs, ys] ↔ cs = xs ++ c :: ys ∧ c ∉ xs ∧ c ∉ ys := by
  rw [splitAtAll_eq_iff]
  simp [and_comm, List.intercalate_cons_cons]

/-- Two pairs that are joined by a separator make the same text just if they are the same, or if the first part of
one is the first part of the other with a separator and more. -/
theorem join_eq_iff {α : Type} {c : α} {as bs xs ys : List α} : as ++ c :: bs = xs ++ c :: ys ↔
    (as = xs ∧ bs = ys) ∨ (∃ mid, xs = as ++ c :: mid ∧ bs = mid ++ c :: ys) ∨
      ∃ mid, as = xs ++ c :: mid ∧ ys = mid ++ c :: bs := by
  constructor
  · intro h
    rcases List.append_eq_append_iff.mp h with ⟨between, hx, hb⟩ | ⟨between, ha, hy⟩
    · cases between with
      | nil => exact Or.inl ⟨(hx.trans (List.append_nil _)).symm, List.tail_eq_of_cons_eq hb⟩
      | cons d mid =>
        obtain ⟨rfl, hmid⟩ := List.cons.inj hb
        exact Or.inr (Or.inl ⟨mid, hx, hmid⟩)
    · cases between with
      | nil => exact Or.inl ⟨ha.trans (List.append_nil _), (List.tail_eq_of_cons_eq hy).symm⟩
      | cons d mid =>
        obtain ⟨rfl, hmid⟩ := List.cons.inj hy
        exact Or.inr (Or.inr ⟨mid, ha, hmid⟩)
  · rintro (⟨rfl, rfl⟩ | ⟨mid, rfl, rfl⟩ | ⟨mid, rfl, rfl⟩) <;> simp

end EventCourier
