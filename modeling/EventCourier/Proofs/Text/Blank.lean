import EventCourier.Text.Blank
import Mathlib.Data.List.TakeWhile

/-!
# What is trimmed

White space is cut off as long as there is some at an end (`isBlank_head_trimChars`, `isBlank_getLast_trimChars`) and
no further (`trimChars_of_ends`); so what is trimmed once is trimmed (`trimChars_trimChars`). Nothing else is cut off
(`exists_trimChars`), and white space around a text makes no difference (`trimChars_padded`).
-/

namespace EventCourier

variable {front back cs : List Char} {c : Char}

theorem trimStart_of_head (h : ∀ c ∈ cs.head?, isBlank c = false) : trimStart cs = cs := by
  cases cs with
  | nil => rfl
  | cons c cs => simp [trimStart, h c rfl]

theorem isBlank_head_trimStart (cs : List Char) : ∀ c ∈ (trimStart cs).head?, isBlank c = false := by
  intro c hc
  have := List.head?_dropWhile_not isBlank cs
  rw [trimStart] at hc
  rw [Option.mem_def.mp hc] at this
  exact this

theorem isBlank_head_trimChars (cs : List Char) : ∀ c ∈ (trimChars cs).head?, isBlank c = false := by
  intro c hc
  obtain ⟨cut, hcut⟩ : trimChars cs <+: trimStart cs := by
    rw [← List.reverse_suffix, trimChars, List.reverse_reverse]
    exact List.dropWhile_suffix _
  refine isBlank_head_trimStart cs c ?_
  rw [← hcut, List.head?_append, Option.mem_def.mp hc]
  rfl

theorem isBlank_getLast_trimChars (cs : List Char) : ∀ c ∈ (trimChars cs).getLast?, isBlank c = false := by
  rw [trimChars, List.getLast?_reverse]
  exact isBlank_head_trimStart _

/-- Without white space at its ends, a text is trimmed. -/
theorem trimChars_of_ends (hhead : ∀ c ∈ cs.head?, isBlank c = false) (hlast : ∀ c ∈ cs.getLast?, isBlank c = false) :
    trimChars cs = cs := by
  rw [trimChars, trimStart_of_head hhead, trimStart_of_head (by rwa [List.head?_reverse]), List.reverse_reverse]

/-- What is trimmed once is trimmed. -/
theorem trimChars_trimChars (cs : List Char) : trimChars (trimChars cs) = trimChars cs :=
  trimChars_of_ends (isBlank_head_trimChars cs) (isBlank_getLast_trimChars cs)

theorem mem_of_mem_trimChars (h : c ∈ trimChars cs) : c ∈ cs := by
  unfold trimChars trimStart at h
  have h := (List.dropWhile_suffix isBlank).subset (List.mem_reverse.mp h)
  exact (List.dropWhile_suffix isBlank).subset (List.mem_reverse.mp h)

theorem trim_trim (s : String) : trim (trim s) = trim s := by
  rw [trim, trim, String.toList_ofList, trimChars_trimChars]

/-! ## White space around a text -/

/-- A text is what is left of it with white space around. -/
theorem exists_trimChars (cs : List Char) : ∃ front back : List Char, (∀ c ∈ front, isBlank c = true) ∧
    (∀ c ∈ back, isBlank c = true) ∧ cs = front ++ (trimChars cs ++ back) := by
  refine ⟨cs.takeWhile isBlank, ((trimStart cs).reverse.takeWhile isBlank).reverse, ?_, ?_, ?_⟩
  · exact List.all_eq_true.mp List.all_takeWhile
  · intro c hc
    exact List.all_eq_true.mp List.all_takeWhile c (List.mem_reverse.mp hc)
  · have hback : (trimStart cs).reverse.takeWhile isBlank ++ trimStart (trimStart cs).reverse =
        (trimStart cs).reverse := List.takeWhile_append_dropWhile
    rw [trimChars, ← List.reverse_append, hback, List.reverse_reverse]
    exact List.takeWhile_append_dropWhile.symm

theorem trimStart_blank (h : ∀ c ∈ front, isBlank c = true) : trimStart (front ++ cs) = trimStart cs :=
  List.dropWhile_append_of_pos h

theorem trimStart_eq_nil : trimStart cs = [] ↔ ∀ c ∈ cs, isBlank c = true := List.dropWhile_eq_nil_iff

/-- White space around a text is cut off. -/
theorem trimChars_padded (hfront : ∀ c ∈ front, isBlank c = true) (hback : ∀ c ∈ back, isBlank c = true) :
    trimChars (front ++ (cs ++ back)) = trimChars cs := by
  rw [trimChars, trimStart_blank hfront, trimChars]
  by_cases hcs : ∀ c ∈ cs, isBlank c = true
  · have hall : ∀ c ∈ cs ++ back, isBlank c = true := by
      intro c hc
      exact (List.mem_append.mp hc).elim (hcs c) (hback c)
    rw [trimStart_eq_nil.mpr hcs, trimStart_eq_nil.mpr hall]
  · have happend : trimStart (cs ++ back) = trimStart cs ++ back := by
      obtain ⟨d, tail, hd⟩ := List.exists_cons_of_ne_nil (mt trimStart_eq_nil.mp hcs)
      unfold trimStart at hd ⊢
      rw [List.dropWhile_append, hd]
      rfl
    rw [happend, List.reverse_append, trimStart_blank]
    exact fun c hc => hback c (List.mem_reverse.mp hc)

theorem not_mem_of_blank (hc : isBlank c = false) (h : ∀ d ∈ cs, isBlank d = true) : c ∉ cs := by
  intro hmem
  rw [h c hmem] at hc
  cases hc

/-- What is no white space is not cut off. -/
theorem mem_trimChars_iff (hc : isBlank c = false) : c ∈ trimChars cs ↔ c ∈ cs := by
  refine ⟨mem_of_mem_trimChars, fun h => ?_⟩
  obtain ⟨front, back, hfront, hback, heq⟩ := exists_trimChars cs
  rw [heq, List.mem_append, List.mem_append] at h
  rcases h with h | h | h
  · exact absurd h (not_mem_of_blank hc hfront)
  · exact h
  · exact absurd h (not_mem_of_blank hc hback)

/-- True of a text that is nothing but white space. -/
def IsBlank (s : String) : Prop := ∀ c ∈ s.toList, isBlank c = true

theorem trim_eq_empty {s : String} : trim s = "" ↔ IsBlank s := by
  rw [trim, String.ofList_eq_empty_iff]
  constructor
  · intro h
    obtain ⟨front, back, hfront, hback, heq⟩ := exists_trimChars s.toList
    rw [h, List.nil_append] at heq
    intro c hc
    rw [heq] at hc
    exact (List.mem_append.mp hc).elim (hfront c) (hback c)
  · intro h
    rw [trimChars, trimStart_eq_nil.mpr h]
    rfl

theorem exists_trim (s : String) :
    ∃ front back : String, IsBlank front ∧ IsBlank back ∧ s = front ++ trim s ++ back := by
  obtain ⟨front, back, hfront, hback, heq⟩ := exists_trimChars s.toList
  refine ⟨String.ofList front, String.ofList back, ?_, ?_, String.toList_inj.mp ?_⟩
  · simpa [IsBlank] using hfront
  · simpa [IsBlank] using hback
  · simpa [trim] using heq

theorem trim_padded {front back : String} (hfront : IsBlank front) (hback : IsBlank back) (s : String) :
    trim (front ++ s ++ back) = trim s := by
  rw [trim, String.toList_append, String.toList_append, List.append_assoc, trimChars_padded hfront hback, trim]

theorem mem_trim_iff {s : String} (hc : isBlank c = false) : c ∈ (trim s).toList ↔ c ∈ s.toList := by
  rw [trim, String.toList_ofList, mem_trimChars_iff hc]

end EventCourier
