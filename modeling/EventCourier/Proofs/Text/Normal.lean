import EventCourier.Proofs.Text.Blank
import EventCourier.Proofs.Text.Lower
import Mathlib.Data.List.Basic

/-!
# Trimmed texts in lower case

Lower-casing turns nothing into white space (`isBlank_of_mem_lowerChar`), so what was trimmed before is trimmed after
it (`trim_lower`). Where texts are trimmed and put in lower case, the small form of an ASCII letter counts as the letter
does (`alike_toLower`); so the case of such letters makes no difference (`SameLetters.lower_trim`).
-/

namespace EventCourier.LetterCase

variable {before cs : List Char} {c d : Char}

/-! ## White space and lower case -/

/-- The small letters of a run lie between the places of white space. -/
def Run.apart (r : Run) : Bool :=
  let last := r.small + (r.last - r.first)
  decide (0x20 < r.small ∧ last < 0x85 ∨ 0xA0 < r.small ∧ last < 0x1680 ∨ 0x1680 < r.small ∧ last < 0x2000 ∨
    0x205F < r.small ∧ last < 0x3000 ∨ 0x3000 < r.small)

theorem runs_apart : ∀ r ∈ runs, r.apart = true := by decide +kernel

/-- Only white space becomes white space. -/
theorem isBlank_of_mem_lowerChar (hc : isBlank c = false) (hd : d ∈ lowerChar c) : isBlank d = false := by
  unfold lowerChar at hd
  split at hd
  · simp only [List.mem_cons, List.not_mem_nil, or_false] at hd
    rcases hd with rfl | rfl <;> decide
  · obtain rfl := List.mem_singleton.mp hd
    rcases lowerCode_cases c.toNat with ⟨-, hn⟩ | ⟨r, hr, hhas, hn⟩
    · rw [hn, Char.ofNat_toNat, hc]
    · have hapart := runs_apart r hr
      have hcode := toNat_ofNat_lowerCode c
      rw [hn] at hcode ⊢
      simp only [Run.has, Run.apart, decide_eq_true_eq] at hhas hapart
      simp only [isBlank, hcode, Bool.or_eq_false_iff, Bool.and_eq_false_iff, decide_eq_false_iff_not,
        beq_eq_false_iff_ne]
      omega

theorem isBlank_smallSigma (before behind : List Char) : isBlank (smallSigma before behind) = false := by
  unfold smallSigma
  split <;> decide

theorem lowerChar_ne_nil (c : Char) : lowerChar c ≠ [] := by
  unfold lowerChar
  split <;> exact List.cons_ne_nil _ _

/-- What the first character of a text becomes is neither nothing nor new white space. -/
theorem lowerFrom_cons_spec (before cs : List Char) (hc : isBlank c = false) :
    ∃ d ds, (∀ e ∈ d :: ds, isBlank e = false) ∧
      lowerFrom before (c :: cs) = d :: ds ++ lowerFrom (c :: before) cs := by
  by_cases hsigma : c = '\u03a3'
  · refine ⟨smallSigma before cs, [], ?_, by rw [lowerFrom, if_pos hsigma]⟩
    simpa using isBlank_smallSigma before cs
  · obtain ⟨d, ds, hds⟩ := List.exists_cons_of_ne_nil (lowerChar_ne_nil c)
    refine ⟨d, ds, fun e he => isBlank_of_mem_lowerChar hc (hds ▸ he), ?_⟩
    rw [lowerFrom, if_neg hsigma, hds]

/-- The small form of a text ends in that of its end. -/
theorem exists_lowerFrom_append (before xs ys : List Char) : ∃ front before', lowerFrom before (xs ++ ys) =
    front ++ lowerFrom before' ys := by
  induction xs generalizing before with
  | nil => exact ⟨[], before, rfl⟩
  | cons x xs ih =>
    obtain ⟨front, before', h⟩ := ih (x :: before)
    refine ⟨(if x = '\u03a3' then [smallSigma before (xs ++ ys)] else lowerChar x) ++ front, before', ?_⟩
    rw [List.cons_append, lowerFrom, h, List.append_assoc]

/-- What was trimmed stays so. -/
theorem trimChars_lowerFrom (h : trimChars cs = cs) : trimChars (lowerFrom before cs) = lowerFrom before cs := by
  -- The first character of the text decides how its small form begins, and the last one how it ends.
  refine trimChars_of_ends (fun d hd => ?_) (fun d hd => ?_)
  · cases cs with
    | nil => cases hd
    | cons c cs =>
      have hc : isBlank c = false := isBlank_head_trimChars (c :: cs) c (by rw [h]; rfl)
      obtain ⟨e, es, hes, heq⟩ := lowerFrom_cons_spec before cs hc
      rw [heq] at hd
      obtain rfl := Option.some.inj hd
      exact hes _ List.mem_cons_self
  · rcases List.eq_nil_or_concat cs with rfl | ⟨front, c, rfl⟩
    · cases hd
    · rw [List.concat_eq_append] at h hd
      have hc : isBlank c = false := isBlank_getLast_trimChars (front ++ [c]) c (by rw [h]; simp)
      obtain ⟨front', before', happend⟩ := exists_lowerFrom_append before front [c]
      obtain ⟨e, es, hes, heq⟩ := lowerFrom_cons_spec before' [] hc
      rw [happend, heq, lowerFrom, List.append_nil, List.getLast?_append_cons] at hd
      exact hes d (List.mem_of_getLast? hd)

/-! ## The case of ASCII letters -/

/-- Two characters count alike where texts are trimmed and put in lower case. -/
def Alike (c d : Char) : Prop :=
  isBlank c = isBlank d ∧ isCased c = isCased d ∧ isIgnorable c = isIgnorable d ∧ lowerChar c = lowerChar d ∧
    (c = '\u03a3' ↔ d = '\u03a3')

theorem alike_capitals : ∀ n < 91, 65 ≤ n → Alike (Char.ofNat n).toLower (Char.ofNat n) := by
  unfold Alike
  decide +kernel

/-- The small form of an ASCII letter counts as the letter does. -/
theorem alike_toLower (c : Char) : Alike c.toLower c := by
  by_cases hupper : c.val ≥ 'A'.val ∧ c.val ≤ 'Z'.val
  · simp only [ge_iff_le, UInt32.le_iff_toNat_le] at hupper
    have hcapital := alike_capitals c.toNat (Nat.lt_succ_of_le hupper.2) hupper.1
    rwa [Char.ofNat_toNat] at hcapital
  · have hc : c.toLower = c := dif_neg hupper
    rw [hc]
    exact ⟨rfl, rfl, rfl, rfl, Iff.rfl⟩

theorem meetsCased_map (cs : List Char) : meetsCased (cs.map Char.toLower) = meetsCased cs := by
  have hignorable : isIgnorable ∘ Char.toLower = isIgnorable := funext fun c => (alike_toLower c).2.2.1
  rw [meetsCased, meetsCased, List.dropWhile_map, hignorable]
  cases cs.dropWhile isIgnorable with
  | nil => rfl
  | cons c cs => exact (alike_toLower c).2.1

theorem lowerFrom_map (before cs : List Char) :
    lowerFrom (before.map Char.toLower) (cs.map Char.toLower) = lowerFrom before cs := by
  induction cs generalizing before with
  | nil => rfl
  | cons c cs ih =>
    obtain ⟨-, -, -, hlower, hsigma⟩ := alike_toLower c
    -- The characters in front count only for a final sigma, so they are mapped along.
    have hrest := ih (c :: before)
    rw [List.map_cons] at hrest
    rw [List.map_cons, lowerFrom, lowerFrom, hrest, hlower, smallSigma, meetsCased_map, meetsCased_map, ← smallSigma]
    simp only [hsigma]

theorem trimChars_map (cs : List Char) : trimChars (cs.map Char.toLower) = (trimChars cs).map Char.toLower := by
  have hblank : isBlank ∘ Char.toLower = isBlank := funext fun c => (alike_toLower c).1
  have hstart : ∀ ds : List Char, trimStart (ds.map Char.toLower) = (trimStart ds).map Char.toLower := by
    intro ds
    rw [trimStart, List.dropWhile_map, hblank, trimStart]
  rw [trimChars, hstart, ← List.map_reverse, hstart, ← List.map_reverse, trimChars]

end EventCourier.LetterCase

namespace EventCourier

open LetterCase

variable {s t : String}

theorem toList_trim (s : String) : (trim s).toList = trimChars s.toList := String.toList_ofList

/-- A trimmed text in lower case is trimmed. -/
theorem trim_lower (h : trim s = s) : trim (lower s) = lower s := by
  have hchars : trimChars s.toList = s.toList := by rw [← toList_trim, h]
  rw [trim, toList_lower, trimChars_lowerFrom hchars, lower]

theorem lower_eq_empty_iff : lower s = "" ↔ s = "" := by
  rw [← String.toList_eq_nil_iff, toList_lower, ← String.toList_eq_nil_iff]
  cases s.toList with
  | nil => exact iff_of_true rfl rfl
  | cons c cs =>
    refine iff_of_false (fun h => ?_) (List.cons_ne_nil c cs)
    have hhead := (List.append_eq_nil_iff.mp h).1
    split at hhead
    · cases hhead
    · exact lowerChar_ne_nil c hhead

/-- Two texts are the same but for the case of ASCII letters. -/
def SameLetters (s t : String) : Prop := s.toList.map Char.toLower = t.toList.map Char.toLower

/-- The case of ASCII letters makes no difference to a trimmed text in lower case. -/
theorem SameLetters.lower_trim (h : SameLetters s t) : lower (trim s) = lower (trim t) := by
  have hfold : ∀ u : String,
      lowerFrom [] (trimChars u.toList) = lowerFrom [] (trimChars (u.toList.map Char.toLower)) := by
    intro u
    rw [trimChars_map]
    exact (lowerFrom_map [] _).symm
  rw [← String.toList_inj, toList_lower, toList_lower, toList_trim, toList_trim, hfold s, hfold t, h]

end EventCourier
