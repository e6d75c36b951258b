import EventCourier.Text.Lower

/-!
# Lower case is final

No small letter of the table is a capital of the table (`smalls_and_capitals`). So a text in lower case holds only
characters that lower-casing leaves as they are (`small_of_mem_lowerFrom`), and is left as it is (`lower_of_small`,
`lower_lower`). What stands before the letters, such as dots and dashes, is in the small form of a text if and
only if it is in the text (`mem_lowerFrom_iff`).
-/

namespace EventCourier.LetterCase

/-! ## The table -/

/-- The code points `start`, `start + step` and so on, `count` of them, as the bits of a number. -/
def bits (start step : Nat) : (count : Nat) → Nat
  | 0 => 0
  | count + 1 => 1 <<< start ||| bits (start + step) step count

theorem testBit_bits {start step count n : Nat} :
    (bits start step count).testBit n = true ↔ ∃ i < count, n = start + i * step := by
  induction count generalizing start with
  | zero => simp [bits]
  | succ count ih =>
    rw [bits, Nat.testBit_or, Bool.or_eq_true, Nat.one_shiftLeft, Nat.testBit_two_pow, decide_eq_true_eq, ih]
    constructor
    · rintro (rfl | ⟨i, hi, rfl⟩)
      · exact ⟨0, Nat.succ_pos _, by omega⟩
      · exact ⟨i + 1, Nat.succ_lt_succ hi, by rw [Nat.succ_mul]; omega⟩
    · rintro ⟨_ | i, hi, rfl⟩
      · exact Or.inl (by omega)
      · exact Or.inr ⟨i, Nat.lt_of_succ_lt_succ hi, by rw [Nat.succ_mul]; omega⟩

/-- The bits of all runs of a table. -/
def allBits (ofRun : Run → Nat) (table : List Run) : Nat := table.foldr (fun r acc => ofRun r ||| acc) 0

theorem testBit_allBits {ofRun : Run → Nat} {table : List Run} {r : Run} {n : Nat} (hr : r ∈ table)
    (h : (ofRun r).testBit n = true) : (allBits ofRun table).testBit n = true := by
  unfold allBits
  induction table with
  | nil => cases hr
  | cons s table ih =>
    rw [List.foldr_cons, Nat.testBit_or, Bool.or_eq_true]
    rcases List.mem_cons.mp hr with rfl | hr
    · exact Or.inl h
    · exact Or.inr (ih hr)

/-- The number of letters in a run. -/
def Run.count (r : Run) : Nat := (r.last - r.first) / r.step + 1

/-- The capital letters of a run. -/
def Run.capitals (r : Run) : Nat := bits r.first r.step r.count

/-- The small letters of a run. -/
def Run.smalls (r : Run) : Nat := bits r.small r.step r.count

/-- No small letter of the table is a capital letter of the table. -/
theorem smalls_and_capitals : allBits Run.smalls runs &&& allBits Run.capitals runs = 0 := by decide +kernel

theorem Run.testBit_of_has {r : Run} {n : Nat} (h : r.has n = true) :
    r.capitals.testBit n = true ∧ r.smalls.testBit (r.small + (n - r.first)) = true := by
  simp only [has, decide_eq_true_eq] at h
  obtain ⟨hfirst, hlast, hstep⟩ := h
  have hn : n - r.first = (n - r.first) / r.step * r.step := by
    rw [Nat.mul_comm, ← Nat.add_zero (r.step * _), ← hstep, Nat.div_add_mod]
  have hcount : (n - r.first) / r.step < r.count :=
    Nat.lt_succ_of_le (Nat.div_le_div_right (Nat.sub_le_sub_right hlast _))
  exact ⟨testBit_bits.mpr ⟨_, hcount, by omega⟩, testBit_bits.mpr ⟨_, hcount, by omega⟩⟩

/-- No run has the small letter of one. -/
theorem Run.has_small_eq_false {r s : Run} {n : Nat} (hr : r ∈ runs) (hs : s ∈ runs) (hn : r.has n = true) :
    s.has (r.small + (n - r.first)) = false := by
  rw [Bool.eq_false_iff]
  intro hcapital
  have hsmall := testBit_allBits hr (Run.testBit_of_has hn).2
  have hboth : (allBits Run.smalls runs &&& allBits Run.capitals runs).testBit
      (r.small + (n - r.first)) = true := by
    rw [Nat.testBit_and, hsmall, testBit_allBits hs (Run.testBit_of_has hcapital).1]
    rfl
  rw [smalls_and_capitals, Nat.zero_testBit] at hboth
  cases hboth

/-- The small letters of a run are code points behind the capital letters of ASCII, but for the dotted capital I
and for surrogates. -/
def Run.lands (r : Run) : Bool :=
  decide (65 ≤ r.first ∧ 97 ≤ r.small ∧ (r.small + (r.last - r.first) < 0x130 ∨ 0x130 < r.small) ∧
    (r.small + (r.last - r.first) < 0xD800 ∨ 0xDFFF < r.small ∧ r.small + (r.last - r.first) < 0x110000))

theorem runs_land : ∀ r ∈ runs, r.lands = true := by decide +kernel

/-- A code point stands for itself, or a run has it. -/
theorem lowerCode_cases (n : Nat) : ((∀ r ∈ runs, r.has n = false) ∧ lowerCode n = n) ∨
    ∃ r ∈ runs, r.has n = true ∧ lowerCode n = r.small + (n - r.first) := by
  unfold lowerCode
  cases h : runs.find? (·.has n) with
  | none => exact Or.inl ⟨fun r hr => by simpa using List.find?_eq_none.mp h r hr, rfl⟩
  | some r => exact Or.inr ⟨r, List.mem_of_find?_eq_some h, by simpa using List.find?_some h, rfl⟩

theorem lowerCode_of_forall {n : Nat} (h : ∀ r ∈ runs, r.has n = false) : lowerCode n = n := by
  rcases lowerCode_cases n with ⟨-, hn⟩ | ⟨r, hr, hhas, -⟩
  · exact hn
  · rw [h r hr] at hhas
    cases hhas

theorem lowerCode_lowerCode (n : Nat) : lowerCode (lowerCode n) = lowerCode n := by
  rcases lowerCode_cases n with ⟨-, hn⟩ | ⟨r, hr, hhas, hn⟩
  · rw [hn, hn]
  · exact lowerCode_of_forall fun s hs => hn ▸ Run.has_small_eq_false hr hs hhas

/-- The small letter of a letter, where the table has one, is behind the capital letters of ASCII. -/
theorem lowerCode_spec (n : Nat) : lowerCode n = n ∨
    65 ≤ n ∧ 97 ≤ lowerCode n ∧ lowerCode n ≠ 0x130 ∧ (lowerCode n).isValidChar := by
  rcases lowerCode_cases n with ⟨-, hn⟩ | ⟨r, hr, hhas, hn⟩
  · exact Or.inl hn
  · right
    have hland := runs_land r hr
    simp only [Run.has, Run.lands, decide_eq_true_eq] at hhas hland
    unfold Nat.isValidChar
    omega

theorem toNat_ofNat_lowerCode (c : Char) : (Char.ofNat (lowerCode c.toNat)).toNat = lowerCode c.toNat := by
  have hvalid : (lowerCode c.toNat).isValidChar := by
    rcases lowerCode_spec c.toNat with h | ⟨-, -, -, h⟩
    · exact h.symm ▸ c.valid
    · exact h
  rw [Char.ofNat, dif_pos hvalid]
  rfl

/-! ## Characters -/

/-- A character that lower-casing leaves as it is. -/
def Small (c : Char) : Prop := lowerChar c = [c]

/-- What special letters become is small, and so is the dot. -/
theorem small_special : Small 'i' ∧ Small '\u0307' ∧ Small '\u03c2' ∧ Small '\u03c3' ∧ Small '.' := by
  unfold Small
  decide +kernel

theorem Small.ne_sigma {c : Char} (h : Small c) : c ≠ '\u03a3' := by
  rintro rfl
  revert h
  unfold Small
  decide +kernel

theorem small_smallSigma (before behind : List Char) : Small (smallSigma before behind) := by
  obtain ⟨-, -, hfinal, hinner, -⟩ := small_special
  unfold smallSigma
  split
  · exact hfinal
  · exact hinner

theorem small_of_mem_lowerChar {c d : Char} (h : d ∈ lowerChar c) : Small d := by
  unfold lowerChar at h
  split at h
  · simp only [List.mem_cons, List.not_mem_nil, or_false] at h
    rcases h with rfl | rfl
    · exact small_special.1
    · exact small_special.2.1
  · rename_i hc
    obtain rfl := List.mem_singleton.mp h
    have hne : Char.ofNat (lowerCode c.toNat) ≠ '\u0130' := by
      intro heq
      have hcode : lowerCode c.toNat = 0x130 := by rw [← toNat_ofNat_lowerCode, heq]; rfl
      rcases lowerCode_spec c.toNat with hn | ⟨-, -, hn, -⟩
      · exact hc (by rw [← Char.ofNat_toNat c, ← hn, hcode])
      · exact hn hcode
    rw [Small, lowerChar, if_neg hne, toNat_ofNat_lowerCode, lowerCode_lowerCode]

/-! ## Texts -/

variable {before cs : List Char}

/-- The small form of a text holds only characters that lower-casing leaves as they are. -/
theorem small_of_mem_lowerFrom {d : Char} (h : d ∈ lowerFrom before cs) : Small d := by
  induction cs generalizing before with
  | nil => cases h
  | cons c cs ih =>
    rcases List.mem_append.mp h with h | h
    · split at h
      · exact List.mem_singleton.mp h ▸ small_smallSigma ..
      · exact small_of_mem_lowerChar h
    · exact ih h

theorem lowerFrom_of_small (h : ∀ c ∈ cs, Small c) : lowerFrom before cs = cs := by
  induction cs generalizing before with
  | nil => rfl
  | cons c cs ih =>
    obtain ⟨hc, hcs⟩ := List.forall_mem_cons.mp h
    rw [lowerFrom, if_neg hc.ne_sigma, hc, ih hcs]
    rfl

/-- Lower-casing neither adds nor removes what stands before the letters. -/
theorem mem_lowerFrom_iff {c : Char} (hc : c.toNat < 65) : c ∈ lowerFrom before cs ↔ c ∈ cs := by
  induction cs generalizing before with
  | nil => rfl
  | cons d cs ih =>
    rw [lowerFrom, List.mem_append, List.mem_cons, ih]
    refine or_congr_left ?_
    split
    · rename_i hd
      subst hd
      rw [List.mem_singleton]
      unfold smallSigma
      split <;> exact ⟨fun h => absurd hc (h ▸ by decide), fun h => absurd hc (h ▸ by decide)⟩
    · unfold lowerChar
      split
      · rename_i hd
        subst hd
        refine ⟨fun h => ?_, fun h => absurd hc (h ▸ by decide)⟩
        simp only [List.mem_cons, List.not_mem_nil, or_false] at h
        rcases h with rfl | rfl <;> exact absurd hc (by decide)
      · rw [List.mem_singleton]
        rcases lowerCode_spec d.toNat with hn | ⟨hfirst, hsmall, -⟩
        · rw [hn, Char.ofNat_toNat]
        · refine ⟨fun h => ?_, fun h => absurd hc (h ▸ by omega)⟩
          have := toNat_ofNat_lowerCode d
          rw [← h] at this
          omega

end EventCourier.LetterCase

namespace EventCourier

open LetterCase

theorem toList_lower (s : String) : (lower s).toList = lowerFrom [] s.toList := String.toList_ofList

/-- A text that holds only small characters is left as it is. -/
theorem lower_of_small {s : String} (h : ∀ c ∈ s.toList, Small c) : lower s = s := by
  rw [lower, lowerFrom_of_small h, String.ofList_toList]

/-- A text in lower case holds only small characters. -/
theorem small_of_mem_lower {s : String} {c : Char} (h : c ∈ (lower s).toList) : Small c :=
  small_of_mem_lowerFrom (toList_lower s ▸ h)

theorem lower_lower (s : String) : lower (lower s) = lower s := lower_of_small fun _ => small_of_mem_lower

end EventCourier
