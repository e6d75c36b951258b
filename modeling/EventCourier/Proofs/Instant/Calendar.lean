import EventCourier.Instant.Calendar

/-!
# Days and dates

A year has 365 or 366 days (`daysBeforeYear_succ`), and the year of a day begins no later than on that day and ends
behind it (`yearOfDay_spec`). So the date of a day is one that the calendar has (`exists_ofDayNumber`), and it has
the number of that day (`dayNumber_ofDayNumber`).
-/

namespace EventCourier.Calendar

/-! ## Years -/

theorem isLeap_iff {year : Int} : isLeap year = true ↔ year % 4 = 0 ∧ (year % 100 ≠ 0 ∨ year % 400 = 0) := by
  simp [isLeap]

/-- The length of a year. -/
theorem daysBeforeYear_succ (year : Int) :
    daysBeforeYear (year + 1) = daysBeforeYear year + if isLeap year then 366 else 365 := by
  have hleap := @isLeap_iff year
  unfold daysBeforeYear
  by_cases h : isLeap year = true
  · rw [if_pos h]
    have := hleap.mp h
    omega
  · rw [if_neg h]
    rw [hleap] at h
    omega

/-- A day lies between the start of its year and that of the next one. -/
theorem yearOfDay_spec (day : Int) :
    daysBeforeYear (yearOfDay day) ≤ day ∧ day < daysBeforeYear (yearOfDay day + 1) := by
  -- the mean length of a year is off by less than a year over any time
  have hlow : daysBeforeYear (day * 400 / 146097 - 1) ≤ day := by
    unfold daysBeforeYear
    omega
  have hhigh : day < daysBeforeYear (day * 400 / 146097 + 1 + 1) := by
    unfold daysBeforeYear
    omega
  unfold yearOfDay
  dsimp only
  split
  · rename_i h
    rw [Int.sub_add_cancel]
    exact ⟨hlow, h⟩
  · split
    · rename_i h
      exact ⟨h, hhigh⟩
    · omega

/-- The years from 0 to 9999, by the numbers of their days. -/
theorem yearOfDay_range (day : Int) :
    0 ≤ yearOfDay day ∧ yearOfDay day ≤ 9999 ↔ 0 ≤ day ∧ day < daysBeforeYear 10000 := by
  obtain ⟨hstart, hend⟩ := yearOfDay_spec day
  unfold daysBeforeYear at *
  omega

/-! ## Months -/

/-- A day is split into the days of whole months and a day in the next of them. -/
theorem monthAndDay_spec {lengths : List Nat} (month rest : Nat) (h : rest < total lengths) :
    ∃ i length day, lengths[i]? = some length ∧ day < length ∧ rest = total (lengths.take i) + day ∧
      monthAndDay lengths month rest = (month + i, day + 1) := by
  induction lengths generalizing month rest with
  | nil => cases h
  | cons length later ih =>
    unfold monthAndDay
    split
    · rename_i hrest
      exact ⟨0, length, rest, by simp, hrest, by simp [total], by simp⟩
    · rename_i hrest
      rw [total] at h
      obtain ⟨i, length', day, hi, hday, hrest', heq⟩ := ih (month + 1) (rest - length) (by omega)
      refine ⟨i + 1, length', day, by simpa using hi, hday, ?_, ?_⟩
      · rw [List.take_succ_cons, total]
        omega
      · rw [heq, Nat.add_assoc, Nat.add_comm 1]

theorem total_monthLengths (leap : Bool) : total (monthLengths leap) = if leap then 366 else 365 := by
  cases leap <;> rfl

/-- There are twelve months of at most 31 days. -/
theorem monthLength?_eq_some {leap : Bool} {month length : Nat} (h : monthLength? leap month = some length) :
    1 ≤ month ∧ month ≤ 12 ∧ length ≤ 31 := by
  cases month with
  | zero => cases h
  | succ month =>
    have hmonth : month < 12 := by
      have := (List.getElem?_eq_some_iff.mp h).1
      simpa [monthLengths] using this
    have hlength : ∀ l ∈ monthLengths leap, l ≤ 31 := by cases leap <;> decide
    exact ⟨by omega, by omega, hlength length (List.mem_of_getElem? h)⟩

/-! ## Dates -/

theorem Date.exists_iff {d : Date} : d.exists = true ↔ (-262143 ≤ d.year ∧ d.year ≤ 262142) ∧
    ∃ length, monthLength? (isLeap d.year) d.month = some length ∧ 1 ≤ d.day ∧ d.day ≤ length := by
  unfold Date.exists yearInRange
  cases monthLength? (isLeap d.year) d.month <;> simp

/-- A date has a month of the year and a day of the month. -/
theorem Date.bounds {d : Date} (h : d.exists = true) :
    (1 ≤ d.month ∧ d.month ≤ 12) ∧ 1 ≤ d.day ∧ d.day ≤ 31 := by
  obtain ⟨-, length, hlength, hday⟩ := Date.exists_iff.mp h
  have := monthLength?_eq_some hlength
  omega

/-- The date of a day, its month with the length and the days before it. -/
theorem ofDayNumber_spec (day : Int) : ∃ month length rest : Nat,
    Date.ofDayNumber day = ⟨yearOfDay day, month, rest + 1⟩ ∧
      monthLength? (isLeap (yearOfDay day)) month = some length ∧ rest < length ∧
      day = daysBeforeYear (yearOfDay day) + daysBeforeMonth (isLeap (yearOfDay day)) month + rest := by
  obtain ⟨hstart, hend⟩ := yearOfDay_spec day
  rw [daysBeforeYear_succ] at hend
  have hrest : (day - daysBeforeYear (yearOfDay day)).toNat < total (monthLengths (isLeap (yearOfDay day))) := by
    rw [total_monthLengths]
    split at hend <;> simp [*] <;> omega
  obtain ⟨i, length, rest, hi, hlt, hsplit, heq⟩ := monthAndDay_spec 1 _ hrest
  refine ⟨1 + i, length, rest, ?_, ?_, hlt, ?_⟩
  · unfold Date.ofDayNumber
    dsimp only
    rw [heq]
  · rwa [Nat.add_comm]
  · rw [daysBeforeMonth, Nat.add_sub_cancel_left]
    omega

/-- **The date of a day has the number of that day.** -/
theorem dayNumber_ofDayNumber (day : Int) : (Date.ofDayNumber day).dayNumber = day := by
  obtain ⟨month, length, rest, hdate, -, -, hday⟩ := ofDayNumber_spec day
  rw [hdate, Date.dayNumber]
  dsimp only
  omega

/-- The date of a day is one that the calendar has. -/
theorem exists_ofDayNumber {day : Int} (hyear : -262143 ≤ yearOfDay day ∧ yearOfDay day ≤ 262142) :
    (Date.ofDayNumber day).exists = true := by
  obtain ⟨month, length, rest, hdate, hmonth, hrest, -⟩ := ofDayNumber_spec day
  rw [hdate, Date.exists_iff]
  exact ⟨hyear, length, hmonth, Nat.succ_pos rest, hrest⟩

end EventCourier.Calendar
