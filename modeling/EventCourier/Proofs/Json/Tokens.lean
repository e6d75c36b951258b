import EventCourier.Json.Reader
import EventCourier.Proofs.Text.Digits

/-!
# Strings and integers of documents are read back

What `Json.quote` and `Number.integerChars` write, the reader reads: a string up to its closing quote
(`string_quote`), an integer of 64 bits up to a character that cannot go on with it (`number_integerChars`).
-/

namespace EventCourier.Json.Reader

variable {rest text : List Char}

/-! ## Strings -/

theorem value?_hexDigit : ∀ n < 16, Hex.value? (hexDigit n) = some n := by decide

/-- Four characters are at least four bytes. -/
theorem four_le_byteCount (a b c d : Char) (rest : List Char) : 4 ≤ byteCount (a :: b :: c :: d :: rest) := by
  have ha := a.utf8Size_pos
  have hb := b.utf8Size_pos
  have hc := c.utf8Size_pos
  have hd := d.utf8Size_pos
  simp only [byteCount, List.map_cons, total]
  omega

/-- The escape of a control character is read back. -/
theorem unicodeEscape_control {n : Nat} (h : n < 0x20) :
    unicodeEscape ('0' :: '0' :: hexDigit (n / 16) :: hexDigit (n % 16) :: rest) = .ok (Char.ofNat n, rest) := by
  have hsum : n / 16 * 16 + n % 16 = n := by omega
  have hhex : hexEscape ('0' :: '0' :: hexDigit (n / 16) :: hexDigit (n % 16) :: rest) = .ok (n, rest) := by
    have hlen := four_le_byteCount '0' '0' (hexDigit (n / 16)) (hexDigit (n % 16)) rest
    have hzero : Hex.value? '0' = some 0 := rfl
    rw [hexEscape, if_neg (by omega)]
    simp [hzero, value?_hexDigit (n / 16) (by omega), value?_hexDigit (n % 16) (by omega), hsum]
  have hunit : ¬(0xDC00 ≤ n ∧ n ≤ 0xDFFF) ∧ (n < 0xD800 ∨ 0xDBFF < n) := by omega
  simp only [unicodeEscape, hhex, bind, Except.bind]
  rw [if_neg hunit.1, if_pos hunit.2]
  rfl

/-- What stands for a character in a string: an escape that is read as that character, or the character. -/
theorem escapeChar_cases (c : Char) :
    (∃ e, escapeChar c = '\\' :: e ∧ ∀ text, escape (e ++ text) = .ok (c, text)) ∨
      (escapeChar c = [c] ∧ c ≠ '"' ∧ c ≠ '\\' ∧ ¬c.toNat < 0x20) := by
  by_cases hquote : c = '"'
  · exact Or.inl ⟨['"'], by rw [hquote]; rfl, fun _ => by rw [hquote]; rfl⟩
  by_cases hslash : c = '\\'
  · exact Or.inl ⟨['\\'], by rw [hslash]; rfl, fun _ => by rw [hslash]; rfl⟩
  by_cases hfeed : c = '\n'
  · exact Or.inl ⟨['n'], by rw [hfeed]; rfl, fun _ => by rw [hfeed]; rfl⟩
  by_cases hreturn : c = '\r'
  · exact Or.inl ⟨['r'], by rw [hreturn]; rfl, fun _ => by rw [hreturn]; rfl⟩
  by_cases htab : c = '\t'
  · exact Or.inl ⟨['t'], by rw [htab]; rfl, fun _ => by rw [htab]; rfl⟩
  by_cases hback : c = '\x08'
  · exact Or.inl ⟨['b'], by rw [hback]; rfl, fun _ => by rw [hback]; rfl⟩
  by_cases hform : c = '\x0c'
  · exact Or.inl ⟨['f'], by rw [hform]; rfl, fun _ => by rw [hform]; rfl⟩
  rw [escapeChar, if_neg hquote, if_neg hslash, if_neg hfeed, if_neg hreturn, if_neg htab, if_neg hback,
    if_neg hform]
  by_cases hcontrol : c.toNat < 0x20
  · rw [if_pos hcontrol]
    refine Or.inl ⟨_, rfl, fun text => ?_⟩
    have hread := @unicodeEscape_control text c.toNat hcontrol
    rwa [Char.ofNat_toNat] at hread
  · rw [if_neg hcontrol]
    exact Or.inr ⟨rfl, hquote, hslash, hcontrol⟩

/-- A character of a string is read back. -/
theorem stringBody_escapeChar (c : Char) {fuel : Nat} {ds : List Char}
    (h : stringBody fuel text = .ok (ds, rest)) :
    stringBody (fuel + 1) (escapeChar c ++ text) = .ok (c :: ds, rest) := by
  rcases escapeChar_cases c with ⟨e, hc, he⟩ | ⟨hc, hquote, hslash, hcontrol⟩
  · rw [hc, List.cons_append]
    simp [stringBody, he, h, bind, Except.bind, pure, Except.pure]
  · rw [hc, List.singleton_append]
    simp [stringBody, hquote, hslash, hcontrol, h, bind, Except.bind, pure, Except.pure]

/-- The characters of a string are read back up to the closing quote. -/
theorem stringBody_flatMap (cs : List Char) {fuel : Nat} (hfuel : cs.length < fuel) (rest : List Char) :
    stringBody fuel (cs.flatMap escapeChar ++ '"' :: rest) = .ok (cs, rest) := by
  induction cs generalizing fuel with
  | nil =>
    obtain ⟨fuel, rfl⟩ := Nat.exists_eq_add_one_of_ne_zero (Nat.ne_of_gt hfuel)
    simp [stringBody]
  | cons c cs ih =>
    obtain ⟨fuel, rfl⟩ := Nat.exists_eq_add_one_of_ne_zero (Nat.ne_of_gt (Nat.zero_lt_of_lt hfuel))
    rw [List.flatMap_cons, List.append_assoc]
    exact stringBody_escapeChar c (ih (Nat.lt_of_succ_lt_succ hfuel))

/-- Every character takes a character at least. -/
theorem length_le_flatMap_escapeChar (cs : List Char) : cs.length ≤ (cs.flatMap escapeChar).length := by
  induction cs with
  | nil => exact Nat.le_refl _
  | cons c cs ih =>
    have hpos : 0 < (escapeChar c).length := by
      rcases escapeChar_cases c with ⟨e, hc, -⟩ | ⟨hc, -⟩ <;> rw [hc] <;> exact Nat.succ_pos _
    rw [List.flatMap_cons, List.length_append, List.length_cons]
    omega

/-- A quoted text is read back, behind its opening quote. -/
theorem string_quote (s : String) (rest : List Char) :
    string (s.toList.flatMap escapeChar ++ '"' :: rest) = .ok (s, rest) := by
  have hlen := length_le_flatMap_escapeChar s.toList
  have hfuel : s.toList.length < (s.toList.flatMap escapeChar ++ '"' :: rest).length + 1 := by
    rw [List.length_append]
    omega
  rw [string, stringBody_flatMap s.toList hfuel]
  simp only [bind, Except.bind, pure, Except.pure, String.ofList_toList]

theorem quote_append (s : String) (rest : List Char) :
    quote s ++ rest = '"' :: (s.toList.flatMap escapeChar ++ '"' :: rest) := by simp [quote]

/-! ## Integers -/

/-- The text does not go on with a number. -/
def EndsNumber (rest : List Char) : Prop :=
  ∀ c ∈ rest.head?, digit? c = none ∧ c ≠ '.' ∧ c ≠ 'e' ∧ c ≠ 'E'

theorem digit?_isDigit {c : Char} (h : c.isDigit = true) : digit? c = some (c.toNat - 48) := by
  have hrange : 48 ≤ c.toNat ∧ c.toNat ≤ 57 := by
    simpa [Char.isDigit, UInt32.le_iff_toNat_le] using h
  rw [digit?, if_pos hrange]

theorem startsWithDigit_eq_false (h : EndsNumber rest) : startsWithDigit rest = false := by
  cases rest with
  | nil => rfl
  | cons c rest => simp [startsWithDigit, (h c rfl).1]

theorem afterWhole_eq (h : EndsNumber rest) (negative : Bool) (n : Nat) :
    afterWhole negative n rest = wholeNumber negative n rest := by
  unfold afterWhole
  split
  · exact absurd rfl (h _ rfl).2.1
  · exact absurd rfl (h _ rfl).2.2.1
  · exact absurd rfl (h _ rfl).2.2.2
  · rfl

/-- Digits are read as long as the number that they make keeps below the limit. -/
theorem digitsBelow_append {limit : Nat} (ds : List Char) (hds : ∀ c ∈ ds, c.isDigit = true)
    (hrest : EndsNumber rest) (acc count : Nat) (hlimit : Nat.ofDigitChars 10 ds acc < limit) :
    digitsBelow limit acc count (ds ++ rest) = (Nat.ofDigitChars 10 ds acc, count + ds.length, rest) := by
  induction ds generalizing acc count with
  | nil =>
    cases rest with
    | nil => rfl
    | cons c rest => simp [digitsBelow, (hrest c rfl).1]
  | cons c cs ih =>
    obtain ⟨hc, hcs⟩ := List.forall_mem_cons.mp hds
    rw [ofDigitChars_ten_cons] at hlimit ⊢
    have hbelow : acc * 10 + (c.toNat - 48) < limit := Nat.lt_of_le_of_lt (le_ofDigitChars cs _) hlimit
    rw [List.cons_append, digitsBelow, digit?_isDigit hc]
    simp only [hbelow, if_true]
    rw [ih hcs _ _ hlimit, List.length_cons, Nat.add_assoc, Nat.add_comm 1]

/-- The first digit of a number above zero is not zero. -/
theorem toDigits_pos (n : Nat) (hn : 0 < n) :
    ∃ d cs, Nat.toDigits 10 n = Nat.digitChar d :: cs ∧ 0 < d ∧ d < 10 := by
  induction n using Nat.strongRecOn with
  | ind n ih =>
    by_cases h : n < 10
    · exact ⟨n, [], Nat.toDigits_of_lt_base h, hn, h⟩
    · obtain ⟨d, cs, hdigits, hd⟩ := ih (n / 10) (by omega) (by omega)
      exact ⟨d, cs ++ [(n % 10).digitChar], by
        rw [Nat.toDigits_of_base_le (by decide) (by omega), hdigits, List.cons_append], hd⟩

theorem digit?_digitChar : ∀ d < 10, digit? (Nat.digitChar d) = some d := by decide

/-- The digits of a number are read back. -/
theorem number_toDigits (negative : Bool) {n : Nat} (hn : n < significandLimit) (hrest : EndsNumber rest) :
    number negative (Nat.toDigits 10 n ++ rest) = wholeNumber negative n rest := by
  have hstart := startsWithDigit_eq_false hrest
  rcases Nat.eq_zero_or_pos n with rfl | hpos
  · have hzero : digit? '0' = some 0 := rfl
    simp [number, hzero, hstart, afterWhole_eq hrest]
  · obtain ⟨d, cs, hdigits, hd, hd'⟩ := toDigits_pos n hpos
    have hcs : ∀ c ∈ cs, c.isDigit = true := fun c hc =>
      Nat.isDigit_of_mem_toDigits (by decide) (by decide) (hdigits ▸ List.mem_cons_of_mem _ hc)
    have hvalue : Nat.ofDigitChars 10 cs d = n := by
      rw [← Nat.ofDigitChars_ten_toDigits (n := n), hdigits, Nat.ofDigitChars_cons_digitChar_of_lt_ten hd',
        Nat.mul_zero, Nat.zero_add]
    have hread := digitsBelow_append cs hcs hrest d 1 (hvalue ▸ hn)
    rw [hvalue] at hread
    obtain ⟨k, rfl⟩ : ∃ k, d = k + 1 := ⟨d - 1, by omega⟩
    simp [hdigits, number, digit?_digitChar _ hd', hread, hstart, afterWhole_eq hrest]

end EventCourier.Json.Reader
