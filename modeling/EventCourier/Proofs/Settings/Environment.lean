import EventCourier.Proofs.Except
import EventCourier.Proofs.Text.Blank
import EventCourier.Proofs.Text.Digits
import EventCourier.Proofs.Text.Utf8
import EventCourier.Settings.Environment
import Mathlib.Tactic.MkIffOfInductiveProp

/-!
# What variables say

A variable is vacant, or it holds a text with white space around it (`vacant_iff`, `holds_iff`). Its value is the
default in the one case and what the text writes in the other (`parsed_eq_ok_iff`); nothing but a text that cannot be
read is an error (`parsed_eq_error_iff`), and every error names its variable (`SettingError.names_key`). A number is
read just if it is below the limit and written in digits, with a plus sign or without (`readNumber_eq_ok_iff`);
otherwise the first character that is no digit, or takes the number to the limit, decides the fault
(`readNumber_eq_error_iff`). So a kind of variables is said by its texts (`Variable`), and what is read one after the
other is checked in this order (`Reading.inTurn`).
-/

namespace EventCourier

/-! ## Numbers -/

/-- The digits of a number that may have a plus sign. -/
def withoutPlus : List Char → List Char
  | '+' :: cs => cs
  | cs => cs

/-- A text writes a number: in digits, any zeros in front included, with a plus sign or without. -/
structure WritesNumber (t : String) (n : Nat) : Prop where
  ne_nil : withoutPlus t.toList ≠ []
  digits : ∀ c ∈ withoutPlus t.toList, c.isDigit = true
  value : Nat.ofDigitChars 10 (withoutPlus t.toList) 0 = n

section Digits

variable {limit n m : Nat} {cs : List Char} {c : Char} {fault : ValueFault}

/-- Digits behind a number make one below a limit. -/
structure DigitsBelow (limit n : Nat) (cs : List Char) : Prop where
  digits : ∀ c ∈ cs, c.isDigit = true
  below : Nat.ofDigitChars 10 cs n < limit

/-- Why a character cannot stand behind a number. -/
@[mk_iff]
inductive RefusesDigit (limit n : Nat) (c : Char) : ValueFault → Prop
  | invalidDigit (hc : c.isDigit = false) : RefusesDigit limit n c .invalidDigit
  | tooLarge (hc : c.isDigit = true) (hlimit : limit ≤ n * 10 + (c.toNat - 48)) : RefusesDigit limit n c .tooLarge

/-- The first character that cannot stand where it does, behind digits below a limit, and why. -/
def RefusesDigits (limit n : Nat) (cs : List Char) (fault : ValueFault) : Prop :=
  ∃ before c behind, cs = before ++ c :: behind ∧ DigitsBelow limit n before ∧
    RefusesDigit limit (Nat.ofDigitChars 10 before n) c fault

/-- Why a text writes no number below a limit. -/
inductive RefusesNumber (limit : Nat) (t : String) : ValueFault → Prop
  | empty (h : t = "") : RefusesNumber limit t .noDigits
  | onlyPlus (h : t = "+") : RefusesNumber limit t .invalidDigit
  | digits {fault : ValueFault} (h : RefusesDigits limit 0 (withoutPlus t.toList) fault) : RefusesNumber limit t fault

theorem digitsBelow_nil (hn : n < limit) : DigitsBelow limit n [] := ⟨nofun, hn⟩

theorem digitsBelow_cons : DigitsBelow limit n (c :: cs) ↔
    c.isDigit = true ∧ DigitsBelow limit (n * 10 + (c.toNat - 48)) cs := by
  constructor
  · rintro ⟨hdigits, hbelow⟩
    obtain ⟨hc, hcs⟩ := List.forall_mem_cons.mp hdigits
    exact ⟨hc, hcs, ofDigitChars_ten_cons c cs n ▸ hbelow⟩
  · rintro ⟨hc, hcs, hbelow⟩
    exact ⟨List.forall_mem_cons.mpr ⟨hc, hcs⟩, (ofDigitChars_ten_cons c cs n).symm ▸ hbelow⟩

/-- The number in front of the digits is below the limit too. -/
theorem DigitsBelow.lt (h : DigitsBelow limit n cs) : n < limit := Nat.lt_of_le_of_lt (le_ofDigitChars cs n) h.below

/-- Digits are read just if the number that they make is below the limit. -/
theorem digitsOnto_eq_ok_iff (hn : n < limit) :
    digitsOnto limit n cs = .ok m ↔ DigitsBelow limit n cs ∧ Nat.ofDigitChars 10 cs n = m := by
  induction cs generalizing n with
  | nil => simp [digitsOnto, digitsBelow_nil hn]
  | cons c cs ih =>
    rw [digitsOnto, digitsBelow_cons, ofDigitChars_ten_cons]
    split
    · rename_i hc
      split
      · rename_i hlt
        rw [ih hlt, and_iff_right hc]
      · rename_i hge
        simpa using fun _ h => absurd h.lt hge
    · rename_i hc
      simp [hc]

/-- The first character is looked at before those behind it. -/
theorem refusesDigits_cons (hn : n < limit) : RefusesDigits limit n (c :: cs) fault ↔
    RefusesDigit limit n c fault ∨ c.isDigit = true ∧ RefusesDigits limit (n * 10 + (c.toNat - 48)) cs fault := by
  constructor
  · rintro ⟨before, d, behind, heq, hbefore, hd⟩
    cases before with
    | nil =>
      obtain ⟨rfl, rfl⟩ := List.cons.inj heq
      exact Or.inl hd
    | cons b before =>
      obtain ⟨rfl, rfl⟩ := List.cons.inj heq
      obtain ⟨hc, hbefore⟩ := digitsBelow_cons.mp hbefore
      exact Or.inr ⟨hc, before, d, behind, rfl, hbefore, ofDigitChars_ten_cons c before n ▸ hd⟩
  · rintro (hc | ⟨hc, before, d, behind, rfl, hbefore, hd⟩)
    · exact ⟨[], c, cs, rfl, digitsBelow_nil hn, hc⟩
    · exact ⟨c :: before, d, behind, rfl, digitsBelow_cons.mpr ⟨hc, hbefore⟩,
        (ofDigitChars_ten_cons c before n).symm ▸ hd⟩

/-- Nothing is looked at behind a number that has reached the limit. -/
theorem not_refusesDigits (hn : limit ≤ n) : ¬RefusesDigits limit n cs fault := by
  rintro ⟨_, _, _, -, hbefore, -⟩
  exact Nat.not_lt.mpr hn hbefore.lt

/-- Otherwise the first character that does not fit decides. -/
theorem digitsOnto_eq_error_iff (hn : n < limit) :
    digitsOnto limit n cs = .error fault ↔ RefusesDigits limit n cs fault := by
  induction cs generalizing n with
  | nil => simp [digitsOnto, RefusesDigits]
  | cons c cs ih =>
    rw [digitsOnto, refusesDigits_cons hn, refusesDigit_iff]
    split
    · rename_i hc
      split
      · rename_i hlt
        simp [ih hlt, hc, Nat.not_le.mpr hlt]
      · rename_i hge
        have hge := Nat.not_lt.mp hge
        simp [not_refusesDigits hge, hc, hge, eq_comm]
    · rename_i hc
      simp [hc, eq_comm]

/-! ### With a sign -/

variable {t : String}

/-- A text without digits is empty or a mere plus sign; of every other, the digits are read. -/
theorem readNumber_cases (limit : Nat) (t : String) :
    t = "" ∧ readNumber limit t = .error .noDigits ∨ t = "+" ∧ readNumber limit t = .error .invalidDigit ∨
      withoutPlus t.toList ≠ [] ∧ readNumber limit t = digitsOnto limit 0 (withoutPlus t.toList) := by
  unfold readNumber withoutPlus
  split
  · rename_i h
    exact Or.inl ⟨String.toList_eq_nil_iff.mp h, rfl⟩
  · rename_i h
    exact Or.inr (Or.inl ⟨String.toList_inj.mp h, rfl⟩)
  · rename_i hcs h
    rw [h]
    exact Or.inr (Or.inr ⟨hcs, rfl⟩)
  · rename_i hnil _ hplus
    refine Or.inr (Or.inr ?_)
    split
    · rename_i h
      exact absurd h (hplus _)
    · exact ⟨hnil, rfl⟩

/-- A number is read just if it is written and below the limit. -/
theorem readNumber_eq_ok_iff (hlimit : 0 < limit) : readNumber limit t = .ok n ↔ WritesNumber t n ∧ n < limit := by
  rcases readNumber_cases limit t with ⟨rfl, hread⟩ | ⟨rfl, hread⟩ | ⟨hne, hread⟩
  · simpa [hread] using fun h : WritesNumber "" n => absurd rfl h.ne_nil
  · simpa [hread] using fun h : WritesNumber "+" n => absurd rfl h.ne_nil
  · rw [hread, digitsOnto_eq_ok_iff hlimit]
    constructor
    · rintro ⟨⟨hdigits, hbelow⟩, rfl⟩
      exact ⟨⟨hne, hdigits, rfl⟩, hbelow⟩
    · rintro ⟨⟨-, hdigits, rfl⟩, hbelow⟩
      exact ⟨⟨hdigits, hbelow⟩, rfl⟩

/-- Otherwise it is said what is wrong with the text. -/
theorem readNumber_eq_error_iff (hlimit : 0 < limit) :
    readNumber limit t = .error fault ↔ RefusesNumber limit t fault := by
  have hnil : ¬RefusesDigits limit 0 [] fault := by simp [RefusesDigits]
  rcases readNumber_cases limit t with ⟨rfl, hread⟩ | ⟨rfl, hread⟩ | ⟨hne, hread⟩
  · rw [hread]
    constructor
    · intro h
      cases h
      exact .empty rfl
    · intro h
      cases h with
      | empty => rfl
      | onlyPlus h => exact absurd h (by decide)
      | digits h => exact absurd h hnil
  · rw [hread]
    constructor
    · intro h
      cases h
      exact .onlyPlus rfl
    · intro h
      cases h with
      | empty h => exact absurd h (by decide)
      | onlyPlus => rfl
      | digits h => exact absurd h hnil
  · rw [hread, digitsOnto_eq_error_iff hlimit]
    refine ⟨.digits, fun h => ?_⟩
    cases h with
    | empty h => exact absurd (h ▸ rfl) hne
    | onlyPlus h => exact absurd (h ▸ rfl) hne
    | digits h => exact h

end Digits

/-! ## Words -/

/-- A text writes a truth value. -/
inductive WritesBool : String → Bool → Prop
  | true : WritesBool "true" true
  | false : WritesBool "false" false

/-- A text writes a reject policy. -/
inductive WritesPolicy : String → RejectPolicy → Prop
  | deadLetter : WritesPolicy "dead_letter" .deadLetter
  | requeueTransient : WritesPolicy "requeue_transient" .requeueTransient

section Words

variable {t : String} {b : Bool} {p : RejectPolicy} {fault : ValueFault}

theorem readBool_eq_ok_iff : readBool t = .ok b ↔ WritesBool t b := by
  unfold readBool
  constructor
  · intro h
    split_ifs at h with htrue hfalse
    · cases h
      exact htrue ▸ .true
    · cases h
      exact hfalse ▸ .false
  · rintro (_ | _) <;> rfl

theorem readBool_eq_error_iff : readBool t = .error fault ↔ (∀ b, ¬WritesBool t b) ∧ fault = .notBool := by
  simp only [← readBool_eq_ok_iff]
  unfold readBool
  split_ifs <;> simp [eq_comm]

theorem readPolicy_eq_ok_iff : readPolicy t = .ok p ↔ WritesPolicy t p := by
  unfold readPolicy RejectPolicy.ofName?
  constructor
  · intro h
    split_ifs at h with hdead hrequeue
    · cases h
      exact hdead ▸ .deadLetter
    · cases h
      exact hrequeue ▸ .requeueTransient
  · rintro (_ | _) <;> rfl

theorem readPolicy_eq_error_iff :
    readPolicy t = .error fault ↔ (∀ p, ¬WritesPolicy t p) ∧ fault = .unknownWord := by
  simp only [← readPolicy_eq_ok_iff]
  unfold readPolicy
  split <;> simp [eq_comm]

end Words

/-! ## Errors -/

/-- The variable that an error is about. -/
def SettingError.key : SettingError → String
  | .missing key => key
  | .unreadable key _ => key
  | .invalid key _ => key

/-- Every error names its variable. -/
theorem SettingError.names_key (e : SettingError) : ∃ front back, e.message = front ++ e.key ++ back := by
  cases e with
  | missing key => exact ⟨"Environment variable '", "' is required but not set", rfl⟩
  | unreadable key fault =>
    exact ⟨"Failed to parse environment variable '", "': " ++ fault.message, String.append_assoc⟩
  | invalid key details => exact ⟨"Invalid value for '", "': " ++ details, String.append_assoc⟩

/-! ## Variables -/

namespace Environment

variable {env env' : Environment} {key t : String}

/-- A variable says nothing: it is not set, its bytes are those of no text, or the text is blank. -/
inductive Vacant (env : Environment) (key : String) : Prop
  | unset (h : env.raw key = none) : Vacant env key
  | malformed {bytes : List UInt8} (h : env.raw key = some bytes) (hbytes : ∀ s, bytes ≠ Utf8.encode s) : Vacant env key
  | blank {s : String} (h : env.raw key = some (Utf8.encode s)) (hs : IsBlank s) : Vacant env key

/-- A variable is set to a text, with white space around it and none at its ends. -/
structure Holds (env : Environment) (key t : String) : Prop where
  ne_empty : t ≠ ""
  head : ∀ c ∈ t.toList.head?, isBlank c = false
  last : ∀ c ∈ t.toList.getLast?, isBlank c = false
  padded : ∃ front back, IsBlank front ∧ IsBlank back ∧ env.raw key = some (Utf8.encode (front ++ t ++ back))

theorem nonblank?_eq_some {s : String} :
    env.nonblank? key = some s ↔ env.raw key = some (Utf8.encode s) ∧ ¬IsBlank s := by
  simp [nonblank?, get?, Option.filter_eq_some_iff, Option.bind_eq_some_iff, Utf8.text?_eq_some, ← trim_eq_empty]

/-- A variable is vacant just if it counts as absent. -/
theorem vacant_iff : env.Vacant key ↔ env.nonblank? key = none := by
  constructor
  · intro h
    refine Option.eq_none_iff_forall_ne_some.mpr fun s hs => ?_
    obtain ⟨hraw, hs⟩ := nonblank?_eq_some.mp hs
    cases h with
    | unset h => cases h.symm.trans hraw
    | malformed h hbytes => exact hbytes s (Option.some.inj (h.symm.trans hraw))
    | blank h hblank =>
      obtain rfl := Utf8.encode_injective (Option.some.inj (h.symm.trans hraw))
      exact hs hblank
  · intro h
    cases hraw : env.raw key with
    | none => exact .unset hraw
    | some bytes =>
      by_cases htext : ∃ s, bytes = Utf8.encode s
      · obtain ⟨s, rfl⟩ := htext
        refine .blank hraw (not_not.mp fun hs => ?_)
        cases h.symm.trans (nonblank?_eq_some.mpr ⟨hraw, hs⟩)
      · exact .malformed hraw (not_exists.mp htext)

/-- A variable holds what is left of its text without the white space at the ends. -/
theorem holds_iff : env.Holds key t ↔ ∃ s, env.nonblank? key = some s ∧ trim s = t := by
  simp only [nonblank?_eq_some, ← trim_eq_empty]
  constructor
  · rintro ⟨hne, hhead, hlast, front, back, hfront, hback, hraw⟩
    have htrim : trim (front ++ t ++ back) = t := by
      rw [trim_padded hfront hback, trim, trimChars_of_ends hhead hlast, String.ofList_toList]
    exact ⟨_, ⟨hraw, htrim.symm ▸ hne⟩, htrim⟩
  · rintro ⟨s, ⟨hraw, hne⟩, rfl⟩
    obtain ⟨front, back, hfront, hback, heq⟩ := exists_trim s
    refine ⟨hne, ?_, ?_, front, back, hfront, hback, heq ▸ hraw⟩
    · rw [trim, String.toList_ofList]
      exact isBlank_head_trimChars _
    · rw [trim, String.toList_ofList]
      exact isBlank_getLast_trimChars _

/-! ### Their values -/

variable {α : Type} {read : String → Except ValueFault α} {default a : α} {e : SettingError}

/-- The value of a variable is the default if it is vacant, or else what its text is read as. -/
theorem parsed_eq_ok_iff : env.parsed read key default = .ok a ↔
    env.Vacant key ∧ a = default ∨ ∃ t, env.Holds key t ∧ read t = .ok a := by
  simp only [vacant_iff, holds_iff]
  unfold parsed
  cases env.nonblank? key with
  | none => simp [eq_comm]
  | some s => cases hread : read (trim s) <;> simp [hread]

/-- Nothing but a text that cannot be read is an error. -/
theorem parsed_eq_error_iff : env.parsed read key default = .error e ↔
    ∃ t fault, env.Holds key t ∧ read t = .error fault ∧ e = .unreadable key fault := by
  simp only [holds_iff]
  unfold parsed
  cases env.nonblank? key with
  | none => simp
  | some s => cases hread : read (trim s) <;> simp [hread, eq_comm]

/-- What a variable says is in its bytes alone. -/
theorem nonblank?_congr (h : env'.raw key = env.raw key) : env'.nonblank? key = env.nonblank? key := by
  simp only [nonblank?, get?, h]

end Environment

/-! ## Kinds of variables -/

/-- A variable with values of a type: its name, its value if it is vacant, which texts write which values, and which
texts are refused with which error about it. -/
structure Variable (α : Type) where
  key : String
  default : α
  Writes : String → α → Prop
  Refuses : String → SettingError → Prop
  key_of_refuses : ∀ t e, Refuses t e → e.key = key

namespace Variable

/-- A variable for numbers of so many bits. -/
def number (key : String) (bits default : Nat) : Variable Nat where
  key := key
  default := default
  Writes t n := WritesNumber t n ∧ n < Nat.pow 2 bits
  Refuses t e := ∃ fault, RefusesNumber (Nat.pow 2 bits) t fault ∧ e = .unreadable key fault
  key_of_refuses := by
    rintro _ _ ⟨_, -, rfl⟩
    rfl

/-- A variable for a truth value. -/
def bool (key : String) (default : Bool) : Variable Bool where
  key := key
  default := default
  Writes := WritesBool
  Refuses t e := (∀ b, ¬WritesBool t b) ∧ e = .unreadable key .notBool
  key_of_refuses := by
    rintro _ _ ⟨-, rfl⟩
    rfl

/-- A variable for a reject policy. -/
def policy (key : String) (default : RejectPolicy) : Variable RejectPolicy where
  key := key
  default := default
  Writes := WritesPolicy
  Refuses t e := (∀ p, ¬WritesPolicy t p) ∧ e = .unreadable key .unknownWord
  key_of_refuses := by
    rintro _ _ ⟨-, rfl⟩
    rfl

variable {α β : Type} {v : Variable α} {env : Environment} {e : SettingError}

/-- The value of a variable: the default if it is vacant, or else what its text writes. -/
inductive Gives (v : Variable α) (env : Environment) : α → Prop
  | vacant (h : env.Vacant v.key) : Gives v env v.default
  | written {t : String} {a : α} (h : env.Holds v.key t) (ha : v.Writes t a) : Gives v env a

/-- A variable has a value: it is vacant, or its text writes one. -/
def Sound (env : Environment) (v : Variable α) : Prop :=
  env.Vacant v.key ∨ ∃ t, env.Holds v.key t ∧ ∃ a, v.Writes t a

/-- What is wrong with the text of a variable. -/
def Blames (env : Environment) (v : Variable α) (e : SettingError) : Prop := ∃ t, env.Holds v.key t ∧ v.Refuses t e

theorem exists_gives : (∃ a, v.Gives env a) ↔ v.Sound env := by
  constructor
  · rintro ⟨_, h | ⟨h, ha⟩⟩
    · exact Or.inl h
    · exact Or.inr ⟨_, h, _, ha⟩
  · rintro (h | ⟨_, h, _, ha⟩)
    · exact ⟨_, .vacant h⟩
    · exact ⟨_, .written h ha⟩

/-- What is wrong with a variable is said with its name. -/
theorem Blames.names_key (h : v.Blames env e) :
    e.key = v.key ∧ ∃ front back, e.message = front ++ v.key ++ back := by
  obtain ⟨t, -, ht⟩ := h
  have hkey := v.key_of_refuses t e ht
  exact ⟨hkey, hkey ▸ e.names_key⟩

/-- A computation reads a variable: it gives its value, or says what is wrong with it. -/
structure ReadBy (v : Variable α) (env : Environment) (x : Except SettingError α) : Prop where
  ok : ∀ a, x = .ok a ↔ v.Gives env a
  error : ∀ e, x = .error e ↔ v.Blames env e

theorem ReadBy.parsed {read : String → Except ValueFault α} (hok : ∀ t a, read t = .ok a ↔ v.Writes t a)
    (herror : ∀ t e, v.Refuses t e ↔ ∃ fault, read t = .error fault ∧ e = .unreadable v.key fault) :
    v.ReadBy env (env.parsed read v.key v.default) where
  ok a := by
    simp only [Environment.parsed_eq_ok_iff, hok]
    constructor
    · rintro (⟨h, rfl⟩ | ⟨t, h, ha⟩)
      · exact .vacant h
      · exact .written h ha
    · rintro (h | ⟨h, ha⟩)
      · exact Or.inl ⟨h, rfl⟩
      · exact Or.inr ⟨_, h, ha⟩
  error e := by
    simp only [Environment.parsed_eq_error_iff, Blames, herror, exists_and_left]

theorem ReadBy.number (env : Environment) (key : String) (bits default : Nat) :
    (Variable.number key bits default).ReadBy env (env.parsed (readNumber (Nat.pow 2 bits)) key default) := by
  have hlimit : 0 < Nat.pow 2 bits := Nat.two_pow_pos bits
  refine .parsed (fun t n => readNumber_eq_ok_iff hlimit) fun t e => ?_
  simp only [Variable.number, readNumber_eq_error_iff hlimit]

theorem ReadBy.bool (env : Environment) (key : String) (default : Bool) :
    (Variable.bool key default).ReadBy env (env.parsed readBool key default) := by
  refine .parsed (fun t b => readBool_eq_ok_iff) fun t e => ?_
  simp [Variable.bool, readBool_eq_error_iff, and_assoc]

theorem ReadBy.policy (env : Environment) (key : String) (default : RejectPolicy) :
    (Variable.policy key default).ReadBy env (env.parsed readPolicy key default) := by
  refine .parsed (fun t p => readPolicy_eq_ok_iff) fun t e => ?_
  simp [Variable.policy, readPolicy_eq_error_iff, and_assoc]

end Variable

/-- A variable with the computation that reads it. -/
structure Reading (α : Type) extends Variable α where
  read : Environment → Except SettingError α
  readBy : ∀ env, toVariable.ReadBy env (read env)

namespace Reading

/-- A number of so many bits. -/
def number (key : String) (bits default : Nat) : Reading Nat where
  toVariable := .number key bits default
  read env := env.parsed (readNumber (Nat.pow 2 bits)) key default
  readBy env := .number env key bits default

/-- A truth value. -/
def bool (key : String) (default : Bool) : Reading Bool where
  toVariable := .bool key default
  read env := env.parsed readBool key default
  readBy env := .bool env key default

/-- A reject policy. -/
def policy (key : String) (default : RejectPolicy) : Reading RejectPolicy where
  toVariable := .policy key default
  read env := env.parsed readPolicy key default
  readBy env := .policy env key default

variable {α β : Type} {r : Reading α} {env env' : Environment} {a : α} {e : SettingError}

theorem read_eq_ok : r.read env = .ok a ↔ r.Gives env a := (r.readBy env).ok a

theorem read_eq_error : r.read env = .error e ↔ r.Blames env e := (r.readBy env).error e

/-- There is something wrong with a variable just if it has no value. -/
theorem blames_iff : (∃ e, r.Blames env e) ↔ ¬r.Sound env := by
  simp only [← read_eq_error, ← Variable.exists_gives, ← read_eq_ok]
  cases r.read env <;> simp

/-- No other variable has a part in what is read. -/
theorem read_congr (h : env'.raw r.key = env.raw r.key) : r.read env' = r.read env := by
  have hvacant : env'.Vacant r.key ↔ env.Vacant r.key := by
    rw [Environment.vacant_iff, Environment.vacant_iff, Environment.nonblank?_congr h]
  have hholds : ∀ t, env'.Holds r.key t ↔ env.Holds r.key t := by
    simp only [Environment.holds_iff, Environment.nonblank?_congr h, implies_true]
  cases hread : r.read env with
  | ok a =>
    refine read_eq_ok.mpr ?_
    cases read_eq_ok.mp hread with
    | vacant h => exact .vacant (hvacant.mpr h)
    | written h ha => exact .written ((hholds _).mpr h) ha
  | error e =>
    obtain ⟨t, h, ht⟩ := read_eq_error.mp hread
    exact read_eq_error.mpr ⟨t, (hholds t).mpr h, ht⟩

/-- A variable is read before others. -/
theorem inTurn {rs : List (Σ α, Reading α)} {f : α → Except SettingError β}
    (hf : ∀ a, InTurn (fun r => r.2.Sound env) (fun r => r.2.Blames env) rs (f a)) :
    InTurn (fun r => r.2.Sound env) (fun r => r.2.Blames env) (⟨α, r⟩ :: rs) (r.read env >>= f) := by
  refine InTurn.cons ?_ (fun e => read_eq_error) hf
  simp only [read_eq_ok, Variable.exists_gives]

end Reading
end EventCourier
