import EventCourier.Json.Reader
import EventCourier.Proofs.Dictionary
import EventCourier.Proofs.Except

/-!
# The shape of documents

How deep a document nests, whether a double is in it, and whether the keys of its objects increase. What the
reader returns is in order and nests no deeper than it may (`value_yields`, `read_spec`). Documents that compare
equal are one document (`eq_of_same`), so what a text is read as can be computed.
-/

namespace EventCourier.Json

mutual

/-- How many containers are open at a time, at most. -/
def depth : Json → Nat
  | .array items => itemsDepth items + 1
  | .object members => membersDepth members + 1
  | _ => 0

/-- The greatest depth of a list of items. -/
def itemsDepth : List Json → Nat
  | [] => 0
  | item :: items => max (depth item) (itemsDepth items)

/-- The greatest depth of the values of a list of members. -/
def membersDepth : List (String × Json) → Nat
  | [] => 0
  | (_, value) :: members => max (depth value) (membersDepth members)

end

mutual

/-- True if one of the numbers is a double. -/
def hasReal : Json → Bool
  | .number (.real _ _) => true
  | .array items => itemsHaveReal items
  | .object members => membersHaveReal members
  | _ => false

/-- True if there is a double in one of the items. -/
def itemsHaveReal : List Json → Bool
  | [] => false
  | item :: items => hasReal item || itemsHaveReal items

/-- True if there is a double in one of the values. -/
def membersHaveReal : List (String × Json) → Bool
  | [] => false
  | (_, value) :: members => hasReal value || membersHaveReal members

end

/-- The keys of every object increase. -/
inductive Ordered : Json → Prop
  | null : Ordered .null
  | bool (b : Bool) : Ordered (.bool b)
  | number (n : Number) : Ordered (.number n)
  | string (s : String) : Ordered (.string s)
  | array {items : List Json} (hitems : ∀ j ∈ items, Ordered j) : Ordered (.array items)
  | object {members : List (String × Json)} (hkeys : Dictionary.Increasing members)
      (hvalues : ∀ m ∈ members, Ordered m.2) : Ordered (.object members)

theorem itemsDepth_le {d : Nat} {items : List Json} : itemsDepth items ≤ d ↔ ∀ j ∈ items, j.depth ≤ d := by
  induction items with
  | nil => simp [itemsDepth]
  | cons item items ih => rw [itemsDepth, Nat.max_le, ih, List.forall_mem_cons]

theorem membersDepth_le {d : Nat} {members : List (String × Json)} :
    membersDepth members ≤ d ↔ ∀ m ∈ members, m.2.depth ≤ d := by
  induction members with
  | nil => simp [membersDepth]
  | cons m members ih =>
    obtain ⟨key, value⟩ := m
    rw [membersDepth, Nat.max_le, ih, List.forall_mem_cons]

theorem itemsHaveReal_eq_false {items : List Json} :
    itemsHaveReal items = false ↔ ∀ j ∈ items, j.hasReal = false := by
  induction items with
  | nil => simp [itemsHaveReal]
  | cons item items ih => simp [itemsHaveReal, ih]

theorem membersHaveReal_eq_false {members : List (String × Json)} :
    membersHaveReal members = false ↔ ∀ m ∈ members, m.2.hasReal = false := by
  induction members with
  | nil => simp [membersHaveReal]
  | cons m members ih =>
    obtain ⟨key, value⟩ := m
    simp [membersHaveReal, ih]

mutual

/-- Documents that compare equal are one document. -/
theorem eq_of_same {a b : Json} (h : same a b = true) : a = b := by
  cases a with
  | null => cases b <;> first | rfl | cases h
  | bool p => cases b with
    | bool q => exact congrArg Json.bool (eq_of_beq h)
    | _ => cases h
  | number m => cases b with
    | number n => exact congrArg Json.number (of_decide_eq_true h)
    | _ => cases h
  | string s => cases b with
    | string t => exact congrArg Json.string (eq_of_beq h)
    | _ => cases h
  | array as => cases b with
    | array bs => exact congrArg Json.array (eq_of_sameItems h)
    | _ => cases h
  | object as => cases b with
    | object bs => exact congrArg Json.object (eq_of_sameMembers h)
    | _ => cases h

theorem eq_of_sameItems : ∀ {as bs : List Json}, sameItems as bs = true → as = bs
  | [], [], _ => rfl
  | _ :: _, _ :: _, h =>
    have ⟨ha, has⟩ := (Bool.and_eq_true _ _).mp h
    congrArg₂ List.cons (eq_of_same ha) (eq_of_sameItems has)

theorem eq_of_sameMembers : ∀ {as bs : List (String × Json)}, sameMembers as bs = true → as = bs
  | [], [], _ => rfl
  | (_, _) :: _, (_, _) :: _, h =>
    have ⟨hm, has⟩ := (Bool.and_eq_true _ _).mp h
    have ⟨hk, ha⟩ := (Bool.and_eq_true _ _).mp hm
    congrArg₂ List.cons (Prod.ext (eq_of_beq hk) (eq_of_same ha)) (eq_of_sameMembers has)

end

namespace Reader

variable {P : Json → Prop} {v : ReaderOf Json}

/-- Whatever is read has a property. -/
def Yields (v : ReaderOf Json) (P : Json → Prop) : Prop := ∀ text j rest, v text = .ok (j, rest) → P j

/-- Every item of an array was read as a value. -/
theorem items_yield (hv : Yields v P) (fuel : Nat) (first : Bool) (text : List Char) {js : List Json}
    {rest : List Char} (h : items v fuel first text = .ok (js, rest)) : ∀ j ∈ js, P j := by
  induction fuel generalizing first text js rest with
  | zero => cases h
  | succ fuel ih =>
    have hnext : ∀ text, (do
        let item ← v text
        let more ← items v fuel false item.2
        return (item.1 :: more.1, more.2)) = Except.ok (js, rest) → ∀ j ∈ js, P j := by
      intro text h
      obtain ⟨item, hitem, h⟩ := bind_eq_ok h
      obtain ⟨more, hmore, h⟩ := bind_eq_ok h
      cases h
      exact List.forall_mem_cons.mpr ⟨hv _ _ _ hitem, ih _ _ hmore⟩
    rw [items] at h
    split at h
    · cases h
    · cases h
      exact fun _ hj => absurd hj List.not_mem_nil
    · split at h
      · exact hnext _ h
      · split at h
        · split at h
          · cases h
          · cases h
          · exact hnext _ h
        · cases h

/-- The value of a member was read as a value. -/
theorem member_yields (hv : Yields v P) {text rest : List Char} {m : String × Json}
    (h : member v text = .ok (m, rest)) : P m.2 := by
  obtain ⟨⟨key, behind⟩, -, h⟩ := bind_eq_ok h
  dsimp only at h
  split at h
  · cases h
  · obtain ⟨⟨value, behind'⟩, hvalue, h⟩ := bind_eq_ok h
    cases h
    exact hv _ _ _ hvalue
  · cases h

/-- The value of every member of an object was read as a value. -/
theorem members_yield (hv : Yields v P) (fuel : Nat) (first : Bool) (text : List Char)
    {ms : List (String × Json)} {rest : List Char} (h : members v fuel first text = .ok (ms, rest)) :
    ∀ m ∈ ms, P m.2 := by
  induction fuel generalizing first text ms rest with
  | zero => cases h
  | succ fuel ih =>
    have hnext : ∀ text, (do
        let m ← member v text
        let more ← members v fuel false m.2
        return (m.1 :: more.1, more.2)) = Except.ok (ms, rest) → ∀ m ∈ ms, P m.2 := by
      intro text h
      obtain ⟨m, hm, h⟩ := bind_eq_ok h
      obtain ⟨more, hmore, h⟩ := bind_eq_ok h
      cases h
      exact List.forall_mem_cons.mpr ⟨member_yields hv hm, ih _ _ hmore⟩
    rw [members] at h
    split at h
    · cases h
    · cases h
      exact fun _ hm => absurd hm List.not_mem_nil
    · split at h
      · split at h
        · exact hnext _ h
        · cases h
      · split at h
        · split at h
          · cases h
          · exact hnext _ h
          · cases h
          · cases h
        · cases h

theorem word_eq {result j : Json} {ws text rest : List Char} (h : word result ws text = .ok (j, rest)) :
    j = result := by
  induction ws generalizing text with
  | nil =>
    cases h
    rfl
  | cons w ws ih =>
    cases text with
    | nil => cases h
    | cons c cs =>
      rw [word] at h
      split at h
      · exact ih h
      · cases h

/-- A value is a scalar, or an array or object of values that were read inside it. -/
theorem valueWith_yields {nested? : Option (ReaderOf Json)} (hscalar : ∀ j, j.Ordered → j.depth = 0 → P j)
    (harray : ∀ v ∈ nested?, ∀ fuel text js rest, items v fuel true text = .ok (js, rest) → P (.array js))
    (hobject : ∀ v ∈ nested?, ∀ fuel text ms rest, members v fuel true text = .ok (ms, rest) →
      P (.object (Dictionary.ofList ms))) : Yields (valueWith nested?) P := by
  intro text j rest h
  rw [valueWith] at h
  split at h
  · cases h
  · rename_i c cs _
    by_cases hn : c = 'n'
    · rw [if_pos hn] at h
      exact word_eq h ▸ hscalar _ .null rfl
    rw [if_neg hn] at h
    by_cases ht : c = 't'
    · rw [if_pos ht] at h
      exact word_eq h ▸ hscalar _ (.bool true) rfl
    rw [if_neg ht] at h
    by_cases hf : c = 'f'
    · rw [if_pos hf] at h
      exact word_eq h ▸ hscalar _ (.bool false) rfl
    rw [if_neg hf] at h
    by_cases hminus : c = '-'
    · rw [if_pos hminus] at h
      obtain ⟨n, -, h⟩ := bind_eq_ok h
      cases h
      exact hscalar _ (.number _) rfl
    rw [if_neg hminus] at h
    by_cases hdigit : (digit? c).isSome = true
    · rw [if_pos hdigit] at h
      obtain ⟨n, -, h⟩ := bind_eq_ok h
      cases h
      exact hscalar _ (.number _) rfl
    rw [if_neg hdigit] at h
    by_cases hquote : c = '"'
    · rw [if_pos hquote] at h
      obtain ⟨s, -, h⟩ := bind_eq_ok h
      cases h
      exact hscalar _ (.string _) rfl
    rw [if_neg hquote] at h
    by_cases hopen : c = '['
    · rw [if_pos hopen] at h
      split at h
      · cases h
      · obtain ⟨js, hjs, h⟩ := bind_eq_ok h
        cases h
        exact harray _ rfl _ _ _ _ hjs
    rw [if_neg hopen] at h
    by_cases hbrace : c = '\x7b'
    · rw [if_pos hbrace] at h
      split at h
      · cases h
      · obtain ⟨ms, hms, h⟩ := bind_eq_ok h
        cases h
        exact hobject _ rfl _ _ _ _ hms
    rw [if_neg hbrace] at h
    cases h

/-- What is read is in order and nests no deeper than it may. -/
theorem value_yields (d : Nat) : Yields (value d) fun j => j.Ordered ∧ j.depth ≤ d := by
  induction d with
  | zero =>
    exact valueWith_yields (fun j hj hdepth => ⟨hj, Nat.le_of_eq hdepth⟩) nofun nofun
  | succ d ih =>
    refine valueWith_yields (fun j hj hdepth => ⟨hj, hdepth ▸ Nat.zero_le _⟩) ?_ ?_
    · intro v hv fuel text js rest h
      cases hv
      have hjs := items_yield ih fuel true text h
      exact ⟨.array fun j hj => (hjs j hj).1, Nat.succ_le_succ (itemsDepth_le.mpr fun j hj => (hjs j hj).2)⟩
    · intro v hv fuel text ms rest h
      cases hv
      have hms : ∀ m ∈ Dictionary.ofList ms, m.2.Ordered ∧ m.2.depth ≤ d := fun m hm =>
        members_yield ih fuel true text h m (Dictionary.mem_of_mem_ofList hm)
      exact ⟨.object (Dictionary.increasing_ofList ms) fun m hm => (hms m hm).1,
        Nat.succ_le_succ (membersDepth_le.mpr fun m hm => (hms m hm).2)⟩

/-- A document that was read is in order and nests no deeper than the limit. -/
theorem read_spec {text : List Char} {j : Json} (h : read text = .ok j) : j.Ordered ∧ j.depth ≤ maxDepth := by
  unfold read at h
  split at h
  · rename_i j' hdocument
    cases h
    obtain ⟨⟨j', rest⟩, hvalue, h⟩ := bind_eq_ok hdocument
    dsimp only at h
    split at h
    · cases h
      exact value_yields maxDepth _ _ _ hvalue
    · cases h
  · cases h

/-- What a text is read as can be computed. -/
theorem read_of_same {text : List Char} {j : Json} (h : (read text).toOption.any (same j) = true) :
    read text = .ok j := by
  cases hread : read text with
  | error e =>
    rw [hread] at h
    cases h
  | ok k =>
    rw [hread] at h
    rw [eq_of_same h]

end Reader
end EventCourier.Json
