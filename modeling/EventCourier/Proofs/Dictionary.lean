import EventCourier.Dictionary
import Mathlib.Data.List.Induction
import Mathlib.Data.List.Perm.Basic
import Mathlib.Data.List.Sort

/-!
# Dictionaries after an insertion

Insertion keeps the keys increasing (`increasing_insert`), changes the value of one key only (`get?_insert`),
and exchanges what was under that key for the new value (`perm_flatMap_insert`). A list of entries makes a
dictionary of those that are the last of their keys (`increasing_ofList`, `mem_ofList_iff`), of all as they are if
their keys increase (`ofList_of_increasing`).
-/

namespace EventCourier
namespace Dictionary

variable {α γ : Type}

/-- The keys increase strictly. -/
def Increasing (d : Dictionary α) : Prop := d.Pairwise fun a b => a.1 < b.1

/-- Of two keys, one is the smaller or they are the same. -/
theorem lt_of_not_lt {a b : String} (h : ¬a < b) (hne : a ≠ b) : b < a := by
  by_contra hba
  exact hne (String.le_antisymm (String.not_lt.mp hba) (String.not_lt.mp h))

/-- The entries after an insertion are old ones and the new one. -/
theorem mem_insert {k : String} {v : α} {d : Dictionary α} {e : String × α} (h : e ∈ insert k v d) :
    e = (k, v) ∨ e ∈ d := by
  induction d with
  | nil => exact Or.inl (List.mem_singleton.mp h)
  | cons head rest ih =>
    obtain ⟨k', v'⟩ := head
    unfold insert at h
    split at h
    · rcases List.mem_cons.mp h with h | h
      · exact Or.inl h
      · exact Or.inr h
    · split at h
      · rcases List.mem_cons.mp h with h | h
        · exact Or.inl h
        · exact Or.inr (List.mem_cons_of_mem _ h)
      · rcases List.mem_cons.mp h with h | h
        · exact Or.inr (h ▸ List.mem_cons_self)
        · exact (ih h).imp id (List.mem_cons_of_mem _)

/-- Insertion keeps the keys increasing. -/
theorem increasing_insert (k : String) (v : α) {d : Dictionary α} (hd : Increasing d) :
    Increasing (insert k v d) := by
  induction d with
  | nil => exact List.pairwise_singleton _ _
  | cons head rest ih =>
    obtain ⟨k', v'⟩ := head
    obtain ⟨hhead, hrest⟩ := List.pairwise_cons.mp hd
    unfold insert
    split
    · rename_i hlt
      refine List.pairwise_cons.mpr ⟨fun e he => ?_, hd⟩
      rcases List.mem_cons.mp he with rfl | he
      · exact hlt
      · exact String.lt_trans hlt (hhead e he)
    · split
      · rename_i heq
        exact List.pairwise_cons.mpr ⟨fun e he => heq ▸ hhead e he, hrest⟩
      · rename_i hlt hne
        refine List.pairwise_cons.mpr ⟨fun e he => ?_, ih hrest⟩
        rcases mem_insert he with rfl | he
        · exact lt_of_not_lt hlt hne
        · exact hhead e he

/-- A key below all keys is not there. -/
theorem get?_eq_none {k : String} {d : Dictionary α} (h : ∀ e ∈ d, k < e.1) : get? k d = none := by
  induction d with
  | nil => rfl
  | cons head rest ih =>
    obtain ⟨k', v'⟩ := head
    have hlt : k < k' := h (k', v') List.mem_cons_self
    have hne : ¬k' = k := fun e => String.lt_irrefl k (e ▸ hlt)
    simp only [get?, hne, if_false]
    exact ih fun e he => h e (List.mem_cons_of_mem _ he)

/-- Insertion changes the value of one key only. -/
theorem get?_insert (k key : String) (v : α) (d : Dictionary α) :
    get? key (insert k v d) = if k = key then some v else get? key d := by
  induction d with
  | nil => simp [insert, get?]
  | cons head rest ih =>
    obtain ⟨k', v'⟩ := head
    unfold insert
    split
    · simp [get?]
    · split
      · rename_i heq
        subst heq
        by_cases h : k = key <;> simp [get?, h]
      · rename_i hne
        simp only [get?, ih]
        by_cases h : k = key
        · subst h
          simp [Ne.symm hne]
        · simp [h]

/-- Other keys stay when one is taken out. -/
theorem get?_filter_ne {k key : String} (d : Dictionary α) (h : k ≠ key) :
    get? k (d.filter fun e => e.1 ≠ key) = get? k d := by
  induction d with
  | nil => rfl
  | cons head rest ih =>
    obtain ⟨k', v⟩ := head
    by_cases hk : k' = key
    · rw [List.filter_cons_of_neg (by simpa using hk), ih, get?, if_neg]
      rintro rfl
      exact h hk
    · rw [List.filter_cons_of_pos (by simpa using hk), get?, get?, ih]
/-- Insertion exchanges what was under the key for the new value. -/
theorem perm_flatMap_insert (f : String × α → List γ) (k : String) (v : α) {d : Dictionary α}
    (hd : Increasing d) :
    ((insert k v d).flatMap f ++ (get? k d).elim [] fun u => f (k, u)).Perm (d.flatMap f ++ f (k, v)) := by
  induction d with
  | nil => simp [insert, get?]
  | cons head rest ih =>
    obtain ⟨k', v'⟩ := head
    obtain ⟨hhead, hrest⟩ := List.pairwise_cons.mp hd
    unfold insert
    split
    · rename_i hlt
      have hnone : get? k ((k', v') :: rest) = none := by
        refine get?_eq_none fun e he => ?_
        rcases List.mem_cons.mp he with rfl | he
        · exact hlt
        · exact String.lt_trans hlt (hhead e he)
      rw [hnone, Option.elim_none, List.append_nil]
      exact List.perm_append_comm
    · split
      · rename_i heq
        subst heq
        simp only [get?, List.flatMap_cons, if_true, Option.elim_some]
        calc (f (k, v) ++ rest.flatMap f ++ f (k, v')).Perm (f (k, v') ++ (f (k, v) ++ rest.flatMap f)) :=
              List.perm_append_comm
          (f (k, v') ++ (f (k, v) ++ rest.flatMap f)).Perm (f (k, v') ++ (rest.flatMap f ++ f (k, v))) :=
              List.perm_append_comm.append_left _
          _ = f (k, v') ++ rest.flatMap f ++ f (k, v) := (List.append_assoc ..).symm
      · rename_i hne
        simp only [get?, List.flatMap_cons, Ne.symm hne, if_false, List.append_assoc]
        exact (ih hrest).append_left _

/-! ## Dictionaries of lists -/

/-- A key above all keys is put at the end. -/
theorem insert_of_lt {k : String} {v : α} {d : Dictionary α} (h : ∀ e ∈ d, e.1 < k) :
    insert k v d = d ++ [(k, v)] := by
  induction d with
  | nil => rfl
  | cons head rest ih =>
    obtain ⟨k', v'⟩ := head
    obtain ⟨hlt, hrest⟩ := List.forall_mem_cons.mp h
    have hnlt : ¬k < k' := String.lt_asymm hlt
    have hne : ¬k = k' := fun he => String.lt_irrefl k' (he ▸ hlt)
    rw [insert, if_neg hnlt, if_neg hne, ih hrest, List.cons_append]

/-- Entries are put behind each other as long as their keys increase. -/
theorem foldl_insert_of_increasing (es : List (String × α)) {d : Dictionary α} (h : Increasing (d ++ es)) :
    es.foldl (fun d e => insert e.1 e.2 d) d = d ++ es := by
  induction es generalizing d with
  | nil => exact (List.append_nil d).symm
  | cons e es ih =>
    have hlt : ∀ e' ∈ d, e'.1 < e.1 := fun e' he' =>
      (List.pairwise_append.mp h).2.2 e' he' e List.mem_cons_self
    have hinsert : insert e.1 e.2 d = d ++ [e] := insert_of_lt hlt
    have happend : d ++ [e] ++ es = d ++ e :: es := by simp
    rw [List.foldl_cons, hinsert, ih (happend ▸ h), happend]

/-- Entries with increasing keys are a dictionary as they are. -/
theorem ofList_of_increasing {es : List (String × α)} (h : Increasing es) : ofList es = es :=
  foldl_insert_of_increasing es h

theorem foldl_insert_spec (es : List (String × α)) {d : Dictionary α} (hd : Increasing d) :
    Increasing (es.foldl (fun d e => insert e.1 e.2 d) d) ∧
      ∀ e ∈ es.foldl (fun d e => insert e.1 e.2 d) d, e ∈ d ∨ e ∈ es := by
  induction es generalizing d with
  | nil => exact ⟨hd, fun e he => Or.inl he⟩
  | cons head es ih =>
    obtain ⟨hinc, hmem⟩ := ih (increasing_insert head.1 head.2 hd)
    refine ⟨hinc, fun e he => ?_⟩
    rcases hmem e he with h | h
    · rcases mem_insert h with rfl | h
      · exact Or.inr List.mem_cons_self
      · exact Or.inl h
    · exact Or.inr (List.mem_cons_of_mem _ h)

/-- The keys of the dictionary of a list increase. -/
theorem increasing_ofList (es : List (String × α)) : Increasing (ofList es) :=
  (foldl_insert_spec es List.Pairwise.nil).1

/-- The dictionary of a list holds nothing else. -/
theorem mem_of_mem_ofList {es : List (String × α)} {e : String × α} (h : e ∈ ofList es) : e ∈ es :=
  ((foldl_insert_spec es List.Pairwise.nil).2 e h).resolve_left List.not_mem_nil

/-! ## The last entry of each key -/

variable {es : List (String × α)} {d d' : Dictionary α} {e e' : String × α}

/-- A key has one value. -/
theorem eq_of_key_eq (hd : Increasing d) (he : e ∈ d) (he' : e' ∈ d) (h : e.1 = e'.1) : e = e' := by
  by_contra hne
  have hlt : e.1 < e'.1 ∨ e'.1 < e.1 := by
    induction d with
    | nil => cases he
    | cons head rest ih =>
      obtain ⟨hhead, hrest⟩ := List.pairwise_cons.mp hd
      rcases List.mem_cons.mp he with rfl | hin <;> rcases List.mem_cons.mp he' with rfl | hin'
      · exact absurd rfl hne
      · exact Or.inl (hhead e' hin')
      · exact Or.inr (hhead e hin)
      · exact ih hrest hin hin'
  rw [h] at hlt
  exact hlt.elim (String.lt_irrefl _) (String.lt_irrefl _)

/-- The same entries make the same dictionary. -/
theorem Increasing.ext (hd : Increasing d) (hd' : Increasing d') (h : ∀ e, e ∈ d ↔ e ∈ d') : d = d' := by
  have : Std.Antisymm fun a b : String × α => a.1 < b.1 := ⟨fun _ _ hab hba => absurd hba (String.lt_asymm hab)⟩
  have : Std.Irrefl fun a b : String × α => a.1 < b.1 := ⟨fun a => String.lt_irrefl a.1⟩
  exact List.Pairwise.eq_of_mem_iff hd hd' h

theorem mem_insert_self (k : String) (v : α) (d : Dictionary α) : (k, v) ∈ insert k v d := by
  induction d with
  | nil => exact List.mem_singleton_self _
  | cons head rest ih =>
    unfold insert
    split
    · exact List.mem_cons_self
    · split
      · exact List.mem_cons_self
      · exact List.mem_cons_of_mem _ ih

/-- The entries of other keys stay. -/
theorem mem_insert_of_mem {k : String} (v : α) (he : e ∈ d) (hne : e.1 ≠ k) : e ∈ insert k v d := by
  induction d with
  | nil => cases he
  | cons head rest ih =>
    obtain ⟨k', v'⟩ := head
    unfold insert
    split
    · exact List.mem_cons_of_mem _ he
    · split
      · rename_i heq
        rcases List.mem_cons.mp he with rfl | he
        · exact absurd heq.symm hne
        · exact List.mem_cons_of_mem _ he
      · rcases List.mem_cons.mp he with rfl | he
        · exact List.mem_cons_self
        · exact List.mem_cons_of_mem _ (ih he)

/-- An entry is the last one of its key in a list. -/
def Last (es : List (String × α)) (e : String × α) : Prop :=
  ∃ before later, es = before ++ e :: later ∧ ∀ e' ∈ later, e'.1 ≠ e.1

/-- The last of all entries is the last one of its key, and the only one of it. -/
theorem last_concat : Last (es ++ [e']) e ↔ e = e' ∨ e.1 ≠ e'.1 ∧ Last es e := by
  constructor
  · rintro ⟨before, later, h, hlater⟩
    rcases List.eq_nil_or_concat later with rfl | ⟨init, last, rfl⟩
    · exact Or.inl (List.concat_inj.mp (by simpa using h)).2.symm
    · rw [List.concat_eq_append, ← List.cons_append, ← List.append_assoc] at h
      obtain ⟨rfl, hlast⟩ := List.append_inj' h rfl
      cases hlast
      have hmem : e' ∈ init.concat e' := by simp
      refine Or.inr ⟨(hlater e' hmem).symm, before, init, rfl, ?_⟩
      intro e'' he''
      exact hlater e'' (by simp [he''])
  · rintro (rfl | ⟨hne, before, later, rfl, hlater⟩)
    · exact ⟨es, [], rfl, nofun⟩
    · refine ⟨before, later ++ [e'], by simp, ?_⟩
      intro e'' he''
      rcases List.mem_append.mp he'' with h | h
      · exact hlater e'' h
      · rw [List.mem_singleton.mp h]
        exact hne.symm

/-- **The last value of each key counts.** -/
theorem mem_ofList_iff : e ∈ ofList es ↔ Last es e := by
  induction es using List.reverseRecOn with
  | nil => exact ⟨nofun, fun ⟨before, later, h, _⟩ => by simp at h⟩
  | append_singleton es e' ih =>
    have hinsert : ofList (es ++ [e']) = insert e'.1 e'.2 (ofList es) := by
      rw [ofList, List.foldl_append]
      rfl
    rw [last_concat, hinsert, ← ih]
    constructor
    · intro he
      by_cases hkey : e.1 = e'.1
      · exact Or.inl (eq_of_key_eq (increasing_insert _ _ (increasing_ofList es)) he (mem_insert_self _ _ _) hkey)
      · exact Or.inr ⟨hkey, (mem_insert he).resolve_left fun h => hkey (congrArg Prod.fst h)⟩
    · rintro (rfl | ⟨hne, he⟩)
      · exact mem_insert_self _ _ _
      · exact mem_insert_of_mem _ he hne

/-- If all keys differ, every entry is the last one of its key. -/
theorem last_iff_mem (h : (es.map (·.1)).Nodup) : Last es e ↔ e ∈ es := by
  constructor
  · rintro ⟨before, later, rfl, -⟩
    simp
  · intro he
    obtain ⟨before, later, rfl⟩ := List.append_of_mem he
    refine ⟨before, later, rfl, ?_⟩
    intro e' he' heq
    rw [List.map_append, List.map_cons] at h
    have hcons := (List.nodup_append.mp h).2.1
    exact (List.nodup_cons.mp hcons).1 (heq ▸ List.mem_map_of_mem he')

/-- Only the last values count. -/
theorem ofList_eq_of_last {es' : List (String × α)} (h : ∀ e, Last es e ↔ Last es' e) : ofList es = ofList es' :=
  (increasing_ofList es).ext (increasing_ofList es') fun e => by rw [mem_ofList_iff, mem_ofList_iff, h e]

/-- If all keys differ, the order makes no difference. -/
theorem ofList_eq_of_perm {es' : List (String × α)} (hperm : es.Perm es') (h : (es.map (·.1)).Nodup) :
    ofList es = ofList es' := by
  refine ofList_eq_of_last fun e => ?_
  rw [last_iff_mem h, last_iff_mem ((hperm.map _).nodup_iff.mp h), hperm.mem_iff]

end Dictionary
end EventCourier
