import EventCourier.Proofs.Except
import EventCourier.Proofs.Text.Blank
import EventCourier.Proofs.Text.Split
import EventCourier.Settings.Topics
import Mathlib.Data.List.ProdSigma

/-!
# Topics that are accepted

A list is cut into parts by commas in one way (`listOf_iff`). A part is read as a token or as a pair just if it writes
one (`token_eq_ok_iff`, `pair_eq_ok_iff`), so a list is read just if all of its parts write something, and otherwise
the first part that does not is named (`mapM_items_ok`, `mapM_items_error`). So it can be said what is accepted, with
which result, and what is refused, with which error (`read_iff_written`). The tokens of topics that are accepted are
not blank and hold no dot, and there is at least one topic (`read_spec`).
-/

namespace EventCourier

/-- An entity or an event as it may be configured: not blank, and without dots. -/
structure IsToken (s : String) : Prop where
  trim_ne : trim s ≠ ""
  dot_notMem : '.' ∉ s.toList

theorem isToken_trim {s : String} (hne : trim s ≠ "") (hdot : '.' ∉ s.toList) : IsToken (trim s) where
  trim_ne := by rwa [trim_trim]
  dot_notMem := by
    rw [trim, String.toList_ofList]
    exact fun h => hdot (mem_of_mem_trimChars h)

namespace Topics

/-! ## What texts write -/

/-- A text is a list of parts: they hold no comma, and make up the text with a comma between any two. -/
structure ListOf (raw : String) (parts : List String) : Prop where
  ne_nil : parts ≠ []
  comma_notMem : ∀ part ∈ parts, ',' ∉ part.toList
  joined : raw = ",".intercalate parts

/-- A part of a list writes a token, with white space around it. -/
def WritesToken (part token : String) : Prop := IsToken part ∧ token = trim part

/-- A part of a list writes a pair: two tokens with a dot between them, and white space around each. -/
def WritesPair (part : String) (pair : Topic) : Prop :=
  ∃ entity event : String, part = entity ++ "." ++ event ∧ IsToken entity ∧ IsToken event ∧
    pair = ⟨trim entity, trim event⟩

/-- Why a part of a list under a key is no token. -/
inductive RefusesToken (key raw part : String) : SettingError → Prop
  | blank (hblank : trim part = "") : RefusesToken key raw part (.invalid key s!"empty token in '{raw}'")
  | dotted (hne : trim part ≠ "") (hdot : '.' ∈ part.toList) :
      RefusesToken key raw part (.invalid key s!"'{trim part}' must not contain '.'")

/-- A part of the list of pairs is no pair. -/
def RefusesPair (part : String) (e : SettingError) : Prop :=
  (∀ pair, ¬WritesPair part pair) ∧ e = .invalid pairsKey s!"'{trim part}' is not of the form entity.event"

section Lists

variable {α : Type} (Means : String → α → Prop) (Refuses : String → SettingError → Prop)

/-- The parts of a text write the items of a list, one after the other. -/
def Writes (raw : String) (as : List α) : Prop := ∃ parts, ListOf raw parts ∧ List.Forall₂ Means parts as

/-- The first part of a text that writes nothing is refused. -/
def FirstRefused (raw : String) (e : SettingError) : Prop :=
  ∃ before part behind, ListOf raw (before ++ part :: behind) ∧ (∀ b ∈ before, ∃ a, Means b a) ∧ Refuses part e

/-- A setting writes the items of a list; one that is not given writes none. -/
def Gives : Option String → List α → Prop
  | none, as => as = []
  | some raw, as => Writes Means raw as

end Lists

/-- The settings write topics: both lists are given or neither, one source is given at least, and each of them writes
its items. -/
structure Written (entities? events? pairs? : Option String) (t : Topics) : Prop where
  both : entities?.isSome = events?.isSome
  source : entities?.isSome = true ∨ pairs?.isSome = true
  entities : Gives WritesToken entities? t.entities
  events : Gives WritesToken events? t.events
  pairs : Gives WritesPair pairs? t.pairs

/-- Why settings write no topics: one list is given without the other; or else a part of a list is refused, of the
entities before the events and the pairs last; or else nothing is given. -/
inductive Refused : Option String → Option String → Option String → SettingError → Prop
  | noEvents (entities : String) (pairs? : Option String) : Refused (some entities) none pairs? (.missing eventsKey)
  | noEntities (events : String) (pairs? : Option String) : Refused none (some events) pairs? (.missing entitiesKey)
  | entity {entities : String} (events : String) (pairs? : Option String) {e : SettingError}
      (h : FirstRefused WritesToken (RefusesToken entitiesKey entities) entities e) :
      Refused (some entities) (some events) pairs? e
  | event {entities events : String} {es : List String} (pairs? : Option String) {e : SettingError}
      (hentities : Writes WritesToken entities es)
      (h : FirstRefused WritesToken (RefusesToken eventsKey events) events e) :
      Refused (some entities) (some events) pairs? e
  | pair {entities? events? : Option String} {es vs : List String} {pairs : String} {e : SettingError}
      (hboth : entities?.isSome = events?.isSome) (hentities : Gives WritesToken entities? es)
      (hevents : Gives WritesToken events? vs) (h : FirstRefused WritesPair RefusesPair pairs e) :
      Refused entities? events? (some pairs) e
  | nothing : Refused none none none
      (.invalid pairsKey s!"set {pairsKey} or both {entitiesKey} and {eventsKey}")

/-! ## Lists -/

/-- The text is cut into the parts of the list. -/
theorem listOf_iff {raw : String} {parts : List String} :
    ListOf raw parts ↔ splitAtAll (· == ',') raw.toList = parts.map String.toList := by
  rw [splitAtAll_eq_iff, ← show ",".toList = [','] from rfl, ← String.toList_intercalate, String.toList_inj]
  constructor
  · intro h
    exact ⟨by simpa using h.ne_nil, by simpa using h.comma_notMem, h.joined⟩
  · rintro ⟨hne, hparts, hjoined⟩
    exact ⟨by simpa using hne, by simpa using hparts, hjoined⟩

theorem exists_listOf (raw : String) : ∃ parts, ListOf raw parts :=
  ⟨(splitAtAll (· == ',') raw.toList).map String.ofList, by simp [listOf_iff, Function.comp_def]⟩

theorem items_of_listOf {raw : String} {parts : List String} (h : ListOf raw parts) : items raw = parts.map trim := by
  rw [items, listOf_iff.mp h, List.map_map]
  rfl

/-- A text is a list in one way. -/
theorem ListOf.unique {raw : String} {parts parts' : List String} (h : ListOf raw parts) (h' : ListOf raw parts') :
    parts = parts' :=
  List.map_injective_iff.mpr (fun _ _ => String.toList_injective) ((listOf_iff.mp h).symm.trans (listOf_iff.mp h'))

section Lists

variable {α : Type} {Means : String → α → Prop} {Refuses : String → SettingError → Prop}
  {f : String → Except SettingError α} {raw : String}

/-- A list is read just if all of its parts write something. -/
theorem mapM_items_ok (hf : ∀ part a, f (trim part) = .ok a ↔ Means part a) {as : List α} :
    (items raw).mapM f = .ok as ↔ Writes Means raw as := by
  obtain ⟨parts, hparts⟩ := exists_listOf raw
  rw [items_of_listOf hparts, mapM_eq_ok_iff, List.forall₂_map_left_iff]
  simp only [hf]
  constructor
  · intro h
    exact ⟨parts, hparts, h⟩
  · rintro ⟨parts', hparts', h⟩
    rwa [hparts.unique hparts']

/-- Otherwise the first part that does not is refused. -/
theorem mapM_items_error (hf : ∀ part a, f (trim part) = .ok a ↔ Means part a)
    (hf' : ∀ part e, f (trim part) = .error e ↔ Refuses part e) {e : SettingError} :
    (items raw).mapM f = .error e ↔ FirstRefused Means Refuses raw e := by
  obtain ⟨parts, hparts⟩ := exists_listOf raw
  rw [items_of_listOf hparts, mapM_eq_error_iff]
  constructor
  · rintro ⟨before, item, behind, hsplit, hbefore, herror⟩
    obtain ⟨before', rest, rfl, rfl, hrest⟩ := List.map_eq_append_iff.mp hsplit
    obtain ⟨part, behind', rfl, rfl, -⟩ := List.map_eq_cons_iff.mp hrest
    refine ⟨before', part, behind', hparts, ?_, (hf' part e).mp herror⟩
    simpa only [List.forall_mem_map, hf] using hbefore
  · rintro ⟨before, part, behind, hparts', hbefore, hrefused⟩
    refine ⟨before.map trim, trim part, behind.map trim, ?_, ?_, (hf' part e).mpr hrefused⟩
    · rw [hparts.unique hparts', List.map_append, List.map_cons]
    · simpa only [List.forall_mem_map, hf] using hbefore

theorem Writes.ne_nil {as : List α} (h : Writes Means raw as) : as ≠ [] := by
  obtain ⟨parts, hparts, hwrites⟩ := h
  rintro rfl
  exact hparts.ne_nil (List.forall₂_nil_right_iff.mp hwrites)

end Lists

/-! ## Tokens and pairs -/

theorem isBlank_dot : isBlank '.' = false := by decide

/-- A trimmed part is read as a token just if it writes one. -/
theorem token_eq_ok_iff (key raw part t : String) : token key raw (trim part) = .ok t ↔ WritesToken part t := by
  have hdot := @mem_trim_iff '.' part isBlank_dot
  unfold token
  constructor
  · intro h
    split at h
    · cases h
    · rename_i hne
      split at h
      · cases h
      · rename_i hnodot
        exact ⟨⟨by simpa using hne, by simpa [hdot] using hnodot⟩, (Except.ok.inj h).symm⟩
  · rintro ⟨h, rfl⟩
    rw [if_neg (by simpa using h.trim_ne), if_neg (by simpa [hdot] using h.dot_notMem)]

theorem token_eq_error_iff (key raw part : String) (e : SettingError) :
    token key raw (trim part) = .error e ↔ RefusesToken key raw part e := by
  have hdot := @mem_trim_iff '.' part isBlank_dot
  unfold token
  constructor
  · intro h
    split at h
    · rename_i hempty
      cases h
      exact .blank (by simpa using hempty)
    · rename_i hne
      split at h
      · rename_i hmem
        cases h
        exact .dotted (by simpa using hne) (by simpa [hdot] using hmem)
      · cases h
  · rintro (hblank | ⟨hne, hmem⟩)
    · rw [if_pos (by simpa using hblank)]
    · rw [if_neg (by simpa using hne), if_pos (by simpa [hdot] using hmem)]

/-- The same token is written in more white space. -/
theorem isToken_padded {front back s : String} (hfront : IsBlank front) (hback : IsBlank back) :
    IsToken (front ++ s ++ back) ↔ IsToken s := by
  have hmem : '.' ∈ (front ++ s ++ back).toList ↔ '.' ∈ s.toList := by
    simp [not_mem_of_blank isBlank_dot hfront, not_mem_of_blank isBlank_dot hback]
  constructor
  · intro h
    exact ⟨trim_padded hfront hback s ▸ h.trim_ne, fun hdot => h.dot_notMem (hmem.mpr hdot)⟩
  · intro h
    exact ⟨(trim_padded hfront hback s).symm ▸ h.trim_ne, fun hdot => h.dot_notMem (hmem.mp hdot)⟩

/-- White space around a pair makes no difference. -/
theorem writesPair_trim (part : String) (p : Topic) : WritesPair (trim part) p ↔ WritesPair part p := by
  obtain ⟨front, back, hfront, hback, hpart⟩ := exists_trim part
  have hnone : IsBlank "" := nofun
  constructor
  · rintro ⟨x, y, hsplit, hx, hy, rfl⟩
    refine ⟨front ++ x, y ++ back, ?_, ?_, ?_, ?_⟩
    · rw [hpart, hsplit]
      simp [String.append_assoc]
    · simpa using (isToken_padded hfront hnone).mpr hx
    · simpa using (isToken_padded hnone hback).mpr hy
    · have hx := trim_padded hfront hnone x
      have hy := trim_padded hnone hback y
      simp only [String.append_empty, String.empty_append] at hx hy
      rw [hx, hy]
  · rintro ⟨x, y, hsplit, hx, hy, rfl⟩
    have hdot : '.' ∈ (trim part).toList := by
      rw [mem_trim_iff isBlank_dot, hsplit]
      simp
    obtain ⟨xs, ys, htrim, hxs⟩ := List.eq_append_cons_of_mem hdot
    have hjoin : (front.toList ++ xs) ++ '.' :: (ys ++ back.toList) = x.toList ++ '.' :: y.toList := by
      have hchars := congrArg String.toList (hpart.symm.trans hsplit)
      simpa [htrim] using hchars
    -- the dot is the only one, so it stands in the same place
    have hfirst : '.' ∉ front.toList ++ xs := by
      simpa [hxs] using not_mem_of_blank isBlank_dot hfront
    rcases join_eq_iff.mp hjoin with ⟨hx', hy'⟩ | ⟨mid, hmid, -⟩ | ⟨mid, hmid, -⟩
    · obtain rfl : front ++ String.ofList xs = x := String.toList_inj.mp (by simpa using hx')
      obtain rfl : String.ofList ys ++ back = y := String.toList_inj.mp (by simpa using hy')
      have hx' := trim_padded hfront hnone (String.ofList xs)
      have hy' := trim_padded hnone hback (String.ofList ys)
      have hxs' := isToken_padded hfront hnone (s := String.ofList xs)
      have hys' := isToken_padded hnone hback (s := String.ofList ys)
      simp only [String.append_empty, String.empty_append] at hx' hy' hxs' hys'
      refine ⟨String.ofList xs, String.ofList ys, String.toList_inj.mp (by simpa using htrim), hxs'.mp hx,
        hys'.mp hy, ?_⟩
      rw [hx', hy']
    · exact absurd (by simp [hmid]) hx.dot_notMem
    · exact absurd (by simp [hmid]) hfirst

/-- An item is read as a pair just if it writes one. -/
theorem pair_eq_ok_iff (item : String) (p : Topic) : pair item = .ok p ↔ WritesPair item p := by
  unfold pair
  constructor
  · intro h
    split at h
    · rename_i xs ys hsplit
      obtain ⟨hitem, hxs, hys⟩ := splitAtAll_eq_pair.mp hsplit
      split at h
      · cases h
      · rename_i hne
        cases h
        simp only [Bool.or_eq_true, List.isEmpty_iff, not_or] at hne
        refine ⟨String.ofList xs, String.ofList ys, String.toList_inj.mp (by simpa using hitem), ⟨?_, ?_⟩, ⟨?_, ?_⟩, ?_⟩
        · simpa [trim] using hne.1
        · simpa using hxs
        · simpa [trim] using hne.2
        · simpa using hys
        · simp [trim]
    · cases h
  · rintro ⟨x, y, rfl, hx, hy, rfl⟩
    have hsplit : splitAtAll (· == '.') (x ++ "." ++ y).toList = [x.toList, y.toList] :=
      splitAtAll_eq_pair.mpr ⟨by simp, hx.dot_notMem, hy.dot_notMem⟩
    have hne : ¬((trimChars x.toList).isEmpty || (trimChars y.toList).isEmpty) = true := by
      have hx : trimChars x.toList ≠ [] := by simpa [trim] using hx.trim_ne
      have hy : trimChars y.toList ≠ [] := by simpa [trim] using hy.trim_ne
      simp [hx, hy]
    rw [hsplit]
    simp only [hne]
    rfl

/-- Every other item is refused with its text. -/
theorem pair_eq_error_iff (item : String) (e : SettingError) : pair item = .error e ↔
    (∀ p, ¬WritesPair item p) ∧ e = .invalid pairsKey s!"'{item}' is not of the form entity.event" := by
  simp only [← pair_eq_ok_iff]
  have hcases : (∃ p, pair item = .ok p) ∨ pair item = pair.invalid item := by
    unfold pair
    split
    · split
      · exact Or.inr rfl
      · exact Or.inl ⟨_, rfl⟩
    · exact Or.inr rfl
  rcases hcases with ⟨p, hp⟩ | hinvalid
  · simp [hp]
  · simp [hinvalid, pair.invalid, @eq_comm _ e]

/-! ## Settings -/

variable {entities? events? pairs? : Option String} {e : SettingError}

theorem tokens_eq_ok_iff {key raw : String} {ts : List String} :
    tokens key raw = .ok ts ↔ Writes WritesToken raw ts := mapM_items_ok (token_eq_ok_iff key raw)

theorem tokens_eq_error_iff {key raw : String} :
    tokens key raw = .error e ↔ FirstRefused WritesToken (RefusesToken key raw) raw e :=
  mapM_items_error (token_eq_ok_iff key raw) (token_eq_error_iff key raw)

theorem lists_eq_ok_iff {es vs : List String} : lists entities? events? = .ok (es, vs) ↔
    entities?.isSome = events?.isSome ∧ Gives WritesToken entities? es ∧ Gives WritesToken events? vs := by
  cases entities? <;> cases events? <;>
    simp [lists, Gives, bind_eq_ok_iff, tokens_eq_ok_iff, pure, Except.pure, @eq_comm _ [] es, @eq_comm _ [] vs]

/-- The pairs of a setting that need not be given. -/
def pairsOf (pairs? : Option String) : Except SettingError (List Topic) :=
  match pairs? with
  | some raw => (items raw).mapM pair
  | none => pure []

theorem pairsOf_eq_ok_iff {ps : List Topic} : pairsOf pairs? = .ok ps ↔ Gives WritesPair pairs? ps := by
  cases pairs? with
  | none => simp [pairsOf, Gives, pure, Except.pure, @eq_comm _ [] ps]
  | some raw => exact mapM_items_ok fun part p => (pair_eq_ok_iff _ p).trans (writesPair_trim part p)

theorem pairsOf_eq_error_iff : pairsOf pairs? = .error e ↔
    ∃ raw, pairs? = some raw ∧ FirstRefused WritesPair RefusesPair raw e := by
  cases pairs? with
  | none => simp [pairsOf, pure, Except.pure]
  | some raw =>
    have hrefused : ∀ part e, pair (trim part) = .error e ↔ RefusesPair part e := by
      intro part e
      simp only [pair_eq_error_iff, writesPair_trim, RefusesPair]
    simpa [pairsOf] using
      mapM_items_error (fun part p => (pair_eq_ok_iff _ p).trans (writesPair_trim part p)) hrefused

theorem read_eq : read entities? events? pairs? = lists entities? events? >>= fun ls =>
    pairsOf pairs? >>= fun ps =>
      if ls.1.isEmpty && ps.isEmpty then
        .error (.invalid pairsKey s!"set {pairsKey} or both {entitiesKey} and {eventsKey}")
      else pure ⟨ls.1, ls.2, ps⟩ := by
  cases pairs? <;> rfl

/-- A setting gives no items just if it is not given. -/
theorem Gives.eq_nil_iff {α : Type} {Means : String → α → Prop} {raw? : Option String} {as : List α}
    (h : Gives Means raw? as) : as = [] ↔ raw?.isSome = false := by
  cases raw? with
  | none => simpa [Gives] using h
  | some raw => simpa using Writes.ne_nil h

/-- Just what is written is accepted, and as what it writes. -/
theorem read_eq_ok_iff {t : Topics} : read entities? events? pairs? = .ok t ↔ Written entities? events? pairs? t := by
  rw [read_eq]
  constructor
  · intro h
    obtain ⟨⟨es, vs⟩, hlists, h⟩ := bind_eq_ok h
    obtain ⟨ps, hpairs, h⟩ := bind_eq_ok h
    obtain ⟨hboth, hentities, hevents⟩ := lists_eq_ok_iff.mp hlists
    have hpairs := pairsOf_eq_ok_iff.mp hpairs
    split at h
    · cases h
    · rename_i hany
      cases h
      refine ⟨hboth, ?_, hentities, hevents, hpairs⟩
      simp only [Bool.and_eq_true, List.isEmpty_iff, hentities.eq_nil_iff, hpairs.eq_nil_iff] at hany
      revert hany
      cases entities?.isSome <;> cases pairs?.isSome <;> simp
  · intro h
    rw [lists_eq_ok_iff.mpr ⟨h.both, h.entities, h.events⟩, ok_bind, pairsOf_eq_ok_iff.mpr h.pairs, ok_bind, if_neg]
    · rfl
    · have hsource := h.source
      simp only [Bool.and_eq_true, List.isEmpty_iff, h.entities.eq_nil_iff, h.pairs.eq_nil_iff]
      revert hsource
      cases entities?.isSome <;> cases pairs?.isSome <;> simp

/-- Lists are refused if only one of them is given, or else with the first part that is. -/
theorem lists_eq_error_iff : lists entities? events? = .error e ↔
    (entities?.isSome = true ∧ events? = none ∧ e = .missing eventsKey) ∨
    (entities? = none ∧ events?.isSome = true ∧ e = .missing entitiesKey) ∨
    ∃ entities events, entities? = some entities ∧ events? = some events ∧
      (FirstRefused WritesToken (RefusesToken entitiesKey entities) entities e ∨
        ∃ es, Writes WritesToken entities es ∧
          FirstRefused WritesToken (RefusesToken eventsKey events) events e) := by
  cases entities? <;> cases events? <;>
    simp [lists, bind_eq_error, tokens_eq_ok_iff, tokens_eq_error_iff, pure, Except.pure, @eq_comm _ _ e]

/-- Just what is refused fails, and with that error. -/
theorem read_eq_error_iff : read entities? events? pairs? = .error e ↔ Refused entities? events? pairs? e := by
  rw [read_eq, bind_eq_error, lists_eq_error_iff]
  constructor
  · rintro ((⟨hentities, rfl, rfl⟩ | ⟨rfl, hevents, rfl⟩ | ⟨entities, events, rfl, rfl, hlists⟩) |
      ⟨⟨es, vs⟩, hlists, h⟩)
    · obtain ⟨entities, rfl⟩ := Option.isSome_iff_exists.mp hentities
      exact .noEvents entities pairs?
    · obtain ⟨events, rfl⟩ := Option.isSome_iff_exists.mp hevents
      exact .noEntities events pairs?
    · rcases hlists with hentity | ⟨es, hes, hevent⟩
      · exact .entity events pairs? hentity
      · exact .event pairs? hes hevent
    · obtain ⟨hboth, hentities, hevents⟩ := lists_eq_ok_iff.mp hlists
      rcases bind_eq_error.mp h with hpairs | ⟨ps, hpairs, h⟩
      · obtain ⟨raw, rfl, hpair⟩ := pairsOf_eq_error_iff.mp hpairs
        exact .pair hboth hentities hevents hpair
      · have hpairs := pairsOf_eq_ok_iff.mp hpairs
        split at h
        · rename_i hempty
          cases h
          simp only [Bool.and_eq_true, List.isEmpty_iff, hentities.eq_nil_iff, hpairs.eq_nil_iff] at hempty
          obtain rfl := Option.not_isSome_iff_eq_none.mp (Bool.eq_false_iff.mp hempty.1)
          obtain rfl := Option.not_isSome_iff_eq_none.mp (Bool.eq_false_iff.mp hempty.2)
          obtain rfl := Option.not_isSome_iff_eq_none.mp (Bool.eq_false_iff.mp hboth.symm)
          exact .nothing
        · cases h
  · intro h
    cases h with
    | noEvents entities => exact Or.inl (Or.inl ⟨rfl, rfl, rfl⟩)
    | noEntities events => exact Or.inl (Or.inr (Or.inl ⟨rfl, rfl, rfl⟩))
    | entity events pairs? hentity => exact Or.inl (Or.inr (Or.inr ⟨_, _, rfl, rfl, Or.inl hentity⟩))
    | event pairs? hes hevent => exact Or.inl (Or.inr (Or.inr ⟨_, _, rfl, rfl, Or.inr ⟨_, hes, hevent⟩⟩))
    | pair hboth hentities hevents hpair =>
      refine Or.inr ⟨_, lists_eq_ok_iff.mpr ⟨hboth, hentities, hevents⟩, bind_eq_error.mpr (Or.inl ?_)⟩
      exact pairsOf_eq_error_iff.mpr ⟨_, rfl, hpair⟩
    | nothing => exact Or.inr ⟨([], []), rfl, rfl⟩

/-! ## What is accepted -/

theorem Gives.forall {α : Type} {Means : String → α → Prop} {raw? : Option String} {as : List α}
    (h : Gives Means raw? as) {a : α} (ha : a ∈ as) : ∃ part, Means part a := by
  cases raw? with
  | none =>
    obtain rfl : as = [] := h
    cases ha
  | some raw =>
    obtain ⟨parts, -, hwrites⟩ := h
    induction hwrites with
    | nil => cases ha
    | cons hmeans _ ih =>
      rcases List.mem_cons.mp ha with rfl | ha
      · exact ⟨_, hmeans⟩
      · exact ih ha

/-- Every topic is made of two tokens that were trimmed. -/
theorem Written.exists_trim {t : Topics} (h : Written entities? events? pairs? t) {topic : Topic}
    (htopic : topic ∈ t.all) : ∃ entity event, IsToken entity ∧ IsToken event ∧ topic = ⟨trim entity, trim event⟩ := by
  rcases List.mem_append.mp htopic with htopic | htopic
  · obtain ⟨e, he, htopic⟩ := List.mem_flatMap.mp htopic
    obtain ⟨v, hv, rfl⟩ := List.mem_map.mp htopic
    obtain ⟨entity, hentity, rfl⟩ := h.entities.forall he
    obtain ⟨event, hevent, rfl⟩ := h.events.forall hv
    exact ⟨entity, event, hentity, hevent, rfl⟩
  · obtain ⟨_, entity, event, -, hentity, hevent, rfl⟩ := h.pairs.forall htopic
    exact ⟨entity, event, hentity, hevent, rfl⟩

/-- There is a topic if topics are accepted, and all of them are made of tokens. -/
theorem read_spec {t : Topics} (h : read entities? events? pairs? = .ok t) :
    t.all ≠ [] ∧ ∀ topic ∈ t.all, IsToken topic.entity ∧ IsToken topic.event := by
  have hwritten := read_eq_ok_iff.mp h
  constructor
  · simp only [all, Topology.crossProduct, ne_eq, List.append_eq_nil_iff, List.flatMap_eq_nil_iff,
      List.map_eq_nil_iff]
    rintro ⟨hcross, hpairs⟩
    rcases hwritten.source with hentities | hgiven
    · have hevents := hwritten.both ▸ hentities
      have hne : t.entities ≠ [] := by simp [hwritten.entities.eq_nil_iff, hentities]
      obtain ⟨e, he⟩ := List.exists_mem_of_ne_nil _ hne
      simp [hwritten.events.eq_nil_iff.mp (hcross e he)] at hevents
    · simp [hwritten.pairs.eq_nil_iff.mp hpairs] at hgiven
  · intro topic htopic
    obtain ⟨entity, event, hentity, hevent, rfl⟩ := hwritten.exists_trim htopic
    exact ⟨isToken_trim hentity.trim_ne hentity.dot_notMem, isToken_trim hevent.trim_ne hevent.dot_notMem⟩

/-! ## Topics that are written and read -/

/-- A token as it stands: trimmed, not blank, and without the two separators. -/
structure Plain (s : String) : Prop where
  trimmed : trim s = s
  nonempty : s ≠ ""
  dot_notMem : '.' ∉ s.toList
  comma_notMem : ',' ∉ s.toList

theorem Plain.writesToken {s : String} (h : Plain s) : WritesToken s s :=
  ⟨⟨h.trimmed.symm ▸ h.nonempty, h.dot_notMem⟩, h.trimmed.symm⟩

/-- A pair with a dot between its tokens. -/
def pairText (p : Topic) : String := p.entity ++ "." ++ p.event

theorem writesPair_pairText {p : Topic} (he : Plain p.entity) (hv : Plain p.event) : WritesPair (pairText p) p := by
  refine ⟨p.entity, p.event, rfl, he.writesToken.1, hv.writesToken.1, ?_⟩
  rw [he.trimmed, hv.trimmed]

/-- Parts with a comma between any two, if there are any. -/
def joined? : List String → Option String
  | [] => none
  | parts => some (",".intercalate parts)

/-- What is joined writes what its parts write. -/
theorem gives_joined? {α : Type} {Means : String → α → Prop} {parts : List String} {as : List α}
    (hcomma : ∀ part ∈ parts, ',' ∉ part.toList) (hmeans : List.Forall₂ Means parts as) :
    Gives Means (joined? parts) as := by
  cases parts with
  | nil => exact List.forall₂_nil_left_iff.mp hmeans
  | cons part parts => exact ⟨part :: parts, ⟨List.cons_ne_nil _ _, hcomma, rfl⟩, hmeans⟩

theorem isSome_joined? {parts : List String} : (joined? parts).isSome = true ↔ parts ≠ [] := by
  cases parts <;> simp [joined?]

/-- Topics that are joined are written. -/
theorem written_joined? {t : Topics} (hboth : t.entities = [] ↔ t.events = []) (hany : t.entities ≠ [] ∨ t.pairs ≠ [])
    (htokens : ∀ s ∈ t.entities ++ t.events, Plain s) (hpairs : ∀ p ∈ t.pairs, Plain p.entity ∧ Plain p.event) :
    Written (joined? t.entities) (joined? t.events) (joined? (t.pairs.map pairText)) t := by
  obtain ⟨hentities, hevents⟩ := List.forall_mem_append.mp htokens
  have hlist : ∀ ss : List String, (∀ s ∈ ss, Plain s) → Gives WritesToken (joined? ss) ss := fun ss hss =>
    gives_joined? (fun s hs => (hss s hs).comma_notMem)
      (List.forall₂_same.mpr fun s hs => (hss s hs).writesToken)
  refine ⟨?_, ?_, hlist _ hentities, hlist _ hevents, gives_joined? ?_ ?_⟩
  · rw [Bool.eq_iff_iff, isSome_joined?, isSome_joined?, ne_eq, hboth]
  · simpa [isSome_joined?] using hany
  · intro part hpart
    obtain ⟨p, hp, rfl⟩ := List.mem_map.mp hpart
    simp [pairText, (hpairs p hp).1.comma_notMem, (hpairs p hp).2.comma_notMem]
  · rw [List.forall₂_map_left_iff]
    exact List.forall₂_same.mpr fun p hp => writesPair_pairText (hpairs p hp).1 (hpairs p hp).2

/-- **Topics are read just as they are written.** Three settings, each of which may be missing, are accepted with just
the topics that they write, and refused with just the error that names the missing list, or else the first part that
does not fit, or else that nothing is given. All topics are the pairs of the two lists, in the order of the entities
and then of the events, and behind them the explicit pairs. Lists of plain tokens that are joined are read back. -/
theorem read_iff_written :
    (∀ (entities? events? pairs? : Option String) (t : Topics),
      read entities? events? pairs? = .ok t ↔ Written entities? events? pairs? t) ∧
    (∀ (entities? events? pairs? : Option String) (e : SettingError),
      read entities? events? pairs? = .error e ↔ Refused entities? events? pairs? e) ∧
    (∀ t : Topics, t.all = (t.entities ×ˢ t.events).map (fun p => ⟨p.1, p.2⟩) ++ t.pairs) ∧
    ∀ t : Topics, (t.entities = [] ↔ t.events = []) → t.entities ≠ [] ∨ t.pairs ≠ [] →
      (∀ s ∈ t.entities ++ t.events, Plain s) → (∀ p ∈ t.pairs, Plain p.entity ∧ Plain p.event) →
      read (joined? t.entities) (joined? t.events) (joined? (t.pairs.map pairText)) = .ok t := by
  refine ⟨fun _ _ _ _ => read_eq_ok_iff, fun _ _ _ _ => read_eq_error_iff, fun t => ?_, ?_⟩
  · simp [all, Topology.crossProduct, SProd.sprod, List.product, List.map_flatMap, Function.comp_def]
  · intro t hboth hany htokens hpairs
    exact read_eq_ok_iff.mpr (written_joined? hboth hany htokens hpairs)

/-- Two entities, an event and a pair with a dash in it. -/
def plainTopics : Topics := ⟨["link", "user"], ["created"], [⟨"sign-in", "Failed"⟩]⟩

theorem plain_of_mem_plainTopics :
    (∀ s ∈ plainTopics.entities ++ plainTopics.events, Plain s) ∧
      ∀ p ∈ plainTopics.pairs, Plain p.entity ∧ Plain p.event := by
  simp only [plainTopics, List.cons_append, List.nil_append, List.forall_mem_cons, List.not_mem_nil, false_implies,
    implies_true, and_true]
  refine ⟨⟨?_, ?_, ?_⟩, ?_, ?_⟩ <;> exact ⟨by decide +kernel, by decide, by decide, by decide⟩

theorem read_iff_written_plainTopics :
    joined? plainTopics.entities = some "link,user" ∧ joined? (plainTopics.pairs.map pairText) = some "sign-in.Failed" ∧
      read (joined? plainTopics.entities) (joined? plainTopics.events) (joined? (plainTopics.pairs.map pairText)) =
        .ok plainTopics ∧
      Written (some " link,user ") (some "created") (some "sign-in . Failed") plainTopics ∧
      Refused (some "link,,us.er") (some "cre.ated") (some "")
        (.invalid entitiesKey "empty token in 'link,,us.er'") := by
  obtain ⟨hplain, hpairs⟩ := plain_of_mem_plainTopics
  exact ⟨by decide +kernel, by decide +kernel,
    read_iff_written.2.2.2 plainTopics (by decide) (Or.inl (by decide)) hplain hpairs,
    (read_iff_written.1 _ _ _ _).mp (by decide +kernel), (read_iff_written.2.1 _ _ _ _).mp (by decide +kernel)⟩

end Topics
end EventCourier
