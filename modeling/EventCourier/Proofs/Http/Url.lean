import EventCourier.Http.Url
import EventCourier.Proofs.Except
import EventCourier.Proofs.Text.Split

/-!
# URLs that go on

A base goes on with path segments and perhaps a query. If these hold only characters that stand for themselves
(`Stands`) and no segment is one of dots (`IsSegment`), they are read as they are, whatever the base is. So the base
alone decides the scheme, the credentials, the host and the port, and its path goes on with the segments
(`parse_goesOn`).
-/

namespace EventCourier

namespace Url

/-- A text is cut at the first separator. -/
theorem cut_append {c : Char} {front : List Char} (h : c ∉ front) (back : List Char) :
    cut c (front ++ c :: back) = (front, some back) := by
  have hfront : (front ++ c :: back).takeWhile (· ≠ c) = front := by
    rw [takeWhile_append_stop (by simp), takeWhile_ne h]
  simp only [cut, hfront]
  simp

theorem cut_of_not_mem {c : Char} {cs : List Char} (h : c ∉ cs) : cut c cs = (cs, none) := by
  simp only [cut, takeWhile_ne h]
  simp

/-! ## Characters that stand for themselves -/

/-- A character that is not escaped in a part of a URL. -/
def Stands (set : EscapeSet) (c : Char) : Prop := 32 < c.toNat ∧ c.toNat < 127 ∧ c ∉ set.special

instance (set : EscapeSet) (c : Char) : Decidable (Stands set c) := inferInstanceAs (Decidable (_ ∧ _))

/-- Fixed texts are checked character by character. -/
theorem stands_of_all {set : EscapeSet} {cs : List Char} (h : cs.all (fun c => decide (Stands set c)) = true) :
    ∀ c ∈ cs, Stands set c := by simpa using h

theorem escaped_of_stands {set : EscapeSet} {cs : List Char} (h : ∀ c ∈ cs, Stands set c) :
    escaped set cs = String.ofList cs := by
  have hchars : cs.flatMap (escape set) = cs := by
    induction cs with
    | nil => rfl
    | cons c cs ih =>
      obtain ⟨⟨hlow, hhigh, hspecial⟩, hcs⟩ := List.forall_mem_cons.mp h
      have hnone : ¬(c.toNat < 32 ∨ 127 ≤ c.toNat ∨ c ∈ set.special) := by
        rintro (hc | hc | hc)
        · omega
        · omega
        · exact hspecial hc
      rw [List.flatMap_cons, escape, if_neg hnone, ih hcs]
      rfl
  rw [escaped, hchars]

/-! ## Paths -/

/-- A segment that is read as it is: it holds no slash, and is none of dots. -/
structure IsSegment (s : List Char) : Prop where
  stands : ∀ c ∈ s, Stands pathSet c
  slash : ∀ c ∈ s, isSlash c = false
  single : dots s ≠ ['.']
  double : dots s ≠ ['.', '.']

/-- A segment is added to the path in front of it. -/
theorem resolveSegments_cons {s : List Char} (h : IsSegment s) (path : List String) (rest : List (List Char)) :
    resolveSegments path (s :: rest) = resolveSegments (path ++ [String.ofList s]) rest := by
  rw [resolveSegments, if_neg h.double, if_neg h.single, escaped_of_stands h.stands]

theorem resolveSegments_of_segments {segments : List (List Char)} (h : ∀ s ∈ segments, IsSegment s)
    (path : List String) : resolveSegments path segments = path ++ segments.map String.ofList := by
  induction segments generalizing path with
  | nil => exact (List.append_nil path).symm
  | cons s segments ih =>
    obtain ⟨hs, hsegments⟩ := List.forall_mem_cons.mp h
    rw [resolveSegments_cons hs, ih hsegments, List.append_assoc, List.map_cons, List.singleton_append]

/-- The path of segments behind which others follow. -/
def followedPath (path : List String) (segments : List (List Char)) : List String :=
  segments.foldl (fun path s =>
    if dots s = ['.', '.'] then path.dropLast
    else if dots s = ['.'] then path
    else path ++ [escaped pathSet s]) path

theorem resolveSegments_append {rest : List (List Char)} (hrest : rest ≠ []) (path : List String)
    (segments : List (List Char)) :
    resolveSegments path (segments ++ rest) = resolveSegments (followedPath path segments) rest := by
  induction segments generalizing path with
  | nil => rfl
  | cons s segments ih =>
    have hmore : (segments ++ rest).isEmpty = false := by simp [hrest]
    rw [List.cons_append, resolveSegments, followedPath, List.foldl_cons, ← followedPath]
    simp only [hmore, Bool.false_eq_true, if_false, List.append_nil]
    split
    · exact ih _
    · split
      · exact ih _
      · exact ih _

/-! ## Reading -/

/-- The front of a text without what is taken away from it, if its end stays as it is. -/
def stripFront (cs : List Char) : List Char :=
  (cs.dropWhile fun c => c.toNat ≤ 32).filter fun c => c ≠ '\t' ∧ c ≠ '\n' ∧ c ≠ '\r'

theorem mem_of_mem_stripFront {cs : List Char} {c : Char} (h : c ∈ stripFront cs) : c ∈ cs :=
  List.dropWhile_subset _ (List.mem_of_mem_filter h)

/-- Nothing is taken away from an end that holds no spaces and controls. -/
theorem strip_append (base : List Char) {tail : List Char} (hne : tail ≠ []) (h : ∀ c ∈ tail, 32 < c.toNat) :
    strip (base ++ tail) = stripFront base ++ tail := by
  have hvisible : ∀ c ∈ tail, decide (c.toNat ≤ 32) = false := by
    intro c hc
    have := h c hc
    simpa using this
  have hkept : tail.filter (fun c => c ≠ '\t' ∧ c ≠ '\n' ∧ c ≠ '\r') = tail := by
    rw [List.filter_eq_self]
    intro c hc
    have hc := h c hc
    rw [decide_eq_true_eq]
    refine ⟨?_, ?_, ?_⟩ <;> rintro rfl <;> exact absurd hc (by decide)
  obtain ⟨first, more, rfl⟩ := List.exists_cons_of_ne_nil hne
  obtain ⟨last, before, hlast⟩ := List.exists_cons_of_ne_nil (mt List.reverse_eq_nil_iff.mp hne)
  have hlast' : decide (last.toNat ≤ 32) = false := by
    refine hvisible last ?_
    rw [← List.mem_reverse, hlast]
    exact List.mem_cons_self
  simp only [strip]
  rw [dropWhile_append_stop (hvisible first List.mem_cons_self), List.reverse_append, hlast, List.cons_append,
    List.dropWhile_cons, hlast']
  simp only [Bool.false_eq_true, if_false]
  rw [← List.cons_append, ← hlast, ← List.reverse_append, List.reverse_reverse, List.filter_append, hkept, stripFront]

/-- The scheme stands in front of the first slash. -/
theorem scheme?_append (front more : List Char) :
    scheme? (front ++ '/' :: more) = (scheme? front).map fun r => (r.1, r.2 ++ '/' :: more) := by
  have hslash : (('/'.isAlphanum || '/' == '+') || '/' == '-' || '/' == '.') = false := by decide
  unfold scheme?
  simp only [takeWhile_append_stop (p := fun c => c.isAlphanum || c == '+' || c == '-' || c == '.') hslash,
    List.drop_append_of_le_length (List.takeWhile_sublist _).length_le, drop_takeWhile]
  cases front.takeWhile fun c => c.isAlphanum || c == '+' || c == '-' || c == '.' with
  | nil => rfl
  | cons first name =>
    cases front.dropWhile fun c => c.isAlphanum || c == '+' || c == '-' || c == '.' with
    | nil => rfl
    | cons colon rest =>
      by_cases hcolon : colon = ':'
      · subst hcolon
        simp only [List.cons_append]
        split <;> rfl
      · simp [hcolon]

theorem mem_of_scheme? {cs rest : List Char} {scheme : String} (h : scheme? cs = some (scheme, rest)) {c : Char}
    (hc : c ∈ rest) : c ∈ cs := by
  unfold scheme? at h
  simp only at h
  split at h
  · rename_i hrest
    split at h
    · cases h
      exact List.mem_of_mem_drop (hrest ▸ List.mem_cons_of_mem _ hc)
    · cases h
  · cases h

/-- A URL of the web with an authority, a path and a query. -/
def ofParts (names : NameReading) (scheme : String) (authority : List Char) (path : List String)
    (query : Option String) : Except UrlFault Url := do
  let (user, hostPort) := splitCredentials authority
  let (host, portText) := cutPort false hostPort
  let port ← port? scheme (portText.getD [])
  match host? names host with
  | none => .error .malformed
  | some host => return ⟨scheme, user.bind readCredentials, host, port, path, query, none⟩

section

variable {names : NameReading}

/-- The authority alone decides whether the parts make a URL. -/
theorem ofParts_eq_ok {scheme : String} {authority : List Char} {path : List String} {query : Option String} {u : Url}
    (h : ofParts names scheme authority path query = .ok u) : u.path = path ∧
      ∀ path' query', ofParts names scheme authority path' query' = .ok { u with path := path', query := query' } := by
  unfold ofParts at h ⊢
  simp only at h ⊢
  obtain ⟨port, hport, h⟩ := bind_eq_ok h
  simp only [hport, ok_bind]
  cases hhost : host? names (cutPort false (splitCredentials authority).2).1 with
  | none => simp [hhost] at h
  | some host =>
    simp only [hhost] at h
    cases h
    exact ⟨rfl, fun _ _ => rfl⟩

theorem ofParts_nil (scheme : String) (path : List String) (query : Option String) :
    ofParts names scheme [] path query = .error .malformed := rfl

/-- Behind slashes stands the authority, and behind the next slash the path. -/
theorem parseWeb_eq {cs rest : List Char} {query : Option (List Char)} (hfragment : '#' ∉ cs)
    (hquery : cut '?' (cs.dropWhile isSlash) = (rest, query)) (scheme : String) :
    parseWeb names scheme cs = ofParts names scheme (rest.takeWhile (!isSlash ·))
      (resolveSegments [] (splitAtAll isSlash ((rest.dropWhile (!isSlash ·)).drop 1)))
      (query.map (escaped webQuerySet)) := by
  have hfragment' : '#' ∉ cs.dropWhile isSlash := fun h => hfragment (List.dropWhile_subset _ h)
  simp only [parseWeb, cut_of_not_mem hfragment', hquery, drop_takeWhile]
  rfl

/-- Segments stand in front of a path that follows a slash. -/
theorem exists_segments (front : List Char) : ∃ before, ∀ path : List Char,
    splitAtAll isSlash (((front ++ '/' :: path).dropWhile (!isSlash ·)).drop 1) =
      before ++ splitAtAll isSlash path := by
  have hslash : (!isSlash '/') = false := rfl
  simp only [dropWhile_append_stop (p := (!isSlash ·)) hslash]
  cases front.dropWhile (!isSlash ·) with
  | nil => exact ⟨[], fun _ => rfl⟩
  | cons slash more => exact ⟨splitAtAll isSlash more, fun path => splitAtAll_append rfl more path⟩

theorem isSegment_nil : IsSegment [] := ⟨nofun, nofun, nofun, nofun⟩

/-- The characters of a path are visible and end no path. -/
theorem forall_mem_path {segments : List (List Char)} (h : ∀ s ∈ segments, IsSegment s) :
    ∀ c ∈ ['/'].intercalate segments, 32 < c.toNat ∧ c ≠ '#' ∧ c ≠ '?' := by
  refine forall_mem_intercalate (by decide) fun s hs c hc => ?_
  obtain ⟨hlow, -, hspecial⟩ := (h s hs).stands c hc
  refine ⟨hlow, ?_, ?_⟩ <;> rintro rfl <;> exact hspecial (by decide)

/-- A query behind its mark. -/
def queryText (query? : Option (List Char)) : List Char := query?.elim [] ('?' :: ·)

theorem cut_queryText {front : List Char} (h : '?' ∉ front) (query? : Option (List Char)) :
    cut '?' (front ++ queryText query?) = (front, query?) := by
  cases query? with
  | none => rw [queryText, Option.elim_none, List.append_nil, cut_of_not_mem h]
  | some query => exact cut_append h query

/-- The characters of a query are visible and end no query. -/
theorem forall_mem_queryText {query? : Option (List Char)} (h : ∀ q ∈ query?, ∀ c ∈ q, Stands webQuerySet c) :
    ∀ c ∈ queryText query?, 32 < c.toNat ∧ c ≠ '#' := by
  cases query? with
  | none => nofun
  | some query =>
    refine List.forall_mem_cons.mpr ⟨by decide, fun c hc => ?_⟩
    obtain ⟨hlow, -, hspecial⟩ := h query rfl c hc
    refine ⟨hlow, ?_⟩
    rintro rfl
    exact hspecial (by decide)

/-- Without an authority there is no URL. -/
theorem parseWeb_of_slashes {front : List Char} (h : front.dropWhile isSlash = []) (hfragment : '#' ∉ front)
    (scheme : String) : parseWeb names scheme (front ++ ['/']) = .error .malformed := by
  have hcut : cut '?' ((front ++ ['/']).dropWhile isSlash) = ([], none) := by
    have hall : (front ++ ['/']).dropWhile isSlash = [] := by simp [List.dropWhile_append, h, isSlash]
    rw [hall]
    rfl
  rw [parseWeb_eq (by simpa using hfragment) hcut, List.takeWhile_nil, ofParts_nil]

/-- The front alone decides the authority, and how the path begins. -/
theorem parseWeb_followed {front : List Char} (hsome : front.dropWhile isSlash ≠ []) (hquery : '?' ∉ front)
    (hfragment : '#' ∉ front) (scheme : String) : ∃ authority path, ∀ segments query?, segments ≠ [] →
      (∀ s ∈ segments, IsSegment s) → (∀ q ∈ query?, ∀ c ∈ q, Stands webQuerySet c) →
        parseWeb names scheme (front ++ '/' :: (['/'].intercalate segments ++ queryText query?)) =
          ofParts names scheme authority (path ++ segments.map String.ofList) (query?.map String.ofList) := by
  have hslash : (!isSlash '/') = false := rfl
  have hdrop : ∀ more, (front ++ '/' :: more).dropWhile isSlash = front.dropWhile isSlash ++ '/' :: more := by
    intro more
    simp [List.dropWhile_append, hsome]
  have hquery' : '?' ∉ front.dropWhile isSlash := fun hmem => hquery (List.dropWhile_subset _ hmem)
  generalize front.dropWhile isSlash = rest at hdrop hquery'
  obtain ⟨before, hbefore⟩ := exists_segments rest
  refine ⟨rest.takeWhile (!isSlash ·), followedPath [] before, fun segments query? hne hsegments hstands => ?_⟩
  have hpath := forall_mem_path hsegments
  have hnone : '#' ∉ front ++ '/' :: (['/'].intercalate segments ++ queryText query?) := by
    intro hmem
    rcases List.mem_append.mp hmem with hmem | hmem
    · exact hfragment hmem
    · rcases List.mem_append.mp ((List.mem_cons.mp hmem).resolve_left (by decide)) with hmem | hmem
      · exact (hpath _ hmem).2.1 rfl
      · exact (forall_mem_queryText hstands _ hmem).2 rfl
  have hcut : cut '?' ((front ++ '/' :: (['/'].intercalate segments ++ queryText query?)).dropWhile isSlash) =
      (rest ++ '/' :: ['/'].intercalate segments, query?) := by
    rw [hdrop, ← List.cons_append, ← List.append_assoc]
    refine cut_queryText (fun hmem => ?_) query?
    rcases List.mem_append.mp hmem with hmem | hmem
    · exact hquery' hmem
    · exact (hpath _ ((List.mem_cons.mp hmem).resolve_left (by decide))).2.2 rfl
  have hescaped : query?.map (escaped webQuerySet) = query?.map String.ofList := by
    cases query? with
    | none => rfl
    | some query => rw [Option.map_some, escaped_of_stands (hstands query rfl), Option.map_some]
  rw [parseWeb_eq hnone hcut, takeWhile_append_stop (p := (!isSlash ·)) hslash, hbefore,
    splitAtAll_intercalate rfl hne fun s hs => (hsegments s hs).slash, resolveSegments_append hne,
    resolveSegments_of_segments hsegments, hescaped]

/-- Behind a scheme, what stands for itself is read as it is. -/
theorem parseWeb_goesOn {scheme : String} {front : List Char} {u : Url}
    (h : parseWeb names scheme (front ++ ['/']) = .ok u) (hquery : '?' ∉ front) (hfragment : '#' ∉ front)
    {segments : List (List Char)} {query? : Option (List Char)} (hne : segments ≠ [])
    (hsegments : ∀ s ∈ segments, IsSegment s) (hstands : ∀ q ∈ query?, ∀ c ∈ q, Stands webQuerySet c) :
    parseWeb names scheme (front ++ '/' :: (['/'].intercalate segments ++ queryText query?)) =
      .ok { u with path := u.path.dropLast ++ segments.map String.ofList, query := query?.map String.ofList } := by
  have hsome : front.dropWhile isSlash ≠ [] := by
    intro hnone
    rw [parseWeb_of_slashes hnone hfragment] at h
    cases h
  obtain ⟨authority, path, hparts⟩ := parseWeb_followed hsome hquery hfragment scheme
  -- The base ends in an empty segment, in whose place the others come.
  have hbase : parseWeb names scheme (front ++ ['/']) = ofParts names scheme authority (path ++ [""]) none :=
    hparts [[]] none (List.cons_ne_nil _ _) (by simpa using isSegment_nil) nofun
  rw [hbase] at h
  obtain ⟨hpath, hmore⟩ := ofParts_eq_ok h
  rw [hparts segments query? hne hsegments hstands, hmore, hpath, List.dropLast_concat]

/-- **A base that is a URL goes on as it is written.** -/
theorem parse_goesOn {base : String} {u : Url} (h : parse names (base ++ "/") = .ok u) (hquery : '?' ∉ base.toList)
    (hfragment : '#' ∉ base.toList) {segments : List String} (hne : segments ≠ [])
    (hsegments : ∀ s ∈ segments, IsSegment s.toList) {query? : Option String}
    (hquery? : ∀ q ∈ query?, ∀ c ∈ q.toList, Stands webQuerySet c) :
    parse names (base ++ "/" ++ "/".intercalate segments ++ marked "?" query?) =
      .ok { u with path := u.path.dropLast ++ segments, query := query? } := by
  have htext : (base ++ "/" ++ "/".intercalate segments ++ marked "?" query?).toList = base.toList ++
      '/' :: (['/'].intercalate (segments.map String.toList) ++ queryText (query?.map String.toList)) := by
    cases query? <;> simp [marked, queryText, String.toList_intercalate]
  have hsegments' : ∀ s ∈ segments.map String.toList, IsSegment s := List.forall_mem_map.mpr hsegments
  have hquery?' : ∀ q ∈ query?.map String.toList, ∀ c ∈ q, Stands webQuerySet c := by
    intro q hq
    obtain ⟨query, hquery, rfl⟩ := Option.map_eq_some_iff.mp hq
    exact hquery? query hquery
  unfold parse at h ⊢
  rw [String.toList_append, show "/".toList = ['/'] from rfl, strip_append _ (List.cons_ne_nil _ _)
    (List.forall_mem_singleton.mpr (by decide)), scheme?_append] at h
  rw [htext, strip_append _ (List.cons_ne_nil _ _) ?_, scheme?_append]
  · cases hscheme : scheme? (stripFront base.toList) with
    | none => simp [hscheme] at h
    | some r =>
      obtain ⟨scheme, rest⟩ := r
      simp only [hscheme, Option.map_some] at h ⊢
      have hfront : ∀ c ∈ rest, c ∈ base.toList := fun c hc => mem_of_mem_stripFront (mem_of_scheme? hscheme hc)
      split at h
      · rename_i hport
        cases hweb : parseWeb names scheme (rest ++ ['/']) with
        | error fault => simp [hweb] at h
        | ok u' =>
          simp only [hweb] at h
          split at h
          · rename_i hhttp
            cases h
            have hmore := parseWeb_goesOn hweb (mt (hfront _) hquery) (mt (hfront _) hfragment)
              (mt List.map_eq_nil_iff.mp hne) hsegments' hquery?'
            rw [if_pos hport, hmore]
            simp [hhttp, Function.comp_def]
          · cases h
      · cases h
  · refine List.forall_mem_cons.mpr ⟨by decide, List.forall_mem_append.mpr ⟨?_, ?_⟩⟩
    · exact fun c hc => (forall_mem_path hsegments' c hc).1
    · exact fun c hc => (forall_mem_queryText hquery?' c hc).1

end

end Url
end EventCourier
