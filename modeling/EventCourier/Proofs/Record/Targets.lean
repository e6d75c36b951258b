import EventCourier.Proofs.Http.Url
import EventCourier.Proofs.Text.Percent
import EventCourier.Record.Index
import EventCourier.Text.Blank
import Mathlib.Data.List.DropRight

/-!
# The URLs of the backends

The names of an organisation, a bucket or an index may hold any character, and keep their place in a URL. What is
percent-encoded is one path segment, which dots do not resolve (`dots_encodeChars`), and one value of a query
(`readQuery_query`). So a URL goes on from its base in the same way whatever the names are, and different names make
different URLs (`names_keep_place`).
-/

namespace EventCourier

/-! ## Slashes at the end of a base -/

/-- Slashes, and nothing else, are cut off at the end. -/
theorem exists_trimSlashes (s : String) : (trimSlashes s).toList.getLast? ≠ some '/' ∧
    ∃ n, s = trimSlashes s ++ String.ofList (List.replicate n '/') := by
  have hchars : (trimSlashes s).toList = s.toList.rdropWhile (· = '/') := String.toList_ofList
  constructor
  · intro hlast
    rw [hchars] at hlast
    have hne : s.toList.rdropWhile (· = '/') ≠ [] := by
      intro hnil
      rw [hnil] at hlast
      cases hlast
    refine List.rdropWhile_last_not (· = '/') s.toList hne ?_
    rw [List.getLast?_eq_some_getLast hne] at hlast
    simpa using hlast
  · refine ⟨(s.toList.rtakeWhile (· = '/')).length, String.toList_inj.mp ?_⟩
    have hslashes : s.toList.rtakeWhile (· = '/') = List.replicate (s.toList.rtakeWhile (· = '/')).length '/' :=
      List.eq_replicate_of_mem fun c hc => by simpa using List.mem_rtakeWhile_imp hc
    rw [String.toList_append, String.toList_ofList, hchars, ← hslashes, List.rdropWhile_append_rtakeWhile]

/-! ## Names as segments -/

namespace Percent

theorem hexDigits_spec : ∀ n < 256, isUnreserved (.ofNat n) = false → hexDigit (n / 16) ≠ '%' ∧
    hexDigit (n % 16) ≠ '%' ∧ (hexDigit (n / 16) = '2' → hexDigit (n % 16) ≠ 'e' ∧ hexDigit (n % 16) ≠ 'E') := by
  decide +kernel

theorem dots_cons {c : Char} (h : c ≠ '%') (cs : List Char) : Url.dots (c :: cs) = c :: Url.dots cs := by
  rw [Url.dots]
  exact fun _ _ hc _ => h hc

/-- The dot stands for itself, so no escape is one. -/
theorem dots_flatMap (bs : List UInt8) : Url.dots (bs.flatMap encodeByte) = bs.flatMap encodeByte := by
  induction bs with
  | nil => rfl
  | cons b bs ih =>
    rw [List.flatMap_cons, encodeByte]
    split
    · rename_i hplain
      rw [← UInt8.ofNat_toNat (x := b)] at hplain
      rw [List.singleton_append, dots_cons (unreserved_spec b.toNat b.toNat_lt hplain).2, ih]
    · rename_i hplain
      rw [← UInt8.ofNat_toNat (x := b), Bool.not_eq_true] at hplain
      obtain ⟨hhigh, hlow, hdot⟩ := hexDigits_spec b.toNat b.toNat_lt hplain
      simp only [escapeByte, List.cons_append, List.nil_append]
      by_cases htwo : hexDigit (b.toNat / 16) = '2'
      · obtain ⟨hsmall, hcapital⟩ := hdot htwo
        rw [htwo, Url.dots, if_neg (not_or.mpr ⟨hsmall, hcapital⟩)]
      · rw [Url.dots, dots_cons hhigh, dots_cons hlow, ih]
        rintro c cs - heq
        exact htwo (List.cons.inj heq).1

theorem dots_encodeChars (s : String) : Url.dots (encodeChars s) = encodeChars s := dots_flatMap _

theorem alphabet_spec : ∀ c ∈ alphabet, Url.Stands Url.pathSet c ∧ Url.Stands Url.webQuerySet c ∧
    Url.isSlash c = false ∧ isBlank c = false := forall_mem_alphabet (by decide +kernel)

/-- A name is one segment as long as it is not made of dots. -/
theorem isSegment_encodeChars {s : String} (hsingle : s ≠ ".") (hdouble : s ≠ "..") :
    Url.IsSegment (encodeChars s) where
  stands c hc := (alphabet_spec c (mem_alphabet hc)).1
  slash c hc := (alphabet_spec c (mem_alphabet hc)).2.2.1
  single h := by
    rw [dots_encodeChars] at h
    exact hsingle (encodeChars_injective (h.trans (by decide +kernel)))
  double h := by
    rw [dots_encodeChars] at h
    exact hdouble (encodeChars_injective (h.trans (by decide +kernel)))

/-- A fixed name that is encoded as itself is a segment. -/
theorem isSegment_of_encode_eq {s : String} (hself : encode s = s) (hsingle : s ≠ ".") (hdouble : s ≠ "..") :
    Url.IsSegment s.toList := by
  rw [← hself, toList_encode]
  exact isSegment_encodeChars hsingle hdouble

end Percent

/-! ## Names in a query -/

namespace Url

/-- What a part of a query says: it is cut at equals signs and decoded. -/
def readPair (pair : List Char) : List (Option String) :=
  (splitAtAll (· == '=') pair).map fun part => Utf8.text? (Percent.decode part)

/-- What a query says between ampersands. -/
def readQuery (query : List Char) : List (List (Option String)) := (splitAtAll (· == '&') query).map readPair

/-- An encoded value is read behind its name. -/
theorem readPair_encodeChars {name : List Char} {n : String} (hname : '=' ∉ name) (hn : Percent.StandsFor name n)
    (s : String) : readPair (name ++ '=' :: Percent.encodeChars s) = [some n, some s] := by
  have hvalue : '=' ∉ Percent.encodeChars s := Percent.not_mem_encodeChars (by decide +kernel) s
  have hparts : splitAtAll (· == '=') (name ++ '=' :: Percent.encodeChars s) = [name, Percent.encodeChars s] :=
    splitAtAll_eq_pair.mpr ⟨rfl, hname, hvalue⟩
  have hs : Utf8.text? (Percent.decode (Percent.encodeChars s)) = some s := Percent.standsFor_encodeChars s
  rw [readPair, hparts, List.map_cons, List.map_singleton, hn, hs]

end Url

namespace InfluxEndpoint

/-- The query of the URL to which points are written. -/
def query (e : InfluxEndpoint) : String :=
  "org=" ++ Percent.encode e.org ++ "&bucket=" ++ Percent.encode e.bucket ++ "&precision=ns"

theorem writeUrl_eq (e : InfluxEndpoint) : e.writeUrl =
    trimSlashes e.url ++ "/" ++ "/".intercalate ["api", "v2", "write"] ++ Url.marked "?" (some e.query) := by
  simp [writeUrl, query, Url.marked, ← String.toList_inj]

/-- The query has three values, which are the names and the precision. -/
theorem readQuery_query (e : InfluxEndpoint) : Url.readQuery e.query.toList =
    [[some "org", some e.org], [some "bucket", some e.bucket], [some "precision", some "ns"]] := by
  have hvalue : ∀ s, '&' ∉ Percent.encodeChars s := Percent.not_mem_encodeChars (by decide +kernel)
  have hpairs : splitAtAll (· == '&') e.query.toList = ["org".toList ++ '=' :: Percent.encodeChars e.org,
      "bucket".toList ++ '=' :: Percent.encodeChars e.bucket, "precision=ns".toList] := by
    rw [splitAtAll_eq_iff]
    simp [query, List.intercalate_cons_cons, Percent.toList_encode, hvalue]
  have hprecision : Url.readPair "precision=ns".toList = [some "precision", some "ns"] := by decide +kernel
  rw [Url.readQuery, hpairs, List.map_cons, List.map_cons, List.map_singleton, hprecision,
    Url.readPair_encodeChars (n := "org") (by decide) (by decide +kernel),
    Url.readPair_encodeChars (n := "bucket") (by decide) (by decide +kernel)]

/-- The characters of the query stand for themselves. -/
theorem stands_query (e : InfluxEndpoint) : ∀ c ∈ e.query.toList, Url.Stands Url.webQuerySet c := by
  have hname : ∀ s, ∀ c ∈ Percent.encodeChars s, Url.Stands Url.webQuerySet c := fun s c hc =>
    (Percent.alphabet_spec c (Percent.mem_alphabet hc)).2.1
  simp only [query, String.toList_append, Percent.toList_encode, List.forall_mem_append]
  exact ⟨⟨⟨⟨Url.stands_of_all rfl, hname e.org⟩, Url.stands_of_all rfl⟩, hname e.bucket⟩, Url.stands_of_all rfl⟩

/-- Where points are written, behind a base: a fixed path, and a query of three values that are the names and the
precision. -/
structure WriteTarget (base : String) (e : InfluxEndpoint) : Prop where
  cut : Url.cut '?' e.writeUrl.toList = ((base ++ "/api/v2/write").toList, some e.query.toList)
  fragment : '#' ∉ e.writeUrl.toList
  values : Url.readQuery e.query.toList =
    [[some "org", some e.org], [some "bucket", some e.bucket], [some "precision", some "ns"]]
  sent : ∀ names u, Url.parse names (base ++ "/") = .ok u → Url.parse names e.writeUrl =
    .ok { u with path := u.path.dropLast ++ ["api", "v2", "write"], query := some e.query }

theorem writeTarget (e : InfluxEndpoint) (hquery : '?' ∉ (trimSlashes e.url).toList)
    (hfragment : '#' ∉ (trimSlashes e.url).toList) : e.WriteTarget (trimSlashes e.url) where
  cut := by
    have hfront : '?' ∉ (trimSlashes e.url ++ "/api/v2/write").toList := by simpa using hquery
    rw [← Url.cut_append hfront]
    simp [writeUrl, query]
  fragment := by
    have hname : ∀ s, '#' ∉ Percent.encodeChars s := Percent.not_mem_encodeChars (by decide +kernel)
    simp [writeUrl, Percent.toList_encode, hfragment, hname]
  values := e.readQuery_query
  sent names u hu := by
    rw [writeUrl_eq]
    refine Url.parse_goesOn hu hquery hfragment (List.cons_ne_nil _ _) ?_ fun q hq => ?_
    · have hfixed : ∀ s ∈ ["api", "v2", "write"], Percent.encode s = s ∧ s ≠ "." ∧ s ≠ ".." := by decide +kernel
      intro s hs
      obtain ⟨hself, hsingle, hdouble⟩ := hfixed s hs
      exact Percent.isSegment_of_encode_eq hself hsingle hdouble
    · cases hq
      exact e.stands_query

/-- Targets behind one base are the same just if the names are. -/
theorem WriteTarget.eq_iff {base : String} {e e' : InfluxEndpoint} (h : e.WriteTarget base)
    (h' : e'.WriteTarget base) (hurl : e.url = e'.url) :
    e.writeUrl = e'.writeUrl ↔ e.org = e'.org ∧ e.bucket = e'.bucket := by
  constructor
  · intro heq
    have hquery : e.query.toList = e'.query.toList := by
      have hcut := h.cut
      rw [heq, h'.cut] at hcut
      exact (Option.some.inj (Prod.mk.inj hcut).2).symm
    have hvalues := h.values
    rw [hquery, h'.values] at hvalues
    simp only [List.cons.injEq, Option.some.injEq] at hvalues
    exact ⟨hvalues.1.2.1.symm, hvalues.2.1.2.1.symm⟩
  · rintro ⟨horg, hbucket⟩
    rw [writeUrl, writeUrl, hurl, horg, hbucket]

end InfluxEndpoint

/-! ## Names as segments of a path -/

namespace ElasticsearchEndpoint

/-- Where documents are indexed, behind a base: a segment that is the name of the index. -/
structure IndexTarget (base : String) (e : ElasticsearchEndpoint) (segment : String) : Prop where
  text : e.indexUrl = base ++ "/" ++ segment ++ "/_doc"
  separate : ∀ c ∈ segment.toList, c ≠ '/' ∧ c ≠ '?' ∧ c ≠ '#' ∧ isBlank c = false
  named : Percent.StandsFor segment.toList e.index
  kept : e.index ≠ "." → e.index ≠ ".." → ∀ path rest,
    Url.resolveSegments path (segment.toList :: rest) = Url.resolveSegments (path ++ [segment]) rest
  sent : e.index ≠ "." → e.index ≠ ".." → ∀ names u, Url.parse names (base ++ "/") = .ok u →
    Url.parse names e.indexUrl = .ok { u with path := u.path.dropLast ++ [segment, "_doc"], query := none }

theorem indexTarget (e : ElasticsearchEndpoint) (hquery : '?' ∉ (trimSlashes e.url).toList)
    (hfragment : '#' ∉ (trimSlashes e.url).toList) :
    e.IndexTarget (trimSlashes e.url) (Percent.encode e.index) where
  text := rfl
  separate c hc := by
    rw [Percent.toList_encode] at hc
    have hne : ∀ d ∉ Percent.alphabet, c ≠ d := fun d hd =>
      ne_of_mem_of_not_mem hc (Percent.not_mem_encodeChars hd e.index)
    exact ⟨hne '/' (by decide +kernel), hne '?' (by decide +kernel), hne '#' (by decide +kernel),
      (Percent.alphabet_spec c (Percent.mem_alphabet hc)).2.2.2⟩
  named := by
    rw [Percent.toList_encode]
    exact Percent.standsFor_encodeChars e.index
  kept hsingle hdouble path rest := by
    rw [Percent.toList_encode, Url.resolveSegments_cons (Percent.isSegment_encodeChars hsingle hdouble)]
    rfl
  sent hsingle hdouble names u hu := by
    have htext : e.indexUrl = trimSlashes e.url ++ "/" ++ "/".intercalate [Percent.encode e.index, "_doc"] ++
        Url.marked "?" none := by
      simp [indexUrl, Url.marked, ← String.toList_inj]
    rw [htext]
    refine Url.parse_goesOn hu hquery hfragment (List.cons_ne_nil _ _) (List.forall_mem_cons.mpr ⟨?_, ?_⟩)
      fun _ hq => absurd hq (Option.not_mem_none _)
    · rw [Percent.toList_encode]
      exact Percent.isSegment_encodeChars hsingle hdouble
    · rw [List.forall_mem_singleton]
      exact Percent.isSegment_of_encode_eq (by decide +kernel) (by decide) (by decide)

/-- Targets behind one base are the same just if the indices are. -/
theorem IndexTarget.eq_iff {base segment segment' : String} {e e' : ElasticsearchEndpoint}
    (h : e.IndexTarget base segment) (h' : e'.IndexTarget base segment') (hurl : e.url = e'.url) :
    e.indexUrl = e'.indexUrl ↔ e.index = e'.index := by
  constructor
  · intro heq
    rw [h.text, h'.text, String.append_left_inj, String.append_right_inj] at heq
    have hnamed := h.named
    rw [heq] at hnamed
    exact Option.some.inj (hnamed.symm.trans h'.named)
  · intro hindex
    rw [indexUrl, indexUrl, hurl, hindex]

end ElasticsearchEndpoint

/-! ## The main result -/

/-- **No name changes the shape of a URL.** The base goes on with a fixed path and a query of the names, or with the
name as a segment, whatever the names are; so different names are different targets. -/
theorem names_keep_place {url : String} (hquery : '?' ∉ url.toList) (hfragment : '#' ∉ url.toList) :
    (trimSlashes url).toList.getLast? ≠ some '/' ∧
      (∃ n, url = trimSlashes url ++ String.ofList (List.replicate n '/')) ∧
      (∀ e : InfluxEndpoint, e.url = url → e.WriteTarget (trimSlashes url)) ∧
      (∀ e : ElasticsearchEndpoint, e.url = url → ∃ segment, e.IndexTarget (trimSlashes url) segment) ∧
      (∀ e e' : InfluxEndpoint, e.url = url → e'.url = url →
        (e.writeUrl = e'.writeUrl ↔ e.org = e'.org ∧ e.bucket = e'.bucket)) ∧
      ∀ e e' : ElasticsearchEndpoint, e.url = url → e'.url = url → (e.indexUrl = e'.indexUrl ↔ e.index = e'.index) := by
  obtain ⟨hlast, hslashes⟩ := exists_trimSlashes url
  have hbase : ∀ c, c ∉ url.toList → c ∉ (trimSlashes url).toList := by
    obtain ⟨n, hurl⟩ := hslashes
    intro c hc hmem
    rw [hurl, String.toList_append] at hc
    exact hc (List.mem_append_left _ hmem)
  have hwrite : ∀ e : InfluxEndpoint, e.url = url → e.WriteTarget (trimSlashes url) := by
    rintro e rfl
    exact e.writeTarget (hbase _ hquery) (hbase _ hfragment)
  have hindex : ∀ e : ElasticsearchEndpoint, e.url = url →
      e.IndexTarget (trimSlashes url) (Percent.encode e.index) := by
    rintro e rfl
    exact e.indexTarget (hbase _ hquery) (hbase _ hfragment)
  exact ⟨hlast, hslashes, hwrite, fun e he => ⟨_, hindex e he⟩,
    fun e e' he he' => (hwrite e he).eq_iff (hwrite e' he') (he.trans he'.symm),
    fun e e' he he' => (hindex e he).eq_iff (hindex e' he') (he.trans he'.symm)⟩

/-- The names hold what separates the parts of a URL, and texts that are encoded already. -/
theorem names_keep_place_separators :
    ('?' ∉ "https://store/db//".toList ∧ '#' ∉ "https://store/db//".toList) ∧
      InfluxEndpoint.WriteTarget "https://store/db" ⟨"https://store/db//", "token", "a&b=c", "%26?é"⟩ ∧
      (∃ segment, ElasticsearchEndpoint.IndexTarget "https://store/db" ⟨"https://store/db//", "../a%2Fb", none, none⟩
        segment) ∧
      ∃ u, Url.parse Url.asciiName "https://store/db/" = .ok u ∧ u.path = ["db", ""] := by
  have hbase : trimSlashes "https://store/db//" = "https://store/db" := by decide +kernel
  obtain ⟨-, -, hwrite, hindex, -⟩ := names_keep_place (by decide : '?' ∉ "https://store/db//".toList) (by decide)
  rw [hbase] at hwrite hindex
  exact ⟨⟨by decide, by decide⟩, hwrite ⟨_, "token", "a&b=c", "%26?é"⟩ rfl, hindex ⟨_, "../a%2Fb", none, none⟩ rfl,
    _, rfl, rfl⟩

end EventCourier
