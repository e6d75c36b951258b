import EventCourier.Proofs.Http.Url
import EventCourier.Proofs.Text.Percent
import EventCourier.Settings.Endpoints

/-!
# The URI of the broker

A URI with credentials, a host, a port and one path segment is cut at its separators into these parts (`read?`). Parts
that hold none of the separators behind them are found again in the text that they make up (`read?_text`). What is
percent-encoded holds no separator at all, so the URI of a broker names its user, password and virtual host whatever
they are, and only one endpoint has it (`uri_unambiguous`).
-/

namespace EventCourier

/-! ## Cutting once -/

/-- What stands in front of the first separator, and what behind it. -/
def splitFirst? (c : Char) (cs : List Char) : Option (List Char × List Char) :=
  (Url.cut c cs).2.map fun back => ((Url.cut c cs).1, back)

/-- What stands in front of the last separator, and what behind it. -/
def splitLast? (c : Char) (cs : List Char) : Option (List Char × List Char) :=
  (splitFirst? c cs.reverse).map fun (back, front) => (front.reverse, back.reverse)

theorem splitFirst?_append {c : Char} {front : List Char} (h : c ∉ front) (back : List Char) :
    splitFirst? c (front ++ c :: back) = some (front, back) := by
  rw [splitFirst?, Url.cut_append h, Option.map_some]

theorem splitLast?_append {c : Char} {back : List Char} (h : c ∉ back) (front : List Char) :
    splitLast? c (front ++ c :: back) = some (front, back) := by
  have hreverse : (front ++ c :: back).reverse = back.reverse ++ c :: front.reverse := by simp
  rw [splitLast?, hreverse, splitFirst?_append (by simpa using h)]
  simp only [Option.map_some, List.reverse_reverse]

/-! ## The parts of a URI -/

/-- The parts of a URI that connects to a path of one segment with a user name and a password. -/
structure UriParts where
  scheme : List Char
  user : List Char
  password : List Char
  host : List Char
  port : List Char
  segment : List Char

namespace UriParts

/-- True of the characters that end an authority, or one segment of a path. -/
def isEnd (c : Char) : Bool := c == '/' || c == '?' || c == '#'

/-- What stands behind two slashes. -/
def behindSlashes? : List Char → Option (List Char)
  | '/' :: '/' :: cs => some cs
  | _ => none

/-- A path of one segment, and nothing behind it. -/
def onlySegment? : List Char → Option (List Char)
  | '/' :: cs => if cs.any isEnd then none else some cs
  | _ => none

/-- Cuts a URI: the authority ends at the path, the credentials at the first `@`, the user name at the first colon,
and the host at the last colon. -/
def read? (cs : List Char) : Option UriParts := do
  let (scheme, rest) ← splitFirst? ':' cs
  let rest ← behindSlashes? rest
  let (userinfo, hostPort) ← splitFirst? '@' (rest.takeWhile (!isEnd ·))
  let (user, password) ← splitFirst? ':' userinfo
  let (host, port) ← splitLast? ':' hostPort
  let segment ← onlySegment? (rest.dropWhile (!isEnd ·))
  return ⟨scheme, user, password, host, port, segment⟩

variable (p : UriParts)

/-- Credentials, host and port. -/
def authority : List Char := (p.user ++ ':' :: p.password) ++ '@' :: (p.host ++ ':' :: p.port)

/-- The parts as one text. -/
def text : List Char := p.scheme ++ ':' :: '/' :: '/' :: (p.authority ++ '/' :: p.segment)

/-- No part holds a separator at which it would be cut too early. -/
structure Separate : Prop where
  scheme : ':' ∉ p.scheme
  user : ':' ∉ p.user
  credentials : '@' ∉ p.user ++ ':' :: p.password
  port : ':' ∉ p.port
  authority : ∀ c ∈ p.authority, isEnd c = false
  segment : ∀ c ∈ p.segment, isEnd c = false

variable {p}

/-- Separate parts are found again in their text. -/
theorem read?_text (h : p.Separate) : read? p.text = some p := by
  have hinside : ∀ c ∈ p.authority, (!isEnd c) = true := fun c hc => by rw [h.authority c hc, Bool.not_false]
  have htake : (p.authority ++ '/' :: p.segment).takeWhile (!isEnd ·) = p.authority := by
    rw [takeWhile_append_stop (p := (!isEnd ·)) rfl, List.takeWhile_eq_self_iff.mpr hinside]
  have hdrop : (p.authority ++ '/' :: p.segment).dropWhile (!isEnd ·) = '/' :: p.segment := by
    rw [dropWhile_append_stop (p := (!isEnd ·)) rfl, List.dropWhile_eq_nil_iff.mpr hinside, List.nil_append]
  have hsegment : onlySegment? ('/' :: p.segment) = some p.segment := by
    have hnone : p.segment.any isEnd = false := List.any_eq_false.mpr fun c hc => by simp [h.segment c hc]
    rw [onlySegment?, hnone]
    rfl
  simp only [read?, text, splitFirst?_append h.scheme, behindSlashes?, htake, hdrop, hsegment, Option.bind_eq_bind,
    Option.bind_some, Option.pure_def]
  simp only [authority, splitFirst?_append h.credentials, splitFirst?_append h.user, splitLast?_append h.port,
    Option.bind_some]

/-- The parts name the endpoint: user name, password and virtual host once they are decoded, host and port as they
are. -/
structure Names (p : UriParts) (e : BrokerEndpoint) : Prop where
  scheme : String.ofList p.scheme = "amqp"
  username : Percent.StandsFor p.user e.username
  password : Percent.StandsFor p.password e.password
  host : String.ofList p.host = e.host
  digits : p.port ≠ [] ∧ ∀ c ∈ p.port, c.isDigit = true
  port : Nat.ofDigitChars 10 p.port 0 = e.port
  vhost : Percent.StandsFor p.segment e.vhost

/-- Parts name one endpoint at most. -/
theorem Names.unique {e e' : BrokerEndpoint} (h : p.Names e) (h' : p.Names e') : e = e' := by
  cases e
  cases e'
  rw [BrokerEndpoint.mk.injEq]
  exact ⟨h.host.symm.trans h'.host, h.port.symm.trans h'.port,
    Option.some.inj (h.username.symm.trans h'.username), Option.some.inj (h.password.symm.trans h'.password),
    Option.some.inj (h.vhost.symm.trans h'.vhost)⟩

end UriParts

/-! ## The parts of an endpoint -/

namespace BrokerEndpoint

/-- The host holds no character that ends it; a colon does not, since the port stands behind the last one. -/
def PlainHost (e : BrokerEndpoint) : Prop := ∀ c ∈ ['/', '?', '#', '@'], c ∉ e.host.toList

instance (e : BrokerEndpoint) : Decidable e.PlainHost := List.decidableBAll (· ∉ e.host.toList) ['/', '?', '#', '@']

/-- What the URI of the endpoint is made up of. -/
def uriParts (e : BrokerEndpoint) : UriParts where
  scheme := "amqp".toList
  user := Percent.encodeChars e.username
  password := Percent.encodeChars e.password
  host := e.host.toList
  port := Nat.toDigits 10 e.port
  segment := Percent.encodeChars e.vhost

theorem toList_uri (e : BrokerEndpoint) : e.uri.toList = e.uriParts.text := by
  unfold uri uriParts
  simp [UriParts.text, UriParts.authority, Percent.toList_encode]

theorem names_uriParts (e : BrokerEndpoint) : e.uriParts.Names e where
  scheme := rfl
  username := Percent.standsFor_encodeChars e.username
  password := Percent.standsFor_encodeChars e.password
  host := String.ofList_toList
  digits := ⟨Nat.toDigits_ne_nil, fun _ => Nat.isDigit_of_mem_toDigits (by decide) (by decide)⟩
  port := Nat.ofDigitChars_ten_toDigits
  vhost := Percent.standsFor_encodeChars e.vhost

/-- No separator is encoded as itself, and none is a digit. -/
theorem separate_uriParts {e : BrokerEndpoint} (h : e.PlainHost) : e.uriParts.Separate := by
  have halphabet : ∀ c ∈ Percent.alphabet, c ≠ ':' ∧ c ≠ '@' ∧ UriParts.isEnd c = false :=
    Percent.forall_mem_alphabet (by decide +kernel)
  have hname : ∀ s, ∀ c ∈ Percent.encodeChars s, c ≠ ':' ∧ c ≠ '@' ∧ UriParts.isEnd c = false := fun s c hc =>
    halphabet c (Percent.mem_alphabet hc)
  have hhost : ∀ c ∈ e.host.toList, UriParts.isEnd c = false := by
    intro c hc
    have hne : ∀ d ∈ ['/', '?', '#', '@'], c ≠ d := fun d hd => ne_of_mem_of_not_mem hc (h d hd)
    simp [UriParts.isEnd, hne]
  have hport : ∀ c ∈ Nat.toDigits 10 e.port, c ≠ ':' ∧ UriParts.isEnd c = false := by
    intro c hc
    have hne : ∀ d : Char, d.isDigit = false → c ≠ d := by
      rintro d hd rfl
      rw [e.names_uriParts.digits.2 c hc] at hd
      cases hd
    simp [UriParts.isEnd, hne ':' rfl, hne '/' rfl, hne '?' rfl, hne '#' rfl]
  exact {
    scheme := (by decide : ':' ∉ "amqp".toList)
    user := fun hmem => (hname _ _ hmem).1 rfl
    credentials := by
      intro hmem
      rcases List.mem_append.mp hmem with hmem | hmem
      · exact (hname _ _ hmem).2.1 rfl
      · exact (hname _ _ ((List.mem_cons.mp hmem).resolve_left (by decide))).2.1 rfl
    port := fun hmem => (hport _ hmem).1 rfl
    authority := by
      simp only [UriParts.authority, List.forall_mem_append, List.forall_mem_cons]
      exact ⟨⟨fun c hc => (hname _ c hc).2.2, rfl, fun c hc => (hname _ c hc).2.2⟩, rfl, hhost, rfl,
        fun c hc => (hport c hc).2⟩
    segment := fun c hc => (hname _ c hc).2.2 }

end BrokerEndpoint

/-! ## The main result -/

/-- **A broker's URI names its endpoint.** It is cut into parts that name the endpoint, whatever separators the
credentials and the virtual host hold; so no other endpoint has the same URI. -/
theorem uri_unambiguous {e : BrokerEndpoint} (he : e.PlainHost) :
    (∃ p, UriParts.read? e.uri.toList = some p ∧ p.Names e) ∧
      ∀ e' : BrokerEndpoint, e'.PlainHost → e.uri = e'.uri → e = e' := by
  have hread : ∀ e : BrokerEndpoint, e.PlainHost → UriParts.read? e.uri.toList = some e.uriParts := by
    intro e he
    rw [e.toList_uri, UriParts.read?_text (BrokerEndpoint.separate_uriParts he)]
  refine ⟨⟨_, hread e he, e.names_uriParts⟩, fun e' he' huri => ?_⟩
  have hparts : e.uriParts = e'.uriParts := by
    have hsame := hread e he
    rw [huri, hread e' he'] at hsame
    exact (Option.some.inj hsame).symm
  have hnames := e.names_uriParts
  rw [hparts] at hnames
  exact hnames.unique e'.names_uriParts

/-- The host is an address with colons, and the credentials hold every separator. -/
theorem uri_unambiguous_separators :
    BrokerEndpoint.PlainHost ⟨"[::1]", 5672, "a:b@c", "/?#%40é", "/"⟩ ∧
      (∃ p, UriParts.read? (BrokerEndpoint.uri ⟨"[::1]", 5672, "a:b@c", "/?#%40é", "/"⟩).toList = some p ∧
        p.Names ⟨"[::1]", 5672, "a:b@c", "/?#%40é", "/"⟩) ∧
      BrokerEndpoint.uri ⟨"[::1]", 5672, "a:b@c", "/?#%40é", "/"⟩ ≠
        BrokerEndpoint.uri ⟨"[::1]", 5672, "a", "b@c:/?#%40é", "/"⟩ := by
  have hplain : BrokerEndpoint.PlainHost ⟨"[::1]", 5672, "a:b@c", "/?#%40é", "/"⟩ := by decide
  refine ⟨hplain, (uri_unambiguous hplain).1, fun huri => ?_⟩
  exact absurd ((uri_unambiguous hplain).2 _ (by decide) huri) (by decide)

end EventCourier
