import EventCourier.Proofs.Record.Redirect
import EventCourier.Proofs.Router
import EventCourier.Record.Store

/-!
# One request for each event, and the result tells of its answer

What an answer means is decided by its status alone, and in the same way for both backends (`Reported`). An event
is either a redirect whose payload does not map, and nothing is sent; or one request is given to the client of the
backend of its routing key, and the result reports the answer it ends with (`persistAt_cases`). With clients that send
each request once, that is the answer to it (`stored_or_reported`).
-/

namespace EventCourier

/-! ## Requests -/

namespace Http

/-- Whether a request can be built does not depend on its body, which it carries as it is. -/
theorem post_body {read : UrlReading} {url body : String} {headers : List (String × String)} {r : Request}
    (h : Request.post read url headers body = .ok r) (body' : String) :
    ∃ r', Request.post read url headers body' = .ok r' ∧ r'.body = body' := by
  unfold Request.post at h ⊢
  split at h
  · cases h
  · cases h
  · split at h
    · rename_i u hurl hheaders
      exact ⟨_, if_pos hheaders, rfl⟩
    · cases h

/-- Sent once, a request ends with the answer to it. -/
theorem toOption_send (r : Request) (answer : Option Response) : (r.send answer).toOption = answer := by
  cases answer <;> rfl

end Http

variable {read : Http.UrlReading}

/-- If one write can be built, every one can, and its body holds the lines of its points. -/
theorem InfluxEndpoint.request_of_request {e : InfluxEndpoint} (h : ∃ points r, e.request read points = .ok r)
    (points : List Point) : ∃ r, e.request read points = .ok r ∧ r.body = Point.lines points := by
  obtain ⟨_, _, h⟩ := h
  exact Http.post_body h _

/-- If one request to index can be built, every one can, and its body is the text of its document. -/
theorem ElasticsearchEndpoint.request_of_request {e : ElasticsearchEndpoint}
    (h : ∃ d r, e.request read d = .ok r) (d : Document) : ∃ r, e.request read d = .ok r ∧ r.body = d.render := by
  obtain ⟨_, _, h⟩ := h
  exact Http.post_body h _

/-! ## Answers -/

/-- A result that reports the answer to a request: all is well after a success, the same request may do later if
the server failed, asks for fewer requests or does not answer, and any other answer is final. -/
structure Reported (answer : Option Http.Response) (result : Except SinkError Unit) : Prop where
  stored : result = .ok () ↔ ∃ a, answer = some a ∧ 200 ≤ a.status.code ∧ a.status.code < 300
  transient : (∃ fault, result = .error fault ∧ fault.category = .transient) ↔
    answer = none ∨ ∃ a, answer = some a ∧ (500 ≤ a.status.code ∧ a.status.code < 600 ∨ a.status.code = 429)
  permanent : (∃ fault, result = .error fault ∧ fault.category = .permanent) ↔
    ∃ a, answer = some a ∧ ¬(200 ≤ a.status.code ∧ a.status.code < 300) ∧
      ¬(500 ≤ a.status.code ∧ a.status.code < 600) ∧ a.status.code ≠ 429

theorem reported_none (text : String) : Reported none (.error (.unavailable text)) where
  stored := by simp
  transient := by simp [SinkError.category]
  permanent := by simp [SinkError.category]

variable {a : Http.Response}

theorem isSuccess_iff : a.status.isSuccess = true ↔ 200 ≤ a.status.code ∧ a.status.code < 300 := by
  simp [Http.Status.isSuccess]

theorem mayRecover_iff : a.status.mayRecover = true ↔
    500 ≤ a.status.code ∧ a.status.code < 600 ∨ a.status.code = 429 := by
  obtain ⟨⟨code⟩, -⟩ := a
  simp [Http.Status.mayRecover, Http.Status.isServerError, Http.Status.tooManyRequests]

theorem reported_success (h : a.status.isSuccess = true) : Reported (some a) (.ok ()) := by
  have hrange := isSuccess_iff.mp h
  constructor <;> simp <;> omega

/-- Of an answer that is no success the status decides, whatever the words are. -/
theorem reported_failure (h : ¬a.status.isSuccess = true) (text : String) :
    Reported (some a) (.error (if a.status.mayRecover then .unavailable text else .rejected text)) := by
  have hrange := mt isSuccess_iff.mpr h
  by_cases hrecover : a.status.mayRecover = true
  · rw [if_pos hrecover]
    have hcode := mayRecover_iff.mp hrecover
    constructor <;> simp [SinkError.category] <;> omega
  · rw [if_neg hrecover]
    have hcode := mt mayRecover_iff.mpr hrecover
    constructor <;> simp [SinkError.category] <;> omega

theorem InfluxEndpoint.conclude_reported (a : Http.Response) : Reported (some a) (conclude a).1 := by
  unfold conclude
  split
  · exact reported_success ‹_›
  · exact reported_failure ‹_› _

theorem ElasticsearchEndpoint.conclude_reported (a : Http.Response) : Reported (some a) (conclude a).1 := by
  unfold conclude
  split
  · exact reported_success ‹_›
  · exact reported_failure ‹_› _

/-- A write that can be built is given to the client, and its result reports the answer it ends with. -/
theorem InfluxEndpoint.writeAt_reported {e : InfluxEndpoint} {points : List Point} {r : Http.Request}
    (hne : points ≠ []) (h : e.request read points = .ok r) (send : Http.Exchange) :
    (writeAt ⟨read, send⟩ e points).2 = (send r).2 ∧
      Reported (send r).1.toOption (writeAt ⟨read, send⟩ e points).1.1 := by
  simp only [writeAt, List.isEmpty_eq_false_iff.mpr hne, Bool.false_eq_true, if_false, h, Http.exchange]
  rcases send r with ⟨failure | a, sent⟩
  · exact ⟨rfl, reported_none _⟩
  · exact ⟨rfl, conclude_reported a⟩

/-- A request to index that can be built is given to the client, and its result reports the answer it ends with. -/
theorem ElasticsearchEndpoint.indexAt_reported {e : ElasticsearchEndpoint} {d : Document} {r : Http.Request}
    (h : e.request read d = .ok r) (send : Http.Exchange) :
    (indexAt ⟨read, send⟩ e d).2 = (send r).2 ∧ Reported (send r).1.toOption (indexAt ⟨read, send⟩ e d).1.1 := by
  simp only [indexAt, h, Http.exchange]
  rcases send r with ⟨failure | a, sent⟩
  · exact ⟨rfl, reported_none _⟩
  · exact ⟨rfl, conclude_reported a⟩

/-! ## Events -/

namespace StoreRequest

variable {influx : InfluxEndpoint} {elasticsearch : ElasticsearchEndpoint}

theorem performAt_write (clients : Store → Http.Client) (points : List Point) :
    (StoreRequest.write points).performAt clients influx elasticsearch =
      ((InfluxEndpoint.writeAt (clients .timeSeries) influx points).1,
        (InfluxEndpoint.writeAt (clients .timeSeries) influx points).2.map (.timeSeries, ·)) := rfl

theorem performAt_index (clients : Store → Http.Client) (d : Document) :
    (StoreRequest.index d).performAt clients influx elasticsearch =
      ((ElasticsearchEndpoint.indexAt (clients .documents) elasticsearch d).1,
        (ElasticsearchEndpoint.indexAt (clients .documents) elasticsearch d).2.map (.documents, ·)) := rfl

/-- A redirect whose payload does not map: nothing is sent. -/
theorem persistAt_unmapped {e : Event} {fault : Redirect.Fault} (hkey : lower e.routingKey = "link.redirected")
    (hfault : Redirect.ofPayload e.payload = .error fault) (clients : Store → Http.Client) :
    persistAt clients influx elasticsearch e = ((.error (.mapping fault.message), []), []) := by
  rw [persistAt, router, Router.select_forEvents, if_pos hkey]
  simp only [timeSeries, Redirect.pointOfEvent, hfault]

/-- A redirect whose payload maps: its point is written. -/
theorem persistAt_redirect {e : Event} {redirect : Redirect} {p : Point}
    (hkey : lower e.routingKey = "link.redirected") (hredirect : Redirect.ofPayload e.payload = .ok redirect)
    (hpoint : redirect.point? = .ok p) (clients : Store → Http.Client) :
    persistAt clients influx elasticsearch e = (StoreRequest.write [p]).performAt clients influx elasticsearch := by
  rw [persistAt, router, Router.select_forEvents, if_pos hkey]
  simp only [timeSeries, Redirect.pointOfEvent, hredirect, hpoint]

/-- Any other event: its document is indexed. -/
theorem persistAt_document {e : Event} (hkey : lower e.routingKey ≠ "link.redirected")
    (clients : Store → Http.Client) : persistAt clients influx elasticsearch e =
      (StoreRequest.index (.ofEvent e)).performAt clients influx elasticsearch := by
  rw [persistAt, router, Router.select_forEvents, if_neg hkey]
  rfl

/-- The request that an event asks for: the point of a redirect goes to the time series, and the document of any
other event to the documents. -/
inductive Asks (clients : Store → Http.Client) (influx : InfluxEndpoint) (elasticsearch : ElasticsearchEndpoint)
    (e : Event) : Store → Http.Request → Prop
  | write {redirect : Redirect} {p : Point} {r : Http.Request} (hkey : lower e.routingKey = "link.redirected")
      (hredirect : Redirect.ofPayload e.payload = .ok redirect) (hpoint : redirect.point? = .ok p)
      (hrequest : influx.request (clients .timeSeries).read [p] = .ok r) (hbody : r.body = p.line) :
      Asks clients influx elasticsearch e .timeSeries r
  | index {r : Http.Request} (hkey : lower e.routingKey ≠ "link.redirected")
      (hrequest : elasticsearch.request (clients .documents).read (.ofEvent e) = .ok r)
      (hbody : r.body = (Document.ofEvent e).render) : Asks clients influx elasticsearch e .documents r

/-- Either the payload of a redirect does not map, and nothing is sent; or what the event asks for is given to the
client of its backend, and the result reports the answer it ends with. -/
theorem persistAt_cases (clients : Store → Http.Client)
    (hinflux : ∃ points r, influx.request (clients .timeSeries).read points = .ok r)
    (helasticsearch : ∃ d r, elasticsearch.request (clients .documents).read d = .ok r) (e : Event) :
    (∃ fault, lower e.routingKey = "link.redirected" ∧ Redirect.ofPayload e.payload = .error fault ∧
      persistAt clients influx elasticsearch e = ((.error (.mapping fault.message), []), [])) ∨
    ∃ store r, Asks clients influx elasticsearch e store r ∧
      (persistAt clients influx elasticsearch e).2 = ((clients store).send r).2.map (store, ·) ∧
      Reported ((clients store).send r).1.toOption (persistAt clients influx elasticsearch e).1.1 := by
  by_cases hkey : lower e.routingKey = "link.redirected"
  · cases hpayload : Redirect.ofPayload e.payload with
    | error fault => exact Or.inl ⟨fault, hkey, rfl, persistAt_unmapped hkey hpayload clients⟩
    | ok redirect =>
      have hpoint := Redirect.point?_eq_ok (Redirect.describes_of_ofPayload hpayload).inRange
      obtain ⟨r, hrequest, hbody⟩ := InfluxEndpoint.request_of_request hinflux [redirect.point]
      obtain ⟨hsent, hreported⟩ :=
        InfluxEndpoint.writeAt_reported (List.cons_ne_nil _ _) hrequest (clients .timeSeries).send
      refine Or.inr ⟨.timeSeries, r, .write hkey hpayload hpoint hrequest ?_, ?_⟩
      · rw [hbody, Line.lines_singleton]
      · simp only [persistAt_redirect hkey hpayload hpoint, performAt_write, hsent]
        exact ⟨trivial, hreported⟩
  · obtain ⟨r, hrequest, hbody⟩ := ElasticsearchEndpoint.request_of_request helasticsearch (.ofEvent e)
    obtain ⟨hsent, hreported⟩ := ElasticsearchEndpoint.indexAt_reported hrequest (clients .documents).send
    refine Or.inr ⟨.documents, r, .index hkey hrequest hbody, ?_⟩
    simp only [persistAt_document hkey, performAt_index, hsent]
    exact ⟨trivial, hreported⟩

end StoreRequest

/-! ## The main result -/

/-- **No event is dropped silently.** However URLs are read, if requests can be built for both backends and each is sent
once, an event is stored with at most one request. None is sent just if the event is a redirect whose payload does not
map, and that is how it fails. Otherwise the line of a redirect is sent to the time series, and the document of any
other event to the documents; the result is a success, a transient or a permanent failure as the status of the answer
says, whatever else is in it. -/
theorem stored_or_reported {read : Http.UrlReading} {influx : InfluxEndpoint} {elasticsearch : ElasticsearchEndpoint}
    (hinflux : ∃ points r, influx.request read points = .ok r)
    (helasticsearch : ∃ d r, elasticsearch.request read d = .ok r) (servers : Store → Http.Server) (e : Event)
    (result : Except SinkError Unit) (log : List LogRecord) (sent : List (Store × Http.Request))
    (h : StoreRequest.persistAt (fun store => .once read (servers store)) influx elasticsearch e =
      ((result, log), sent)) :
    sent.length ≤ 1 ∧
      (sent = [] ↔ lower e.routingKey = "link.redirected" ∧ ∃ fault, Redirect.ofPayload e.payload = .error fault) ∧
      (sent = [] → ∃ reason, result = .error (.mapping reason)) ∧
      (∀ r, (.timeSeries, r) ∈ sent → lower e.routingKey = "link.redirected" ∧
        ∃ redirect p, Redirect.ofPayload e.payload = .ok redirect ∧ redirect.point? = .ok p ∧
          influx.request read [p] = .ok r ∧ r.body = p.line) ∧
      (∀ r, (.documents, r) ∈ sent → lower e.routingKey ≠ "link.redirected" ∧
        elasticsearch.request read (.ofEvent e) = .ok r ∧ r.body = (Document.ofEvent e).render) ∧
      (∀ store r, (store, r) ∈ sent → Reported (servers store r) result) := by
  have hcases := StoreRequest.persistAt_cases (fun store => .once read (servers store)) hinflux helasticsearch e
  rw [h] at hcases
  rcases hcases with ⟨fault, hkey, hpayload, hnone⟩ | ⟨store, r, hasks, hsent, hreported⟩
  · cases hnone
    have hnothing : ∀ m : Store × Http.Request, m ∉ [] := fun _ => List.not_mem_nil
    exact ⟨Nat.zero_le _, iff_of_true rfl ⟨hkey, fault, hpayload⟩, fun _ => ⟨_, rfl⟩,
      fun _ hr => absurd hr (hnothing _), fun _ hr => absurd hr (hnothing _), fun _ _ hr => absurd hr (hnothing _)⟩
  · cases hsent
    refine ⟨Nat.le_refl _, ?_, fun hnone => absurd hnone (List.cons_ne_nil _ _), ?_, ?_, ?_⟩
    · refine iff_of_false (List.cons_ne_nil _ _) ?_
      rintro ⟨hkey, fault, hfault⟩
      cases hasks with
      | write _ hredirect => cases hfault.symm.trans hredirect
      | index hne => exact hne hkey
    · intro r' hr'
      cases List.mem_singleton.mp hr'
      cases hasks with
      | write hkey hredirect hpoint hrequest hbody => exact ⟨hkey, _, _, hredirect, hpoint, hrequest, hbody⟩
    · intro r' hr'
      cases List.mem_singleton.mp hr'
      cases hasks with
      | index hkey hrequest hbody => exact ⟨hkey, hrequest, hbody⟩
    · intro store' r' hr'
      cases List.mem_singleton.mp hr'
      rwa [Http.Client.once, Http.toOption_send] at hreported

/-! ## Backends that ask for fewer requests -/

/-- A time series. -/
def sampleInflux : InfluxEndpoint := ⟨"http://influx", "t", "o", "b"⟩

/-- A time series that has an address in place of a name. -/
def sampleLocal : InfluxEndpoint := { sampleInflux with url := "http://[::1]:8086" }

/-- The request to it without any points. -/
def sampleRequest : Http.Request where
  method := .post
  url := ⟨"http", none, "[::1]", some 8086, ["api", "v2", "write"], some "org=o&bucket=b&precision=ns", none⟩
  headers := [("Authorization", "Token t"), ("Content-Type", "text/plain; charset=utf-8")]
  body := ""

/-- A search engine that asks for no credentials. -/
def sampleElasticsearch : ElasticsearchEndpoint := ⟨"http://elastic/", "events", none, none⟩

/-- Servers that ask for fewer requests, in answers that break off. -/
def overloaded (_ : Store) : Http.Server := fun _ => some ⟨.tooManyRequests, none⟩

/-- An event that is no redirect. -/
def userCreated : Event := ⟨"user", "created", "user.created", ⟨0, 0⟩, .null⟩

theorem stored_or_reported_overloaded : ∃ result log sent,
    StoreRequest.persistAt (fun store => .plain (overloaded store)) sampleLocal sampleElasticsearch userCreated =
        ((result, log), sent) ∧
      sent ≠ [] ∧ ∃ fault, result = .error fault ∧ fault.category = .transient := by
  have hinflux : ∃ points r, sampleLocal.request Http.Client.readPlain points = .ok r :=
    ⟨[], sampleRequest, by decide +kernel⟩
  have helasticsearch : ∃ d r, sampleElasticsearch.request Http.Client.readPlain d = .ok r :=
    ⟨.ofEvent userCreated, _, by rfl⟩
  rcases hdone : StoreRequest.persistAt (fun store => .plain (overloaded store)) sampleLocal sampleElasticsearch
    userCreated with ⟨⟨result, log⟩, sent⟩
  have hall := stored_or_reported hinflux helasticsearch overloaded userCreated result log sent hdone
  have hsome : sent ≠ [] := by
    intro hnone
    exact absurd (hall.2.1.mp hnone).1 (by decide +kernel)
  obtain ⟨⟨store, r⟩, hr⟩ := List.exists_mem_of_ne_nil sent hsome
  have hreported := hall.2.2.2.2.2 store r hr
  exact ⟨result, log, sent, rfl, hsome, hreported.transient.mpr (Or.inr ⟨_, rfl, Or.inr rfl⟩)⟩

end EventCourier
