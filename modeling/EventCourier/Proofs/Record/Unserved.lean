import EventCourier.Proofs.Pipeline
import EventCourier.Proofs.Record.Store

/-!
# What counts as unavailable

A backend counts as unavailable if a request was not served, that is, not answered, answered with a failure of the
server, or answered with the wish for fewer requests; but also if no request could be built (`Asked`). Of an endpoint
whose requests cannot be built every attempt fails in the same way, whatever the server does, and under the policy to
put transient failures back its messages come back for ever (`unavailable_unbuilt_or_unserved`).
-/

namespace EventCourier

/-! ## Requests that can be built -/

namespace Http

theorem isHeaderValue_append (s t : String) : isHeaderValue (s ++ t) = (isHeaderValue s && isHeaderValue t) := by
  simp [isHeaderValue]

/-- A request can be built for a URL that the client reads and headers without control characters. -/
theorem exists_post_iff {read : UrlReading} {url body : String} {headers : List (String × String)} :
    (∃ r, Request.post read url headers body = .ok r) ↔
      (∃ u, read url = .ok u) ∧ headers.all (isHeaderValue ·.2) = true := by
  unfold Request.post
  cases read url with
  | error fault => cases fault <;> simp
  | ok u => by_cases h : headers.all (isHeaderValue ·.2) = true <;> simp [h]

end Http

/-- The digits are visible. -/
theorem Base64.digit_spec (n : Nat) : 32 ≤ (digit n).toNat ∧ (digit n).toNat ≠ 127 := by
  have hlow : ∀ n < 63, 32 ≤ (digit n).toNat ∧ (digit n).toNat ≠ 127 := by decide
  by_cases h : n < 63
  · exact hlow n h
  · have hdigit : digit n = '/' := by
      rw [digit, if_neg (by omega), if_neg (by omega), if_neg (by omega), if_neg (by omega)]
    rw [hdigit]
    decide

theorem Base64.encode_spec (bytes : List UInt8) : ∀ c ∈ encode bytes, 32 ≤ c.toNat ∧ c.toNat ≠ 127 := by
  fun_induction encode bytes with
  | case1 => nofun
  | case2 => simp [digit_spec]
  | case3 => simp [digit_spec]
  | case4 _ _ _ _ ih => simpa [digit_spec] using ih

/-- Credentials make a header whatever they hold. -/
theorem Http.isHeaderValue_basicAuthorization (user : String) (password : Option String) :
    isHeaderValue (basicAuthorization user password).2 = true := by
  rw [basicAuthorization, isHeaderValue_append, Bool.and_eq_true]
  refine ⟨by decide, ?_⟩
  rw [isHeaderValue, List.all_eq_true, String.toList_ofList]
  intro c hc
  simp [Base64.encode_spec _ c hc]

variable {read : Http.UrlReading}

/-- A write can be built unless its URL cannot be read or the token holds a control character. -/
theorem InfluxEndpoint.exists_request_iff {e : InfluxEndpoint} {points : List Point} :
    (∃ r, e.request read points = .ok r) ↔ (∃ u, read e.writeUrl = .ok u) ∧ Http.isHeaderValue e.token = true := by
  have hscheme : Http.isHeaderValue "Token " = true := by decide
  have hkind : Http.isHeaderValue "text/plain; charset=utf-8" = true := by decide
  rw [request, Http.exists_post_iff]
  simp [Http.isHeaderValue_append, hscheme, hkind]

/-- A request to index can be built unless its URL cannot be read. -/
theorem ElasticsearchEndpoint.exists_request_iff {e : ElasticsearchEndpoint} {d : Document} :
    (∃ r, e.request read d = .ok r) ↔ ∃ u, read e.indexUrl = .ok u := by
  have hkind : Http.isHeaderValue "application/json" = true := by decide
  rw [request, Http.exists_post_iff]
  cases e.credentials? <;> simp [hkind, Http.isHeaderValue_basicAuthorization]

/-! ## Requests that were not served -/

/-- A request was not served: it was not answered, the server failed, or it asks for fewer requests. -/
def Unserved (answer : Option Http.Response) : Prop :=
  answer = none ∨ ∃ a, answer = some a ∧ (500 ≤ a.status.code ∧ a.status.code < 600 ∨ a.status.code = 429)

theorem SinkError.category_eq_transient {e : SinkError} :
    e.category = .transient ↔ ∃ reason, e = .unavailable reason := by
  cases e <;> simp [SinkError.category]

theorem Reported.unavailable_iff {answer : Option Http.Response} {result : Except SinkError Unit}
    (h : Reported answer result) : (∃ reason, result = .error (.unavailable reason)) ↔ Unserved answer := by
  rw [Unserved, ← h.transient]
  constructor
  · rintro ⟨reason, rfl⟩
    exact ⟨_, rfl, rfl⟩
  · rintro ⟨fault, rfl, hfault⟩
    obtain ⟨reason, rfl⟩ := SinkError.category_eq_transient.mp hfault
    exact ⟨reason, rfl⟩

/-- No request could be built, or it was not served. -/
def Missed (built : Except Http.SendFailure Http.Request) (send : Http.Exchange) : Prop :=
  (∃ failure, built = .error failure) ∨ ∃ r, built = .ok r ∧ Unserved (send r).1.toOption

theorem missed_ok {r : Http.Request} {send : Http.Exchange} : Missed (.ok r) send ↔ Unserved (send r).1.toOption := by
  simp [Missed]

theorem missed_error (failure : Http.SendFailure) (send : Http.Exchange) : Missed (.error failure) send :=
  Or.inl ⟨failure, rfl⟩

/-- What comes of asking a backend, given the request if it could be built: it is sent as the client sends requests. The
backend counts as unavailable, and the message goes back into its queue under the policy to put transient failures
back, if no request could be built or if it was not served. If none could be built, nothing is sent and the outcome is
the same whatever the backend does. -/
structure Asked (built : Except Http.SendFailure Http.Request) (outcome : Http.Exchange → Stored × List Http.Request) :
    Prop where
  sent : ∀ send, (outcome send).2 = built.toOption.elim [] fun r => (send r).2
  unavailable : ∀ send, (∃ reason, (outcome send).1.1 = .error (.unavailable reason)) ↔ Missed built send
  requeued : ∀ send d sink duration j,
    (Pipeline.conclude .requeueTransient d sink duration (outcome send).1.1 j).1 = .reject true ↔ Missed built send
  incurable : ∀ failure, built = .error failure → ∃ result, ∀ send, outcome send = (result, [])

section

variable {built : Except Http.SendFailure Http.Request} {outcome : Http.Exchange → Stored × List Http.Request}

/-- Just what counts as unavailable is put back. -/
theorem requeued_of_unavailable
    (h : ∀ send, (∃ reason, (outcome send).1.1 = .error (.unavailable reason)) ↔ Missed built send)
    (send : Http.Exchange) (d : Delivery) (sink : String) (duration : Nat) (j : Journal) :
    (Pipeline.conclude .requeueTransient d sink duration (outcome send).1.1 j).1 = .reject true ↔
      Missed built send := by
  rw [Pipeline.conclude_eq_requeued, ← h, and_iff_right rfl]

theorem asked_of_built {r : Http.Request}
    (h : ∀ send : Http.Exchange, (outcome send).2 = (send r).2 ∧ Reported (send r).1.toOption (outcome send).1.1) :
    Asked (.ok r) outcome := by
  have hunavailable : ∀ send, (∃ reason, (outcome send).1.1 = .error (.unavailable reason)) ↔
      Missed (.ok r) send := fun send => by rw [(h send).2.unavailable_iff, missed_ok]
  exact ⟨fun send => (h send).1, hunavailable, requeued_of_unavailable hunavailable, nofun⟩

theorem asked_of_unbuilt {failure : Http.SendFailure} {reason : String} {log : List LogRecord}
    (h : ∀ send, outcome send = ((.error (.unavailable reason), log), [])) : Asked (.error failure) outcome := by
  have hunavailable : ∀ send, (∃ reason, (outcome send).1.1 = .error (.unavailable reason)) ↔
      Missed (.error failure) send := fun send => iff_of_true ⟨reason, by rw [h]⟩ (missed_error failure send)
  exact ⟨fun send => by rw [h]; rfl, hunavailable, requeued_of_unavailable hunavailable, fun _ _ => ⟨_, h⟩⟩

end

theorem InfluxEndpoint.asked (read : Http.UrlReading) (e : InfluxEndpoint) {points : List Point} (hne : points ≠ []) :
    Asked (e.request read points) fun send => writeAt ⟨read, send⟩ e points := by
  cases hbuilt : e.request read points with
  | ok r => exact asked_of_built fun send => writeAt_reported hne hbuilt send
  | error failure =>
    have hsame : ∀ send, writeAt ⟨read, send⟩ e points =
        ((.error (.unavailable ("InfluxDB request failed: " ++ failure.message)), []), []) := by
      intro send
      simp only [writeAt, List.isEmpty_eq_false_iff.mpr hne, Bool.false_eq_true, if_false, hbuilt, Http.exchange]
    exact asked_of_unbuilt hsame

theorem ElasticsearchEndpoint.asked (read : Http.UrlReading) (e : ElasticsearchEndpoint) (d : Document) :
    Asked (e.request read d) fun send => indexAt ⟨read, send⟩ e d := by
  cases hbuilt : e.request read d with
  | ok r => exact asked_of_built fun send => indexAt_reported hbuilt send
  | error failure =>
    have hsame : ∀ send, indexAt ⟨read, send⟩ e d =
        ((.error (.unavailable ("Elasticsearch request failed: " ++ failure.message)), []), []) := by
      intro send
      simp only [indexAt, hbuilt, Http.exchange]
    exact asked_of_unbuilt hsame

/-! ## The main result -/

/-- **A backend counts as unavailable also if it is never asked.** However the client reads URLs, follows redirects and
is answered, whether a request can be built is decided by the endpoint alone. If it can, it is sent, and the backend is
unavailable just if it did not serve it; if it cannot, nothing is sent and the backend is unavailable all the same, at
every attempt and whatever it would have answered. -/
theorem unavailable_unbuilt_or_unserved (read : Http.UrlReading) (influx : InfluxEndpoint) (points : List Point)
    (elasticsearch : ElasticsearchEndpoint) (d : Document) :
    (((∃ r, influx.request read points = .ok r) ↔
        (∃ u, read influx.writeUrl = .ok u) ∧ Http.isHeaderValue influx.token = true) ∧
      (points = [] → ∀ send, influx.writeAt ⟨read, send⟩ points = ((.ok (), []), [])) ∧
      (points ≠ [] → Asked (influx.request read points) fun send => influx.writeAt ⟨read, send⟩ points)) ∧
    ((∃ r, elasticsearch.request read d = .ok r) ↔ ∃ u, read elasticsearch.indexUrl = .ok u) ∧
      Asked (elasticsearch.request read d) fun send => elasticsearch.indexAt ⟨read, send⟩ d := by
  refine ⟨⟨InfluxEndpoint.exists_request_iff, ?_, influx.asked read⟩, ElasticsearchEndpoint.exists_request_iff,
    elasticsearch.asked read d⟩
  rintro rfl send
  rfl

/-- A client that is redirected to where it comes from gives up at the tenth redirect. -/
def circling : Http.Exchange := fun r => (.error (.astray r.url), List.replicate 11 r)

/-- A write is answered with the wish for fewer requests, or with redirects only. -/
theorem unavailable_unbuilt_or_unserved_overloaded :
    [Point.empty "clicks" 1] ≠ [] ∧
      (∃ reason, (sampleInflux.writeAt (.plain (overloaded .timeSeries)) [Point.empty "clicks" 1]).1.1 =
        .error (.unavailable reason)) ∧
      (sampleInflux.writeAt ⟨Http.Client.readPlain, circling⟩ [Point.empty "clicks" 1]).2.length = 11 ∧
      ∃ reason, (sampleInflux.writeAt ⟨Http.Client.readPlain, circling⟩ [Point.empty "clicks" 1]).1.1 =
        .error (.unavailable reason) := by
  have hne : [Point.empty "clicks" 1] ≠ [] := List.cons_ne_nil _ _
  obtain ⟨⟨hbuilt, -, hasked⟩, -⟩ := unavailable_unbuilt_or_unserved Http.Client.readPlain sampleInflux
    [Point.empty "clicks" 1] sampleElasticsearch (.ofEvent userCreated)
  obtain ⟨r, hr⟩ := hbuilt.mpr ⟨⟨_, rfl⟩, by decide⟩
  have hoverloaded := ((hasked hne).unavailable (Http.Client.plain (overloaded .timeSeries)).send).mpr
    (Or.inr ⟨r, hr, Or.inr ⟨_, rfl, Or.inr rfl⟩⟩)
  have hcircling := ((hasked hne).unavailable circling).mpr (Or.inr ⟨r, hr, Or.inl rfl⟩)
  refine ⟨hne, hoverloaded, ?_, hcircling⟩
  rw [(hasked hne).sent circling, hr]
  rfl

/-- With a line break behind its token the time series is never asked, and with a URL without a scheme the search
engine is not; both count as unavailable to servers that accept everything, and the message is put back. -/
theorem unavailable_lineBreakInToken :
    InfluxEndpoint.writeAt (.plain fun _ => some ⟨⟨204⟩, some []⟩) { sampleInflux with token := "t\n" }
        [Point.empty "clicks" 1] = ((.error (.unavailable "InfluxDB request failed: builder error"), []), []) ∧
      ElasticsearchEndpoint.indexAt (.plain fun _ => some ⟨⟨201⟩, some []⟩)
        { sampleElasticsearch with url := "elastic" } (.ofEvent userCreated) =
          ((.error (.unavailable "Elasticsearch request failed: builder error"), []), []) ∧
      RejectPolicy.requeueTransient.shouldRequeue
        (.sink (.unavailable "InfluxDB request failed: builder error")) = true :=
  ⟨rfl, rfl, rfl⟩

end EventCourier
