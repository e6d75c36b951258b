import EventCourier.Http.Status
import EventCourier.Http.Url
import EventCourier.Text.Base64

/-!
# Requests and responses

A request is built from a text for its URL and from headers, each of which may make that impossible; a
request that was built may be sent and get no answer. `SendFailure` tells these apart.

What a client does for itself is given (`Client`): how it reads URLs, and which requests it sends until it has the
answer to one, since it may follow redirects. `Client.once` sends each request once, and `Client.plain` reads the URLs
of hosts whose names are in ASCII.
-/

namespace EventCourier.Http

/-- What a request asks for. A client that is redirected may get what it would have posted to. -/
inductive Method where
  | post
  | get
deriving DecidableEq, Repr

/-- A request with its body, which is empty if there is none. -/
structure Request where
  method : Method
  url : Url
  headers : List (String × String)
  body : String
deriving DecidableEq, Repr

/-- An answer; its body is missing if it broke off. -/
structure Response where
  status : Status
  body : Option (List UInt8)
deriving DecidableEq, Repr

/-- The body as text, empty if it broke off. -/
def Response.text (r : Response) : String := (r.body.map Utf8.lossy).getD ""

/-- Why there is no answer: no request could be built, not for this URL, nobody answered it, or the answers to it only
led elsewhere. -/
inductive SendFailure where
  | malformed
  | unusable (url : String)
  | unanswered (url : Url)
  | astray (url : Url)
deriving DecidableEq, Repr

/-- The failure in words. -/
def SendFailure.message : SendFailure → String
  | .malformed => "builder error"
  | .unusable url => "builder error for url (" ++ url ++ ")"
  | .unanswered url => "error sending request for url (" ++ url.text ++ ")"
  | .astray url => "error following redirect for url (" ++ url.text ++ ")"

/-- Header values hold no control characters but tabs. -/
def isHeaderValue (s : String) : Bool := s.toList.all fun c => c == '\t' || (32 ≤ c.toNat && c.toNat != 127)

/-- The header that carries credentials. -/
def basicAuthorization (user : String) (password : Option String) : String × String :=
  ("Authorization", "Basic " ++ String.ofList (Base64.encode (Utf8.encode (user ++ ":" ++ password.getD ""))))

/-- How a client reads the URL that a text stands for, if a request can be sent to it. -/
abbrev UrlReading := String → Except UrlFault Url

namespace Request

/-- A request that posts a body to a URL. Credentials in the URL become a header. -/
def post (read : UrlReading) (url : String) (headers : List (String × String)) (body : String) :
    Except SendFailure Request :=
  match read url with
  | .error .malformed => .error .malformed
  | .error (.unusable text) => .error (if headers.all (isHeaderValue ·.2) then .unusable text else .malformed)
  | .ok u =>
    if headers.all (isHeaderValue ·.2) then
      .ok ⟨.post, u, (u.credentials.map fun c => basicAuthorization c.1 c.2).toList ++ headers, body⟩
    else .error .malformed

/-- What comes of a request, given the answer to it, if there is one. -/
def send (r : Request) (answer : Option Response) : Except SendFailure Response :=
  match answer with
  | some a => .ok a
  | none => .error (.unanswered r.url)

end Request

/-- How a server takes requests: it answers them or it does not. -/
abbrev Server := Request → Option Response

/-- What comes of a request that was built: the answer it ends with or why there is none, and all requests that were
sent on the way. A client that follows redirects may send several. -/
abbrev Exchange := Request → Except SendFailure Response × List Request

/-- A client: how it reads URLs, and what comes of the requests that it is given. -/
structure Client where
  read : UrlReading
  send : Exchange

/-- Sends a request, if one could be built: what comes of it, and the requests that were sent. -/
def exchange (send : Exchange) : Except SendFailure Request → Except SendFailure Response × List Request
  | .ok r => send r
  | .error failure => (.error failure, [])

namespace Client

/-- The client that sends each request once to a server, and follows no redirect. -/
def once (read : UrlReading) (server : Server) : Client := ⟨read, fun r => (r.send (server r), [r])⟩

/-- The longest URL that fits into a request. -/
def maxUrlLength : Nat := 65534

/-- Characters that hosts of URLs may hold, but not those of requests. -/
def unfit : List Char := ['"', '\x60', '\x7b', '\x7d']

/-- True of URLs that fit into a request. -/
def fits (u : Url) : Bool := u.text.length ≤ maxUrlLength && !u.host.toList.any unfit.contains

/-- The URL that a text stands for, if the name of its host is in ASCII. -/
def readPlain : UrlReading := fun s =>
  match Url.parse Url.asciiName s with
  | .error fault => .error fault
  | .ok u => if fits u then .ok u else .error (.unusable u.text)

/-- The client that sends requests once to hosts whose names are in ASCII. -/
def plain (server : Server) : Client := once readPlain server

end Client
end EventCourier.Http
