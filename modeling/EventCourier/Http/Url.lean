import EventCourier.Http.Host

/-!
# URLs

A URL is read the way browsers read it: slashes in either direction and in any number may stand in front of
the host, path segments `.` and `..` are resolved, also when their dots are escaped, and characters that may
not stand where they stand are escaped. Only schemes of the web are read in full; of others the text is
kept, to be shown.
-/

namespace EventCourier

/-- A URL of the web. Credentials in front of the host are kept apart from its text. -/
structure Url where
  scheme : String
  credentials : Option (String × Option String)
  host : String
  port : Option Nat
  path : List String
  query : Option String
  fragment : Option String
deriving DecidableEq, Repr

/-- Why no request can be sent to what a text stands for: it is malformed, or a URL, as normalised, that is of another
kind or does not fit into a request. -/
inductive UrlFault where
  | malformed
  | unusable (text : String)
deriving DecidableEq, Repr

namespace Url

/-! ## Escapes -/

/-- Which ASCII characters are escaped in each part, besides controls. All others than ASCII are. -/
structure EscapeSet where
  special : List Char

/-- In paths without structure. -/
def controls : EscapeSet := ⟨[]⟩

/-- In fragments. -/
def fragmentSet : EscapeSet := ⟨[' ', '"', '<', '>', '\x60']⟩

/-- In path segments. -/
def pathSet : EscapeSet := ⟨[' ', '"', '<', '>', '\x60', '#', '?', '\x7b', '\x7d']⟩

/-- In queries. -/
def querySet : EscapeSet := ⟨[' ', '"', '#', '<', '>']⟩

/-- In queries of the web. -/
def webQuerySet : EscapeSet := ⟨querySet.special ++ ['\'']⟩

/-- A character as it stands in a part. -/
def escape (set : EscapeSet) (c : Char) : List Char :=
  if c.toNat < 32 ∨ 127 ≤ c.toNat ∨ c ∈ set.special then
    (String.utf8EncodeChar c).flatMap Percent.escapeByte
  else [c]

/-- A part with its characters as they stand in it. -/
def escaped (set : EscapeSet) (cs : List Char) : String := String.ofList (cs.flatMap (escape set))

/-! ## Paths -/

/-- The dots of a segment that may be written as escapes. -/
def dots : List Char → List Char
  | '%' :: '2' :: c :: cs => if c = 'e' ∨ c = 'E' then '.' :: dots cs else '%' :: '2' :: c :: cs
  | c :: cs => c :: dots cs
  | [] => []

/-- Adds segments to a path, the last of which ends it: a single dot stands for no segment, and a double dot
takes the segment before away. -/
def resolveSegments (path : List String) : List (List Char) → List String
  | [] => path
  | s :: rest =>
    let last := if rest.isEmpty then [""] else []
    if dots s = ['.', '.'] then resolveSegments (path.dropLast ++ last) rest
    else if dots s = ['.'] then resolveSegments (path ++ last) rest
    else resolveSegments (path ++ [escaped pathSet s]) rest

/-! ## Reading -/

/-- A text without spaces and controls around it and without line breaks and tabs. -/
def strip (cs : List Char) : List Char :=
  let inner (cs : List Char) : List Char := (cs.dropWhile fun c => c.toNat ≤ 32).reverse
  (inner (inner cs)).filter fun c => c ≠ '\t' ∧ c ≠ '\n' ∧ c ≠ '\r'

/-- A scheme and what follows its colon. -/
def scheme? (cs : List Char) : Option (String × List Char) :=
  let name := cs.takeWhile fun c => c.isAlphanum || c == '+' || c == '-' || c == '.'
  match name, cs.drop name.length with
  | first :: _, ':' :: rest =>
    if first.isAlpha then some (String.ofList (name.map Char.toLower), rest) else none
  | _, _ => none

/-- The schemes of the web and their ports. -/
def webPort? (scheme : String) : Option Nat :=
  match scheme with
  | "http" | "ws" => some 80
  | "https" | "wss" => some 443
  | "ftp" => some 21
  | _ => none

/-- What stands in front of the last `@`, and what behind it. -/
def splitCredentials (authority : List Char) : Option (List Char) × List Char :=
  let host := (authority.reverse.takeWhile (· ≠ '@')).reverse
  if host.length < authority.length then (some (authority.take (authority.length - host.length - 1)), host)
  else (none, host)

/-- A user name and a password around the first colon, as far as they are texts. -/
def readCredentials (cs : List Char) : Option (String × Option String) := do
  let front := cs.takeWhile (· ≠ ':')
  let user ← Utf8.text? (Percent.decode front)
  let password := match cs.drop front.length with
    | _ :: rest => if rest.isEmpty then none else Utf8.text? (Percent.decode rest)
    | [] => none
  if user.isEmpty ∧ password.isNone then none else some (user, password)

/-- A port, unless it is the one that the scheme has anyway. -/
def port? (scheme : String) (cs : List Char) : Except UrlFault (Option Nat) :=
  match cs with
  | [] => .ok none
  | _ =>
    if cs.all Char.isDigit then
      match radixValue? 10 cs with
      | some n =>
        if 0x10000 ≤ n then .error .malformed
        else .ok (if webPort? scheme = some n then none else some n)
      | none => .error .malformed
    else .error .malformed

/-- A part up to a character, and what follows that character, if it is there. -/
def cut (separator : Char) (cs : List Char) : List Char × Option (List Char) :=
  let front := cs.takeWhile (· ≠ separator)
  (front, if front.length < cs.length then some (cs.drop (front.length + 1)) else none)

/-- A host, and what follows the first colon behind it; the colons in brackets are part of it. -/
def cutPort (inside : Bool) : List Char → List Char × Option (List Char)
  | [] => ([], none)
  | c :: cs =>
    if c = ':' ∧ ¬inside then ([], some cs)
    else
      let (host, port) := cutPort (c == '[' || inside && c != ']') cs
      (c :: host, port)

/-- True of slashes in either direction. -/
def isSlash (c : Char) : Bool := c == '/' || c == '\\'

/-- A URL of the web behind its scheme. -/
def parseWeb (names : NameReading) (scheme : String) (cs : List Char) : Except UrlFault Url := do
  let (cs, fragment) := cut '#' (cs.dropWhile isSlash)
  let (cs, query) := cut '?' cs
  let authority := cs.takeWhile (!isSlash ·)
  let (user, hostPort) := splitCredentials authority
  let (host, portText) := cutPort false hostPort
  let port ← port? scheme (portText.getD [])
  match host? names host with
  | none => .error .malformed
  | some host =>
    return {
      scheme := scheme
      credentials := user.bind readCredentials
      host := host
      port := port
      path := resolveSegments [] (splitAtAll isSlash ((cs.drop authority.length).drop 1))
      query := query.map (escaped webQuerySet)
      fragment := fragment.map (escaped fragmentSet) }

/-- A text behind a mark, if it is there. -/
def marked (mark : String) : Option String → String
  | some s => mark ++ s
  | none => ""

/-- The URL as one text. -/
def text (u : Url) : String :=
  u.scheme ++ "://" ++ u.host ++ marked ":" (u.port.map toString) ++ "/" ++ "/".intercalate u.path ++
    marked "?" u.query ++ marked "#" u.fragment

/-- Another URL than one of the web, normalised. -/
def otherText (scheme : String) (cs : List Char) : String :=
  let (cs, fragment) := cut '#' cs
  let (cs, query) := cut '?' cs
  let path (cs : List Char) : String :=
    match cs with
    | '/' :: rest => "/" ++ "/".intercalate (resolveSegments [] (splitAtAll (· == '/') rest))
    | _ => escaped controls cs
  let body := match cs with
    | '/' :: '/' :: rest =>
      let authority := rest.takeWhile (· ≠ '/')
      "//" ++ escaped controls authority ++ path (rest.drop authority.length)
    | _ => path cs
  scheme ++ ":" ++ body ++ marked "?" (query.map (escaped querySet)) ++
    marked "#" (fragment.map (escaped fragmentSet))

/-- The URL that a text stands for, if a request can be sent to it. -/
def parse (names : NameReading) (s : String) : Except UrlFault Url :=
  match scheme? (strip s.toList) with
  | none => .error .malformed
  | some (scheme, rest) =>
    if (webPort? scheme).isSome then
      match parseWeb names scheme rest with
      | .error e => .error e
      | .ok u => if scheme = "http" ∨ scheme = "https" then .ok u else .error (.unusable u.text)
    else .error (.unusable (otherText scheme rest))

end Url
end EventCourier
