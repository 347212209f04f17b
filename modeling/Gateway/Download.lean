import Gateway.Deadline
import Gateway.Http.Field
import Gateway.Http.Method
import Gateway.Http.Target
import Gateway.Url.Basic
/-!
# Downloads

A source image is fetched from its origin by a plain request. Redirects are followed up to a fixed
number; what counts is the response at the end, and of it only a success with its whole body. A
download whose time is used up before it is decided fails as a timeout; everything else that goes
wrong is a failure to download.

The network is a function: it tells how the origin of a reference reacts to a request, and after how
long. What happens at the very end of the time allowed comes too late.
-/

namespace Gateway.Download

/-- How the body of a response ends, and how long after its head. -/
inductive BodyEnd where
  /-- With all the bytes that were announced. -/
  | whole (after : Duration)
  /-- The connection closes too early. -/
  | cutOff (after : Duration)
  /-- The rest never comes. -/
  | stalls
deriving DecidableEq, Repr

/-- How an origin reacts to a request, and how long after it. -/
inductive Reaction where
  /-- There is no way to it. -/
  | unreachable
  /-- It never answers. -/
  | silent
  /-- It closes the connection. -/
  | hangsUp (after : Duration)
  /-- It answers, perhaps with the place to look at instead. -/
  | answers (after : Duration) (status : Http.Status) (location : Option Bytes) (body : Bytes)
      (ending : BodyEnd)

/-- Whether a reaction takes any time; that there is no way to an origin is noticed at once. -/
def Reaction.takesTime : Reaction → Bool
  | unreachable => false
  | _ => true

/-- The reactions of all origins. -/
abbrev Network := Url → Reaction

/-- The network of a machine that is cut off from all others. -/
def sealed : Network := fun _ => .unreachable

/-- A request that an origin has received. -/
structure Sent where
  method : Http.Method
  target : List Char
  userAgent : Bytes
deriving DecidableEq, Repr

/-- What comes of a download: the requests that origins have received, how many nanoseconds it takes,
and the result. -/
structure Report where
  requests : List Sent
  ended : Nat
  result : Except Failure Bytes

/-! ### The client -/

/-- A client that fetches images. -/
structure Client where
  userAgent : Bytes

/-- The complaint about what cannot even be sent. -/
def unsendable : String := "builder error"

/-- The client of a configured name, unless the name is no legal field value. -/
def Client.ofName? (name : String) : Option Client :=
  let bs := Utf8.ofString name
  if Http.isValue bs then some ⟨bs⟩ else none

/-! ### References -/

/-- Whether a reference has one of the two schemes that are fetched. -/
def isHttp (url : Url) : Bool := url.scheme = "http".toList || url.scheme = "https".toList

/-- Whether a request can have a reference as its target. -/
def isTarget (url : Url) : Bool :=
  (Http.Target.parse? (String.ofList (url.withoutLogin.text.takeWhile (· != '#')))).isSome

/-- Whether a reference can be fetched. -/
def isFetchable (url : Url) : Bool := isHttp url && isTarget url

/-! ### Redirects -/

/-- The largest number of redirects that are followed. -/
def redirectLimit : Nat := 10

/-- Whether a status asks to look elsewhere. -/
def isRedirect (s : Http.Status) : Bool := [301, 302, 303, 307, 308].contains s.code

/-- The place that a response asks to look at instead, if it is a reference and a request can have it as
its target. -/
def redirect? (urls : Url.Reader) (url : Url) (status : Http.Status) (location : Option Bytes) :
    Option Url :=
  if isRedirect status then
    ((location.bind Utf8.decode?).bind fun l => (urls.join url l).toOption).filter isTarget
  else none

/-! ### Requests -/

/-- The message about a step of the download that failed. -/
def complaint (source cause : String) (url? : Option Url) : String :=
  let place := match url? with
    | some url => " for url (" ++ String.ofList url.withoutLogin.text ++ ")"
    | none => ""
  source ++ ": " ++ cause ++ place

/-- The failure of a download before any body. -/
def cannotDownload (source cause : String) (url? : Option Url) : Failure :=
  .download ("Can't download " ++ complaint source cause url?)

/-- The failure of a download in the body. -/
def cannotRead (source cause : String) : Failure :=
  .download ("Can't read " ++ complaint source cause none)

/-- The complaint about a request that gets no response. -/
def noResponse : String := "error sending request"

/-- The target of a request for a reference. -/
def targetOf (url : Url) : List Char :=
  (match url.path.text true with
    | [] => ['/']
    | p => p) ++ Url.marked '?' url.query

/-- The end of a download whose time is used up. -/
def giveUp (requests : List Sent) (budget : Duration) : Report :=
  ⟨requests, budget.nanos, .error (.timeout budget)⟩

/-- The end of a download at an instant, if there is still time then. -/
def settle (requests : List Sent) (budget : Duration) (now : Nat) (result : Except Failure Bytes) :
    Report :=
  if now < budget.nanos then ⟨requests, now, result⟩ else giveUp requests budget

/-- The end of a download with a response that does not lead elsewhere. -/
def settleResponse (sent : Sent) (source : String) (budget : Duration) (now : Nat)
    (status : Http.Status) (body : Bytes) (ending : BodyEnd) : Report :=
  if !status.isSuccess then
    settle [sent] budget now (.error (cannotDownload source ("status " ++ status.text) none))
  else match ending with
    | .whole after => settle [sent] budget (now + after.nanos) (.ok body)
    | .cutOff after =>
      settle [sent] budget (now + after.nanos)
        (.error (cannotRead source "error decoding response body"))
    | .stalls => giveUp [sent] budget

/-- A request for a reference at an instant and what follows from it, with some redirects left. -/
def follow (urls : Url.Reader) (network : Network) (c : Client) (source : String)
    (budget : Duration) : Nat → Nat → Url → Report
  | left, now, url =>
    let sent : Sent := ⟨.get, targetOf url, c.userAgent⟩
    match network url with
    | .unreachable => ⟨[], now, .error (cannotDownload source noResponse (some url))⟩
    | .silent => giveUp [sent] budget
    | .hangsUp after =>
      settle [sent] budget (now + after.nanos)
        (.error (cannotDownload source noResponse (some url)))
    | .answers after status location body ending =>
      let now := now + after.nanos
      match redirect? urls url status location with
      | none => settleResponse sent source budget now status body ending
      | some next =>
        match left with
        | 0 =>
          settle [sent] budget now
            (.error (cannotDownload source "error following redirect" (some url)))
        | left + 1 =>
          if !isHttp next then
            settle [sent] budget now (.error (cannotDownload source unsendable (some next)))
          else if now < budget.nanos then
            let rest := follow urls network c source budget left now next
            ⟨sent :: rest.requests, rest.ended, rest.result⟩
          else giveUp [sent] budget

/-- Fetches a source with some time left. -/
def fetch (network : Network) (c : Client) (source : String) (budget : Duration)
    (urls : Url.Reader := Url.reader) : Report :=
  match urls.parse source.toList with
  | .error _ => ⟨[], 0, .error (cannotDownload source unsendable none)⟩
  | .ok url =>
    if !isFetchable url then ⟨[], 0, .error (cannotDownload source unsendable (some url))⟩
    else if budget.nanos = 0 ∧ (network url).takesTime then giveUp [] budget
    else follow urls network c source budget redirectLimit 0 url

end Gateway.Download
