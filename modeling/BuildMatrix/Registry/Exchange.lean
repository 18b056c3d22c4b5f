import BuildMatrix.Registry.Payload
import BuildMatrix.Registry.StatusCode
import BuildMatrix.Registry.Url

/-!
# Exchanges with a registry

The registry is asked over HTTP, and asked again while it fails in a way that may pass: it limits
the rate, is at fault, drops the connection or stays silent. Any other reply settles the exchange.
The replies are a function of the attempt's number, so an exchange is a value: its result and the
requests it sent.
-/

namespace BuildMatrix.Registry

/-- What comes of one attempt. -/
inductive Reply where
  /-- The server answered. There is no body when it breaks off or does not come in time. -/
  | answered (status : Nat) (body : Option Bytes)
  /-- The connection failed or was closed without an answer. -/
  | disconnected
  /-- No answer came in time. -/
  | timedOut

/-- Causes for which a registry yields no release cycles. -/
inductive RegistryError where
  /-- The request was not answered with success. -/
  | network (detail : String)
  /-- The registry asks for fewer requests. -/
  | rateLimited
  /-- The answer cannot be read. -/
  | invalidResponse (detail : String)
  /-- No release cycle of the answer is usable. -/
  | emptyResponse
  /-- No answer came in time. -/
  | timeout
deriving DecidableEq

/-- The name of the registry in messages. -/
def name : String := "endoflife.date"

/-- Where the registry is asked unless told otherwise. -/
def defaultUrl : String := "https://endoflife.date/api/python.json"

/-- The user-facing text of a registry failure. -/
def RegistryError.message : RegistryError → String
  | .network detail => s!"failed to fetch lifecycle data from {name}: {detail}"
  | .rateLimited => s!"rate limit exceeded for {name}"
  | .invalidResponse detail => s!"invalid response from {name}: {detail}"
  | .emptyResponse => s!"{name} returned no usable release cycles"
  | .timeout => s!"timeout while fetching lifecycle data from {name}"

/-- A request that was sent: what it names. -/
structure Request where
  /-- The path and query. -/
  target : String
deriving DecidableEq

/-- The first line of a request. -/
def Request.line (request : Request) : String :=
  s!"GET {request.target} HTTP/1.1"

/-- What a reply means for the exchange. -/
inductive Verdict where
  /-- The exchange is over. -/
  | settled (result : Except RegistryError (Option Bytes))
  /-- Another attempt may fare better. -/
  | transient (failure : RegistryError)

/-- Judge one reply. -/
def judge (url : Url) : Reply → Verdict
  | .answered status body =>
    let refusal := RegistryError.network s!"HTTP {StatusCode.describe status}"
    if StatusCode.isRateLimit status then .transient .rateLimited
    else if StatusCode.isServerError status then .transient refusal
    else if StatusCode.isSuccess status then .settled (.ok body)
    else .settled (.error refusal)
  | .disconnected => .transient (.network s!"error sending request for url ({url.render})")
  | .timedOut => .transient .timeout

/-- What an exchange without any attempt would report. -/
def unattempted : RegistryError := .network "unknown error"

/-- The result of an exchange that may still make some attempts, together with the number of
requests at its end. It has sent `sent` requests so far, and `last` is how the last one failed. -/
def attempts (url : Url) (replies : Nat → Reply) (last : Option RegistryError) (sent : Nat) :
    (remaining : Nat) → Except RegistryError (Option Bytes) × Nat
  | 0 => (.error (last.getD unattempted), sent)
  | remaining + 1 =>
    match judge url (replies sent) with
    | .settled result => (result, sent + 1)
    | .transient failure => attempts url replies (some failure) (sent + 1) remaining

/-- The result of an exchange that has sent `sent` requests and may send one more and `retries`
after that, together with the number of requests at its end. -/
def attempt (url : Url) (replies : Nat → Reply) (sent retries : Nat) :
    Except RegistryError (Option Bytes) × Nat :=
  attempts url replies none sent (retries + 1)

/-- What asking for release cycles yields and sends. -/
structure Consultation where
  /-- The cycles, or why there are none. -/
  answer : Except RegistryError (List ReleaseCycle)
  /-- The requests sent, in order. -/
  requests : List Request

/-- The release cycles of an answer's body. One that did not come whole is as unreadable as one that
is no payload, and neither leads to another attempt. -/
def read (url : Url) (body : Option Bytes) : Except RegistryError (List ReleaseCycle) :=
  match body.bind cycles? with
  | some cycles => .ok cycles
  | none =>
    .error (.invalidResponse
      s!"failed to parse JSON: error decoding response body for url ({url.render})")

/-- Ask for release cycles over a URL, if there is one. Nothing is sent over none and over one that is
not of the web. -/
def consult (url : Option Url) (retries : Nat) (replies : Nat → Reply) : Consultation :=
  match url with
  | none => ⟨.error (.network "builder error"), []⟩
  | some url =>
    if url.isWeb then
      let (result, sent) := attempt url replies 0 retries
      ⟨result.bind (read url), List.replicate sent ⟨url.target⟩⟩
    else ⟨.error (.network s!"builder error for url ({url.render})"), []⟩

/-- Something that can be asked for release cycles. -/
inductive Source where
  /-- It always fails. -/
  | failing (failure : RegistryError)
  /-- It always has these cycles. -/
  | listing (cycles : List ReleaseCycle)
  /-- It is asked over a URL, unless its address is none. -/
  | web (url : Option Url) (retries : Nat) (replies : Nat → Reply)

/-- Ask a source. -/
def Source.consult : Source → Consultation
  | .failing failure => ⟨.error failure, []⟩
  | .listing cycles => ⟨.ok cycles, []⟩
  | .web url retries replies => Registry.consult url retries replies

end BuildMatrix.Registry
