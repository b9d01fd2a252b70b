/-
  EventFlow.Http.Exchange — requests to a server and what comes of them.

  What lies between is a network: it takes a request to a response, or does not deliver
  it. A request with an address that is none, or with a control character in a header,
  never reaches the network.
-/

import EventFlow.Http.Status
import EventFlow.Http.Url
import EventFlow.Json.Reading

namespace EventFlow

inductive Method where
  | get | post
  deriving DecidableEq, Inhabited

def Method.name : Method → String
  | get => "GET"
  | post => "POST"

structure Request where
  method : Method
  url : Url
  headers : List (String × String)
  body : String
  deriving DecidableEq, Inhabited

structure Response where
  status : Nat
  body : String
  deriving DecidableEq, Inhabited

/-- Without a response the request was not delivered. -/
abbrev Network (σ : Type) := Request → σ → Option Response × σ

structure Call where
  method : Method
  address : String
  form : List (String × String) := []
  headers : List (String × String)
  body : Option Json := none

namespace Response

/-- The body as text; a mark of the byte order is no part of it. -/
def text (r : Response) : String :=
  match r.body.toList with
  | c :: rest => if c.toNat = 0xFEFF then String.ofList rest else r.body
  | [] => ""

/-- A response that tells of success, or else its status and text. -/
def checked (r : Response) : Except String Response :=
  if Status.isSuccess r.status then .ok r
  else .error ("HTTP " ++ Status.text r.status ++ ": " ++ r.text)

end Response

namespace Call

/-- A header holds no control characters but tabs. -/
def isHeaderText (s : String) : Bool :=
  s.toList.all fun c => c = '\t' || !Url.isControl c

def bearer (key : String) : String × String := ("authorization", "Bearer " ++ key)

def jsonContent : String × String := ("content-type", "application/json")

/-- The request, or why there is none: its address has to name a host, its headers have to
be text, and its scheme has to be the web's. -/
def request? (call : Call) : Except String Request :=
  match Url.parse? call.address with
  | none => .error "builder error"
  | some url =>
    let refusal := "builder error for url (" ++ url.text ++ ")"
    if url.host.isNone then .error refusal
    else if !call.headers.all fun h => isHeaderText h.2 then .error "builder error"
    else if !url.isWeb then .error refusal
    else .ok {
      method := call.method
      url := if call.form.isEmpty then url else url.withForm call.form
      headers := call.headers ++ (if call.body.isSome then [jsonContent] else [])
      body := (call.body.map Json.compact).getD "" }

/-- Sends the request and waits for a response that tells of success. -/
def send {σ : Type} (call : Call) (net : Network σ) (s : σ) : Except String Response × σ :=
  match call.request? with
  | .error reason => (.error reason, s)
  | .ok request =>
    match net request s with
    | (none, s) => (.error ("error sending request for url (" ++ request.url.text ++ ")"), s)
    | (some response, s) => (response.checked, s)

/-- Reads the body of a response that has to be JSON as it stands. -/
def decode {α : Type} (read : Reader α) (response : Response) : Except String α :=
  (Reader.ofText read response.body).mapError fun _ => "error decoding response body"

end Call
end EventFlow
