import Runbook.Engine.Call

/-!
# Web calls

* `Webhook.checkUrl`: refuses an address that must not be called.
* `Webhook.run`: makes a call and answers with its reply.
-/

namespace Runbook

/-- How web calls are made. -/
structure WebhookOptions where
  timeout : Binary64 := 30
  blockPrivateNetworks : Bool := true

namespace Webhook

/-- Refuses an address that must not be called. -/
def checkUrl (url : String) : Except Failure Unit :=
  match Url.split url with
  | .error e => .error (.misuse (.url e))
  | .ok u => match u.unsafe? with
    | some e => .error (.fault (.unsafeUrl e))
    | none => .ok ()

/-- The headers of a call: those of the step, after and over the content type. -/
def headersOf (headers : List (String × String)) : List (String × String) :=
  headers.foldl put [("Content-Type", "application/json")]
where
  /-- Sets a header in its place, or at the end. -/
  put (hs : List (String × String)) (h : String × String) : List (String × String) :=
    match hs with
    | [] => [h]
    | g :: rest => if g.1 == h.1 then h :: rest else g :: put rest h

/-- The content of a call: the body as JSON, nothing for null. -/
def contentOf (body : Value) : Except Failure (Option String) :=
  match body with
  | .null => .ok none
  | v => (v.jsonText.map some).mapError fun e => .misuse (.notJson e)

/-- The value of a reply: its JSON, or null if it is empty. -/
def replyOf (r : Http.Response) : Except Failure Value :=
  if !r.isSuccess then .error (.fault (.webhookFailed r.status r.reason))
  else if r.body.isEmpty then .ok .null
  else (Json.read r.body).mapError fun e => .misuse (.json e)

/-- Makes a call. The client's own limit is no longer than the time that is left to the run. The client is
closed however the call ends. -/
def run (options : WebhookOptions) (w : Webhook) : Run Value := do
  if options.blockPrivateNetworks then checkUrl w.url
  let content ← contentOf w.body
  let view ← Run.attempt Token.view
  let timeout := match view.remaining with
    | some left => options.timeout.min left
    | none => options.timeout
  let response ← Run.observe
    (Run.guarded (.http ⟨timeout, w.method, w.url, headersOf w.headers, content⟩))
  Run.call .closeHttp
  replyOf (← response)

end Webhook

end Runbook
