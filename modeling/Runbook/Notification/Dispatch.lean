import Runbook.Email
import Runbook.Notification.Html
import Runbook.Work

/-!
# Dispatch of notifications

A notification goes to its recipients one after the other. Each first gets it into the inbox, if there is one, and
then by each of the channels that the recipient is to be reached by. A channel without its collaborators is
skipped; a failure ends the dispatch.

* `Dispatcher`: the collaborators; `Dispatcher.channels`: the channels that they make up.
* `Dispatcher.dispatch`: sends a notification to a list of recipients.
-/

namespace Runbook

/-- The collaborators that deliver notifications. Email needs a transport and someone who knows the addresses. -/
structure Dispatcher (World : Type) where
  sender : String := standardSender
  inbox : Option (Recipient → Payload → Job World Unit) := none
  publisher : Option (Recipient → Payload → Job World Unit) := none
  transport : Option (Email → Job World Unit) := none
  addresses : Option (Recipient → Job World (Option String)) := none

namespace Dispatcher

variable {World : Type} (d : Dispatcher World)

/-- The channels that can be used. -/
def channels : List Channel :=
  (if d.publisher.isSome then [.inApp] else []) ++
  (if d.transport.isSome && d.addresses.isSome then [.email] else [])

/-- The email that carries a notification to an address. -/
def emailTo (address : String) (payload : Payload) : Email :=
  ⟨d.sender, .line address, payload.title, payload.html⟩

/-- Delivers a notification to a recipient by one channel. A recipient without an address gets no email. -/
def deliver (recipient : Recipient) (payload : Payload) (channel : Channel) : Job World Unit :=
  match channel, d.publisher, d.transport, d.addresses with
  | .inApp, some publish, _, _ => publish recipient payload
  | .email, _, some send, some addressOf => do
    match ← addressOf recipient with
    | some address => if address.isEmpty then return () else send (d.emailTo address payload)
    | none => return ()
  | _, _, _, _ => return ()

/-- Delivers a notification by several channels. -/
def deliverAll (recipient : Recipient) (payload : Payload) : List Channel → Job World Unit
  | [] => return ()
  | channel :: rest => do
    d.deliver recipient payload channel
    deliverAll recipient payload rest

/-- Notifies one recipient. -/
def notify (recipient : Recipient) (payload : Payload) : Job World Unit := do
  match d.inbox with
  | some record => record recipient payload
  | none => pure ()
  d.deliverAll recipient payload recipient.channels

/-- Notifies the recipients in order. -/
def dispatch (recipients : List Recipient) (payload : Payload) : Job World Unit :=
  match recipients with
  | [] => return ()
  | recipient :: rest => do
    d.notify recipient payload
    dispatch rest payload

end Dispatcher

end Runbook
