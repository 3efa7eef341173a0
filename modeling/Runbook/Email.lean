import Runbook.Text.Class

/-!
# Email messages

* `Addressees`: whom a message goes to, one text with commas or a list.
* `Email.recipients`: the addresses that a message is handed over for.
-/

namespace Runbook

/-- Whom a message goes to. -/
inductive Addressees where
  | line (text : String)
  | several (addresses : List String)
  deriving DecidableEq, Repr

/-- The addresses: those of a line stand between commas, without the blanks around them and without
empty ones; a list is taken as it is. -/
def Addressees.addresses : Addressees → List String
  | line text => ((Text.splitAt ',' text).map Text.trim).filter fun a => !a.isEmpty
  | several addresses => addresses

/-- The sender of email where none is set. -/
def standardSender : String := "noreply@pls-scm.com"

/-- A message. -/
structure Email where
  sender : String
  addressees : Addressees
  subject : String
  html : String
  deriving DecidableEq, Repr

/-- The addresses that a message is handed over for. -/
def Email.recipients (m : Email) : List String := m.addressees.addresses

end Runbook
