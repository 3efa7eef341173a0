import Runbook.Value

/-!
# Notifications

* `Channel`, `Severity`, `Priority`: the closed vocabularies, with their names.
* `Recipient`: a user of a tenant, and the channels the user is to be reached by.
* `Payload`: what a notification says.
-/

namespace Runbook

/-- A way to reach a user. -/
inductive Channel where
  | inApp
  | email
  | push
  deriving DecidableEq, Repr

namespace Channel

def all : List Channel := [inApp, email, push]

/-- The name of a channel. -/
def name : Channel → String
  | inApp => "in_app"
  | email => "email"
  | push => "push"

/-- The channels of a recipient for whom none are named. -/
def standard : List Channel := [inApp, email]

end Channel

/-- The tone of a notification. -/
inductive Severity where
  | info
  | success
  | warning
  | error
  deriving DecidableEq, Repr

namespace Severity

def all : List Severity := [info, success, warning, error]

/-- The name of a tone. -/
def name : Severity → String
  | info => "info"
  | success => "success"
  | warning => "warning"
  | error => "error"

end Severity

/-- How pressing a notification is. -/
inductive Priority where
  | low
  | medium
  | high
  | urgent
  deriving DecidableEq, Repr

namespace Priority

def all : List Priority := [low, medium, high, urgent]

/-- The name of a priority. -/
def name : Priority → String
  | low => "low"
  | medium => "medium"
  | high => "high"
  | urgent => "urgent"

end Priority

/-- A user who is to be notified. -/
structure Recipient where
  user : String
  tenant : String
  channels : List Channel := Channel.standard
  deriving DecidableEq, Repr

/-- The category of a notification that names none. -/
def standardCategory : String := "workflow"

/-- What a notification says. -/
structure Payload where
  title : String
  message : String
  severity : Severity := .info
  category : String := standardCategory
  priority : Priority := .medium
  metadata : Entries := []
  actionUrl : Option String := none
  deriving Repr

end Runbook
