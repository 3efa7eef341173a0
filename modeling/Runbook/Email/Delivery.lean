import Runbook.Email
import Runbook.Failure
import Runbook.Settings

/-!
# Delivery of email

The dialogue with a mail server: connect, switch to an encrypted connection unless it is one from the start, log
in if there are a user and a password, hand over the message, and close.

* `MailCommand`: what is said to the server.
* `MailServer.script`: what is said between connecting and closing.
* `MailServer.deliver`: the dialogue, cut short by the first command that fails.
-/

namespace Runbook

/-- A message as it is handed over: its headers and its body. -/
structure MailContent where
  subject : String
  sender : String
  addressLine : String
  html : String
  deriving DecidableEq, Repr

/-- Whether a text is made of ASCII characters only. -/
def isAsciiText (s : String) : Bool := s.toList.all fun c => c.toNat < 128

/-- Whether the body is made of ASCII characters only. -/
def MailContent.isPlain (m : MailContent) : Bool := isAsciiText m.html

/-- What is said to a mail server. -/
inductive MailCommand where
  | connect (host : String) (port : Int)
  | startTls
  | login (user password : String)
  | send (sender : String) (recipients : List String) (content : MailContent)
  | close
  deriving DecidableEq, Repr

/-- Line ends of any kind as line feeds. -/
def unixLines : List Char → List Char
  | '\r' :: '\n' :: rest => '\n' :: unixLines rest
  | '\r' :: rest => '\n' :: unixLines rest
  | c :: rest => c :: unixLines rest
  | [] => []

/-- The message as it is handed over: the recipients in one header, with commas between them. A body of ASCII
characters is sent line by line, any other as it is. -/
def Email.content (m : Email) : MailContent where
  subject := m.subject
  sender := m.sender
  addressLine := ", ".intercalate m.recipients
  html := if isAsciiText m.html then String.ofList (unixLines m.html.toList) else m.html

namespace MailServer

/-- What is said to the server once it is connected. -/
def script (s : MailServer) (m : Email) : List MailCommand :=
  (if s.secure then [] else [.startTls]) ++
  (if s.user.isEmpty || s.password.isEmpty then [] else [.login s.user s.password]) ++
  [.send m.sender m.recipients m.content]

/-- The commands up to the first that fails, and its failure. -/
def say (refuses : MailCommand → Option Failure) : List MailCommand → List MailCommand × Except Failure Unit
  | [] => ([], .ok ())
  | c :: rest =>
    match refuses c with
    | some f => ([c], .error f)
    | none =>
      let (said, result) := say refuses rest
      (c :: said, result)

/-- The dialogue that delivers a message, with what has become of it. A connection that was made is closed
however the dialogue ends. -/
def deliver (s : MailServer) (refuses : MailCommand → Option Failure) (m : Email) :
    List MailCommand × Except Failure Unit :=
  let connect := MailCommand.connect s.host s.port
  match refuses connect with
  | some f => ([connect], .error f)
  | none =>
    let (said, result) := say refuses (s.script m)
    (connect :: said ++ [.close], result)

end MailServer

end Runbook
