import Runbook.Notification

/-!
# Notifications as HTML

* `Html.escape`: a text with the characters that have a meaning in HTML written as references.
* `Payload.html`: the body of the email that carries a notification.
-/

namespace Runbook

namespace Html

/-- The reference of a character that has a meaning in HTML, the character itself otherwise. -/
def escapeChar (c : Char) : List Char :=
  if c = '&' then "&amp;".toList
  else if c = '<' then "&lt;".toList
  else if c = '>' then "&gt;".toList
  else if c = '"' then "&quot;".toList
  else if c = '\'' then "&#x27;".toList
  else [c]

/-- A text with the characters that have a meaning in HTML written as references. -/
def escapeChars (cs : List Char) : List Char := cs.flatMap escapeChar

def escape (s : String) : String := String.ofList (escapeChars s.toList)

/-- Line ends as breaks. -/
def breakLines (cs : List Char) : List Char :=
  cs.flatMap fun c => if c = '\n' then "<br>".toList else [c]

/-- A link to an address. -/
def link (url : String) : String := "<p><a href=\"" ++ escape url ++ "\">Open</a></p>"

end Html

/-- The body of the email that carries a notification: the title, the message with its line ends kept, and
a link if there is an address to open. -/
def Payload.html (p : Payload) : String :=
  let body := String.ofList (Html.breakLines (Html.escapeChars p.message.toList))
  let link := match p.actionUrl with
    | some url => if url.isEmpty then "" else Html.link url
    | none => ""
  "\n    <div style=\"font-family: sans-serif; max-width: 600px; margin: 0 auto;\">" ++
  "\n        <h2 style=\"color: #333;\">" ++ Html.escape p.title ++ "</h2>" ++
  "\n        <div style=\"color: #555; line-height: 1.6;\">" ++ body ++ "</div>" ++
  "\n        " ++ link ++
  "\n    </div>\n    "

end Runbook
