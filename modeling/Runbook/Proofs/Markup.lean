import Mathlib.Data.List.Basic
import Runbook.Notification.Html

/-!
# The markup of notifications

The body of an email is a template into which a notification puts its title, its message and the address of its link. None of the
three can add a tag, leave one open or end the attribute that it stands in, and none of them is lost: what differs in a notification
differs in its body.

* `Html.scan`, `Html.HasTags`: the tags of a text, and that no other character of it marks one.
* `Html.IsCode`: texts for characters, from which the characters can be told one after the other.
* `Html.Template.tags`: the tags of the template.
* **`Payload.html_is_the_template`**: the tags of a body are those of the template, and the body tells what was put into it.
-/

namespace Runbook

namespace Html

/-! ## Tags -/

/-- Reads the tags of a text; `tag?` is what has been read of a tag that was open before it. These are the tags that end in the text,
and what has been read of a tag that is open after it. -/
def scan : (tag? : Option (List Char)) → List Char → List (List Char) × Option (List Char)
  | tag?, [] => ([], tag?)
  | none, c :: cs => scan (if c = '<' then some [] else none) cs
  | some tag, c :: cs =>
    if c = '>' then (tag :: (scan none cs).1, (scan none cs).2) else scan (some (tag ++ [c])) cs

variable {tag? : Option (List Char)} {tag cs ds : List Char} {c : Char}

theorem scan_append : scan tag? (cs ++ ds) =
    ((scan tag? cs).1 ++ (scan (scan tag? cs).2 ds).1, (scan (scan tag? cs).2 ds).2) := by
  induction cs generalizing tag? with
  | nil => rfl
  | cons c cs ih =>
    cases tag? with
    | none => exact ih
    | some tag =>
      rw [List.cons_append, scan, scan]
      split
      · rw [ih, List.cons_append]
      · exact ih

/-- Outside of tags a text without `<` is none. -/
theorem scan_outside (h : '<' ∉ cs) : scan none cs = ([], none) := by
  induction cs with
  | nil => rfl
  | cons c cs ih =>
    obtain ⟨hc, hcs⟩ := not_or.mp (h ∘ List.mem_cons.mpr)
    rw [scan, if_neg (Ne.symm hc), ih hcs]

/-- Inside of a tag a text without `>` belongs to it. -/
theorem scan_inside (h : '>' ∉ cs) : scan (some tag) cs = ([], some (tag ++ cs)) := by
  induction cs generalizing tag with
  | nil => rw [scan, List.append_nil]
  | cons c cs ih =>
    obtain ⟨hc, hcs⟩ := not_or.mp (h ∘ List.mem_cons.mpr)
    rw [scan, if_neg (Ne.symm hc), ih hcs, List.append_assoc, List.singleton_append]

/-- A text that has these tags, all of them complete, and neither a `<` nor a `>` but theirs. -/
def HasTags (cs : List Char) (tags : List (List Char)) : Prop :=
  scan none cs = (tags, none) ∧ cs.count '<' = tags.length ∧ cs.count '>' = tags.length

instance (cs : List Char) (tags : List (List Char)) : Decidable (HasTags cs tags) := inferInstanceAs (Decidable (_ ∧ _ ∧ _))

theorem HasTags.nil : HasTags [] [] := ⟨rfl, rfl, rfl⟩

theorem HasTags.append {tags tags' : List (List Char)} (h : HasTags cs tags) (h' : HasTags ds tags') :
    HasTags (cs ++ ds) (tags ++ tags') := by
  obtain ⟨hscan, hopen, hclose⟩ := h
  obtain ⟨hscan', hopen', hclose'⟩ := h'
  refine ⟨?_, ?_, ?_⟩
  · rw [scan_append, hscan, hscan']
  · rw [List.count_append, List.length_append, hopen, hopen']
  · rw [List.count_append, List.length_append, hclose, hclose']

/-! ## Escaped texts -/

/-- The characters that mark tags and the values of attributes. -/
def marks : List Char := ['<', '>', '"', '\'']

/-- No such character is left where a text is escaped. -/
theorem notMem_escapeChar (hc : c ∈ marks) (d : Char) : c ∉ escapeChar d := by
  unfold escapeChar
  split_ifs with h₁ h₂ h₃ h₄ h₅
  iterate 5
    · simp only [marks, List.mem_cons, List.not_mem_nil, or_false] at hc
      obtain rfl | rfl | rfl | rfl := hc <;> decide
  · rw [List.mem_singleton]
    rintro rfl
    simp [marks, h₂, h₃, h₄, h₅] at hc

theorem notMem_escapeChars (hc : c ∈ marks) : c ∉ escapeChars cs := by
  rw [escapeChars, List.mem_flatMap]
  rintro ⟨d, -, hd⟩
  exact notMem_escapeChar hc d hd

/-- A text without marks has no tags. -/
theorem hasTags_of_marks (h : ∀ c ∈ marks, c ∉ cs) : HasTags cs [] :=
  ⟨scan_outside (h '<' (by decide)), List.count_eq_zero_of_not_mem (h '<' (by decide)),
    List.count_eq_zero_of_not_mem (h '>' (by decide))⟩

/-- A character of a text with line ends as breaks. -/
def lineChar (c : Char) : List Char := if c = '\n' then "<br>".toList else escapeChar c

theorem breakLines_of_notMem (h : '\n' ∉ cs) : breakLines cs = cs := by
  induction cs with
  | nil => rfl
  | cons c cs ih =>
    obtain ⟨hc, hcs⟩ := not_or.mp (h ∘ List.mem_cons.mpr)
    show (if c = '\n' then _ else [c]) ++ breakLines cs = _
    rw [if_neg (Ne.symm hc), ih hcs]
    rfl

theorem breakLines_escapeChar (c : Char) : breakLines (escapeChar c) = lineChar c := by
  unfold lineChar
  split_ifs with hc
  · rw [hc]
    decide
  · refine breakLines_of_notMem ?_
    unfold escapeChar
    split_ifs <;> first | decide | exact fun h => hc (List.mem_singleton.mp h).symm

/-- The breaks can be made while the text is escaped. -/
theorem breakLines_escapeChars (cs : List Char) : breakLines (escapeChars cs) = cs.flatMap lineChar := by
  unfold breakLines escapeChars
  rw [List.flatMap_assoc]
  exact congrArg (cs.flatMap ·) (funext breakLines_escapeChar)

/-- An escaped text has no tags but its breaks, one for each line end. -/
theorem hasTags_lines (cs : List Char) : HasTags (cs.flatMap lineChar) (List.replicate (cs.count '\n') "br".toList) := by
  induction cs with
  | nil => exact .nil
  | cons c cs ih =>
    by_cases hc : c = '\n'
    · have hbreak : HasTags (lineChar '\n') ["br".toList] := by decide
      rw [List.flatMap_cons, hc, List.count_cons_self, List.replicate_succ]
      exact hbreak.append ih
    · have hchar : HasTags (lineChar c) [] := by
        rw [lineChar, if_neg hc]
        exact hasTags_of_marks fun m hm => notMem_escapeChar hm c
      rw [List.flatMap_cons, List.count_cons_of_ne hc]
      exact hchar.append ih

/-! ## Codes -/

/-- Texts for characters. What begins with one of them begins with that of no other character, nor with the text that ends it all. -/
structure IsCode (code : Char → List Char) (stop : List Char) : Prop where
  apart : ∀ {c d : Char} {u v : List Char}, code c ++ u = code d ++ v → c = d
  stops : ∀ {c : Char} {u v : List Char}, code c ++ u ≠ stop ++ v

/-- Coded characters can be told from what begins with the end. -/
theorem IsCode.injective {code : Char → List Char} {stop : List Char} (h : IsCode code stop) {u v : List Char}
    (heq : cs.flatMap code ++ (stop ++ u) = ds.flatMap code ++ (stop ++ v)) : cs = ds ∧ u = v := by
  induction cs generalizing ds with
  | nil =>
    cases ds with
    | nil => exact ⟨rfl, List.append_cancel_left heq⟩
    | cons d ds =>
      rw [List.flatMap_cons, List.append_assoc] at heq
      exact absurd heq.symm h.stops
  | cons c cs ih =>
    rw [List.flatMap_cons, List.append_assoc] at heq
    cases ds with
    | nil => exact absurd heq h.stops
    | cons d ds =>
      rw [List.flatMap_cons, List.append_assoc] at heq
      obtain rfl := h.apart heq
      obtain ⟨rfl, huv⟩ := ih (List.append_cancel_left heq)
      exact ⟨rfl, huv⟩

theorem escapeChar_apart {d : Char} {u v : List Char} (h : escapeChar c ++ u = escapeChar d ++ v) : c = d := by
  unfold escapeChar at h
  split_ifs at h <;> grind

theorem escapeChar_ne_nil (c : Char) : escapeChar c ≠ [] := by
  unfold escapeChar
  split_ifs <;> simp

/-- What begins with an escaped character does not begin with a mark. -/
theorem escapeChar_append_ne {m : Char} (hm : m ∈ marks) {u v : List Char} : escapeChar c ++ u ≠ m :: v := by
  intro h
  obtain ⟨hnil, -⟩ | ⟨w, hw, -⟩ := List.append_eq_cons_iff.mp h
  · exact escapeChar_ne_nil c hnil
  · exact notMem_escapeChar hm c (hw ▸ List.mem_cons_self)

theorem isCode_escapeChar {m : Char} (hm : m ∈ marks) : IsCode escapeChar [m] where
  apart := escapeChar_apart
  stops := escapeChar_append_ne hm

theorem isCode_lineChar : IsCode lineChar "</".toList where
  apart {c d u v} h := by
    have hmark : '<' ∈ marks := by decide
    unfold lineChar at h
    split_ifs at h with hc hd hd
    · rw [hc, hd]
    · exact absurd h.symm (escapeChar_append_ne hmark)
    · exact absurd h (escapeChar_append_ne hmark)
    · exact escapeChar_apart h
  stops {c u v} := by
    unfold lineChar
    split_ifs
    · intro h
      exact absurd (List.cons.inj (List.cons.inj h).2).1 (by decide)
    · exact escapeChar_append_ne (by decide)

/-! ## The template -/

namespace Template

/-- What comes before the title. -/
def opening : List Char :=
  "\n    <div style=\"font-family: sans-serif; max-width: 600px; margin: 0 auto;\">".toList ++
  "\n        <h2 style=\"color: #333;\">".toList

/-- What stands between the title and the message, after a `<`. -/
def afterTitle : List Char := "/h2>".toList ++ "\n        <div style=\"color: #555; line-height: 1.6;\">".toList

/-- What stands between the message and the link, after the start of a closing tag. -/
def afterMessage : List Char := "div>".toList ++ "\n        ".toList

/-- What comes before the address of a link. -/
def linkOpening : List Char := "<p><a href=\"".toList

/-- What comes after the address of a link and its quote. -/
def linkClosing : List Char := ">Open</a></p>".toList

/-- What comes last. -/
def closing : List Char := "\n    </div>\n    ".toList

/-- The tags of a link. Its address stands between the only two quotes of the tag. -/
def linkTags (address : List Char) : List (List Char) :=
  ["p".toList, "a href=\"".toList ++ address ++ ['"'], "/a".toList, "/p".toList]

/-- The tags of the template, with so many breaks and a link if there is an address for one. -/
def tags (breaks : Nat) (address? : Option (List Char)) : List (List Char) :=
  "div style=\"font-family: sans-serif; max-width: 600px; margin: 0 auto;\"".toList :: "h2 style=\"color: #333;\"".toList ::
    "/h2".toList :: "div style=\"color: #555; line-height: 1.6;\"".toList ::
    (List.replicate breaks "br".toList ++ "/div".toList :: (address?.elim [] linkTags ++ ["/div".toList]))

/-- The link to an address, or nothing. -/
def linkChars : (address? : Option (List Char)) → List Char
  | some address => linkOpening ++ (address ++ (['"'] ++ linkClosing))
  | none => []

end Template

end Html

namespace Payload

open Html Template

variable (p q : Payload)

/-- The address that a notification links to. An empty one is none. -/
def url? : Option String := p.actionUrl.filter (!·.isEmpty)

/-- The address that a notification links to, as it stands in the body. -/
def address? : Option (List Char) := p.url?.map fun url => escapeChars url.toList

theorem toList_escape (s : String) : (escape s).toList = escapeChars s.toList := String.toList_ofList

theorem toList_link (url : String) : (link url).toList = linkChars (some (escapeChars url.toList)) := by
  have hclosing : "\">Open</a></p>".toList = ['"'] ++ linkClosing := rfl
  rw [link, String.toList_append, String.toList_append, toList_escape, hclosing]
  exact List.append_assoc ..

theorem toList_match_link : (match p.actionUrl with
    | some url => if url.isEmpty then "" else link url
    | none => "").toList = linkChars p.address? := by
  unfold address? url?
  cases p.actionUrl with
  | none => rfl
  | some url =>
    dsimp only
    split_ifs with hempty
    · rw [Option.filter_some, hempty]
      rfl
    · rw [Option.filter_some, Bool.eq_false_iff.mpr hempty, toList_link]
      rfl

theorem toList_concat {a b t c d m e f l g : String} {c₁ c₂ e₁ e₂ : List Char} (hc : c.toList = c₁ ++ c₂)
    (he : e.toList = e₁ ++ e₂) : (a ++ b ++ t ++ c ++ d ++ m ++ e ++ f ++ l ++ g).toList =
    (a.toList ++ b.toList) ++ (t.toList ++ (c₁ ++ ((c₂ ++ d.toList) ++ (m.toList ++ (e₁ ++ ((e₂ ++ f.toList) ++
      (l.toList ++ g.toList))))))) := by
  simp only [String.toList_append, hc, he, List.append_assoc]

/-- A body, with its three texts between the parts of the template. -/
theorem toList_html : p.html.toList = opening ++ (escapeChars p.title.toList ++ (['<'] ++ (afterTitle ++
    (p.message.toList.flatMap lineChar ++ ("</".toList ++ (afterMessage ++ (linkChars p.address? ++ closing))))))) := by
  have htitle : "</h2>".toList = ['<'] ++ "/h2>".toList := rfl
  have hmessage : "</div>".toList = "</".toList ++ "div>".toList := rfl
  have hlines : (String.ofList (breakLines (escapeChars p.message.toList))).toList = p.message.toList.flatMap lineChar :=
    String.toList_ofList.trans (breakLines_escapeChars _)
  refine (toList_concat htitle hmessage).trans ?_
  rw [toList_escape, hlines, ← toList_match_link]
  rfl

theorem hasTags_linkChars {address : List Char} (h : ∀ c ∈ marks, c ∉ address) :
    HasTags (linkChars (some address)) (linkTags address) := by
  have hopening : scan none linkOpening = (["p".toList], some "a href=\"".toList) := rfl
  have hclosing (tag : List Char) : scan (some tag) (['"'] ++ linkClosing) = ([tag ++ ['"'], "/a".toList, "/p".toList], none) := rfl
  have haddress : address.count '<' = 0 ∧ address.count '>' = 0 :=
    ⟨List.count_eq_zero_of_not_mem (h '<' (by decide)), List.count_eq_zero_of_not_mem (h '>' (by decide))⟩
  refine ⟨?_, ?_, ?_⟩
  · rw [linkChars, scan_append, hopening, scan_append, scan_inside (h '>' (by decide)), hclosing]
    rfl
  · rw [linkChars, List.count_append, List.count_append, haddress.1]
    rfl
  · rw [linkChars, List.count_append, List.count_append, haddress.2]
    rfl

theorem notMem_address? : ∀ address ∈ p.address?, ∀ c ∈ marks, c ∉ address := by
  intro address haddress c hc
  obtain ⟨url, -, rfl⟩ := Option.map_eq_some_iff.mp haddress
  exact notMem_escapeChars hc

/-- The tags of a body are those of the template. -/
theorem hasTags_html : HasTags p.html.toList (Template.tags (p.message.toList.count '\n') p.address?) := by
  have hopening : HasTags opening
    ["div style=\"font-family: sans-serif; max-width: 600px; margin: 0 auto;\"".toList, "h2 style=\"color: #333;\"".toList] := by
    decide +kernel
  have htitle : HasTags (escapeChars p.title.toList) [] := hasTags_of_marks fun c hc => notMem_escapeChars hc
  have hafterTitle : HasTags (['<'] ++ afterTitle) ["/h2".toList, "div style=\"color: #555; line-height: 1.6;\"".toList] := by
    decide +kernel
  have hafterMessage : HasTags ("</".toList ++ afterMessage) ["/div".toList] := by decide +kernel
  have hlink : HasTags (linkChars p.address?) (p.address?.elim [] linkTags) := by
    cases haddress : p.address? with
    | none => exact .nil
    | some address => exact hasTags_linkChars (p.notMem_address? address haddress)
  have hclosing : HasTags closing ["/div".toList] := by decide +kernel
  rw [toList_html, ← List.append_assoc ['<'], ← List.append_assoc "</".toList]
  exact hopening.append (htitle.append (hafterTitle.append ((hasTags_lines _).append (hafterMessage.append (hlink.append hclosing)))))

/-- The address of a link can be told from the link. -/
theorem url?_of_linkChars (h : linkChars p.address? ++ closing = linkChars q.address? ++ closing) : p.url? = q.url? := by
  unfold address? at h
  cases hp : p.url? with
  | none =>
    cases hq : q.url? with
    | none => rfl
    | some url =>
      rw [hp, hq] at h
      exact absurd (List.cons.inj h).1 (by decide)
  | some url =>
    cases hq : q.url? with
    | none =>
      rw [hp, hq] at h
      exact absurd (List.cons.inj h).1 (by decide)
    | some url' =>
      rw [hp, hq] at h
      simp only [Option.map_some, linkChars, List.append_assoc] at h
      obtain ⟨hurl, -⟩ := (isCode_escapeChar (by decide)).injective (List.append_cancel_left h)
      rw [String.toList_inj.mp hurl]

/-- A body tells what was put into it, and nothing else. -/
theorem html_eq_iff : p.html = q.html ↔ p.title = q.title ∧ p.message = q.message ∧ p.url? = q.url? := by
  constructor
  · intro h
    have hchars := congrArg String.toList h
    rw [toList_html, toList_html] at hchars
    obtain ⟨htitle, hrest⟩ := (isCode_escapeChar (by decide)).injective (List.append_cancel_left hchars)
    obtain ⟨hmessage, hrest⟩ := isCode_lineChar.injective (List.append_cancel_left hrest)
    exact ⟨String.toList_inj.mp htitle, String.toList_inj.mp hmessage, url?_of_linkChars p q (List.append_cancel_left hrest)⟩
  · rintro ⟨htitle, hmessage, hurl⟩
    have hchars : p.html.toList = q.html.toList := by
      rw [toList_html, toList_html, address?, address?, htitle, hmessage, hurl]
    exact String.toList_inj.mp hchars

/-- **The body of a notification is the template**, whatever the notification says: its tags are those of the template, with a break
for each line end of the message and a link if there is an address; no other `<` or `>` stands in it, and no quote in the address of
the link. What it says is all there: two notifications have one body only if they have the title, the message and the link in
common. -/
theorem html_is_the_template : HasTags p.html.toList (Template.tags (p.message.toList.count '\n') p.address?) ∧
    (∀ address ∈ p.address?, ∀ c ∈ marks, c ∉ address) ∧
    ∀ q : Payload, p.html = q.html ↔ p.title = q.title ∧ p.message = q.message ∧ p.url? = q.url? :=
  ⟨p.hasTags_html, p.notMem_address?, p.html_eq_iff⟩

/-- A notification that tries to end the elements and the attribute it stands in. -/
def hostile : Payload := { title := "</h2><script>", message := "a\n<b>", actionUrl := some "/\" onclick=\"x" }

theorem html_is_the_template_of_hostile : ∃ address ∈ hostile.address?, '"' ∈ marks ∧ '"' ∉ address ∧
    HasTags hostile.html.toList (Template.tags 1 (some address)) := by
  obtain ⟨htags, hmarks, -⟩ := hostile.html_is_the_template
  have haddress : "/&quot; onclick=&quot;x".toList ∈ hostile.address? := rfl
  have hmark : '"' ∈ marks := by decide
  exact ⟨_, haddress, hmark, hmarks _ haddress _ hmark, htags⟩

end Payload

end Runbook
