import Runbook.Engine.Webhook
import Runbook.Proofs.Literal

/-!
# Numeric hosts

A call is checked by the spelling of the host in its address, and then goes to what a resolver takes the host for. A numeric host is
read as a literal in one spelling only. So that is the only one in which a restricted address is refused, whatever surrounds the host.

* `Url.Parts`, `Url.Parts.IsPlain`: a web address by its parts, with nothing around the host that divides it in another way.
* `Url.split_eq`, `Url.host?_eq`: what is split off from such an address.
* `Url.isBlockedHost_of_resolve?`: which numeric hosts are blocked.
* **`Webhook.numeric_hosts_are_blocked_in_one_spelling`**: which addresses with numeric hosts may be called.
-/

namespace Runbook

namespace Url

open Address Text

variable {sep c : Char} {cs before after host : List Char} {n : Nat}

/-! ## Addresses in plain surroundings -/

/-- The characters that divide an authority from what follows, enclose a host, or are left out of an address. -/
def delimiters : List Char := ['/', '?', '#', '[', ']', '\t', '\r', '\n']

/-- A character that stands for itself in an authority. -/
def IsPlain (c : Char) : Prop := c ∉ delimiters ∧ c.toNat ∉ lookalikes

instance (c : Char) : Decidable (IsPlain c) := inferInstanceAs (Decidable (_ ∧ _))

theorem IsPlain.ne {d : Char} (h : IsPlain c) (hd : d ∈ delimiters) : c ≠ d := fun he => h.1 (he ▸ hd)

/-- A web address `scheme://user@host:port/path`, some of whose parts may be missing. -/
structure Parts where
  scheme : String
  user? : Option String
  host : String
  port? : Option String
  path? : Option String

namespace Parts

def userInfo (p : Parts) : String := p.user?.elim "" (· ++ "@")

def portInfo (p : Parts) : String := p.port?.elim "" (":" ++ ·)

def pathInfo (p : Parts) : String := p.path?.elim "" ("/" ++ ·)

def authority (p : Parts) : String := p.userInfo ++ p.host ++ p.portInfo

def text (p : Parts) : String := p.scheme ++ "://" ++ p.authority ++ p.pathInfo

/-- The scheme can be called, and what surrounds the host does not divide the address in another way. The path may be any text. -/
structure IsPlain (p : Parts) : Prop where
  scheme : isWebScheme (p.scheme.toList.map Char.toLower)
  user : ∀ user ∈ p.user?, ∀ c ∈ user.toList, Url.IsPlain c
  port : ∀ port ∈ p.port?, ∀ c ∈ port.toList, Url.IsPlain c ∧ c ≠ '@'

end Parts

theorem isPlain_of_isNumeric (h : isNumeric c) : IsPlain c := by
  have hdelimiters : (delimiters.all fun d => !isNumeric d) := by decide
  have hlookalikes : (lookalikes.all fun k => !isNumeric (Char.ofNat k)) := by decide +kernel
  rw [List.all_eq_true] at hdelimiters hlookalikes
  refine ⟨fun hmem => ?_, fun hmem => ?_⟩
  · have hnot := hdelimiters c hmem
    rw [h] at hnot
    cases hnot
  · have hnot := hlookalikes _ hmem
    rw [Char.ofNat_toNat, h] at hnot
    cases hnot

/-! ## Cutting texts -/

theorem cut_append_cons (h : sep ∉ before) (after : List Char) : cut sep (before ++ sep :: after) = (before, true, after) := by
  rw [cut, List.span_eq_takeWhile_dropWhile, List.takeWhile_append_of_pos (bne_of_notMem h),
    List.dropWhile_append_of_pos (bne_of_notMem h)]
  simp

theorem cut_of_notMem (h : sep ∉ cs) : cut sep cs = (cs, false, []) := by
  rw [cut, span_of_notMem h]

theorem afterLast_of_notMem (h : sep ∉ cs) : afterLast sep cs = cs := by
  rw [afterLast, List.takeWhile_eq_self_iff.mpr (bne_of_notMem (List.mem_reverse.not.mpr h)), List.reverse_reverse]

theorem afterLast_append_cons (before : List Char) (h : sep ∉ after) : afterLast sep (before ++ sep :: after) = after := by
  rw [afterLast, List.reverse_append, List.reverse_cons, List.append_assoc,
    List.takeWhile_append_of_pos (bne_of_notMem (List.mem_reverse.not.mpr h))]
  simp

theorem authorityOf_append (h : ∀ c ∈ cs, IsPlain c) (hafter : after.head?.all (· == '/')) :
    authorityOf ('/' :: '/' :: (cs ++ after)) = cs := by
  have hcs : ∀ c ∈ cs, (c != '/' && c != '?' && c != '#') = true := by
    intro c hc
    rw [Bool.and_eq_true, Bool.and_eq_true, bne_iff_ne, bne_iff_ne, bne_iff_ne]
    exact ⟨⟨(h c hc).ne (by decide), (h c hc).ne (by decide)⟩, (h c hc).ne (by decide)⟩
  rw [authorityOf, List.takeWhile_append_of_pos hcs]
  cases after with
  | nil => simp
  | cons c after =>
    obtain rfl : c = '/' := by simpa using hafter
    simp

/-! ## Splitting an address -/

theorem alpha_of_isWebScheme (h : isWebScheme (cs.map Char.toLower)) : cs ≠ [] ∧ ∀ c ∈ cs, c.isAlpha := by
  have hlower : (cs.map Char.toLower).all Char.isAlpha ∧ cs.map Char.toLower ≠ [] := by
    rw [isWebScheme, Bool.or_eq_true, beq_iff_eq, beq_iff_eq] at h
    obtain h | h := h <;> rw [h] <;> decide
  obtain ⟨hall, hne⟩ := hlower
  refine ⟨fun he => hne (List.map_eq_nil_iff.mpr he), fun c hc => ?_⟩
  rw [← Char.isAlpha_toLower_eq_isAlpha]
  exact List.all_eq_true.mp hall _ (List.mem_map_of_mem hc)

/-- A letter is neither a control character nor a blank. -/
theorem toNat_gt_of_isAlpha (h : c.isAlpha) : 0x20 < c.toNat := by
  by_contra hle
  have hnot : c.isAlpha = false := of_toNat_le (P := fun c => c.isAlpha = false) (by decide) (Nat.not_lt.mp hle)
  exact Bool.false_ne_true (hnot.symm.trans h)

theorem filter_eq_self_of_notMem (ht : '\t' ∉ cs) (hr : '\r' ∉ cs) (hn : '\n' ∉ cs) :
    (cs.filter fun c => c != '\t' && c != '\r' && c != '\n') = cs := by
  rw [List.filter_eq_self]
  intro c hc
  rw [Bool.and_eq_true, Bool.and_eq_true, bne_iff_ne, bne_iff_ne, bne_iff_ne]
  exact ⟨⟨fun he => ht (he ▸ hc), fun he => hr (he ▸ hc)⟩, fun he => hn (he ▸ hc)⟩

/-- What is left of an address that begins with letters: all but tabs and line ends. -/
theorem clean_append (hne : cs ≠ []) (h : ∀ c ∈ cs, c.isAlpha) (after : List Char) :
    clean (cs ++ after) = cs ++ after.filter fun c => c != '\t' && c != '\r' && c != '\n' := by
  have hnot {d : Char} (hd : d.isAlpha = false) : d ∉ cs := fun hmem => Bool.false_ne_true (hd.symm.trans (h d hmem))
  have hfront : (cs ++ after).dropWhile (fun c => decide (c.toNat ≤ 0x20)) = cs ++ after := by
    obtain ⟨c, cs, rfl⟩ := List.exists_cons_of_ne_nil hne
    have hkept : ¬ decide (c.toNat ≤ 0x20) = true := by
      rw [decide_eq_true_eq, Nat.not_le]
      exact toNat_gt_of_isAlpha (h c List.mem_cons_self)
    rw [List.cons_append, List.dropWhile_cons, if_neg hkept]
  rw [clean, hfront, List.filter_append, filter_eq_self_of_notMem (hnot rfl) (hnot rfl) (hnot rfl)]

theorem splitScheme_append (hne : cs ≠ []) (h : ∀ c ∈ cs, c.isAlpha) (after : List Char) :
    splitScheme (cs ++ ':' :: after) = (cs.map Char.toLower, after) := by
  have hcolon : ':' ∉ cs := fun hmem => absurd (h _ hmem) (by decide)
  have hchars : cs.all isSchemeChar := by
    rw [List.all_eq_true]
    intro c hc
    rw [isSchemeChar, Char.isAlphanum, h c hc]
    rfl
  have hfirst : cs.head?.any Char.isAlpha := by
    cases cs with
    | nil => exact absurd rfl hne
    | cons c cs => exact h c List.mem_cons_self
  rw [splitScheme, cut_append_cons hcolon]
  dsimp only
  rw [hfirst, hchars, Bool.and_self, if_pos rfl]

/-- **What is split off from an address** are its scheme and its authority. -/
theorem split_eq {scheme authority path : List Char} (hscheme : isWebScheme (scheme.map Char.toLower))
    (hplain : ∀ c ∈ authority, IsPlain c) (hpath : path.head?.all (· == '/')) :
    split (String.ofList (scheme ++ ':' :: '/' :: '/' :: (authority ++ path))) = .ok ⟨scheme.map Char.toLower, authority⟩ := by
  obtain ⟨hne, halpha⟩ := alpha_of_isWebScheme hscheme
  have hnot {d : Char} (hd : d ∈ delimiters) : d ∉ authority := fun hmem => (hplain d hmem).1 hd
  have hclean : clean (scheme ++ ':' :: '/' :: '/' :: (authority ++ path)) =
      scheme ++ ':' :: '/' :: '/' :: (authority ++ path.filter fun c => c != '\t' && c != '\r' && c != '\n') := by
    rw [clean_append hne halpha, List.filter_cons_of_pos rfl, List.filter_cons_of_pos rfl, List.filter_cons_of_pos rfl,
      List.filter_append, filter_eq_self_of_notMem (hnot (by decide)) (hnot (by decide)) (hnot (by decide))]
  have hpath' : (path.filter fun c => c != '\t' && c != '\r' && c != '\n').head?.all (· == '/') := by
    cases path with
    | nil => rfl
    | cons c path =>
      obtain rfl : c = '/' := by simpa using hpath
      rfl
  have hbracket {d : Char} (hd : d ∈ delimiters) : authority.contains d = false := by
    rw [List.contains_eq_mem, decide_eq_false_iff_not]
    exact hnot hd
  have hlookalike : (authority.any fun c => lookalikes.contains c.toNat) = false := by
    rw [List.any_eq_false]
    intro c hc
    rw [List.contains_eq_mem, decide_eq_true_eq]
    exact (hplain c hc).2
  rw [split, String.toList_ofList, hclean, splitScheme_append hne halpha]
  dsimp only
  rw [authorityOf_append hplain hpath', hbracket (by decide), hbracket (by decide), hlookalike]
  rfl

/-- The host of an address in small letters: what stands in front of the port. -/
theorem host?_eq {u : Url} {host port : List Char} (hinfo : hostInfo u.authority = host ++ port) (hne : host ≠ [])
    (hhost : host.all isNumeric) (hport : port.head?.all (· == ':')) (hopen : '[' ∉ port) :
    u.host? = some (String.ofList (host.map Char.toLower)) := by
  have hwhole : cut '[' (host ++ port) = (host ++ port, false, []) := by
    refine cut_of_notMem fun hmem => ?_
    obtain hmem | hmem := List.mem_append.mp hmem
    · exact notMem_of_isNumeric hhost rfl hmem
    · exact hopen hmem
  have hcut : (cut ':' (host ++ port)).1 = host := by
    have hcolon : ':' ∉ host := notMem_of_isNumeric hhost rfl
    cases port with
    | nil => rw [List.append_nil, cut_of_notMem hcolon]
    | cons c port =>
      obtain rfl : c = ':' := by simpa using hport
      rw [cut_append_cons hcolon]
  have hspan : host.span (· != '%') = (host, []) := span_of_notMem (notMem_of_isNumeric hhost rfl)
  simp only [host?, hinfo, hwhole, hcut, List.isEmpty_eq_false_iff.mpr hne, Bool.false_eq_true, if_false, hspan, List.append_nil]

/-! ## Numeric hosts -/

/-- **A numeric host is blocked** exactly if it is the dotted spelling of a restricted address. -/
theorem isBlockedHost_of_resolve? (h : resolve? host = some n) :
    isBlockedHost (String.ofList (host.map Char.toLower)) = decide (host = dotted n ∧ (v4 n).isRestricted) := by
  have hlocal : (String.ofList ((host.map Char.toLower).map Char.toLower) == "localhost") = false := by
    rw [beq_eq_false_iff_ne]
    intro he
    have hall := all_map_toLower (all_map_toLower (all_of_resolve? h))
    rw [← String.toList_ofList (l := (host.map Char.toLower).map Char.toLower), he] at hall
    exact absurd hall (by decide)
  rw [isBlockedHost, String.toList_ofList, hlocal, Bool.false_or, read?_map_toLower h]
  split
  · next hdotted => simp [hdotted]
  · next hother => simp [hother]

/-! ## The parts around a host -/

namespace Parts

variable {p : Parts}

theorem IsPlain.of_host (hp : p.IsPlain) (host : String) : { p with host := host }.IsPlain := ⟨hp.scheme, hp.user, hp.port⟩

theorem text_eq (p : Parts) :
    p.text = String.ofList (p.scheme.toList ++ ':' :: '/' :: '/' :: (p.authority.toList ++ p.pathInfo.toList)) := by
  apply String.toList_injective
  simp [text]

theorem head?_portInfo (p : Parts) : p.portInfo.toList.head?.all (· == ':') := by
  cases h : p.port? <;> simp [portInfo, h]

theorem head?_pathInfo (p : Parts) : p.pathInfo.toList.head?.all (· == '/') := by
  cases h : p.path? <;> simp [pathInfo, h]

theorem isPlain_portInfo (hp : p.IsPlain) : ∀ c ∈ p.portInfo.toList, Url.IsPlain c ∧ c ≠ '@' := by
  intro c hc
  cases h : p.port? with
  | none => simp [portInfo, h] at hc
  | some port =>
    rw [portInfo, h, Option.elim_some, String.toList_append] at hc
    obtain rfl | hc := List.mem_cons.mp hc
    · decide
    · exact hp.port port h c hc

theorem isPlain_userInfo (hp : p.IsPlain) : ∀ c ∈ p.userInfo.toList, Url.IsPlain c := by
  intro c hc
  cases h : p.user? with
  | none => simp [userInfo, h] at hc
  | some user =>
    rw [userInfo, h, Option.elim_some, String.toList_append] at hc
    obtain hc | hc := List.mem_append.mp hc
    · exact hp.user user h c hc
    · obtain rfl := List.mem_singleton.mp hc
      decide

/-- No character of an authority around a numeric host divides the address. -/
theorem isPlain_authority (hp : p.IsPlain) (hhost : p.host.toList.all isNumeric) : ∀ c ∈ p.authority.toList, Url.IsPlain c := by
  intro c hc
  rw [authority, String.toList_append, String.toList_append] at hc
  obtain hc | hc := List.mem_append.mp hc
  · obtain hc | hc := List.mem_append.mp hc
    · exact isPlain_userInfo hp c hc
    · exact isPlain_of_isNumeric (List.all_eq_true.mp hhost c hc)
  · exact (isPlain_portInfo hp c hc).1

theorem hostInfo_authority (hp : p.IsPlain) (hhost : p.host.toList.all isNumeric) :
    hostInfo p.authority.toList = p.host.toList ++ p.portInfo.toList := by
  have hat : '@' ∉ p.host.toList ++ p.portInfo.toList := fun hmem => by
    obtain hmem | hmem := List.mem_append.mp hmem
    · exact notMem_of_isNumeric hhost rfl hmem
    · exact (isPlain_portInfo hp _ hmem).2 rfl
  rw [hostInfo, authority, String.toList_append, String.toList_append, List.append_assoc]
  cases h : p.user? with
  | none =>
    rw [userInfo, h]
    exact afterLast_of_notMem hat
  | some user =>
    rw [userInfo, h, Option.elim_some, String.toList_append, List.append_assoc]
    exact afterLast_append_cons user.toList hat

end Parts

end Url

namespace Webhook

open Address Url

variable {p : Url.Parts} {n : Nat}

/-- **The check of an address with a numeric host**, in plain surroundings. -/
theorem checkUrl_of_resolve? (hp : p.IsPlain) (hn : resolve? p.host.toList = some n) : checkUrl p.text =
    if p.host.toList = dotted n ∧ (v4 n).isRestricted then .error (.fault (.unsafeUrl (.blocked p.host))) else .ok () := by
  have hhost := all_of_resolve? hn
  have hport : '[' ∉ p.portInfo.toList := fun hmem => (Parts.isPlain_portInfo hp _ hmem).1.1 (by decide)
  have hsplit : split p.text = .ok ⟨p.scheme.toList.map Char.toLower, p.authority.toList⟩ := by
    rw [p.text_eq]
    exact split_eq hp.scheme (Parts.isPlain_authority hp hhost) p.head?_pathInfo
  have hrefused : unsafe? ⟨p.scheme.toList.map Char.toLower, p.authority.toList⟩ =
      if p.host.toList = dotted n ∧ (v4 n).isRestricted then some (.blocked p.host) else none := by
    rw [unsafe?, hp.scheme, Bool.not_true, if_neg Bool.false_ne_true,
      host?_eq (Parts.hostInfo_authority hp hhost) (ne_nil_of_resolve? hn) hhost p.head?_portInfo hport]
    dsimp only
    rw [isBlockedHost_of_resolve? hn]
    by_cases hblocked : p.host.toList = dotted n ∧ (v4 n).isRestricted
    · rw [if_pos (decide_eq_true hblocked), if_pos hblocked, hblocked.1, map_toLower_eq_dotted.mpr rfl, ← hblocked.1,
        String.ofList_toList]
    · rw [if_neg (decide_eq_true_iff.not.mpr hblocked), if_neg hblocked]
  rw [checkUrl, hsplit]
  dsimp only
  rw [hrefused]
  split_ifs <;> rfl

/-- **A numeric host is blocked in one spelling only.** Whatever plain parts surround it, a host that a resolver takes for an address
is refused exactly if that address is restricted and the host spells it by its four bytes in decimal digits. In any other spelling it
may be called, and each address has one: its number. -/
theorem numeric_hosts_are_blocked_in_one_spelling {p : Url.Parts} (hp : p.IsPlain) :
    (∀ n, Address.resolve? p.host.toList = some n → checkUrl p.text =
      if p.host.toList = Address.dotted n ∧ (Address.v4 n).isRestricted then .error (.fault (.unsafeUrl (.blocked p.host)))
      else .ok ()) ∧
    ∀ n < 2 ^ 32, Address.resolve? (Address.dotted n) = some n ∧ Address.resolve? (Digits.ofNat n) = some n ∧
      checkUrl { p with host := String.ofList (Digits.ofNat n) }.text = .ok () := by
  refine ⟨fun n => checkUrl_of_resolve? hp, fun n hn => ⟨resolve?_dotted hn, resolve?_ofNat hn, ?_⟩⟩
  have hnumber := resolve?_ofNat hn
  rw [← String.toList_ofList (l := Digits.ofNat n)] at hnumber
  refine (checkUrl_of_resolve? (hp.of_host (String.ofList (Digits.ofNat n))) hnumber).trans (if_neg fun hblocked => ?_)
  have hpoint : '.' ∈ dotted n := by
    simp [dotted, octets]
  rw [← hblocked.1, String.toList_ofList] at hpoint
  exact dot_notMem_ofNat n hpoint

/-- The address of the machine itself, in two parts. -/
def loopback : Url.Parts := ⟨"http", none, "127.1", none, some ""⟩

/-- Of three spellings of one address, two may be called. -/
theorem numeric_hosts_are_blocked_in_one_spelling_loopback :
    loopback.text = "http://127.1/" ∧ Address.resolve? "127.1".toList = some 2130706433 ∧ (Address.v4 2130706433).isRestricted ∧
      checkUrl "http://127.1/" = .ok () ∧ checkUrl "http://2130706433/" = .ok () ∧
      checkUrl "http://127.0.0.1/" = .error (.fault (.unsafeUrl (.blocked "127.0.0.1"))) := by
  have hplain : loopback.IsPlain := ⟨by decide, nofun, nofun⟩
  have hplain' : Url.Parts.IsPlain { loopback with host := "127.0.0.1" } := ⟨by decide, nofun, nofun⟩
  obtain ⟨hcheck, hnumber⟩ := numeric_hosts_are_blocked_in_one_spelling hplain
  obtain ⟨hcheck', -⟩ := numeric_hosts_are_blocked_in_one_spelling hplain'
  refine ⟨by decide, by decide, by decide, ?_, ?_, ?_⟩
  · exact (hcheck 2130706433 (by decide)).trans (if_neg (by decide))
  · exact (hnumber 2130706433 (by decide)).2.2
  · exact (hcheck' 2130706433 (by decide)).trans (if_pos (by decide))

end Webhook

end Runbook
