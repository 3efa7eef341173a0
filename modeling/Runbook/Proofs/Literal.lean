import Mathlib
import Runbook.Net.Address
import Runbook.Proofs.Descent
import Runbook.Proofs.Places
import Runbook.Proofs.Usable
import Runbook.Proofs.WallClock

/-!
# Spellings of addresses

A version 4 literal has four parts in decimal digits, and an address is spelled like that in one way only. A resolver reads more:
fewer parts, the last of which stands for all the bytes that are left, and parts with octal and hexadecimal digits. So an address
has many more spellings than the one that is read as a literal.

* `Digits.ofNat_toNat`: digits without a zero in front are those of their number.
* `Address.dotted`, `Address.readV4?_eq_some`: the spelling that is read as a literal.
* `Address.resolve?`: the address that a resolver takes a host for.
* `Address.resolve?_dotted`, `Address.resolve?_ofNat`: two spellings that each address has.
* **`Address.read?_map_toLower`**: which of the spellings are read as literals.
-/

namespace Runbook

/-! ## Characters, digits and pieces -/

namespace Text

/-- What is true of the characters up to a bound can be found out number by number. -/
theorem of_toNat_le {P : Char → Prop} {bound : Nat} {c : Char} (h : ∀ k ≤ bound, P (Char.ofNat k)) (hc : c.toNat ≤ bound) : P c := by
  have hp := h c.toNat hc
  rwa [Char.ofNat_toNat] at hp

theorem bne_of_notMem {sep : Char} {cs : List Char} (h : sep ∉ cs) : ∀ c ∈ cs, (c != sep) = true := fun _ hc =>
  bne_iff_ne.mpr fun he => h (he ▸ hc)

theorem span_of_notMem {sep : Char} {cs : List Char} (h : sep ∉ cs) : cs.span (· != sep) = (cs, []) := by
  rw [List.span_eq_takeWhile_dropWhile, List.takeWhile_eq_self_iff.mpr (bne_of_notMem h),
    List.dropWhile_eq_nil_iff.mpr (bne_of_notMem h)]

/-- The pieces of a text make up the text again. -/
theorem intercalate_splitChars (sep : Char) (cs : List Char) : [sep].intercalate (splitChars sep cs) = cs := by
  induction cs with
  | nil => rfl
  | cons c cs ih =>
    by_cases hc : c = sep
    · rw [hc, splitChars_sep, List.intercalate_cons_of_ne_nil (splitChars_ne_nil sep cs), ih]
      rfl
    · obtain ⟨piece, rest, hsplit, hcons⟩ := exists_splitChars_cons hc cs
      rw [hcons, List.intercalate_cons_cons_left, ← hsplit, ih]

end Text

namespace Digits

variable {c : Char} {ds : List Char} {m n : Nat}

theorem digitChar_value (h : c.isDigit) : Nat.digitChar (value c) = c := by
  obtain ⟨hlow, hhigh⟩ := Char.isDigit_iff_toNat.mp h
  have h0 : '0'.toNat = 48 := rfl
  have h9 : '9'.toNat = 57 := rfl
  apply Char.toNat_inj.mp
  rw [value, Nat.toNat_digitChar_of_lt_ten (by omega)]
  omega

theorem value_lt (h : c.isDigit) : value c < 10 := Nat.lt_succ_of_le (IsoReader.value_le h)

theorem toNat_ofNat (n : Nat) : toNat (ofNat n) = n := by
  have hfold : ∀ (ds : List Char) (m : Nat), ds.foldl (fun n c => n * 10 + value c) m = Nat.ofDigitChars 10 ds m := by
    intro ds
    induction ds with
    | nil => exact fun _ => rfl
    | cons c ds ih =>
      intro m
      rw [List.foldl_cons, ih, Nat.ofDigitChars_cons, Nat.mul_comm]
      rfl
  exact (hfold _ _).trans Nat.ofDigitChars_ten_toDigits

/-- Digits that follow those of a positive number. -/
theorem ofNat_append (hm : 0 < m) (h : ds.all Char.isDigit) :
    ofNat m ++ ds = ofNat (ds.foldl (fun n c => n * 10 + value c) m) := by
  induction ds generalizing m with
  | nil => exact List.append_nil _
  | cons c ds ih =>
    obtain ⟨hc, hds⟩ := Bool.and_eq_true_iff.mp (List.all_cons ▸ h)
    have hnext : ofNat m ++ [c] = ofNat (m * 10 + value c) := by
      have hlast := Nat.toDigits_append_toDigits (b := 10) (by decide) hm (value_lt hc)
      rwa [Nat.toDigits_of_lt_base (value_lt hc), digitChar_value hc, Nat.mul_comm] at hlast
    rw [List.foldl_cons, ← ih (by omega) hds, ← hnext, List.append_assoc, List.singleton_append]

/-- Digits without a zero in front are those of their number. -/
theorem ofNat_toNat (hc : c ≠ '0') (h : (c :: ds).all Char.isDigit) : ofNat (toNat (c :: ds)) = c :: ds := by
  obtain ⟨hdigit, hds⟩ := Bool.and_eq_true_iff.mp (List.all_cons ▸ h)
  have hpos : 0 < value c := by
    apply Nat.pos_of_ne_zero
    intro h0
    rw [← digitChar_value hdigit, h0] at hc
    exact hc rfl
  have hone : ofNat (value c) = [c] := by
    rw [ofNat, Nat.toDigits_of_lt_base (value_lt hdigit), digitChar_value hdigit]
  rw [toNat, List.foldl_cons, Nat.zero_mul, Nat.zero_add, ← ofNat_append hpos hds, hone, List.singleton_append]

/-- Only zero has a zero in front. -/
theorem eq_nil_of_ofNat (h : ofNat n = '0' :: ds) : ds = [] := by
  induction n using Nat.strong_induction_on generalizing ds with
  | _ n ih =>
    rw [ofNat, Nat.toDigits_eq_if (by decide)] at h
    split at h
    · exact (List.cons.inj h).2.symm
    · next hten =>
      obtain ⟨front, hfront⟩ : ∃ front, ofNat (n / 10) = '0' :: front := by
        obtain ⟨c, front, hcons⟩ : ∃ c front, Nat.toDigits 10 (n / 10) = c :: front :=
          List.exists_cons_of_ne_nil Nat.toDigits_ne_nil
        rw [hcons] at h
        obtain ⟨rfl, -⟩ := List.cons.inj h
        exact ⟨front, hcons⟩
      obtain rfl := ih (n / 10) (by omega) hfront
      have hzero : n / 10 = 0 := by
        rw [← toNat_ofNat (n / 10), hfront]
        rfl
      omega

end Digits

namespace Address

variable {c : Char} {cs : List Char} {a n : Nat}

/-! ## Bytes in decimal digits -/

/-- The bytes of a version 4 address. -/
def octets (n : Nat) : List Nat := [n / 16777216, n / 65536 % 256, n / 256 % 256, n % 256]

/-- The spelling of a version 4 address by its bytes in decimal digits. -/
def dotted (n : Nat) : List Char := ['.'].intercalate ((octets n).map Digits.ofNat)

theorem dot_notMem_ofNat (n : Nat) : '.' ∉ Digits.ofNat n := StepPath.not_mem_digits rfl n

theorem splitChars_dotted (n : Nat) : Text.splitChars '.' (dotted n) = (octets n).map Digits.ofNat := by
  simp only [dotted, octets, List.map_cons, List.map_nil, List.intercalate_cons_cons, List.intercalate_singleton, List.append_assoc,
    List.nil_append, Text.splitChars_append_cons, Text.splitChars_of_notMem (dot_notMem_ofNat _), List.cons_append]

theorem octets_eq {a b c d : Nat} (hb : b < 256) (hc : c < 256) (hd : d < 256) :
    octets (((a * 256 + b) * 256 + c) * 256 + d) = [a, b, c, d] := by
  simp only [octets, List.cons.injEq, and_true]
  omega

theorem readOctet?_ofNat : ∀ a < 256, readOctet? (Digits.ofNat a) = some a := by decide +kernel

/-- **A part of a version 4 literal** is a byte in decimal digits. -/
theorem readOctet?_eq_some : readOctet? cs = some a ↔ a < 256 ∧ cs = Digits.ofNat a := by
  constructor
  · intro h
    unfold readOctet? at h
    split at h
    · cases h
    next hdigits =>
    split at h
    · cases h
    next hzero =>
    dsimp only at h
    split at h
    · cases h
    next hsmall =>
    cases h
    refine ⟨by omega, ?_⟩
    cases cs with
    | nil => exact absurd rfl hdigits
    | cons c ds =>
      by_cases hc : c = '0'
      · have hds : ds = [] := by
          by_contra hne
          exact hzero ⟨by simp [hne], by rw [hc]; rfl⟩
        rw [hc, hds]
        rfl
      · refine (Digits.ofNat_toNat hc ?_).symm
        simp only [Bool.or_eq_true, not_or, Bool.not_eq_true', Bool.not_eq_false] at hdigits
        exact hdigits.1.2
  · rintro ⟨ha, rfl⟩
    exact readOctet?_ofNat a ha

/-- **A version 4 literal is the spelling of its address** by its bytes in decimal digits. -/
theorem readV4?_eq_some : readV4? cs = some n ↔ n < 2 ^ 32 ∧ cs = dotted n := by
  constructor
  · intro h
    unfold readV4? at h
    split at h
    · next a b c d hparts =>
      cases h
      simp only [List.map_eq_cons_iff, List.map_eq_nil_iff, readOctet?_eq_some] at hparts
      obtain ⟨_, _, hsplit, ⟨ha, rfl⟩, _, _, rfl, ⟨hb, rfl⟩, _, _, rfl, ⟨hc, rfl⟩, _, _, rfl, ⟨hd, rfl⟩, rfl⟩ := hparts
      refine ⟨by omega, ?_⟩
      rw [← Text.intercalate_splitChars '.' cs, hsplit, dotted, octets_eq hb hc hd]
      rfl
    · cases h
  · rintro ⟨hn, rfl⟩
    have hoctets : ((octets n).map Digits.ofNat).map readOctet? = (octets n).map some := by
      rw [List.map_map]
      refine List.map_congr_left fun a ha => readOctet?_ofNat a ?_
      simp only [octets, List.mem_cons, List.not_mem_nil, or_false] at ha
      omega
    rw [readV4?, splitChars_dotted, hoctets]
    simp [octets]
    omega

/-! ## Hosts as a resolver reads them -/

/-- The value of a digit of a base. -/
def digit? (base : Nat) (c : Char) : Option Nat := (hexValue? c).filter (· < base)

/-- The number that a text of digits of a base stands for, none for any other text. -/
def numeral? (base : Nat) (cs : List Char) : Option Nat :=
  if cs.isEmpty then none else (cs.mapM (digit? base)).map (·.foldl (fun n d => n * base + d) 0)

/-- A part of a numeric host: hexadecimal after `0x`, octal after a zero, decimal else. -/
def part? : List Char → Option Nat
  | '0' :: 'x' :: cs | '0' :: 'X' :: cs => numeral? 16 cs
  | '0' :: c :: cs => numeral? 8 (c :: cs)
  | cs => numeral? 10 cs

/-- The number of so many bytes that parts stand for: each of them is a byte, but the last one stands for all that is left. -/
def ofParts? : (bytes : Nat) → List Nat → Option Nat
  | _ + 1, [] | 0, _ => none
  | bytes + 1, [last] => if last < 256 ^ (bytes + 1) then some last else none
  | bytes + 1, part :: rest => if part < 256 then (ofParts? bytes rest).map (part * 256 ^ bytes + ·) else none

/-- **The version 4 address that a resolver takes a host for**: one to four parts. -/
def resolve? (cs : List Char) : Option Nat := ((Text.splitChars '.' cs).mapM part?).bind (ofParts? 4)

/-- A list is read exactly if each of its items is. -/
theorem mapM_eq_some_iff {α β : Type} {f : α → Option β} {xs : List α} {ys : List β} :
    xs.mapM f = some ys ↔ xs.map f = ys.map some := by
  induction xs generalizing ys with
  | nil => cases ys <;> simp
  | cons x xs ih =>
    cases ys with
    | nil => simp [List.mapM_cons, Option.bind_eq_some_iff]
    | cons y ys => simp [List.mapM_cons, Option.bind_eq_some_iff, ← ih]

theorem exists_of_mapM {α β : Type} {f : α → Option β} {xs : List α} {ys : List β} {x : α} (h : xs.mapM f = some ys)
    (hx : x ∈ xs) : ∃ y, f x = some y := by
  have hmem : f x ∈ ys.map some := mapM_eq_some_iff.mp h ▸ List.mem_map_of_mem hx
  obtain ⟨y, -, hy⟩ := List.mem_map.mp hmem
  exact ⟨y, hy.symm⟩

theorem digit?_ten (h : c.isDigit) : digit? 10 c = some (Digits.value c) := by
  rw [digit?, hexValue?, if_pos h]
  exact Option.filter_some_pos (decide_eq_true (Digits.value_lt h))

theorem numeral?_ten (hne : cs ≠ []) (h : ∀ c ∈ cs, c.isDigit) : numeral? 10 cs = some (Digits.toNat cs) := by
  have hvalues : cs.mapM (digit? 10) = some (cs.map Digits.value) := by
    rw [mapM_eq_some_iff, List.map_map]
    exact List.map_congr_left fun c hc => digit?_ten (h c hc)
  rw [numeral?, List.isEmpty_eq_false_iff.mpr hne, if_neg Bool.false_ne_true, hvalues, Option.map_some, List.foldl_map]
  rfl

/-- Without a zero in front, a part is decimal. -/
theorem part?_of_ne_zero (h : c ≠ '0') (cs : List Char) : part? (c :: cs) = numeral? 10 (c :: cs) := by
  rw [part?]
  · exact fun _ heq => h (List.cons.inj heq).1
  · exact fun _ heq => h (List.cons.inj heq).1
  · exact fun _ _ heq => h (List.cons.inj heq).1

theorem part?_ofNat (n : Nat) : part? (Digits.ofNat n) = some n := by
  have hdigits : numeral? 10 (Digits.ofNat n) = some n :=
    (numeral?_ten Nat.toDigits_ne_nil fun c => Nat.isDigit_of_mem_toDigits (by decide) (by decide)).trans
      (congrArg some (Digits.toNat_ofNat n))
  obtain ⟨c, ds, hcons⟩ : ∃ c ds, Digits.ofNat n = c :: ds := List.exists_cons_of_ne_nil Nat.toDigits_ne_nil
  rw [← hdigits, hcons]
  by_cases hc : c = '0'
  · subst hc
    rw [Digits.eq_nil_of_ofNat hcons]
    rfl
  · exact part?_of_ne_zero hc ds

theorem ofParts?_octets (h : n < 2 ^ 32) : ofParts? 4 (octets n) = some n := by
  have hfirst : n / 16777216 < 256 := by omega
  simp [octets, ofParts?, hfirst, Nat.mod_lt]
  omega

theorem lt_of_ofParts? {bytes : Nat} {parts : List Nat} (h : ofParts? bytes parts = some n) : n < 256 ^ bytes := by
  fun_induction ofParts? bytes parts generalizing n with
  | case1 | case2 => cases h
  | case3 bytes last hlast =>
    cases h
    exact hlast
  | case4 => cases h
  | case5 bytes part rest _ hpart ih =>
    obtain ⟨low, hlow, rfl⟩ := Option.map_eq_some_iff.mp h
    have hlt := ih hlow
    calc part * 256 ^ bytes + low
        < (part + 1) * 256 ^ bytes := by rw [Nat.succ_mul]; exact Nat.add_lt_add_left hlt _
      _ ≤ 256 ^ (bytes + 1) := by rw [Nat.pow_succ']; exact Nat.mul_le_mul_right _ hpart
  | case6 => cases h

theorem lt_of_resolve? (h : resolve? cs = some n) : n < 2 ^ 32 := by
  obtain ⟨parts, -, hparts⟩ := Option.bind_eq_some_iff.mp h
  exact lt_of_ofParts? hparts

/-- **A number without points is the address itself.** -/
theorem resolve?_ofNat (h : n < 2 ^ 32) : resolve? (Digits.ofNat n) = some n := by
  rw [resolve?, Text.splitChars_of_notMem (dot_notMem_ofNat n), List.mapM_cons, part?_ofNat]
  exact if_pos h

theorem resolve?_dotted (h : n < 2 ^ 32) : resolve? (dotted n) = some n := by
  have hparts : ((octets n).map Digits.ofNat).mapM part? = some (octets n) := by
    rw [mapM_eq_some_iff, List.map_map]
    exact List.map_congr_left fun a _ => part?_ofNat a
  rw [resolve?, splitChars_dotted, hparts, Option.bind_some, ofParts?_octets h]

/-! ## The characters of numeric hosts -/

/-- The characters of the parts of a numeric host. -/
def isPartChar (c : Char) : Bool := (hexValue? c).isSome || c == 'x' || c == 'X'

/-- The characters of a numeric host. -/
def isNumeric (c : Char) : Bool := decide (c = '.') || isPartChar c

theorem all_of_numeral? {base : Nat} (h : numeral? base cs = some n) : cs.all isPartChar := by
  unfold numeral? at h
  split at h
  · cases h
  obtain ⟨ds, hds, -⟩ := Option.map_eq_some_iff.mp h
  rw [List.all_eq_true]
  intro c hc
  obtain ⟨d, hd⟩ := exists_of_mapM hds hc
  have hhex : hexValue? c = some d := (Option.filter_eq_some_iff.mp hd).1
  rw [isPartChar, hhex]
  rfl

theorem all_of_part? (h : part? cs = some n) : cs.all isPartChar := by
  unfold part? at h
  split at h
  case h_3 =>
    rw [List.all_cons, all_of_numeral? h]
    rfl
  case h_4 => exact all_of_numeral? h
  -- the mark of hexadecimal digits is left
  all_goals
    rw [List.all_cons, List.all_cons, all_of_numeral? h]
    rfl

theorem all_of_resolve? (h : resolve? cs = some n) : cs.all isNumeric := by
  obtain ⟨parts, hparts, -⟩ := Option.bind_eq_some_iff.mp h
  have hpieces : (Text.splitChars '.' cs).all fun piece => piece.all isPartChar := by
    rw [List.all_eq_true]
    intro piece hpiece
    obtain ⟨a, ha⟩ := exists_of_mapM hparts hpiece
    exact all_of_part? ha
  rwa [Text.all_splitChars] at hpieces

theorem ne_nil_of_resolve? (h : resolve? cs = some n) : cs ≠ [] := by
  rintro rfl
  cases h

theorem notMem_of_isNumeric (h : cs.all isNumeric) (hc : isNumeric c = false) : c ∉ cs := fun hmem =>
  Bool.false_ne_true (hc.symm.trans (List.all_eq_true.mp h c hmem))

theorem isNumeric_toLower (h : isNumeric c) : isNumeric c.toLower := by
  by_cases hupper : c.isUpper
  · have hle : c.toNat ≤ 'Z'.toNat := (of_decide_eq_true hupper).2
    exact Text.of_toNat_le (P := fun c => isNumeric c → isNumeric c.toLower) (by decide +kernel) hle h
  · rwa [Char.toLower_eq_of_not_isUpper hupper]

theorem all_map_toLower (h : cs.all isNumeric) : (cs.map Char.toLower).all isNumeric := by
  rw [List.all_map, List.all_eq_true]
  exact fun c hc => isNumeric_toLower (List.all_eq_true.mp h c hc)

/-! ## The literals among the numeric hosts -/

theorem readV6?_of_isNumeric (h : cs.all isNumeric) : readV6? cs = none := by
  have hspan : cs.span (· != '%') = (cs, []) := Text.span_of_notMem (notMem_of_isNumeric h rfl)
  have hgroups : readGroups? cs = none := by
    rw [readGroups?, Text.splitChars_of_notMem (notMem_of_isNumeric h rfl)]
    rfl
  rw [readV6?, if_neg (notMem_of_isNumeric h rfl), hspan]
  exact hgroups

theorem read?_of_isNumeric (h : cs.all isNumeric) : read? cs = (readV4? cs).map v4 := by
  rw [read?, readV6?_of_isNumeric h]
  cases readV4? cs <;> rfl

theorem isAlpha_of_isDigit (h : c.isDigit) : c.isAlpha = false := by
  have hle : c.toNat ≤ '9'.toNat := (Char.isDigit_iff_toNat.mp h).2
  exact Text.of_toNat_le (P := fun c => c.isAlpha = false) (by decide) hle

theorem isAlpha_of_mem_dotted (h : c ∈ dotted n) : c.isAlpha = false := by
  have hdigits : (Text.splitChars '.' (dotted n)).all fun piece => piece.all Char.isDigit := by
    rw [splitChars_dotted, List.all_map, List.all_eq_true]
    intro a _
    rw [Function.comp_apply, List.all_eq_true]
    exact fun d => Nat.isDigit_of_mem_toDigits (by decide) (by decide)
  rw [Text.all_splitChars, List.all_eq_true] at hdigits
  obtain hdot | hdigit := Bool.or_eq_true_iff.mp (hdigits c h)
  · rw [of_decide_eq_true hdot]
    rfl
  · exact isAlpha_of_isDigit hdigit

/-- Small letters make no other text a dotted spelling. -/
theorem map_toLower_eq_dotted : cs.map Char.toLower = dotted n ↔ cs = dotted n := by
  have hself {ds : List Char} (h : ∀ c ∈ ds, c.isAlpha = false) : ds.map Char.toLower = ds := by
    refine (List.map_congr_left fun c hc => ?_).trans (List.map_id _)
    refine Char.toLower_eq_of_not_isUpper fun hupper => Bool.false_ne_true ((h c hc).symm.trans ?_)
    rw [Char.isAlpha, hupper, Bool.true_or]
  constructor
  · intro h
    rw [← h]
    refine (hself fun c hc => ?_).symm
    rw [← Char.isAlpha_toLower_eq_isAlpha]
    exact isAlpha_of_mem_dotted (h ▸ List.mem_map_of_mem hc)
  · rintro rfl
    exact hself fun c => isAlpha_of_mem_dotted

/-- **Of the spellings of an address, only the dotted one in decimal digits is read.** -/
theorem read?_map_toLower (h : resolve? cs = some n) :
    read? (cs.map Char.toLower) = if cs = dotted n then some (v4 n) else none := by
  rw [read?_of_isNumeric (all_map_toLower (all_of_resolve? h))]
  split
  · next hdotted =>
    rw [hdotted, map_toLower_eq_dotted.mpr rfl, readV4?_eq_some.mpr ⟨lt_of_resolve? h, rfl⟩]
    rfl
  · next hother =>
    cases hread : readV4? (cs.map Char.toLower) with
    | none => rfl
    | some m =>
      obtain ⟨hm, hcs⟩ := readV4?_eq_some.mp hread
      rw [map_toLower_eq_dotted] at hcs
      rw [hcs, resolve?_dotted hm] at h
      cases h
      exact absurd hcs hother

end Address

end Runbook
