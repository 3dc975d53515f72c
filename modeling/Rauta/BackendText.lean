import Rauta.EndpointSlices.Aggregation
import Rauta.Forwarder.Messages
import Rauta.IpText.RoundTrip

/-!
# Backends as text

The text of a backend is more than a message. `RAUTA_BACKEND_ADDR` is read by `add_example_routes`,
circuit breakers are kept under the text of their backend, and so is what is known of the protocol
that a backend speaks.

Reading undoes writing, so two backends with one text are one address. That the keys of the front
ends are made in different ways makes no difference to this.
-/

namespace Rauta

open IpText

/-! ## Reading -/

/-- `rsplit_once`. -/
def rsplitOnce (sep : Char) : Str → Option (Str × Str)
  | [] => none
  | c :: text =>
    match rsplitOnce sep text with
    | some (before, after) => some (c :: before, after)
    | none => if c = sep then some ([], text) else none

/-- `parse::<IpAddr>`. -/
def parseIpAddr (text : Str) : Option Address :=
  match readIpv4Addr text with
  | some ((a, b, c, d), []) => some (.v4 a b c d)
  | some _ => none
  | none =>
    match readIpv6Addr text with
    | some (groups, []) => some (.v6 (octets groups))
    | _ => none

/-- One digit of `parse::<u16>`. -/
def pushDigit (n : Nat) (c : Char) : Except Str Nat :=
  match toDigit 10 c with
  | none => .error "invalid digit found in string".toList
  | some d =>
    if n * 10 + d < 2 ^ 16 then .ok (n * 10 + d)
    else .error "number too large to fit in target type".toList

/-- `parse::<u16>`, with the texts of its errors. -/
def parseU16 (text : Str) : Except Str UInt16 :=
  if text = [] then .error "cannot parse integer from empty string".toList
  else if text = ['+'] ∨ text = ['-'] then .error "invalid digit found in string".toList
  else
    let digits := if text.head? = some '+' then text.tail else text
    (digits.foldlM pushDigit 0).map Nat.toUInt16

/-- The backend that `add_example_routes` reads from `RAUTA_BACKEND_ADDR`. -/
def parseBackendAddr (backendAddr : Str) : Except Str Backend :=
  match rsplitOnce ':' backendAddr with
  | none =>
    .error ("Invalid RAUTA_BACKEND_ADDR format. Expected IP:PORT, got: ".toList ++ backendAddr)
  | some (ipStr, portStr) =>
    match parseU16 portStr with
    | .error e => .error ("Invalid backend port ".toList ++ portStr ++ ": ".toList ++ e)
    | .ok port =>
      let ipStr := (ipStr.dropWhile (· == '[')).rdropWhile (· == ']')
      match parseIpAddr ipStr with
      | none =>
        .error ("Invalid backend IP ".toList ++ ipStr ++ ": invalid IP address syntax".toList)
      | some address => .ok (address.backend port)

/-! ## Keys -/

/-- The text of an address. -/
def Address.display : Address → Str
  | .v4 a b c d => displayIpv4Addr a b c d
  | .v6 octets => displayIpv6Addr octets

/-- `as_ipv4`. -/
def Backend.asIpv4 (b : Backend) : Option (UInt8 × UInt8 × UInt8 × UInt8) :=
  if b.isIpv6 then none
  else some (b.octet 0, b.octet 1, b.octet 2, b.octet 3)

/-- `as_ipv6`. -/
def Backend.asIpv6 (b : Backend) : Option (Vector UInt8 16) :=
  if b.isIpv6 then some b.ip else none

/-- The `backend_id` of `ListenerManager::handle_request`, under which it asks the breaker. -/
def Backend.listenerId (b : Backend) : Str :=
  match b.asIpv4 with
  | some (x, y, z, w) => displayIpv4Addr x y z w ++ ':' :: decimal b.port.toNat
  | none =>
    match b.asIpv6 with
    | some octets => '[' :: displayIpv6Addr octets ++ ']' :: ':' :: decimal b.port.toNat
    | none => "unknown:".toList ++ decimal b.port.toNat

/-- The key of its protocol cache, made of `backend_addr.ip()` and `backend_addr.port()`. -/
def Backend.listenerKey (b : Backend) : Str :=
  match b.toSocketAddr with
  | .v4 x y z w port => displayIpv4Addr x y z w ++ ':' :: decimal port.toNat
  | .v6 octets port => displayIpv6Addr octets ++ ':' :: decimal port.toNat

/-! ## Reading what was written -/

theorem rsplitOnce_eq_none {sep : Char} {text : Str} (h : sep ∉ text) :
    rsplitOnce sep text = none := by
  induction text with
  | nil => rfl
  | cons c text ih =>
    rw [List.mem_cons, not_or] at h
    simp only [rsplitOnce, ih h.2]
    rw [if_neg (Ne.symm h.1)]

theorem rsplitOnce_append {sep : Char} (before : Str) {after : Str} (h : sep ∉ after) :
    rsplitOnce sep (before ++ sep :: after) = some (before, after) := by
  induction before with
  | nil => simp [rsplitOnce, rsplitOnce_eq_none h]
  | cons c before ih =>
    rw [List.cons_append, rsplitOnce, ih]

theorem colon_not_mem_decimal (n : Nat) : ':' ∉ decimal n := by
  intro h
  have hdigit := Nat.isDigit_of_mem_toDigits (by decide) (by decide) h
  cases hdigit

theorem foldlM_pushDigit_decimal {n : Nat} (hn : n < 2 ^ 16) :
    (decimal n).foldlM pushDigit 0 = .ok n := by
  have hpush : ∀ {m d : Nat}, d < 10 → m * 10 + d < 2 ^ 16 →
      pushDigit m d.digitChar = .ok (m * 10 + d) := by
    intro m d hd hlt
    simp only [pushDigit, toDigit_digitChar (by decide) hd]
    rw [if_pos hlt]
  unfold decimal
  induction n using Nat.strong_induction_on with
  | _ n ih =>
    by_cases hlt : n < 10
    · rw [Nat.toDigits_of_lt_base hlt]
      have h := hpush (m := 0) hlt (by omega)
      simpa using h
    · rw [Nat.toDigits_of_base_le (by decide) (Nat.le_of_not_lt hlt), List.foldlM_append,
        ih (n / 10) (by omega) (by omega)]
      have h := hpush (m := n / 10) (Nat.mod_lt n (by decide)) (by omega)
      rw [Nat.div_add_mod'] at h
      show pushDigit (n / 10) (n % 10).digitChar >>= pure = Except.ok n
      rw [h]
      rfl

theorem parseU16_decimal (port : UInt16) : parseU16 (decimal port.toNat) = .ok port := by
  have hsign : ∀ c, c.isDigit = false → (decimal port.toNat).head? ≠ some c := by
    intro c hc hhead
    have hdigit := Nat.isDigit_of_mem_toDigits (by decide) (by decide)
      (List.mem_of_mem_head? (Option.mem_def.mpr hhead))
    rw [hc] at hdigit
    cases hdigit
  have hsingle : ¬ (decimal port.toNat = ['+'] ∨ decimal port.toNat = ['-']) := by
    rintro (h | h)
    · exact hsign '+' rfl (by rw [h]; rfl)
    · exact hsign '-' rfl (by rw [h]; rfl)
  unfold parseU16
  rw [if_neg (show decimal port.toNat ≠ [] from Nat.toDigits_ne_nil), if_neg hsingle]
  simp only [if_neg (hsign '+' rfl)]
  rw [foldlM_pushDigit_decimal port.toNat_lt]
  simp [Except.map]

/-- The characters of an address. -/
def isAddressChar (c : Char) : Bool := (toDigit 16 c).isSome || c == ':' || c == '.'

theorem isAddressChar_of_mem_displayIpv4Addr {a b c d : UInt8} {x : Char}
    (hx : x ∈ displayIpv4Addr a b c d) : isAddressChar x = true := by
  have hdecimal : ∀ n, x ∈ decimal n → (toDigit 16 x).isSome := by
    intro n hn
    exact isSome_toDigit_of_le (by decide)
      (isSome_toDigit_of_mem_toDigits (by decide) (by decide) hn)
  rw [displayIpv4Addr_eq] at hx
  simp only [List.mem_append, List.mem_cons] at hx
  rcases hx with hx | rfl | hx | rfl | hx | rfl | hx
  all_goals first | rfl | (simp [isAddressChar, hdecimal _ hx])

theorem isAddressChar_of_mem_fmtSubslice {chunk : List UInt16} {x : Char}
    (hx : x ∈ fmtSubslice chunk) : isAddressChar x = true := by
  have hhex : ∀ group, x ∈ hex group → isAddressChar x = true := by
    intro group hgroup
    simp [isAddressChar, isSome_toDigit_of_mem_toDigits (by decide) (by decide) hgroup]
  cases chunk with
  | nil => cases hx
  | cons group chunk =>
    rw [fmtSubslice_cons, List.mem_append] at hx
    rcases hx with hx | hx
    · exact hhex group hx
    · obtain ⟨group', -, hx⟩ := List.mem_flatMap.mp hx
      rcases List.mem_cons.mp hx with rfl | hx
      · rfl
      · exact hhex group' hx

theorem isAddressChar_of_mem_display {address : Address} {x : Char} (hx : x ∈ address.display) :
    isAddressChar x = true := by
  cases address with
  | v4 a b c d => exact isAddressChar_of_mem_displayIpv4Addr hx
  | v6 o =>
    have hx : x ∈ displayIpv6Addr o := hx
    unfold displayIpv6Addr at hx
    split at hx
    next =>
      rcases List.mem_append.mp hx with hx | hx
      · exact List.all_eq_true.mp (show "::ffff:".toList.all isAddressChar = true by rfl) x hx
      · exact isAddressChar_of_mem_displayIpv4Addr hx
    next =>
      simp only at hx
      split at hx
      next =>
        rcases List.mem_append.mp hx with hx | hx
        · rcases List.mem_append.mp hx with hx | hx
          · exact isAddressChar_of_mem_fmtSubslice hx
          · exact List.all_eq_true.mp (show "::".toList.all isAddressChar = true by rfl) x hx
        · exact isAddressChar_of_mem_fmtSubslice hx
      next => exact isAddressChar_of_mem_fmtSubslice hx

theorem not_bracket_of_mem_display {address : Address} {c : Char} (hc : c ∈ address.display) :
    c ≠ '[' ∧ c ≠ ']' := by
  have h := isAddressChar_of_mem_display hc
  constructor <;> (rintro rfl; cases h)

/-- Brackets at the ends are all that is stripped. -/
theorem strip_display {address : Address} {opening closing : Str}
    (hopening : ∀ c ∈ opening, c = '[') (hclosing : ∀ c ∈ closing, c = ']') :
    ((opening ++ address.display ++ closing).dropWhile (· == '[')).rdropWhile (· == ']') =
      address.display := by
  have hfront : (opening ++ address.display ++ closing).dropWhile (· == '[') =
      address.display ++ closing := by
    rw [List.append_assoc, List.dropWhile_append_of_pos fun c hc => by simp [hopening c hc]]
    cases htext : address.display ++ closing with
    | nil => rfl
    | cons c text =>
      have hc : c ∈ address.display ++ closing := htext ▸ List.mem_cons_self
      refine List.dropWhile_cons_of_neg ?_
      rcases List.mem_append.mp hc with hc | hc
      · simpa using (not_bracket_of_mem_display hc).1
      · rw [hclosing c hc]
        decide
  have hback : address.display.rdropWhile (· == ']') = address.display := by
    rw [List.rdropWhile_eq_self_iff]
    intro hne
    simpa using (not_bracket_of_mem_display (List.getLast_mem hne)).2
  rw [hfront]
  clear hfront
  induction closing using List.reverseRecOn with
  | nil => rw [List.append_nil, hback]
  | append_singleton closing c ih =>
    rw [← List.append_assoc, List.rdropWhile_concat_pos _ _ _ (by simp [hclosing c (by simp)])]
    exact ih fun c hc => hclosing c (List.mem_append_left _ hc)

theorem parseIpAddr_display (address : Address) : parseIpAddr address.display = some address := by
  cases address with
  | v4 a b c d =>
    have hread := readIpv4Addr_displayIpv4Addr a b c d (noDigit_nil 10)
    rw [List.append_nil] at hread
    simp only [parseIpAddr, Address.display, hread]
  | v6 o =>
    simp only [parseIpAddr, Address.display, readIpv4Addr_displayIpv6Addr,
      readIpv6Addr_displayIpv6Addr, octets_segments]

/-- The watcher of EndpointSlices reads addresses in its own way, and undoes writing too. -/
theorem backendOfAddress_display (port : UInt16) (address : Address) :
    backendOfAddress port address.display = some (address.backend port) := by
  cases address with
  | v4 a b c d =>
    rw [backendOfAddress, Address.display, parseIpv4Addr_displayIpv4Addr]
    rfl
  | v6 o =>
    have hnone : parseIpv4Addr (displayIpv6Addr o) = none := by
      simp only [parseIpv4Addr, readIpv4Addr_displayIpv6Addr, ite_self]
    rw [backendOfAddress, Address.display, hnone, parseIpv6Addr_displayIpv6Addr]
    rfl

/-- An address and a port, with or without brackets around the address. -/
theorem parseBackendAddr_bracketed (address : Address) (port : UInt16) {opening closing : Str}
    (hopening : ∀ c ∈ opening, c = '[') (hclosing : ∀ c ∈ closing, c = ']') :
    parseBackendAddr (opening ++ address.display ++ closing ++ ':' :: decimal port.toNat) =
      .ok (address.backend port) := by
  simp only [parseBackendAddr, rsplitOnce_append _ (colon_not_mem_decimal _), parseU16_decimal,
    strip_display hopening hclosing, parseIpAddr_display]

/-! ## The text determines the address -/

namespace Backend

variable (b b' : Backend)

/-- The address that is read, whatever the brackets, is that of the backend. -/
theorem exists_display : ∃ (address : Address) (opening closing : Str),
    (∀ c ∈ opening, c = '[') ∧ (∀ c ∈ closing, c = ']') ∧
    (address.backend b.port).toSocketAddr = b.toSocketAddr ∧
    b.display = opening ++ address.display ++ closing ++ ':' :: decimal b.port.toNat ∧
    b.listenerKey = [] ++ address.display ++ [] ++ ':' :: decimal b.port.toNat := by
  obtain ⟨ip, port, weight, isIpv6⟩ := b
  cases isIpv6 with
  | false =>
    exact ⟨.v4 ip[0] ip[1] ip[2] ip[3], [], [], by simp, by simp, rfl,
      by simp [display, toSocketAddr, Address.display],
      by simp [listenerKey, toSocketAddr, Address.display]⟩
  | true =>
    exact ⟨.v6 ip, ['['], [']'], by simp, by simp, rfl,
      by simp [display, toSocketAddr, Address.display],
      by simp [listenerKey, toSocketAddr, Address.display]⟩

/-- **Reading undoes writing**: the text of a backend is an admissible `RAUTA_BACKEND_ADDR`, and
stands for the same address and port. -/
theorem exists_parseBackendAddr_display :
    ∃ backend, parseBackendAddr b.display = .ok backend ∧
      backend.toSocketAddr = b.toSocketAddr ∧ backend.weight = 100 := by
  obtain ⟨address, opening, closing, hopening, hclosing, haddr, hdisplay, -⟩ := b.exists_display
  refine ⟨address.backend b.port, ?_, haddr, by cases address <;> rfl⟩
  rw [hdisplay, parseBackendAddr_bracketed _ _ hopening hclosing]

theorem listenerId_eq_display : b.listenerId = b.display := by
  obtain ⟨ip, port, weight, isIpv6⟩ := b
  cases isIpv6 with
  | false => simp [listenerId, asIpv4, display, toSocketAddr, octet]
  | true => rfl

/-- **Keys are addresses**: both front ends ask for the breaker of a backend under the same text,
and neither this text nor the key of the protocol cache is that of another address. -/
theorem keys_eq_iff :
    (b.listenerId = b'.display ↔ b.toSocketAddr = b'.toSocketAddr) ∧
      (b.listenerKey = b'.listenerKey ↔ b.toSocketAddr = b'.toSocketAddr) := by
  obtain ⟨address, opening, closing, hopening, hclosing, haddr, hdisplay, hkey⟩ := b.exists_display
  obtain ⟨address', opening', closing', hopening', hclosing', haddr', hdisplay', hkey'⟩ :=
    b'.exists_display
  have hnil : ∀ bracket : Char, ∀ c ∈ ([] : Str), c = bracket := by simp
  -- Whatever the brackets, equal texts are read as the same address and port.
  have hread : ∀ {text : Str}, parseBackendAddr text = .ok (address.backend b.port) →
      parseBackendAddr text = .ok (address'.backend b'.port) →
      b.toSocketAddr = b'.toSocketAddr := by
    intro text h h'
    rw [← haddr, ← haddr', Except.ok.inj (h.symm.trans h')]
  constructor
  · rw [listenerId_eq_display]
    constructor
    · intro h
      refine hread (parseBackendAddr_bracketed address b.port hopening hclosing) ?_
      rw [← hdisplay, h, hdisplay', parseBackendAddr_bracketed _ _ hopening' hclosing']
    · intro h
      rw [display, display, h]
  · constructor
    · intro h
      refine hread (parseBackendAddr_bracketed address b.port (hnil '[') (hnil ']')) ?_
      rw [← hkey, h, hkey', parseBackendAddr_bracketed _ _ (hnil '[') (hnil ']')]
    · intro h
      rw [listenerKey, listenerKey, h]

end Backend

end Rauta
