import Rauta.IpText
import Rauta.Lib.Bits
import Mathlib.Tactic.IntervalCases

/-!
# Addresses are read as they are written

The text that `Display` writes for an address is read back as the same address, whatever comes
first in it: the reader of an IPv6 address tries an IPv4 address before every group, and the `::`
of the writer stands for a run of zero groups whose length the reader has to find out from what is
missing.

A reader leaves the rest of the text, so its lemma has a rest in it, with a condition on how it may
go on: not with another digit (`NoDigit`), and after a group of an IPv6 address only with a colon
(`Parted`).
-/

namespace Rauta

namespace IpText

/-! ## Numbers -/

section Numbers

variable {radix maxDigits limit n : Nat} {rest : Str}

/-- The text does not go on with a digit. -/
def NoDigit (radix : Nat) (text : Str) : Prop := ∀ c ∈ text.head?, toDigit radix c = none

theorem noDigit_nil (radix : Nat) : NoDigit radix [] := by
  intro c hc
  cases hc

theorem noDigit_cons {c : Char} (h : toDigit radix c = none) (text : Str) :
    NoDigit radix (c :: text) := by
  intro c' hc'
  cases hc'
  exact h

theorem toDigit_digitChar {d : Nat} (hradix : radix ≤ 16) (hd : d < radix) :
    toDigit radix d.digitChar = some d := by
  have hd16 : d < 16 := hd.trans_le hradix
  interval_cases d <;> simp [toDigit, Nat.digitChar, hd]

theorem isSome_toDigit_of_le {radix' : Nat} {c : Char} (hle : radix ≤ radix')
    (h : (toDigit radix c).isSome) : (toDigit radix' c).isSome := by
  obtain ⟨d, hd⟩ := Option.isSome_iff_exists.mp h
  unfold toDigit at hd ⊢
  rw [Option.filter_eq_some_iff] at hd
  have hd' : d < radix' := (of_decide_eq_true hd.2).trans_le hle
  rw [hd.1, Option.filter_some, if_pos (decide_eq_true hd')]
  rfl

theorem isSome_toDigit_of_mem_toDigits (hone : 1 < radix) (hradix : radix ≤ 16) {c : Char}
    (hc : c ∈ Nat.toDigits radix n) : (toDigit radix c).isSome := by
  induction n using Nat.strong_induction_on with
  | _ n ih =>
    by_cases hlt : n < radix
    · rw [Nat.toDigits_of_lt_base hlt, List.mem_singleton] at hc
      rw [hc, toDigit_digitChar hradix hlt]
      rfl
    · have hle : radix ≤ n := Nat.le_of_not_lt hlt
      rw [Nat.toDigits_of_base_le hone hle, List.mem_append, List.mem_singleton] at hc
      rcases hc with hc | rfl
      · exact ih (n / radix) (Nat.div_lt_self (by omega) hone) hc
      · rw [toDigit_digitChar hradix (Nat.mod_lt n (by omega))]
        rfl

/-- The digits of a number are read, from the first to the last one. -/
theorem readDigits_toDigits (hone : 1 < radix) (hradix : radix ≤ 16) (hn : n < limit)
    (hlen : (Nat.toDigits radix n).length ≤ maxDigits) (text : Str) :
    readDigits radix maxDigits limit (Nat.toDigits radix n ++ text) 0 0 =
      readDigits radix maxDigits limit text n (Nat.toDigits radix n).length := by
  -- The last digit comes off the end, and it is read last.
  induction n using Nat.strong_induction_on generalizing text with
  | _ n ih =>
    by_cases hlt : n < radix
    · rw [Nat.toDigits_of_lt_base hlt] at hlen ⊢
      simp_all [readDigits, toDigit_digitChar hradix hlt]
    · have hle : radix ≤ n := Nat.le_of_not_lt hlt
      have hdiv : n / radix < n := Nat.div_lt_self (by omega) hone
      rw [Nat.toDigits_of_base_le hone hle, List.length_append, List.length_singleton] at hlen
      rw [Nat.toDigits_of_base_le hone hle, List.append_assoc,
        ih (n / radix) hdiv (by omega) (by omega)]
      have hdigit := toDigit_digitChar hradix (Nat.mod_lt n (by omega : radix > 0))
      simp only [List.singleton_append, readDigits, hdigit, Nat.div_add_mod', List.length_append,
        List.length_singleton]
      rw [if_pos ⟨hn, hlen⟩]

theorem readDigits_of_noDigit (h : NoDigit radix rest) (value count : Nat) :
    readDigits radix maxDigits limit rest value count = some ((value, count), rest) := by
  cases rest with
  | nil => rfl
  | cons c text =>
    have hc : toDigit radix c = none := h c rfl
    simp only [readDigits, hc]

/-- A number is not written with a zero in front. -/
theorem head?_toDigits_ne_zero (hone : 1 < radix) (hn : 0 < n) :
    (Nat.toDigits radix n).head? ≠ some '0' := by
  induction n using Nat.strong_induction_on with
  | _ n ih =>
    by_cases hlt : n < radix
    · rw [Nat.toDigits_of_lt_base hlt]
      simp only [List.head?_cons, ne_eq, Option.some.injEq, Nat.digitChar_eq_zero]
      omega
    · have hle : radix ≤ n := Nat.le_of_not_lt hlt
      rw [Nat.toDigits_of_base_le hone hle, List.head?_append_of_ne_nil _ Nat.toDigits_ne_nil]
      exact ih (n / radix) (Nat.div_lt_self hn hone) (Nat.div_pos hle (by omega))

theorem readNumber_toDigits (hone : 1 < radix) (hradix : radix ≤ 16) (hn : n < limit)
    (hlen : (Nat.toDigits radix n).length ≤ maxDigits) (hrest : NoDigit radix rest)
    (allowZeroPrefix : Bool) :
    readNumber radix maxDigits limit allowZeroPrefix (Nat.toDigits radix n ++ rest) =
      some (n, rest) := by
  have hread := readDigits_toDigits hone hradix hn hlen rest
  rw [readDigits_of_noDigit hrest] at hread
  have hpos : (Nat.toDigits radix n).length ≠ 0 := Nat.length_toDigits_pos.ne'
  have hzero : ¬ ((Nat.toDigits radix n ++ rest).head? = some '0' ∧
      1 < (Nat.toDigits radix n).length) := by
    rw [List.head?_append_of_ne_nil _ Nat.toDigits_ne_nil]
    rintro ⟨hhead, hlong⟩
    rcases Nat.eq_zero_or_pos n with rfl | hn
    · rw [Nat.toDigits_zero, List.length_singleton] at hlong
      omega
    · exact head?_toDigits_ne_zero hone hn hhead
  unfold readNumber
  simp only [hread]
  rw [if_neg hpos, if_neg]
  simp only [Bool.and_eq_true, beq_iff_eq, decide_eq_true_eq]
  rintro ⟨⟨_, hhead⟩, hlong⟩
  exact hzero ⟨hhead, hlong⟩

theorem readNumber_of_noDigit (h : NoDigit radix rest) (allowZeroPrefix : Bool) :
    readNumber radix maxDigits limit allowZeroPrefix rest = none := by
  unfold readNumber
  simp only [readDigits_of_noDigit h, if_pos]

/-- What the loop has gone over are digits. -/
theorem readDigits_split {text : Str} {value count : Nat} {read : Nat × Nat}
    (h : readDigits radix maxDigits limit text value count = some (read, rest)) :
    ∃ digits, text = digits ++ rest ∧ ∀ c ∈ digits, (toDigit radix c).isSome := by
  induction text generalizing value count with
  | nil =>
    cases h
    exact ⟨[], rfl, by simp⟩
  | cons c text ih =>
    rw [readDigits] at h
    cases hc : toDigit radix c with
    | none =>
      simp only [hc, Option.some.injEq, Prod.mk.injEq] at h
      exact ⟨[], h.2, by simp⟩
    | some d =>
      simp only [hc] at h
      split at h
      · obtain ⟨digits, rfl, hdigits⟩ := ih h
        exact ⟨c :: digits, rfl, List.forall_mem_cons.mpr ⟨by rw [hc]; rfl, hdigits⟩⟩
      · cases h

theorem readNumber_split {text : Str} {allowZeroPrefix : Bool}
    (h : readNumber radix maxDigits limit allowZeroPrefix text = some (n, rest)) :
    ∃ digits, text = digits ++ rest ∧ ∀ c ∈ digits, (toDigit radix c).isSome := by
  unfold readNumber at h
  cases hread : readDigits radix maxDigits limit text 0 0 with
  | none => simp [hread] at h
  | some r =>
    simp only [hread] at h
    split at h
    · cases h
    · split at h
      · cases h
      · cases h
        exact readDigits_split hread

end Numbers

/-! ## IPv4 -/

theorem readNumber_octet (octet : UInt8) {rest : Str} (hrest : NoDigit 10 rest) :
    readNumber 10 3 256 false (decimal octet.toNat ++ rest) = some (octet.toNat, rest) := by
  have hlt : octet.toNat < 256 := octet.toNat_lt
  refine readNumber_toDigits (by decide) (by decide) hlt ?_ hrest false
  exact (Nat.length_toDigits_le_iff (by decide) (by decide)).mpr (by omega)

theorem readOctet_zero (octet : UInt8) {rest : Str} (hrest : NoDigit 10 rest) :
    readOctet 0 (decimal octet.toNat ++ rest) = some (octet, rest) := by
  simp [readOctet, readSeparator, readNumber_octet octet hrest]

theorem readOctet_succ (index : Nat) (octet : UInt8) {rest : Str} (hrest : NoDigit 10 rest) :
    readOctet (index + 1) ('.' :: (decimal octet.toNat ++ rest)) = some (octet, rest) := by
  simp [readOctet, readSeparator, readNumber_octet octet hrest]

theorem displayIpv4Addr_eq (a b c d : UInt8) :
    displayIpv4Addr a b c d = decimal a.toNat ++ '.' :: (decimal b.toNat ++
      '.' :: (decimal c.toNat ++ '.' :: decimal d.toNat)) := by
  simp [displayIpv4Addr, List.intercalate]

theorem readIpv4Addr_displayIpv4Addr (a b c d : UInt8) {rest : Str} (hrest : NoDigit 10 rest) :
    readIpv4Addr (displayIpv4Addr a b c d ++ rest) = some ((a, b, c, d), rest) := by
  have hdot : ∀ text : Str, NoDigit 10 ('.' :: text) := noDigit_cons (by decide)
  rw [displayIpv4Addr_eq]
  simp only [List.append_assoc, List.cons_append]
  simp [readIpv4Addr, readOctet_zero _ (hdot _), readOctet_succ _ _ (hdot _),
    readOctet_succ _ _ hrest]

theorem utf8Size_digitChar {d : Nat} (hd : d < 16) : d.digitChar.utf8Size = 1 := by
  interval_cases d <;> rfl

theorem length_asBytes_toDigits {radix n : Nat} (hone : 1 < radix) (hradix : radix ≤ 16) :
    (Str.asBytes (Nat.toDigits radix n)).length = (Nat.toDigits radix n).length := by
  induction n using Nat.strong_induction_on with
  | _ n ih =>
    by_cases hlt : n < radix
    · rw [Nat.toDigits_of_lt_base hlt]
      simp [Str.asBytes, utf8Size_digitChar (hlt.trans_le hradix)]
    · have hle : radix ≤ n := Nat.le_of_not_lt hlt
      have hmod : n % radix < 16 := (Nat.mod_lt n (by omega)).trans_le hradix
      rw [Nat.toDigits_of_base_le hone hle]
      have := ih (n / radix) (Nat.div_lt_self (by omega) hone)
      simp_all [Str.asBytes, utf8Size_digitChar]

/-- Every IPv4 address fits in the length that the parser allows. -/
theorem length_asBytes_displayIpv4Addr (a b c d : UInt8) :
    (Str.asBytes (displayIpv4Addr a b c d)).length ≤ 15 := by
  have hoctet : ∀ octet : UInt8, (Str.asBytes (decimal octet.toNat)).length ≤ 3 := by
    intro octet
    have hlt : octet.toNat < 256 := octet.toNat_lt
    rw [decimal, length_asBytes_toDigits (by decide) (by decide)]
    exact (Nat.length_toDigits_le_iff (by decide) (by decide)).mpr (by omega)
  have hdot : ∀ text : Str, (Str.asBytes ('.' :: text)).length = (Str.asBytes text).length + 1 := by
    intro text
    simp only [Str.asBytes, List.flatMap_cons, List.length_append]
    rw [Nat.add_comm]
    rfl
  have happend : ∀ text text' : Str, (Str.asBytes (text ++ text')).length =
      (Str.asBytes text).length + (Str.asBytes text').length := by
    intro text text'
    rw [Str.asBytes, List.flatMap_append, List.length_append]
    rfl
  rw [displayIpv4Addr_eq]
  simp only [happend, hdot]
  have := hoctet a
  have := hoctet b
  have := hoctet c
  have := hoctet d
  omega

/-! ## Groups -/

/-- What follows a group of an IPv6 address: a colon, or nothing. -/
def Parted (text : Str) : Prop := ∀ c ∈ text.head?, c = ':'

theorem Parted.noDigit {text : Str} (h : Parted text) : NoDigit 16 text := by
  intro c hc
  rw [h c hc]
  decide

theorem parted_nil : Parted [] := by
  intro c hc
  cases hc

theorem parted_colon (text : Str) : Parted (':' :: text) := by
  intro c hc
  cases hc
  rfl

/-- Hexadecimal digits that are followed by something else than a point are not an IPv4 address. -/
theorem readIpv4Addr_eq_none {digits rest : Str} (hdigits : ∀ c ∈ digits, (toDigit 16 c).isSome)
    (hrest : Parted rest) : readIpv4Addr (digits ++ rest) = none := by
  -- An address has a point behind its first octet. Both texts say what comes after the digits.
  by_contra hsome
  obtain ⟨addr, haddr⟩ := Option.ne_none_iff_exists'.mp hsome
  simp only [readIpv4Addr, Option.bind_eq_bind, Option.bind_eq_some_iff] at haddr
  obtain ⟨⟨a, text⟩, hfirst, ⟨b, text'⟩, hsecond, -⟩ := haddr
  obtain ⟨tail, rfl⟩ : ∃ tail, text = '.' :: tail := by
    simp only [readOctet, readSeparator, one_ne_zero, if_false] at hsecond
    cases text with
    | nil => cases hsecond
    | cons c tail =>
      simp only at hsecond
      split at hsecond
      next hc => exact ⟨tail, by rw [hc]⟩
      next => cases hsecond
  obtain ⟨octet, hoctet⟩ : ∃ octet, readNumber 10 3 256 false (digits ++ rest) =
      some (octet, '.' :: tail) := by
    simp only [readOctet, readSeparator, if_true, Option.map_eq_some_iff, Prod.mk.injEq] at hfirst
    obtain ⟨⟨octet, text⟩, hread, -, rfl⟩ := hfirst
    exact ⟨octet, hread⟩
  obtain ⟨digits', heq, hdigits'⟩ := readNumber_split hoctet
  have hleft : (digits ++ rest).dropWhile (fun c => (toDigit 16 c).isSome) = rest := by
    rw [List.dropWhile_append_of_pos hdigits]
    cases rest with
    | nil => rfl
    | cons c text =>
      rw [List.dropWhile_cons_of_neg]
      simp [hrest.noDigit c rfl]
  have hright : (digits' ++ '.' :: tail).dropWhile (fun c => (toDigit 16 c).isSome) =
      '.' :: tail := by
    rw [List.dropWhile_append_of_pos fun c hc =>
      isSome_toDigit_of_le (by decide) (hdigits' c hc)]
    exact List.dropWhile_cons_of_neg (by decide)
  rw [heq, hright] at hleft
  have hcolon : '.' = ':' := hrest '.' (by rw [← hleft]; rfl)
  exact absurd hcolon (by decide)

/-- `{:x}` of a group. -/
def hex (group : UInt16) : Str := Nat.toDigits 16 group.toNat

theorem readIpv4Addr_hex (group : UInt16) {rest : Str} (hrest : Parted rest) :
    readIpv4Addr (hex group ++ rest) = none :=
  readIpv4Addr_eq_none (fun _ => isSome_toDigit_of_mem_toDigits (by decide) (by decide)) hrest

theorem readNumber_hex (group : UInt16) {rest : Str} (hrest : Parted rest) :
    readNumber 16 4 (2 ^ 16) true (hex group ++ rest) = some (group.toNat, rest) := by
  have hlt : group.toNat < 2 ^ 16 := group.toNat_lt
  refine readNumber_toDigits (by decide) (by decide) hlt ?_ hrest.noDigit true
  exact (Nat.length_toDigits_le_iff (by decide) (by decide)).mpr (by omega)

/-- The text of the next part, with a colon in front unless it is the first one. -/
def separated (groups : List UInt16) (text : Str) : Str :=
  if groups.length = 0 then text else ':' :: text

theorem readSeparator_separated {α : Type} (groups : List UInt16) (text : Str)
    (inner : Str → Option (α × Str)) :
    readSeparator ':' groups.length inner (separated groups text) = inner text := by
  unfold readSeparator separated
  split
  · rfl
  · simp

theorem readGroups_hex (room : Nat) (groups : List UInt16) (group : UInt16) {rest : Str}
    (hrest : Parted rest) :
    readGroups (room + 1) groups (separated groups (hex group ++ rest)) =
      readGroups room (groups ++ [group]) rest := by
  simp only [readGroups, readSeparator_separated, readIpv4Addr_hex group hrest,
    readNumber_hex group hrest, ite_self, Nat.toUInt16_eq, UInt16.ofNat_toNat]

/-- The groups after the first one. -/
def colonHex (chunk : List UInt16) : Str := chunk.flatMap fun group => ':' :: hex group

theorem parted_colonHex_append (chunk : List UInt16) {rest : Str} (hrest : Parted rest) :
    Parted (colonHex chunk ++ rest) := by
  cases chunk with
  | nil => exact hrest
  | cons group chunk => exact parted_colon _

theorem readGroups_colonHex {chunk : List UInt16} {rest : Str} (hrest : Parted rest) {room : Nat}
    (hroom : chunk.length ≤ room) {groups : List UInt16} (hgroups : groups ≠ []) :
    readGroups room groups (colonHex chunk ++ rest) =
      readGroups (room - chunk.length) (groups ++ chunk) rest := by
  induction chunk generalizing room groups with
  | nil => simp [colonHex]
  | cons group chunk ih =>
    obtain ⟨room, rfl⟩ : ∃ room', room = room' + 1 :=
      ⟨room - 1, by rw [List.length_cons] at hroom; omega⟩
    have htext : colonHex (group :: chunk) ++ rest =
        separated groups (hex group ++ (colonHex chunk ++ rest)) := by
      rw [separated, if_neg (by simpa using hgroups)]
      simp [colonHex]
    rw [htext, readGroups_hex room groups group (parted_colonHex_append chunk hrest),
      ih (by simpa using hroom) (by simp)]
    simp

theorem fmtSubslice_cons (group : UInt16) (chunk : List UInt16) :
    fmtSubslice (group :: chunk) = hex group ++ colonHex chunk := by
  induction chunk generalizing group with
  | nil => simp [fmtSubslice, colonHex, hex, List.intercalate]
  | cons group' chunk ih =>
    have hcons : fmtSubslice (group :: group' :: chunk) =
        hex group ++ ':' :: fmtSubslice (group' :: chunk) := by
      simp [fmtSubslice, hex, List.intercalate]
    rw [hcons, ih group']
    simp [colonHex]

/-- The groups that `fmt_subslice` has written are read one after the other. -/
theorem readGroups_fmtSubslice (chunk : List UInt16) {rest : Str} (hrest : Parted rest) {room : Nat}
    (hroom : chunk.length ≤ room) :
    readGroups room [] (fmtSubslice chunk ++ rest) =
      readGroups (room - chunk.length) chunk rest := by
  cases chunk with
  | nil => simp [fmtSubslice, List.intercalate]
  | cons group chunk =>
    obtain ⟨room, rfl⟩ : ∃ room', room = room' + 1 :=
      ⟨room - 1, by rw [List.length_cons] at hroom; omega⟩
    have hfirst := readGroups_hex room [] group (parted_colonHex_append chunk hrest)
    rw [separated, List.length_nil, if_pos rfl, List.nil_append] at hfirst
    rw [fmtSubslice_cons, List.append_assoc, hfirst,
      readGroups_colonHex hrest (by simpa using hroom) (by simp)]
    simp

/-- The reader stops at the end of the text and at a double colon. -/
def Stop (text : Str) : Prop := text = [] ∨ ∃ tail, text = ':' :: ':' :: tail

theorem Stop.parted {text : Str} (h : Stop text) : Parted text := by
  rcases h with rfl | ⟨tail, rfl⟩
  · exact parted_nil
  · exact parted_colon _

theorem readGroups_stop (room : Nat) (groups : List UInt16) {rest : Str} (hrest : Stop rest) :
    readGroups room groups rest = ⟨groups, false, rest⟩ := by
  have hnone : ∀ text : Str, Parted text → readIpv4Addr text = none ∧
      readNumber 16 4 (2 ^ 16) true text = none := fun text htext =>
    ⟨readIpv4Addr_eq_none (List.forall_mem_nil _) htext,
      readNumber_of_noDigit htext.noDigit true⟩
  -- Behind a separator there is another colon, or there is no separator at all.
  have hsep : readSeparator ':' groups.length readIpv4Addr rest = none ∧
      readSeparator ':' groups.length (readNumber 16 4 (2 ^ 16) true) rest = none := by
    unfold readSeparator
    split
    · exact hnone rest hrest.parted
    · rcases hrest with rfl | ⟨tail, rfl⟩
      · exact ⟨rfl, rfl⟩
      · simpa using hnone (':' :: tail) (parted_colon tail)
  cases room with
  | zero => rfl
  | succ room => simp only [readGroups, hsep, ite_self]

/-! ## Octets and groups -/

/-- A group of two octets. -/
def group (a b : UInt8) : UInt16 := a.toUInt16 <<< 8 ||| b.toUInt16

theorem toNat_group (a b : UInt8) : (group a b).toNat = a.toNat * 2 ^ 8 + b.toNat := by
  have ha : a.toNat < 2 ^ 8 := a.toNat_lt
  have hb : b.toNat < 2 ^ 8 := b.toNat_lt
  have hshift : a.toNat <<< 8 < 2 ^ 16 := by
    rw [Nat.shiftLeft_eq]
    omega
  rw [← Bits.shiftLeft_or _ hb, group, UInt16.toNat_or, UInt16.toNat_shiftLeft]
  simp only [UInt8.toNat_toUInt16]
  rw [show UInt16.toNat 8 % 16 = 8 from rfl, Nat.mod_eq_of_lt hshift]

theorem toBeBytes_group (a b : UInt8) : toBeBytes (group a b) = [a, b] := by
  have hb : b.toNat < 2 ^ 8 := b.toNat_lt
  have hdiv : (a.toNat * 2 ^ 8 + b.toNat) / 256 = a.toNat := by omega
  have hmod : (a.toNat * 2 ^ 8 + b.toNat) % 256 = b.toNat := by omega
  rw [toBeBytes, toNat_group, hdiv, hmod]
  simp

/-- The groups of an address determine it. -/
theorem octets_segments (o : Vector UInt8 16) : octets (segments o) = o := by
  have hsegments : segments o =
      List.ofFn fun i : Fin 8 => group o[2 * i.val] o[2 * i.val + 1] := rfl
  have hbytes : (segments o).flatMap toBeBytes = [o[0], o[1], o[2], o[3], o[4], o[5], o[6], o[7],
      o[8], o[9], o[10], o[11], o[12], o[13], o[14], o[15]] := by
    rw [hsegments]
    simp only [List.ofFn_succ, List.ofFn_zero, List.flatMap_cons, toBeBytes_group]
    rfl
  ext i hi
  rw [octets, Vector.getElem_ofFn, hbytes]
  interval_cases i <;> rfl

/-! ## The longest run of zeroes -/

namespace Span

/-- The span is a run of zero groups. -/
def Zeroes (segs : List UInt16) (span : Span) : Prop :=
  ∀ i, span.start ≤ i → i < span.start + span.len → segs[i]? = some 0

theorem zeroes_empty (segs : List UInt16) (start : Nat) : Zeroes segs ⟨start, 0⟩ := by
  intro i (hi : start ≤ i) (hi' : i < start + 0)
  omega

/-- A run of zeroes that is not empty can be cut out and put in again. -/
theorem Zeroes.splice {segs : List UInt16} {span : Span} (h : span.Zeroes segs)
    (hlen : 0 < span.len) :
    span.start + span.len ≤ segs.length ∧
      segs.take span.start ++ List.replicate span.len 0 ++ segs.drop (span.start + span.len) =
        segs := by
  have hend : span.start + span.len ≤ segs.length := by
    obtain ⟨hlt, -⟩ := List.getElem?_eq_some_iff.mp
      (h (span.start + span.len - 1) (by omega) (by omega))
    omega
  have hmiddle : (segs.drop span.start).take span.len = List.replicate span.len 0 := by
    refine List.eq_replicate_iff.mpr ⟨by rw [List.length_take, List.length_drop]; omega, ?_⟩
    intro x hx
    obtain ⟨i, hi⟩ := List.getElem?_of_mem hx
    rw [List.getElem?_take] at hi
    split at hi
    · rw [List.getElem?_drop, h (span.start + i) (by omega) (by omega)] at hi
      exact (Option.some.inj hi).symm
    · cases hi
  refine ⟨hend, ?_⟩
  rw [← hmiddle, List.append_assoc, ← List.drop_drop, List.take_append_drop, List.take_append_drop]

end Span

/-- The loop goes over `rest`; `done` lies behind it. Both spans are runs of zeroes all the time,
and the current one, if it has begun, ends where the loop is. -/
theorem zeroes_longestZeroes {done rest : List UInt16} {longest current : Span}
    (hlongest : longest.Zeroes (done ++ rest)) (hcurrent : current.Zeroes (done ++ rest))
    (hends : current.len ≠ 0 → current.start + current.len = done.length) :
    (longestZeroes rest done.length longest current).Zeroes (done ++ rest) := by
  induction rest generalizing done longest current with
  | nil => exact hlongest
  | cons segment rest ih =>
    have happend : done ++ segment :: rest = (done ++ [segment]) ++ rest := by simp
    have hlength : (done ++ [segment]).length = done.length + 1 := by simp
    rw [happend] at hlongest hcurrent ⊢
    simp only [longestZeroes]
    rw [← hlength]
    split
    next hzero =>
      subst hzero
      have hnext : Span.Zeroes ((done ++ [0]) ++ rest)
          ⟨if current.len = 0 then done.length else current.start, current.len + 1⟩ := by
        intro i hi hi'
        simp only at hi hi'
        by_cases hlast : i = done.length
        · rw [hlast]
          simp
        · split at hi'
          · rename_i hempty
            rw [if_pos hempty] at hi
            omega
          · rename_i hbegun
            rw [if_neg hbegun] at hi
            have := hends hbegun
            exact hcurrent i hi (by omega)
      refine ih ?_ hnext ?_
      · split
        · exact hnext
        · exact hlongest
      · intro _
        simp only
        split
        · omega
        · rename_i hbegun
          have := hends hbegun
          omega
    next => exact ih hlongest (Span.zeroes_empty _ 0) (by simp)

/-! ## IPv6 -/

theorem length_segments (o : Vector UInt8 16) : (segments o).length = 8 := List.length_ofFn

/-- What the reader makes of a `::`, from what it reads on both sides of it. -/
theorem readIpv6Addr_doubleColon {text rest : Str} {head : List UInt16} {tail : Groups}
    (hhead : readGroups 8 [] text = ⟨head, false, ':' :: ':' :: rest⟩) (hlen : head.length ≠ 8)
    (htail : readGroups (7 - head.length) [] rest = tail) :
    readIpv6Addr text =
      some (head ++ List.replicate (8 - head.length - tail.groups.length) 0 ++ tail.groups,
        tail.rest) := by
  simp only [readIpv6Addr, hhead, if_neg hlen, htail, Bool.false_eq_true, if_false]

/-- The texts of `fmt_subslice` on both sides of a `::` that stands for at least one group. -/
theorem readIpv6Addr_compressed {head tail : List UInt16} (hlen : head.length + tail.length < 8) :
    readIpv6Addr (fmtSubslice head ++ ':' :: ':' :: fmtSubslice tail) =
      some (head ++ List.replicate (8 - head.length - tail.length) 0 ++ tail, []) := by
  have hstop : Stop (':' :: ':' :: fmtSubslice tail) := Or.inr ⟨_, rfl⟩
  have hhead : readGroups 8 [] (fmtSubslice head ++ ':' :: ':' :: fmtSubslice tail) =
      ⟨head, false, ':' :: ':' :: fmtSubslice tail⟩ := by
    rw [readGroups_fmtSubslice head hstop.parted (by omega), readGroups_stop _ _ hstop]
  have htail : readGroups (7 - head.length) [] (fmtSubslice tail) = ⟨tail, false, []⟩ := by
    have h := readGroups_fmtSubslice tail parted_nil (show tail.length ≤ 7 - head.length by omega)
    rwa [List.append_nil, readGroups_stop _ _ (Or.inl rfl)] at h
  exact readIpv6Addr_doubleColon hhead (by omega) htail

theorem readIpv6Addr_full {groups : List UInt16} (hlen : groups.length = 8) :
    readIpv6Addr (fmtSubslice groups) = some (groups, []) := by
  have hread := readGroups_fmtSubslice groups parted_nil hlen.le
  rw [List.append_nil, readGroups_stop _ _ (Or.inl rfl)] at hread
  simp only [readIpv6Addr, hread]
  rw [if_pos hlen]

/-- An IPv4 address in the place of the last two groups. -/
theorem readIpv6Addr_mapped (a b c d : UInt8) :
    readIpv6Addr ("::ffff:".toList ++ displayIpv4Addr a b c d) =
      some ([0, 0, 0, 0, 0, 0xffff, group a b, group c d], []) := by
  have hhead : readGroups 8 [] ("::ffff:".toList ++ displayIpv4Addr a b c d) =
      ⟨[], false, ':' :: ':' :: (hex 0xffff ++ ':' :: displayIpv4Addr a b c d)⟩ :=
    readGroups_stop 8 [] (Or.inr ⟨_, rfl⟩)
  have hv4 := readIpv4Addr_displayIpv4Addr a b c d (noDigit_nil 10)
  rw [List.append_nil] at hv4
  have hlast : readGroups 6 [0xffff] (separated [0xffff] (displayIpv4Addr a b c d)) =
      ⟨[0xffff, group a b, group c d], true, []⟩ := by
    simp only [readGroups, readSeparator_separated, hv4, Nat.zero_lt_succ, if_true]
    rfl
  have htail : readGroups 7 [] (hex 0xffff ++ ':' :: displayIpv4Addr a b c d) =
      ⟨[0xffff, group a b, group c d], true, []⟩ := by
    have hfirst := readGroups_hex 6 [] 0xffff (parted_colon (displayIpv4Addr a b c d))
    exact hfirst.trans hlast
  exact readIpv6Addr_doubleColon hhead (by decide) htail

/-- The eight groups of an address are read back from its text. -/
theorem readIpv6Addr_displayIpv6Addr (o : Vector UInt8 16) :
    readIpv6Addr (displayIpv6Addr o) = some (segments o, []) := by
  unfold displayIpv6Addr
  split
  next hmapped =>
    have htoList : o.toList = [o[0], o[1], o[2], o[3], o[4], o[5], o[6], o[7], o[8], o[9], o[10],
        o[11], o[12], o[13], o[14], o[15]] := by
      refine List.ext_getElem (by simp) fun i hi hi' => ?_
      simp only [List.length_cons, List.length_nil] at hi'
      interval_cases i <;> simp
    rw [readIpv6Addr_mapped]
    rw [htoList] at hmapped
    simp only [List.take_succ_cons, List.take_zero, List.cons.injEq, and_true] at hmapped
    obtain ⟨h0, h1, h2, h3, h4, h5, h6, h7, h8, h9, h10, h11⟩ := hmapped
    have hsegments : segments o = [group o[0] o[1], group o[2] o[3], group o[4] o[5],
        group o[6] o[7], group o[8] o[9], group o[10] o[11], group o[12] o[13],
        group o[14] o[15]] := rfl
    rw [hsegments, h0, h1, h2, h3, h4, h5, h6, h7, h8, h9, h10, h11]
    rfl
  next =>
    have hzeroes : (longestZeroes (segments o) 0 ⟨0, 0⟩ ⟨0, 0⟩).Zeroes (segments o) :=
      zeroes_longestZeroes (Span.zeroes_empty ([] ++ segments o) 0) (Span.zeroes_empty _ 0)
        (by simp)
    generalize longestZeroes (segments o) 0 ⟨0, 0⟩ ⟨0, 0⟩ = span at hzeroes
    simp only
    split
    next hlong =>
      obtain ⟨hend, hsplice⟩ := hzeroes.splice (by omega)
      have hlength := length_segments o
      rw [hlength] at hend
      have hhead : ((segments o).take span.start).length = span.start := by
        rw [List.length_take, hlength]
        omega
      have htail : ((segments o).drop (span.start + span.len)).length =
          8 - (span.start + span.len) := by
        rw [List.length_drop, hlength]
      have hgap : 8 - span.start - (8 - (span.start + span.len)) = span.len := by omega
      have hread := readIpv6Addr_compressed (show ((segments o).take span.start).length +
        ((segments o).drop (span.start + span.len)).length < 8 by omega)
      rw [hhead, htail, hgap, hsplice] at hread
      rw [List.append_assoc]
      exact hread
    next => exact readIpv6Addr_full (length_segments o)

/-- The text of an IPv6 address is not taken for an IPv4 address. -/
theorem readIpv4Addr_displayIpv6Addr (o : Vector UInt8 16) :
    readIpv4Addr (displayIpv6Addr o) = none := by
  have hgroups : ∀ (chunk : List UInt16) {rest : Str}, Parted rest →
      readIpv4Addr (fmtSubslice chunk ++ rest) = none := by
    intro chunk rest hrest
    cases chunk with
    | nil => exact readIpv4Addr_eq_none (List.forall_mem_nil _) hrest
    | cons group chunk =>
      rw [fmtSubslice_cons, List.append_assoc]
      exact readIpv4Addr_hex group (parted_colonHex_append chunk hrest)
  unfold displayIpv6Addr
  split
  next => exact hgroups [] (parted_colon (":ffff:".toList ++ _))
  next =>
    simp only
    split
    next =>
      rw [List.append_assoc]
      exact hgroups _ (parted_colon _)
    next =>
      have h := hgroups (segments o) parted_nil
      rwa [List.append_nil] at h

end IpText

open IpText

/-- An IPv4 address is parsed from its text. -/
theorem parseIpv4Addr_displayIpv4Addr (a b c d : UInt8) :
    parseIpv4Addr (displayIpv4Addr a b c d) = some (a, b, c, d) := by
  have hread := readIpv4Addr_displayIpv4Addr a b c d (noDigit_nil 10)
  rw [List.append_nil] at hread
  rw [parseIpv4Addr, if_neg (Nat.not_lt.mpr (length_asBytes_displayIpv4Addr a b c d)), hread]

example : parseIpv4Addr "10.0.1.255".toList = some (10, 0, 1, 255) := by decide +kernel

example : parseIpv4Addr "10.0.01.2".toList = none ∧ parseIpv4Addr "10.0.1.256".toList = none := by
  decide +kernel

/-- An IPv6 address is parsed from its text. -/
theorem parseIpv6Addr_displayIpv6Addr (o : Vector UInt8 16) :
    parseIpv6Addr (displayIpv6Addr o) = some o := by
  rw [parseIpv6Addr, readIpv6Addr_displayIpv6Addr]
  exact congrArg some (octets_segments o)

example : parseIpv6Addr "2001:db8::a".toList =
    some #v[0x20, 1, 0xd, 0xb8, 0, 0, 0, 0, 0, 0, 0, 0, 0, 0, 0, 0xa] := by
  decide +kernel

example : parseIpv6Addr "::ffff:10.0.1.2".toList =
    some #v[0, 0, 0, 0, 0, 0, 0, 0, 0, 0, 0xff, 0xff, 10, 0, 1, 2] := by
  decide +kernel

example : displayIpv6Addr #v[0x20, 1, 0, 0, 0, 0, 0, 1, 0, 0, 0, 0, 0, 0, 0, 0xa] =
    "2001:0:0:1::a".toList := by
  decide +kernel

end Rauta
