import Rauta.Filters

/-!
# Headers and URIs

What the proxy uses of the `http` crate. A value of a type of the crate keeps what the crate checks
when it is made: a header name is in lower case, the path of a URI has no question mark in it, a
host has no port. The checks themselves are left open (`HttpCrate`).

A text that comes from outside is a list of characters also where the crate has bytes.
-/

namespace Rauta

/-! ## Characters -/

/-- The characters that a `HeaderValue` may have. -/
def isHeaderChar (c : Char) : Bool := (32 ≤ c.toNat && c.toNat ≠ 127) || c == '\t'

/-- The characters that `HeaderValue::to_str` accepts. -/
def isVisibleAscii (c : Char) : Bool := (32 ≤ c.toNat && c.toNat < 127) || c == '\t'

theorem isHeaderChar_of_isVisibleAscii {c : Char} (h : isVisibleAscii c = true) :
    isHeaderChar c = true := by
  simp only [isVisibleAscii, isHeaderChar, Bool.or_eq_true, Bool.and_eq_true, decide_eq_true_eq]
    at h ⊢
  exact h.imp_left fun h => ⟨h.1, by omega⟩

/-! ## Headers -/

/-- `HeaderMap`: names with values. A name can have several. -/
structure HeaderMap where
  entries : List (Str × Str)
  lowercase : ∀ e ∈ entries, e.1.map Char.toLower = e.1

namespace HeaderMap

/-- `get`: the first value of a name. -/
def get (headers : HeaderMap) (name : Str) : Option Str :=
  (headers.entries.find? fun e => e.1 = name).map Prod.snd

/-- The headers whose name passes a test. -/
def filter (headers : HeaderMap) (keep : Str → Bool) : HeaderMap where
  entries := headers.entries.filter fun e => keep e.1
  lowercase e he := headers.lowercase e (List.mem_filter.mp he).1

/-- `header("Host", value)`. -/
def withHost (headers : HeaderMap) (value : Str) : HeaderMap where
  entries := headers.entries ++ [("host".toList, value)]
  lowercase e he := by
    rcases List.mem_append.mp he with he | he
    · exact headers.lowercase e he
    · have hname : "host".toList.map Char.toLower = "host".toList := by decide
      obtain rfl := List.mem_singleton.mp he
      exact hname

/-- No headers. -/
def empty : HeaderMap := ⟨[], by simp⟩

/-- There is a header whose name passes a test. -/
def Has (headers : HeaderMap) (test : Str → Bool) : Prop := ∃ e ∈ headers.entries, test e.1 = true

theorem entries_filter (headers : HeaderMap) (keep : Str → Bool) :
    (headers.filter keep).entries = headers.entries.filter fun e => keep e.1 := rfl

theorem entries_withHost (headers : HeaderMap) (value : Str) :
    (headers.withHost value).entries = headers.entries ++ [("host".toList, value)] := rfl

end HeaderMap

/-- The names of `is_hop_by_hop_header`. -/
def hopByHopHeaders : List Str :=
  ["connection".toList, "keep-alive".toList, "proxy-authenticate".toList,
    "proxy-authorization".toList, "te".toList, "trailer".toList, "transfer-encoding".toList,
    "upgrade".toList]

/-- `is_hop_by_hop_header`. -/
def isHopByHopHeader (name : Str) : Bool := hopByHopHeaders.any (eqIgnoreAsciiCase name)

/-! ## Names and values of headers -/

/-- `HeaderName`. The crate puts a name in lower case. -/
structure HeaderName where
  text : Str
  lowercase : text.map Char.toLower = text

/-- `HeaderValue`. -/
structure HeaderValue where
  text : Str

/-- The checks of the crate: `HeaderName::from_bytes` and `HeaderValue::from_str`. -/
structure HttpCrate where
  nameFromBytes : Str → Except Str HeaderName
  valueFromStr : Str → Except Str HeaderValue

/-- A letter or a hyphen. -/
def isNameChar (c : Char) : Bool := c.isAlpha || c == '-'

/-- What we use of the checks: a name is put in lower case, and a value is kept; neither has control
characters. The names that the proxy writes itself have letters and hyphens only. -/
structure HttpCrate.Lawful (H : HttpCrate) : Prop where
  name_text : ∀ {name n}, H.nameFromBytes name = .ok n → n.text = name.map Char.toLower
  name_legal : ∀ {name n}, H.nameFromBytes name = .ok n → ∀ c ∈ n.text, isHeaderChar c = true
  name_ok : ∀ {name}, name ≠ [] → name.length ≤ 64 → name.all isNameChar = true →
    ∃ n, H.nameFromBytes name = .ok n
  value_text : ∀ {value v}, H.valueFromStr value = .ok v → v.text = value
  value_ok_iff : ∀ {value}, (∃ v, H.valueFromStr value = .ok v) ↔
    ∀ c ∈ value, isHeaderChar c = true

theorem toNat_toLower_of_upper {c : Char} (h : 65 ≤ c.toNat ∧ c.toNat ≤ 90) :
    c.toLower.toNat = c.toNat + 32 := by
  have hupper : c.val ≥ 'A'.val ∧ c.val ≤ 'Z'.val := h
  have hle : c.val.toNat ≤ 90 := h.2
  have hlower : c.toLower.toNat = (c.val + 32).toNat := congrArg Char.toNat (dif_pos hupper)
  rw [hlower, UInt32.toNat_add]
  show (c.val.toNat + 32) % 2 ^ 32 = c.val.toNat + 32
  omega

theorem toLower_of_not_upper {c : Char} (h : ¬ (65 ≤ c.toNat ∧ c.toNat ≤ 90)) : c.toLower = c :=
  dif_neg h

theorem toLower_toLower (c : Char) : c.toLower.toLower = c.toLower := by
  by_cases hupper : 65 ≤ c.toNat ∧ c.toNat ≤ 90
  · apply toLower_of_not_upper
    rw [toNat_toLower_of_upper hupper]
    omega
  · rw [toLower_of_not_upper hupper, toLower_of_not_upper hupper]

theorem isHeaderChar_of_le {c : Char} (h : 32 ≤ c.toNat ∧ c.toNat ≤ 126) :
    isHeaderChar c = true := by
  simp [isHeaderChar]
  omega

theorem isHeaderChar_toLower_of_isNameChar {c : Char} (h : isNameChar c = true) :
    isHeaderChar c.toLower = true := by
  by_cases hupper : 65 ≤ c.toNat ∧ c.toNat ≤ 90
  · have hlower := toNat_toLower_of_upper hupper
    exact isHeaderChar_of_le (by omega)
  · rw [toLower_of_not_upper hupper]
    change (decide (c.val ≥ 'A'.val ∧ c.val ≤ 'Z'.val) ||
      (decide (c.val ≥ 'a'.val) && decide (c.val ≤ 'z'.val)) || c == '-') = true at h
    simp only [Bool.or_eq_true, Bool.and_eq_true, decide_eq_true_eq, beq_iff_eq] at h
    rcases h with (h | h) | rfl
    · exact absurd h hupper
    · have hrange : 97 ≤ c.toNat ∧ c.toNat ≤ 122 := h
      exact isHeaderChar_of_le (by omega)
    · rfl

/-- A crate that accepts no other names. -/
def HttpCrate.strict : HttpCrate where
  nameFromBytes name :=
    if name ≠ [] ∧ name.all isNameChar = true then
      .ok
        { text := name.map Char.toLower
          lowercase := by
            rw [List.map_map]
            exact List.map_congr_left fun c _ => toLower_toLower c }
    else .error "invalid HTTP header name".toList
  valueFromStr value :=
    if value.all isHeaderChar = true then .ok ⟨value⟩
    else .error "failed to parse header value".toList

theorem HttpCrate.strict_lawful : HttpCrate.strict.Lawful where
  name_text {name n} h := by
    simp only [strict] at h
    split at h
    · cases h
      rfl
    · cases h
  name_legal {name n} h := by
    simp only [strict] at h
    split at h
    · next hok =>
      cases h
      intro c hc
      obtain ⟨c', hc', rfl⟩ := List.mem_map.mp hc
      exact isHeaderChar_toLower_of_isNameChar (List.all_eq_true.mp hok.2 c' hc')
    · cases h
  name_ok {name} hne _ hall := ⟨_, if_pos ⟨hne, hall⟩⟩
  value_text {value v} h := by
    simp only [strict] at h
    split at h
    · cases h
      rfl
    · cases h
  value_ok_iff {value} := by
    simp only [strict]
    split
    · next hall => exact iff_of_true ⟨_, rfl⟩ (List.all_eq_true.mp hall)
    · next hall => exact iff_of_false (by simp) fun h => hall (List.all_eq_true.mpr h)

/-! ## URIs -/

/-- A host without a port: a name, an IPv4 address, or an IPv6 address in brackets. -/
def Portless (host : Str) : Prop := ':' ∉ host ∨ ∃ inner, host = '[' :: inner ++ [']']

/-- A host as it stands in a URI or a `Host` header. -/
structure Host where
  text : Str
  portless : Portless text
  visible : ∀ c ∈ text, isVisibleAscii c = true

/-- `Authority`. Of the port we keep what `port_u16` makes of it. -/
structure Authority where
  host : Host
  port : Option UInt16

/-- `Scheme`. -/
structure Scheme where
  text : Str
  visible : ∀ c ∈ text, isVisibleAscii c = true

/-- `PathAndQuery`, cut at the first question mark. -/
structure PathAndQuery where
  rawPath : Str
  query : Option Str
  legal : ∀ c ∈ rawPath, c ≠ '?' ∧ isHeaderChar c = true

namespace PathAndQuery

/-- `path`. -/
def path (target : PathAndQuery) : Str :=
  if target.rawPath = [] then "/".toList else target.rawPath

/-- `as_str`. -/
def asStr (target : PathAndQuery) : Str :=
  match target.rawPath, target.query with
  | [], none => "/".toList
  | path, query => path ++ (query.map ('?' :: ·)).getD []

/-- The legal characters, as a test. -/
theorem legal_of_all {text : Str} (h : (text.all fun c => c != '?' && isHeaderChar c) = true) :
    ∀ c ∈ text, c ≠ '?' ∧ isHeaderChar c = true := by
  intro c hc
  have hchar := List.all_eq_true.mp h c hc
  rwa [Bool.and_eq_true, bne_iff_ne] at hchar

/-- The path `/`. -/
def root : PathAndQuery := ⟨"/".toList, none, legal_of_all rfl⟩

theorem legal_path (target : PathAndQuery) :
    ∀ c ∈ target.path, c ≠ '?' ∧ isHeaderChar c = true := by
  unfold path
  split
  · exact root.legal
  · exact target.legal

end PathAndQuery

/-- `Uri`: the target of a request in its three forms. -/
inductive Uri where
  | origin (target : PathAndQuery)
  | absolute (scheme : Scheme) (authority : Authority) (target : PathAndQuery)
  | authority (authority : Authority)

namespace Uri

/-- `scheme_str`. -/
def schemeStr : Uri → Option Str
  | .absolute scheme _ _ => some scheme.text
  | _ => none

/-- The authority, if there is one. -/
def authorityPart : Uri → Option Authority
  | .origin _ => none
  | .absolute _ a _ => some a
  | .authority a => some a

/-- `host`. -/
def host (uri : Uri) : Option Str := uri.authorityPart.map (·.host.text)

/-- `port_u16`. -/
def portU16 (uri : Uri) : Option UInt16 := uri.authorityPart.bind (·.port)

/-- `path_and_query`. -/
def pathAndQuery : Uri → Option PathAndQuery
  | .origin target => some target
  | .absolute _ _ target => some target
  | .authority _ => none

/-- `path`. -/
def path (uri : Uri) : Str := (uri.pathAndQuery.map (·.path)).getD []

/-- `query`. -/
def query (uri : Uri) : Option Str := uri.pathAndQuery.bind (·.query)

theorem visible_schemeStr (uri : Uri) :
    ∀ scheme, uri.schemeStr = some scheme → ∀ c ∈ scheme, isVisibleAscii c = true := by
  intro text htext
  cases uri with
  | origin target => cases htext
  | absolute scheme a target =>
      cases htext
      exact scheme.visible
  | authority a => cases htext

theorem visible_host (uri : Uri) :
    ∀ host, uri.host = some host → ∀ c ∈ host, isVisibleAscii c = true := by
  intro text htext
  obtain ⟨a, -, rfl⟩ := Option.map_eq_some_iff.mp htext
  exact a.host.visible

theorem portless_host (uri : Uri) : ∀ host, uri.host = some host → Portless host := by
  intro text htext
  obtain ⟨a, -, rfl⟩ := Option.map_eq_some_iff.mp htext
  exact a.host.portless

theorem legal_path (uri : Uri) : ∀ c ∈ uri.path, c ≠ '?' ∧ isHeaderChar c = true := by
  unfold path
  cases uri.pathAndQuery with
  | none => simp
  | some target => exact target.legal_path

end Uri

end Rauta
