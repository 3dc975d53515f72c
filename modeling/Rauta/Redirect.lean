import Rauta.Http

/-!
# Redirects

`build_redirect_response` puts a `Location` together from the redirect filter and the request. The
host and the port are looked for separately: the filter first, then the URI, and for the host at
last the `Host` header, which it takes with its port. The query is not looked for at all.

Of the three ways in which this goes wrong, two are about the `Host` header of a request in origin
form: with a port of the filter there are two ports, and with a hostname of the filter the port of
the request is lost. The third one is any query.
-/

namespace Rauta

/-! ## The function -/

/-- A redirect response. -/
structure RedirectResponse where
  status : Nat
  location : Str

/-- The code of a redirect status. -/
def RedirectStatusCode.code : RedirectStatusCode → Nat
  | .movedPermanently => 301
  | .found => 302

/-- `HeaderValue::to_str`. -/
def toStr (value : Str) : Option Str := if value.all isVisibleAscii then some value else none

/-- `:` and a port, or nothing. -/
def portSuffix (port : Option Str) : Str := (port.map (':' :: ·)).getD []

/-- `build_redirect_response`. -/
def buildRedirectResponse (H : HttpCrate) (uri : Uri) (headers : HeaderMap)
    (redirect : RequestRedirect) : Except ProxyError RedirectResponse :=
  let scheme := (redirect.scheme.or uri.schemeStr).getD "http".toList
  match (redirect.hostname.or uri.host).or ((headers.get "host".toList).bind toStr) with
  | none => .error (.backendError "Cannot determine redirect host".toList)
  | some host =>
    let port := portSuffix ((redirect.port.or uri.portU16).map fun p => decimal p.toNat)
    let path := redirect.path.getD uri.path
    let location := scheme ++ "://".toList ++ host ++ port ++ path
    match H.valueFromStr location with
    | .ok value => .ok ⟨redirect.statusCode.code, value.text⟩
    | .error e => .error (.backendError ("Failed to build redirect response: ".toList ++ e))

/-! ## What it should build -/

/-- A `Host` header of the form `host` or `host:port`. -/
structure HostHeader where
  host : Host
  port : Option Str
  digits : ∀ p, port = some p → ∀ c ∈ p, c.isDigit = true

/-- The header as text. -/
def HostHeader.text (header : HostHeader) : Str := header.host.text ++ portSuffix header.port

/-- The parts of a location. -/
structure Location where
  scheme : Str
  host : Str
  port : Option Str
  path : Str
  query : Option Str

/-- `scheme://host[:port]path[?query]`. -/
def Location.text (l : Location) : Str :=
  l.scheme ++ "://".toList ++ l.host ++ portSuffix l.port ++ l.path ++
    (l.query.map ('?' :: ·)).getD []

section Redirect

variable (uri : Uri) (header : HostHeader) (redirect : RequestRedirect)

/-- The port of the request: that of its URI, or of the `Host` header if the URI names no host. -/
def ownPort : Option Str :=
  match uri.authorityPart with
  | some a => a.port.map fun p => decimal p.toNat
  | none => header.port

/-- Where a redirect without a path leads: what the filter does not say is as in the request. -/
def redirectTarget : Location where
  scheme := (redirect.scheme.or uri.schemeStr).getD "http".toList
  host := (redirect.hostname.or uri.host).getD header.host.text
  port := (redirect.port.map fun p => decimal p.toNat).or (ownPort uri header)
  path := uri.path
  query := uri.query

/-- The location is that target, with its port or without. -/
def WellFormedLocation (location : Str) : Prop :=
  Portless (redirectTarget uri header redirect).host ∧
    ∃ port, (port = none ∨ port = (redirectTarget uri header redirect).port) ∧
      location = { redirectTarget uri header redirect with port := port }.text

/-- The location is that target. -/
def CompleteLocation (location : Str) : Prop :=
  Portless (redirectTarget uri header redirect).host ∧
    location = (redirectTarget uri header redirect).text

/-- The filter's texts can stand in a header. -/
def RequestRedirect.Sendable : Prop :=
  (∀ scheme, redirect.scheme = some scheme → ∀ c ∈ scheme, isHeaderChar c = true) ∧
    ∀ hostname, redirect.hostname = some hostname → ∀ c ∈ hostname, isHeaderChar c = true

/-- There is no query, and the `Host` header is not used with its port beside a port of the
filter. -/
def RedirectFits : Prop :=
  uri.query = none ∧ (uri.host ≠ none ∨ redirect.hostname ≠ none ∨ header.port = none ∨
    redirect.port = none)

/-- The `Host` header is not left out with a port that is still needed. -/
def RedirectKeepsPort : Prop :=
  uri.host ≠ none ∨ redirect.hostname = none ∨ header.port = none ∨ redirect.port ≠ none

/-! ## What it does build -/

/-- The ports, as they are written behind the host. -/
def builtPorts : Str :=
  portSuffix (if redirect.hostname.or uri.host = none then header.port else none) ++
    portSuffix ((redirect.port.or uri.portU16).map fun p => decimal p.toNat)

/-- The location that is built. -/
def builtLocation : Str :=
  (redirectTarget uri header redirect).scheme ++ "://".toList ++
    (redirectTarget uri header redirect).host ++ builtPorts uri header redirect ++ uri.path

variable {uri header redirect} {H : HttpCrate} {headers : HeaderMap}

/-- A colon or a digit. -/
def isPortChar (c : Char) : Bool := c == ':' || c.isDigit

theorem isPortChar_of_mem_portSuffix {port : Option Str}
    (hport : ∀ p, port = some p → ∀ c ∈ p, c.isDigit = true) :
    ∀ c ∈ portSuffix port, isPortChar c = true := by
  cases port with
  | none => simp [portSuffix]
  | some p =>
      intro c hc
      rcases List.mem_cons.mp hc with rfl | hc
      · rfl
      · simp [isPortChar, hport p rfl c hc]

theorem isPortChar_of_mem_builtPorts :
    ∀ c ∈ builtPorts uri header redirect, isPortChar c = true := by
  intro c hc
  rcases List.mem_append.mp hc with hc | hc
  · refine isPortChar_of_mem_portSuffix (fun p hp => ?_) c hc
    split at hp
    · exact header.digits p hp
    · cases hp
  · refine isPortChar_of_mem_portSuffix (fun p hp => ?_) c hc
    obtain ⟨n, -, rfl⟩ := Option.map_eq_some_iff.mp hp
    exact fun c hc => Nat.isDigit_of_mem_toDigits (by decide) (by decide) hc

theorem toNat_of_isPortChar {c : Char} (h : isPortChar c = true) : 48 ≤ c.toNat ∧ c.toNat ≤ 58 := by
  simp only [isPortChar, Bool.or_eq_true, beq_iff_eq, Char.isDigit, Bool.and_eq_true,
    decide_eq_true_eq] at h
  rcases h with rfl | ⟨hlow, hhigh⟩
  · decide
  · exact ⟨hlow, Nat.le_succ_of_le hhigh⟩

theorem isVisibleAscii_of_isPortChar {c : Char} (h : isPortChar c = true) :
    isVisibleAscii c = true := by
  have hrange := toNat_of_isPortChar h
  simp only [isVisibleAscii, Bool.or_eq_true, Bool.and_eq_true, decide_eq_true_eq]
  exact .inl ⟨by omega, by omega⟩

theorem ne_question_of_isPortChar {c : Char} (h : isPortChar c = true) : c ≠ '?' := by
  rintro rfl
  exact absurd h (by decide)

theorem toStr_text (header : HostHeader) : toStr header.text = some header.text := by
  have hvisible : header.text.all isVisibleAscii = true := by
    rw [List.all_eq_true]
    intro c hc
    rcases List.mem_append.mp hc with hc | hc
    · exact header.host.visible c hc
    · exact isVisibleAscii_of_isPortChar (isPortChar_of_mem_portSuffix header.digits c hc)
  rw [toStr, if_pos hvisible]

/-- What `build_redirect_response` returns. -/
theorem buildRedirectResponse_eq_ok_iff (hH : H.Lawful)
    (hhost : headers.get "host".toList = some header.text) (hpath : redirect.path = none)
    {r : RedirectResponse} :
    buildRedirectResponse H uri headers redirect = .ok r ↔
      (builtLocation uri header redirect).all isHeaderChar = true ∧
        r = ⟨redirect.statusCode.code, builtLocation uri header redirect⟩ := by
  have hhead : ∃ host, (redirect.hostname.or uri.host).or
      ((headers.get "host".toList).bind toStr) = some host ∧
      host ++ portSuffix ((redirect.port.or uri.portU16).map fun p => decimal p.toNat) =
        (redirectTarget uri header redirect).host ++ builtPorts uri header redirect := by
    rw [hhost, Option.bind_some, toStr_text]
    cases hname : redirect.hostname.or uri.host with
    | none => exact ⟨_, rfl, by simp [redirectTarget, builtPorts, hname, HostHeader.text]⟩
    | some name => exact ⟨_, rfl, by simp [redirectTarget, builtPorts, hname, portSuffix]⟩
  obtain ⟨host, hhost, htext⟩ := hhead
  have hlocation : (redirect.scheme.or uri.schemeStr).getD "http".toList ++ "://".toList ++ host ++
      portSuffix ((redirect.port.or uri.portU16).map fun p => decimal p.toNat) ++
        redirect.path.getD uri.path = builtLocation uri header redirect := by
    rw [hpath, List.append_assoc _ host, htext, ← List.append_assoc]
    rfl
  simp only [buildRedirectResponse, hhost, hlocation, List.all_eq_true, ← hH.value_ok_iff]
  cases hvalue : H.valueFromStr (builtLocation uri header redirect) with
  | ok value => simp [hH.value_text hvalue, eq_comm]
  | error e => simp

/-- Of a text with two fallbacks, only the first choice can be bad. -/
theorem all_getD_or {given own : Option Str} {last : Str}
    (hown : ∀ text, own = some text → ∀ c ∈ text, isVisibleAscii c = true)
    (hlast : ∀ c ∈ last, isVisibleAscii c = true) :
    ((given.or own).getD last).all isHeaderChar = true ↔
      ∀ text, given = some text → ∀ c ∈ text, isHeaderChar c = true := by
  rw [List.all_eq_true]
  cases given with
  | some text => simp
  | none =>
      have hgood : ∀ c ∈ own.getD last, isHeaderChar c = true := by
        cases own with
        | none => exact fun c hc => isHeaderChar_of_isVisibleAscii (hlast c hc)
        | some text => exact fun c hc => isHeaderChar_of_isVisibleAscii (hown text rfl c hc)
      simpa using hgood

theorem all_builtLocation :
    (builtLocation uri header redirect).all isHeaderChar = true ↔ redirect.Sendable := by
  have hscheme : (redirectTarget uri header redirect).scheme.all isHeaderChar = true ↔ _ :=
    all_getD_or uri.visible_schemeStr (List.all_eq_true.mp rfl)
  have hhost : (redirectTarget uri header redirect).host.all isHeaderChar = true ↔ _ :=
    all_getD_or uri.visible_host header.host.visible
  have hcolon : "://".toList.all isHeaderChar = true := by decide
  have hports : (builtPorts uri header redirect).all isHeaderChar = true :=
    List.all_eq_true.mpr fun c hc => isHeaderChar_of_isVisibleAscii
      (isVisibleAscii_of_isPortChar (isPortChar_of_mem_builtPorts c hc))
  have hpath : uri.path.all isHeaderChar = true :=
    List.all_eq_true.mpr fun c hc => (uri.legal_path c hc).2
  simp only [builtLocation, List.all_append, Bool.and_eq_true, hscheme, hhost, hcolon, hports,
    hpath, and_true, RequestRedirect.Sendable]

/-- Behind the host, the built location has no question mark. -/
theorem builtLocation_eq_text_iff {port : Option Str} :
    builtLocation uri header redirect =
        { redirectTarget uri header redirect with port := port }.text ↔
      uri.query = none ∧ builtPorts uri header redirect = portSuffix port := by
  have hnone : '?' ∉ builtPorts uri header redirect ++ uri.path := by
    intro hc
    rcases List.mem_append.mp hc with hc | hc
    · exact ne_question_of_isPortChar (isPortChar_of_mem_builtPorts _ hc) rfl
    · exact (uri.legal_path _ hc).1 rfl
  simp only [builtLocation, Location.text, redirectTarget, List.append_assoc,
    List.append_cancel_left_eq]
  cases hquery : uri.query with
  | none => simp
  | some query =>
      simp only [Option.map_some, Option.getD_some, reduceCtorEq, false_and, iff_false]
      intro heq
      rw [heq] at hnone
      simp at hnone

theorem portless_redirectTarget
    (hname : ∀ hostname, redirect.hostname = some hostname → ':' ∉ hostname) :
    Portless (redirectTarget uri header redirect).host := by
  unfold redirectTarget
  cases hhostname : redirect.hostname with
  | some hostname => exact .inl (hname hostname hhostname)
  | none =>
      cases hhost : uri.host with
      | some host => exact uri.portless_host host hhost
      | none => exact header.host.portless

theorem append_colon_ne (p q : Str) : p ++ ':' :: q ≠ q := by
  intro heq
  have hlen := congrArg List.length heq
  simp only [List.length_append, List.length_cons] at hlen
  omega

/-- There are two ports if one comes with the `Host` header and one from the filter, -/
theorem builtPorts_eq_nil_or_iff :
    (builtPorts uri header redirect = [] ∨
      builtPorts uri header redirect = portSuffix (redirectTarget uri header redirect).port) ↔
    (uri.host ≠ none ∨ redirect.hostname ≠ none ∨ header.port = none ∨ redirect.port = none) := by
  -- over where the host and the ports can come from
  unfold builtPorts redirectTarget ownPort Uri.host Uri.portU16
  cases uri.authorityPart <;> cases redirect.hostname <;> cases redirect.port <;>
    cases header.port <;> simp [portSuffix, append_colon_ne]

/-- and otherwise there is the right one, unless it would come with the `Host` header and a hostname
of the filter takes its place. -/
theorem builtPorts_eq_iff :
    builtPorts uri header redirect = portSuffix (redirectTarget uri header redirect).port ↔
      (uri.host ≠ none ∨ redirect.hostname ≠ none ∨ header.port = none ∨ redirect.port = none) ∧
        RedirectKeepsPort uri header redirect := by
  unfold builtPorts redirectTarget ownPort RedirectKeepsPort Uri.host Uri.portU16
  cases uri.authorityPart <;> cases redirect.hostname <;> cases redirect.port <;>
    cases header.port <;> simp [portSuffix, append_colon_ne]

/-- **When a redirect leads where it should**: the location is well formed if and only if the
request fits, and keeps the port of the request if and only if it is not left out. -/
theorem location_iff (hH : H.Lawful) (hhost : headers.get "host".toList = some header.text)
    (hpath : redirect.path = none)
    (hname : ∀ hostname, redirect.hostname = some hostname → ':' ∉ hostname) :
    ((∀ r, buildRedirectResponse H uri headers redirect = .ok r →
        WellFormedLocation uri header redirect r.location) ↔
      (redirect.Sendable → RedirectFits uri header redirect)) ∧
    ((∀ r, buildRedirectResponse H uri headers redirect = .ok r →
        CompleteLocation uri header redirect r.location) ↔
      (redirect.Sendable →
        RedirectFits uri header redirect ∧ RedirectKeepsPort uri header redirect)) := by
  have hbuilt : ∀ P : Str → Prop, (∀ r, buildRedirectResponse H uri headers redirect = .ok r →
      P r.location) ↔ (redirect.Sendable → P (builtLocation uri header redirect)) := by
    intro P
    simp only [buildRedirectResponse_eq_ok_iff hH hhost hpath, all_builtLocation]
    constructor
    · intro h hsend
      exact h _ ⟨hsend, rfl⟩
    · rintro h r ⟨hsend, rfl⟩
      exact h hsend
  have hportless : Portless (redirectTarget uri header redirect).host :=
    portless_redirectTarget hname
  rw [hbuilt, hbuilt]
  refine ⟨imp_congr_right fun _ => ?_, imp_congr_right fun _ => ?_⟩
  · rw [RedirectFits, ← builtPorts_eq_nil_or_iff]
    simp only [WellFormedLocation, hportless, true_and, builtLocation_eq_text_iff]
    constructor
    · rintro ⟨port, rfl | rfl, hquery, hports⟩
      · exact ⟨hquery, .inl hports⟩
      · exact ⟨hquery, .inr hports⟩
    · rintro ⟨hquery, hports | hports⟩
      · exact ⟨none, .inl rfl, hquery, hports⟩
      · exact ⟨_, .inr rfl, hquery, hports⟩
  · have htext : builtLocation uri header redirect = (redirectTarget uri header redirect).text ↔
        uri.query = none ∧
          builtPorts uri header redirect = portSuffix (redirectTarget uri header redirect).port :=
      builtLocation_eq_text_iff
    rw [CompleteLocation, htext, builtPorts_eq_iff, RedirectFits, and_assoc]
    exact and_iff_right hportless

/-! ### Where redirects lead -/

/-- `Host: example.com:8080`. -/
def exampleHost : HostHeader where
  host := ⟨"example.com".toList, .inl (by decide), List.all_eq_true.mp rfl⟩
  port := some "8080".toList
  digits := by
    intro p hp
    cases hp
    exact List.all_eq_true.mp rfl

/-- The headers of a request to it. -/
def exampleHeaders : HeaderMap := HeaderMap.empty.withHost exampleHost.text

/-- A redirect to HTTPS. -/
def toHttps (hostname : Option Str) (port : Option UInt16) : RequestRedirect :=
  ⟨.movedPermanently, some "https".toList, hostname, port, none⟩

/-- The path `/search`, with a query or without. -/
def searchUri (query : Option Str) : Uri :=
  .origin ⟨"/search".toList, query, PathAndQuery.legal_of_all rfl⟩

/-- A redirect to HTTPS keeps the host and the port of the request. -/
theorem location_iff_search :
    exampleHeaders.get "host".toList = some exampleHost.text ∧
    ∃ r, buildRedirectResponse .strict (searchUri none) exampleHeaders (toHttps none none) = .ok r ∧
      r.location = "https://example.com:8080/search".toList ∧
      CompleteLocation (searchUri none) exampleHost (toHttps none none) r.location := by
  have hhost : exampleHeaders.get "host".toList = some exampleHost.text := by decide
  have hfits : RedirectFits (searchUri none) exampleHost (toHttps none none) ∧
      RedirectKeepsPort (searchUri none) exampleHost (toHttps none none) := by
    simp [RedirectFits, RedirectKeepsPort, searchUri, toHttps, Uri.query, Uri.pathAndQuery]
  have hall := (location_iff HttpCrate.strict_lawful hhost rfl (by simp [toHttps])).2.mpr
    fun _ => hfits
  exact ⟨hhost, ⟨301, "https://example.com:8080/search".toList⟩, rfl, rfl, hall _ rfl⟩

/-- **Where redirects lead instead**: to two ports, and to the path without the query. -/
theorem exists_bad_location :
    (∃ r, buildRedirectResponse .strict (searchUri none) exampleHeaders
        (toHttps none (some 443)) = .ok r ∧
      r.location = "https://example.com:8080:443/search".toList ∧
      ¬ WellFormedLocation (searchUri none) exampleHost (toHttps none (some 443)) r.location) ∧
    (∃ r, buildRedirectResponse .strict (searchUri (some "q=1".toList)) exampleHeaders
        (toHttps none none) = .ok r ∧
      r.location = "https://example.com:8080/search".toList ∧
      ¬ WellFormedLocation (searchUri (some "q=1".toList)) exampleHost (toHttps none none)
        r.location) := by
  constructor
  · refine ⟨⟨301, "https://example.com:8080:443/search".toList⟩, rfl, rfl, ?_⟩
    rintro ⟨-, port, rfl | rfl, htext⟩
    · exact absurd htext (by decide)
    · exact absurd htext (by decide)
  · refine ⟨⟨301, "https://example.com:8080/search".toList⟩, rfl, rfl, ?_⟩
    rintro ⟨-, port, rfl | rfl, htext⟩
    · exact absurd htext (by decide)
    · exact absurd htext (by decide)

end Redirect

end Rauta
