import Rauta.Common

/-!
# Route filters

What a route carries besides its backends: the Gateway API filters, timeouts and retry
configuration, and the header and query constraints of a match. Durations are in nanoseconds.
-/

namespace Rauta

/-! ## Filters -/

inductive HeaderModifierOp where
  | set (name value : Str)
  | add (name value : Str)
  | remove (name : Str)
  deriving DecidableEq

structure RequestHeaderModifier where
  operations : List HeaderModifierOp
  deriving DecidableEq

structure ResponseHeaderModifier where
  operations : List HeaderModifierOp
  deriving DecidableEq

inductive RedirectStatusCode where
  | movedPermanently
  | found
  deriving DecidableEq

structure RequestRedirect where
  statusCode : RedirectStatusCode
  scheme : Option Str
  hostname : Option Str
  port : Option UInt16
  path : Option Str
  deriving DecidableEq

structure Timeout where
  request : Option Nat
  backendRequest : Option Nat
  deriving DecidableEq

structure RetryConfig where
  maxRetries : Nat
  baseDelay : Nat
  maxDelay : Nat
  retryOn5xx : Bool
  retryOnConnectionError : Bool
  deriving DecidableEq

/-! ## Header and query constraints -/

/-- `HeaderMatchType` and `QueryParamMatchType`. -/
inductive MatchType where
  | exact
  | regularExpression
  deriving DecidableEq

structure HeaderMatch where
  name : Str
  value : Str
  matchType : MatchType
  deriving DecidableEq

structure QueryParamMatch where
  name : Str
  value : Str
  matchType : MatchType
  deriving DecidableEq

/-- The `regex` crate: `Regex::new` fails on a malformed pattern, a compiled one decides `is_match`.
The global regex cache only saves the compilation, so it does not appear here. -/
structure RegexCrate where
  compile : Str → Option (Str → Bool)

/-- `get_cached_regex(pattern)` and then `is_match`; an invalid pattern matches nothing. -/
def RegexCrate.isMatch (R : RegexCrate) (pattern value : Str) : Bool :=
  match R.compile pattern with
  | some regex => regex value
  | none => false

/-- The value test that header and query constraints share. -/
def MatchType.accepts (R : RegexCrate) (t : MatchType) (wanted value : Str) : Bool :=
  match t with
  | .exact => value == wanted
  | .regularExpression => R.isMatch wanted value

/-- `eq_ignore_ascii_case`. -/
def eqIgnoreAsciiCase (a b : Str) : Bool := a.map Char.toLower == b.map Char.toLower

/-- `headers_match`: every constraint is met by some header, names compared without case. -/
def headersMatch (R : RegexCrate) (headerMatches : List HeaderMatch)
    (requestHeaders : List (Str × Str)) : Bool :=
  headerMatches.all fun hm => requestHeaders.any fun (name, value) =>
    eqIgnoreAsciiCase name hm.name && hm.matchType.accepts R hm.value value

/-- `query_params_match`: the same with names compared exactly. -/
def queryParamsMatch (R : RegexCrate) (queryParamMatches : List QueryParamMatch)
    (requestQueryParams : List (Str × Str)) : Bool :=
  queryParamMatches.all fun qm => requestQueryParams.any fun (name, value) =>
    name == qm.name && qm.matchType.accepts R qm.value value

end Rauta
