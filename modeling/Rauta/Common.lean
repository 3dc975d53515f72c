import Mathlib.Algebra.Ring.Nat
import Mathlib.Data.List.Basic

/-!
# Common types

The types of the `common` crate that the proxy routes with: HTTP methods, backends, and the
FNV-1a hash of a path. Machine words are natural numbers, reduced modulo `2 ^ 64` where the source
multiplies with wrap-around; bytes and ports keep their own width.
-/

namespace Rauta

/-- A Rust string, as the list of its Unicode scalar values. -/
abbrev Str := List Char

/-- `as_bytes`: the UTF-8 encoding. -/
def Str.asBytes (s : Str) : List UInt8 := s.flatMap String.utf8EncodeChar

/-- A number in decimal, as `format!` prints it. -/
def decimal (n : Nat) : Str := Nat.toDigits 10 n

/-- `MAX_BACKENDS`: the most backends a route may have. -/
def maxBackends : Nat := 32

/-- HTTP methods supported for routing; `all` is the wildcard of Kubernetes Ingress. -/
inductive HttpMethod where
  | get
  | post
  | put
  | delete
  | head
  | options
  | patch
  | all
  deriving DecidableEq, Repr

/-- `ProxyError`. -/
inductive ProxyError where
  | timeout (message : Str)
  | backendError (message : Str)
  | bodyTooLarge (size max : Nat)
  | filterError (message : Str)
  deriving DecidableEq

/-! ## Backends -/

/-- A backend server. An IPv4 address occupies the first four bytes of `ip`. -/
structure Backend where
  ip : Vector UInt8 16
  port : UInt16
  weight : UInt16
  isIpv6 : Bool
  deriving DecidableEq, Repr

/-- `Backend::from_ipv4`, from the four octets. -/
def Backend.fromIpv4 (a b c d : UInt8) (port weight : UInt16) : Backend where
  ip := #v[a, b, c, d, 0, 0, 0, 0, 0, 0, 0, 0, 0, 0, 0, 0]
  port := port
  weight := weight
  isIpv6 := false

/-- `Backend::from_ipv6`, from the sixteen octets. -/
def Backend.fromIpv6 (octets : Vector UInt8 16) (port weight : UInt16) : Backend where
  ip := octets
  port := port
  weight := weight
  isIpv6 := true

/-- A backend for concrete runs. -/
def Backend.sample : Backend := .fromIpv4 10 0 1 1 8080 100

/-- And another one. -/
def Backend.other : Backend := .fromIpv4 10 0 1 2 8080 100

/-- `u16::to_be_bytes`. -/
def toBeBytes (w : UInt16) : List UInt8 :=
  [(w.toNat / 256).toUInt8, (w.toNat % 256).toUInt8]

/-! ## Hashing -/

/-- The offset basis of 64-bit FNV-1a. -/
def fnvOffset : Nat := 0xcbf29ce484222325

/-- The prime of 64-bit FNV-1a. -/
def fnvPrime : Nat := 0x100000001b3

/-- One round of FNV-1a: xor the byte in, multiply with wrap-around. -/
def fnvRound (hash byte : Nat) : Nat := (hash ^^^ byte) * fnvPrime % 2 ^ 64

/-- `fnv1a_hash`. -/
def fnv1aHash (bytes : List UInt8) : Nat :=
  bytes.foldl (fun hash b => fnvRound hash b.toNat) fnvOffset

/-- The hash of a path, as every route key uses it. -/
def pathHash (path : Str) : Nat := fnv1aHash path.asBytes

theorem fnvRound_lt (hash byte : Nat) : fnvRound hash byte < 2 ^ 64 :=
  Nat.mod_lt _ (by decide)

/-- The hash is a 64-bit word. -/
theorem fnv1aHash_lt (bytes : List UInt8) : fnv1aHash bytes < 2 ^ 64 := by
  -- Generalised over the accumulator: every round already lands below `2 ^ 64`.
  have hacc : ∀ (bs : List UInt8) (h : Nat), h < 2 ^ 64 →
      bs.foldl (fun hash b => fnvRound hash b.toNat) h < 2 ^ 64 := by
    intro bs
    induction bs with
    | nil => intro h hh; exact hh
    | cons b bs ih => intro h _; exact ih _ (fnvRound_lt h b.toNat)
  exact hacc bytes fnvOffset (by decide)

theorem pathHash_lt (path : Str) : pathHash path < 2 ^ 64 := fnv1aHash_lt _

end Rauta
