import Mathlib.Data.List.DropRight
import Mathlib.Data.List.Infix
import Rauta.Router.Basic

/-!
# Path validation of HTTPRoute rules

`validate_path` of the Gateway API controller, and what the router gains from a path it accepts:
such a path is the root or has no trailing slash, so trimming slashes off its end does nothing.
-/

namespace Rauta

/-- `validate_path`. The length test counts bytes in the source; a path that begins with a slash has
one byte exactly when it has one character. -/
def validatePath (path : Str) : Except Str Unit :=
  if path = [] then .error "Path cannot be empty".toList
  else if path.head? ≠ some '/' then
    .error ("Path '".toList ++ path ++ "' must start with '/'".toList)
  else if ['/', '/'] <:+: path then
    .error ("Path '".toList ++ path ++ "' cannot contain double slashes".toList)
  else if 1 < path.length ∧ path.getLast? = some '/' then
    .error ("Path '".toList ++ path ++ "' cannot have trailing slash".toList)
  else .ok ()

/-- An accepted path is the root, or begins with a slash and ends with something else. -/
theorem validatePath_ok_cases {path : Str} (h : validatePath path = .ok ()) :
    path = rootPath ∨ ∃ c rest, path = '/' :: c :: rest ∧ path.getLast? ≠ some '/' := by
  unfold validatePath at h
  split at h
  · cases h
  split at h
  · cases h
  split at h
  · cases h
  split at h
  · cases h
  · next hne hhead _ hlast =>
    obtain ⟨rest, rfl⟩ : ∃ rest, path = '/' :: rest := List.head?_eq_some_iff.mp (not_not.mp hhead)
    cases rest with
    | nil => exact Or.inl rfl
    | cons c rest =>
        refine Or.inr ⟨c, rest, rfl, fun hend => hlast ⟨by simp, hend⟩⟩

theorem head?_of_validatePath {path : Str} (h : validatePath path = .ok ()) :
    path.head? = some '/' := by
  rcases validatePath_ok_cases h with rfl | ⟨c, rest, rfl, -⟩ <;> rfl

/-- There is nothing to trim off an accepted path. -/
theorem trimEndSlashes_of_validatePath {path : Str} (h : validatePath path = .ok ())
    (hroot : path ≠ rootPath) : trimEndSlashes path = path := by
  rcases validatePath_ok_cases h with rfl | ⟨c, rest, rfl, hlast⟩
  · exact absurd rfl hroot
  · rw [trimEndSlashes, List.rdropWhile_eq_self_iff]
    intro hne heq
    exact hlast (by rw [List.getLast?_eq_getLast_of_ne_nil hne, beq_iff_eq.mp heq])

end Rauta
