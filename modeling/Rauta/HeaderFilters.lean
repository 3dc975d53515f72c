import Rauta.Http

/-!
# Header filters

`apply_header_filters` changes the headers of a request or a response, operation by operation:
`Set` puts one value in the place of all values of a name, `Add` adds a value, `Remove` takes all
values away. Names and values go through the checks of the `http` crate first, and one that is
refused ends the loop where it is.

What a list of operations does to a name depends on its own operations only, and on those from the
last `Set` or `Remove` on. Names are compared in lower case. What the checks keep out, no filter
brings in (`HeaderMap.Legal.applyHeaderFilters`).

The order of headers with different names means nothing, and an operation may change it; the order
of the values of one name is kept.
-/

namespace Rauta

/-! ## Header maps -/

namespace HeaderMap

/-- `get_all`. -/
def getAll (headers : HeaderMap) (name : Str) : List Str :=
  (headers.entries.filter fun e => e.1 = name).map Prod.snd

/-- `remove`: all values go. -/
def remove (headers : HeaderMap) (name : HeaderName) : HeaderMap :=
  headers.filter fun other => other != name.text

/-- `append`. -/
def append (headers : HeaderMap) (name : HeaderName) (value : HeaderValue) : HeaderMap where
  entries := headers.entries ++ [(name.text, value.text)]
  lowercase e he := by
    rcases List.mem_append.mp he with he | he
    · exact headers.lowercase e he
    · rw [List.mem_singleton.mp he]
      exact name.lowercase

/-- `insert`: the value is the only one. -/
def insert (headers : HeaderMap) (name : HeaderName) (value : HeaderValue) : HeaderMap :=
  (headers.remove name).append name value

/-- Names and values are free of control characters, tabs apart. -/
def Legal (headers : HeaderMap) : Prop :=
  ∀ e ∈ headers.entries, ∀ c ∈ e.1 ++ e.2, isHeaderChar c = true

variable {headers : HeaderMap} {name : HeaderName} {value : HeaderValue}

theorem getAll_filter (headers : HeaderMap) (keep : Str → Bool) (name : Str) :
    (headers.filter keep).getAll name = if keep name then headers.getAll name else [] := by
  rw [getAll, entries_filter, List.filter_filter]
  split
  next hkeep =>
    refine congrArg _ (List.filter_congr fun e _ => ?_)
    by_cases he : e.1 = name <;> simp [he, hkeep]
  next hkeep =>
    rw [List.map_eq_nil_iff, List.filter_eq_nil_iff]
    intro e _ he
    rw [Bool.and_eq_true, decide_eq_true_eq] at he
    rw [he.1] at he
    exact hkeep he.2

theorem getAll_remove (headers : HeaderMap) (name : HeaderName) (other : Str) :
    (headers.remove name).getAll other =
      if name.text = other then [] else headers.getAll other := by
  rw [remove, getAll_filter]
  by_cases h : name.text = other
  · simp [h]
  · simp [h, Ne.symm h]

theorem getAll_append (headers : HeaderMap) (name : HeaderName) (value : HeaderValue)
    (other : Str) : (headers.append name value).getAll other =
      headers.getAll other ++ if name.text = other then [value.text] else [] := by
  by_cases h : name.text = other <;> simp [getAll, append, h]

theorem getAll_insert (headers : HeaderMap) (name : HeaderName) (value : HeaderValue)
    (other : Str) : (headers.insert name value).getAll other =
      if name.text = other then [value.text] else headers.getAll other := by
  rw [insert, getAll_append, getAll_remove]
  split <;> simp

theorem Legal.filter (h : headers.Legal) (keep : Str → Bool) : (headers.filter keep).Legal :=
  fun e he => h e (List.mem_filter.mp he).1

theorem Legal.append (h : headers.Legal) (hname : ∀ c ∈ name.text, isHeaderChar c = true)
    (hvalue : ∀ c ∈ value.text, isHeaderChar c = true) : (headers.append name value).Legal := by
  intro e he c hc
  rcases List.mem_append.mp he with he | he
  · exact h e he c hc
  · rw [List.mem_singleton.mp he] at hc
    rcases List.mem_append.mp hc with hc | hc
    · exact hname c hc
    · exact hvalue c hc

end HeaderMap

/-! ## Filters -/

/-- The message for a name that is refused. -/
def invalidName (name e : Str) : Str :=
  "Invalid header name '".toList ++ name ++ "': ".toList ++ e

/-- The message for a value that is refused. -/
def invalidValue (value e : Str) : Str :=
  "Invalid header value '".toList ++ value ++ "': ".toList ++ e

namespace HeaderModifierOp

section Apply

variable (H : HttpCrate)

/-- The check of a name. -/
def checkName (name : Str) : Except Str HeaderName :=
  (H.nameFromBytes name).mapError (invalidName name)

/-- The checks that `Set` and `Add` share: first the name, then the value. -/
def check (name value : Str) : Except Str (HeaderName × HeaderValue) := do
  let headerName ← checkName H name
  let headerValue ← (H.valueFromStr value).mapError (invalidValue value)
  return (headerName, headerValue)

/-- The body of the loop of `apply_header_filters`. -/
def apply (headers : HeaderMap) : HeaderModifierOp → Except Str HeaderMap
  | .set name value => (check H name value).map fun p => headers.insert p.1 p.2
  | .add name value => (check H name value).map fun p => headers.append p.1 p.2
  | .remove name => (checkName H name).map headers.remove

end Apply

/-- The values that the operation puts in the place of all those of a name. -/
def replaces (name : Str) : HeaderModifierOp → Option (List Str)
  | .set name' value => if name'.map Char.toLower = name then some [value] else none
  | .add _ _ => none
  | .remove name' => if name'.map Char.toLower = name then some [] else none

/-- The value that it adds to those of a name. -/
def adds (name : Str) : HeaderModifierOp → Option Str
  | .add name' value => if name'.map Char.toLower = name then some value else none
  | _ => none

/-- What it makes of the values of a name. -/
def edit (name : Str) (values : List Str) (op : HeaderModifierOp) : List Str :=
  (op.replaces name).getD values ++ (op.adds name).toList

variable {H : HttpCrate} {headers headers' : HeaderMap} {op : HeaderModifierOp}

theorem ok_of_checkName {name : Str} {n : HeaderName} (h : checkName H name = .ok n) :
    H.nameFromBytes name = .ok n := by
  unfold checkName at h
  cases hname : H.nameFromBytes name with
  | error e =>
    rw [hname] at h
    cases h
  | ok n' =>
    rw [hname] at h
    cases h
    rfl

theorem ok_of_check {name value : Str} {p : HeaderName × HeaderValue}
    (h : check H name value = .ok p) :
    H.nameFromBytes name = .ok p.1 ∧ H.valueFromStr value = .ok p.2 := by
  unfold check at h
  cases hname : checkName H name with
  | error e =>
    rw [hname] at h
    cases h
  | ok n =>
    rw [hname] at h
    cases hvalue : H.valueFromStr value with
    | error e =>
      rw [hvalue] at h
      cases h
    | ok v =>
      rw [hvalue] at h
      cases h
      exact ⟨ok_of_checkName hname, rfl⟩

/-- What a check of `Set` and `Add` lets through is legal. -/
theorem legal_append_of_check (hH : H.Lawful) {name value : Str} {p : HeaderName × HeaderValue}
    (hcheck : check H name value = .ok p) (h : headers.Legal) :
    (headers.append p.1 p.2).Legal := by
  obtain ⟨hname, hvalue⟩ := ok_of_check hcheck
  refine h.append (hH.name_legal hname) ?_
  rw [hH.value_text hvalue]
  exact hH.value_ok_iff.mp ⟨_, hvalue⟩

/-- An operation that is not refused does to the values of every name what it stands for. -/
theorem of_apply_eq_ok (hH : H.Lawful) (h : op.apply H headers = .ok headers') :
    (∀ name, headers'.getAll name = op.edit name (headers.getAll name)) ∧
      (headers.Legal → headers'.Legal) := by
  cases op with
  | set name value =>
    cases hcheck : check H name value with
    | error e =>
      rw [apply, hcheck] at h
      cases h
    | ok p =>
      rw [apply, hcheck] at h
      cases h
      obtain ⟨hname, hvalue⟩ := ok_of_check hcheck
      refine ⟨fun other => ?_, fun hlegal => legal_append_of_check hH hcheck (hlegal.filter _)⟩
      rw [HeaderMap.getAll_insert, hH.name_text hname, hH.value_text hvalue]
      simp only [edit, replaces, adds]
      split <;> simp
  | add name value =>
    cases hcheck : check H name value with
    | error e =>
      rw [apply, hcheck] at h
      cases h
    | ok p =>
      rw [apply, hcheck] at h
      cases h
      obtain ⟨hname, hvalue⟩ := ok_of_check hcheck
      refine ⟨fun other => ?_, legal_append_of_check hH hcheck⟩
      rw [HeaderMap.getAll_append, hH.name_text hname, hH.value_text hvalue]
      simp only [edit, replaces, adds]
      split <;> simp
  | remove name =>
    cases hcheck : checkName H name with
    | error e =>
      rw [apply, hcheck] at h
      cases h
    | ok n =>
      rw [apply, hcheck] at h
      cases h
      refine ⟨fun other => ?_, fun hlegal => hlegal.filter _⟩
      rw [HeaderMap.getAll_remove, hH.name_text (ok_of_checkName hcheck)]
      simp only [edit, replaces, adds]
      split <;> simp

/-- An operation that replaces adds nothing. -/
theorem adds_of_replaces {name : Str} {values : List Str} (h : op.replaces name = some values) :
    op.adds name = none := by
  cases op with
  | add name' value => cases h
  | set name' value => rfl
  | remove name' => rfl

end HeaderModifierOp

/-- `apply_header_filters`: how it ends, and the headers then. -/
def applyHeaderFilters (H : HttpCrate) :
    HeaderMap → List HeaderModifierOp → Except Str Unit × HeaderMap
  | headers, [] => (.ok (), headers)
  | headers, op :: ops =>
    match op.apply H headers with
    | .ok headers => applyHeaderFilters H headers ops
    | .error e => (.error e, headers)

section Filters

variable {H : HttpCrate} {headers : HeaderMap} {ops : List HeaderModifierOp}

/-- Every value of a name is followed through the operations, whatever else they do. -/
theorem getAll_foldl_edit (hH : H.Lawful) (hok : (applyHeaderFilters H headers ops).1 = .ok ())
    (name : Str) : (applyHeaderFilters H headers ops).2.getAll name =
      ops.foldl (HeaderModifierOp.edit name) (headers.getAll name) := by
  induction ops generalizing headers with
  | nil => rfl
  | cons op ops ih =>
    rw [applyHeaderFilters] at hok ⊢
    cases happly : op.apply H headers with
    | error e =>
      rw [happly] at hok
      cases hok
    | ok headers' =>
      rw [happly] at hok
      rw [List.foldl_cons, ← (HeaderModifierOp.of_apply_eq_ok hH happly).1]
      exact ih hok

/-- No filter makes a header with an illegal character, not even one that fails. -/
theorem HeaderMap.Legal.applyHeaderFilters (hH : H.Lawful) (h : headers.Legal)
    (ops : List HeaderModifierOp) : (Rauta.applyHeaderFilters H headers ops).2.Legal := by
  induction ops generalizing headers with
  | nil => exact h
  | cons op ops ih =>
    rw [Rauta.applyHeaderFilters]
    cases happly : op.apply H headers with
    | error e => exact h
    | ok headers' => exact ih ((HeaderModifierOp.of_apply_eq_ok hH happly).2 h)

/-- Without a replacement, values are added to those that are there. -/
theorem foldl_edit_of_not_replaces {name : Str}
    (h : ∀ op ∈ ops, HeaderModifierOp.replaces name op = none) (values : List Str) :
    ops.foldl (HeaderModifierOp.edit name) values =
      values ++ ops.filterMap (HeaderModifierOp.adds name) := by
  induction ops generalizing values with
  | nil => simp
  | cons op ops ih =>
    obtain ⟨hop, hops⟩ := List.forall_mem_cons.mp h
    have hedit : op.edit name values = values ++ (op.adds name).toList := by
      rw [HeaderModifierOp.edit, hop, Option.getD_none]
    rw [List.foldl_cons, ih hops, hedit, List.append_assoc]
    cases hadds : op.adds name <;> simp [hadds]

/-- **What filters mean**: of the operations on a name, those from the last `Set` or `Remove` on
decide; without one, its values are added to those that were there. Operations on other names have
no part in it. -/
theorem getAll_applyHeaderFilters (hH : H.Lawful)
    (hok : (applyHeaderFilters H headers ops).1 = .ok ()) (name : Str) :
    ((∀ op ∈ ops, op.replaces name = none) →
      (applyHeaderFilters H headers ops).2.getAll name =
        headers.getAll name ++ ops.filterMap (HeaderModifierOp.adds name)) ∧
    ∀ before op after values, ops = before ++ op :: after → op.replaces name = some values →
      (∀ op' ∈ after, op'.replaces name = none) →
      (applyHeaderFilters H headers ops).2.getAll name =
        values ++ after.filterMap (HeaderModifierOp.adds name) := by
  rw [getAll_foldl_edit hH hok]
  constructor
  · intro hnone
    exact foldl_edit_of_not_replaces hnone _
  · rintro before op after values rfl hop hafter
    have hedit : ∀ old, op.edit name old = values := by
      intro old
      rw [HeaderModifierOp.edit, hop, HeaderModifierOp.adds_of_replaces hop]
      simp
    rw [List.foldl_append, List.foldl_cons, hedit, foldl_edit_of_not_replaces hafter]

/-- A value is added to one that was set. -/
def setThenAdd : List HeaderModifierOp :=
  [.remove "x-trace".toList, .set "X-Env".toList "a".toList, .add "x-env".toList "b".toList]

theorem getAll_applyHeaderFilters_setThenAdd :
    (applyHeaderFilters .strict HeaderMap.empty setThenAdd).1 = .ok () ∧
      (applyHeaderFilters .strict HeaderMap.empty setThenAdd).2.getAll "x-env".toList =
        ["a".toList, "b".toList] := by
  have hok : (applyHeaderFilters .strict HeaderMap.empty setThenAdd).1 = .ok () := rfl
  have hlast : ∀ op ∈ [HeaderModifierOp.add "x-env".toList "b".toList],
      op.replaces "x-env".toList = none := by
    simp [HeaderModifierOp.replaces]
  exact ⟨hok, (getAll_applyHeaderFilters HttpCrate.strict_lawful hok _).2 [_] _ _ _ rfl rfl hlast⟩

end Filters

end Rauta
