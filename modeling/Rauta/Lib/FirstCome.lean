import Mathlib.Data.Prod.Lex

/-!
# First come, first served

Players take turns, in rounds. In each round every player in turn tries the place that is its choice
for the round. A free place becomes the player's; if the place is taken, the turn is lost. The game
ends as soon as no place is left.

A `Game` is such a loop as a program writes it, with whatever the program uses to note who has which
place; `Game.Lawful` says what it has to get right. Then a place goes to the player that comes to it
first (`Lawful.owner_fill`), in the order of the rounds and, within a round, of the players
(`firstVisitor_eq_some_iff`). Stopping early makes no difference.
-/

namespace FirstCome

variable {P S ι : Type}

/-- A game: the number of places, who a player plays for and what it tries in a round, and the
notes. -/
structure Game (P S ι : Type) where
  size : Nat
  label : P → ι
  visits : (round : Nat) → P → Nat
  owner : S → Nat → Option ι
  taken : S → Nat
  claim : S → Nat → ι → S

namespace Game

/-! ## The loop -/

section Loop

variable (G : Game P S ι)

/-- One round, left as soon as no place is left. -/
def round (n : Nat) : List P → S → S
  | [], s => s
  | p :: rest, s =>
    let c := G.visits n p
    if (G.owner s c).isSome then round n rest s
    else if G.taken (G.claim s c (G.label p)) = G.size then G.claim s c (G.label p)
    else round n rest (G.claim s c (G.label p))

/-- The rounds, from a given one on. -/
def fill (players : List P) : (fuel n : Nat) → S → S
  | 0, _, s => s
  | fuel + 1, n, s =>
    if G.taken s < G.size then fill players fuel (n + 1) (G.round n players s) else s

/-- What the notes have to get right, for those that satisfy `Ok`. -/
structure Lawful (Ok : S → Prop) : Prop where
  claim : ∀ {s c}, Ok s → c < G.size → G.owner s c = none → ∀ i, Ok (G.claim s c i)
  owner_claim : ∀ {s c}, Ok s → c < G.size → ∀ i c',
    G.owner (G.claim s c i) c' = if c' = c then some i else G.owner s c'
  taken_le : ∀ {s}, Ok s → G.taken s ≤ G.size
  full_iff : ∀ {s}, Ok s → (G.taken s = G.size ↔ ∀ c < G.size, (G.owner s c).isSome)

/-- Whom the first player to come to a place plays for, within a number of rounds. -/
def firstVisitor (players : List P) (c : Nat) : (rounds : Nat) → Option ι
  | 0 => none
  | n + 1 =>
    (firstVisitor players c n).or ((players.find? fun p => G.visits n p = c).map G.label)

end Loop

variable {G : Game P S ι} {Ok : S → Prop} {players : List P} {s : S}

/-- What a round does: a free place goes to the first player that tries it. -/
theorem Lawful.owner_round (hG : G.Lawful Ok) {n : Nat}
    (hplayers : ∀ p ∈ players, G.visits n p < G.size)
    (hs : Ok s) : Ok (G.round n players s) ∧ ∀ c < G.size, G.owner (G.round n players s) c =
      (G.owner s c).or ((players.find? fun p => G.visits n p = c).map G.label) := by
  induction players generalizing s with
  | nil => exact ⟨hs, fun c _ => by simp [round]⟩
  | cons p rest ih =>
      obtain ⟨hp, hrest⟩ := List.forall_mem_cons.mp hplayers
      simp only [round]
      split
      · next htaken =>
        obtain ⟨hok, howner⟩ := ih hrest hs
        refine ⟨hok, fun c hc => ?_⟩
        rw [howner c hc, List.find?_cons]
        by_cases heq : G.visits n p = c
        · obtain ⟨i, hi⟩ := Option.isSome_iff_exists.mp htaken
          simp [← heq, hi]
        · simp [heq]
      · next hfree =>
        have hfree : G.owner s (G.visits n p) = none := by simpa using hfree
        have hok := hG.claim hs hp hfree (G.label p)
        -- the place was free, so claiming it is what this player adds
        have hturn : ∀ c, (G.owner s c).or
            (((p :: rest).find? fun q => G.visits n q = c).map G.label) =
              (G.owner (G.claim s (G.visits n p) (G.label p)) c).or
                ((rest.find? fun q => G.visits n q = c).map G.label) := by
          intro c
          rw [hG.owner_claim hs hp, List.find?_cons]
          by_cases heq : c = G.visits n p
          · subst heq
            simp [hfree]
          · simp [heq, Ne.symm heq]
        split
        · next hfull =>
          refine ⟨hok, fun c hc => ?_⟩
          obtain ⟨i, hi⟩ := Option.isSome_iff_exists.mp ((hG.full_iff hok).mp hfull c hc)
          rw [hturn c, hi, Option.some_or]
        · obtain ⟨hok', howner⟩ := ih hrest hok
          exact ⟨hok', fun c hc => (howner c hc).trans (hturn c).symm⟩

/-- A place that has its first visitor keeps it. -/
theorem firstVisitor_add {c n : Nat} (h : (G.firstVisitor players c n).isSome) (more : Nat) :
    G.firstVisitor players c (n + more) = G.firstVisitor players c n := by
  induction more with
  | zero => rfl
  | succ more ih =>
      obtain ⟨i, hi⟩ := Option.isSome_iff_exists.mp h
      show (G.firstVisitor players c (n + more)).or _ = _
      rw [ih, hi, Option.some_or]

/-- **First come, first served**: after some rounds a place belongs to its first visitor. -/
theorem Lawful.owner_fill (hG : G.Lawful Ok) (hplayers : ∀ p ∈ players, ∀ n, G.visits n p < G.size)
    (fuel n : Nat) (hs : Ok s)
    (howner : ∀ c < G.size, G.owner s c = G.firstVisitor players c n) :
    Ok (G.fill players fuel n s) ∧ ∀ c < G.size,
      G.owner (G.fill players fuel n s) c = G.firstVisitor players c (n + fuel) := by
  induction fuel generalizing n s with
  | zero => exact ⟨hs, howner⟩
  | succ fuel ih =>
      simp only [fill]
      split
      · obtain ⟨hok, hround⟩ := hG.owner_round (fun p hp => hplayers p hp n) hs
        rw [show n + (fuel + 1) = n + 1 + fuel by omega]
        refine ih (n + 1) hok fun c hc => ?_
        rw [hround c hc, howner c hc]
        rfl
      · next hmore =>
        -- no place is left, so further rounds would change nothing
        have hfull :=
          (hG.full_iff hs).mp (Nat.le_antisymm (hG.taken_le hs) (Nat.le_of_not_lt hmore))
        refine ⟨hs, fun c hc => ?_⟩
        rw [howner c hc, firstVisitor_add]
        rw [← howner c hc]
        exact hfull c hc

theorem firstVisitor_isSome_iff {c n : Nat} : (G.firstVisitor players c n).isSome ↔
    ∃ j < n, ∃ p ∈ players, G.visits j p = c := by
  induction n with
  | zero => simp [firstVisitor]
  | succ n ih =>
      rw [firstVisitor, Option.isSome_or, Bool.or_eq_true, ih, Option.isSome_map,
        List.find?_isSome]
      constructor
      · rintro (⟨j, hj, hp⟩ | ⟨p, hp, hvisits⟩)
        · exact ⟨j, Nat.lt_succ_of_lt hj, hp⟩
        · exact ⟨n, Nat.lt_succ_self n, p, hp, by simpa using hvisits⟩
      · rintro ⟨j, hj, p, hp, hvisits⟩
        rcases Nat.lt_succ_iff_lt_or_eq.mp hj with hj | rfl
        · exact .inl ⟨j, hj, p, hp, hvisits⟩
        · exact .inr ⟨p, hp, by simpa using hvisits⟩

/-- **The game ends**: no place is left once the players have come to all of them. -/
theorem Lawful.taken_fill (hG : G.Lawful Ok) (hplayers : ∀ p ∈ players, ∀ n, G.visits n p < G.size)
    {fuel : Nat} (hs : Ok s) (hfree : ∀ c < G.size, G.owner s c = none)
    (hall : ∀ c < G.size, ∃ j < fuel, ∃ p ∈ players, G.visits j p = c) :
    G.taken (G.fill players fuel 0 s) = G.size := by
  obtain ⟨hok, howner⟩ := hG.owner_fill hplayers fuel 0 hs hfree
  rw [hG.full_iff hok]
  intro c hc
  rw [howner c hc, Nat.zero_add, firstVisitor_isSome_iff]
  exact hall c hc

/-- More rounds make no difference then. -/
theorem fill_add (players : List P) (fuel more n : Nat) (s : S) :
    G.fill players (fuel + more) n s =
      G.fill players more (n + fuel) (G.fill players fuel n s) := by
  induction fuel generalizing n s with
  | zero => rw [Nat.zero_add]; rfl
  | succ fuel ih =>
      rw [show fuel + 1 + more = (fuel + more) + 1 by omega]
      simp only [fill]
      split
      · rw [ih, show n + 1 + fuel = n + (fuel + 1) by omega]
      · next hfull =>
        cases more with
        | zero => rfl
        | succ more => simp only [fill, if_neg hfull]

/-! ## The order of the turns -/

variable (G) in
/-- In round `j` the `k`-th player tries the place. -/
def Visits (players : List P) (c j k : Nat) : Prop := ∃ p ∈ players[k]?, G.visits j p = c

variable (G) in
/-- And nobody has tried it before. -/
def First (players : List P) (c j k : Nat) : Prop :=
  G.Visits players c j k ∧ ∀ j' k', G.Visits players c j' k' → toLex (j, k) ≤ toLex (j', k')

theorem First.unique {c j k j' k' : Nat} (h : G.First players c j k)
    (h' : G.First players c j' k') : j = j' ∧ k = k' := by
  have heq := le_antisymm (h.2 j' k' h'.1) (h'.2 j k h.1)
  exact Prod.mk.inj (toLex.injective heq)

/-- The first visitor, by the order of the turns. -/
theorem exists_first_of_firstVisitor {c n : Nat} {i : ι}
    (h : G.firstVisitor players c n = some i) :
    ∃ j < n, ∃ k, G.First players c j k ∧ players[k]?.map G.label = some i := by
  induction n with
  | zero => cases h
  | succ n ih =>
      cases hprev : G.firstVisitor players c n with
      | some i' =>
          obtain rfl : i' = i := by simpa [firstVisitor, hprev] using h
          obtain ⟨j, hj, hrest⟩ := ih hprev
          exact ⟨j, Nat.lt_succ_of_lt hj, hrest⟩
      | none =>
          have hfind : (players.find? fun p => G.visits n p = c).map G.label = some i := by
            simpa [firstVisitor, hprev] using h
          obtain ⟨p, hp, rfl⟩ := Option.map_eq_some_iff.mp hfind
          obtain ⟨hvisits, k, hk, rfl, hbefore⟩ := List.find?_eq_some_iff_getElem.mp hp
          have hget : players[k]? = some players[k] := List.getElem?_eq_getElem hk
          refine ⟨n, Nat.lt_succ_self n, k,
            ⟨⟨players[k], hget, by simpa using hvisits⟩, ?_⟩, by rw [hget, Option.map_some]⟩
          -- a turn before this one is in an earlier round, or an earlier player's
          rintro j' k' ⟨q, hq, hvisits'⟩
          obtain ⟨hk', rfl⟩ := List.getElem?_eq_some_iff.mp hq
          rw [Prod.Lex.toLex_le_toLex']
          have hle : n ≤ j' := by
            by_contra hlt
            have hsome : (G.firstVisitor players c n).isSome := firstVisitor_isSome_iff.mpr
              ⟨j', by omega, _, List.getElem_mem hk', hvisits'⟩
            simp [hprev] at hsome
          refine ⟨hle, ?_⟩
          rintro rfl
          by_contra hlt
          simpa [hvisits'] using hbefore k' (by omega)

/-- **The first visitor** is the player whose turn at the place comes first, in the order of the
rounds and of the players. -/
theorem firstVisitor_eq_some_iff {c n : Nat} {i : ι} : G.firstVisitor players c n = some i ↔
    ∃ j < n, ∃ k, G.First players c j k ∧ players[k]?.map G.label = some i := by
  refine ⟨exists_first_of_firstVisitor, ?_⟩
  rintro ⟨j, hj, k, hfirst, hlabel⟩
  obtain ⟨p, hp, hvisits⟩ := hfirst.1
  have hsome : (G.firstVisitor players c n).isSome :=
    firstVisitor_isSome_iff.mpr ⟨j, hj, p, List.mem_of_getElem? hp, hvisits⟩
  obtain ⟨i', hi'⟩ := Option.isSome_iff_exists.mp hsome
  obtain ⟨j', -, k', hfirst', hlabel'⟩ := exists_first_of_firstVisitor hi'
  obtain ⟨rfl, rfl⟩ := hfirst.unique hfirst'
  rw [hi', ← hlabel', hlabel]

end Game

end FirstCome
