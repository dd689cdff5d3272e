import Mathlib.Data.List.Basic

/-!
Text as it is read from a file: lines, and the positions of a delimiter in a line.

The functions follow `std::getline`, `find_first_of` and `find_last_of` for one character;
positions count from zero.
-/

namespace TinyDhcpd.Text

/-- The lines a loop over `std::getline` sees. The last one need not be terminated. -/
def lines : List Char → List (List Char)
  | [] => []
  | c :: s =>
    if c = '\n' then [] :: lines s
    else match lines s with
      | [] => [[c]]
      | line :: rest => (c :: line) :: rest

/-- `find_first_of`. -/
def findFirst (c : Char) : List Char → Option ℕ
  | [] => none
  | x :: s => if x = c then some 0 else (findFirst c s).map (· + 1)

/-- `find_last_of`. -/
def findLast (c : Char) : List Char → Option ℕ
  | [] => none
  | x :: s =>
    match findLast c s with
    | some pos => some (pos + 1)
    | none => if x = c then some 0 else none

variable {c : Char} {s t : List Char}

lemma lines_append (h : '\n' ∉ s) (t : List Char) : lines (s ++ '\n' :: t) = s :: lines t := by
  induction s with
  | nil => simp [lines]
  | cons x s ih =>
    obtain ⟨hx, hs⟩ := List.ne_and_not_mem_of_not_mem_cons h
    rw [List.cons_append, lines, if_neg (Ne.symm hx), ih hs]

lemma lines_unterminated (h : '\n' ∉ s) (hne : s ≠ []) : lines s = [s] := by
  induction s with
  | nil => exact absurd rfl hne
  | cons x s ih =>
    obtain ⟨hx, hs⟩ := List.ne_and_not_mem_of_not_mem_cons h
    rw [lines, if_neg (Ne.symm hx)]
    cases s with
    | nil => rfl
    | cons y s => rw [ih hs (List.cons_ne_nil y s)]

lemma prefix_append_cases {α : Type*} {p s t : List α} (h : p <+: s ++ t) :
    p <+: s ∨ ∃ q, q <+: t ∧ p = s ++ q := by
  rcases List.prefix_or_prefix_of_prefix h (List.prefix_append s t) with hp | ⟨q, rfl⟩
  · exact Or.inl hp
  · exact Or.inr ⟨q, (List.prefix_append_right_inj s).mp h, rfl⟩

lemma findFirst_append (h : c ∉ s) (t : List Char) :
    findFirst c (s ++ c :: t) = some s.length := by
  induction s with
  | nil => simp [findFirst]
  | cons x s ih =>
    obtain ⟨hx, hs⟩ := List.ne_and_not_mem_of_not_mem_cons h
    rw [List.cons_append, findFirst, if_neg (Ne.symm hx), ih hs, Option.map_some,
      List.length_cons]

lemma findFirst_eq_none : findFirst c s = none ↔ c ∉ s := by
  induction s with
  | nil => simp [findFirst]
  | cons x s ih =>
    by_cases hx : x = c
    · simp [findFirst, hx]
    · simp [findFirst, hx, ih, Ne.symm hx]

lemma findLast_eq_none : findLast c s = none ↔ c ∉ s := by
  induction s with
  | nil => simp [findLast]
  | cons x s ih =>
    rw [findLast]
    split
    · rename_i pos hpos
      have hmem : c ∈ s := by
        by_contra hnot
        rw [ih.mpr hnot] at hpos
        cases hpos
      simp [hmem]
    · rename_i hnone
      by_cases hx : x = c
      · simp [hx]
      · simp [hx, ih.mp hnone, Ne.symm hx]

lemma findLast_append (s : List Char) (h : c ∉ t) :
    findLast c (s ++ c :: t) = some s.length := by
  induction s with
  | nil => simp [findLast, findLast_eq_none.mpr h]
  | cons x s ih => simp only [List.cons_append, findLast, ih, List.length_cons]

lemma lt_of_findFirst {pos : ℕ} (h : findFirst c s = some pos) : pos < s.length := by
  induction s generalizing pos with
  | nil => cases h
  | cons x s ih =>
    rw [findFirst] at h
    split_ifs at h with hx
    · cases h
      simp
    · obtain ⟨p, hp, rfl⟩ := Option.map_eq_some_iff.mp h
      have hlt := ih hp
      rw [List.length_cons]
      omega

end TinyDhcpd.Text
