import Mathlib.Data.Nat.Digits.Defs

/-!
Numbers as text, in bases up to sixteen.

A number is printed by `Nat.toDigits`; reading takes the longest run of digits at the front
of a text and leaves the rest. Reading back what was printed gives the number, provided that
no further digit follows.
-/

namespace TinyDhcpd.Numeral

def digitVal (c : Char) : Option ℕ :=
  if '0' ≤ c ∧ c ≤ '9' then some (c.toNat - '0'.toNat)
  else if 'a' ≤ c ∧ c ≤ 'f' then some (c.toNat - 'a'.toNat + 10)
  else if 'A' ≤ c ∧ c ≤ 'F' then some (c.toNat - 'A'.toNat + 10)
  else none

def digitOf (base : ℕ) (c : Char) : Option ℕ := (digitVal c).filter fun d => d < base

/-- The digits at the front of the text, as a number on top of `acc`, and what follows. -/
def scan (base : ℕ) : ℕ → List Char → ℕ × List Char
  | acc, [] => (acc, [])
  | acc, c :: s =>
    match digitOf base c with
    | some d => scan base (base * acc + d) s
    | none => (acc, c :: s)

variable {b : ℕ}

lemma digitVal_digitChar : ∀ d < 16, digitVal d.digitChar = some d := by decide

lemma digitOf_digitChar (hb : b ≤ 16) {d : ℕ} (hd : d < b) : digitOf b d.digitChar = some d := by
  simp [digitOf, digitVal_digitChar d (by omega), hd]

lemma digitOf_of_mem_toDigits (hb : 1 < b) (hb' : b ≤ 16) {n : ℕ} {c : Char}
    (h : c ∈ Nat.toDigits b n) : ∃ d, digitOf b c = some d := by
  induction n using Nat.strong_induction_on with
  | _ n ih =>
    by_cases hn : n < b
    · rw [Nat.toDigits_of_lt_base hn, List.mem_singleton] at h
      exact ⟨n, by rw [h, digitOf_digitChar hb' hn]⟩
    · rw [Nat.toDigits_of_base_le hb (by omega), List.mem_append, List.mem_singleton] at h
      rcases h with h | h
      · exact ih (n / b) (Nat.div_lt_self (by omega) hb) h
      · exact ⟨n % b, by rw [h, digitOf_digitChar hb' (Nat.mod_lt _ (by omega))]⟩

/-- What is left of a printed number that is cut off is a smaller number. -/
lemma exists_of_prefix_toDigits (hb : 1 < b) {n : ℕ} {p : List Char} (hne : p ≠ [])
    (h : p <+: Nat.toDigits b n) : ∃ m ≤ n, p = Nat.toDigits b m := by
  induction n using Nat.strong_induction_on with
  | _ n ih =>
    by_cases hn : n < b
    · rw [Nat.toDigits_of_lt_base hn] at h
      obtain rfl : p = [n.digitChar] := by
        rcases List.prefix_concat_iff.mp (show p <+: [] ++ [n.digitChar] from h) with rfl | h
        · rfl
        · exact absurd (List.prefix_nil.mp h) hne
      exact ⟨n, le_rfl, (Nat.toDigits_of_lt_base hn).symm⟩
    · rw [Nat.toDigits_of_base_le hb (by omega)] at h
      rcases List.prefix_concat_iff.mp h with rfl | h
      · exact ⟨n, le_rfl, (Nat.toDigits_of_base_le hb (by omega)).symm⟩
      · obtain ⟨m, hm, rfl⟩ := ih (n / b) (Nat.div_lt_self (by omega) hb) h
        exact ⟨m, hm.trans (Nat.div_le_self n b), rfl⟩

lemma scan_toDigits (hb : 1 < b) (hb' : b ≤ 16) (n : ℕ) (s : List Char) :
    scan b 0 (Nat.toDigits b n ++ s) = scan b n s := by
  induction n using Nat.strong_induction_on generalizing s with
  | _ n ih =>
    by_cases hn : n < b
    · rw [Nat.toDigits_of_lt_base hn, List.singleton_append, scan, digitOf_digitChar hb' hn]
      simp
    · have hmod : n % b < b := Nat.mod_lt _ (by omega)
      have hdiv : n / b < n := Nat.div_lt_self (by omega) hb
      calc scan b 0 (Nat.toDigits b n ++ s)
          = scan b 0 (Nat.toDigits b (n / b) ++ ((n % b).digitChar :: s)) := by
            rw [Nat.toDigits_of_base_le hb (by omega), List.append_assoc, List.singleton_append]
        _ = scan b (n / b) ((n % b).digitChar :: s) := ih (n / b) hdiv _
        _ = scan b (b * (n / b) + n % b) s := by rw [scan, digitOf_digitChar hb' hmod]
        _ = scan b n s := by rw [Nat.div_add_mod]

lemma scan_stop (n : ℕ) {s : List Char} (h : ∀ c ∈ s.head?, digitOf b c = none) :
    scan b n s = (n, s) := by
  cases s with
  | nil => rfl
  | cons c s => rw [scan, h c rfl]

/-- **Reading inverts printing.** -/
theorem scan_toDigits_append (hb : 1 < b) (hb' : b ≤ 16) (n : ℕ) {s : List Char}
    (h : ∀ c ∈ s.head?, digitOf b c = none) : scan b 0 (Nat.toDigits b n ++ s) = (n, s) := by
  rw [scan_toDigits hb hb', scan_stop n h]

lemma head?_toDigits_ne_zero (hb : 1 < b) (hb' : b ≤ 16) {n : ℕ} (hn : 0 < n) (s : List Char) :
    ∃ d c t, 0 < d ∧ d < b ∧ c = d.digitChar ∧ Nat.toDigits b n ++ s = c :: t := by
  induction n using Nat.strong_induction_on generalizing s with
  | _ n ih =>
    by_cases hlt : n < b
    · exact ⟨n, _, s, hn, hlt, rfl, by rw [Nat.toDigits_of_lt_base hlt]; rfl⟩
    · rw [Nat.toDigits_of_base_le hb (by omega), List.append_assoc]
      exact ih (n / b) (Nat.div_lt_self (by omega) hb) (Nat.div_pos (by omega) (by omega)) _

end TinyDhcpd.Numeral
