import Mathlib

/-! One's-complement addition of words below a base `m` (`m = 2^16` for the Internet
checksum). Adding with end-around carry keeps a total modulo `m - 1`, and gives 0 only for
an all-zero total. Deferring the carries into a wider accumulator and folding them back at
the end gives the same word: a fold keeps the total modulo `m - 1` and never reaches 0. -/
namespace OnesComplement

variable (m : Nat)

/-- The word a total `s` stands for: 0 for 0, and otherwise the representative of `s`
modulo `m - 1` in `[1, m - 1]`. -/
def residue (s : Nat) : Nat := if s = 0 then 0 else (s - 1) % (m - 1) + 1

/-- Addition with end-around carry: a carry out of the word comes back in at the bottom. -/
def add (a b : Nat) : Nat := if a + b < m then a + b else a + b - m + 1

/-- The one's-complement sum of a list of words. -/
def sum (words : List Nat) : Nat := words.foldl (add m) 0

/-- One carry fold: the low word plus what stands above it. -/
def fold (s : Nat) : Nat := s % m + s / m

@[simp] theorem residue_zero : residue m 0 = 0 := rfl

theorem residue_modEq (s : Nat) : residue m s ≡ s [MOD m - 1] := by
  unfold residue
  split
  · next zero => rw [zero]
  · calc (s - 1) % (m - 1) + 1 ≡ s - 1 + 1 [MOD m - 1] := Nat.ModEq.add_right 1 (Nat.mod_modEq _ _)
      _ = s := by omega

section

variable {m}

theorem residue_pos {s : Nat} (pos : 0 < s) : 0 < residue m s := by
  simp [residue, Nat.pos_iff_ne_zero.mp pos]

theorem residue_congr {s t : Nat} (hs : 0 < s) (ht : 0 < t) (same : s ≡ t [MOD m - 1]) :
    residue m s = residue m t := by
  have shifted : s - 1 ≡ t - 1 [MOD m - 1] := by
    apply Nat.ModEq.add_right_cancel' 1
    rwa [Nat.sub_add_cancel hs, Nat.sub_add_cancel ht]
  simp only [residue, Nat.pos_iff_ne_zero.mp hs, Nat.pos_iff_ne_zero.mp ht, if_false]
  rw [shifted]

theorem fold_pos {s : Nat} (pos : 0 < s) : 0 < fold m s := by
  have := Nat.mod_add_div s m
  unfold fold
  rcases Nat.eq_zero_or_pos (s / m) with zero | _
  · rw [zero, Nat.mul_zero] at this
    omega
  · omega

variable (base : 2 ≤ m)
include base

theorem residue_lt (s : Nat) : residue m s < m := by
  unfold residue
  split
  · omega
  · have := Nat.mod_lt (s - 1) (show 0 < m - 1 by omega)
    omega

theorem residue_of_lt {s : Nat} (lt : s < m) : residue m s = s := by
  unfold residue
  split
  · omega
  · rw [Nat.mod_eq_of_lt (by omega)]
    omega

/-- End-around-carry addition of a word to the word of a total is the word of the larger
total. -/
theorem add_residue (s : Nat) {b : Nat} (word : b < m) : add m (residue m s) b = residue m (s + b) := by
  have below := residue_lt base s
  by_cases zero : s + b = 0
  · obtain ⟨rfl, rfl⟩ : s = 0 ∧ b = 0 := by omega
    rw [Nat.add_zero, residue_zero]
    unfold add
    split <;> omega
  -- the sum is non-zero and below the base, so it is the word of any total it is congruent to
  have pos : 0 < add m (residue m s) b := by
    rcases Nat.eq_zero_or_pos s with rfl | hs
    · unfold add; split <;> omega
    · have : 0 < residue m s := residue_pos hs
      unfold add; split <;> omega
  have small : add m (residue m s) b < m := by unfold add; split <;> omega
  have congruent : add m (residue m s) b ≡ residue m s + b [MOD m - 1] := by
    unfold add
    split
    · rfl
    · -- the carry takes `m - 1` away
      have back : residue m s + b - m + 1 + (m - 1) = residue m s + b := by omega
      calc residue m s + b - m + 1 ≡ residue m s + b - m + 1 + (m - 1) [MOD m - 1] :=
            (Nat.add_modEq_right).symm
        _ = residue m s + b := back
  rw [← residue_of_lt base small]
  exact residue_congr pos (by omega) (congruent.trans (Nat.ModEq.add_right b (residue_modEq m s)))

theorem foldl_add_residue (words : List Nat) (words_lt : ∀ w ∈ words, w < m) (s : Nat) :
    words.foldl (add m) (residue m s) = residue m (s + words.sum) := by
  induction words generalizing s with
  | nil => simp
  | cons w rest ih =>
    rw [List.foldl_cons, add_residue base s (words_lt w (by simp)),
      ih (fun x mem => words_lt x (by simp [mem])), List.sum_cons, Nat.add_assoc]

theorem sum_eq_residue (words : List Nat) (words_lt : ∀ w ∈ words, w < m) :
    sum m words = residue m words.sum := by
  rw [sum, ← residue_zero m, foldl_add_residue base words words_lt, Nat.zero_add]

theorem fold_modEq (s : Nat) : fold m s ≡ s [MOD m - 1] := by
  have one : m ≡ 1 [MOD m - 1] := by
    calc m = 1 + (m - 1) := by omega
      _ ≡ 1 [MOD m - 1] := Nat.add_modEq_right
  calc s % m + s / m = s % m + 1 * (s / m) := by rw [Nat.one_mul]
    _ ≡ s % m + m * (s / m) [MOD m - 1] := Nat.ModEq.add_left _ (Nat.ModEq.mul_right _ one.symm)
    _ = s := Nat.mod_add_div s m

theorem fold_lt {s : Nat} (above : m ≤ s) : fold m s < s := by
  have split := Nat.mod_add_div s m
  have carries : 1 ≤ s / m := (Nat.one_le_div_iff (by omega)).mpr above
  have : s / m < m * (s / m) := lt_mul_left (by omega) (by omega)
  unfold fold
  omega

theorem residue_fold (s : Nat) : residue m (fold m s) = residue m s := by
  rcases Nat.eq_zero_or_pos s with rfl | pos
  · simp [fold]
  · exact residue_congr (fold_pos pos) pos (fold_modEq base s)

end

end OnesComplement
