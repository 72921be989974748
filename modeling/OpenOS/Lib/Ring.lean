import Mathlib

/-! Ring buffers. A buffer indexed modulo its capacity `n`, a head index and a count stand for
the list of the `count` elements from the head on. Storing at the tail of a ring that is not
full appends to that list; reading at the head removes its first element. The position
invariant ties a separately kept tail index to the head and the count. -/
namespace Ring

variable {α : Type} {n head tail count : Nat} {buf : Nat → α}

/-- The `count` elements from `head` on, wrapping at `n`. -/
def contents (n : Nat) (buf : Nat → α) (head count : Nat) : List α :=
  (List.range count).map fun i => buf ((head + i) % n)

@[simp] theorem contents_zero : contents n buf head 0 = [] := rfl

@[simp] theorem length_contents : (contents n buf head count).length = count := by
  simp [contents]

/-- The head inside the buffer, at most `n` elements, and the tail `count` places on. -/
structure Aligned (n head tail count : Nat) : Prop where
  head_lt : head < n
  count_le : count ≤ n
  tail_eq : tail = (head + count) % n

theorem slot_ne {i j : Nat} (lt : i < j) (bound : j < n) : (head + i) % n ≠ (head + j) % n := by
  intro same
  have mod : i ≡ j [MOD n] := Nat.ModEq.add_left_cancel' head same
  exact absurd (Nat.ModEq.eq_of_lt_of_lt mod (lt.trans bound) bound) (Nat.ne_of_lt lt)

theorem contents_succ : contents n buf head (count + 1) = contents n buf head count ++ [buf ((head + count) % n)] := by
  unfold contents
  rw [List.range_succ, List.map_append, List.map_singleton]

theorem contents_update_end (x : α) (lt : count < n) :
    contents n (Function.update buf ((head + count) % n) x) head count = contents n buf head count := by
  refine List.map_congr_left fun i mem => ?_
  exact Function.update_of_ne (slot_ne (List.mem_range.mp mem) lt) x buf

theorem contents_push (x : α) (lt : count < n) :
    contents n (Function.update buf ((head + count) % n) x) head (count + 1) =
      contents n buf head count ++ [x] := by
  rw [contents_succ, contents_update_end x lt, Function.update_self]

theorem contents_pred : contents n buf head (count - 1) = (contents n buf head count).dropLast := by
  cases count with
  | zero => rfl
  | succ count => rw [contents_succ, List.dropLast_concat, Nat.add_sub_cancel]

theorem take_contents (k : Nat) : (contents n buf head count).take k = contents n buf head (min k count) := by
  unfold contents
  rw [← List.map_take, List.take_range]

theorem Aligned.push (h : Aligned n head tail count) (lt : count < n) :
    Aligned n head ((tail + 1) % n) (count + 1) where
  head_lt := h.head_lt
  count_le := lt
  tail_eq := by rw [h.tail_eq, Nat.mod_add_mod, Nat.add_assoc]

theorem Aligned.pop (h : Aligned n head tail (count + 1)) :
    Aligned n ((head + 1) % n) tail count where
  head_lt := Nat.mod_lt _ (Nat.zero_lt_of_lt h.head_lt)
  count_le := Nat.le_of_succ_le h.count_le
  tail_eq := by rw [h.tail_eq, Nat.mod_add_mod, Nat.add_right_comm, Nat.add_assoc]

end Ring
