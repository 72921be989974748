import Mathlib
import OpenOS.Kernel.Strings

/-! `itoa` of `kernel/string.c`. An `int` is an integer here: each pass of the digit loop
forms a quotient and a product no larger in absolute value than the value it divides
(`natAbs_tdiv_mul_le`), so for an `int` value, `INT_MIN` included, no step leaves 32 bits
and the integers compute what the machine does. The division truncates, as C's does. The
buffer is the list of bytes before its NUL. -/
namespace OpenOS.Kernel

/-- `"0123456789abcdefghijklmnopqrstuvwxyz"`, the table `itoa` takes its digits from. -/
def digitTable : CString := cstr "0123456789abcdefghijklmnopqrstuvwxyz"

theorem natAbs_tdiv_lt {base : Int} (two : 2 ≤ base) {t : Int} (more : t.tdiv base ≠ 0) :
    (t.tdiv base).natAbs < t.natAbs := by
  have nonzero : t ≠ 0 := by
    rintro rfl
    exact more (Int.zero_tdiv base)
  rw [Int.natAbs_tdiv]
  exact Nat.div_lt_self (Int.natAbs_pos.mpr nonzero) (by omega)

/-- The `do … while (value)` loop of `itoa`: the bytes it writes, least significant digit
first, and the `tmp_value` of its last pass. `digit_value` is the remainder of the truncating
division, negative for a negative value, and made positive. -/
def itoaDigits (base : Int) (two : 2 ≤ base) (value : Int) : CString × Int :=
  let tmpValue := value
  let value := tmpValue.tdiv base
  let digitValue := tmpValue - value * base
  let digitValue := if digitValue < 0 then -digitValue else digitValue
  let written := digitTable.getD digitValue.toNat 0
  if _more : value ≠ 0 then
    let rest := itoaDigits base two value
    (written :: rest.1, rest.2)
  else ([written], tmpValue)
termination_by value.natAbs
decreasing_by exact natAbs_tdiv_lt two (by assumption)

/-- The reversal loop `while (ptr1 < ptr)`: swap the bytes under the two pointers and move
both inwards. -/
def reverseInPlace (buf : CString) (ptr1 ptr : Nat) : CString :=
  if ptr1 < ptr then
    let tmpChar := buf.getD ptr 0
    let buf := buf.set ptr (buf.getD ptr1 0)
    reverseInPlace (buf.set ptr1 tmpChar) (ptr1 + 1) (ptr - 1)
  else buf
termination_by ptr - ptr1

/-- `itoa(value, str, base)`: the bytes it leaves in `str` before the NUL. A base outside
`[2, 36]` leaves the empty string. -/
def itoa (value base : Int) : CString :=
  if invalid : base < 2 ∨ base > 36 then []
  else
    let loop := itoaDigits base (by omega) value
    -- `tmp_value` is the dividend of the last pass, not `value` itself
    let written := if loop.2 < 0 ∧ base = 10 then loop.1 ++ ['-'.toUInt8] else loop.1
    reverseInPlace written 0 (written.length - 1)

/-! ### What `itoa` should print -/

/-- The digits of `n` in base `b`, most significant first, and `[0]` for 0: no leading zero. -/
def radixDigits (b n : Nat) : List Nat := if n = 0 then [0] else (Nat.digits b n).reverse

/-- The numeral of `value` in base `base`: `-` for a negative value in base 10, and then the
digits of its absolute value. -/
def radixString (value : Int) (base : Nat) : CString :=
  (if value < 0 ∧ base = 10 then ['-'.toUInt8] else []) ++
    (radixDigits base value.natAbs).map (digitTable.getD · 0)

/-- The number that decimal digits denote, most significant first. -/
def decimalNat (s : CString) : Nat := s.foldl (fun n c => 10 * n + (c.toNat - '0'.toNat)) 0

/-- The integer a decimal numeral denotes: an optional `-`, then its digits. -/
def decimalValue : CString → Int
  | [] => 0
  | c :: rest => if c = '-'.toUInt8 then -(decimalNat rest : Int) else decimalNat (c :: rest)

/-! ### One pass of the digit loop -/

theorem digitValue_eq (t base : Int) :
    (if t - t.tdiv base * base < 0 then -(t - t.tdiv base * base) else t - t.tdiv base * base).toNat =
      t.natAbs % base.natAbs := by
  have remainder : t - t.tdiv base * base = t.tmod base := by rw [Int.tmod_def, Int.mul_comm]
  rw [remainder, ← Int.natAbs_tmod]
  split <;> omega

theorem tdiv_neg_iff {base : Int} (two : 2 ≤ base) {t : Int} (more : t.tdiv base ≠ 0) :
    t.tdiv base < 0 ↔ t < 0 := by
  rcases le_or_gt 0 t with nonneg | neg
  · have := Int.tdiv_nonneg nonneg (by omega : 0 ≤ base)
    omega
  · have flip := Int.neg_tdiv (-t) base
    rw [neg_neg] at flip
    have := Int.tdiv_nonneg (by omega : 0 ≤ -t) (by omega : 0 ≤ base)
    omega

theorem radixDigits_reverse_of_pos {b n : Nat} (pos : n ≠ 0) : (radixDigits b n).reverse = Nat.digits b n := by
  rw [radixDigits, if_neg pos, List.reverse_reverse]

theorem radixDigits_lt {b : Nat} (base : 1 < b) (n : Nat) : ∀ d ∈ radixDigits b n, d < b := by
  intro d mem
  unfold radixDigits at mem
  split at mem
  · rw [List.mem_singleton.mp mem]
    omega
  · exact Nat.digits_lt_base base (List.mem_reverse.mp mem)

theorem radixDigits_ne_nil (b n : Nat) : radixDigits b n ≠ [] := by
  unfold radixDigits
  split
  · exact List.cons_ne_nil 0 []
  · next pos =>
    rw [ne_eq, List.reverse_eq_nil_iff]
    exact Nat.digits_ne_nil_iff_ne_zero.mpr pos

/-- The digit loop writes the digits of the absolute value, least significant first, and its
last `tmp_value` has the sign of the value. -/
theorem itoaDigits_spec (base : Int) (two : 2 ≤ base) (value : Int) :
    (itoaDigits base two value).1 = ((radixDigits base.toNat value.natAbs).reverse).map (digitTable.getD · 0) ∧
      ((itoaDigits base two value).2 < 0 ↔ value < 0) := by
  have baseAbs : base.natAbs = base.toNat := by omega
  induction size : value.natAbs using Nat.strong_induction_on generalizing value with
  | _ n ih =>
    have digit := digitValue_eq value base
    have quotient : (value.tdiv base).natAbs = n / base.toNat := by
      rw [Int.natAbs_tdiv, baseAbs, size]
      rfl
    rw [baseAbs, size] at digit
    rw [itoaDigits]
    dsimp only
    split
    · next more =>
      -- more digits follow: the quotient is not 0, so neither is `n / base`
      have high : n / base.toNat ≠ 0 := by
        rw [← quotient]
        exact Int.natAbs_ne_zero.mpr more
      have smaller : (value.tdiv base).natAbs < n := size ▸ natAbs_tdiv_lt two more
      obtain ⟨rest, sign⟩ := ih _ smaller (value.tdiv base) rfl
      rw [rest, sign, digit, quotient, radixDigits_reverse_of_pos (n := n) (by omega),
        Nat.digits_def' (n := n) (by omega) (by omega), radixDigits_reverse_of_pos high]
      exact ⟨rfl, tdiv_neg_iff two more⟩
    · next last =>
      -- the last pass: the value is a single digit, possibly 0
      have low : n < base.toNat := by
        have : n / base.toNat = 0 := by rw [← quotient]; simp [not_not.mp last]
        exact (Nat.div_eq_zero_iff.mp this).resolve_left (by omega)
      refine ⟨?_, Iff.rfl⟩
      rw [digit, Nat.mod_eq_of_lt low]
      by_cases zero : n = 0
      · rw [zero, radixDigits, if_pos rfl]
        rfl
      · rw [radixDigits_reverse_of_pos zero, Nat.digits_of_lt _ _ zero low]
        rfl

/-! ### The reversal loop -/

theorem getElem?_swap (buf : CString) {ptr1 ptr : Nat} (lt : ptr1 < ptr) (inside : ptr < buf.length) (j : Nat) :
    ((buf.set ptr (buf.getD ptr1 0)).set ptr1 (buf.getD ptr 0))[j]? =
      if j = ptr1 then buf[ptr]? else if j = ptr then buf[ptr1]? else buf[j]? := by
  have ptr1_lt : ptr1 < buf.length := by omega
  by_cases first : j = ptr1
  · subst first
    simp [List.getElem?_eq_getElem inside, ptr1_lt]
  · by_cases second : j = ptr
    · subst second
      simp [List.getElem?_eq_getElem ptr1_lt, inside, first, Ne.symm first]
    · simp [first, second, Ne.symm first, Ne.symm second]

theorem getElem?_reverseInPlace (buf : CString) (ptr1 ptr : Nat) (inside : ptr < buf.length) (k : Nat) :
    (reverseInPlace buf ptr1 ptr)[k]? = if ptr1 ≤ k ∧ k ≤ ptr then buf[ptr1 + ptr - k]? else buf[k]? := by
  rw [reverseInPlace]
  split
  · next lt =>
    -- one swap, then the loop on the bytes strictly between the pointers
    rw [getElem?_reverseInPlace _ (ptr1 + 1) (ptr - 1) (by simp only [List.length_set]; omega) k,
      getElem?_swap buf lt inside, getElem?_swap buf lt inside]
    split_ifs <;> first | rfl | (congr 1; omega)
  · next done =>
    split_ifs with between
    · congr 1
      omega
    · rfl
termination_by ptr - ptr1

theorem reverseInPlace_eq_reverse (buf : CString) : reverseInPlace buf 0 (buf.length - 1) = buf.reverse := by
  rcases Nat.eq_zero_or_pos buf.length with empty | nonempty
  · rw [List.length_eq_zero_iff.mp empty, reverseInPlace, if_neg (by simp)]
    rfl
  · apply List.ext_getElem?
    intro k
    rw [getElem?_reverseInPlace _ _ _ (by omega) k]
    by_cases within : k < buf.length
    · rw [if_pos ⟨Nat.zero_le k, by omega⟩, List.getElem?_reverse within, Nat.zero_add]
    · rw [if_neg (by omega), List.getElem?_eq_none (by omega),
        List.getElem?_eq_none (by rw [List.length_reverse]; omega)]

/-! ### `itoa` -/

theorem itoa_eq_radixString (value base : Int) (valid : 2 ≤ base ∧ base ≤ 36) :
    itoa value base = radixString value base.toNat := by
  obtain ⟨digits, sign⟩ := itoaDigits_spec base valid.1 value
  rw [itoa, dif_neg (by omega)]
  dsimp only
  rw [reverseInPlace_eq_reverse, radixString]
  by_cases negative : value < 0 ∧ base = 10
  · rw [if_pos ⟨sign.mpr negative.1, negative.2⟩, if_pos ⟨negative.1, by omega⟩, digits,
      List.reverse_append, List.map_reverse, List.reverse_reverse]
    rfl
  · rw [if_neg fun both => negative ⟨sign.mp both.1, both.2⟩, if_neg (by omega), digits, List.map_reverse,
      List.reverse_reverse, List.nil_append]

theorem digitTable_decimal : ∀ d < 10, (digitTable.getD d 0).toNat = '0'.toNat + d := by decide

theorem digitTable_ne_minus : ∀ d < 36, digitTable.getD d 0 ≠ '-'.toUInt8 := by decide

theorem decimalNat_map_reverse (ds : List Nat) (decimal : ∀ d ∈ ds, d < 10) :
    decimalNat (ds.reverse.map (digitTable.getD · 0)) = Nat.ofDigits 10 ds := by
  induction ds with
  | nil => rfl
  | cons d ds ih =>
    have low := digitTable_decimal d (decimal d List.mem_cons_self)
    rw [List.reverse_cons, List.map_append, decimalNat, List.foldl_append, ← decimalNat,
      ih fun x mem => decimal x (List.mem_cons_of_mem d mem), Nat.ofDigits_cons]
    simp only [List.map_cons, List.map_nil, List.foldl_cons, List.foldl_nil, low]
    omega

theorem decimalNat_radixDigits (n : Nat) :
    decimalNat ((radixDigits 10 n).map (digitTable.getD · 0)) = n := by
  by_cases zero : n = 0
  · rw [zero, radixDigits, if_pos rfl]
    rfl
  · rw [radixDigits, if_neg zero, decimalNat_map_reverse _ fun _ mem => Nat.digits_lt_base (by norm_num) mem,
      Nat.ofDigits_digits]

theorem decimalValue_radixString (value : Int) : decimalValue (radixString value 10) = value := by
  have digits := decimalNat_radixDigits value.natAbs
  by_cases negative : value < 0
  · rw [radixString, if_pos ⟨negative, rfl⟩, List.singleton_append, decimalValue, if_pos rfl, digits]
    omega
  · rw [radixString, if_neg fun both => negative both.1, List.nil_append]
    -- a numeral of digits starts with a digit, never with `-`
    obtain ⟨d, rest, shape⟩ := List.exists_cons_of_ne_nil (radixDigits_ne_nil 10 value.natAbs)
    have first := radixDigits_lt (b := 10) (by norm_num) value.natAbs d (by rw [shape]; exact List.mem_cons_self)
    rw [shape, List.map_cons] at digits
    rw [shape, List.map_cons, decimalValue, if_neg (digitTable_ne_minus d (by omega)), digits]
    omega

/-- `itoa` is a radix printer: for every value and every base in `[2, 36]` it writes the digits
of the absolute value, most significant first and without leading zeros, after a `-` exactly
for a negative value in base 10; and the decimal numeral reads back as the value. -/
theorem itoa_radix_printer (value base : Int) (valid : 2 ≤ base ∧ base ≤ 36) :
    itoa value base = radixString value base.toNat ∧ (base = 10 → decimalValue (itoa value base) = value) := by
  refine ⟨itoa_eq_radixString value base valid, ?_⟩
  rintro rfl
  rw [itoa_eq_radixString value 10 valid]
  exact decimalValue_radixString value

/-- `INT_MIN` in base 10, the value whose negation is not an `int`. -/
theorem itoa_int_min :
    (2 ≤ (10 : Int) ∧ (10 : Int) ≤ 36) ∧
      itoa (-2147483648) 10 = radixString (-2147483648) 10 ∧ decimalValue (itoa (-2147483648) 10) = -2147483648 :=
  ⟨⟨by decide, by decide⟩, (itoa_radix_printer (-2147483648) 10 ⟨by decide, by decide⟩).imp_right fun back => back rfl⟩

end OpenOS.Kernel
