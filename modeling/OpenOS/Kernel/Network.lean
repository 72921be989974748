import Mathlib
import OpenOS.Lib.Bits
import OpenOS.Lib.OnesComplement

/-! `net_checksum` of `kernel/network.c`. The buffer, of `length` bytes, is a list of bytes.
It is read as 16-bit words in host order, little-endian on the i386 target, and a trailing
odd byte is added on its own. The words go into a 32-bit `sum`, and the carries are folded
back only at the end. That is the RFC 1071 checksum as long as the words add up to less than
`2^32`, which holds for every buffer of at most 131074 bytes. A longer buffer can overflow
the accumulator, and each wrap loses one from the one's-complement sum. -/
namespace OpenOS.Network

open OnesComplement

/-- The `uint16_t` that `*ptr` loads from two bytes on a little-endian machine. -/
def hostWord (lo hi : UInt8) : UInt16 := lo.toUInt16 ||| hi.toUInt16 <<< 8

/-- The two loops of `net_checksum` before the fold: one host-order word per pair of bytes,
then a trailing odd byte as a word of its own, added into the 32-bit `sum`. -/
def checksumSum (sum : UInt32) : List UInt8 → UInt32
  | lo :: hi :: rest => checksumSum (sum + (hostWord lo hi).toUInt32) rest
  | [lo] => sum + lo.toUInt32
  | [] => sum

theorem toNat_hostWord (lo hi : UInt8) : (hostWord lo hi).toNat = lo.toNat + 256 * hi.toNat := by
  have lo_lt := lo.toNat_lt
  have hi_lt := hi.toNat_lt
  have shifted : hi.toNat <<< 8 % 2^16 = hi.toNat * 2^8 := by
    rw [Nat.shiftLeft_eq, Nat.mod_eq_of_lt (by omega)]
  simp only [hostWord, UInt16.toNat_or, UInt16.toNat_shiftLeft, UInt8.toNat_toUInt16,
    show (8 : UInt16).toNat % 16 = 8 from rfl, shifted]
  rw [Nat.lor_comm, Bits.mul_two_pow_or_of_lt _ lo_lt]
  omega

theorem toNat_foldStep (sum : UInt32) :
    ((sum &&& (0xFFFF : UInt32)) + (sum >>> 16)).toNat = fold (2^16) sum.toNat := by
  have low : sum.toNat &&& 65535 = sum.toNat % 2^16 := Nat.and_two_pow_sub_one_eq_mod _ 16
  have := sum.toNat_lt
  simp only [UInt32.toNat_add, UInt32.toNat_and, UInt32.toNat_shiftRight,
    show UInt32.toNat 65535 = 65535 from rfl, show UInt32.toNat 16 % 32 = 16 from rfl,
    low, Nat.shiftRight_eq_div_pow, fold]
  exact Nat.mod_eq_of_lt (by omega)

theorem shiftRight_ne_zero_iff (sum : UInt32) : sum >>> 16 ≠ 0 ↔ 2^16 ≤ sum.toNat := by
  rw [ne_eq, ← UInt32.toNat_inj, UInt32.toNat_shiftRight, show (16 : UInt32).toNat % 32 = 16 from rfl,
    Nat.shiftRight_eq_div_pow, show (0 : UInt32).toNat = 0 from rfl, Nat.div_eq_zero_iff]
  omega

/-- The carry fold of `net_checksum`: `while (sum >> 16) sum = (sum & 0xFFFF) + (sum >> 16)`.
Each pass makes the sum smaller. -/
def foldCarries (sum : UInt32) : UInt32 :=
  if sum >>> 16 ≠ 0 then foldCarries ((sum &&& (0xFFFF : UInt32)) + (sum >>> 16)) else sum
termination_by sum.toNat
decreasing_by
  rw [toNat_foldStep]
  exact fold_lt (by norm_num) ((shiftRight_ne_zero_iff sum).mp (by assumption))

/-- `net_checksum(data, length)`: the complement of the folded sum, cut to 16 bits. -/
def netChecksum (data : List UInt8) : UInt16 := (~~~ foldCarries (checksumSum 0 data)).toUInt16

/-! ### The RFC 1071 checksum -/

/-- The words the Internet checksum adds for a buffer: host-order 16-bit words, and a
trailing odd byte as a word whose high byte is zero. -/
def hostWords : List UInt8 → List Nat
  | lo :: hi :: rest => (lo.toNat + 256 * hi.toNat) :: hostWords rest
  | [lo] => [lo.toNat]
  | [] => []

/-- The RFC 1071 checksum of a buffer: the 16-bit one's complement of the end-around-carry
sum of its words. -/
def internetChecksum (data : List UInt8) : Nat := 0xFFFF - OnesComplement.sum (2^16) (hostWords data)

theorem hostWords_lt : ∀ data : List UInt8, ∀ w ∈ hostWords data, w < 2^16
  | lo :: hi :: rest, w, mem => by
    rw [hostWords, List.mem_cons] at mem
    rcases mem with rfl | mem
    · have := lo.toNat_lt
      have := hi.toNat_lt
      omega
    · exact hostWords_lt rest w mem
  | [lo], w, mem => by
    rw [hostWords, List.mem_singleton] at mem
    have := lo.toNat_lt
    omega
  | [], _, mem => by simp [hostWords] at mem

theorem internetChecksum_eq (data : List UInt8) :
    internetChecksum data = 0xFFFF - residue (2^16) (hostWords data).sum := by
  rw [internetChecksum, sum_eq_residue (by norm_num) _ (hostWords_lt data)]

/-! ### What the code computes -/

theorem toNat_checksumSum : ∀ (sum : UInt32) (data : List UInt8),
    (checksumSum sum data).toNat = (sum.toNat + (hostWords data).sum) % 2^32
  | sum, lo :: hi :: rest => by
    rw [checksumSum, toNat_checksumSum _ rest, UInt32.toNat_add, UInt16.toNat_toUInt32,
      toNat_hostWord, hostWords, List.sum_cons, Nat.mod_add_mod, Nat.add_assoc]
  | sum, [lo] => by
    rw [checksumSum, UInt32.toNat_add, UInt8.toNat_toUInt32, hostWords, List.sum_singleton]
  | sum, [] => by
    rw [checksumSum, hostWords, List.sum_nil, Nat.add_zero, Nat.mod_eq_of_lt sum.toNat_lt]

theorem toNat_foldCarries (sum : UInt32) : (foldCarries sum).toNat = residue (2^16) sum.toNat := by
  induction sum using foldCarries.induct with
  | case1 sum carries ih =>
    rw [foldCarries, if_pos carries, ih, toNat_foldStep, residue_fold (by norm_num)]
  | case2 sum done =>
    have below : sum.toNat < 2^16 := by
      have := (shiftRight_ne_zero_iff sum).not.mp done
      omega
    rw [foldCarries, if_neg done, residue_of_lt (by norm_num) below]

theorem toNat_netChecksum (data : List UInt8) :
    (netChecksum data).toNat = 0xFFFF - residue (2^16) ((hostWords data).sum % 2^32) := by
  have folded := toNat_foldCarries (checksumSum 0 data)
  rw [toNat_checksumSum, show (0 : UInt32).toNat = 0 from rfl, Nat.zero_add] at folded
  have below := residue_lt (m := 2^16) (by norm_num) ((hostWords data).sum % 2^32)
  rw [netChecksum, UInt32.toNat_toUInt16, UInt32.toNat_not, folded, show UInt32.size = 2^32 from rfl]
  omega

theorem netChecksum_eq_internetChecksum (data : List UInt8) (fits : (hostWords data).sum < 2^32) :
    (netChecksum data).toNat = internetChecksum data := by
  rw [toNat_netChecksum, internetChecksum_eq, Nat.mod_eq_of_lt fits]

theorem hostWords_sum_le : ∀ data : List UInt8,
    (hostWords data).sum ≤ data.length / 2 * 0xFFFF + data.length % 2 * 0xFF
  | lo :: hi :: rest => by
    have := hostWords_sum_le rest
    have := lo.toNat_lt
    have := hi.toNat_lt
    simp only [hostWords, List.sum_cons, List.length_cons] at this ⊢
    omega
  | [lo] => by
    have := lo.toNat_lt
    simp only [hostWords, List.sum_singleton, List.length_singleton]
    omega
  | [] => by simp [hostWords]

/-- So every buffer of at most 131074 bytes gets its RFC 1071 checksum. -/
theorem netChecksum_rfc1071_of_length (data : List UInt8) (short : data.length ≤ 131074) :
    (netChecksum data).toNat = internetChecksum data := by
  have := hostWords_sum_le data
  exact netChecksum_eq_internetChecksum data (by omega)

/-- The 20-byte header of an IPv4 packet. -/
theorem netChecksum_rfc1071_ipv4_header :
    (List.replicate 20 (0x45 : UInt8)).length ≤ 131074 ∧
      (netChecksum (List.replicate 20 0x45)).toNat = internetChecksum (List.replicate 20 0x45) :=
  ⟨by decide, netChecksum_rfc1071_of_length _ (by decide)⟩

/-! ### A buffer that wraps the accumulator -/

theorem hostWords_replicate_odd (b : UInt8) (k : Nat) :
    (hostWords (List.replicate (2 * k + 1) b)).sum = k * (b.toNat + 256 * b.toNat) + b.toNat := by
  induction k with
  | zero => simp [hostWords]
  | succ k ih =>
    rw [show 2 * (k + 1) + 1 = 2 * k + 1 + 1 + 1 by omega, List.replicate_succ, List.replicate_succ,
      hostWords, List.sum_cons, ih]
    ring

/-- 131075 bytes of `0xFF`: 65537 words `0xFFFF` and an odd byte add up to `2^32 + 254`, the
accumulator keeps 254, and `net_checksum` gives `0xFF01` where RFC 1071 gives `0xFF00`. -/
theorem net_checksum_long_buffer_off_by_one :
    (List.replicate 131075 (0xFF : UInt8)).length = 131075 ∧
      (netChecksum (List.replicate 131075 0xFF)).toNat = 0xFF01 ∧
      internetChecksum (List.replicate 131075 0xFF) = 0xFF00 := by
  have total : (hostWords (List.replicate 131075 (0xFF : UInt8))).sum = 2^32 + 254 := by
    rw [show 131075 = 2 * 65537 + 1 from rfl, hostWords_replicate_odd]
    rfl
  refine ⟨List.length_replicate, ?_, ?_⟩
  · rw [toNat_netChecksum, total]
    decide
  · rw [internetChecksum_eq, total]
    decide

end OpenOS.Network
