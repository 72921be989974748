import Mathlib
import OpenOS.Kernel.Strings
import OpenOS.Process.Lifecycle

/-! The numeric arguments of the process commands of `kernel/proc_commands.c`. `parse_uint`
accepts a non-empty string of decimal digits and accumulates `v * 10 + d` in `uint32_t` with no
check, so it returns the typed value modulo 2^32: `kill 4294967298` is `kill 2`. -/
namespace OpenOS.Kernel

open OpenOS.Process

/-- The test of `parse_uint` for one character. A byte from `0x80` on is a negative `char` in
the source and fails `s[i] < '0'`; here it fails `s[i] > '9'`, with the same outcome. -/
def isDigit (c : UInt8) : Bool := !(c < '0'.toUInt8 || c > '9'.toUInt8)

/-- The loop of `parse_uint` from the accumulator `v`. -/
def parseDigits (v : UInt32) : CString → Option UInt32
  | [] => some v
  | c :: cs => if !isDigit c then none else parseDigits (v * 10 + (c - '0'.toUInt8).toUInt32) cs

/-- `parse_uint`: `none` for the `-1` return. -/
def parseUint (s : CString) : Option UInt32 := if s = [] then none else parseDigits 0 s

/-- The value of a string of decimal digits, read from the accumulator `v`. -/
def decimalFrom (v : Nat) (s : CString) : Nat := s.foldl (fun v c => v * 10 + (c.toNat - 0x30)) v

/-- `write_dec`: the decimal digits of a `uint32_t`, most significant first. -/
def writeDec (v : UInt32) : CString := (Nat.toDigits 10 v.toNat).map Char.toUInt8

/-- `cmd_kill`: `none` when the call does not return. -/
def cmdKill (args : List CString) (s : State) : Option (State × CString) :=
  match args with
  | [] => some (s, cstr "Usage: kill <pid>\n")
  | a :: _ =>
    match parseUint a with
    | none => some (s, cstr "kill: invalid pid\n")
    | some pid =>
      if pid.toNat = (s.table s.current).pid then some (s, cstr "kill: refusing to kill the shell\n")
      else
        match processKill pid.toNat s with
        | (none, _) => none
        | (some result, s) =>
          some (s, if result = 0 then cstr "Process " ++ writeDec pid ++ cstr " terminated\n"
            else cstr "kill: no such process\n")

/-! ### What `parse_uint` computes -/

theorem decimalFrom_eq (v : Nat) (s : CString) : decimalFrom v s = v * 10^s.length + decimalFrom 0 s := by
  induction s generalizing v with
  | nil => simp [decimalFrom]
  | cons c s ih =>
    simp only [decimalFrom, List.foldl_cons] at ih ⊢
    rw [ih, ih (0 * 10 + (c.toNat - 0x30)), List.length_cons, Nat.pow_succ]
    ring

theorem decimalFrom_mod (v : Nat) (s : CString) :
    decimalFrom (v % 2^32) s % 2^32 = decimalFrom v s % 2^32 := by
  rw [decimalFrom_eq, decimalFrom_eq v, Nat.add_mod, Nat.mul_mod, Nat.mod_mod,
    ← Nat.mul_mod, ← Nat.add_mod]

theorem step_toNat {c : UInt8} (digit : isDigit c = true) (v : UInt32) :
    (v * 10 + (c - '0'.toUInt8).toUInt32).toNat = (v.toNat * 10 + (c.toNat - 0x30)) % 2^32 := by
  simp only [isDigit, Bool.not_eq_true', Bool.or_eq_false_iff, decide_eq_false_iff_not] at digit
  have low : ¬ c.toNat < 0x30 := fun below => digit.1 (UInt8.lt_iff_toNat_lt.mpr below)
  have sub : (c - '0'.toUInt8).toNat = c.toNat - 0x30 :=
    UInt8.toNat_sub_of_le _ _ (UInt8.le_iff_toNat_le.mpr (by rw [show '0'.toUInt8.toNat = 0x30 from rfl]; omega))
  rw [UInt32.toNat_add, UInt32.toNat_mul, UInt8.toNat_toUInt32, sub, show (10 : UInt32).toNat = 10 from rfl]
  omega

/-- The loop from any accumulator: the value of the digits modulo 2^32, or `none` at a
character that is not a digit. -/
theorem parseDigits_eq (v : UInt32) (s : CString) :
    parseDigits v s = if s.all isDigit then some (decimalFrom v.toNat s).toUInt32 else none := by
  induction s generalizing v with
  | nil => simp [parseDigits, decimalFrom]
  | cons c s ih =>
    by_cases digit : isDigit c = true
    · rw [parseDigits, if_neg (by simp [digit]), ih, List.all_cons, digit, Bool.true_and]
      split_ifs
      -- the accumulator agrees with the unbounded one modulo 2^32
      · apply congrArg some
        apply UInt32.toNat_inj.mp
        have cons : decimalFrom v.toNat (c :: s) = decimalFrom (v.toNat * 10 + (c.toNat - 0x30)) s := rfl
        rw [Nat.toUInt32, UInt32.toNat_ofNat', UInt32.toNat_ofNat', step_toNat digit,
          decimalFrom_mod, cons]
      · rfl
    · simp [parseDigits, digit]

theorem parseUint_eq (s : CString) :
    parseUint s = if s ≠ [] ∧ s.all isDigit then some (decimalFrom 0 s).toUInt32 else none := by
  unfold parseUint
  by_cases empty : s = []
  · simp [empty]
  · rw [if_neg empty, parseDigits_eq]
    simp [empty]

theorem parseUint_exact {s : CString} (nonempty : s ≠ []) (digits : s.all isDigit)
    (small : decimalFrom 0 s < 2^32) : (parseUint s).map UInt32.toNat = some (decimalFrom 0 s) := by
  rw [parseUint_eq, if_pos ⟨nonempty, digits⟩, Option.map_some, Nat.toUInt32, UInt32.toNat_ofNat',
    Nat.mod_eq_of_lt small]

/-- `parse_uint("4294967298")` returns 0 and the value 2: the typed value wraps. So in every
process state `kill 4294967298` does exactly what `kill 2` does. -/
theorem parse_uint_wraps :
    decimalFrom 0 (cstr "4294967298") = 2^32 + 2 ∧ parseUint (cstr "4294967298") = some 2 ∧
      ∀ s : State, cmdKill [cstr "4294967298"] s = cmdKill [cstr "2"] s := by
  have wrapped : parseUint (cstr "4294967298") = some 2 := by decide +kernel
  have two : parseUint (cstr "2") = some 2 := by decide +kernel
  refine ⟨by decide +kernel, wrapped, fun s => ?_⟩
  simp only [cmdKill, wrapped, two]

end OpenOS.Kernel
