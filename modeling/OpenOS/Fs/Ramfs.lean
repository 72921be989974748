import OpenOS.Fs.Vfs

/-! What `ramfs_write` and `ramfs_read` touch. The byte loop of `ramfs_write` stores
`buffer[i]` at the 32-bit index `offset + i`; in closed form it writes the `n` indices from
`offset` on, wrapping at 2^32. When `offset + size` stays within the capacity of a file the
write lands in place and reads back. The clamps are computed in 32 bits, though: for an offset
past the capacity `VFS_MAX_FILE_SIZE - offset` wraps to a huge count, which the loop stores
from `offset` on, past the array, and which `ssize_t` returns as a negative number. -/
namespace OpenOS.Fs

variable {node : Node} {offset size : UInt32} {buf : Nat → UInt8}

theorem toInt32_toInt (s : UInt32) :
    s.toInt32.toInt = if 2 * s.toNat < 2^32 then (s.toNat : Int) else s.toNat - 2^32 := by
  show s.toBitVec.toInt = _
  rw [BitVec.toInt_eq_toNat_cond]
  rfl

theorem index_toNat (offset : UInt32) (i : Nat) :
    (offset + i.toUInt32).toNat = (offset.toNat + i) % 2^32 := by
  simp [UInt32.toNat_add]

/-- The loop of `ramfs_write` in closed form: index `j` holds `buf` at its distance from
`offset`, counted modulo 2^32, when that distance is below `n`. -/
theorem storeBytes_apply (offset : UInt32) (buf content : Nat → UInt8) {n : Nat}
    (hn : n ≤ 2^32) (j : Nat) :
    storeBytes offset buf content n j =
      if j < 2^32 ∧ (j + 2^32 - offset.toNat) % 2^32 < n then buf ((j + 2^32 - offset.toNat) % 2^32)
      else content j := by
  have lt := offset.toNat_lt
  induction n with
  | zero => simp [storeBytes]
  | succ n ih =>
    rw [storeBytes, Function.update_apply, index_toNat, ih (by omega)]
    by_cases hit : j = (offset.toNat + n) % 2^32
    -- the last step of the loop writes `j`, at distance `n`
    · have dist : (j + 2^32 - offset.toNat) % 2^32 = n := by omega
      simp only [hit, if_true]
      rw [← hit, dist]
      simp only [Nat.lt_add_one, and_true, if_pos (show j < 2^32 by omega)]
    -- otherwise the distance of `j` is not `n`, and the earlier steps decide
    · have same : (j < 2^32 ∧ (j + 2^32 - offset.toNat) % 2^32 < n + 1) ↔
          (j < 2^32 ∧ (j + 2^32 - offset.toNat) % 2^32 < n) := by omega
      simp only [hit, if_false, same]

theorem storeBytes_of_le {content : Nat → UInt8} {n : Nat} (fits : offset.toNat + n ≤ 2^32)
    (j : Nat) :
    storeBytes offset buf content n j =
      if offset.toNat ≤ j ∧ j < offset.toNat + n then buf (j - offset.toNat) else content j := by
  rw [storeBytes_apply offset buf content (by omega)]
  by_cases inside : offset.toNat ≤ j ∧ j < offset.toNat + n
  · have dist : (j + 2^32 - offset.toNat) % 2^32 = j - offset.toNat := by omega
    rw [dist, if_pos ⟨by omega, by omega⟩, if_pos inside]
  · have outside : ¬ (j < 2^32 ∧ (j + 2^32 - offset.toNat) % 2^32 < n) := by omega
    rw [if_neg outside, if_neg inside]

theorem ramfsWrite_file (file : node.type = .file) :
    ramfsWrite offset size buf node =
      ((writeSize offset size).toInt32.toInt,
        { node with
          content := storeBytes offset buf node.content (writeSize offset size).toNat
          length := if offset + writeSize offset size > node.length then offset + writeSize offset size
            else node.length }) := by
  unfold ramfsWrite
  rw [if_neg (by rw [file]; exact not_not_intro rfl)]
  dsimp only
  split_ifs <;> rfl

theorem lt_of_fits (fits : offset.toNat + size.toNat ≤ vfsMaxFileSize) :
    offset.toNat + size.toNat < 2^32 := by
  unfold vfsMaxFileSize at fits
  omega

theorem add_toNat_of_fits (fits : offset.toNat + size.toNat ≤ vfsMaxFileSize) :
    (offset + size).toNat = offset.toNat + size.toNat := by
  rw [UInt32.toNat_add]
  exact Nat.mod_eq_of_lt (lt_of_fits fits)

theorem gt_add_iff_of_fits (fits : offset.toNat + size.toNat ≤ vfsMaxFileSize) (x : UInt32) :
    offset + size > x ↔ x.toNat < offset.toNat + size.toNat := by
  rw [gt_iff_lt, UInt32.lt_iff_toNat_lt, add_toNat_of_fits fits]

theorem writeSize_of_fits (fits : offset.toNat + size.toNat ≤ vfsMaxFileSize) :
    writeSize offset size = size := by
  unfold writeSize
  rw [if_neg]
  rw [gt_add_iff_of_fits fits]
  simpa [vfsMaxFileSize] using fits

theorem toInt_of_fits {s : UInt32} (fits : s.toNat ≤ vfsMaxFileSize) : s.toInt32.toInt = s.toNat := by
  rw [toInt32_toInt, if_pos (by unfold vfsMaxFileSize at fits; omega)]

/-- A write that fits stores `buf` at `[offset, offset + size)`, keeps every other byte,
raises the length to the end of the write, and returns `size`. -/
theorem ramfsWrite_of_fits (file : node.type = .file)
    (fits : offset.toNat + size.toNat ≤ vfsMaxFileSize) :
    (ramfsWrite offset size buf node).1 = size.toNat ∧
      (∀ j, (ramfsWrite offset size buf node).2.content j =
        if offset.toNat ≤ j ∧ j < offset.toNat + size.toNat then buf (j - offset.toNat)
        else node.content j) ∧
      (ramfsWrite offset size buf node).2.length.toNat = max node.length.toNat (offset.toNat + size.toNat) ∧
      (ramfsWrite offset size buf node).2.type = .file := by
  rw [ramfsWrite_file file, writeSize_of_fits fits]
  refine ⟨toInt_of_fits (by omega), storeBytes_of_le (lt_of_fits fits).le, ?_, file⟩
  dsimp only
  split_ifs with longer
  · rw [gt_add_iff_of_fits fits] at longer
    rw [add_toNat_of_fits fits]
    omega
  · rw [gt_add_iff_of_fits fits] at longer
    omega

/-- A read inside the length of a file that fits returns `size` bytes from `offset` on. -/
theorem ramfsRead_of_within (file : node.type = .file)
    (fits : offset.toNat + size.toNat ≤ vfsMaxFileSize)
    (within : offset.toNat + size.toNat ≤ node.length.toNat) :
    ramfsRead offset size node =
      ((size.toNat : Int), (List.range size.toNat).map fun i => node.content (offset.toNat + i)) := by
  unfold ramfsRead
  rw [if_neg (by rw [file]; exact not_not_intro rfl)]
  split_ifs with past
  -- reading at the end of the file: only an empty read gets here
  · rw [ge_iff_le, UInt32.le_iff_toNat_le] at past
    have empty : size.toNat = 0 := by omega
    simp [empty]
  · have uncut : readSize offset size node.length = size := by
      unfold readSize
      rw [if_neg]
      rw [gt_add_iff_of_fits fits]
      omega
    rw [uncut]
    dsimp only
    rw [toInt_of_fits (show size.toNat ≤ vfsMaxFileSize by omega)]
    have index : ∀ i ∈ List.range size.toNat, (offset + i.toUInt32).toNat = offset.toNat + i := by
      intro i mem
      rw [List.mem_range] at mem
      rw [index_toNat]
      exact Nat.mod_eq_of_lt (by have := lt_of_fits fits; omega)
    rw [List.map_inj_left.mpr fun i mem => congrArg node.content (index i mem)]

/-- `/etc/motd.txt` of `vfs_init` is a 58-byte file. Writing one byte at offset 5000 clamps
the count to `4096 - 5000`, which wraps to `2^32 - 904`: the loop stores the byte at index
5000, past the 4096-byte array, and `ramfs_write` returns `-904`. Reading `2^32 - 5` bytes
from offset 10 is not cut either, since `10 + size` wraps to 5, and returns `-5`. -/
theorem ramfs_write_past_capacity (buf : Nat → UInt8) :
    (vfsWrite ⟨5, by decide⟩ 5000 1 buf vfsInit).1 = -904 ∧
      ((vfsWrite ⟨5, by decide⟩ 5000 1 buf vfsInit).2.pool ⟨5, by decide⟩).content 5000 = buf 0 ∧
      (vfsRead ⟨5, by decide⟩ 10 (2^32 - 5) vfsInit).1 = -5 := by
  have file : (vfsInit.pool ⟨5, by decide⟩).type = .file := by decide +kernel
  have wrapped : writeSize 5000 1 = 4096 - 5000 := by decide
  refine ⟨?_, ?_, by decide +kernel⟩
  · simp only [vfsWrite, ramfsWrite_file file, wrapped]
    decide
  · simp only [vfsWrite, ramfsWrite_file file, wrapped, Function.update_self]
    rw [storeBytes_apply 5000 buf _ (by decide), if_pos (by decide)]
    exact congrArg buf (by decide)
end OpenOS.Fs
