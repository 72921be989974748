import OpenOS.Fs.Ramfs
import OpenOS.Fs.Shell

/-! Reading back what was written. A `vfs_write` that fits in the capacity of a file lands in
place and a `vfs_read` of the same range returns it. `cmd_write` builds its payload with a
bounded loop, which is the space-joined words and a newline cut to `VFS_MAX_FILE_SIZE`
bytes; it writes the payload at offset 0 and sets the length to it, so `cmd_cat` of the file
prints exactly the payload. -/
namespace OpenOS.Fs

open OpenOS.Kernel

variable {v : Vfs} {sh : Shell} {n f : NodeId}

theorem vfsWrite_eq (offset size : UInt32) (buf : Nat → UInt8) :
    vfsWrite n offset size buf v = ((ramfsWrite offset size buf (v.pool n)).1,
      { v with pool := Function.update v.pool n (ramfsWrite offset size buf (v.pool n)).2 }) := rfl

@[simp] theorem vfsWrite_pool_self (offset size : UInt32) (buf : Nat → UInt8) :
    (vfsWrite n offset size buf v).2.pool n = (ramfsWrite offset size buf (v.pool n)).2 := by
  simp [vfsWrite_eq]

/-! ### The payload of `cmd_write` -/

theorem take_take_append (l r : List UInt8) (k : Nat) : (l.take k ++ r).take k = (l ++ r).take k := by
  by_cases short : l.length ≤ k
  · rw [List.take_of_length_le short]
  · rw [List.take_append_of_le_length (by simp; omega), List.take_append_of_le_length (by omega),
      List.take_take, Nat.min_self]

theorem appendBounded_eq {buf : List UInt8} (room : buf.length ≤ vfsMaxFileSize) (bytes : List UInt8) :
    appendBounded buf bytes = (buf ++ bytes).take vfsMaxFileSize := by
  induction bytes generalizing buf with
  | nil => simp [appendBounded, List.take_of_length_le room]
  | cons b bytes ih =>
    unfold appendBounded
    split_ifs with below
    · rw [ih (by simp; omega)]
      simp
    · rw [List.take_append_of_le_length (by omega), List.take_of_length_le room]

theorem assembleWords_eq {buf : List UInt8} (room : buf.length ≤ vfsMaxFileSize) (words : List CString) :
    assembleWords false buf words =
      (buf ++ words.flatMap (' '.toUInt8 :: ·)).take vfsMaxFileSize := by
  induction words generalizing buf with
  | nil => simp [assembleWords, List.take_of_length_le room]
  | cons w words ih =>
    unfold assembleWords
    by_cases below : buf.length < vfsMaxFileSize
    -- a space, the word and the rest, each cut at the capacity
    · rw [if_pos below]
      dsimp only
      rw [if_pos ⟨rfl, below⟩, appendBounded_eq (by simp; omega), ih (List.length_take_le _ _),
        take_take_append]
      simp
    · rw [if_neg below, List.take_append_of_le_length (by omega), List.take_of_length_le room]

theorem intercalate_space (w : CString) (words : List CString) :
    [' '.toUInt8].intercalate (w :: words) = w ++ words.flatMap (' '.toUInt8 :: ·) := by
  induction words generalizing w with
  | nil => simp
  | cons w' words ih =>
    rw [List.intercalate_cons_cons, ih, List.flatMap_cons]
    simp

/-- The payload of `cmd_write` is the words joined by spaces and a newline, cut to
`VFS_MAX_FILE_SIZE` bytes. -/
theorem assemblePayload_eq (words : List CString) :
    assemblePayload words =
      ([' '.toUInt8].intercalate words ++ ['\n'.toUInt8]).take vfsMaxFileSize := by
  have joined : assembleWords true [] words = ([' '.toUInt8].intercalate words).take vfsMaxFileSize := by
    cases words with
    | nil => rfl
    | cons w words =>
      rw [assembleWords, if_pos (by decide), intercalate_space]
      dsimp only
      rw [if_neg (by simp), appendBounded_eq (by decide), assembleWords_eq (List.length_take_le _ _),
        take_take_append]
      simp
  unfold assemblePayload
  rw [joined]
  dsimp only
  split_ifs with below
  -- the words fit, and the newline goes after them
  · have short : ([' '.toUInt8].intercalate words).length < vfsMaxFileSize := by
      rw [List.length_take] at below
      omega
    rw [List.take_of_length_le short.le, List.take_of_length_le (by simp; omega)]
  -- the words fill the capacity, and the newline is cut off
  · rw [List.take_append_of_le_length (by simp at below ⊢; omega)]

theorem length_assemblePayload (words : List CString) :
    (assemblePayload words).length ≤ vfsMaxFileSize := by
  rw [assemblePayload_eq]
  exact List.length_take_le _ _

/-! ### `cmd_write`, then `cmd_cat` -/

/-- The file `cmd_write` opens is a file node: one it found, or one it created. -/
theorem writeOpen_file {name : CString} {sh₁ : Shell} (opened : writeOpen name sh = some (sh₁, .ok f)) :
    (sh₁.vfs.pool f).type = .file := by
  unfold writeOpen at opened
  obtain ⟨⟨parent, leaf⟩, -, opened⟩ := Option.map_eq_some_iff.mp opened
  dsimp only at opened
  split at opened
  · cases opened
  · next dir =>
    split_ifs at opened
    · cases opened
    · split at opened
      -- an existing node, kept only when it is a file
      · split_ifs at opened with notFile
        · cases opened
        · simp only [Prod.mk.injEq, Except.ok.injEq] at opened
          obtain ⟨rfl, rfl⟩ := opened
          exact not_not.mp notFile
      -- a new file node, which `vfs_add_child` leaves a file
      · split at opened
        · cases opened
        · next f' v created =>
          split_ifs at opened
          · cases opened
          · simp only [Prod.mk.injEq, Except.ok.injEq] at opened
            obtain ⟨rfl, rfl⟩ := opened
            rw [vfsAddChild_type dir f' f' v, vfsCreateNode_type created]

/-- The second half of `cmd_write` on a file prints nothing and leaves the file holding exactly
the payload. -/
theorem writeBody_spec (file : (sh.vfs.pool f).type = .file) (words : List CString) :
    (writeBody f words sh).2 = [] ∧ ((writeBody f words sh).1.vfs.pool f).type = .file ∧
      ((writeBody f words sh).1.vfs.pool f).length.toNat = (assemblePayload words).length ∧
      ∀ j < (assemblePayload words).length,
        ((writeBody f words sh).1.vfs.pool f).content j = (assemblePayload words).getD j 0 := by
  have short := length_assemblePayload words
  have count : (assemblePayload words).length.toUInt32.toNat = (assemblePayload words).length :=
    Nat.mod_eq_of_lt (by unfold vfsMaxFileSize at short; omega)
  obtain ⟨written, stored, -, kept⟩ := @ramfsWrite_of_fits _ _ _ (bytesOf (assemblePayload words)) file
    (show (0 : UInt32).toNat + (assemblePayload words).length.toUInt32.toNat ≤ vfsMaxFileSize by
      rw [count]; simpa using short)
  simp only [writeBody, vfsWrite_eq, written, count]
  rw [if_neg (by omega)]
  simp only [Vfs.modify_pool, Function.update_self, Int.toNat_natCast, true_and]
  refine ⟨kept, count, fun j below => ?_⟩
  rw [stored, count, if_pos ⟨Nat.zero_le _, by simpa using below⟩]
  simp [bytesOf]

theorem catFile_file {a : CString} (notOption : a.head? ≠ some '-'.toUInt8)
    (resolved : resolveArg sh a = some (some f)) (file : (sh.vfs.pool f).type = .file)
    (fits : (sh.vfs.pool f).length.toNat ≤ vfsMaxFileSize) :
    catFile false sh a = some ((List.range (sh.vfs.pool f).length.toNat).map (sh.vfs.pool f).content) := by
  unfold catFile
  rw [if_neg notOption, resolved, Option.map_some]
  have read := @ramfsRead_of_within _ 0 (sh.vfs.pool f).length file
    (by simpa using fits) (by simp)
  simp only [file, ne_eq, not_true_eq_false, if_false, vfsRead, read]
  simp

/-- A single argument that is not an option makes `cmd_cat` print that file and nothing else. -/
theorem cmdCat_single {a : CString} (notOption : a.head? ≠ some '-'.toUInt8) :
    cmdCat [a] sh = (catFile false sh a).map fun out => (sh, out) := by
  have dash : ('-'.toUInt8) ≠ 0 := by decide
  have option : isOption a = false := by
    match a, notOption with
    | [], _ => rfl
    | [_], _ => rfl
    | c :: _ :: _, notOption =>
      simp only [isOption, beq_eq_false_iff_ne]
      exact fun same => notOption (by rw [same]; rfl)
  have differs : ∀ option : String, (cstr option).head? = some '-'.toUInt8 →
      stringCompare a (cstr option) ≠ 0 := fun _ first => stringCompare_ne_zero dash first notOption
  have scan : catScan false 0 [a] = .files false 1 := by
    rw [catScan, if_neg (not_or.mpr ⟨differs "--help" (by decide +kernel), differs "-h" (by decide +kernel)⟩),
      if_neg (differs "-n" (by decide +kernel)), option]
    rfl
  unfold cmdCat
  rw [scan]
  simp only [Nat.one_ne_zero, if_false, List.mapM_cons, List.mapM_nil]
  cases catFile false sh a <;> simp

/-- `vfs_write` of a range that fits in the capacity of a file returns its size, stores the
buffer there and nothing elsewhere, raises the length to the end of the range, and a
`vfs_read` of the range gives the buffer back. So `cmd_write` of some words, followed by
`cmd_cat` of any path that names the file it wrote, prints the words joined by spaces with a
newline, cut to `VFS_MAX_FILE_SIZE` bytes. -/
theorem vfs_write_read_back :
    (∀ (v : Vfs) (n : NodeId) (offset size : UInt32) (buf : Nat → UInt8),
      (v.pool n).type = .file → offset.toNat + size.toNat ≤ vfsMaxFileSize →
      (vfsWrite n offset size buf v).1 = size.toNat ∧
      (∀ j, ((vfsWrite n offset size buf v).2.pool n).content j =
        if offset.toNat ≤ j ∧ j < offset.toNat + size.toNat then buf (j - offset.toNat)
        else (v.pool n).content j) ∧
      ((vfsWrite n offset size buf v).2.pool n).length.toNat =
        max (v.pool n).length.toNat (offset.toNat + size.toNat) ∧
      vfsRead n offset size (vfsWrite n offset size buf v).2 =
        ((size.toNat : Int), (List.range size.toNat).map buf)) ∧
    (∀ (sh sh₁ : Shell) (name a : CString) (words : List CString) (f : NodeId),
      words ≠ [] → writeOpen name sh = some (sh₁, .ok f) →
      ∃ sh₂, cmdWrite (name :: words) sh = some (sh₂, []) ∧
        (a.head? ≠ some '-'.toUInt8 → resolveArg sh₂ a = some (some f) →
          cmdCat [a] sh₂ = some (sh₂, ([' '.toUInt8].intercalate words ++ ['\n'.toUInt8]).take vfsMaxFileSize))) := by
  refine ⟨fun v n offset size buf file fits => ?_, fun sh sh₁ name a words f nonempty opened => ?_⟩
  · obtain ⟨written, stored, length, kept⟩ := @ramfsWrite_of_fits _ _ _ buf file fits
    refine ⟨written, by simpa using stored, by simpa using length, ?_⟩
    unfold vfsRead
    rw [vfsWrite_pool_self, ramfsRead_of_within kept fits (by omega)]
    congr 1
    -- the bytes read back are the bytes of the buffer
    refine List.map_congr_left fun i mem => ?_
    rw [List.mem_range] at mem
    rw [stored, if_pos ⟨by omega, by omega⟩]
    simp
  · obtain ⟨w, ws, rfl⟩ := List.exists_cons_of_ne_nil nonempty
    obtain ⟨printed, file, length, content⟩ := writeBody_spec (writeOpen_file opened) (w :: ws)
    refine ⟨(writeBody f (w :: ws) sh₁).1, ?_, fun notOption resolved => ?_⟩
    · simp only [cmdWrite, opened, Option.map_some]
      rw [← printed]
    · rw [cmdCat_single notOption, catFile_file notOption resolved file
        (by rw [length]; exact length_assemblePayload _), Option.map_some, ← assemblePayload_eq, length]
      congr 2
      -- the `length` bytes of the file are the payload
      refine List.ext_getElem (by simp) fun i below _ => ?_
      rw [List.length_map, List.length_range] at below
      simp [content i below, List.getD_eq_getElem?_getD, List.getElem?_eq_getElem below]


/-- Two bytes written at offset 2 of `/etc/motd.txt`, node 5 of `vfs_init`, and read back. -/
theorem vfs_write_read_back_motd :
    (vfsInit.pool ⟨5, by decide⟩).type = .file ∧ (2 : UInt32).toNat + (2 : UInt32).toNat ≤ vfsMaxFileSize ∧
      (vfsWrite ⟨5, by decide⟩ 2 2 (fun _ => 72) vfsInit).1 = 2 ∧
      vfsRead ⟨5, by decide⟩ 2 2 (vfsWrite ⟨5, by decide⟩ 2 2 (fun _ => 72) vfsInit).2 = (2, [72, 72]) := by
  have file : (vfsInit.pool ⟨5, by decide⟩).type = .file := by decide
  have fits : (2 : UInt32).toNat + (2 : UInt32).toNat ≤ vfsMaxFileSize := by decide
  obtain ⟨written, -, -, read⟩ := vfs_write_read_back.1 vfsInit ⟨5, by decide⟩ 2 2 (fun _ => 72) file fits
  exact ⟨file, fits, written, read⟩

end OpenOS.Fs
