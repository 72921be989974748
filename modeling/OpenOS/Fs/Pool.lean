import Mathlib
import OpenOS.Fs.Shell

/-! What the creating commands do to the node pool. `allocate_node` marks the first free slot
used, and `cmd_mkdir`, `cmd_touch` and `cmd_write` allocate before they call `vfs_add_child`.
When the parent directory already has `VFS_MAX_CHILDREN` children the add fails, the command
prints its message and returns, and nothing calls `free_node`: the slot stays used though no
directory lists it. -/
namespace OpenOS.Fs

open OpenOS.Kernel

section Alloc

variable {v : Vfs} {n : NodeId}

theorem allocateNode_none (none : (allocateNode v).1 = none) : (allocateNode v).2 = v := by
  unfold allocateNode at none ⊢
  split
  · rfl
  · rename_i heq
    rw [heq] at none
    simp at none

theorem allocateNode_some (found : (allocateNode v).1 = some n) :
    v.used n = false ∧ (allocateNode v).2.used = Function.update v.used n true ∧
      ∀ m ≠ n, (allocateNode v).2.pool m = v.pool m := by
  unfold allocateNode at found ⊢
  split
  · rename_i heq
    rw [heq] at found
    simp at found
  · rename_i i heq
    rw [heq] at found
    obtain rfl := Option.some.inj found
    refine ⟨by simpa using List.find?_some heq, rfl, fun m ne => ?_⟩
    exact Function.update_of_ne ne _ _

theorem vfsCreateNode_fst (name : CString) (type : NodeType) (v : Vfs) :
    (vfsCreateNode name type v).1 = (allocateNode v).1 := by
  unfold vfsCreateNode
  split
  · rename_i heq
    rw [heq]
  · rename_i heq
    rw [heq]

theorem vfsCreateNode_used (name : CString) (type : NodeType) (v : Vfs) :
    (vfsCreateNode name type v).2.used = (allocateNode v).2.used := by
  unfold vfsCreateNode
  split
  · rename_i heq
    rw [heq]
  · rename_i heq
    rw [heq]
    rfl

theorem vfsCreateNode_none {name : CString} {type : NodeType}
    (none : (vfsCreateNode name type v).1 = none) : (vfsCreateNode name type v).2 = v := by
  rw [vfsCreateNode_fst] at none
  unfold vfsCreateNode
  split
  · rename_i heq
    rw [← allocateNode_none none, heq]
  · rename_i heq
    rw [heq] at none
    simp at none

theorem vfsCreateNode_pool_other (name : CString) (type : NodeType)
    (found : (allocateNode v).1 = some n) {m : NodeId} (ne : m ≠ n) :
    (vfsCreateNode name type v).2.pool m = v.pool m := by
  have other := (allocateNode_some found).2.2 m ne
  unfold vfsCreateNode
  split
  · rename_i heq
    rw [heq] at found
    simp at found
  · rename_i n' v' heq
    rw [heq] at found other
    obtain rfl := Option.some.inj found
    simp only [Vfs.modify_pool, Function.update_of_ne ne]
    exact other

theorem vfsAddChild_used (parent child : NodeId) (v : Vfs) :
    (vfsAddChild parent child v).2.used = v.used := by
  unfold vfsAddChild
  split_ifs <;> rfl

theorem vfsAddChild_full {parent : NodeId} (child : NodeId)
    (full : vfsMaxChildren ≤ (v.pool parent).children.length) : vfsAddChild parent child v = (-1, v) := by
  unfold vfsAddChild
  by_cases notDirectory : (v.pool parent).type ≠ .directory
  · rw [if_pos notDirectory]
  · rw [if_neg notDirectory, if_pos full]

theorem vfsCreateNode_beside {p : NodeId} (name : CString) (type : NodeType) (parentUsed : v.used p = true)
    (slot : (allocateNode v).1 = some n) :
    vfsCreateNode name type v = (some n, (vfsCreateNode name type v).2) ∧
      (vfsCreateNode name type v).2.pool p = v.pool p ∧
      v.used n = false ∧ (vfsCreateNode name type v).2.used n = true := by
  obtain ⟨free, taken, -⟩ := allocateNode_some slot
  -- the parent is used and the slot was free, so the allocation leaves the parent alone
  have apart : p ≠ n := by
    rintro rfl
    rw [parentUsed] at free
    exact Bool.noConfusion free
  refine ⟨Prod.ext (by rw [vfsCreateNode_fst, slot]) rfl, vfsCreateNode_pool_other name type slot apart, free, ?_⟩
  rw [vfsCreateNode_used, taken, Function.update_self]

end Alloc

section Create

variable {type : NodeType} {cmd invalid outOfNodes full : String} {present : CString → CString}
  {a : CString} {sh sh' : Shell} {out : CString}

/-- One argument of `cmd_mkdir` or `cmd_touch` changes the pool bitmap in one slot at most,
a free one that it marks used. -/
theorem createArg_used (run : createArg type cmd invalid present outOfNodes full a sh = some (sh', out)) :
    sh'.vfs.used = sh.vfs.used ∨
      ∃ n, sh.vfs.used n = false ∧ sh'.vfs.used = Function.update sh.vfs.used n true := by
  unfold createArg at run
  cases resolved : resolveParentAndLeaf sh a with
  | none =>
    rw [resolved] at run
    simp at run
  | some r =>
    obtain ⟨parent, leaf⟩ := r
    rw [resolved, Option.map_some, Option.some.injEq] at run
    dsimp only at run
    -- the messages before the allocation return the state as it was
    split at run
    · obtain ⟨rfl, -⟩ := Prod.mk.inj run
      exact .inl rfl
    · split_ifs at run
      · obtain ⟨rfl, -⟩ := Prod.mk.inj run
        exact .inl rfl
      · obtain ⟨rfl, -⟩ := Prod.mk.inj run
        exact .inl rfl
      · split at run
        · rename_i v heq
          obtain ⟨rfl, -⟩ := Prod.mk.inj run
          have same := vfsCreateNode_none (congrArg Prod.fst heq)
          rw [heq] at same
          exact .inl (congrArg Vfs.used same)
        · rename_i n v heq
          have found : (allocateNode sh.vfs).1 = some n := by
            rw [← vfsCreateNode_fst leaf type, heq]
          obtain ⟨free, taken, -⟩ := allocateNode_some found
          obtain ⟨rfl, -⟩ := Prod.mk.inj run
          refine .inr ⟨n, free, ?_⟩
          -- whether the add succeeds or not, the slot stays used
          have used : v.used = Function.update sh.vfs.used n true := by
            rw [← taken, ← vfsCreateNode_used leaf type, heq]
          exact (vfsAddChild_used _ _ _).trans used

/-- An argument that reaches the allocation under a full parent: the command prints its
`full` message, and the slot it allocated stays used while the parent's children are as
before. -/
theorem createArg_parent_full {p : NodeId} {leaf : CString} {n : NodeId}
    (resolved : resolveParentAndLeaf sh a = some (some p, leaf)) (named : leaf ≠ [])
    (absent : vfsFindNode sh.vfs p leaf = none) (parentUsed : sh.vfs.used p = true)
    (crowded : vfsMaxChildren ≤ (sh.vfs.pool p).children.length) (slot : (allocateNode sh.vfs).1 = some n) :
    createArg type cmd invalid present outOfNodes full a sh =
        some ({ sh with vfs := (vfsCreateNode leaf type sh.vfs).2 }, cstr full) ∧
      sh.vfs.used n = false ∧ (vfsCreateNode leaf type sh.vfs).2.used n = true ∧
      ((vfsCreateNode leaf type sh.vfs).2.pool p).children = (sh.vfs.pool p).children := by
  obtain ⟨created, parent, free, taken⟩ := vfsCreateNode_beside leaf type parentUsed slot
  refine ⟨?_, free, taken, by rw [parent]⟩
  unfold createArg
  rw [resolved, Option.map_some]
  dsimp only
  rw [if_neg named, absent, Option.isSome_none, if_neg Bool.false_ne_true, created]
  dsimp only
  rw [vfsAddChild_full n (by rw [parent]; exact crowded)]
  rfl

/-- The same for `cmd_write`: when the file does not exist and its directory is full, the
command reports that it cannot create the file and keeps the slot it allocated. -/
theorem writeOpen_parent_full {p : NodeId} {leaf : CString} {n : NodeId} {name : CString}
    (resolved : resolveParentAndLeaf sh name = some (some p, leaf)) (named : leaf ≠ [])
    (absent : vfsFindNode sh.vfs p leaf = none) (parentUsed : sh.vfs.used p = true)
    (crowded : vfsMaxChildren ≤ (sh.vfs.pool p).children.length) (slot : (allocateNode sh.vfs).1 = some n) :
    writeOpen name sh =
        some ({ sh with vfs := (vfsCreateNode leaf .file sh.vfs).2 }, .error (cstr "write: cannot create file\n")) ∧
      sh.vfs.used n = false ∧ (vfsCreateNode leaf .file sh.vfs).2.used n = true := by
  obtain ⟨created, parent, free, taken⟩ := vfsCreateNode_beside leaf .file parentUsed slot
  refine ⟨?_, free, taken⟩
  unfold writeOpen
  rw [resolved, Option.map_some]
  dsimp only
  rw [if_neg named, absent, created]
  dsimp only
  rw [vfsAddChild_full n (by rw [parent]; exact crowded)]
  rfl

end Create

/-- From the boot shell, `mkdir` of the 28 names `A` to `Z`, `[` and `\` fills the root to
`VFS_MAX_CHILDREN`, leaving pool slot 34 free. Then `mkdir x`, `touch x` and `write x hi` each
fail at `vfs_add_child`, print their message, add nothing to the root, and leave slot 34
used. -/
theorem full_parent_keeps_node_used :
    ((ShellCall.mkdir ((List.range 28).map fun k => [0x41 + k.toUInt8])).apply (some shellInit)).map
        (fun sh => ((sh.vfs.pool sh.vfs.root).children.length, sh.vfs.used ⟨34, by decide⟩)) =
      some (vfsMaxChildren, false) ∧
    (((ShellCall.mkdir ((List.range 28).map fun k => [0x41 + k.toUInt8])).apply (some shellInit)).bind
        (cmdMkdir [cstr "x"])).map
        (fun r => (r.2, r.1.vfs.used ⟨34, by decide⟩, (r.1.vfs.pool r.1.vfs.root).children)) =
      ((ShellCall.mkdir ((List.range 28).map fun k => [0x41 + k.toUInt8])).apply (some shellInit)).map
        (fun sh => (cstr "mkdir: cannot create directory (parent full)\n", true,
          (sh.vfs.pool sh.vfs.root).children)) ∧
    (((ShellCall.mkdir ((List.range 28).map fun k => [0x41 + k.toUInt8])).apply (some shellInit)).bind
        (cmdTouch [cstr "x"])).map
        (fun r => (r.2, r.1.vfs.used ⟨34, by decide⟩, (r.1.vfs.pool r.1.vfs.root).children)) =
      ((ShellCall.mkdir ((List.range 28).map fun k => [0x41 + k.toUInt8])).apply (some shellInit)).map
        (fun sh => (cstr "touch: cannot create file (directory full)\n", true,
          (sh.vfs.pool sh.vfs.root).children)) ∧
    (((ShellCall.mkdir ((List.range 28).map fun k => [0x41 + k.toUInt8])).apply (some shellInit)).bind
        (cmdWrite [cstr "x", cstr "hi"])).map
        (fun r => (r.2, r.1.vfs.used ⟨34, by decide⟩, (r.1.vfs.pool r.1.vfs.root).children)) =
      ((ShellCall.mkdir ((List.range 28).map fun k => [0x41 + k.toUInt8])).apply (some shellInit)).map
        (fun sh => (cstr "write: cannot create file\n", true, (sh.vfs.pool sh.vfs.root).children)) := by
  -- the commands return, and the kernel evaluates every state they pass through
  refine ⟨by decide +kernel, by decide +kernel, by decide +kernel, by decide +kernel⟩

end OpenOS.Fs
