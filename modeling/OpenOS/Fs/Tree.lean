import OpenOS.Fs.Shell
import OpenOS.Lib.Run

/-! The shape of the directory tree under the shell. The nodes that matter are those reachable
from the root through the children arrays. The commands should keep them a tree of used nodes
with distinct names per directory, with the current directory inside it, and the path
`cmd_pwd` prints for a node should resolve back to it.

`cmd_rm` frees a node without looking at the current directory: after `mkdir a`, `cd a`,
`rm /a` the current directory is a freed node outside the tree, and the next `mkdir` takes
that pool slot back and adds it to itself. `cmd_mkdir` accepts the name `..`, which
`vfs_resolve_path` reads as the parent, so the path of such a directory resolves elsewhere. -/
namespace OpenOS.Fs

open OpenOS.Kernel

/-- The nodes reachable from the root through `children[0 .. child_count)`. -/
inductive Reachable (v : Vfs) : NodeId → Prop
  | root : Reachable v v.root
  | child {p c : NodeId} : Reachable v p → c ∈ (v.pool p).children → Reachable v c

theorem Reachable.mem {v : Vfs} {keep : NodeId → Prop} (root : keep v.root)
    (closed : ∀ p, keep p → ∀ c ∈ (v.pool p).children, keep c) {n : NodeId} (reach : Reachable v n) :
    keep n := by
  induction reach with
  | root => exact root
  | child _ mem ih => exact closed _ ih _ mem

/-- The shape the file commands should keep: a tree of used nodes below the root, each
directory's children named apart, and the current directory a directory in the tree. -/
structure WellFormed (sh : Shell) : Prop where
  tree : ∀ n, Reachable sh.vfs n → n ≠ sh.vfs.root → ∃ p, (sh.vfs.pool n).parent = some p ∧
    (sh.vfs.pool p).type = .directory ∧ (sh.vfs.pool p).children.count n = 1 ∧
    ∀ q, Reachable sh.vfs q → n ∈ (sh.vfs.pool q).children → q = p
  used : ∀ n, Reachable sh.vfs n → sh.vfs.used n = true
  names : ∀ p, Reachable sh.vfs p →
    (sh.vfs.pool p).children.Pairwise fun a b => (sh.vfs.pool a).name ≠ (sh.vfs.pool b).name
  cwd : Reachable sh.vfs sh.cwd ∧ (sh.vfs.pool sh.cwd).type = .directory

/-- `mkdir a` takes pool slot 6, `cd a` enters it, and `rm /a` frees it: the current
directory is no longer in the tree. A following `mkdir b` gets slot 6 back, adds it to the
current directory, which is slot 6 itself, and makes it its own parent. -/
theorem rm_frees_working_directory :
    (∃ sh, Runs.run ShellCall.apply [.mkdir [cstr "a"], .cd [cstr "a"], .rm [cstr "/a"]]
      (some shellInit) = some sh ∧ ¬ WellFormed sh) ∧
    ∃ sh, Runs.run ShellCall.apply [.mkdir [cstr "a"], .cd [cstr "a"], .rm [cstr "/a"], .mkdir [cstr "b"]]
      (some shellInit) = some sh ∧ sh.cwd ∈ (sh.vfs.pool sh.cwd).children ∧
      (sh.vfs.pool sh.cwd).parent = some sh.cwd := by
  -- both runs return, and the kernel evaluates their end states
  refine ⟨⟨_, (Option.some_get (by decide +kernel)).symm, fun wf => ?_⟩,
    ⟨_, (Option.some_get (by decide +kernel)).symm, by decide +kernel, by decide +kernel⟩⟩
  -- the tree stays within the first six slots, and the current directory is slot 6
  have inside := @Reachable.mem _ (fun n => n.val < 6) (by decide +kernel) (by decide +kernel) _ wf.cwd.1
  exact absurd inside (by decide +kernel)

/-- Resolving the path that `cmd_pwd` prints for a reachable node gives the node back, for
every path shorter than `VFS_MAX_PATH_LENGTH`. -/
def PathsResolve (v : Vfs) : Prop :=
  ∀ n path, Reachable v n → nodePath v n = some path → path.length < vfsMaxPathLength →
    vfsResolvePath v path = some n

/-- `mkdir ..` at the root creates a directory named `..` in slot 6; its path is `/..`,
which `vfs_resolve_path` reads as the parent of the root, the root itself. -/
theorem dotdot_directory_resolves_to_root :
    ∃ sh, Runs.run ShellCall.apply [.mkdir [cstr ".."]] (some shellInit) = some sh ∧
      ¬ PathsResolve sh.vfs := by
  refine ⟨_, (Option.some_get (by decide +kernel)).symm, fun resolves => ?_⟩
  have back := resolves ⟨6, by decide⟩ (cstr "/..") (.child .root (by decide +kernel)) (by decide +kernel)
    (by decide)
  exact absurd back (by decide +kernel)

end OpenOS.Fs
