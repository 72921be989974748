import Mathlib
import OpenOS.Kernel.Strings

/-! The RAM file system of `fs/vfs.c`. Nodes live in a static pool of 128 entries with a
bitmap of used slots; a `vfs_node_t *` is a pool index and `NULL` is `none`. A node keeps the
fields that the modelled functions read or write: `flags` is never read, and the operation
pointers of every allocated node are the `ramfs_*` functions, so `vfs_read` and `vfs_write`
call those directly. The 4096-byte `content` array is a function on every index: an index
from 4096 on is memory past the array, which a write there overwrites. Names are copied
whole, as `string_copy` copies them. -/
namespace OpenOS.Fs

open OpenOS.Kernel

def vfsMaxNodes : Nat := 128
def vfsMaxChildren : Nat := 32
def vfsMaxFileSize : Nat := 4096
def vfsNameLength : Nat := 128
def vfsMaxPathLength : Nat := 256

inductive NodeType
  | file
  | directory
  deriving DecidableEq, Repr

abbrev NodeId := Fin vfsMaxNodes

structure Node where
  name : CString
  type : NodeType
  inode : Nat
  length : UInt32
  parent : Option NodeId
  children : List NodeId
  content : Nat → UInt8

/-- A node as `allocate_node` initialises it; the zeroed static pool holds `Node.fresh 0`. -/
def Node.fresh (inode : Nat) : Node := ⟨[], .file, inode, 0, none, [], fun _ => 0⟩

structure Vfs where
  pool : NodeId → Node
  used : NodeId → Bool
  nextInode : Nat
  root : NodeId

def Vfs.modify (v : Vfs) (n : NodeId) (f : Node → Node) : Vfs :=
  { v with pool := Function.update v.pool n (f (v.pool n)) }

@[simp] theorem Vfs.modify_pool (v : Vfs) (n : NodeId) (f : Node → Node) :
    (v.modify n f).pool = Function.update v.pool n (f (v.pool n)) := rfl
@[simp] theorem Vfs.modify_used (v : Vfs) (n : NodeId) (f : Node → Node) :
    (v.modify n f).used = v.used := rfl
@[simp] theorem Vfs.modify_root (v : Vfs) (n : NodeId) (f : Node → Node) :
    (v.modify n f).root = v.root := rfl

/-- The pool in index order, as the loops of `allocate_node` scan it. -/
def poolSlots : List NodeId := List.finRange vfsMaxNodes

/-- `allocate_node`: the first free slot, marked used and reset, with the next inode number. -/
def allocateNode (v : Vfs) : Option NodeId × Vfs :=
  match poolSlots.find? (fun i => !v.used i) with
  | none => (none, v)
  | some i =>
    (some i, { v with
      used := Function.update v.used i true
      pool := Function.update v.pool i (Node.fresh v.nextInode)
      nextInode := (v.nextInode + 1) % 2^32 })

/-- `free_node`: only the bitmap entry is cleared; the node's memory keeps its old fields. -/
def freeNode (n : NodeId) (v : Vfs) : Vfs :=
  { v with used := Function.update v.used n false }

def vfsCreateNode (name : CString) (type : NodeType) (v : Vfs) : Option NodeId × Vfs :=
  match allocateNode v with
  | (none, v) => (none, v)
  | (some n, v) => (some n, v.modify n fun node => { node with name := name, type := type })

theorem vfsCreateNode_type {name : CString} {type : NodeType} {v v' : Vfs} {n : NodeId}
    (created : vfsCreateNode name type v = (some n, v')) : (v'.pool n).type = type := by
  unfold vfsCreateNode at created
  split at created
  · cases created
  · simp only [Prod.mk.injEq, Option.some.injEq] at created
    obtain ⟨rfl, rfl⟩ := created
    simp

/-- The test of the lookup loops of `vfs_find_node` and `vfs_remove_child`. -/
def nameIs (v : Vfs) (name : CString) (c : NodeId) : Bool :=
  stringCompare (v.pool c).name name == 0

/-- `vfs_find_node`: the first child of a directory with the name. -/
def vfsFindNode (v : Vfs) (parent : NodeId) (name : CString) : Option NodeId :=
  if (v.pool parent).type ≠ .directory then none
  else (v.pool parent).children.find? (nameIs v name)

def vfsAddChild (parent child : NodeId) (v : Vfs) : Int × Vfs :=
  if (v.pool parent).type ≠ .directory then (-1, v)
  else if (v.pool parent).children.length ≥ vfsMaxChildren then (-1, v)
  else
    let v := v.modify parent fun node => { node with children := node.children ++ [child] }
    (0, v.modify child fun node => { node with parent := some parent })

theorem vfsAddChild_type (parent child m : NodeId) (v : Vfs) :
    ((vfsAddChild parent child v).2.pool m).type = (v.pool m).type := by
  unfold vfsAddChild
  split_ifs
  · rfl
  · rfl
  · simp only [Vfs.modify_pool, Function.update_apply]
    split_ifs <;> subst_vars <;> rfl

/-- `vfs_remove_child`: free the first child with the name and close the gap it leaves. -/
def vfsRemoveChild (parent : NodeId) (name : CString) (v : Vfs) : Int × Vfs :=
  if (v.pool parent).type ≠ .directory then (-1, v)
  else
    match (v.pool parent).children.find? (nameIs v name) with
    | none => (-1, v)
    | some child =>
      let i := (v.pool parent).children.findIdx (nameIs v name)
      let v := freeNode child v
      (0, v.modify parent fun node => { node with children := node.children.eraseIdx i })

/-- The byte loop of `ramfs_write`: `content[offset + i] = buffer[i]` for `i < n`, with the
index computed in 32 bits. -/
def storeBytes (offset : UInt32) (buf : Nat → UInt8) (content : Nat → UInt8) : Nat → Nat → UInt8
  | 0 => content
  | i + 1 => Function.update (storeBytes offset buf content i) (offset + i.toUInt32).toNat (buf i)

/-- The clamp of `ramfs_write`: `if (offset + size > VFS_MAX_FILE_SIZE) size =
VFS_MAX_FILE_SIZE - offset;`, both sides in 32 bits. -/
def writeSize (offset size : UInt32) : UInt32 :=
  if offset + size > vfsMaxFileSize.toUInt32 then vfsMaxFileSize.toUInt32 - offset else size

/-- `ramfs_write`; the result is `size` returned through the 32-bit `ssize_t`. -/
def ramfsWrite (offset size : UInt32) (buf : Nat → UInt8) (node : Node) : Int × Node :=
  if node.type ≠ .file then (-1, node)
  else
    let size := writeSize offset size
    let node := { node with content := storeBytes offset buf node.content size.toNat }
    let node := if offset + size > node.length then { node with length := offset + size } else node
    (size.toInt32.toInt, node)

/-- The count of `ramfs_read`: `size`, cut at the file's end when `offset + size`, in 32
bits, passes it. -/
def readSize (offset size length : UInt32) : UInt32 :=
  if offset + size > length then length - offset else size

/-- `ramfs_read`: the count returned through `ssize_t`, and the bytes copied out. -/
def ramfsRead (offset size : UInt32) (node : Node) : Int × List UInt8 :=
  if node.type ≠ .file then (-1, [])
  else if offset ≥ node.length then (0, [])
  else
    let bytes := readSize offset size node.length
    (bytes.toInt32.toInt, (List.range bytes.toNat).map fun i => node.content (offset + i.toUInt32).toNat)

def vfsWrite (n : NodeId) (offset size : UInt32) (buf : Nat → UInt8) (v : Vfs) : Int × Vfs :=
  let (written, node) := ramfsWrite offset size buf (v.pool n)
  (written, { v with pool := Function.update v.pool n node })

def vfsRead (n : NodeId) (offset size : UInt32) (v : Vfs) : Int × List UInt8 :=
  ramfsRead offset size (v.pool n)

/-- One component of the loop of `vfs_resolve_path`; `none` when the name is not found. -/
def resolveStep (v : Vfs) (current : NodeId) (token : CString) : Option NodeId :=
  if stringCompare token (cstr ".") = 0 then some current
  else if stringCompare token (cstr "..") = 0 then some ((v.pool current).parent.getD current)
  else vfsFindNode v current token

/-- The token loop of `vfs_resolve_path`. Each token uses up at least one byte of the path, so
the fuel the caller gives is never the reason the loop stops. -/
def resolveLoop (v : Vfs) : Nat → NodeId → Option CString × TokState → Option NodeId
  | 0, current, _ => some current
  | _ + 1, current, (none, _) => some current
  | fuel + 1, current, (some token, last) =>
    match resolveStep v current token with
    | none => none
    | some next => resolveLoop v fuel next (stringTokenize none (cstr "/") last)

/-- `vfs_resolve_path`: only absolute paths resolve. The first `string_tokenize` of the copy
starts a new buffer, so `tokenize_last` before it plays no part. -/
def vfsResolvePath (v : Vfs) (path : CString) : Option NodeId :=
  match path with
  | [] => none
  | c :: rest =>
    if c ≠ '/'.toUInt8 then none
    else if rest = [] then some v.root
    else resolveLoop v (rest.length + 1) v.root (stringTokenize (some rest) (cstr "/") none)

/-- A C buffer holding a string, as the functions that take a `const uint8_t *` read it. -/
def bytesOf (s : CString) : Nat → UInt8 := fun i => s.getD i 0

/-- The zeroed statics before `vfs_init`. -/
def vfsBoot : Vfs := ⟨fun _ => Node.fresh 0, fun _ => false, 1, ⟨0, by decide⟩⟩

def motdText : CString := cstr "Welcome to OpenOS!\nThis is a test file in the filesystem.\n"

/-- `if (child) vfs_add_child(parent, child);` -/
def addIfCreated (parent : NodeId) : Option NodeId → Vfs → Vfs
  | some child, v => (vfsAddChild parent child v).2
  | none, v => v

/-- `vfs_init`: the root directory, its own parent, with `bin`, `etc`, `home`, `tmp` and
`/etc/motd.txt`. -/
def vfsInit : Vfs :=
  match allocateNode { vfsBoot with used := fun _ => false } with
  -- the pool is empty here, so this is the branch of the failed root allocation only in name
  | (none, v) => v
  | (some root, v) =>
    let v := { v with root := root }
    let v := v.modify root fun node => { node with name := cstr "/", type := .directory, parent := some root }
    let (bin, v) := vfsCreateNode (cstr "bin") .directory v
    let (etc, v) := vfsCreateNode (cstr "etc") .directory v
    let (home, v) := vfsCreateNode (cstr "home") .directory v
    let (tmp, v) := vfsCreateNode (cstr "tmp") .directory v
    let v := addIfCreated root bin v
    let v := addIfCreated root etc v
    let v := addIfCreated root home v
    let v := addIfCreated root tmp v
    match etc with
    | none => v
    | some etc =>
      match vfsCreateNode (cstr "motd.txt") .file v with
      | (none, v) => v
      | (some motd, v) =>
        let v := (vfsWrite motd 0 motdText.length.toUInt32 (bytesOf motdText) v).2
        (vfsAddChild etc motd v).2

end OpenOS.Fs
