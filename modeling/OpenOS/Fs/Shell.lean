import OpenOS.Fs.Vfs

/-! The file commands of `kernel/commands.c` over the VFS and the `current_directory` of
`kernel/kernel.c`. A command takes its arguments `argv[1..]` and gives the new state with what
it printed on the console, or `none` when it never returns: the parent walk of `cmd_pwd` and
`build_absolute_path` runs until it meets a node that is its own parent, and a cycle of parent
links keeps it going forever. The 256-byte path buffers are not bounded in the model. -/
namespace OpenOS.Fs

open OpenOS.Kernel

/-- The state the shell commands share: the file system and the current directory. -/
structure Shell where
  vfs : Vfs
  cwd : NodeId

/-- `kmain`: `vfs_init`, then `current_directory = vfs_get_root()`. -/
def shellInit : Shell := ⟨vfsInit, vfsInit.root⟩

/-- `kernel_set_current_directory`: only a directory becomes the current directory. -/
def kernelSetCurrentDirectory (dir : NodeId) (sh : Shell) : Shell :=
  if (sh.vfs.pool dir).type = .directory then { sh with cwd := dir } else sh

/-- The parent walk of `cmd_pwd` and `build_absolute_path`, prepending `"/" ++ name` for each
node that is not its own parent. A walk longer than the pool has met a node twice and never
ends; it gives `none`. -/
def pathWalk (v : Vfs) : Nat → Option NodeId → CString → Option CString
  | _, none, path => some path
  | 0, some _, _ => none
  | fuel + 1, some n, path =>
    if (v.pool n).parent = some n then some path
    else pathWalk v fuel (v.pool n).parent (cstr "/" ++ (v.pool n).name ++ path)

/-- The path of `n` as `cmd_pwd` prints it, without the newline. -/
def nodePath (v : Vfs) (n : NodeId) : Option CString :=
  (pathWalk v vfsMaxNodes (some n) []).map fun path => if path = [] then cstr "/" else path

def cmdPwd (sh : Shell) : Option (Shell × CString) :=
  (nodePath sh.vfs sh.cwd).map fun path => (sh, path ++ cstr "\n")

/-- `build_absolute_path`: the current directory's path, a `/`, and the relative path. -/
def buildAbsolutePath (sh : Shell) (relative : CString) : Option CString :=
  (nodePath sh.vfs sh.cwd).map fun path => path ++ cstr "/" ++ relative

/-- How `cmd_cd`, `cmd_cat` and `resolve_parent_and_leaf` resolve a path: as it is when it
starts with `/`, else after `build_absolute_path`. -/
def resolveArg (sh : Shell) (path : CString) : Option (Option NodeId) :=
  if path.head? = some '/'.toUInt8 then some (vfsResolvePath sh.vfs path)
  else (buildAbsolutePath sh path).map (vfsResolvePath sh.vfs)

/-- The loop of `resolve_parent_and_leaf` that finds the last `/`. -/
def lastSlash (path : CString) : Option Nat :=
  (List.range path.length).foldl (fun last i => if path[i]? = some '/'.toUInt8 then some i else last) none

/-- `if (!parent || parent->type != NODE_DIRECTORY) return NULL;` -/
def asDirectory (v : Vfs) : Option NodeId → Option NodeId
  | some p => if (v.pool p).type = .directory then some p else none
  | none => none

/-- `resolve_parent_and_leaf` with `leaf_size = VFS_NAME_LENGTH`: the parent directory (`none`
for `NULL`) and the leaf, cut to 127 bytes. A bare name gets the current directory, unchecked. -/
def resolveParentAndLeaf (sh : Shell) (path : CString) : Option (Option NodeId × CString) :=
  match lastSlash path with
  | none => some (some sh.cwd, path.take (vfsNameLength - 1))
  | some i =>
    let leaf := (path.drop (i + 1)).take (vfsNameLength - 1)
    let parent := if i = 0 then some (some sh.vfs.root)
      else resolveArg sh (path.take (min i (vfsMaxPathLength - 1)))
    parent.map fun parent => (asDirectory sh.vfs parent, leaf)

/-- The loop of `cmd_mkdir`, `cmd_touch` and `cmd_rm` over their arguments, one after another. -/
def eachArg (f : CString → Shell → Option (Shell × CString)) :
    List CString → Shell → Option (Shell × CString)
  | [], sh => some (sh, [])
  | a :: args, sh => do
    let (sh, out) ← f a sh
    let (sh, more) ← eachArg f args sh
    pure (sh, out ++ more)

/-- One argument of `cmd_mkdir` or `cmd_touch`: create a node of `type` under the leaf's
name. `cmd` names the command in its messages; `present` is what it prints for a name that
is already there. -/
def createArg (type : NodeType) (cmd : String) (invalid : String) (present : CString → CString)
    (outOfNodes full : String) (a : CString) (sh : Shell) : Option (Shell × CString) :=
  (resolveParentAndLeaf sh a).map fun (parent, leaf) =>
    match parent with
    | none => (sh, cstr cmd ++ cstr ": " ++ a ++ cstr ": No such file or directory\n")
    | some parent =>
      if leaf = [] then (sh, cstr invalid)
      else if (vfsFindNode sh.vfs parent leaf).isSome then (sh, present a)
      else
        match vfsCreateNode leaf type sh.vfs with
        | (none, v) => ({ sh with vfs := v }, cstr outOfNodes)
        | (some n, v) =>
          let (added, v) := vfsAddChild parent n v
          ({ sh with vfs := v }, if added ≠ 0 then cstr full else [])

def mkdirArg : CString → Shell → Option (Shell × CString) :=
  createArg .directory "mkdir" "mkdir: invalid directory name\n"
    (fun a => cstr "mkdir: " ++ a ++ cstr ": File exists\n")
    "mkdir: cannot create directory (out of nodes)\n" "mkdir: cannot create directory (parent full)\n"

def touchArg : CString → Shell → Option (Shell × CString) :=
  createArg .file "touch" "touch: invalid file name\n" (fun _ => [])
    "touch: cannot create file (out of nodes)\n" "touch: cannot create file (directory full)\n"

def cmdMkdir (args : List CString) (sh : Shell) : Option (Shell × CString) :=
  if args = [] then some (sh, cstr "Usage: mkdir <name>\n") else eachArg mkdirArg args sh

def cmdTouch (args : List CString) (sh : Shell) : Option (Shell × CString) :=
  if args = [] then some (sh, cstr "Usage: touch <name>\n") else eachArg touchArg args sh

/-- One argument of `cmd_rm`. The names `""`, `.` and `..` are refused. -/
def rmArg (a : CString) (sh : Shell) : Option (Shell × CString) :=
  (resolveParentAndLeaf sh a).map fun (parent, leaf) =>
    match parent with
    | none => (sh, cstr "rm: " ++ a ++ cstr ": No such file or directory\n")
    | some parent =>
      if leaf = [] ∨ stringCompare leaf (cstr ".") = 0 ∨ stringCompare leaf (cstr "..") = 0 then
        (sh, cstr "rm: refusing to remove \x27" ++ a ++ cstr "\x27\n")
      else if vfsFindNode sh.vfs parent leaf = none then
        (sh, cstr "rm: " ++ a ++ cstr ": No such file or directory\n")
      else
        let (removed, v) := vfsRemoveChild parent leaf sh.vfs
        ({ sh with vfs := v }, if removed ≠ 0 then cstr "rm: " ++ a ++ cstr ": failed to remove\n" else [])

def cmdRm (args : List CString) (sh : Shell) : Option (Shell × CString) :=
  if args = [] then some (sh, cstr "Usage: rm <name>\n") else eachArg rmArg args sh

/-- The end of `cmd_cd`, once it has a target. -/
def cdTarget (a : CString) (target : Option NodeId) (sh : Shell) : Shell × CString :=
  match target with
  | none => (sh, cstr "cd: " ++ a ++ cstr ": No such file or directory\n")
  | some t =>
    if (sh.vfs.pool t).type ≠ .directory then (sh, cstr "cd: " ++ a ++ cstr ": Not a directory\n")
    else (kernelSetCurrentDirectory t sh, [])

def cmdCd (args : List CString) (sh : Shell) : Option (Shell × CString) :=
  match args with
  | [] => some (sh, cstr "Usage: cd <directory>\n")
  | a :: _ =>
    if stringCompare a (cstr "/") = 0 then some (cdTarget a (some sh.vfs.root) sh)
    else if stringCompare a (cstr ".") = 0 then some (sh, [])
    else if stringCompare a (cstr "..") = 0 then
      some (cdTarget a (some ((sh.vfs.pool sh.cwd).parent.getD sh.vfs.root)) sh)
    else (resolveArg sh a).map fun target => cdTarget a target sh

/-- The first half of `cmd_write`: the file to write, found or created, or the message that
ends the command. A node that is created but cannot be added stays allocated. -/
def writeOpen (name : CString) (sh : Shell) : Option (Shell × Except CString NodeId) :=
  (resolveParentAndLeaf sh name).map fun (parent, leaf) =>
    match parent with
    | none => (sh, .error (cstr "write: " ++ name ++ cstr ": No such file or directory\n"))
    | some parent =>
      if leaf = [] then (sh, .error (cstr "write: invalid file name\n"))
      else
        match vfsFindNode sh.vfs parent leaf with
        | some f =>
          if (sh.vfs.pool f).type ≠ .file then (sh, .error (cstr "write: " ++ name ++ cstr ": Is a directory\n"))
          else (sh, .ok f)
        | none =>
          match vfsCreateNode leaf .file sh.vfs with
          | (none, v) => ({ sh with vfs := v }, .error (cstr "write: cannot create file\n"))
          | (some f, v) =>
            let (added, v) := vfsAddChild parent f v
            ({ sh with vfs := v }, if added ≠ 0 then .error (cstr "write: cannot create file\n") else .ok f)

/-- Append bytes to the payload while it is shorter than `VFS_MAX_FILE_SIZE`. -/
def appendBounded (buf : List UInt8) : List UInt8 → List UInt8
  | [] => buf
  | b :: bs => if buf.length < vfsMaxFileSize then appendBounded (buf ++ [b]) bs else buf

/-- The loop of `cmd_write` over its words; `first` is `i == 2`, where no space goes before
the word. -/
def assembleWords (first : Bool) (buf : List UInt8) : List CString → List UInt8
  | [] => buf
  | w :: ws =>
    if buf.length < vfsMaxFileSize then
      let buf := if !first ∧ buf.length < vfsMaxFileSize then buf ++ [' '.toUInt8] else buf
      assembleWords false (appendBounded buf w) ws
    else buf

/-- The payload of `cmd_write`: the bytes `buffer[0 .. pos)`. -/
def assemblePayload (words : List CString) : List UInt8 :=
  let buf := assembleWords true [] words
  if buf.length < vfsMaxFileSize then buf ++ ['\n'.toUInt8] else buf

/-- The second half of `cmd_write`: write the payload at offset 0, then set the length to the
count written. -/
def writeBody (f : NodeId) (words : List CString) (sh : Shell) : Shell × CString :=
  let payload := assemblePayload words
  let (written, v) := vfsWrite f 0 payload.length.toUInt32 (bytesOf payload) sh.vfs
  if written < 0 then ({ sh with vfs := v }, cstr "write: error writing file\n")
  else ({ sh with vfs := v.modify f fun node => { node with length := written.toNat.toUInt32 } }, [])

def cmdWrite (args : List CString) (sh : Shell) : Option (Shell × CString) :=
  match args with
  | name :: w :: ws =>
    (writeOpen name sh).map fun (sh, opened) =>
      match opened with
      | .error message => (sh, message)
      | .ok f => writeBody f (w :: ws) sh
  | _ => some (sh, cstr "Usage: write <file> <text...>\n")

/-- `print_number_padded`: the decimal digits, right-aligned in `width` columns. -/
def printNumberPadded (value width : Nat) : CString :=
  let digits := if value = 0 then cstr "0" else (Nat.toDigits 10 value).map Char.toUInt8
  List.replicate (width - digits.length) ' '.toUInt8 ++ digits

/-- The `-n` output of `cmd_cat`: each line starts with its number in six columns and two
spaces. -/
def numberLines (line : Nat) (atStart : Bool) : List UInt8 → CString
  | [] => []
  | b :: bs =>
    (if atStart then printNumberPadded line 6 ++ cstr "  " else []) ++ [b] ++
      if b = '\n'.toUInt8 then numberLines ((line + 1) % 2^32) true bs else numberLines line false bs

/-- `argv[i][0] == '-' && argv[i][1] != '\0'` -/
def isOption : CString → Bool
  | c :: _ :: _ => c == '-'.toUInt8
  | _ => false

/-- What the first pass of `cmd_cat` finds. -/
inductive CatScan
  | help
  | invalid (arg : CString)
  | files (number : Bool) (count : Nat)

/-- The first pass of `cmd_cat`: it stops at `-h`, `--help` or an unknown option. -/
def catScan (number : Bool) (count : Nat) : List CString → CatScan
  | [] => .files number count
  | a :: args =>
    if stringCompare a (cstr "--help") = 0 ∨ stringCompare a (cstr "-h") = 0 then .help
    else if stringCompare a (cstr "-n") = 0 then catScan true count args
    else if isOption a then .invalid a
    else catScan number (count + 1) args

/-- One argument of the second pass of `cmd_cat`; arguments starting with `-` are skipped. -/
def catFile (number : Bool) (sh : Shell) (a : CString) : Option CString :=
  if a.head? = some '-'.toUInt8 then some []
  else
    (resolveArg sh a).map fun file =>
      match file with
      | none => cstr "cat: " ++ a ++ cstr ": No such file or directory\n"
      | some f =>
        if (sh.vfs.pool f).type ≠ .file then cstr "cat: " ++ a ++ cstr ": Is a directory\n"
        else
          let (read, bytes) := vfsRead f 0 (sh.vfs.pool f).length sh.vfs
          if read < 0 then cstr "cat: " ++ a ++ cstr ": Error reading file\n"
          else if number then numberLines 1 true bytes else bytes

def cmdCat (args : List CString) (sh : Shell) : Option (Shell × CString) :=
  match catScan false 0 args with
  | .help => some (sh, cstr "Usage: cat [-n] [-h] file [file...]\n" ++
      cstr "  -n    number output lines\n" ++ cstr "  -h    show this help message\n")
  | .invalid a => some (sh, cstr "cat: invalid option \x27" ++ a ++
      cstr "\x27\nTry \x27cat -h\x27 for more information.\n")
  | .files number count =>
    if count = 0 then some (sh, cstr "Usage: cat [-n] file [file...]\n")
    else (args.mapM (catFile number sh)).map fun outs => (sh, outs.flatten)

/-- The file commands of the shell, each with its arguments `argv[1..]`. -/
inductive ShellCall
  | mkdir (args : List CString)
  | touch (args : List CString)
  | write (args : List CString)
  | rm (args : List CString)
  | cd (args : List CString)
  | cat (args : List CString)
  | pwd

def ShellCall.run : ShellCall → Shell → Option (Shell × CString)
  | .mkdir args, sh => cmdMkdir args sh
  | .touch args, sh => cmdTouch args sh
  | .write args, sh => cmdWrite args sh
  | .rm args, sh => cmdRm args sh
  | .cd args, sh => cmdCd args sh
  | .cat args, sh => cmdCat args sh
  | .pwd, sh => cmdPwd sh

/-- A command on the shell's state; a shell stuck in a command that never returns stays stuck. -/
def ShellCall.apply (c : ShellCall) : Option Shell → Option Shell
  | none => none
  | some sh => (c.run sh).map Prod.fst

end OpenOS.Fs
