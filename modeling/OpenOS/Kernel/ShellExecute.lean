import Mathlib
import OpenOS.Kernel.Strings

/-! The command line of `kernel/shell.c`: the command table that `shell_register_command`
fills, `parse_command`, which splits a line with `string_tokenize` into at most
`SHELL_MAX_ARGS` words, and `shell_execute`, which runs the first command whose name compares
equal to the first word. A handler is a value of any type `H`; the model returns the handler
`shell_execute` calls and the `argv` it passes, or what it prints when no command matches.
`tokenize_last` is passed in and returned, as for `string_tokenize`. -/
namespace OpenOS.Kernel

def shellMaxArgs : Nat := 16
def maxCommands : Nat := 48

/-- The delimiters of `parse_command`. -/
def shellDelimiters : CString := cstr " \t\n\r"

/-- An entry of `command_table`. The description is read only by `cmd_help`. -/
structure ShellCommand (H : Type) where
  name : CString
  handler : H

/-- What `shell_execute` does with a line. -/
inductive ShellOutcome (H : Type)
  | ignored
  | run (handler : H) (argv : List CString)
  | notFound (message : CString)

section Table

variable {H : Type}

/-- `shell_register_command`: a full table refuses the command with an error message. -/
def shellRegisterCommand (name : CString) (handler : H) (table : List (ShellCommand H)) :
    List (ShellCommand H) × CString :=
  if table.length ≥ maxCommands then (table, cstr "Error: Maximum number of commands reached\n")
  else (table ++ [⟨name, handler⟩], [])

/-- The registrations of a list of commands in turn, with what they print. -/
def registerAll (table : List (ShellCommand H)) : List (CString × H) → List (ShellCommand H) × CString
  | [] => (table, [])
  | (name, handler) :: rest =>
    let first := shellRegisterCommand name handler table
    let others := registerAll first.1 rest
    (others.1, first.2 ++ others.2)

/-- The table keeps the registrations that fit in `MAX_COMMANDS` entries, in order; each one
past them prints the error. -/
theorem registerAll_eq (table : List (ShellCommand H)) (regs : List (CString × H)) :
    (registerAll table regs).1 =
        table ++ (regs.take (maxCommands - table.length)).map (fun r => ⟨r.1, r.2⟩) ∧
      (registerAll table regs).2 =
        (List.replicate (regs.length - (maxCommands - table.length))
          (cstr "Error: Maximum number of commands reached\n")).flatten := by
  induction regs generalizing table with
  | nil => simp [registerAll]
  | cons r regs ih =>
    obtain ⟨name, handler⟩ := r
    by_cases full : table.length ≥ maxCommands
    · -- a full table stays full: every later registration is refused too
      obtain ⟨entries, out⟩ := ih table
      simp only [registerAll, shellRegisterCommand, if_pos full]
      rw [entries, out, show maxCommands - table.length = 0 by omega]
      simp [List.replicate_succ]
    · obtain ⟨entries, out⟩ := ih (table ++ [⟨name, handler⟩])
      simp only [registerAll, shellRegisterCommand, if_neg full]
      rw [entries, out, List.length_append, List.length_singleton,
        show maxCommands - table.length = maxCommands - (table.length + 1) + 1 by omega]
      simp

/-- The table lookup of `shell_execute`: with no word, nothing; else the first command whose
name compares equal to `argv[0]` runs on `argv`. -/
def lookupCommand (table : List (ShellCommand H)) : List CString → ShellOutcome H
  | [] => .ignored
  | cmdName :: rest =>
    match table.find? (fun c => stringCompare cmdName c.name = 0) with
    | some c => .run c.handler (cmdName :: rest)
    | none => .notFound (cstr "Command not found: " ++ cmdName ++ cstr "\n" ++
        cstr "Type \x27help\x27 for a list of available commands.\n")

end Table

/-! ### `parse_command` -/

/-- The loop of `parse_command` with `room` slots of `argv` left: the token the last call
returned is kept while there is room, and each kept token is followed by a call with `NULL`. -/
def parseLoop : Nat → Option CString → TokState → List CString × TokState
  | 0, _, last => ([], last)
  | _ + 1, none, last => ([], last)
  | room + 1, some token, last =>
    let next := stringTokenize none shellDelimiters last
    let rest := parseLoop room next.1 next.2
    (token :: rest.1, rest.2)

/-- `parse_command(input, argv, max_args)`: the words it stores in `argv`, and the
`tokenize_last` it leaves. -/
def parseCommand (input : CString) (maxArgs : Nat) (last : TokState) : List CString × TokState :=
  let first := stringTokenize (some input) shellDelimiters last
  parseLoop maxArgs first.1 first.2

theorem parseLoop_pending : ∀ (room : Nat) (p : List CString) (last : TokState),
    pending shellDelimiters last = p.tail →
      (parseLoop room p.head? last).1 = p.take room ∧
        pending shellDelimiters (parseLoop room p.head? last).2 = p.drop (room + 1)
  | 0, p, last, rest => ⟨rfl, by simp only [parseLoop, Nat.zero_add, List.drop_one]; exact rest⟩
  | _ + 1, [], last, rest => ⟨rfl, rest⟩
  | room + 1, t :: ts, last, rest => by
    obtain ⟨token, others⟩ := stringTokenize_null shellDelimiters last
    rw [rest, List.tail_cons] at token others
    obtain ⟨kept, left⟩ := parseLoop_pending room ts _ others
    simp only [parseLoop, List.head?_cons]
    rw [token]
    exact ⟨by rw [kept, List.take_succ_cons], by rw [left, List.drop_succ_cons]⟩

theorem parseCommand_eq {input : CString} (nonempty : input ≠ []) (maxArgs : Nat) (last : TokState) :
    (parseCommand input maxArgs last).1 = (tokens shellDelimiters input).take maxArgs ∧
      pending shellDelimiters (parseCommand input maxArgs last).2 =
        (tokens shellDelimiters input).drop (maxArgs + 1) := by
  obtain ⟨token, others⟩ := stringTokenize_null shellDelimiters (some input)
  simp only [parseCommand]
  rw [stringTokenize_some shellDelimiters nonempty, token]
  exact parseLoop_pending maxArgs _ _ others

/-! ### `shell_execute` -/

section Execute

variable {H : Type}

/-- `shell_execute(input)`: an empty line or one of blanks only is skipped; otherwise the
words of the line go to the table lookup. -/
def shellExecute (table : List (ShellCommand H)) (input : CString) (last : TokState) : ShellOutcome H × TokState :=
  if input = [] then (.ignored, last)
  else if input.all isWhitespace then (.ignored, last)
  else
    let parsed := parseCommand input shellMaxArgs last
    (lookupCommand table parsed.1, parsed.2)

theorem isWhitespace_eq_contains (c : UInt8) : isWhitespace c = shellDelimiters.contains c := by
  simp [isWhitespace, shellDelimiters, cstr, Bool.or_assoc, beq_eq_decide]

theorem all_isWhitespace_iff (input : CString) :
    input.all isWhitespace = true ↔ tokens shellDelimiters input = [] := by
  rw [tokens_eq_nil_iff, List.all_eq_true]
  simp only [isWhitespace_eq_contains]

theorem shellExecute_ignored (table : List (ShellCommand H)) {input : CString}
    (blank : tokens shellDelimiters input = []) (last : TokState) :
    shellExecute table input last = (.ignored, last) := by
  unfold shellExecute
  split
  · rfl
  · rw [if_pos ((all_isWhitespace_iff input).mpr blank)]

theorem shellExecute_words (table : List (ShellCommand H)) {input cmdName : CString} {rest : List CString}
    (words : tokens shellDelimiters input = cmdName :: rest) (last : TokState) :
    (shellExecute table input last).1 = lookupCommand table ((cmdName :: rest).take shellMaxArgs) ∧
      pending shellDelimiters (shellExecute table input last).2 = (cmdName :: rest).drop (shellMaxArgs + 1) := by
  have nonempty : input ≠ [] := by
    rintro rfl
    cases words
  have notBlank : input.all isWhitespace = false := by
    rw [Bool.eq_false_iff, ne_eq, all_isWhitespace_iff, words]
    exact List.cons_ne_nil _ _
  obtain ⟨argv, left⟩ := parseCommand_eq nonempty shellMaxArgs last
  simp only [shellExecute, if_neg nonempty, notBlank, Bool.false_eq_true, if_false]
  rw [words] at argv left
  exact ⟨by rw [argv], left⟩

end Execute

/-! ### The built-in commands -/

/-- The handlers `commands_register_all` registers. -/
inductive Builtin
  | help | clear | echo | uname | uptime | pwd | ls | cd | cat | stat | mkdir | touch | write | rm
  | meminfo | reboot | testIpc | testSmp | testGui | testNet | testScript
  | ps | kill | spawn | forktest | user | counters | psleep | sched
  deriving DecidableEq, Repr

/-- The registrations of `commands_register_all`, in order. -/
def builtinCommands : List (CString × Builtin) :=
  [(cstr "help", .help), (cstr "clear", .clear), (cstr "echo", .echo), (cstr "uname", .uname),
    (cstr "uptime", .uptime), (cstr "pwd", .pwd), (cstr "ls", .ls), (cstr "cd", .cd), (cstr "cat", .cat),
    (cstr "stat", .stat), (cstr "mkdir", .mkdir), (cstr "touch", .touch), (cstr "write", .write),
    (cstr "rm", .rm), (cstr "meminfo", .meminfo), (cstr "reboot", .reboot), (cstr "test_ipc", .testIpc),
    (cstr "test_smp", .testSmp), (cstr "test_gui", .testGui), (cstr "test_net", .testNet),
    (cstr "test_script", .testScript), (cstr "ps", .ps), (cstr "kill", .kill), (cstr "spawn", .spawn),
    (cstr "forktest", .forktest), (cstr "user", .user), (cstr "counters", .counters),
    (cstr "psleep", .psleep), (cstr "sched", .sched)]

/-- `shell_init`: an empty table, then `commands_register_all`. -/
def shellInit : List (ShellCommand Builtin) × CString := registerAll [] builtinCommands

theorem shellInit_table : shellInit.1 = builtinCommands.map (fun r => ⟨r.1, r.2⟩) ∧ shellInit.2 = [] := by
  obtain ⟨entries, out⟩ := registerAll_eq [] builtinCommands
  rw [shellInit, entries, out]
  exact ⟨rfl, rfl⟩

theorem find_builtin :
    ∀ r ∈ builtinCommands, builtinCommands.find? (fun c => stringCompare r.1 c.1 = 0) = some r := by
  decide

theorem builtin_names_nul_free : ∀ r ∈ builtinCommands, (0 : UInt8) ∉ r.1 := by
  decide

/-- With the table `shell_init` builds, a line without a NUL byte is skipped when it has no
word; when its first word is the name of a built-in, that built-in runs on the first
`SHELL_MAX_ARGS` words, and the words after the one past them stay in `tokenize_last`; any other
first word prints `Command not found`. -/
theorem shell_execute_builtins (input : CString) (noNul : (0 : UInt8) ∉ input) (last : TokState) :
    (tokens shellDelimiters input = [] → shellExecute shellInit.1 input last = (.ignored, last)) ∧
      (∀ cmdName rest b, tokens shellDelimiters input = cmdName :: rest → (cmdName, b) ∈ builtinCommands →
        (shellExecute shellInit.1 input last).1 = .run b ((cmdName :: rest).take shellMaxArgs) ∧
          pending shellDelimiters (shellExecute shellInit.1 input last).2 = (cmdName :: rest).drop (shellMaxArgs + 1)) ∧
      (∀ cmdName rest, tokens shellDelimiters input = cmdName :: rest → (∀ b, (cmdName, b) ∉ builtinCommands) →
        (shellExecute shellInit.1 input last).1 = .notFound (cstr "Command not found: " ++ cmdName ++ cstr "\n" ++
          cstr "Type \x27help\x27 for a list of available commands.\n")) := by
  have table := shellInit_table.1
  refine ⟨fun blank => shellExecute_ignored _ blank last, fun cmdName rest b words registered => ?_,
    fun cmdName rest words unknown => ?_⟩
  · obtain ⟨outcome, left⟩ := shellExecute_words shellInit.1 words last
    refine ⟨?_, left⟩
    rw [outcome, show shellMaxArgs = 15 + 1 from rfl, List.take_succ_cons, lookupCommand, table,
      List.find?_map]
    -- the first entry that compares equal to a registered name is that name's own
    have found := find_builtin _ registered
    simp only [Function.comp_def] at found ⊢
    rw [found]
    rfl
  · rw [(shellExecute_words shellInit.1 words last).1, show shellMaxArgs = 15 + 1 from rfl, List.take_succ_cons,
      lookupCommand, table, List.find?_map]
    -- a first word without NUL compares equal only to itself, and no built-in has that name
    have wordNulFree : (0 : UInt8) ∉ cmdName := fun zero =>
      noNul (mem_of_mem_tokens shellDelimiters input cmdName (words ▸ List.mem_cons_self) 0 zero)
    have none : builtinCommands.find? (fun r => decide (stringCompare cmdName r.1 = 0)) = none := by
      rw [List.find?_eq_none]
      intro r mem same
      have equal := (stringCompare_eq_zero wordNulFree (builtin_names_nul_free r mem)).mp (of_decide_eq_true same)
      exact unknown r.2 (by rw [equal]; exact mem)
    simp only [Function.comp_def] at none ⊢
    rw [none]
    rfl

theorem shell_execute_builtins_ls :
    (0 : UInt8) ∉ cstr "  ls -l\t" ∧
      tokens shellDelimiters (cstr "  ls -l\t") = cstr "ls" :: [cstr "-l"] ∧ (cstr "ls", Builtin.ls) ∈ builtinCommands ∧
      (shellExecute shellInit.1 (cstr "  ls -l\t") none).1 = .run Builtin.ls ((cstr "ls" :: [cstr "-l"]).take shellMaxArgs) ∧
      pending shellDelimiters (shellExecute shellInit.1 (cstr "  ls -l\t") none).2 =
        (cstr "ls" :: [cstr "-l"]).drop (shellMaxArgs + 1) := by
  have words : tokens shellDelimiters (cstr "  ls -l\t") = cstr "ls" :: [cstr "-l"] := by decide
  have registered : (cstr "ls", Builtin.ls) ∈ builtinCommands := by decide
  exact ⟨by decide, words, registered,
    (shell_execute_builtins (cstr "  ls -l\t") (by decide) none).2.1 _ _ _ words registered⟩

end OpenOS.Kernel
