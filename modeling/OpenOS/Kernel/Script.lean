import Mathlib
import OpenOS.Kernel.Strings
import OpenOS.Lib.Run

/-! The shell scripting of `kernel/script.c`: the variable table of `script_ctx`, and
`script_execute`, which cuts a script into lines and hands each non-empty line to an
assignment, to `script_parse_if`, or to the command echo.

Names are stored with `strncpy(name, n, MAX_VAR_NAME - 1)` and looked up with `strcmp`
against the full name, so a name of 32 bytes or more is stored cut and never found again:
its `script_set_var` returns 0, its `script_get_var` returns `NULL`, and each new set takes
another slot. The line loop flushes on `'\n'` or on a full 255-byte buffer and skips the byte
that triggered the flush, and it has no flush after the last byte: a last line without a
newline is never run, and the 256th byte of a long line is lost. -/
namespace OpenOS.Kernel

def maxVarName : Nat := 32
def maxVarValue : Nat := 256
def maxVariables : Nat := 64

/-- `script_var_t`. -/
structure ScriptVar where
  name : CString
  value : CString
  isSet : Bool
  deriving DecidableEq, Repr

/-- `script_ctx` with the static `script_initialized`. `loop_depth` is written only by
`script_parse_for`, which nothing here calls. -/
structure ScriptContext where
  vars : Fin maxVariables → ScriptVar
  inIfBlock : Bool
  ifConditionResult : Bool
  initialized : Bool

/-- The slots in index order, as the loops over `MAX_VARIABLES` scan them. -/
def varSlots : List (Fin maxVariables) := List.finRange maxVariables

/-- `strncpy(dest, src, n - 1); dest[n - 1] = '\0'`: the first `n - 1` bytes. -/
def copyBounded (n : Nat) (s : CString) : CString := s.take (n - 1)

/-- The test of the lookup loops: `is_set && strcmp(name, n) == 0`. -/
def holds (ctx : ScriptContext) (name : CString) (i : Fin maxVariables) : Bool :=
  (ctx.vars i).isSet && stringCompare (ctx.vars i).name name == 0

def ScriptContext.update (ctx : ScriptContext) (i : Fin maxVariables) (var : ScriptVar) : ScriptContext :=
  { ctx with vars := Function.update ctx.vars i var }

/-- `script_set_var`: overwrite the value of the first slot that holds the name, or fill the
first free slot; `-1` when neither exists. -/
def scriptSetVar (name value : CString) (ctx : ScriptContext) : Int × ScriptContext :=
  match varSlots.find? (holds ctx name) with
  | some i => (0, ctx.update i { ctx.vars i with value := copyBounded maxVarValue value })
  | none =>
    match varSlots.find? (fun i => !(ctx.vars i).isSet) with
    | some i => (0, ctx.update i ⟨copyBounded maxVarName name, copyBounded maxVarValue value, true⟩)
    | none => (-1, ctx)

/-- `script_get_var`: the value of the first slot that holds the name, `none` for `NULL`. -/
def scriptGetVar (name : CString) (ctx : ScriptContext) : Option CString :=
  (varSlots.find? (holds ctx name)).map fun i => (ctx.vars i).value

def scriptUnsetVar (name : CString) (ctx : ScriptContext) : ScriptContext :=
  match varSlots.find? (holds ctx name) with
  | some i => ctx.update i { ctx.vars i with isSet := false }
  | none => ctx

/-- The zeroed statics before `script_init`. -/
def ScriptContext.boot : ScriptContext := ⟨fun _ => ⟨[], [], false⟩, false, false, false⟩

/-- `script_init`: once, clear every slot and set `PATH`, `HOME` and `PS1`. -/
def scriptInit (ctx : ScriptContext) : ScriptContext :=
  if ctx.initialized then ctx
  else
    let ctx := { ctx with vars := fun _ => ⟨[], [], false⟩, inIfBlock := false, ifConditionResult := false }
    let ctx := (scriptSetVar (cstr "PATH") (cstr "/bin:/usr/bin") ctx).2
    let ctx := (scriptSetVar (cstr "HOME") (cstr "/home") ctx).2
    let ctx := (scriptSetVar (cstr "PS1") (cstr "OpenOS> ") ctx).2
    { ctx with initialized := true }

/-- `evaluate_condition`: `true` and `1`, `false` and `0`, and `$NAME` for a set variable. -/
def evaluateCondition (cond : CString) (ctx : ScriptContext) : Bool :=
  if stringCompare cond (cstr "true") = 0 ∨ stringCompare cond (cstr "1") = 0 then true
  else if stringCompare cond (cstr "false") = 0 ∨ stringCompare cond (cstr "0") = 0 then false
  else if cond.head? = some '$'.toUInt8 then (scriptGetVar cond.tail ctx).isSome
  else false

def scriptParseIf (condition : CString) (ctx : ScriptContext) : Int × ScriptContext :=
  (if evaluateCondition condition ctx then 1 else 0,
    { ctx with inIfBlock := true, ifConditionResult := evaluateCondition condition ctx })

def isBlank (c : UInt8) : Bool := c == ' '.toUInt8 || c == '\t'.toUInt8

/-- `trim_whitespace`: skip the leading blanks, then cut trailing blanks while the end is
past the start, so the first byte left is never cut. The test for `'\0'` there never holds:
every byte before the terminator is non-zero. -/
def trimWhitespace (s : CString) : CString :=
  match s.dropWhile isBlank with
  | [] => []
  | c :: cs => c :: (cs.reverse.dropWhile isBlank).reverse

/-- One non-empty line of `script_execute`, with the console output so far: an assignment at
its first `=`, an `if`, or a command, which is echoed. -/
def executeLine (line : CString) (st : ScriptContext × CString) : ScriptContext × CString :=
  match strchr line '='.toUInt8 with
  | some i => ((scriptSetVar (trimWhitespace (line.take i)) (trimWhitespace (line.drop (i + 1))) st.1).2, st.2)
  | none =>
    if strncmp line (cstr "if ") 3 = 0 then ((scriptParseIf (line.drop 3) st.1).2, st.2)
    else (st.1, st.2 ++ cstr "  > " ++ line ++ cstr "\n")

/-- One byte of the loop of `script_execute`, with the buffer `line[0 .. line_pos)`: a newline
or a full buffer ends the line, which goes to `dispatch` when it is not empty, and the byte
itself is dropped; any other byte is appended. -/
def scanStep {σ : Type} (dispatch : CString → σ → σ) (st : CString × σ) (c : UInt8) : CString × σ :=
  if c = '\n'.toUInt8 ∨ 255 ≤ st.1.length then
    ([], if 0 < st.1.length then dispatch st.1 st.2 else st.2)
  else (st.1 ++ [c], st.2)

/-- The loop of `script_execute` over the script's bytes; it ends at the terminator. -/
def scriptScan {σ : Type} (dispatch : CString → σ → σ) (script : CString) (init : σ) : σ :=
  (script.foldl (scanStep dispatch) ([], init)).2

/-- `script_execute`: the context after the script and what it wrote to the console. -/
def scriptExecute (script : CString) (ctx : ScriptContext) : ScriptContext × CString :=
  ((scriptScan executeLine script (ctx, cstr "SCRIPT: Executing script...\n")).1,
    (scriptScan executeLine script (ctx, cstr "SCRIPT: Executing script...\n")).2 ++
      cstr "SCRIPT: Execution complete\n")

/-- The chunks the loop hands to its dispatcher, in order. -/
def scriptLines (script : CString) : List CString := scriptScan (fun line acc => acc ++ [line]) script []

/-! ### The variable table as a map -/

/-- The table the lookups rely on: set slots hold names without NUL, each name in one slot. -/
structure VarsOk (ctx : ScriptContext) : Prop where
  nulFree : ∀ i, (ctx.vars i).isSet = true → 0 ∉ (ctx.vars i).name
  distinct : ∀ i j, (ctx.vars i).isSet = true → (ctx.vars j).isSet = true →
    (ctx.vars i).name = (ctx.vars j).name → i = j

section Table

variable {ctx : ScriptContext} {name value : CString}

theorem find?_of_unique {α : Type} {p : α → Bool} {l : List α} {a : α} (mem : a ∈ l) (pa : p a = true)
    (only : ∀ b ∈ l, p b = true → b = a) : l.find? p = some a := by
  cases found : l.find? p with
  | none => exact absurd pa (by simpa using List.find?_eq_none.mp found a mem)
  | some b => rw [only b (List.mem_of_find?_eq_some found) (List.find?_some found)]

theorem mem_varSlots (i : Fin maxVariables) : i ∈ varSlots := List.mem_finRange i

@[simp] theorem update_variables (ctx : ScriptContext) (i : Fin maxVariables) (var : ScriptVar) :
    (ctx.update i var).vars = Function.update ctx.vars i var := rfl

theorem holds_iff (ok : VarsOk ctx) (nul : 0 ∉ name) (i : Fin maxVariables) :
    holds ctx name i = true ↔ (ctx.vars i).isSet = true ∧ (ctx.vars i).name = name := by
  unfold holds
  constructor
  · intro h
    simp only [Bool.and_eq_true, beq_iff_eq] at h
    exact ⟨h.1, (stringCompare_eq_zero (ok.nulFree i h.1) nul).mp h.2⟩
  · rintro ⟨active, rfl⟩
    simp [active]

theorem holds_update_same (i : Fin maxVariables) (var : ScriptVar) (flag : var.isSet = (ctx.vars i).isSet)
    (named : var.name = (ctx.vars i).name) : holds (ctx.update i var) = holds ctx := by
  funext name j
  by_cases at_i : j = i
  · subst at_i
    simp [holds, flag, named]
  · simp [holds, Function.update_of_ne at_i]

theorem holds_update_other {i j : Fin maxVariables} {var : ScriptVar} (ne : j ≠ i) (name : CString) :
    holds (ctx.update i var) name j = holds ctx name j := by
  simp [holds, Function.update_of_ne ne]

theorem holds_of_find? {i : Fin maxVariables} (found : varSlots.find? (holds ctx name) = some i) :
    holds ctx name i = true :=
  List.find?_some found

theorem not_holds_of_find? (found : varSlots.find? (holds ctx name) = none) (k : Fin maxVariables) :
    holds ctx name k = false := by
  simpa using List.find?_eq_none.mp found k (mem_varSlots k)

theorem free_of_find? {j : Fin maxVariables} (free : varSlots.find? (fun i => !(ctx.vars i).isSet) = some j) :
    (ctx.vars j).isSet = false := by
  simpa using List.find?_some free

theorem VarsOk.of_kept {ctx' : ScriptContext} (ok : VarsOk ctx)
    (kept : ∀ k, (ctx'.vars k).isSet = true → (ctx.vars k).isSet = true ∧ (ctx'.vars k).name = (ctx.vars k).name) :
    VarsOk ctx' where
  nulFree k active := by
    rw [(kept k active).2]
    exact ok.nulFree k (kept k active).1
  distinct k l activeK activeL same := by
    rw [(kept k activeK).2, (kept l activeL).2] at same
    exact ok.distinct k l (kept k activeK).1 (kept l activeL).1 same

theorem copyBounded_name (short : name.length < maxVarName) : copyBounded maxVarName name = name :=
  List.take_of_length_le (by simp only [maxVarName] at *; omega)

/-- After a successful `script_set_var` of a name shorter than `MAX_VAR_NAME`,
`script_get_var` of it returns the value cut to `MAX_VAR_VALUE - 1` bytes. -/
theorem scriptGetVar_set (short : name.length < maxVarName) (stored : (scriptSetVar name value ctx).1 = 0) :
    scriptGetVar name (scriptSetVar name value ctx).2 = some (copyBounded maxVarValue value) := by
  unfold scriptSetVar at stored ⊢
  cases found : varSlots.find? (holds ctx name) with
  | some i =>
    -- the slot keeps its name and flag, so the lookup finds it again
    dsimp only
    rw [scriptGetVar, holds_update_same i { ctx.vars i with value := copyBounded maxVarValue value } rfl rfl,
      found, Option.map_some, update_variables, Function.update_self]
  | none =>
    rw [found] at stored
    dsimp only at stored ⊢
    cases free : varSlots.find? (fun i => !(ctx.vars i).isSet) with
    | none =>
      rw [free] at stored
      simp at stored
    | some j =>
      dsimp only
      -- the new slot is the only one that holds the name
      have only : ∀ k ∈ varSlots, holds (ctx.update j ⟨copyBounded maxVarName name,
          copyBounded maxVarValue value, true⟩) name k = true → k = j := by
        intro k mem held
        by_contra ne
        rw [holds_update_other ne, not_holds_of_find? found k] at held
        exact Bool.noConfusion held
      have fresh : holds (ctx.update j ⟨copyBounded maxVarName name, copyBounded maxVarValue value, true⟩)
          name j = true := by
        simp [holds, copyBounded_name short]
      rw [scriptGetVar, find?_of_unique (mem_varSlots j) fresh only, Option.map_some, update_variables,
        Function.update_self]

/-- `script_set_var` fails only when no slot holds the name and none is free, and then
changes nothing. -/
theorem scriptSetVar_fails (failed : (scriptSetVar name value ctx).1 ≠ 0) :
    (∀ i, holds ctx name i = false) ∧ (∀ i, (ctx.vars i).isSet = true) ∧
      scriptSetVar name value ctx = (-1, ctx) := by
  unfold scriptSetVar at failed ⊢
  cases found : varSlots.find? (holds ctx name) with
  | some i =>
    rw [found] at failed
    exact absurd rfl failed
  | none =>
    rw [found] at failed
    dsimp only at failed ⊢
    cases free : varSlots.find? (fun i => !(ctx.vars i).isSet) with
    | some j =>
      rw [free] at failed
      exact absurd rfl failed
    | none =>
      refine ⟨fun i => ?_, fun i => ?_, rfl⟩
      · exact not_holds_of_find? found i
      · simpa using List.find?_eq_none.mp free i (mem_varSlots i)

theorem scriptSetVar_ok (ok : VarsOk ctx) (nul : 0 ∉ name) (short : name.length < maxVarName) :
    VarsOk (scriptSetVar name value ctx).2 := by
  unfold scriptSetVar
  cases found : varSlots.find? (holds ctx name) with
  | some i =>
    -- only a value changes
    dsimp only
    refine ok.of_kept fun k active => ?_
    by_cases at_i : k = i
    · subst at_i
      rw [update_variables, Function.update_self] at active ⊢
      exact ⟨active, rfl⟩
    · rw [update_variables, Function.update_of_ne at_i] at active ⊢
      exact ⟨active, rfl⟩
  | none =>
    dsimp only
    cases free : varSlots.find? (fun i => !(ctx.vars i).isSet) with
    | none => exact ok
    | some j =>
      dsimp only
      -- no set slot had the name, so the new slot's name is new
      have absent : ∀ k, (ctx.vars k).isSet = true → (ctx.vars k).name ≠ name := by
        intro k active same
        have held : holds ctx name k = true := (holds_iff ok nul k).mpr ⟨active, same⟩
        rw [not_holds_of_find? found k] at held
        exact Bool.noConfusion held
      have entry : ∀ k, (ctx.update j ⟨copyBounded maxVarName name, copyBounded maxVarValue value, true⟩).vars k =
          if k = j then ⟨name, copyBounded maxVarValue value, true⟩ else ctx.vars k := by
        intro k
        rw [update_variables, Function.update_apply, copyBounded_name short]
      refine ⟨fun k active => ?_, fun k l activeK activeL same => ?_⟩
      · rw [entry] at active ⊢
        split_ifs at active ⊢
        · exact nul
        · exact ok.nulFree k active
      · rw [entry, entry] at same
        rw [entry] at activeK
        rw [entry] at activeL
        by_cases kj : k = j <;> by_cases lj : l = j
        · rw [kj, lj]
        · rw [if_pos kj, if_neg lj] at same
          rw [if_neg lj] at activeL
          exact absurd same.symm (absent l activeL)
        · rw [if_neg kj, if_pos lj] at same
          rw [if_neg kj] at activeK
          exact absurd same (absent k activeK)
        · rw [if_neg kj, if_neg lj] at same
          rw [if_neg kj] at activeK
          rw [if_neg lj] at activeL
          exact ok.distinct k l activeK activeL same

theorem scriptUnsetVar_ok (ok : VarsOk ctx) : VarsOk (scriptUnsetVar name ctx) := by
  unfold scriptUnsetVar
  cases found : varSlots.find? (holds ctx name) with
  | none => exact ok
  | some i =>
    dsimp only
    -- clearing a flag leaves fewer set slots, with the same names
    have keeps : ∀ k, ((ctx.update i { ctx.vars i with isSet := false }).vars k).isSet = true →
        (ctx.vars k).isSet = true ∧
          ((ctx.update i { ctx.vars i with isSet := false }).vars k).name = (ctx.vars k).name := by
      intro k active
      by_cases at_i : k = i
      · subst at_i
        simp at active
      · rw [update_variables, Function.update_of_ne at_i] at active ⊢
        exact ⟨active, rfl⟩
    exact ok.of_kept keeps

/-- After `script_unset_var`, `script_get_var` of a NUL-free name finds nothing: its one slot
is cleared. -/
theorem scriptGetVar_unset (ok : VarsOk ctx) (nul : 0 ∉ name) :
    scriptGetVar name (scriptUnsetVar name ctx) = none := by
  unfold scriptUnsetVar
  cases found : varSlots.find? (holds ctx name) with
  | none =>
    dsimp only
    rw [scriptGetVar, found, Option.map_none]
  | some i =>
    dsimp only
    have slot := (holds_iff ok nul i).mp (holds_of_find? found)
    rw [scriptGetVar, Option.map_eq_none_iff, List.find?_eq_none]
    intro k _ held
    by_cases at_i : k = i
    · subst at_i
      simp [holds] at held
    · rw [holds_update_other at_i, holds_iff ok nul] at held
      exact at_i (ok.distinct k i held.1 slot.1 (held.2.trans slot.2.symm))

/-- `script_set_var` of one name leaves `script_get_var` of every other NUL-free name as it
was. -/
theorem scriptGetVar_set_other {other : CString} (ok : VarsOk ctx) (nul : 0 ∉ name) (nulOther : 0 ∉ other)
    (short : name.length < maxVarName) (ne : other ≠ name) :
    scriptGetVar other (scriptSetVar name value ctx).2 = scriptGetVar other ctx := by
  unfold scriptSetVar
  cases found : varSlots.find? (holds ctx name) with
  | some i =>
    dsimp only
    have slot := (holds_iff ok nul i).mp (holds_of_find? found)
    rw [scriptGetVar, scriptGetVar, holds_update_same i { ctx.vars i with value := copyBounded maxVarValue value } rfl rfl]
    cases look : varSlots.find? (holds ctx other) with
    | none => rfl
    | some k =>
      -- the slot of the other name is not the one that changed
      have at_k := (holds_iff ok nulOther k).mp (holds_of_find? look)
      have apart : k ≠ i := by
        rintro rfl
        exact ne (at_k.2.symm.trans slot.2)
      simp [Function.update_of_ne apart]
  | none =>
    dsimp only
    cases free : varSlots.find? (fun i => !(ctx.vars i).isSet) with
    | none => rfl
    | some j =>
      dsimp only
      have same : holds (ctx.update j ⟨copyBounded maxVarName name, copyBounded maxVarValue value, true⟩) other =
          holds ctx other := by
        funext k
        by_cases at_j : k = j
        · subst at_j
          have unset : (ctx.vars k).isSet = false := free_of_find? free
          have differ : stringCompare name other ≠ 0 := fun zero => ne ((stringCompare_eq_zero nul nulOther).mp zero).symm
          simp [holds, unset, copyBounded_name short, differ]
        · exact holds_update_other at_j other
      rw [scriptGetVar, scriptGetVar, same]
      cases look : varSlots.find? (holds ctx other) with
      | none => rfl
      | some k =>
        have at_k := holds_of_find? look
        have apart : k ≠ j := by
          rintro rfl
          have unset : (ctx.vars k).isSet = false := free_of_find? free
          simp [holds, unset] at at_k
        simp [Function.update_of_ne apart]

/-- The calls on the table. -/
inductive VarCall
  | set (name value : CString)
  | unset (name : CString)

def VarCall.apply : VarCall → ScriptContext → ScriptContext
  | .set name value, ctx => (scriptSetVar name value ctx).2
  | .unset name, ctx => scriptUnsetVar name ctx

/-- A call on a name that `script_set_var` stores whole. -/
def VarCall.Short : VarCall → Prop
  | .set name _ => 0 ∉ name ∧ name.length < maxVarName
  | .unset _ => True

theorem scriptInit_ok : VarsOk (scriptInit ScriptContext.boot) := by
  have empty : VarsOk ⟨fun _ => ⟨[], [], false⟩, false, false, false⟩ :=
    ⟨fun _ active => by simp at active, fun _ _ active => by simp at active⟩
  -- the three defaults have short names without NUL
  have filled : VarsOk (scriptSetVar (cstr "PS1") (cstr "OpenOS> ")
      (scriptSetVar (cstr "HOME") (cstr "/home")
        (scriptSetVar (cstr "PATH") (cstr "/bin:/usr/bin") ⟨fun _ => ⟨[], [], false⟩, false, false, false⟩).2).2).2 :=
    scriptSetVar_ok (scriptSetVar_ok (scriptSetVar_ok empty (by decide) (by decide)) (by decide) (by decide))
      (by decide) (by decide)
  exact ⟨filled.nulFree, filled.distinct⟩

theorem run_varsOk {calls : List VarCall} (short : ∀ c ∈ calls, c.Short) :
    VarsOk (Runs.run VarCall.apply calls (scriptInit ScriptContext.boot)) := by
  refine Runs.run_invariant VarsOk (fun ctx c ok admissible => ?_) scriptInit_ok
    (Runs.admissible_const (P := VarCall.Short) |>.mpr short)
  cases c with
  | set name value => exact scriptSetVar_ok ok admissible.1 admissible.2
  | unset name => exact scriptUnsetVar_ok ok

/-- Over every run of sets of short NUL-free names and of unsets from `script_init`, the table
is a map from names: a successful set of such a name makes `script_get_var` return the value,
cut to `MAX_VAR_VALUE - 1` bytes, and keeps every other name's value; a failed set returns -1
and changes nothing; an unset leaves the name unbound. -/
theorem script_vars_map {calls : List VarCall} (short : ∀ c ∈ calls, c.Short) (name value : CString)
    (nul : 0 ∉ name) (nameShort : name.length < maxVarName) :
    ((scriptSetVar name value (Runs.run VarCall.apply calls (scriptInit ScriptContext.boot))).1 = 0 →
        scriptGetVar name (scriptSetVar name value (Runs.run VarCall.apply calls (scriptInit ScriptContext.boot))).2 =
          some (copyBounded maxVarValue value)) ∧
      ((scriptSetVar name value (Runs.run VarCall.apply calls (scriptInit ScriptContext.boot))).1 ≠ 0 →
        scriptSetVar name value (Runs.run VarCall.apply calls (scriptInit ScriptContext.boot)) =
          (-1, Runs.run VarCall.apply calls (scriptInit ScriptContext.boot))) ∧
      (∀ other, 0 ∉ other → other ≠ name →
        scriptGetVar other (scriptSetVar name value (Runs.run VarCall.apply calls (scriptInit ScriptContext.boot))).2 =
          scriptGetVar other (Runs.run VarCall.apply calls (scriptInit ScriptContext.boot))) ∧
      scriptGetVar name (scriptUnsetVar name (Runs.run VarCall.apply calls (scriptInit ScriptContext.boot))) = none := by
  have ok := run_varsOk short
  exact ⟨scriptGetVar_set nameShort, fun failed => (scriptSetVar_fails failed).2.2,
    fun other nulOther ne => scriptGetVar_set_other ok nul nulOther nameShort ne, scriptGetVar_unset ok nul⟩

/-- After `script_init`, setting `HOME` again replaces its value. -/
theorem script_vars_map_home :
    (scriptSetVar (cstr "HOME") (cstr "/root") (scriptInit ScriptContext.boot)).1 = 0 ∧
      scriptGetVar (cstr "HOME") (scriptSetVar (cstr "HOME") (cstr "/root") (scriptInit ScriptContext.boot)).2 =
        some (copyBounded maxVarValue (cstr "/root")) := by
  have stored : (scriptSetVar (cstr "HOME") (cstr "/root") (scriptInit ScriptContext.boot)).1 = 0 := by
    decide
  exact ⟨stored, (@script_vars_map [] (by simp) (cstr "HOME") (cstr "/root") (by decide) (by decide)).1 stored⟩

end Table

/-- A name of `MAX_VAR_NAME` bytes: after `script_init`, `script_set_var` stores it cut to 31
bytes in slot 3 and returns 0, but `script_get_var` of it returns `NULL`; a second
`script_set_var` of it finds nothing either and fills slot 4 with the same cut name, so two
active slots hold one name. -/
theorem script_long_name_lost :
    (scriptSetVar (List.replicate 32 0x41) (cstr "v") (scriptInit ScriptContext.boot)).1 = 0 ∧
      scriptGetVar (List.replicate 32 0x41)
        (scriptSetVar (List.replicate 32 0x41) (cstr "v") (scriptInit ScriptContext.boot)).2 = none ∧
      (scriptSetVar (List.replicate 32 0x41) (cstr "v")
          (scriptSetVar (List.replicate 32 0x41) (cstr "v") (scriptInit ScriptContext.boot)).2).2.vars
          ⟨3, by decide⟩ = ⟨List.replicate 31 0x41, cstr "v", true⟩ ∧
      (scriptSetVar (List.replicate 32 0x41) (cstr "v")
          (scriptSetVar (List.replicate 32 0x41) (cstr "v") (scriptInit ScriptContext.boot)).2).2.vars
          ⟨4, by decide⟩ = ⟨List.replicate 31 0x41, cstr "v", true⟩ := by
  refine ⟨by decide +kernel, by decide +kernel, by decide +kernel, by decide +kernel⟩

/-! ### The line loop -/

section Scan

variable {σ : Type} (dispatch : CString → σ → σ)

theorem foldl_scanStep_chunk (x : σ) (r : CString) (noNewline : '\n'.toUInt8 ∉ r) :
    ∀ b : CString, b.length + r.length ≤ 255 → r.foldl (scanStep dispatch) (b, x) = (b ++ r, x) := by
  induction r with
  | nil => simp
  | cons c r ih =>
    intro b fits
    have notNewline : c ≠ '\n'.toUInt8 := fun eq => noNewline (eq ▸ List.mem_cons_self)
    have room : ¬ 255 ≤ b.length := by simp only [List.length_cons] at fits; omega
    rw [List.foldl_cons, scanStep, if_neg (by simp [notNewline, room])]
    rw [ih (fun mem => noNewline (List.mem_cons_of_mem c mem)) (b ++ [c]) (by simp at fits ⊢; omega)]
    simp

theorem scanStep_newline (b : CString) (x : σ) :
    scanStep dispatch (b, x) '\n'.toUInt8 = ([], if b = [] then x else dispatch b x) := by
  rw [scanStep, if_pos (Or.inl rfl)]
  cases b <;> simp

theorem foldl_scanStep_line (x : σ) {line : CString} (noNewline : '\n'.toUInt8 ∉ line)
    (short : line.length ≤ 255) :
    (line ++ ['\n'.toUInt8]).foldl (scanStep dispatch) ([], x) = ([], if line = [] then x else dispatch line x) := by
  rw [List.foldl_append, foldl_scanStep_chunk dispatch x line noNewline [] (by simpa using short),
    List.nil_append, List.foldl_cons, List.foldl_nil, scanStep_newline]

end Scan

/-- A script of newline-terminated lines of at most 255 bytes, followed by a last piece of at
most 255 bytes without a newline: the dispatcher gets the non-empty lines, in order, and
never the last piece. -/
theorem scriptLines_terminated (ls : List CString) (r : CString)
    (lines : ∀ l ∈ ls, '\n'.toUInt8 ∉ l ∧ l.length ≤ 255) (noNewline : '\n'.toUInt8 ∉ r)
    (short : r.length ≤ 255) :
    scriptLines ((ls.map (· ++ ['\n'.toUInt8])).flatten ++ r) = ls.filter (· ≠ []) := by
  suffices run : ∀ acc, ((ls.map (· ++ ['\n'.toUInt8])).flatten ++ r).foldl
      (scanStep (fun line acc => acc ++ [line])) ([], acc) = (r, acc ++ ls.filter (· ≠ [])) by
    simpa only [scriptLines, scriptScan, List.nil_append] using congrArg Prod.snd (run [])
  induction ls with
  | nil =>
    intro acc
    simpa using foldl_scanStep_chunk (fun line acc => acc ++ [line]) acc r noNewline [] (by simpa using short)
  | cons l ls ih =>
    intro acc
    obtain ⟨lineOk, rest⟩ := List.forall_mem_cons.mp lines
    rw [List.map_cons, List.flatten_cons, List.append_assoc, List.foldl_append,
      foldl_scanStep_line _ acc lineOk.1 lineOk.2, ih rest]
    by_cases empty : l = []
    · simp [empty]
    · simp [empty]

theorem scriptLines_terminated_two :
    (∀ l ∈ [cstr "X=1", []], '\n'.toUInt8 ∉ l ∧ l.length ≤ 255) ∧ '\n'.toUInt8 ∉ cstr "echo" ∧
      (cstr "echo").length ≤ 255 ∧
      scriptLines (([cstr "X=1", []].map (· ++ ['\n'.toUInt8])).flatten ++ cstr "echo") =
        [cstr "X=1", []].filter (· ≠ []) :=
  ⟨by decide, by decide, by decide, scriptLines_terminated _ _ (by decide) (by decide) (by decide)⟩

/-- `X=1` without a newline is never run, so after `script_init` and `script_execute`,
`X` is unset; with the newline it is `1`. A line of 256 bytes `a` is dispatched as its first
255 bytes, and the 256th is gone. -/
theorem script_execute_loses_text :
    scriptLines (cstr "X=1") = [] ∧
      scriptGetVar (cstr "X") (scriptExecute (cstr "X=1") (scriptInit ScriptContext.boot)).1 = none ∧
      scriptGetVar (cstr "X") (scriptExecute (cstr "X=1\n") (scriptInit ScriptContext.boot)).1 = some (cstr "1") ∧
      scriptLines (List.replicate 256 0x61 ++ cstr "\n") = [List.replicate 255 0x61] := by
  refine ⟨by decide +kernel, by decide +kernel, by decide +kernel, by decide +kernel⟩

end OpenOS.Kernel
