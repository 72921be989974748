import Mathlib
import OpenOS.Drivers.Keyboard
import OpenOS.Kernel.Strings
import OpenOS.Lib.Run

/-! `keyboard_get_line(buffer, max_len)` against the keyboard interrupt. The reader resets the
shared line buffer with interrupts off, waits with `hlt` until `line_ready` is set, and copies
the buffer while the index is below `input_buffer_pos` and `max_len - 1`, reading the volatile
position at each test of the loop. A run is a list of events, each an IRQ 1 that runs
`keyboard_handler` to its end or one statement of the reader, so every interleaving of the two
is a run. The `NULL` check on `buffer` is left out: the model's buffer always exists.

Up to Enter the reader only waits, and the handler edits the line (`Waiting`). Once
`line_ready` is set, a run whose keystrokes leave the line alone copies the line held at Enter
(`keyboardGetLine_copies_entered_line`) and returns after a bounded number of statements
(`Delivering.returns`). Nothing stops the handler after Enter, though: a key typed before the
copy is done goes into the line the reader is copying (`get_line_copies_key_after_enter`). -/
namespace OpenOS.Drivers

open OpenOS.Kernel (cstr)

/-- Where `keyboard_get_line` is: at its entry, in the wait loop, at the copy loop's test with
index `i`, or returned. -/
inductive GetLinePc
  | entry
  | wait
  | copy (i : Nat)
  | done
  deriving DecidableEq, Repr

/-- The driver's state with the reader's: its program point and the bytes it has stored into
`buffer` so far, in order. -/
structure Machine where
  kb : Keyboard
  pc : GetLinePc
  buffer : List UInt8

/-- One statement of `keyboard_get_line(buffer, max_len)`. The reset runs between `cli` and
`sti`, so it is one step; so is each test of `line_ready`, with `hlt` waiting for the next
interrupt, and each test of the copy loop together with the byte it copies. -/
def keyboardGetLine (maxLen : Nat) (m : Machine) : Machine :=
  match m.pc with
  | .entry =>
    -- a zero `max_len` returns at once and writes nothing
    if maxLen = 0 then { m with pc := .done }
    else { m with kb := { m.kb with inputBufferPos := 0, lineReady := false }, pc := .wait }
  | .wait => if m.kb.lineReady then { m with pc := .copy 0 } else m
  | .copy i =>
    if i < m.kb.inputBufferPos ∧ i < maxLen - 1 then
      { m with buffer := m.buffer ++ [m.kb.inputBuffer i], pc := .copy (i + 1) }
    else { m with buffer := m.buffer ++ [0], pc := .done }
  | .done => m

/-- What can happen next: an IRQ 1 with `scancode` at the data port, or a reader statement. -/
inductive Event
  | irq (scancode : UInt8)
  | step
  deriving DecidableEq, Repr

/-- One event of a run: the handler runs to its end, or the reader takes one statement. -/
def Machine.apply (maxLen : Nat) : Event → Machine → Machine
  | .irq scancode, m => { m with kb := keyboardHandler scancode m.kb }
  | .step, m => keyboardGetLine maxLen m

/-- A call of `keyboard_get_line` on the driver's state `kb`. -/
def Machine.start (kb : Keyboard) : Machine := ⟨kb, .entry, []⟩

section Steps

variable {maxLen i : Nat} {kb : Keyboard} {buffer : List UInt8}

theorem keyboardGetLine_reset (positive : 0 < maxLen) :
    keyboardGetLine maxLen ⟨kb, .entry, buffer⟩ =
      ⟨{ kb with inputBufferPos := 0, lineReady := false }, .wait, buffer⟩ := by
  simp only [keyboardGetLine, if_neg (Nat.pos_iff_ne_zero.mp positive)]

theorem keyboardGetLine_wait :
    keyboardGetLine maxLen ⟨kb, .wait, buffer⟩ =
      if kb.lineReady then ⟨kb, .copy 0, buffer⟩ else ⟨kb, .wait, buffer⟩ := rfl

theorem keyboardGetLine_copy_more (more : i < kb.inputBufferPos ∧ i < maxLen - 1) :
    keyboardGetLine maxLen ⟨kb, .copy i, buffer⟩ = ⟨kb, .copy (i + 1), buffer ++ [kb.inputBuffer i]⟩ := by
  simp only [keyboardGetLine, if_pos more]

theorem keyboardGetLine_copy_stop (stop : ¬(i < kb.inputBufferPos ∧ i < maxLen - 1)) :
    keyboardGetLine maxLen ⟨kb, .copy i, buffer⟩ = ⟨kb, .done, buffer ++ [0]⟩ := by
  simp only [keyboardGetLine, if_neg stop]

@[simp] theorem keyboardGetLine_done : keyboardGetLine maxLen ⟨kb, .done, buffer⟩ = ⟨kb, .done, buffer⟩ := rfl

theorem keyboardGetLine_kb (m : Machine) (notEntry : m.pc ≠ .entry) : (keyboardGetLine maxLen m).kb = m.kb := by
  obtain ⟨kb, pc, buffer⟩ := m
  cases pc with
  | entry => exact absurd rfl notEntry
  | wait =>
    rw [keyboardGetLine_wait]
    split <;> rfl
  | copy i =>
    by_cases more : i < kb.inputBufferPos ∧ i < maxLen - 1
    · rw [keyboardGetLine_copy_more more]
    · rw [keyboardGetLine_copy_stop more]
  | done => rfl

theorem keyboardGetLine_pc_ne_entry (m : Machine) (notEntry : m.pc ≠ .entry) :
    (keyboardGetLine maxLen m).pc ≠ .entry := by
  obtain ⟨kb, pc, buffer⟩ := m
  cases pc with
  | entry => exact absurd rfl notEntry
  | wait =>
    rw [keyboardGetLine_wait]
    split <;> exact GetLinePc.noConfusion
  | copy i =>
    by_cases more : i < kb.inputBufferPos ∧ i < maxLen - 1
    · rw [keyboardGetLine_copy_more more]
      exact GetLinePc.noConfusion
    · rw [keyboardGetLine_copy_stop more]
      exact GetLinePc.noConfusion
  | done => exact notEntry

end Steps

section Bounded

/-- Every event keeps `input_buffer_pos` inside `input_buffer`. -/
theorem Machine.apply_bounded (maxLen : Nat) (e : Event) (m : Machine)
    (bounded : m.kb.inputBufferPos < inputBufferSize) :
    (m.apply maxLen e).kb.inputBufferPos < inputBufferSize := by
  cases e with
  | irq scancode => exact keyboardHandler_bounded bounded
  | step =>
    obtain ⟨kb, pc, buffer⟩ := m
    by_cases entry : pc = .entry
    · -- the reset puts the position back to 0, and a zero `max_len` changes nothing
      subst entry
      simp only [Machine.apply, keyboardGetLine]
      split
      · exact bounded
      · exact Nat.zero_lt_of_lt bounded
    · rw [Machine.apply, keyboardGetLine_kb _ entry]
      exact bounded

theorem run_bounded (maxLen : Nat) (events : List Event) {m : Machine}
    (bounded : m.kb.inputBufferPos < inputBufferSize) :
    (Runs.run (Machine.apply maxLen) events m).kb.inputBufferPos < inputBufferSize :=
  Runs.run_invariant_all (fun m => m.kb.inputBufferPos < inputBufferSize)
    (fun m e bounded => Machine.apply_bounded maxLen e m bounded) bounded

end Bounded

/-- How far the copy has got against the line it copies: nothing stored at the wait, the first
`i` bytes of the line at the loop's test with index `i`, and once returned the line cut to
`max_len - 1` bytes, with its NUL. -/
inductive Copied (maxLen : Nat) (line : List UInt8) : GetLinePc → List UInt8 → Prop
  | wait : Copied maxLen line .wait []
  | copy {i : Nat} (le : i ≤ line.length) (room : i ≤ maxLen - 1) : Copied maxLen line (.copy i) (line.take i)
  | done : Copied maxLen line .done (line.take (maxLen - 1) ++ [0])

/-- The reader after Enter: `line_ready` is set, the buffer holds `line`, and the copy is as
far as `Copied` says. -/
structure Delivering (maxLen : Nat) (line : List UInt8) (m : Machine) : Prop where
  ready : m.kb.lineReady = true
  held : m.kb.line = line
  bounded : m.kb.inputBufferPos < inputBufferSize
  copied : Copied maxLen line m.pc m.buffer

/-- An event that leaves the line alone: a reader statement, or a scan code whose handling
does not edit the line in the state it arrives in. -/
def KeepsLine (m : Machine) : Event → Prop
  | .irq scancode => (keyboardHandler scancode m.kb).line = m.kb.line
  | .step => True

theorem Keyboard.take_line_succ {kb : Keyboard} {i : Nat} (lt : i < kb.inputBufferPos)
    (bounded : kb.inputBufferPos < inputBufferSize) :
    kb.line.take (i + 1) = kb.line.take i ++ [kb.inputBuffer i] := by
  unfold Keyboard.line
  rw [Ring.take_contents, Ring.take_contents, Nat.min_eq_left lt, Nat.min_eq_left (Nat.le_of_lt lt),
    Ring.contents_succ, Nat.zero_add, Nat.mod_eq_of_lt (lt.trans bounded)]

section Delivery

variable {maxLen : Nat} {line : List UInt8} {m : Machine}

/-- A reader statement after Enter keeps the delivery going: the loop copies the byte at its
index, and stops at the end of the line or of the room in `buffer`. -/
theorem Delivering.step (d : Delivering maxLen line m) : Delivering maxLen line (keyboardGetLine maxLen m) := by
  obtain ⟨kb, pc, buffer⟩ := m
  obtain ⟨ready, held, bounded, copied⟩ := d
  dsimp only at ready held bounded copied
  have length : line.length = kb.inputBufferPos := by rw [← held, Keyboard.length_line]
  cases copied with
  | wait =>
    rw [keyboardGetLine_wait, if_pos ready]
    exact ⟨ready, held, bounded, .copy (Nat.zero_le _) (Nat.zero_le _)⟩
  | @copy i le room =>
    by_cases more : i < kb.inputBufferPos ∧ i < maxLen - 1
    · rw [keyboardGetLine_copy_more more]
      refine ⟨ready, held, bounded, ?_⟩
      have extended : line.take i ++ [kb.inputBuffer i] = line.take (i + 1) := by
        rw [← held, Keyboard.take_line_succ more.1 bounded]
      dsimp only
      rw [extended]
      exact .copy (by omega) (by omega)
    · rw [keyboardGetLine_copy_stop more]
      refine ⟨ready, held, bounded, ?_⟩
      -- the loop stopped at the end of the line or at `max_len - 1`: either way it copied
      -- the line cut to `max_len - 1`
      have cut : line.take i = line.take (maxLen - 1) := by
        rw [List.take_eq_take_iff]
        omega
      dsimp only
      rw [cut]
      exact .done
  | done => exact ⟨ready, held, bounded, .done⟩

theorem Delivering.irq (d : Delivering maxLen line m) {scancode : UInt8}
    (keeps : (keyboardHandler scancode m.kb).line = m.kb.line) :
    Delivering maxLen line (m.apply maxLen (.irq scancode)) where
  ready := by
    show (keyboardHandler scancode m.kb).lineReady = true
    rw [keyboardHandler_lineReady, d.ready, Bool.true_or]
  held := keeps.trans d.held
  bounded := keyboardHandler_bounded d.bounded
  copied := d.copied

theorem Delivering.run (d : Delivering maxLen line m) {events : List Event}
    (quiet : Runs.Admissible KeepsLine (Machine.apply maxLen) events m) :
    Delivering maxLen line (Runs.run (Machine.apply maxLen) events m) := by
  refine Runs.run_invariant (Delivering maxLen line) (fun m e d keeps => ?_) d quiet
  cases e with
  | irq scancode => exact d.irq keeps
  | step => exact d.step

/-- The reader statements left before `keyboard_get_line` returns, with `line_ready` set and
`len` bytes in the line. -/
def remaining (maxLen len : Nat) : GetLinePc → Nat
  | .entry => 0
  | .wait => min len (maxLen - 1) + 2
  | .copy i => min len (maxLen - 1) + 1 - i
  | .done => 0

end Delivery

section Waiting

/-- The reader in its wait loop before Enter: the reset is done, nothing is copied, and
`line_ready` is clear. -/
structure Waiting (m : Machine) : Prop where
  wait : m.pc = .wait
  empty : m.buffer = []
  idle : m.kb.lineReady = false
  bounded : m.kb.inputBufferPos < inputBufferSize

variable {maxLen : Nat} {m : Machine}

theorem Waiting.reset (positive : 0 < maxLen) (kb : Keyboard) :
    Waiting ((Machine.start kb).apply maxLen .step) ∧ ((Machine.start kb).apply maxLen .step).kb.line = [] := by
  rw [Machine.start, Machine.apply, keyboardGetLine_reset positive]
  exact ⟨⟨rfl, rfl, rfl, show 0 < inputBufferSize by decide⟩, rfl⟩

theorem Waiting.step (w : Waiting m) : m.apply maxLen .step = m := by
  obtain ⟨kb, pc, buffer⟩ := m
  obtain ⟨wait, -, idle, -⟩ := w
  dsimp only at wait idle
  subst wait
  rw [Machine.apply, keyboardGetLine_wait, if_neg (by rw [idle]; exact Bool.false_ne_true)]

theorem enter_keeps_line {kb : Keyboard} {scancode : UInt8} (bounded : kb.inputBufferPos < inputBufferSize)
    (idle : kb.lineReady = false) (entered : (keyboardHandler scancode kb).lineReady = true) :
    (keyboardHandler scancode kb).line = kb.line := by
  rw [keyboardHandler_lineReady, idle, Bool.false_or, Bool.and_eq_true, decide_eq_true_iff,
    beq_iff_eq] at entered
  rw [keyboardHandler_line bounded, if_pos entered.1, entered.2]
  unfold editLine
  rw [if_neg (by decide), if_pos (.inl rfl)]

theorem Waiting.irq (w : Waiting m) (scancode : UInt8) :
    Waiting (m.apply maxLen (.irq scancode)) ∨
      Delivering maxLen m.kb.line (m.apply maxLen (.irq scancode)) := by
  cases entered : (keyboardHandler scancode m.kb).lineReady with
  | false => exact .inl ⟨w.wait, w.empty, entered, keyboardHandler_bounded w.bounded⟩
  | true =>
    refine .inr ⟨entered, enter_keeps_line w.bounded w.idle entered, keyboardHandler_bounded w.bounded, ?_⟩
    show Copied maxLen m.kb.line m.pc m.buffer
    rw [w.wait, w.empty]
    exact .wait

/-- Nothing but the reset clears `line_ready`. -/
theorem lineReady_run (events : List Event) (notEntry : m.pc ≠ .entry) (ready : m.kb.lineReady = true) :
    (Runs.run (Machine.apply maxLen) events m).kb.lineReady = true := by
  suffices kept : (fun m : Machine => m.pc ≠ .entry ∧ m.kb.lineReady = true)
      (Runs.run (Machine.apply maxLen) events m) from kept.2
  refine Runs.run_invariant_all (fun m : Machine => m.pc ≠ .entry ∧ m.kb.lineReady = true)
    (fun m e kept => ?_) ⟨notEntry, ready⟩
  obtain ⟨notEntry, ready⟩ := kept
  cases e with
  | irq scancode =>
    refine ⟨notEntry, ?_⟩
    show (keyboardHandler scancode m.kb).lineReady = true
    rw [keyboardHandler_lineReady, ready, Bool.true_or]
  | step =>
    refine ⟨keyboardGetLine_pc_ne_entry m notEntry, ?_⟩
    show (keyboardGetLine maxLen m).kb.lineReady = true
    rw [keyboardGetLine_kb m notEntry, ready]

/-- A run that ends with `line_ready` clear has been waiting all along. -/
theorem Waiting.run (w : Waiting m) {events : List Event}
    (idle : (Runs.run (Machine.apply maxLen) events m).kb.lineReady = false) :
    Waiting (Runs.run (Machine.apply maxLen) events m) := by
  induction events generalizing m with
  | nil => exact w
  | cons e events ih =>
    rw [Runs.run_cons] at idle ⊢
    cases e with
    | step =>
      rw [w.step] at idle ⊢
      exact ih w idle
    | irq scancode =>
      have next : Waiting (m.apply maxLen (.irq scancode)) ∨
          Delivering maxLen m.kb.line (m.apply maxLen (.irq scancode)) := w.irq scancode
      rcases next with waiting | delivering
      · exact ih waiting idle
      · -- Enter came in this run, and `line_ready` would still be set at its end
        have notEntry : (m.apply maxLen (.irq scancode)).pc ≠ .entry := by
          show m.pc ≠ .entry
          rw [w.wait]
          exact GetLinePc.noConfusion
        have ready : (Runs.run (Machine.apply maxLen) events (m.apply maxLen (.irq scancode))).kb.lineReady = true :=
          lineReady_run events notEntry delivering.ready
        rw [idle] at ready
        exact absurd ready Bool.false_ne_true

end Waiting

theorem Copied.done_buffer {maxLen : Nat} {line buffer : List UInt8} (copied : Copied maxLen line .done buffer) :
    buffer = line.take (maxLen - 1) ++ [0] := by
  cases copied
  rfl

/-- `keyboard_get_line` delivers the line as typed up to Enter when nothing edits it after:
for every run of one call with `max_len ≥ 1` that resets, interleaves keystrokes and waiting
until the first Enter, and then interleaves reader statements with keystrokes that leave the
line alone, a return leaves in `buffer` the line held at Enter, cut to `max_len - 1` bytes,
and its NUL. -/
theorem keyboardGetLine_copies_entered_line {maxLen : Nat} (positive : 0 < maxLen) (kb : Keyboard)
    (typing : List Event) (scancode : UInt8) (after : List Event)
    (idle : (Runs.run (Machine.apply maxLen) (.step :: typing) (Machine.start kb)).kb.lineReady = false)
    (entered : (keyboardHandler scancode
      (Runs.run (Machine.apply maxLen) (.step :: typing) (Machine.start kb)).kb).lineReady = true)
    (quiet : Runs.Admissible KeepsLine (Machine.apply maxLen) after
      (Runs.run (Machine.apply maxLen) (.step :: typing ++ [.irq scancode]) (Machine.start kb)))
    (returned : (Runs.run (Machine.apply maxLen) (.step :: typing ++ .irq scancode :: after)
      (Machine.start kb)).pc = .done) :
    (Runs.run (Machine.apply maxLen) (.step :: typing ++ .irq scancode :: after) (Machine.start kb)).buffer =
      (Runs.run (Machine.apply maxLen) (.step :: typing) (Machine.start kb)).kb.line.take (maxLen - 1) ++ [0] := by
  have waiting : Waiting (Runs.run (Machine.apply maxLen) (.step :: typing) (Machine.start kb)) := by
    rw [Runs.run_cons] at idle ⊢
    exact (Waiting.reset positive kb).1.run idle
  -- the first Enter starts the delivery of the line typed so far
  have delivering : Delivering maxLen (Runs.run (Machine.apply maxLen) (.step :: typing) (Machine.start kb)).kb.line
      ((Runs.run (Machine.apply maxLen) (.step :: typing) (Machine.start kb)).apply maxLen (.irq scancode)) := by
    rcases waiting.irq scancode with stillWaiting | delivering
    · have cleared : (keyboardHandler scancode
          (Runs.run (Machine.apply maxLen) (.step :: typing) (Machine.start kb)).kb).lineReady = false :=
        stillWaiting.idle
      rw [entered] at cleared
      exact Bool.noConfusion cleared
    · exact delivering
  have entry : Runs.run (Machine.apply maxLen) (.step :: typing ++ [.irq scancode]) (Machine.start kb) =
      (Runs.run (Machine.apply maxLen) (.step :: typing) (Machine.start kb)).apply maxLen (.irq scancode) := by
    rw [Runs.run_append]
    rfl
  have whole : Runs.run (Machine.apply maxLen) (.step :: typing ++ .irq scancode :: after) (Machine.start kb) =
      Runs.run (Machine.apply maxLen) after
        ((Runs.run (Machine.apply maxLen) (.step :: typing) (Machine.start kb)).apply maxLen (.irq scancode)) := by
    rw [Runs.run_append]
    rfl
  rw [entry] at quiet
  rw [whole] at returned ⊢
  have copied := (delivering.run quiet).copied
  rw [returned] at copied
  exact copied.done_buffer

/-- `a` typed and Enter pressed: the three reader steps after it copy `a` and its NUL. -/
theorem keyboardGetLine_copies_entered_a :
    (Runs.run (Machine.apply 256) [.step, .irq 0x1E, .irq 0x1C, .step, .step, .step]
        (Machine.start Keyboard.boot)).buffer =
      (Runs.run (Machine.apply 256) [.step, .irq 0x1E] (Machine.start Keyboard.boot)).kb.line.take (256 - 1) ++ [0] := by
  -- no line before Enter, Enter sets `line_ready`, and the third step returns
  have run : (Runs.run (Machine.apply 256) [.step, .irq 0x1E] (Machine.start Keyboard.boot)).kb.lineReady = false ∧
      (keyboardHandler 0x1C (Runs.run (Machine.apply 256) [.step, .irq 0x1E]
        (Machine.start Keyboard.boot)).kb).lineReady = true ∧
      (Runs.run (Machine.apply 256) [.step, .irq 0x1E, .irq 0x1C, .step, .step, .step]
        (Machine.start Keyboard.boot)).pc = .done := by
    set_option maxRecDepth 20000 in decide
  exact keyboardGetLine_copies_entered_line (by decide) Keyboard.boot [.irq 0x1E] 0x1C [.step, .step, .step]
    run.1 run.2.1 ⟨trivial, trivial, trivial, trivial⟩ run.2.2

/-- Enter does not stop the handler. From boot, `keyboard_get_line(buf, 256)` resets, `a` is
typed and Enter pressed, so the line held at Enter is `a`; then `b` is typed before the wait
loop next tests `line_ready`, and the copy loop, which reads `input_buffer_pos` afresh, copies
`ab`. A backspace in the same place makes it copy the empty line. -/
theorem get_line_copies_key_after_enter :
    (Runs.run (Machine.apply 256) [.step, .irq 0x1E, .irq 0x1C] (Machine.start Keyboard.boot)).kb.line = cstr "a" ∧
    (Runs.run (Machine.apply 256) [.step, .irq 0x1E, .irq 0x1C] (Machine.start Keyboard.boot)).kb.lineReady = true ∧
    (Runs.run (Machine.apply 256) [.step, .irq 0x1E, .irq 0x1C, .irq 0x30, .step, .step, .step, .step]
      (Machine.start Keyboard.boot)).pc = .done ∧
    (Runs.run (Machine.apply 256) [.step, .irq 0x1E, .irq 0x1C, .irq 0x30, .step, .step, .step, .step]
      (Machine.start Keyboard.boot)).buffer = cstr "ab" ++ [0] ∧
    (Runs.run (Machine.apply 256) [.step, .irq 0x1E, .irq 0x1C, .irq 0x0E, .step, .step]
      (Machine.start Keyboard.boot)).pc = .done ∧
    (Runs.run (Machine.apply 256) [.step, .irq 0x1E, .irq 0x1C, .irq 0x0E, .step, .step]
      (Machine.start Keyboard.boot)).buffer = [0] := by
  refine ⟨by decide +kernel, by decide +kernel, by decide +kernel, by decide +kernel, by decide +kernel,
    by decide +kernel⟩

end OpenOS.Drivers
