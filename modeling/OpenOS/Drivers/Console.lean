import Mathlib
import OpenOS.Lib.Run
import OpenOS.Kernel.Strings

/-! The VGA text console of `drivers/console.c`. The buffer at `0xB8000` is a function from
cell index to entry, so that a store to any index can be written down; the cursor is
`term_row` and `term_col`. Every call keeps the cursor on the screen, and no call changes a
cell past the last one of the screen. The mirror of each character on the serial port is
output the model does not keep. -/
namespace OpenOS.Drivers

open OpenOS.Kernel

def vgaWidth : Nat := 80
def vgaHeight : Nat := 25

/-- The statics of the driver and the VGA buffer. -/
structure Console where
  vgaBuf : Nat → UInt16
  termRow : Nat
  termCol : Nat
  termColor : UInt8

/-- The statics at boot, over whatever the VGA buffer holds. -/
def Console.boot (vga : Nat → UInt16) : Console := ⟨vga, 0, 0, 0x0F⟩

/-- `vga_entry(c, color)`: the byte in the low half, the colour in the high half. -/
def vgaEntry (c color : UInt8) : UInt16 := c.toUInt16 ||| color.toUInt16 <<< 8

/-- `terminal_scroll`: every line moves up by one, and the last line is blanked. -/
def terminalScroll (s : Console) : Console :=
  let buf := (List.range (vgaHeight - 1)).foldl (fun buf y =>
    (List.range vgaWidth).foldl (fun buf x =>
      Function.update buf (y * vgaWidth + x) (buf ((y + 1) * vgaWidth + x))) buf) s.vgaBuf
  let buf := (List.range vgaWidth).foldl (fun buf x =>
    Function.update buf ((vgaHeight - 1) * vgaWidth + x) (vgaEntry ' '.toUInt8 s.termColor)) buf
  { s with vgaBuf := buf }

/-- `console_clear`: blank every cell and put the cursor home. -/
def consoleClear (s : Console) : Console :=
  let buf := (List.range vgaHeight).foldl (fun buf y =>
    (List.range vgaWidth).foldl (fun buf x =>
      Function.update buf (y * vgaWidth + x) (vgaEntry ' '.toUInt8 s.termColor)) buf) s.vgaBuf
  { s with vgaBuf := buf, termRow := 0, termCol := 0 }

/-- The store `vga_buf[term_row * VGA_WIDTH + term_col] = entry` at the cursor. -/
def storeAtCursor (entry : UInt16) (s : Console) : Console :=
  { s with vgaBuf := Function.update s.vgaBuf (s.termRow * vgaWidth + s.termCol) entry }

/-- The cursor move of `console_backspace`: one cell back, and to the end of the line above at
a line start. -/
def backspaceCursor (s : Console) : Console :=
  if s.termCol > 0 then { s with termCol := s.termCol - 1 }
  else if s.termRow > 0 then { s with termRow := s.termRow - 1, termCol := vgaWidth - 1 }
  else s

/-- `console_backspace`: move back, then blank the cell under the cursor. -/
def consoleBackspace (s : Console) : Console :=
  let s := backspaceCursor s
  storeAtCursor (vgaEntry ' '.toUInt8 s.termColor) s

/-- The new line of `console_put_char`, written twice in the source: column 0, the next row,
and a scroll when that row is off the screen. -/
def lineFeed (s : Console) : Console :=
  let s := { s with termCol := 0, termRow := s.termRow + 1 }
  if s.termRow ≥ vgaHeight then { terminalScroll s with termRow := vgaHeight - 1 } else s

/-- `console_put_char(c)`: a new line for `'\n'`; otherwise store the character at the
cursor and move on, to the next line after the last column. -/
def consolePutChar (c : UInt8) (s : Console) : Console :=
  if c = '\n'.toUInt8 then lineFeed s
  else
    let s := { storeAtCursor (vgaEntry c s.termColor) s with termCol := s.termCol + 1 }
    if s.termCol ≥ vgaWidth then lineFeed s else s

/-- `console_write(s)`: each character in turn. -/
def consoleWrite (str : CString) (s : Console) : Console := str.foldl (fun s c => consolePutChar c s) s

/-- `console_set_color(fg, bg)`. -/
def consoleSetColor (fg bg : UInt8) (s : Console) : Console := { s with termColor := fg ||| bg <<< 4 }

/-- The entry points that move the cursor or change the colour. -/
inductive ConsoleCall
  | putChar (c : UInt8)
  | backspace
  | clear
  | write (str : CString)
  | setColor (fg bg : UInt8)

def ConsoleCall.apply : ConsoleCall → Console → Console
  | .putChar c => consolePutChar c
  | .backspace => consoleBackspace
  | .clear => consoleClear
  | .write str => consoleWrite str
  | .setColor fg bg => consoleSetColor fg bg

/-! ### The buffer loops, cell by cell -/

theorem foldl_rows {σ : Type} (g : σ → Nat → σ) (w h : Nat) (s : σ) :
    (List.range h).foldl (fun s y => (List.range w).foldl (fun s x => g s (y * w + x)) s) s =
      (List.range (h * w)).foldl g s := by
  induction h with
  | zero => simp
  | succ h ih =>
    rw [List.range_succ, List.foldl_append, ih, Nat.add_one_mul, List.range_add, List.foldl_append,
      List.foldl_map]
    rfl

/-- Storing one value at each index of a list changes exactly the cells of the list. -/
theorem foldl_update_const {β γ : Type} (idx : β → Nat) (l : List β) (e : γ) (b : Nat → γ) (j : Nat) :
    l.foldl (fun buf x => Function.update buf (idx x) e) b j = if ∃ x ∈ l, idx x = j then e else b j := by
  induction l generalizing b with
  | nil => simp
  | cons x l ih =>
    rw [List.foldl_cons, ih]
    by_cases later : ∃ y ∈ l, idx y = j
    · rw [if_pos later, if_pos (by obtain ⟨y, mem, eq⟩ := later; exact ⟨y, List.mem_cons_of_mem x mem, eq⟩)]
    · rw [if_neg later]
      by_cases here : idx x = j
      · rw [here, Function.update_self, if_pos ⟨x, List.mem_cons_self, here⟩]
      · rw [Function.update_of_ne (Ne.symm here), if_neg]
        rintro ⟨y, mem, eq⟩
        rcases List.mem_cons.mp mem with rfl | mem
        · exact here eq
        · exact later ⟨y, mem, eq⟩

/-- Copying each cell from `w` cells further on, in increasing order, reads cells that are not
yet overwritten: the first `n` cells take the values from `w` further on. -/
theorem foldl_shift {γ : Type} (w n : Nat) (b : Nat → γ) (j : Nat) :
    (List.range n).foldl (fun buf i => Function.update buf i (buf (i + w))) b j =
      if j < n then b (j + w) else b j := by
  induction n generalizing j with
  | zero => simp
  | succ n ih =>
    have unwritten : (List.range n).foldl (fun buf i => Function.update buf i (buf (i + w))) b (n + w) =
        b (n + w) := by
      rw [ih, if_neg (by omega)]
    rw [List.range_succ, List.foldl_append, List.foldl_cons, List.foldl_nil, Function.update_apply,
      unwritten, ih]
    by_cases here : j = n
    · rw [if_pos here, if_pos (by omega), here]
    · rw [if_neg here]
      by_cases below : j < n
      · rw [if_pos below, if_pos (by omega)]
      · rw [if_neg below, if_neg (by omega)]

/-- After `terminal_scroll`, each cell of the first 24 lines holds the cell one line below,
the last line is blank, and nothing past the screen changes. Every cell it reads is on the
screen. -/
theorem terminalScroll_vgaBuf (s : Console) (j : Nat) :
    (terminalScroll s).vgaBuf j =
      if j < (vgaHeight - 1) * vgaWidth then s.vgaBuf (j + vgaWidth)
      else if j < vgaHeight * vgaWidth then vgaEntry ' '.toUInt8 s.termColor else s.vgaBuf j := by
  -- the source reads `(y + 1) * VGA_WIDTH + x`, the cell `VGA_WIDTH` after the one it writes
  have below : ∀ y x, (y + 1) * vgaWidth + x = y * vgaWidth + x + vgaWidth := fun y x => by ring
  have flat := foldl_rows (fun buf i => Function.update buf i (buf (i + vgaWidth))) vgaWidth (vgaHeight - 1)
    s.vgaBuf
  simp only [terminalScroll, below]
  rw [flat, foldl_update_const, foldl_shift]
  simp only [List.mem_range]
  -- the last line is the cells from `(VGA_HEIGHT - 1) * VGA_WIDTH` to the end of the screen
  by_cases shifted : j < (vgaHeight - 1) * vgaWidth
  · rw [if_neg (by rintro ⟨x, lt, eq⟩; simp only [vgaWidth, vgaHeight] at *; omega), if_pos shifted,
      if_pos shifted]
  · rw [if_neg shifted, if_neg shifted]
    by_cases last : j < vgaHeight * vgaWidth
    · rw [if_pos ⟨j - (vgaHeight - 1) * vgaWidth, by simp only [vgaWidth, vgaHeight] at *; omega,
        by simp only [vgaWidth, vgaHeight] at *; omega⟩, if_pos last]
    · rw [if_neg (by rintro ⟨x, lt, eq⟩; simp only [vgaWidth, vgaHeight] at *; omega), if_neg last]

theorem consoleClear_vgaBuf (s : Console) (j : Nat) :
    (consoleClear s).vgaBuf j = if j < vgaHeight * vgaWidth then vgaEntry ' '.toUInt8 s.termColor else s.vgaBuf j := by
  have flat := foldl_rows (fun buf i => Function.update buf i (vgaEntry ' '.toUInt8 s.termColor)) vgaWidth
    vgaHeight s.vgaBuf
  simp only [consoleClear]
  rw [flat, foldl_update_const (fun i => i)]
  simp only [List.mem_range, exists_eq_right]

/-! ### The cursor stays on the screen -/

@[simp] theorem terminalScroll_termRow (s : Console) : (terminalScroll s).termRow = s.termRow := rfl
@[simp] theorem terminalScroll_termCol (s : Console) : (terminalScroll s).termCol = s.termCol := rfl

/-- The cursor is on the screen. -/
structure OnScreen (s : Console) : Prop where
  row : s.termRow < vgaHeight
  col : s.termCol < vgaWidth

/-- `t` has the cells of `s` past the screen. -/
def SameOffScreen (s t : Console) : Prop := ∀ j, vgaHeight * vgaWidth ≤ j → t.vgaBuf j = s.vgaBuf j

theorem SameOffScreen.refl (s : Console) : SameOffScreen s s := fun _ _ => rfl

theorem SameOffScreen.trans {s t u : Console} (first : SameOffScreen s t) (second : SameOffScreen t u) :
    SameOffScreen s u := fun j past => (second j past).trans (first j past)

@[simp] theorem storeAtCursor_termRow (e : UInt16) (s : Console) : (storeAtCursor e s).termRow = s.termRow := rfl
@[simp] theorem storeAtCursor_termCol (e : UInt16) (s : Console) : (storeAtCursor e s).termCol = s.termCol := rfl

theorem sameOffScreen_storeAtCursor {s : Console} (on : OnScreen s) (e : UInt16) :
    SameOffScreen s (storeAtCursor e s) := by
  intro j past
  have cursor : s.termRow * vgaWidth + s.termCol < vgaHeight * vgaWidth := by
    have := on.row
    have := on.col
    simp only [vgaWidth, vgaHeight] at *
    omega
  exact Function.update_of_ne (by omega) _ _

theorem sameOffScreen_terminalScroll (s : Console) : SameOffScreen s (terminalScroll s) := by
  intro j past
  rw [terminalScroll_vgaBuf, if_neg (by simp only [vgaWidth, vgaHeight] at *; omega), if_neg (by omega)]

theorem lineFeed_onScreen (s : Console) :
    OnScreen (lineFeed s) ∧ SameOffScreen s (lineFeed s) := by
  unfold lineFeed
  dsimp only
  split
  · exact ⟨⟨by simp [vgaHeight], by simp [vgaWidth]⟩, sameOffScreen_terminalScroll _⟩
  · next fits => exact ⟨⟨by simp only at fits ⊢; omega, by simp [vgaWidth]⟩, SameOffScreen.refl s⟩

theorem consolePutChar_onScreen (c : UInt8) {s : Console} (on : OnScreen s) :
    OnScreen (consolePutChar c s) ∧ SameOffScreen s (consolePutChar c s) := by
  unfold consolePutChar
  split
  · exact lineFeed_onScreen s
  · -- the character goes to the cursor, then the cursor moves on, to the next line at the end
    have stored := sameOffScreen_storeAtCursor on (vgaEntry c s.termColor)
    dsimp only
    split
    · obtain ⟨next, same⟩ := lineFeed_onScreen { storeAtCursor (vgaEntry c s.termColor) s with termCol := s.termCol + 1 }
      exact ⟨next, stored.trans same⟩
    · next fits => exact ⟨⟨on.row, by simp only at fits ⊢; omega⟩, stored⟩

theorem backspaceCursor_onScreen {s : Console} (on : OnScreen s) :
    OnScreen (backspaceCursor s) ∧ (backspaceCursor s).vgaBuf = s.vgaBuf := by
  have := on.row
  have := on.col
  unfold backspaceCursor
  split
  · exact ⟨⟨on.row, by simp only; omega⟩, rfl⟩
  · split
    · exact ⟨⟨by simp only; omega, by simp [vgaWidth]⟩, rfl⟩
    · exact ⟨on, rfl⟩

theorem consoleBackspace_onScreen {s : Console} (on : OnScreen s) :
    OnScreen (consoleBackspace s) ∧ SameOffScreen s (consoleBackspace s) := by
  obtain ⟨back, same⟩ := backspaceCursor_onScreen on
  have stored := sameOffScreen_storeAtCursor back (vgaEntry ' '.toUInt8 (backspaceCursor s).termColor)
  refine ⟨⟨back.row, back.col⟩, fun j past => ?_⟩
  rw [consoleBackspace, stored j past, same]

theorem consoleClear_onScreen (s : Console) : OnScreen (consoleClear s) ∧ SameOffScreen s (consoleClear s) := by
  refine ⟨⟨by simp [consoleClear, vgaHeight], by simp [consoleClear, vgaWidth]⟩, fun j past => ?_⟩
  rw [consoleClear_vgaBuf, if_neg (by omega)]

theorem consoleWrite_onScreen (str : CString) {s : Console} (on : OnScreen s) :
    OnScreen (consoleWrite str s) ∧ SameOffScreen s (consoleWrite str s) :=
  Runs.foldl_invariant (fun t => OnScreen t ∧ SameOffScreen s t)
    (fun t c _ held => by
      obtain ⟨next, same⟩ := consolePutChar_onScreen c held.1
      exact ⟨next, held.2.trans same⟩)
    ⟨on, SameOffScreen.refl s⟩

theorem ConsoleCall.apply_onScreen (call : ConsoleCall) {s : Console} (on : OnScreen s) :
    OnScreen (call.apply s) ∧ SameOffScreen s (call.apply s) := by
  cases call with
  | putChar c => exact consolePutChar_onScreen c on
  | backspace => exact consoleBackspace_onScreen on
  | clear => exact consoleClear_onScreen s
  | write str => exact consoleWrite_onScreen str on
  | setColor fg bg => exact ⟨⟨on.row, on.col⟩, fun _ _ => rfl⟩

/-- For every sequence of calls from a cursor on the screen, the cursor is on the screen after
each call and no cell past the screen is ever stored to; and `terminal_scroll` reads only
cells of the screen: two buffers that agree on the screen scroll to buffers that agree on it. -/
theorem console_cursor_on_screen (calls : List ConsoleCall) (s : Console) (start : OnScreen s) :
    (OnScreen (Runs.run ConsoleCall.apply calls s) ∧ SameOffScreen s (Runs.run ConsoleCall.apply calls s)) ∧
      ∀ t u : Console, t.termColor = u.termColor → (∀ j < vgaHeight * vgaWidth, t.vgaBuf j = u.vgaBuf j) →
        ∀ j < vgaHeight * vgaWidth, (terminalScroll t).vgaBuf j = (terminalScroll u).vgaBuf j := by
  refine ⟨?_, fun t u color agree j onScreen => ?_⟩
  · refine Runs.run_invariant_all (fun t => OnScreen t ∧ SameOffScreen s t) ?_ ⟨start, SameOffScreen.refl s⟩
    intro t call held
    obtain ⟨next, same⟩ := call.apply_onScreen held.1
    exact ⟨next, held.2.trans same⟩
  · rw [terminalScroll_vgaBuf, terminalScroll_vgaBuf, color]
    split_ifs with shifted
    · exact agree _ (by simp only [vgaWidth, vgaHeight] at *; omega)
    · rfl

theorem console_boot_on_screen :
    OnScreen (Console.boot fun _ => 0) ∧
      ((OnScreen (Runs.run ConsoleCall.apply [.write (cstr "ok\n"), .backspace, .clear] (Console.boot fun _ => 0)) ∧
        SameOffScreen (Console.boot fun _ => 0)
          (Runs.run ConsoleCall.apply [.write (cstr "ok\n"), .backspace, .clear] (Console.boot fun _ => 0))) ∧
      ∀ t u : Console, t.termColor = u.termColor → (∀ j < vgaHeight * vgaWidth, t.vgaBuf j = u.vgaBuf j) →
        ∀ j < vgaHeight * vgaWidth, (terminalScroll t).vgaBuf j = (terminalScroll u).vgaBuf j) :=
  ⟨⟨by decide, by decide⟩, console_cursor_on_screen _ _ ⟨by decide, by decide⟩⟩

end OpenOS.Drivers
