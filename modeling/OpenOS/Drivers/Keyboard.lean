import Mathlib
import OpenOS.Lib.Ring

/-! The keyboard interrupt handler of `drivers/keyboard.c`. It reads a scan code of set 1,
tracks the shift and caps lock state, and edits the line being typed in `input_buffer` up
to `input_buffer_pos`; Enter stores a NUL there and sets `line_ready`. The terminal echo and
the EOI to the PIC are not modelled.

The buffer and its position stand for a line, the window of `Ring.contents` from slot 0: the
handler edits that line as a line editor does (`keyboardHandler_line`), and the position never
leaves the buffer (`keyboardHandler_bounded`). -/
namespace OpenOS.Drivers

/-- `INPUT_BUFFER_SIZE`. -/
def inputBufferSize : Nat := 256

/-- `scancode_to_ascii`: the US QWERTY table of scan code set 1, its initializer entry by
entry; the remaining entries of the 128 are 0, as `List.getD` reads them. -/
def scancodeToAscii : List UInt8 := List.map Char.toUInt8
  ['\x00', '\x1b', '1', '2', '3', '4', '5', '6', '7', '8', '9', '0', '-', '=', '\x08',
   '\t', 'q', 'w', 'e', 'r', 't', 'y', 'u', 'i', 'o', 'p', '[', ']', '\n',
   '\x00',
   'a', 's', 'd', 'f', 'g', 'h', 'j', 'k', 'l', ';', '\x27', '\x60',
   '\x00',
   '\\', 'z', 'x', 'c', 'v', 'b', 'n', 'm', ',', '.', '/',
   '\x00', '*', '\x00', ' ', '\x00',
   '\x00', '\x00', '\x00', '\x00', '\x00', '\x00', '\x00', '\x00', '\x00', '\x00',
   '\x00', '\x00', '\x00', '\x00', '\x00', '-', '\x00', '\x00', '\x00', '+',
   '\x00', '\x00', '\x00', '\x00', '\x00', '\x00', '\x00', '\x00', '\x00', '\x00', '\x00']

/-- `scancode_to_ascii_shift`: the same table with shift held. -/
def scancodeToAsciiShift : List UInt8 := List.map Char.toUInt8
  ['\x00', '\x1b', '!', '@', '#', '$', '%', '^', '&', '*', '(', ')', '_', '+', '\x08',
   '\t', 'Q', 'W', 'E', 'R', 'T', 'Y', 'U', 'I', 'O', 'P', '\x7b', '\x7d', '\n',
   '\x00',
   'A', 'S', 'D', 'F', 'G', 'H', 'J', 'K', 'L', ':', '"', '~',
   '\x00',
   '|', 'Z', 'X', 'C', 'V', 'B', 'N', 'M', '<', '>', '?',
   '\x00', '*', '\x00', ' ', '\x00',
   '\x00', '\x00', '\x00', '\x00', '\x00', '\x00', '\x00', '\x00', '\x00', '\x00',
   '\x00', '\x00', '\x00', '\x00', '\x00', '-', '\x00', '\x00', '\x00', '+',
   '\x00', '\x00', '\x00', '\x00', '\x00', '\x00', '\x00', '\x00', '\x00', '\x00', '\x00']

-- the initializers have 90 entries; Enter and backspace sit where set 1 puts them
example : scancodeToAscii.length = 90 ∧ scancodeToAsciiShift.length = 90 ∧
    scancodeToAscii.getD 0x1C 0 = 10 ∧ scancodeToAsciiShift.getD 0x0E 0 = 8 := by decide

/-- The driver's state: `shift_pressed` and `caps_lock`, which only ever hold 0 or 1, and the
shared line buffer `input_buffer`, `input_buffer_pos` and `line_ready`. -/
structure Keyboard where
  shiftPressed : Bool
  capsLock : Bool
  inputBuffer : Nat → UInt8
  inputBufferPos : Nat
  lineReady : Bool

/-- The static state at boot: everything 0. -/
def Keyboard.boot : Keyboard := ⟨false, false, fun _ => 0, 0, false⟩

/-- The character the handler looks up for a make code: the table of the shift state, then
caps lock raises a lowercase letter while shift is up. -/
def Keyboard.ascii (kb : Keyboard) (scancode : UInt8) : UInt8 :=
  let ascii := if kb.shiftPressed then scancodeToAsciiShift.getD scancode.toNat 0
    else scancodeToAscii.getD scancode.toNat 0
  if kb.capsLock && !kb.shiftPressed then
    if 'a'.toUInt8 ≤ ascii ∧ ascii ≤ 'z'.toUInt8 then ascii - 32 else ascii
  else ascii

/-- The handler's special keys: backspace moves the position back, Enter stores the NUL at the
position and sets `line_ready`, any other non-zero character is stored while the buffer has
room for it and a NUL. -/
def Keyboard.handleKey (kb : Keyboard) (ascii : UInt8) : Keyboard :=
  if ascii = '\x08'.toUInt8 then
    if kb.inputBufferPos > 0 then { kb with inputBufferPos := kb.inputBufferPos - 1 } else kb
  else if ascii = '\n'.toUInt8 then
    { kb with inputBuffer := Function.update kb.inputBuffer kb.inputBufferPos 0, lineReady := true }
  else if ascii ≠ 0 then
    if kb.inputBufferPos < inputBufferSize - 1 then
      { kb with
        inputBuffer := Function.update kb.inputBuffer kb.inputBufferPos ascii,
        inputBufferPos := kb.inputBufferPos + 1 }
    else kb
  else kb

/-- `keyboard_handler` with `scancode` at `KEYBOARD_DATA_PORT`. -/
def keyboardHandler (scancode : UInt8) (kb : Keyboard) : Keyboard :=
  if scancode &&& 0x80 ≠ 0 then
    -- a break code: only the release of a shift key changes anything
    if scancode &&& 0x7F = 0x2A ∨ scancode &&& 0x7F = 0x36 then { kb with shiftPressed := false }
    else kb
  else if scancode = 0x2A ∨ scancode = 0x36 then { kb with shiftPressed := true }
  else if scancode = 0x3A then { kb with capsLock := !kb.capsLock }
  else if 128 ≤ scancode then kb
  else kb.handleKey (kb.ascii scancode)

/-- The line the buffer holds: `input_buffer[0 .. input_buffer_pos)`. -/
def Keyboard.line (kb : Keyboard) : List UInt8 :=
  Ring.contents inputBufferSize kb.inputBuffer 0 kb.inputBufferPos

@[simp] theorem Keyboard.length_line (kb : Keyboard) : kb.line.length = kb.inputBufferPos :=
  Ring.length_contents

/-- What a character does to the line being typed, read as a line editor: backspace removes
the last character if there is one, a printable character is appended while fewer than
`INPUT_BUFFER_SIZE - 1` are held, and Enter and NUL leave the line as it is. -/
def editLine (ascii : UInt8) (line : List UInt8) : List UInt8 :=
  if ascii = '\x08'.toUInt8 then line.dropLast
  else if ascii = '\n'.toUInt8 ∨ ascii = 0 then line
  else if line.length < inputBufferSize - 1 then line ++ [ascii] else line

/-- The scan codes that reach the handler's character branch: make codes other than the shift
keys and caps lock. -/
def RegularKey (scancode : UInt8) : Prop :=
  scancode &&& 0x80 = 0 ∧ scancode ≠ 0x2A ∧ scancode ≠ 0x36 ∧ scancode ≠ 0x3A

instance : DecidablePred RegularKey := fun _ => inferInstanceAs (Decidable (_ ∧ _))

theorem lt_of_and_eq_zero : ∀ scancode : UInt8, scancode &&& 0x80 = 0 → scancode < 128 := by
  decide +kernel

section Handler

variable {kb : Keyboard} {ascii scancode : UInt8}

theorem handleKey_bounded (bounded : kb.inputBufferPos < inputBufferSize) :
    (kb.handleKey ascii).inputBufferPos < inputBufferSize := by
  unfold Keyboard.handleKey
  split_ifs with backspace back enter char room
  · exact Nat.lt_of_le_of_lt (Nat.sub_le _ 1) bounded
  · exact bounded
  · exact bounded
  · -- a character is stored only while one more and the NUL still fit
    show kb.inputBufferPos + 1 < inputBufferSize
    omega
  · exact bounded
  · exact bounded

theorem handleKey_lineReady : (kb.handleKey ascii).lineReady = (kb.lineReady || ascii == '\n'.toUInt8) := by
  unfold Keyboard.handleKey
  by_cases enter : ascii = '\n'.toUInt8
  · subst enter
    rw [if_neg (by decide), if_pos rfl, beq_self_eq_true, Bool.or_true]
  · rw [beq_false_of_ne enter, Bool.or_false]
    split_ifs <;> rfl

theorem line_update_end (bounded : kb.inputBufferPos < inputBufferSize) (x : UInt8) :
    Ring.contents inputBufferSize (Function.update kb.inputBuffer kb.inputBufferPos x) 0 kb.inputBufferPos =
      kb.line := by
  have stored : Ring.contents inputBufferSize
      (Function.update kb.inputBuffer ((0 + kb.inputBufferPos) % inputBufferSize) x) 0 kb.inputBufferPos =
      kb.line := Ring.contents_update_end x bounded
  rwa [Nat.zero_add, Nat.mod_eq_of_lt bounded] at stored

theorem line_push (bounded : kb.inputBufferPos < inputBufferSize) (x : UInt8) :
    Ring.contents inputBufferSize (Function.update kb.inputBuffer kb.inputBufferPos x) 0 (kb.inputBufferPos + 1) =
      kb.line ++ [x] := by
  have pushed : Ring.contents inputBufferSize
      (Function.update kb.inputBuffer ((0 + kb.inputBufferPos) % inputBufferSize) x) 0 (kb.inputBufferPos + 1) =
      kb.line ++ [x] := Ring.contents_push x bounded
  rwa [Nat.zero_add, Nat.mod_eq_of_lt bounded] at pushed

/-- The special keys edit the line as `editLine` says. -/
theorem handleKey_line (bounded : kb.inputBufferPos < inputBufferSize) :
    (kb.handleKey ascii).line = editLine ascii kb.line := by
  unfold Keyboard.handleKey editLine
  by_cases backspace : ascii = '\x08'.toUInt8
  · -- moving the position back drops the last character, and at 0 there is none to drop
    rw [if_pos backspace, if_pos backspace]
    split_ifs with some
    · exact Ring.contents_pred
    · have zero : kb.inputBufferPos = 0 := by omega
      unfold Keyboard.line
      rw [zero]
      rfl
  rw [if_neg backspace, if_neg backspace]
  by_cases enter : ascii = '\n'.toUInt8
  · -- the NUL goes to the slot just past the line
    rw [if_pos enter, if_pos (.inl enter)]
    exact line_update_end bounded 0
  rw [if_neg enter]
  by_cases nul : ascii = 0
  · rw [if_neg (not_not.mpr nul), if_pos (.inr nul)]
  rw [if_pos nul, if_neg (show ¬(ascii = '\n'.toUInt8 ∨ ascii = 0) by tauto), Keyboard.length_line]
  split_ifs with room
  · -- a character is stored at the position, which is then advanced past it
    exact line_push bounded ascii
  · rfl

/-- Every scan code the handler does not treat as a character changes only the shift and caps
lock state; a regular key is the special-key handling of the character it looks up. -/
theorem keyboardHandler_cases (scancode : UInt8) (kb : Keyboard) :
    (RegularKey scancode ∧ keyboardHandler scancode kb = kb.handleKey (kb.ascii scancode)) ∨
    (¬ RegularKey scancode ∧ (keyboardHandler scancode kb).inputBuffer = kb.inputBuffer ∧
      (keyboardHandler scancode kb).inputBufferPos = kb.inputBufferPos ∧
      (keyboardHandler scancode kb).lineReady = kb.lineReady) := by
  unfold keyboardHandler
  by_cases released : scancode &&& 0x80 ≠ 0
  · rw [if_pos released]
    refine .inr ⟨fun regular => released regular.1, ?_⟩
    split_ifs <;> exact ⟨rfl, rfl, rfl⟩
  rw [if_neg released]
  have make : scancode &&& 0x80 = 0 := not_not.mp released
  by_cases shift : scancode = 0x2A ∨ scancode = 0x36
  · rw [if_pos shift]
    exact .inr ⟨fun regular => shift.elim regular.2.1 regular.2.2.1, rfl, rfl, rfl⟩
  rw [if_neg shift]
  by_cases caps : scancode = 0x3A
  · rw [if_pos caps]
    exact .inr ⟨fun regular => regular.2.2.2 caps, rfl, rfl, rfl⟩
  -- the range check passes, as bit 7 is clear
  rw [if_neg caps, if_neg (UInt8.not_le.mpr (lt_of_and_eq_zero scancode make))]
  exact .inl ⟨⟨make, fun h => shift (.inl h), fun h => shift (.inr h), caps⟩, rfl⟩

theorem keyboardHandler_bounded (bounded : kb.inputBufferPos < inputBufferSize) :
    (keyboardHandler scancode kb).inputBufferPos < inputBufferSize := by
  rcases keyboardHandler_cases scancode kb with ⟨-, handled⟩ | ⟨-, -, pos, -⟩
  · rw [handled]
    exact handleKey_bounded bounded
  · rwa [pos]

theorem keyboardHandler_line (bounded : kb.inputBufferPos < inputBufferSize) :
    (keyboardHandler scancode kb).line =
      if RegularKey scancode then editLine (kb.ascii scancode) kb.line else kb.line := by
  rcases keyboardHandler_cases scancode kb with ⟨regular, handled⟩ | ⟨other, buffer, pos, -⟩
  · rw [if_pos regular, handled]
    exact handleKey_line bounded
  · rw [if_neg other]
    unfold Keyboard.line
    rw [buffer, pos]

theorem keyboardHandler_lineReady :
    (keyboardHandler scancode kb).lineReady =
      (kb.lineReady || decide (RegularKey scancode) && kb.ascii scancode == '\n'.toUInt8) := by
  rcases keyboardHandler_cases scancode kb with ⟨regular, handled⟩ | ⟨other, -, -, ready⟩
  · rw [handled, handleKey_lineReady, decide_eq_true regular, Bool.true_and]
  · rw [ready, decide_eq_false other, Bool.false_and, Bool.or_false]

end Handler

end OpenOS.Drivers
