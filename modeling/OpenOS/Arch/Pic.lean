import Mathlib
import OpenOS.Lib.Overwrite
import OpenOS.Lib.Run
import OpenOS.Arch.Descriptors

/-! The two 8259A interrupt controllers behind `arch/x86/pic.c`. The C code only writes and
reads I/O ports; what a write does is the controller's. A command byte with bit 4 set starts the
initialization sequence and clears the mask; the data bytes that follow are the vector base, the
cascade wiring when there are two controllers, and the mode when the command asked for it; every
later data byte is the interrupt mask, which a read of the data port returns. The controllers
are that state machine here, and `pic_init`, `pic_mask_irq`, `pic_unmask_irq`, `pic_send_eoi`
and the mask update of `keyboard_init` are the port accesses the source makes. The in-service
register an end of interrupt clears is left out: no code reads it.

`pic_mask_irq` and `pic_unmask_irq` shift in `int`; for an IRQ of 40 or more the shift is past
the width of `int`, undefined in C, and the results below assume IRQs below 40. -/
namespace OpenOS.Arch

open Overwrite

def pic1Cmd : UInt16 := 0x20
def pic1Data : UInt16 := 0x21
def pic2Cmd : UInt16 := 0xA0
def pic2Data : UInt16 := 0xA1

def picEoi : UInt8 := 0x20
def icw1Icw4 : UInt8 := 0x01
def icw1Init : UInt8 := 0x10
def icw4Mode8086 : UInt8 := 0x01

/-- The data byte a controller expects next. -/
inductive PicStage
  | ready
  | icw2
  | icw3
  | icw4
  deriving DecidableEq, Repr

/-- One 8259A, with the registers `pic_init` programs. -/
structure Pic where
  stage : PicStage
  needsIcw4 : Bool
  single : Bool
  vectorBase : UInt8
  cascade : UInt8
  mode : UInt8
  mask : UInt8
  deriving DecidableEq, Repr

/-- A byte on the command port: with bit 4 set it is ICW1, otherwise an operation command such
as the end of interrupt, which changes none of the registers kept here. -/
def Pic.command (value : UInt8) (pic : Pic) : Pic :=
  if value &&& 0x10 != 0 then
    { pic with stage := .icw2, needsIcw4 := value &&& 0x01 != 0, single := value &&& 0x02 != 0, mask := 0 }
  else pic

/-- A byte on the data port. -/
def Pic.data (value : UInt8) (pic : Pic) : Pic :=
  match pic.stage with
  | .icw2 =>
    { pic with vectorBase := value &&& 0xF8,
               stage := if pic.single then (if pic.needsIcw4 then .icw4 else .ready) else .icw3 }
  | .icw3 => { pic with cascade := value, stage := if pic.needsIcw4 then .icw4 else .ready }
  | .icw4 => { pic with mode := value, stage := .ready }
  | .ready => { pic with mask := value }

/-- The master and the slave controller. -/
structure Pics where
  master : Pic
  slave : Pic
  deriving DecidableEq, Repr

/-- `outb(port, value)`. A port of neither controller (the POST port `io_wait` writes, the
timer, the keyboard) leaves them as they are. -/
def outb (port : UInt16) (value : UInt8) (p : Pics) : Pics :=
  if port = pic1Cmd then { p with master := p.master.command value }
  else if port = pic1Data then { p with master := p.master.data value }
  else if port = pic2Cmd then { p with slave := p.slave.command value }
  else if port = pic2Data then { p with slave := p.slave.data value }
  else p

/-- `inb(port)` of a data port: the mask. No code reads the other ports of the controllers. -/
def inb (port : UInt16) (p : Pics) : UInt8 :=
  if port = pic1Data then p.master.mask else if port = pic2Data then p.slave.mask else 0

/-- `io_wait`. -/
def ioWait (p : Pics) : Pics := outb 0x80 0 p

/-- `pic_init`: ICW1 to both, the vector bases `0x20` and `0x28`, the slave on IRQ 2, 8086
mode, and every line masked. -/
def picInit (p : Pics) : Pics :=
  p |> outb pic1Cmd (icw1Init ||| icw1Icw4) |> ioWait |> outb pic2Cmd (icw1Init ||| icw1Icw4) |> ioWait
    |> outb pic1Data 0x20 |> ioWait |> outb pic2Data 0x28 |> ioWait
    |> outb pic1Data 0x04 |> ioWait |> outb pic2Data 0x02 |> ioWait
    |> outb pic1Data icw4Mode8086 |> ioWait |> outb pic2Data icw4Mode8086 |> ioWait
    |> outb pic1Data 0xFF |> outb pic2Data 0xFF

/-- `pic_send_eoi(irq)`. -/
def picSendEoi (irq : UInt8) (p : Pics) : Pics :=
  let p := if irq ≥ 8 then outb pic2Cmd picEoi p else p
  outb pic1Cmd picEoi p

/-- The data port and the line of an IRQ, as `pic_mask_irq` and `pic_unmask_irq` choose them. -/
def irqPort (irq : UInt8) : UInt16 := if irq < 8 then pic1Data else pic2Data
def irqLine (irq : UInt8) : UInt8 := if irq < 8 then irq else irq - 8

/-- `pic_unmask_irq(irq)`: `1 << irq` and `~` are taken in the 32 bits of `int`, and the result
is cut back to the byte. -/
def picUnmaskIrq (irq : UInt8) (p : Pics) : Pics :=
  outb (irqPort irq) ((inb (irqPort irq) p).toUInt32 &&& ~~~((1 : UInt32) <<< (irqLine irq).toUInt32)).toUInt8 p

/-- `pic_mask_irq(irq)`. -/
def picMaskIrq (irq : UInt8) (p : Pics) : Pics :=
  outb (irqPort irq) ((inb (irqPort irq) p).toUInt32 ||| ((1 : UInt32) <<< (irqLine irq).toUInt32)).toUInt8 p

/-- The mask update of `keyboard_init`. -/
def keyboardInit (p : Pics) : Pics :=
  outb pic1Data ((inb pic1Data p).toUInt32 &&& ~~~((1 : UInt32) <<< 1)).toUInt8 p

/-- The calls of `pic.c` made after `pic_init`. -/
inductive PicCall
  | maskIrq (irq : UInt8)
  | unmaskIrq (irq : UInt8)
  | sendEoi (irq : UInt8)
  deriving DecidableEq, Repr

def PicCall.apply : PicCall → Pics → Pics
  | .maskIrq irq, p => picMaskIrq irq p
  | .unmaskIrq irq, p => picUnmaskIrq irq p
  | .sendEoi irq, p => picSendEoi irq p

def PicCall.irq : PicCall → UInt8
  | .maskIrq irq | .unmaskIrq irq | .sendEoi irq => irq

/-- What a call sets the mask of its line to: masked for `pic_mask_irq`, unmasked for
`pic_unmask_irq`. An IRQ of 16 or more names no line. -/
def PicCall.writes : PicCall → List (Nat × Bool)
  | .maskIrq irq => if irq.toNat < 16 then [(irq.toNat, true)] else []
  | .unmaskIrq irq => if irq.toNat < 16 then [(irq.toNat, false)] else []
  | .sendEoi _ => []

/-- Whether line `line` of the sixteen is masked. -/
def Pics.masked (p : Pics) (line : Nat) : Bool :=
  if line < 8 then p.master.mask.toNat.testBit line else p.slave.mask.toNat.testBit (line - 8)

/-- The vector a controller raises for a line in 8086 mode: its base plus the line. -/
def Pics.vector (p : Pics) (line : Nat) : UInt8 :=
  if line < 8 then p.master.vectorBase + line.toUInt8 else p.slave.vectorBase + (line - 8).toUInt8

/-- Both controllers as `pic_init` leaves them apart from the masks: vectors from `0x20` and
`0x28`, the slave on the master's IRQ 2, 8086 mode, and masks written by every data byte. -/
structure Programmed (p : Pics) : Prop where
  master_ready : p.master.stage = .ready
  slave_ready : p.slave.stage = .ready
  master_base : p.master.vectorBase = 0x20
  slave_base : p.slave.vectorBase = 0x28
  master_cascade : p.master.cascade = 0x04
  slave_cascade : p.slave.cascade = 0x02
  master_mode : p.master.mode = icw4Mode8086
  slave_mode : p.slave.mode = icw4Mode8086

/-! ### The initialization sequence -/

theorem outb_other {port : UInt16} (value : UInt8) (p : Pics)
    (other : port ≠ pic1Cmd ∧ port ≠ pic1Data ∧ port ≠ pic2Cmd ∧ port ≠ pic2Data) : outb port value p = p := by
  rw [outb, if_neg other.1, if_neg other.2.1, if_neg other.2.2.1, if_neg other.2.2.2]

@[simp] theorem ioWait_eq (p : Pics) : ioWait p = p := outb_other 0 p (by decide)

/-- The sequence of `pic_init` programs both controllers from any state they are in: ICW1
restarts the sequence wherever it stood. -/
theorem picInit_eq (p : Pics) :
    picInit p =
      { master := { p.master with
          stage := .ready
          needsIcw4 := true
          single := false
          vectorBase := 0x20
          cascade := 0x04
          mode := icw4Mode8086
          mask := 0xFF }
        slave := { p.slave with
          stage := .ready
          needsIcw4 := true
          single := false
          vectorBase := 0x28
          cascade := 0x02
          mode := icw4Mode8086
          mask := 0xFF } } := by
  simp only [picInit, ioWait_eq]
  rfl

theorem programmed_picInit (p : Pics) : Programmed (picInit p) := by
  rw [picInit_eq]
  exact ⟨rfl, rfl, rfl, rfl, rfl, rfl, rfl, rfl⟩

theorem picInit_masked (p : Pics) (line : Nat) (inside : line < 16) : (picInit p).masked line = true := by
  rw [picInit_eq, Pics.masked]
  -- both masks are 0xFF, all eight bits set
  split
  · exact (Nat.testBit_two_pow_sub_one 8 line).trans (decide_eq_true (by assumption))
  · exact (Nat.testBit_two_pow_sub_one 8 (line - 8)).trans (decide_eq_true (by omega))

/-! ### Mask updates -/

theorem testBit_clear (v l : UInt8) {j : Nat} (byte : j < 8) (inside : l.toNat < 32) :
    ((v.toUInt32 &&& ~~~((1 : UInt32) <<< l.toUInt32)).toUInt8).toNat.testBit j =
      if j = l.toNat then false else v.toNat.testBit j := by
  rw [← UInt8.toNat_toBitVec, BitVec.testBit_toNat, ← UInt8.toNat_toBitVec (x := v), BitVec.testBit_toNat]
  simp [byte, Nat.mod_eq_of_lt inside]
  by_cases same : j = l.toNat
  · simp [same]
  · simp [same]
    omega

theorem testBit_set (v l : UInt8) {j : Nat} (byte : j < 8) (inside : l.toNat < 32) :
    ((v.toUInt32 ||| ((1 : UInt32) <<< l.toUInt32)).toUInt8).toNat.testBit j =
      if j = l.toNat then true else v.toNat.testBit j := by
  rw [← UInt8.toNat_toBitVec, BitVec.testBit_toNat, ← UInt8.toNat_toBitVec (x := v), BitVec.testBit_toNat]
  simp [byte, Nat.mod_eq_of_lt inside]
  by_cases same : j = l.toNat
  · simp [same]
  · simp [same]
    omega

theorem masked_master (p : Pics) (m : UInt8) (line : Nat) :
    ({ p with master := { p.master with mask := m } } : Pics).masked line =
      if line < 8 then m.toNat.testBit line else p.masked line := by
  unfold Pics.masked
  split <;> rfl

theorem masked_slave (p : Pics) (m : UInt8) (line : Nat) :
    ({ p with slave := { p.slave with mask := m } } : Pics).masked line =
      if line < 8 then p.masked line else m.toNat.testBit (line - 8) := by
  unfold Pics.masked
  split <;> rfl

theorem outb_eoi_master (p : Pics) : outb pic1Cmd picEoi p = p := by
  rw [outb, if_pos rfl, Pic.command, if_neg (by decide)]

theorem outb_eoi_slave (p : Pics) : outb pic2Cmd picEoi p = p := by
  rw [outb, if_neg (by decide), if_neg (by decide), if_pos rfl, Pic.command, if_neg (by decide)]

theorem picSendEoi_eq (irq : UInt8) (p : Pics) : picSendEoi irq p = p := by
  unfold picSendEoi
  split
  · rw [outb_eoi_slave, outb_eoi_master]
  · rw [outb_eoi_master]

section Masks

variable {p : Pics}

theorem Pic.data_ready {pic : Pic} (ready : pic.stage = .ready) (value : UInt8) :
    pic.data value = { pic with mask := value } := by
  unfold Pic.data
  split <;> simp_all

theorem Programmed.outb_master (programmed : Programmed p) (value : UInt8) :
    outb pic1Data value p = { p with master := { p.master with mask := value } } := by
  rw [outb, if_neg (by decide), if_pos rfl, Pic.data_ready programmed.master_ready]

theorem Programmed.outb_slave (programmed : Programmed p) (value : UInt8) :
    outb pic2Data value p = { p with slave := { p.slave with mask := value } } := by
  rw [outb, if_neg (by decide), if_neg (by decide), if_neg (by decide), if_pos rfl,
    Pic.data_ready programmed.slave_ready]

theorem Programmed.outb_irqPort (programmed : Programmed p) (irq value : UInt8) :
    Programmed (outb (irqPort irq) value p) := by
  unfold irqPort
  split
  · rw [programmed.outb_master]
    exact ⟨programmed.1, programmed.2, programmed.3, programmed.4, programmed.5, programmed.6,
      programmed.7, programmed.8⟩
  · rw [programmed.outb_slave]
    exact ⟨programmed.1, programmed.2, programmed.3, programmed.4, programmed.5, programmed.6,
      programmed.7, programmed.8⟩

/-- A mask update through `irqPort` and `irqLine` with a byte operation that sets bit `l` of
the byte to `bit` and keeps the others: line `irq` reads `bit` afterwards, the other lines what
they read before. An IRQ of 16 to 39 names a bit past the slave's byte and changes nothing. -/
theorem Programmed.masked_update (programmed : Programmed p) (op : UInt8 → UInt8 → UInt8) (bit : Bool)
    (spec : ∀ v l : UInt8, ∀ j < 8, l.toNat < 32 → (op v l).toNat.testBit j = if j = l.toNat then bit else v.toNat.testBit j)
    {irq : UInt8} (defined : irq.toNat < 40) {line : Nat} (inside : line < 16) :
    (outb (irqPort irq) (op (inb (irqPort irq) p) (irqLine irq)) p).masked line =
      if line = irq.toNat then bit else p.masked line := by
  by_cases low : irq < 8
  · have low' : irq.toNat < 8 := UInt8.lt_iff_toNat_lt.mp low
    rw [irqPort, irqLine, if_pos low, if_pos low, programmed.outb_master, masked_master]
    split
    · next byte => rw [spec _ _ line byte (by omega), inb, if_pos rfl, Pics.masked, if_pos byte]
    · next above => rw [if_neg (by omega)]
  · have high : 8 ≤ irq.toNat := by
      have := mt UInt8.lt_iff_toNat_lt.mpr low
      simp only [show (8 : UInt8).toNat = 8 from rfl] at this
      omega
    have line_eq : (irq - 8).toNat = irq.toNat - 8 := UInt8.toNat_sub_of_le irq 8 (UInt8.le_iff_toNat_le.mpr high)
    rw [irqPort, irqLine, if_neg low, if_neg low, programmed.outb_slave, masked_slave]
    split
    · next byte => rw [if_neg (by omega)]
    · next above =>
      rw [inb, if_neg (by decide), if_pos rfl, spec _ _ (line - 8) (by omega) (by rw [line_eq]; omega),
        Pics.masked, if_neg above, line_eq]
      by_cases same : line = irq.toNat
      · rw [if_pos (by omega), if_pos same]
      · rw [if_neg (by omega), if_neg same]

/-- One call from a programmed state: the line a mask or unmask names reads what the call
wrote, every other line what it read. -/
theorem Programmed.masked_apply (programmed : Programmed p) (c : PicCall) (defined : c.irq.toNat < 40)
    {line : Nat} (inside : line < 16) :
    (c.apply p).masked line = (lastWrite c.writes line).getD (p.masked line) := by
  -- the write a call names, or none for an IRQ past the sixteen lines
  have named : ∀ (irq : UInt8) (bit : Bool), irq.toNat < 40 →
      (if line = irq.toNat then bit else p.masked line) =
        (lastWrite (if irq.toNat < 16 then [(irq.toNat, bit)] else []) line).getD (p.masked line) := by
    intro irq bit _
    by_cases lines : irq.toNat < 16
    · rw [if_pos lines, lastWrite_cons, lastWrite_nil, Option.none_or]
      by_cases same : line = irq.toNat
      · rw [if_pos same, if_pos same.symm]
        rfl
      · rw [if_neg same, if_neg (Ne.symm same)]
        rfl
    · rw [if_neg lines, if_neg (by omega)]
      rfl
  cases c with
  | maskIrq irq =>
    have known : irq.toNat < 40 := defined
    rw [PicCall.apply, picMaskIrq, PicCall.writes,
      programmed.masked_update (fun v l => (v.toUInt32 ||| ((1 : UInt32) <<< l.toUInt32)).toUInt8) true
        (fun v l j byte line => testBit_set v l byte line) known inside]
    exact named irq true known
  | unmaskIrq irq =>
    have known : irq.toNat < 40 := defined
    rw [PicCall.apply, picUnmaskIrq, PicCall.writes,
      programmed.masked_update (fun v l => (v.toUInt32 &&& ~~~((1 : UInt32) <<< l.toUInt32)).toUInt8) false
        (fun v l j byte line => testBit_clear v l byte line) known inside]
    exact named irq false known
  | sendEoi irq => rw [PicCall.apply, picSendEoi_eq]; rfl

theorem Programmed.apply (programmed : Programmed p) (c : PicCall) : Programmed (c.apply p) := by
  cases c with
  | maskIrq irq => exact programmed.outb_irqPort irq _
  | unmaskIrq irq => exact programmed.outb_irqPort irq _
  | sendEoi irq => rw [PicCall.apply, picSendEoi_eq]; exact programmed

theorem Programmed.vector (programmed : Programmed p) {line : Nat} (inside : line < 16) :
    p.vector line = 0x20 + line.toUInt8 := by
  unfold Pics.vector
  split
  · rw [programmed.master_base]
  · rw [programmed.slave_base]
    apply UInt8.toNat_inj.mp
    simp only [UInt8.toNat_add, Nat.toUInt8_eq, UInt8.toNat_ofNat', UInt8.toNat_ofNat]
    omega

end Masks

theorem masked_run (calls : List PicCall) (defined : ∀ c ∈ calls, c.irq.toNat < 40) {p : Pics}
    (programmed : Programmed p) {line : Nat} (inside : line < 16) :
    Programmed (Runs.run PicCall.apply calls p) ∧
      (Runs.run PicCall.apply calls p).masked line = (lastWrite (calls.flatMap PicCall.writes) line).getD (p.masked line) :=
  run_lastWrite PicCall.apply Pics.masked PicCall.writes Programmed (fun c => c.irq.toNat < 40)
    (fun c _ programmed _ => programmed.apply c) (fun c _ programmed defined => programmed.masked_apply c defined inside)
    calls p programmed defined

/-- From `pic_init`, over every run of `pic_mask_irq`, `pic_unmask_irq` and `pic_send_eoi` with
IRQs below 40, the controllers stay programmed, IRQ line `n` of the sixteen raises vector
`0x20 + n`, and it is masked exactly when the last mask or unmask call naming it was a mask, or
when none named it. -/
theorem pic_lines_follow_last_call (p : Pics) (calls : List PicCall) (defined : ∀ c ∈ calls, c.irq.toNat < 40)
    (line : Nat) (inside : line < 16) :
    Programmed (Runs.run PicCall.apply calls (picInit p)) ∧
      (Runs.run PicCall.apply calls (picInit p)).vector line = 0x20 + line.toUInt8 ∧
      (Runs.run PicCall.apply calls (picInit p)).masked line = (lastWrite (calls.flatMap PicCall.writes) line).getD true := by
  obtain ⟨programmed, masked⟩ := masked_run calls defined (programmed_picInit p) inside
  rw [picInit_masked p line inside] at masked
  exact ⟨programmed, programmed.vector inside, masked⟩

/-- The controllers as a PC firmware leaves them: vectors from 8 and from `0x70`, every line
open. -/
def biosPics : Pics := ⟨⟨.ready, false, true, 0x08, 0, 0, 0⟩, ⟨.ready, false, true, 0x70, 0, 0, 0⟩⟩

theorem pic_lines_follow_last_call_keyboard :
    (∀ c ∈ [PicCall.unmaskIrq 1, .sendEoi 1, .maskIrq 1], c.irq.toNat < 40) ∧ 1 < 16 ∧
      (Runs.run PicCall.apply [.unmaskIrq 1, .sendEoi 1, .maskIrq 1] (picInit biosPics)).masked 1 =
        (lastWrite ([PicCall.unmaskIrq 1, .sendEoi 1, .maskIrq 1].flatMap PicCall.writes) 1).getD true :=
  ⟨by decide, by decide,
    (pic_lines_follow_last_call biosPics [.unmaskIrq 1, .sendEoi 1, .maskIrq 1] (by decide) 1 (by decide)).2.2⟩

/-! ### The interrupt setup of `kmain` -/

theorem keyboardInit_eq (p : Pics) : keyboardInit p = picUnmaskIrq 1 p := rfl

/-- The controllers after `kmain`'s interrupt setup: `pic_init`, `keyboard_init`, and
`pic_unmask_irq(0)` once interrupts are enabled. The other calls of `kmain` write no port of the
controllers. -/
def kmainPics (p : Pics) : Pics := picUnmaskIrq 0 (keyboardInit (picInit p))

/-- After `kmain`'s interrupt setup, from whatever state the firmware left the controllers in,
the lines the controllers let through are IRQ 0 and IRQ 1; every line raises a vector above the
32 exception vectors; and the vector of a line let through has a present gate, installed by
`kmain`, into the kernel code segment at the line's handler stub. -/
theorem kmain_irqs_reach_gates (p : Pics) (idtAddress : UInt32) (stubs : Stubs) (s : IdtState)
    {line : Nat} (inside : line < 16) :
    ((kmainPics p).masked line = false ↔ line = 0 ∨ line = 1) ∧
      32 ≤ ((kmainPics p).vector line).toNat ∧
      ((kmainPics p).masked line = false →
        ((bootIdt idtAddress stubs s).idt ((kmainPics p).vector line)).present = true ∧
        ((bootIdt idtAddress stubs s).idt ((kmainPics p).vector line)).selector = kernelCodeSegment ∧
        ((bootIdt idtAddress stubs s).idt ((kmainPics p).vector line)).offset =
          if line = 0 then stubs.irq0 else stubs.irq1) := by
  have run : kmainPics p = Runs.run PicCall.apply [.unmaskIrq 1, .unmaskIrq 0] (picInit p) := by
    rw [kmainPics, keyboardInit_eq]
    rfl
  obtain ⟨programmed, masked⟩ := masked_run [.unmaskIrq 1, .unmaskIrq 0] (by decide) (programmed_picInit p) inside
  rw [← run, picInit_masked p line inside,
    show [PicCall.unmaskIrq 1, .unmaskIrq 0].flatMap PicCall.writes = [(1, false), (0, false)] from rfl] at masked
  rw [← run] at programmed
  have vector := programmed.vector inside
  -- the two unmasks are the last writes to lines 1 and 0; every other line keeps the mask of `pic_init`
  have lines : (kmainPics p).masked line = false ↔ line = 0 ∨ line = 1 := by
    rw [masked]
    by_cases zero : line = 0
    · subst zero
      decide
    · by_cases one : line = 1
      · subst one
        decide
      · simp [lastWrite_cons, Ne.symm zero, Ne.symm one, zero, one]
  refine ⟨lines, ?_, ?_⟩
  · rw [vector, UInt8.toNat_add, show (0x20 : UInt8).toNat = 32 from rfl, Nat.toUInt8_eq, UInt8.toNat_ofNat']
    omega
  · intro unmasked
    rcases lines.mp unmasked with rfl | rfl
    · rw [vector, show (0x20 : UInt8) + (0 : Nat).toUInt8 = 0x20 from rfl, bootIdt_idt, dif_neg (by decide),
        if_pos rfl, idtGate_offset, if_pos rfl]
      exact ⟨show ((0x8E : UInt8) &&& 0x80 != 0) = true by decide, rfl, rfl⟩
    · rw [vector, show (0x20 : UInt8) + (1 : Nat).toUInt8 = 0x21 from rfl, bootIdt_idt, dif_neg (by decide),
        if_neg (by decide), if_pos rfl, idtGate_offset, if_neg (by decide)]
      exact ⟨show ((0x8E : UInt8) &&& 0x80 != 0) = true by decide, rfl, rfl⟩

theorem kmain_irqs_reach_gates_timer :
    (0 : Nat) < 16 ∧ ((kmainPics biosPics).masked 0 = false ↔ 0 = 0 ∨ 0 = 1) :=
  ⟨by decide, (kmain_irqs_reach_gates biosPics 0 ⟨fun _ => 0, 0, 0, 0⟩ ⟨fun _ => IdtEntry.cleared, ⟨0, 0⟩⟩
    (by decide)).1⟩

end OpenOS.Arch
