import Mathlib
import OpenOS.Lib.Bits
import OpenOS.Lib.Overwrite

/-! The descriptor tables of `arch/x86/gdt.c` and `arch/x86/idt.c`, and the gates the boot
installs. `gdt_set_gate` and `idt_set_gate` cut a base, a limit or a handler address into the
fields of the packed `struct gdt_entry` and `struct idt_entry`; the processor joins the fields
back when it loads a segment or takes an interrupt. The reading is stated here beside the
encoding (`GdtEntry.base`, `IdtEntry.offset`, ...), and the encoding is shown to give the
processor what the C code passed in.

The table addresses `&gdt`, `&tss` and `&idt` and the addresses of the assembly stubs are
inputs. `gdt_flush`, `tss_flush` and `idt_load` are the instructions that hand the tables to
the processor and are left out. -/
namespace OpenOS.Arch

open Overwrite

/-! ### Segment descriptors -/

/-- `struct gdt_entry`. -/
structure GdtEntry where
  limitLow : UInt16
  baseLow : UInt16
  baseMiddle : UInt8
  access : UInt8
  granularity : UInt8
  baseHigh : UInt8
  deriving DecidableEq, Repr

/-- The entry `gdt_set_gate` stores. -/
def gdtGate (base limit : UInt32) (access gran : UInt8) : GdtEntry where
  limitLow := (limit &&& 0xFFFF).toUInt16
  baseLow := (base &&& 0xFFFF).toUInt16
  baseMiddle := ((base >>> 16) &&& 0xFF).toUInt8
  access := access
  granularity := ((limit >>> 16) &&& 0x0F).toUInt8 ||| (gran &&& 0xF0)
  baseHigh := ((base >>> 24) &&& 0xFF).toUInt8

/-- `gdt_set_gate(num, base, limit, access, gran)` on the table of `GDT_ENTRIES` entries. -/
def gdtSetGate (gdt : Fin 6 → GdtEntry) (num : Fin 6) (base limit : UInt32) (access gran : UInt8) :
    Fin 6 → GdtEntry :=
  Function.update gdt num (gdtGate base limit access gran)

/-- The base the processor joins from a descriptor. -/
def GdtEntry.base (e : GdtEntry) : UInt32 :=
  e.baseLow.toUInt32 ||| e.baseMiddle.toUInt32 <<< 16 ||| e.baseHigh.toUInt32 <<< 24

/-- The 20-bit limit. -/
def GdtEntry.limit (e : GdtEntry) : UInt32 :=
  e.limitLow.toUInt32 ||| (e.granularity &&& 0x0F).toUInt32 <<< 16

/-- The flags nibble: granularity, default operand size, long mode, available. -/
def GdtEntry.flags (e : GdtEntry) : UInt8 := e.granularity >>> 4

def GdtEntry.present (e : GdtEntry) : Bool := e.access &&& 0x80 != 0

/-- The descriptor privilege level. -/
def GdtEntry.dpl (e : GdtEntry) : UInt8 := (e.access >>> 5) &&& 3

def GdtEntry.executable (e : GdtEntry) : Bool := e.access &&& 0x08 != 0

/-- The last offset of the segment: the limit counts 4 KiB pages when the granularity flag is
set, bytes when it is clear. -/
def GdtEntry.lastByte (e : GdtEntry) : Nat :=
  if e.granularity &&& 0x80 != 0 then e.limit.toNat * 4096 + 4095 else e.limit.toNat

/-! ### Fields as numbers -/

theorem toNat_low16 (x : UInt32) : (x &&& 0xFFFF).toUInt16.toNat = x.toNat % 2^16 := by
  rw [UInt32.toNat_toUInt16, UInt32.toNat_and, show (0xFFFF : UInt32).toNat = 2^16 - 1 from rfl,
    Nat.and_two_pow_sub_one_eq_mod, Nat.mod_mod]

theorem toNat_field (x : UInt32) (k : UInt32) (n : Nat) (mask : UInt32) (mask_eq : mask.toNat = 2^n - 1) :
    ((x >>> k) &&& mask).toNat = x.toNat / 2^(k.toNat % 32) % 2^n := by
  rw [UInt32.toNat_and, UInt32.toNat_shiftRight, mask_eq, Nat.and_two_pow_sub_one_eq_mod, Nat.shiftRight_eq_div_pow]

theorem toNat_join3 (a : UInt16) (b c : UInt8) :
    (a.toUInt32 ||| b.toUInt32 <<< 16 ||| c.toUInt32 <<< 24).toNat = a.toNat + b.toNat * 2^16 + c.toNat * 2^24 := by
  have a_lt := a.toNat_lt
  have b_lt := b.toNat_lt
  have c_lt := c.toNat_lt
  simp only [UInt32.toNat_or, UInt32.toNat_shiftLeft, UInt16.toNat_toUInt32, UInt8.toNat_toUInt32,
    show (16 : UInt32).toNat % 32 = 16 from rfl, show (24 : UInt32).toNat % 32 = 24 from rfl, Nat.shiftLeft_eq]
  rw [Nat.mod_eq_of_lt (by omega), Nat.mod_eq_of_lt (by omega), Bits.or_mul_two_pow_of_lt _ a_lt,
    Bits.or_mul_two_pow_of_lt _ (by omega)]

theorem toNat_join2 (a : UInt16) (b : UInt32) (b_lt : b.toNat < 2^16) :
    (a.toUInt32 ||| b <<< 16).toNat = a.toNat + b.toNat * 2^16 := by
  have a_lt := a.toNat_lt
  rw [UInt32.toNat_or, UInt32.toNat_shiftLeft, UInt16.toNat_toUInt32, show (16 : UInt32).toNat % 32 = 16 from rfl,
    Nat.shiftLeft_eq, Nat.mod_eq_of_lt (by omega), Bits.or_mul_two_pow_of_lt _ a_lt]

theorem toNat_gdtGate_granularity (limit : UInt32) (gran : UInt8) :
    (gdtGate 0 limit 0 gran).granularity.toNat = limit.toNat / 2^16 % 2^4 + gran.toNat / 2^4 * 2^4 := by
  have low : (((limit >>> 16) &&& 0x0F).toUInt8).toNat = limit.toNat / 2^16 % 2^4 := by
    rw [UInt32.toNat_toUInt8, toNat_field limit 16 4 0x0F rfl, show (16 : UInt32).toNat % 32 = 16 from rfl]
    omega
  have high : (gran &&& 0xF0).toNat = gran.toNat / 2^4 * 2^4 := by
    rw [UInt8.toNat_and, show (0xF0 : UInt8).toNat = 2^8 - 2^4 from rfl,
      Bits.and_two_pow_sub_two_pow _ (by norm_num), Nat.mod_eq_of_lt gran.toNat_lt]
  have low_lt : (((limit >>> 16) &&& 0x0F).toUInt8).toNat < 2^4 := by omega
  simp only [gdtGate, UInt8.toNat_or]
  rw [high, Bits.or_mul_two_pow_of_lt _ low_lt, low]

theorem gdtGate_granularity (base limit : UInt32) (access gran : UInt8) :
    (gdtGate base limit access gran).granularity = (gdtGate 0 limit 0 gran).granularity := rfl

theorem gdtGate_base (base limit : UInt32) (access gran : UInt8) : (gdtGate base limit access gran).base = base := by
  apply UInt32.toNat_inj.mp
  rw [GdtEntry.base, toNat_join3]
  simp only [gdtGate, toNat_low16, UInt32.toNat_toUInt8, toNat_field base 16 8 0xFF rfl,
    toNat_field base 24 8 0xFF rfl, show (16 : UInt32).toNat % 32 = 16 from rfl,
    show (24 : UInt32).toNat % 32 = 24 from rfl]
  have := base.toNat_lt
  omega

theorem gdtGate_limit (base limit : UInt32) (access gran : UInt8) :
    (gdtGate base limit access gran).limit.toNat = limit.toNat % 2^20 := by
  have granularity := toNat_gdtGate_granularity limit gran
  have masked : ((gdtGate base limit access gran).granularity &&& 0x0F).toUInt32.toNat = limit.toNat / 2^16 % 16 := by
    rw [UInt8.toNat_toUInt32, UInt8.toNat_and, gdtGate_granularity, show (0x0F : UInt8).toNat = 2^4 - 1 from rfl,
      Nat.and_two_pow_sub_one_eq_mod, granularity]
    omega
  rw [GdtEntry.limit, toNat_join2 _ _ (by omega), masked]
  simp only [gdtGate, toNat_low16]
  omega

theorem gdtGate_flags (base limit : UInt32) (access gran : UInt8) :
    (gdtGate base limit access gran).flags = gran >>> 4 := by
  apply UInt8.toNat_inj.mp
  rw [GdtEntry.flags, UInt8.toNat_shiftRight, UInt8.toNat_shiftRight, show (4 : UInt8).toNat % 8 = 4 from rfl,
    Nat.shiftRight_eq_div_pow, Nat.shiftRight_eq_div_pow, gdtGate_granularity, toNat_gdtGate_granularity]
  omega

/-- `gdt_set_gate` encodes what the processor decodes: the base, the limit cut to its 20 bits,
the access byte, and the upper nibble of `gran` as the flags. -/
theorem gdt_set_gate_round_trip (base limit : UInt32) (access gran : UInt8) :
    (gdtGate base limit access gran).base = base ∧
      (gdtGate base limit access gran).limit.toNat = limit.toNat % 2^20 ∧
      (gdtGate base limit access gran).access = access ∧
      (gdtGate base limit access gran).flags = gran >>> 4 :=
  ⟨gdtGate_base base limit access gran, gdtGate_limit base limit access gran, rfl,
    gdtGate_flags base limit access gran⟩

/-! ### `gdt_init` -/

/-- `struct gdt_ptr` and `struct idt_ptr`, the operands of `lgdt` and `lidt`. -/
structure TablePtr where
  limit : UInt16
  base : UInt32
  deriving DecidableEq, Repr

/-- The fields of `struct tss_entry` the kernel writes; `gdt_init` zeroes the others and no
code reads them. -/
structure Tss where
  esp0 : UInt32
  ss0 : UInt32
  iomapBase : UInt16
  deriving DecidableEq, Repr

def gdtKernelCode : UInt16 := 0x08
def gdtKernelData : UInt16 := 0x10
def gdtUserCode : UInt16 := 0x18
def gdtUserData : UInt16 := 0x20
def gdtTss : UInt16 := 0x28
def userCodeSelector : UInt16 := gdtUserCode ||| 3
def userDataSelector : UInt16 := gdtUserData ||| 3

/-- `sizeof(struct gdt_entry)` and `sizeof(struct tss_entry)`: both structs are packed. -/
def gdtEntrySize : Nat := 8
def tssSize : UInt32 := 104

/-- The statics of `gdt.c`. -/
structure GdtState where
  gdt : Fin 6 → GdtEntry
  gdtp : TablePtr
  tss : Tss

/-- `gdt_init`, with `gdtAddress` for `&gdt` and `tssAddress` for `&tss`. -/
def gdtInit (gdtAddress tssAddress : UInt32) (s : GdtState) : GdtState :=
  let gdtp : TablePtr := ⟨(gdtEntrySize * 6 - 1).toUInt16, gdtAddress⟩
  let gdt := gdtSetGate s.gdt 0 0 0 0 0
  let gdt := gdtSetGate gdt 1 0 0xFFFFF 0x9A 0xCF
  let gdt := gdtSetGate gdt 2 0 0xFFFFF 0x92 0xCF
  let gdt := gdtSetGate gdt 3 0 0xFFFFF 0xFA 0xCF
  let gdt := gdtSetGate gdt 4 0 0xFFFFF 0xF2 0xCF
  -- the zeroed TSS gets its ring 0 stack segment and an I/O map base past its limit
  let tss : Tss := ⟨0, gdtKernelData.toUInt32, tssSize.toUInt16⟩
  let gdt := gdtSetGate gdt 5 tssAddress (tssSize - 1) 0x89 0x00
  ⟨gdt, gdtp, tss⟩

/-- `tss_set_kernel_stack(esp0)`. -/
def tssSetKernelStack (esp0 : UInt32) (s : GdtState) : GdtState := { s with tss := { s.tss with esp0 := esp0 } }

/-- The descriptor a selector names when the processor loads it: the eight bytes of entry
`selector >> 3`, if they lie inside the limit `lgdt` was given. Past the six entries of `gdt[]`
the table runs on into whatever memory follows the array, `beyond`. -/
def GdtState.descriptor (s : GdtState) (beyond : Nat → GdtEntry) (selector : UInt16) : Option GdtEntry :=
  if (selector >>> 3).toNat * 8 + 7 ≤ s.gdtp.limit.toNat then
    some (if h : (selector >>> 3).toNat < 6 then s.gdt ⟨(selector >>> 3).toNat, h⟩
      else beyond ((selector >>> 3).toNat - 6))
  else none

/-- The requested privilege level a selector carries. -/
def rpl (selector : UInt16) : UInt8 := (selector &&& 3).toUInt8

/-- A present segment over the whole 4 GiB from address 0. -/
structure FlatSegment (e : GdtEntry) : Prop where
  base_eq : e.base = 0
  lastByte_eq : e.lastByte = 2^32 - 1
  present : e.present = true

/-- The five descriptors `gdt_init` writes after the null one, and the TSS descriptor. -/
def bootGdt (tssAddress : UInt32) : Fin 6 → GdtEntry :=
  ![gdtGate 0 0 0 0, gdtGate 0 0xFFFFF 0x9A 0xCF, gdtGate 0 0xFFFFF 0x92 0xCF, gdtGate 0 0xFFFFF 0xFA 0xCF,
    gdtGate 0 0xFFFFF 0xF2 0xCF, gdtGate tssAddress (tssSize - 1) 0x89 0x00]

theorem gdtInit_gdt (gdtAddress tssAddress : UInt32) (s : GdtState) :
    (gdtInit gdtAddress tssAddress s).gdt = bootGdt tssAddress := by
  funext i
  fin_cases i <;> rfl

theorem gdtInit_limit (gdtAddress tssAddress : UInt32) (s : GdtState) :
    (gdtInit gdtAddress tssAddress s).gdtp.limit.toNat = gdtEntrySize * 6 - 1 := rfl

theorem flat_gdtGate (access : UInt8) (present : access &&& 0x80 ≠ 0) : FlatSegment (gdtGate 0 0xFFFFF access 0xCF) := by
  have granularity : (gdtGate 0 0xFFFFF access 0xCF).granularity = 0xCF := by
    rw [gdtGate_granularity]
    rfl
  have limit := gdtGate_limit 0 0xFFFFF access 0xCF
  refine ⟨gdtGate_base 0 0xFFFFF access 0xCF, ?_, ?_⟩
  · rw [GdtEntry.lastByte, granularity, if_pos (by decide), limit]
    rfl
  · simpa [GdtEntry.present, gdtGate] using present

/-- After `gdt_init`, every selector of `gdt.h` names its descriptor inside the table limit:
the kernel and user code and data selectors a flat 4 GiB segment whose privilege level is the
selector's RPL, executable for the code selectors only; `GDT_TSS` the TSS at `tssAddress`, of
`sizeof(tss)` bytes with no I/O bitmap inside it and the kernel data segment as its ring 0
stack segment; selector 0 the null descriptor; and, by the limit of 47 it loads, no selector
past the six entries names anything, whatever memory follows the table. -/
theorem gdt_init_selectors (gdtAddress tssAddress : UInt32) (s : GdtState) (beyond : Nat → GdtEntry) :
    (∀ selector ∈ [gdtKernelCode, gdtKernelData, userCodeSelector, userDataSelector],
      ∃ e, (gdtInit gdtAddress tssAddress s).descriptor beyond selector = some e ∧ FlatSegment e ∧
        e.dpl = rpl selector ∧ e.executable = (selector == gdtKernelCode || selector == userCodeSelector)) ∧
    (∃ e, (gdtInit gdtAddress tssAddress s).descriptor beyond gdtTss = some e ∧ e.base = tssAddress ∧
      e.lastByte + 1 = tssSize.toNat ∧ e.access = 0x89 ∧
      e.lastByte < (gdtInit gdtAddress tssAddress s).tss.iomapBase.toNat ∧
      (gdtInit gdtAddress tssAddress s).tss.ss0 = gdtKernelData.toUInt32) ∧
    (gdtInit gdtAddress tssAddress s).descriptor beyond 0 = some ⟨0, 0, 0, 0, 0, 0⟩ ∧
    ∀ selector : UInt16, 6 ≤ (selector >>> 3).toNat → (gdtInit gdtAddress tssAddress s).descriptor beyond selector = none := by
  have lookup : ∀ (selector : UInt16) (i : Fin 6), (selector >>> 3).toNat = i →
      (gdtInit gdtAddress tssAddress s).descriptor beyond selector = some (bootGdt tssAddress i) := by
    intro selector i index
    have inside : (selector >>> 3).toNat < 6 := index ▸ i.isLt
    rw [GdtState.descriptor, if_pos (by rw [gdtInit_limit, gdtEntrySize]; omega), dif_pos inside, gdtInit_gdt]
    simp only [index, Fin.eta]
  refine ⟨?_, ⟨gdtGate tssAddress (tssSize - 1) 0x89 0x00, lookup gdtTss 5 (by decide), ?_⟩,
    lookup 0 0 (by decide), ?_⟩
  · simp only [List.mem_cons, List.not_mem_nil, or_false]
    rintro selector (rfl | rfl | rfl | rfl)
    · exact ⟨gdtGate 0 0xFFFFF 0x9A 0xCF, lookup _ 1 (by decide), flat_gdtGate 0x9A (by decide), by decide, by decide⟩
    · exact ⟨gdtGate 0 0xFFFFF 0x92 0xCF, lookup _ 2 (by decide), flat_gdtGate 0x92 (by decide), by decide, by decide⟩
    · exact ⟨gdtGate 0 0xFFFFF 0xFA 0xCF, lookup _ 3 (by decide), flat_gdtGate 0xFA (by decide), by decide, by decide⟩
    · exact ⟨gdtGate 0 0xFFFFF 0xF2 0xCF, lookup _ 4 (by decide), flat_gdtGate 0xF2 (by decide), by decide, by decide⟩
  · -- the TSS descriptor is byte granular, so its last byte is its limit
    have granularity : (gdtGate tssAddress (tssSize - 1) 0x89 0x00).granularity = 0 := by
      rw [gdtGate_granularity]
      rfl
    have lastByte : (gdtGate tssAddress (tssSize - 1) 0x89 0x00).lastByte = 103 := by
      rw [GdtEntry.lastByte, granularity, if_neg (by decide), gdtGate_limit]
      rfl
    exact ⟨gdtGate_base _ _ _ _, by rw [lastByte]; rfl, rfl, by rw [lastByte]; exact (by decide : 103 < tssSize.toUInt16.toNat), rfl⟩
  · -- entry 6 would end at byte 55, past the limit
    intro selector past
    rw [GdtState.descriptor, if_neg (by rw [gdtInit_limit, gdtEntrySize]; omega)]

/-! ### Interrupt gates -/

/-- `struct idt_entry`. -/
structure IdtEntry where
  offsetLow : UInt16
  selector : UInt16
  zero : UInt8
  typeAttr : UInt8
  offsetHigh : UInt16
  deriving DecidableEq, Repr

/-- An entry as the clearing loop of `idt_init` leaves it. -/
def IdtEntry.cleared : IdtEntry := ⟨0, 0, 0, 0, 0⟩

/-- The entry `idt_set_gate` stores. -/
def idtGate (handler : UInt32) (selector : UInt16) (flags : UInt8) : IdtEntry :=
  ⟨(handler &&& 0xFFFF).toUInt16, selector, 0, flags, ((handler >>> 16) &&& 0xFFFF).toUInt16⟩

/-- `idt_set_gate(num, handler, selector, flags)`. -/
def idtSetGate (idt : UInt8 → IdtEntry) (num : UInt8) (handler : UInt32) (selector : UInt16) (flags : UInt8) :
    UInt8 → IdtEntry :=
  Function.update idt num (idtGate handler selector flags)

/-- The statics of `idt.c`. -/
structure IdtState where
  idt : UInt8 → IdtEntry
  idtp : TablePtr

/-- `idt_init`, with `idtAddress` for `&idt`: the loop clears all `IDT_ENTRIES` entries. -/
def idtInit (idtAddress : UInt32) (s : IdtState) : IdtState :=
  ⟨(List.range 256).foldl (fun idt i => Function.update idt i.toUInt8 IdtEntry.cleared) s.idt,
    ⟨(8 * 256 - 1 : Nat).toUInt16, idtAddress⟩⟩

/-- The handler address the processor joins from a gate. -/
def IdtEntry.offset (e : IdtEntry) : UInt32 := e.offsetLow.toUInt32 ||| e.offsetHigh.toUInt32 <<< 16

def IdtEntry.present (e : IdtEntry) : Bool := e.typeAttr &&& 0x80 != 0

/-- The privilege level a software interrupt needs to go through the gate. -/
def IdtEntry.dpl (e : IdtEntry) : UInt8 := (e.typeAttr >>> 5) &&& 3

/-- The gate type; `0xE` is a 32-bit interrupt gate. -/
def IdtEntry.gateType (e : IdtEntry) : UInt8 := e.typeAttr &&& 0x0F

theorem idtGate_offset (handler : UInt32) (selector : UInt16) (flags : UInt8) :
    (idtGate handler selector flags).offset = handler := by
  apply UInt32.toNat_inj.mp
  have high : (idtGate handler selector flags).offsetHigh.toUInt32.toNat = handler.toNat / 2^16 % 2^16 := by
    rw [UInt16.toNat_toUInt32]
    show ((handler >>> 16) &&& 0xFFFF).toUInt16.toNat = _
    rw [UInt32.toNat_toUInt16, toNat_field handler 16 16 0xFFFF rfl,
      show (16 : UInt32).toNat % 32 = 16 from rfl, Nat.mod_mod]
  rw [IdtEntry.offset, toNat_join2 _ _ (by rw [high]; omega), high]
  simp only [idtGate, toNat_low16]
  have := handler.toNat_lt
  omega

theorem idt_set_gate_round_trip (handler : UInt32) (selector : UInt16) (flags : UInt8) :
    (idtGate handler selector flags).offset = handler ∧ (idtGate handler selector flags).selector = selector ∧
      (idtGate handler selector flags).typeAttr = flags ∧ (idtGate handler selector flags).zero = 0 :=
  ⟨idtGate_offset handler selector flags, rfl, rfl, rfl⟩

theorem idtInit_idt (idtAddress : UInt32) (s : IdtState) (v : UInt8) :
    (idtInit idtAddress s).idt v = IdtEntry.cleared := by
  have cleared : (idtInit idtAddress s).idt =
      apply (((List.range 256).map Nat.toUInt8).map fun i => (i, IdtEntry.cleared)) s.idt := by
    simp only [idtInit, apply, List.foldl_map]
  have reached : v ∈ (List.range 256).map Nat.toUInt8 :=
    List.mem_map.mpr ⟨v.toNat, List.mem_range.mpr v.toNat_lt, UInt8.ofNat_toNat⟩
  rw [cleared, apply_eq, lastWrite_graph, if_pos reached]
  rfl

/-! ### The gates of the boot -/

def kernelCodeSegment : UInt16 := 0x08

def idtGatePresent : UInt8 := 0x80
def idtGateInt32 : UInt8 := 0x0E
def idtGateDpl3 : UInt8 := 0x60
def idtFlagsKernel : UInt8 := idtGatePresent ||| idtGateInt32
def idtFlagsUser : UInt8 := idtGatePresent ||| idtGateInt32 ||| idtGateDpl3

/-- `exceptions_init`: the 32 exception stubs as interrupt gates into the kernel code segment,
one `idt_set_gate` per vector in order. -/
def exceptionsInit (stubs : Fin 32 → UInt32) (idt : UInt8 → IdtEntry) : UInt8 → IdtEntry :=
  (List.finRange 32).foldl (fun idt i => idtSetGate idt i.val.toUInt8 (stubs i) 0x08 0x8E) idt

/-- `syscall_init`: the `int 0x80` gate, open to ring 3. -/
def syscallInit (int80 : UInt32) (idt : UInt8 → IdtEntry) : UInt8 → IdtEntry :=
  idtSetGate idt 0x80 int80 kernelCodeSegment idtFlagsUser

/-- The addresses of the assembly stubs the boot installs. -/
structure Stubs where
  exception : Fin 32 → UInt32
  irq0 : UInt32
  irq1 : UInt32
  int80 : UInt32

/-- The IDT after `kmain`'s interrupt setup: `idt_init`, `exceptions_init`, the gates of IRQ 0
and IRQ 1, and `syscall_init`; the calls in between do not write the IDT. -/
def bootIdt (idtAddress : UInt32) (stubs : Stubs) (s : IdtState) : IdtState :=
  let s := idtInit idtAddress s
  let idt := exceptionsInit stubs.exception s.idt
  let idt := idtSetGate idt 0x20 stubs.irq0 kernelCodeSegment idtFlagsKernel
  let idt := idtSetGate idt 0x21 stubs.irq1 kernelCodeSegment idtFlagsKernel
  { s with idt := syscallInit stubs.int80 idt }

theorem toUInt8_val_injective {i j : Fin 32} (same : i.val.toUInt8 = j.val.toUInt8) : i = j := by
  apply Fin.ext
  have := congrArg UInt8.toNat same
  simp only [Nat.toUInt8_eq, UInt8.toNat_ofNat'] at this
  omega

/-- `exceptions_init` writes the vectors below 32 and no other. -/
theorem exceptionsInit_apply (stubs : Fin 32 → UInt32) (idt : UInt8 → IdtEntry) (v : UInt8) :
    exceptionsInit stubs idt v = if h : v.toNat < 32 then idtGate (stubs ⟨v.toNat, h⟩) 0x08 0x8E else idt v := by
  have writes : exceptionsInit stubs idt =
      apply ((((List.finRange 32).map fun i => (i, idtGate (stubs i) 0x08 0x8E)).map
        fun w => (w.1.val.toUInt8, w.2))) idt := by
    simp only [exceptionsInit, idtSetGate, apply, List.foldl_map]
  rw [writes, apply_eq]
  split
  · next below =>
    have written : ∀ k : Fin 32, lastWrite (((List.finRange 32).map fun i => (i, idtGate (stubs i) 0x08 0x8E)).map
        fun w => (w.1.val.toUInt8, w.2)) k.val.toUInt8 = some (idtGate (stubs k) 0x08 0x8E) := by
      intro k
      rw [lastWrite_map_fst (fun i : Fin 32 => i.val.toUInt8) _ fun w _ same => toUInt8_val_injective same,
        lastWrite_graph,
        if_pos (List.mem_finRange _)]
    have last := written ⟨v.toNat, below⟩
    rw [show (⟨v.toNat, below⟩ : Fin 32).val.toUInt8 = v from UInt8.ofNat_toNat] at last
    rw [last]
    rfl
  · next above =>
    rw [(lastWrite_eq_none_iff _ _).mpr]
    · rfl
    · simp only [List.map_map, List.mem_map, List.mem_finRange, true_and, Function.comp_apply]
      rintro _ ⟨i, rfl⟩ same
      apply above
      rw [← same]
      simp only [Nat.toUInt8_eq, UInt8.toNat_ofNat']
      omega

/-- The gate the boot leaves on each vector, by the last write to it. -/
theorem bootIdt_idt (idtAddress : UInt32) (stubs : Stubs) (s : IdtState) (v : UInt8) :
    (bootIdt idtAddress stubs s).idt v =
      if h : v.toNat < 32 then idtGate (stubs.exception ⟨v.toNat, h⟩) 0x08 0x8E
      else if v = 0x20 then idtGate stubs.irq0 0x08 0x8E
      else if v = 0x21 then idtGate stubs.irq1 0x08 0x8E
      else if v = 0x80 then idtGate stubs.int80 0x08 0xEE
      else IdtEntry.cleared := by
  simp only [bootIdt, syscallInit, idtSetGate, Function.update_apply, exceptionsInit_apply, idtInit_idt]
  -- the three later gates lie above the exception vectors
  by_cases below : v.toNat < 32
  · have ne80 : v ≠ 0x80 := fun same => by rw [same] at below; exact absurd below (by decide)
    have ne21 : v ≠ 0x21 := fun same => by rw [same] at below; exact absurd below (by decide)
    have ne20 : v ≠ 0x20 := fun same => by rw [same] at below; exact absurd below (by decide)
    rw [if_neg ne80, if_neg ne21, if_neg ne20, dif_pos below, dif_pos below]
  · rw [dif_neg below, dif_neg below]
    by_cases at80 : v = 0x80
    · subst at80
      rfl
    · rw [if_neg at80]
      by_cases at21 : v = 0x21
      · rw [if_pos at21, if_neg (by rw [at21]; decide), if_pos at21]
        rfl
      · rw [if_neg at21, if_neg at21, if_neg at80]
        rfl

/-- After `kmain`'s interrupt setup the vectors with a present gate are the 32 exceptions, the
two remapped IRQs `0x20` and `0x21`, and `0x80`; every present gate is a 32-bit interrupt gate
into the kernel code segment, and `int 0x80` is the only one ring 3 may raise. -/
theorem boot_idt_gates (idtAddress : UInt32) (stubs : Stubs) (s : IdtState) (v : UInt8) :
    (((bootIdt idtAddress stubs s).idt v).present = true ↔ (v.toNat < 32 ∨ v = 0x20 ∨ v = 0x21 ∨ v = 0x80)) ∧
    (((bootIdt idtAddress stubs s).idt v).present = true →
      ((bootIdt idtAddress stubs s).idt v).selector = kernelCodeSegment ∧
        ((bootIdt idtAddress stubs s).idt v).gateType = 0xE) ∧
    (((bootIdt idtAddress stubs s).idt v).present = true ∧ ((bootIdt idtAddress stubs s).idt v).dpl = 3 ↔ v = 0x80) := by
  rw [bootIdt_idt]
  -- each case is a gate with constant flags
  split_ifs
  · next below =>
    have other : v ≠ 0x80 := fun same => by rw [same] at below; exact absurd below (by decide)
    simp +decide [IdtEntry.present, IdtEntry.dpl, IdtEntry.gateType, idtGate, kernelCodeSegment, below, other]
  all_goals simp_all +decide [IdtEntry.present, IdtEntry.dpl, IdtEntry.gateType, idtGate, kernelCodeSegment]

end OpenOS.Arch
