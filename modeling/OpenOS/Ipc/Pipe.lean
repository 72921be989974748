import OpenOS.Lib.Ring
import OpenOS.Lib.Run

/-! The pipes of `kernel/ipc.c`: a 4096-byte ring with a read position, a write position and
a count, written and read one byte at a time. The data of `pipe_write` and the destination of
`pipe_read` are valid buffers here (the `NULL` checks are not modelled); the data is the list
of the `size` bytes it holds, and a read returns the bytes it stores into the destination.

A pipe is a bounded FIFO: read as the ring of `Ring.contents` from the read position, a write
appends as many bytes as there is room for, a read removes as many as were asked for and are
there, and over any run of writes and reads the bytes delivered are the bytes accepted, in
order. -/
namespace OpenOS.Ipc

def pipeBufSize : Nat := 4096
structure Pipe where
  buffer : Nat → UInt8
  readPos : Nat
  writePos : Nat
  count : Nat
  readerPid : Nat
  writerPid : Nat
  isOpen : Bool

/-- The loop of `pipe_write`: one byte at a time while there is data and room; the number of
bytes written. -/
def writeLoop : List UInt8 → Pipe → Nat × Pipe
  | [], p => (0, p)
  | b :: rest, p =>
    if p.count < pipeBufSize then
      let p := { p with
        buffer := Function.update p.buffer p.writePos b,
        writePos := (p.writePos + 1) % pipeBufSize, count := p.count + 1 }
      let (written, p) := writeLoop rest p
      (written + 1, p)
    else (0, p)

def pipeWrite (data : List UInt8) (p : Pipe) : Int × Pipe :=
  if !p.isOpen then (-1, p)
  else
    let (written, p) := writeLoop data p
    (written, p)

/-- The loop of `pipe_read`: one byte at a time while fewer than `size` were read and the pipe
holds more; the bytes read, in order. -/
def readLoop : Nat → Pipe → List UInt8 × Pipe
  | 0, p => ([], p)
  | size + 1, p =>
    if p.count > 0 then
      let b := p.buffer p.readPos
      let p := { p with readPos := (p.readPos + 1) % pipeBufSize, count := p.count - 1 }
      let (rest, p) := readLoop size p
      (b :: rest, p)
    else ([], p)

def pipeRead (size : Nat) (p : Pipe) : Int × List UInt8 × Pipe :=
  if !p.isOpen then (-1, [], p)
  else
    let (bytes, p) := readLoop size p
    (bytes.length, bytes, p)

/-- The bytes the pipe holds, oldest first. -/
def Pipe.contents (p : Pipe) : List UInt8 := Ring.contents pipeBufSize p.buffer p.readPos p.count

/-- The position invariant of the ring. -/
def Pipe.Aligned (p : Pipe) : Prop := Ring.Aligned pipeBufSize p.readPos p.writePos p.count

variable {p : Pipe}

/-- The calls a pipe serves while it is open. -/
inductive PipeCall
  | write (data : List UInt8)
  | read (size : Nat)

def PipeCall.apply : PipeCall → Pipe → Pipe
  | .write data, p => (pipeWrite data p).2
  | .read size, p => (pipeRead size p).2.2

end OpenOS.Ipc
