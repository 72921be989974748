import OpenOS.Lib.Chain
import OpenOS.Lib.Run
import OpenOS.Lib.Tiling
import OpenOS.Lib.Bits
import OpenOS.Lib.Ring
import OpenOS.Lib.OnesComplement
import OpenOS.Lib.Overwrite
import OpenOS.Memory.Heap
import OpenOS.Memory.HeapBlocks
import OpenOS.Memory.HeapAbstract
import OpenOS.Memory.HeapRefine
import OpenOS.Memory.HeapInvariant
import OpenOS.Memory.HeapCanonical
import OpenOS.Memory.Pmm
import OpenOS.Memory.PmmInit
import OpenOS.Memory.PmmAlloc
import OpenOS.Memory.Vmm
import OpenOS.Memory.VmmMap
import OpenOS.Memory.VmmTeardown
import OpenOS.Memory.VmmRegion
import OpenOS.Memory.Cache
import OpenOS.Process.Process
import OpenOS.Process.Scheduler
import OpenOS.Process.Lifecycle
import OpenOS.Process.Queues
import OpenOS.Process.Invariant
import OpenOS.Process.Schedule
import OpenOS.Process.Reachable
import OpenOS.Process.Dispatch
import OpenOS.Process.Lifetime
import OpenOS.Process.Fork
import OpenOS.Ipc.Pipe
import OpenOS.Ipc.MsgQueue
import OpenOS.Kernel.Strings
import OpenOS.Kernel.Itoa
import OpenOS.Kernel.Network
import OpenOS.Kernel.ProcCommands
import OpenOS.Kernel.Script
import OpenOS.Fs.Vfs
import OpenOS.Fs.Ramfs
import OpenOS.Fs.Shell
import OpenOS.Fs.Files
import OpenOS.Fs.Tree
import OpenOS.Fs.Pool
import OpenOS.Drivers.Keyboard
import OpenOS.Drivers.GetLine
import OpenOS.Drivers.Timer
import OpenOS.Drivers.Console
import OpenOS.Cpu.Pipeline
import OpenOS.Cpu.PipelineSim
import OpenOS.Cpu.PipelineTiming
import OpenOS.Cpu.SingleCycle
import OpenOS.Kernel.ShellExecute
import OpenOS.Kernel.Gui
import OpenOS.Arch.Descriptors
import OpenOS.Arch.Pic
import OpenOS.Kernel.Sockets
