import TraceSyscallObj.RevSem.Live
import TraceSyscallObj.Migration.Xbzrle
import TraceSyscallObj.HBitmap.Walk
import TraceSyscallObj.Qjson.Resync
import TraceSyscallObj.Qjson.Safety
import TraceSyscallObj.Qjson.Roundtrip
import TraceSyscallObj.Memory.Sync
import TraceSyscallObj.Util.Wide
import TraceSyscallObj.X86.Pdep
import TraceSyscallObj.Ide.Sector
import TraceSyscallObj.X86.MmuDebug
import TraceSyscallObj.Exec.Tlb
import TraceSyscallObj.Exec.JmpCache
import TraceSyscallObj.Exec.TbInvalidate
import TraceSyscallObj.RevSem.Evict
import TraceSyscallObj.Dump.MemoryMapping
import TraceSyscallObj.Pci.IrqCount
import TraceSyscallObj.Virtio.AvailBytes
import TraceSyscallObj.Qcow2.Packing
import TraceSyscallObj.Qcow2.Snapshot
import TraceSyscallObj.RevSem.Callstack
import TraceSyscallObj.RevSem.CallTarget
import TraceSyscallObj.RevSem.SemTypes
import TraceSyscallObj.RevSem.InferSize
import TraceSyscallObj.Memory.Find
import TraceSyscallObj.Phys.Regions
import TraceSyscallObj.HBitmap.NoItems
import TraceSyscallObj.Qjson.Quotes
import TraceSyscallObj.Util.IovMove
import TraceSyscallObj.Util.IovDiscard
import TraceSyscallObj.Virtio.Notify
