import Hazelnut.Thread.Pair
import Hazelnut.Thread.Runnable
import Hazelnut.Thread.FindNext
import Hazelnut.Thread.WakeupRing
import Hazelnut.Thread.Timeout
import Hazelnut.Thread.MapItem
import Hazelnut.Thread.UnwindEnds
import Hazelnut.Memory.CopyArea
import Hazelnut.Thread.SmpLocks
import Hazelnut.Thread.SmpDelete
import Hazelnut.Thread.SmpMove
import Hazelnut.Thread.SmpExRegs
import Hazelnut.Thread.SmpMailbox
import Hazelnut.Thread.Dead
import Hazelnut.Thread.Release
import Hazelnut.Thread.Wakeup
import Hazelnut.Thread.Fpu
import Hazelnut.Thread.FastPath
import Hazelnut.Thread.TransferSafe
import Hazelnut.Thread.TransferPieces
import Hazelnut.Mdb.Readonly
import Hazelnut.Mdb.Depth
import Hazelnut.Memory.UnmapWalk
import Hazelnut.Memory.KmemComplete
import Hazelnut.Memory.ArmKmem
import Hazelnut.Memory.MdbAllocRun
import Hazelnut.Apps.MallocRun
import Hazelnut.Apps.Sigma0Alloc
import Hazelnut.Apps.Sigma0Free
import Hazelnut.Apps.MemmapLock
import Hazelnut.Apps.Supervisor
import Hazelnut.Io.Revoke
import Hazelnut.Io.Bitmap
import Hazelnut.Memory.SmallSpace
import Hazelnut.Memory.Window
import Hazelnut.Thread.IrqOrder
import Hazelnut.Thread.NoRace
