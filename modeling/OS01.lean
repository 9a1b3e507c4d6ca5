import OS01.Aarch64.PageTableRuns
import OS01.Aarch64.PmmLayout
import OS01.Aarch64.RangeAccess
import OS01.Aarch64.RuntimeTreeExact
import OS01.Aarch64.SlabBound
import OS01.Driver.FbInput
import OS01.Fs.DcacheRuns
import OS01.Fs.ElfLayout
import OS01.Fs.FdRuns
import OS01.Fs.GetdentsStream
import OS01.Fs.Gpt
import OS01.Fs.MountRuns
import OS01.Fs.PipeFifo
import OS01.Fs.TmpfsRuns
import OS01.Intr.Privilege
import OS01.Libc.Environ
import OS01.Libc.Libgen
import OS01.Libc.MallocRuns
import OS01.Libc.PthreadMutex
import OS01.Libc.RbtreeRuns
import OS01.Libc.Strtol
import OS01.Libc.Strverscmp
import OS01.Libgfx.Draw
import OS01.Libgui.Layout
import OS01.Memory.MmapCall
import OS01.Memory.MprotectExact
import OS01.Memory.PmmRuns
import OS01.Memory.Subpage
import OS01.Random.FailClosed
import OS01.Sched.Fairness
import OS01.Sched.Interruption
import OS01.Sched.UserStack
import OS01.Sync.Futex
import OS01.Sync.Mutex
import OS01.Sync.Rwlock
import OS01.Terminal.Damage
import OS01.Time.Clocksource
import OS01.Time.Timer
import OS01.Tty.Console
