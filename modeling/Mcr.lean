import Mcr.Build.Dockerfile
import Mcr.Elf.StackRead
import Mcr.Image.Config
import Mcr.Image.Push
import Mcr.Image.Spelling
import Mcr.Jit.PatchCodec
import Mcr.Jit.SyscallSites
import Mcr.Lib.Digits
import Mcr.Memory.FirstFit
import Mcr.Memory.Generation
import Mcr.Memory.Intrinsics
import Mcr.Net.Stream
import Mcr.Net.TableRuns
import Mcr.Runtime.FutexRuns
import Mcr.Runtime.IntrinsicRuns
import Mcr.Runtime.Parked
import Mcr.Runtime.Pwritev
import Mcr.Runtime.SignalFrame
import Mcr.Runtime.SocketModes
import Mcr.Runtime.Terminations
import Mcr.Runtime.WaitStatus
import Mcr.Snapshot.Unpacking
import Mcr.Task.Endings
import Mcr.Task.Identities
import Mcr.Task.Lifecycle
import Mcr.Vfs.Enumeration
import Mcr.Vfs.FdLaws
import Mcr.Vfs.FileIo
import Mcr.Vfs.HeldCalls
import Mcr.Vfs.LinkCounts
import Mcr.Vfs.Tables
