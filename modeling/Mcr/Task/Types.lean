import Mcr.Lib.SortedSet
import Mcr.Net.Types

/-!
# Guest processes and tasks

A process owns the image, the descriptors, the signal dispositions and the links of the process tree; a task
owns the registers, the signal mask and its scheduler state. What a task waits for is part of the state it
is parked in.
-/

namespace Mcr.Task

open Net (LinuxErrno)

abbrev GuestPid := Nat
abbrev GuestTid := Nat
abbrev GuestAddress := Nat
abbrev SignalMask := BitVec 64

/-! ### Numbers of the ABI -/

def eperm : LinuxErrno := ⟨1⟩
def esrch : LinuxErrno := ⟨3⟩
def eintr : LinuxErrno := ⟨4⟩
def enoexec : LinuxErrno := ⟨8⟩
def echild : LinuxErrno := ⟨10⟩
def eagain : LinuxErrno := .wouldBlock
def efault : LinuxErrno := ⟨14⟩
def enosys : LinuxErrno := .functionNotImplemented
def etimedout : LinuxErrno := .timedOut
def ebadf : LinuxErrno := .badFileDescriptor
def einval : LinuxErrno := .invalidArgument

def initialGuestPid : GuestPid := 1
def initialGuestTid : GuestTid := 1
def syscallInstructionLen : GuestAddress := 2
def defaultRflags : Nat := 0x202

def linuxSigkill : Nat := 9
def linuxSigchld : Nat := 17
def linuxSigstop : Nat := 19
def linuxSignalCount : Nat := 64
def linuxKernelSigsetSize : Nat := 8
def linuxRobustListHeadSize : Nat := 24

/-- The successor of a `u32` counter, `checked_add(1)`. -/
def checkedSucc (n : Nat) : Option Nat := if n + 1 < 2 ^ 32 then some (n + 1) else none

def saturatingAdd (a b : GuestAddress) : GuestAddress := min (a + b) (2 ^ 64 - 1)

inductive LinuxDefaultSignalAction
  | ignore
  | terminate
deriving DecidableEq, Repr

def defaultSignalAction (signal : Nat) : LinuxDefaultSignalAction :=
  if signal ∈ [1, 2, 3, 4, 5, 6, 7, 8, 9, 10, 11, 12, 13, 14, 15, 24, 25, 26, 27, 30, 31] then .terminate
  else .ignore

def signalExitStatus (signal : Nat) : Int := 128 + signal

/-! ### Errors and outcomes -/

inductive TaskError
  | badFd (fd : Int)
  | invalidCloneFlags (flags : BitVec 64)
  | invalidRobustListLength (length : Nat)
  | invalidSignal (signal : Nat)
  | invalidSignalMaskHow (how : Nat)
  | invalidSigsetSize (size : Nat)
  | invalidWaitOptions (options : BitVec 32)
  | noChild
  | pidExhausted
  | tidExhausted
  | unknownPid (pid : GuestPid)
  | unknownTid (tid : GuestTid)
  | unsupportedSignalTarget (pid : Int)
  | wouldBlock
  | elf
  | image
deriving DecidableEq, Repr

def TaskError.linuxErrno : TaskError → LinuxErrno
  | .badFd _ => ebadf
  | .invalidCloneFlags _ | .invalidRobustListLength _ | .invalidSignal _ | .invalidSignalMaskHow _
  | .invalidSigsetSize _ | .invalidWaitOptions _ | .unsupportedSignalTarget _ => einval
  | .noChild => echild
  | .pidExhausted | .tidExhausted => eagain
  | .unknownPid _ | .unknownTid _ => esrch
  | .wouldBlock => eagain
  | .elf | .image => enoexec

inductive SyscallReturn
  | success (value : Nat)
  | errno (errno : LinuxErrno)
deriving DecidableEq, Repr

/-- The register value of a return, `-errno` in 64 bits for an error. -/
def SyscallReturn.encode : SyscallReturn → Nat
  | .success value => value
  | .errno e => 2 ^ 64 - e.raw

/-- The fields of a syscall's trace that the runtime reads back. -/
inductive DecodedField
  | guestPid (pid : GuestPid)
  | guestTid (tid : GuestTid)
  | exitStatus (status : Int)
  | waitStatus (status : Nat)
deriving DecidableEq, Repr

structure SyscallOutcome where
  result : SyscallReturn
  decoded : List DecodedField
deriving DecidableEq, Repr

namespace SyscallOutcome

def success (value : Nat) : SyscallOutcome := ⟨.success value, []⟩

def errno (errno : LinuxErrno) : SyscallOutcome := ⟨.errno errno, []⟩

def unsupported : SyscallOutcome := .errno enosys

def withDecodedField (outcome : SyscallOutcome) (field : DecodedField) : SyscallOutcome :=
  { outcome with decoded := outcome.decoded ++ [field] }

end SyscallOutcome

def TaskError.intoOutcome (error : TaskError) : SyscallOutcome := .errno error.linuxErrno

/-! ### Registers -/

structure TlsState where
  fsBase : GuestAddress
  gsBase : GuestAddress
deriving DecidableEq, Repr

def TlsState.new : TlsState := ⟨0, 0⟩

structure GprState where
  rip : GuestAddress
  rsp : GuestAddress
  rax : Nat
  rbx : Nat
  rcx : Nat
  rdi : Nat
  rsi : Nat
  rdx : Nat
  rbp : Nat
  r10 : Nat
  r8 : Nat
  r9 : Nat
  r11 : Nat
  r12 : Nat
  r13 : Nat
  r14 : Nat
  r15 : Nat
  rflags : Nat
deriving DecidableEq, Repr

def GprState.new (rip rsp : GuestAddress) : GprState :=
  ⟨rip, rsp, 0, 0, 0, 0, 0, 0, 0, 0, 0, 0, 0, 0, 0, 0, 0, defaultRflags⟩

def GprState.withSyscallReturn (regs : GprState) (rip : GuestAddress) (rax : Nat) : GprState :=
  { regs with rip := rip, rax := rax }

/-! ### Syscall arguments -/

structure Wait4SyscallArgs where
  pid : Int
  wstatus : GuestAddress
  options : BitVec 32
  rusage : GuestAddress
deriving DecidableEq, Repr

def linuxWnohang : BitVec 32 := 1
def linuxWaitSupportedOptions : BitVec 32 := linuxWnohang

def Wait4SyscallArgs.noHang (args : Wait4SyscallArgs) : Bool := args.options &&& linuxWnohang != 0

def Wait4SyscallArgs.hasUnsupportedOptions (args : Wait4SyscallArgs) : Bool :=
  args.options &&& ~~~linuxWaitSupportedOptions != 0

structure CloneSyscallArgs where
  flags : BitVec 64
  childStack : GuestAddress
  parentTid : GuestAddress
  childTid : GuestAddress
  tls : GuestAddress
deriving DecidableEq, Repr

def cloneVm : BitVec 64 := 0x100
def cloneFs : BitVec 64 := 0x200
def cloneFiles : BitVec 64 := 0x400
def cloneSighand : BitVec 64 := 0x800
def cloneVfork : BitVec 64 := 0x4000
def cloneThread : BitVec 64 := 0x10000
def cloneSysvsem : BitVec 64 := 0x40000
def cloneSettls : BitVec 64 := 0x80000
def cloneParentSettid : BitVec 64 := 0x100000
def cloneChildCleartid : BitVec 64 := 0x200000
def cloneDetached : BitVec 64 := 0x400000
def cloneChildSettid : BitVec 64 := 0x1000000
def cloneExitSignalMask : BitVec 64 := 0xff

namespace CloneSyscallArgs

/-- `has_clone_vfork` and its siblings. -/
def has (args : CloneSyscallArgs) (flag : BitVec 64) : Bool := args.flags &&& flag != 0

def hasCloneVfork (args : CloneSyscallArgs) : Bool := args.has cloneVfork
def hasCloneThread (args : CloneSyscallArgs) : Bool := args.has cloneThread
def hasCloneSettls (args : CloneSyscallArgs) : Bool := args.has cloneSettls
def hasCloneChildCleartid (args : CloneSyscallArgs) : Bool := args.has cloneChildCleartid

end CloneSyscallArgs

/-! ### Tasks -/

/-- The queue a futex waiter is in: of one process when the futex is private, else of the address alone. -/
structure FutexWaitKey where
  pid : Option GuestPid
  uaddr : GuestAddress
deriving DecidableEq, Repr

namespace FutexWaitKey

def new (pid : GuestPid) (uaddr : GuestAddress) (isPrivate : Bool) : FutexWaitKey :=
  ⟨if isPrivate then some pid else none, uaddr⟩

/-- The derived order: process first, `None` below every process. -/
def rank (key : FutexWaitKey) : WithBot Nat ×ₗ Nat := toLex (key.pid, key.uaddr)

theorem rank_injective : Function.Injective rank := by
  rintro ⟨pid, uaddr⟩ ⟨pid', uaddr'⟩ h
  have hpair := Prod.mk.inj (toLex.injective h)
  exact congr (congrArg FutexWaitKey.mk hpair.1) hpair.2

instance : LinearOrder FutexWaitKey := LinearOrder.lift' rank rank_injective

end FutexWaitKey

inductive TaskState
  | runnable
  | waitingForChild (args : Wait4SyscallArgs)
  | waitingForVfork (childPid : GuestPid)
  | waitingForSignalSet (mask : SignalMask)
  | waitingForSignalSuspend (mask : SignalMask)
  | waitingForFd (fd : Int) (write : Bool)
  | waitingForFutex (key : FutexWaitKey)
  | waitingForSleep
  | exited (status : Int)
deriving DecidableEq, Repr

namespace TaskState

def isWaitingForChild : TaskState → Bool
  | .waitingForChild _ => true
  | _ => false

def isWaitingForFd : TaskState → Bool
  | .waitingForFd _ _ => true
  | _ => false

def isWaitingForFutex : TaskState → Bool
  | .waitingForFutex _ => true
  | _ => false

def isExited : TaskState → Bool
  | .exited _ => true
  | _ => false

end TaskState

structure GuestTask where
  tid : GuestTid
  pid : GuestPid
  regs : GprState
  tls : TlsState
  state : TaskState
  robustList : Option GuestAddress
  clearChildTid : Option GuestAddress
  signalMask : SignalMask
  pendingSignals : SortedSet Nat
  pendingSignalDelivery : Option Nat

/-! ### Processes -/

inductive ExitState
  | running
  | exited (status : Int)
deriving DecidableEq, Repr

def ExitState.isExited : ExitState → Bool
  | .exited _ => true
  | .running => false

structure GuestSignalAction where
  action : GuestAddress
  flags : BitVec 64
  restorer : GuestAddress
  mask : SignalMask
deriving DecidableEq, Repr

def GuestSignalAction.new (action : GuestAddress) : GuestSignalAction := ⟨action, 0, 0, 0⟩

structure SignalState where
  actions : SortedMap Nat GuestSignalAction

namespace SignalState

def default : SignalState := ⟨.empty⟩

def action (signals : SignalState) (signal : Nat) : Option GuestSignalAction := signals.actions.get? signal

def setAction (signals : SignalState) (signal : Nat) (action : GuestSignalAction) : SignalState :=
  ⟨signals.actions.insert signal action⟩

end SignalState

structure GuestFdEntry where
  description : String
  cloexec : Bool
deriving DecidableEq, Repr

structure GuestFdTable where
  entries : SortedMap Int GuestFdEntry

namespace GuestFdTable

def withStdio : GuestFdTable :=
  ⟨((SortedMap.empty.insert 0 ⟨"stdin", false⟩).insert 1 ⟨"stdout", false⟩).insert 2 ⟨"stderr", false⟩⟩

def closeOnExec (table : GuestFdTable) : GuestFdTable := ⟨table.entries.filter fun _ entry => !entry.cloexec⟩

end GuestFdTable

structure GuestExecutable where
  path : List UInt8
  bytes : List UInt8
deriving DecidableEq, Repr

structure GuestProgram where
  executable : GuestExecutable
  interpreter : Option GuestExecutable
  argv : List (List UInt8)
  envp : List (List UInt8)
deriving DecidableEq, Repr

/-- A mapping the loader asks for. -/
structure ImageVma where
  start : GuestAddress
  stop : GuestAddress
  read : Bool
  write : Bool
  execute : Bool
deriving DecidableEq, Repr

structure GuestMemoryRegion where
  start : GuestAddress
  bytes : List UInt8
deriving DecidableEq, Repr

/-- What the loader makes of a program. -/
structure GuestMemoryImage where
  entrypoint : GuestAddress
  initialStackPointer : GuestAddress
  brk : GuestAddress
  vmas : List ImageVma
  regions : List GuestMemoryRegion
deriving DecidableEq, Repr

structure GuestImageState where
  executable : GuestExecutable
  interpreter : Option GuestExecutable
  argv : List (List UInt8)
  envp : List (List UInt8)
  memory : GuestMemoryImage
deriving DecidableEq, Repr

/-- One page of code and one of stack, for the runs on fixed inputs. -/
def sampleImage : GuestImageState where
  executable := ⟨[0x2f, 0x61], []⟩
  interpreter := none
  argv := [[0x2f, 0x61]]
  envp := []
  memory := ⟨0x400000, 0x7ffff000, 0x401000, [⟨0x400000, 0x401000, true, false, true⟩], []⟩

structure GuestProcess where
  pid : GuestPid
  parent : Option GuestPid
  pgid : GuestPid
  sid : GuestPid
  image : GuestImageState
  files : GuestFdTable
  signals : SignalState
  pendingSignals : SortedSet Nat
  children : SortedSet GuestPid
  exitState : ExitState

/-- `linux_wait_exit_status`: the low byte of the status, in the second byte. -/
def linuxWaitExitStatus (status : Int) : Nat := ((status % 2 ^ 32).toNat &&& 0xff) <<< 8

structure WaitedChild where
  pid : GuestPid
  status : Int
deriving DecidableEq, Repr

def WaitedChild.waitStatus (waited : WaitedChild) : Nat := linuxWaitExitStatus waited.status

structure CompletedWait where
  tid : GuestTid
  pid : GuestPid
  args : Wait4SyscallArgs
  waited : WaitedChild
deriving DecidableEq, Repr

end Mcr.Task
