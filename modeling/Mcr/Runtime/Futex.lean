import Mcr.Runtime.FileSystem
import Mcr.Runtime.Timeouts
import Mcr.Task.FutexQueue

/-!
# The futex calls

A wait parks the caller in the queue of its key, with a deadline if it has a timeout; wakes and requeues take
waiters from the queue. The wait masks of the bitset calls are compared with nothing, the queues of futexes that
are not private hold the waiters of every process, and a timeout is always counted from the call.
-/

namespace Mcr.Runtime

open Net (LinuxErrno)
open Mcr.Task (FutexWaitKey GuestAddress GuestPid GuestTid SyscallOutcome efault eagain einval etimedout)

/-! ### Arguments -/

structure FutexSyscallArgs where
  uaddr : GuestAddress
  op : BitVec 32
  val : Nat
  timeout : GuestAddress
  uaddr2 : GuestAddress
  val3 : BitVec 32
deriving DecidableEq, Repr

def linuxFutexWait : BitVec 32 := 0
def linuxFutexWake : BitVec 32 := 1
def linuxFutexRequeue : BitVec 32 := 3
def linuxFutexCmpRequeue : BitVec 32 := 4
def linuxFutexWaitBitset : BitVec 32 := 9
def linuxFutexWakeBitset : BitVec 32 := 10
def linuxFutexCmdMask : BitVec 32 := 0x7f
def linuxFutexPrivateFlag : BitVec 32 := 0x80
def linuxFutexClockRealtime : BitVec 32 := 0x100

namespace FutexSyscallArgs

def command (args : FutexSyscallArgs) : BitVec 32 := args.op &&& linuxFutexCmdMask

def isPrivate (args : FutexSyscallArgs) : Bool := args.op &&& linuxFutexPrivateFlag != 0

def hasUnsupportedFlags (args : FutexSyscallArgs) : Bool :=
  args.op &&& ~~~(linuxFutexCmdMask ||| linuxFutexPrivateFlag ||| linuxFutexClockRealtime) != 0

def hasClockRealtime (args : FutexSyscallArgs) : Bool := args.op &&& linuxFutexClockRealtime != 0

def source (args : FutexSyscallArgs) (pid : GuestPid) : FutexWaitKey := .new pid args.uaddr args.isPrivate

def target (args : FutexSyscallArgs) (pid : GuestPid) : FutexWaitKey := .new pid args.uaddr2 args.isPrivate

end FutexSyscallArgs

/-! ### Time -/

abbrev Duration := Nat

def nanosPerSec : Nat := 10 ^ 9

/-- `Instant` holds its seconds in 64 bits. -/
def instantLimit : Instant := 2 ^ 64 * nanosPerSec

def instantCheckedAdd (now : Instant) (duration : Duration) : Option Instant :=
  if now + duration < instantLimit then some (now + duration) else none

/-- The readings of the host's clocks at a call. The host has not been up for half the range of `Instant`. -/
structure HostClock where
  now : Instant
  monotonic : Nat
  realtime : Nat
  recent : now < 2 ^ 63 * nanosPerSec

/-- The deadline that `futex_wait` and `nanosleep` keep: some day, where the sum does not fit. -/
def deadlineAfter (clock : HostClock) (timeout : Duration) : Instant :=
  (instantCheckedAdd clock.now timeout).getD (clock.now + 365 * 24 * 3600 * nanosPerSec)

section Memory

variable {μ : Type} [GuestMemoryAccess μ]

def readU32 (memory : μ) (addr : GuestAddress) : Except LinuxErrno Nat :=
  match GuestMemoryAccess.readBytes addr 4 memory with
  | some bytes => .ok (ofLeBytes bytes)
  | none => .error efault

def readI64 (memory : μ) (addr : GuestAddress) : Except LinuxErrno Int :=
  match GuestMemoryAccess.readBytes addr 8 memory with
  | some bytes => .ok (BitVec.ofNat 64 (ofLeBytes bytes)).toInt
  | none => .error efault

def readFutexTimeout (memory : μ) (addr : GuestAddress) : Except LinuxErrno (Option Duration) :=
  if addr = 0 then .ok none
  else do
    let tvSec ← readI64 memory addr
    let nsecAddr ← if addr + 8 < 2 ^ 64 then Except.ok (addr + 8) else .error efault
    let tvNsec ← readI64 memory nsecAddr
    if tvSec < 0 ∨ tvNsec < 0 ∨ (nanosPerSec : Int) ≤ tvNsec then .error einval
    else .ok (some (tvSec.toNat * nanosPerSec + tvNsec.toNat))

end Memory

/-! ### The calls -/

namespace RuntimeEvents

variable {μ : Type} [GuestMemoryAccess μ]

def pruneFutexTimeouts (s : RuntimeEvents) : RuntimeEvents :=
  { s with futexTimeouts := TimedWait.futex.prune s.tasks s.futexTimeouts }

def futexWait (s : RuntimeEvents) (memory : μ) (clock : HostClock) (pid : GuestPid) (tid : GuestTid)
    (args : FutexSyscallArgs) : SyscallOutcome × RuntimeEvents :=
  match readU32 memory args.uaddr with
  | .error e => (.errno e, s)
  | .ok value =>
    if value ≠ args.val then (.errno eagain, s)
    else
      match readFutexTimeout memory args.timeout with
      | .error e => (.errno e, s)
      | .ok timeout =>
        if timeout = some 0 then (.errno etimedout, s)
        else
          match s.parkFutexWait tid (args.source pid) (timeout.map (deadlineAfter clock)) with
          | (.ok (), s) => (.success 0, s)
          | (.error e, s) => (e.intoOutcome, s)

def futexWake (s : RuntimeEvents) (pid : GuestPid) (args : FutexSyscallArgs) : Nat × RuntimeEvents :=
  let (woken, tasks) := s.tasks.wakeFutexWaiters (args.source pid) args.val
  (woken, { s with tasks := tasks }.pruneFutexTimeouts)

/-- The end of `futex_requeue`; the limit of the move is in the place of the timeout. -/
def requeue (s : RuntimeEvents) (pid : GuestPid) (args : FutexSyscallArgs) : SyscallOutcome × RuntimeEvents :=
  let (affected, tasks) :=
    s.tasks.requeueFutexWaiters (args.source pid) (args.target pid) args.val args.timeout
  (.success affected, { s with tasks := tasks }.pruneFutexTimeouts)

def futexRequeue (s : RuntimeEvents) (memory : μ) (pid : GuestPid) (args : FutexSyscallArgs) (compare : Bool) :
    SyscallOutcome × RuntimeEvents :=
  if args.uaddr2 % 4 ≠ 0 then (.errno einval, s)
  else if compare then
    match readU32 memory args.uaddr with
    | .error e => (.errno e, s)
    | .ok value => if value ≠ args.val3.toNat then (.errno eagain, s) else s.requeue pid args
  else s.requeue pid args

def futex (s : RuntimeEvents) (memory : μ) (clock : HostClock) (pid : GuestPid) (tid : GuestTid)
    (args : FutexSyscallArgs) : SyscallOutcome × RuntimeEvents :=
  if args.hasUnsupportedFlags then (.errno einval, s)
  else if args.uaddr % 4 ≠ 0 then (.errno einval, s)
  else if args.hasClockRealtime ∧ args.command ≠ linuxFutexWaitBitset then (.errno einval, s)
  else if args.command = linuxFutexWait then s.futexWait memory clock pid tid args
  else if args.command = linuxFutexWaitBitset then
    if args.val3 = 0 then (.errno einval, s) else s.futexWait memory clock pid tid args
  else if args.command = linuxFutexWake then
    let (woken, s) := s.futexWake pid args
    (.success woken, s)
  else if args.command = linuxFutexWakeBitset then
    if args.val3 = 0 then (.errno einval, s)
    else
      let (woken, s) := s.futexWake pid args
      (.success woken, s)
  else if args.command = linuxFutexRequeue then s.futexRequeue memory pid args false
  else if args.command = linuxFutexCmpRequeue then s.futexRequeue memory pid args true
  else (.errno einval, s)

/-- A wake at the end of a thread, on the private queue of an address or on the other one. -/
def exitWake (s : RuntimeEvents) (pid : GuestPid) (addr : GuestAddress) (isPrivate : Bool) : Nat × RuntimeEvents :=
  let (woken, tasks) := s.tasks.wakeFutexWaiters (.new pid addr isPrivate) (2 ^ 32 - 1)
  (woken, { s with tasks := tasks })

end RuntimeEvents

end Mcr.Runtime
