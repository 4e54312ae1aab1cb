import Mcr.Runtime.Futex
import Mcr.Task.Exec

/-!
# Signals in the runtime

A task that is given a turn is first delivered a signal, if one is in its slot or pending and not blocked: a handler
runs on a frame that is written to the guest's stack, an ignored signal is dropped, and the default action may end
the process. Otherwise the task makes its system call; those below take or mask signals, with arguments in the
guest's memory.
-/

namespace Mcr.Runtime

open Net (LinuxErrno)
open Mcr.Task (GprState GuestAddress GuestKernel GuestPid GuestSignalAction GuestTask GuestTid SignalMask
  SyscallOutcome defaultSignalAction linuxSigDfl linuxSigIgn signalExitStatus)

/-! ### Signal frames -/

def linuxSaRestorer : BitVec 64 := 0x04000000
def linuxSaOnstack : BitVec 64 := 0x08000000
def linuxSaNodefer : BitVec 64 := 0x40000000
def linuxSegvMaperr : Nat := 1
def linuxSsDisable : BitVec 32 := 2
def x86EflagsTf : BitVec 64 := 0x100
def x86EflagsDf : BitVec 64 := 0x400
def x86EflagsRf : BitVec 64 := 0x10000
def x8664SignalRedZone : Nat := 128
def x8664FrameAlignment : Nat := 16
def x8664RtSigframeSize : Nat := 440

structure GuestSignalAltStack where
  sp : GuestAddress
  flags : BitVec 32
  size : Nat
deriving DecidableEq, Repr

namespace GuestSignalAltStack

/-- `GuestSignalAltStack::default`. -/
def disabledStack : GuestSignalAltStack := ⟨0, linuxSsDisable, 0⟩

def disabled (stack : GuestSignalAltStack) : Bool := stack.flags &&& linuxSsDisable != 0

end GuestSignalAltStack

def leBytes (count value : Nat) : List UInt8 := (List.range count).map fun i => UInt8.ofNat (value / 256 ^ i)

theorem length_leBytes (count value : Nat) : (leBytes count value).length = count := by
  rw [leBytes, List.length_map, List.length_range]

theorem leBytes_succ (count value : Nat) :
    leBytes (count + 1) value = UInt8.ofNat value :: leBytes count (value / 256) := by
  unfold leBytes
  rw [List.range_succ_eq_map, List.map_cons, List.map_map, pow_zero, Nat.div_one]
  congr 1
  apply List.map_congr_left
  intro i _
  rw [Function.comp_apply, Nat.div_div_eq_div_mul, ← Nat.pow_succ']

theorem ofLeBytes_leBytes (count value : Nat) : ofLeBytes (leBytes count value) = value % 256 ^ count := by
  induction count generalizing value with
  | zero =>
      rw [pow_zero, Nat.mod_one]
      rfl
  | succ count ih =>
      rw [leBytes_succ, show ofLeBytes (UInt8.ofNat value :: leBytes count (value / 256)) =
        (UInt8.ofNat value).toNat + 256 * ofLeBytes (leBytes count (value / 256)) from rfl, ih, UInt8.toNat_ofNat',
        pow_succ' 256 count, Nat.mod_mul]

def frameAdd (a b : GuestAddress) : Except LinuxErrno GuestAddress :=
  if a + b < 2 ^ 64 then .ok (a + b) else .error efault

def frameSub (a b : GuestAddress) : Except LinuxErrno GuestAddress := if b ≤ a then .ok (a - b) else .error efault

def onSignalStack (rsp : GuestAddress) (stack : GuestSignalAltStack) : Bool :=
  stack.sp + stack.size < 2 ^ 64 && stack.sp ≤ rsp && rsp < stack.sp + stack.size

def signalFrameAddress (currentRsp : GuestAddress) (flags : BitVec 64) (altStack : Option GuestSignalAltStack) :
    Except LinuxErrno GuestAddress := do
  let sp ← frameSub currentRsp x8664SignalRedZone
  let sp ← match altStack with
    | some stack =>
      if flags &&& linuxSaOnstack ≠ 0 ∧ !stack.disabled ∧ !onSignalStack currentRsp stack then
        frameAdd stack.sp stack.size
      else .ok sp
    | none => .ok sp
  let sp ← frameSub sp x8664RtSigframeSize
  frameSub (sp / x8664FrameAlignment * x8664FrameAlignment) 8

def signalStackStores (addr : GuestAddress) (altStack : Option GuestSignalAltStack) :
    List (GuestAddress × List UInt8) :=
  let stack := altStack.getD .disabledStack
  [(addr, leBytes 8 stack.sp), (addr + 8, leBytes 4 stack.flags.toNat), (addr + 8 + 4, leBytes 4 0),
    (addr + 16, leBytes 8 stack.size)]

/-- `write_sigcontext`. -/
def sigcontextStores (addr : GuestAddress) (regs : GprState) (signalMask : SignalMask) (faultAddress : GuestAddress) :
    List (GuestAddress × List UInt8) :=
  [(addr, leBytes 8 regs.r8), (addr + 8, leBytes 8 regs.r9), (addr + 16, leBytes 8 regs.r10),
    (addr + 24, leBytes 8 regs.r11), (addr + 32, leBytes 8 regs.r12), (addr + 40, leBytes 8 regs.r13),
    (addr + 48, leBytes 8 regs.r14), (addr + 56, leBytes 8 regs.r15), (addr + 64, leBytes 8 regs.rdi),
    (addr + 72, leBytes 8 regs.rsi), (addr + 80, leBytes 8 regs.rbp), (addr + 88, leBytes 8 regs.rbx),
    (addr + 96, leBytes 8 regs.rdx), (addr + 104, leBytes 8 regs.rax), (addr + 112, leBytes 8 regs.rcx),
    (addr + 120, leBytes 8 regs.rsp), (addr + 128, leBytes 8 regs.rip), (addr + 136, leBytes 8 regs.rflags),
    (addr + 144, leBytes 2 0x33), (addr + 146, leBytes 2 0), (addr + 148, leBytes 2 0), (addr + 150, leBytes 2 0x2b),
    (addr + 152, leBytes 8 0), (addr + 160, leBytes 8 14), (addr + 168, leBytes 8 signalMask.toNat),
    (addr + 176, leBytes 8 faultAddress), (addr + 184, leBytes 8 0)]

/-- `write_siginfo`. -/
def siginfoStores (addr : GuestAddress) (signal code : Nat) (faultAddress : GuestAddress) :
    List (GuestAddress × List UInt8) :=
  [(addr, leBytes 4 signal), (addr + 4, leBytes 4 0), (addr + 8, leBytes 4 code), (addr + 16, leBytes 8 faultAddress)]

/-- The writes of `setup_rt_signal_frame`, in order. -/
def signalFrameStores (frame : GuestAddress) (regs : GprState) (action : GuestSignalAction) (signal : Nat)
    (signalMask : SignalMask) (faultAddress : GuestAddress) (altStack : Option GuestSignalAltStack) :
    List (GuestAddress × List UInt8) :=
  let uc := frame + 8
  [(frame, List.replicate x8664RtSigframeSize 0), (frame, leBytes 8 action.restorer), (uc, leBytes 8 0),
      (uc + 8, leBytes 8 0)] ++
    signalStackStores (uc + 16) altStack ++ sigcontextStores (uc + 40) regs signalMask faultAddress ++
    [(uc + 296, leBytes 8 signalMask.toNat)] ++ siginfoStores (frame + 312) signal linuxSegvMaperr faultAddress

def handlerRegisters (frame : GuestAddress) (regs : GprState) (action : GuestSignalAction) (signal : Nat) : GprState :=
  { regs with
    rdi := signal
    rax := 0
    rsi := frame + 312
    rdx := frame + 8
    rip := action.action
    rsp := frame
    rflags := (BitVec.ofNat 64 regs.rflags &&& ~~~(x86EflagsDf ||| x86EflagsRf ||| x86EflagsTf)).toNat }

def hasHandler (action : GuestSignalAction) : Bool :=
  !(action.action = linuxSigDfl || action.action = linuxSigIgn || action.flags &&& linuxSaRestorer == 0 ||
    action.restorer = 0)

section Memory

variable {μ : Type} [GuestMemoryAccess μ]

def storeAll (stores : List (GuestAddress × List UInt8)) : Prog μ LinuxErrno Unit :=
  .forEach stores fun (addr, bytes) => .mapError (fun _ => efault) (GuestMemoryAccess.writeBytes addr bytes)

def setupRtSignalFrame (regs : GprState) (action : GuestSignalAction) (signal : Nat) (signalMask : SignalMask)
    (faultAddress : GuestAddress) (altStack : Option GuestSignalAltStack) : Prog μ LinuxErrno GprState :=
  if !hasHandler action then .throw einval
  else do
    let frame ← .ofExcept (signalFrameAddress regs.rsp action.flags altStack)
    let uc ← .ofExcept (frameAdd frame 8)
    let _ ← .ofExcept (frameAdd uc 40)
    let _ ← .ofExcept (frameAdd frame 312)
    storeAll (signalFrameStores frame regs action signal signalMask faultAddress altStack)
    pure (handlerRegisters frame regs action signal)

def readGuestU64 (memory : μ) (addr : GuestAddress) : Except LinuxErrno Nat :=
  match GuestMemoryAccess.readBytes addr 8 memory with
  | some bytes => .ok (ofLeBytes bytes)
  | none => .error efault

def readSigcontext (memory : μ) (addr : GuestAddress) : Except LinuxErrno GprState := do
  let r8 ← readGuestU64 memory addr
  let r9 ← readGuestU64 memory (addr + 8)
  let r10 ← readGuestU64 memory (addr + 16)
  let r11 ← readGuestU64 memory (addr + 24)
  let r12 ← readGuestU64 memory (addr + 32)
  let r13 ← readGuestU64 memory (addr + 40)
  let r14 ← readGuestU64 memory (addr + 48)
  let r15 ← readGuestU64 memory (addr + 56)
  let rdi ← readGuestU64 memory (addr + 64)
  let rsi ← readGuestU64 memory (addr + 72)
  let rbp ← readGuestU64 memory (addr + 80)
  let rbx ← readGuestU64 memory (addr + 88)
  let rdx ← readGuestU64 memory (addr + 96)
  let rax ← readGuestU64 memory (addr + 104)
  let rcx ← readGuestU64 memory (addr + 112)
  let rsp ← readGuestU64 memory (addr + 120)
  let rip ← readGuestU64 memory (addr + 128)
  let rflags ← readGuestU64 memory (addr + 136)
  pure
    { rip := rip, rsp := rsp, rax := rax, rbx := rbx, rcx := rcx, rdi := rdi, rsi := rsi, rdx := rdx, rbp := rbp
      r10 := r10, r8 := r8, r9 := r9, r11 := r11, r12 := r12, r13 := r13, r14 := r14, r15 := r15, rflags := rflags }

/-- `restore_rt_signal_frame`: the mask and the registers that the frame keeps. -/
def restoreRtSignalFrame (memory : μ) (regs : GprState) : Except LinuxErrno (SignalMask × GprState) := do
  let frame ← frameSub regs.rsp 8
  let uc ← frameAdd frame 8
  let mcontext ← frameAdd uc 40
  let signalMask ← readGuestU64 memory (uc + 296)
  let restored ← readSigcontext memory mcontext
  pure (BitVec.ofNat 64 signalMask, restored)

end Memory

/-! ### Delivery -/

def signalMaskFor (signal : Nat) : SignalMask := if signal = 0 ∨ 64 < signal then 0 else 1#64 <<< (signal - 1)

/-- What becomes of the turn of a task when a signal is looked for. A signal with a handler that has no restorer is
taken, and dropped without running the handler. -/
inductive Delivery
  | idle
  | delivered (signal : Nat)
  | dropped (signal : Nat)
  | ended (signal : Nat)
  | failed (signal : Nat) (errno : LinuxErrno)
deriving DecidableEq, Repr

def deliverDefaultSignalAction (tasks : GuestKernel) (pid : GuestPid) (signal : Nat) : Delivery × GuestKernel :=
  match defaultSignalAction signal with
  | .ignore => (.delivered signal, tasks)
  | .terminate =>
    match tasks.exitGroup pid (signalExitStatus signal) with
    | (⟨.errno e, _⟩, tasks) => (.failed signal e, tasks)
    | (⟨.success _, _⟩, tasks) => (.ended signal, tasks)

/-- The registers of a task that nothing has changed since it was given its turn. -/
def setRegsIfExpected (expected regs : GprState) (task : GuestTask) : GuestTask :=
  if task.regs = expected then { task with regs := regs } else task

section Memory

variable {μ : Type} [GuestMemoryAccess μ]

/-- The end of `try_deliver_pending_guest_signal`, for a signal with an action that runs a handler. -/
def runHandler (tasks : GuestKernel) (memory : μ) (altStack : Option GuestSignalAltStack) (tid : GuestTid)
    (expected : GprState) (action : GuestSignalAction) (signal : Nat) (signalMask : SignalMask) :
    Delivery × GuestKernel :=
  match (setupRtSignalFrame expected action signal signalMask 0 altStack memory).1 with
  | .error e => (.failed signal e, tasks)
  | .ok regs =>
    let blocked := signalMask ||| action.mask
    let blocked := if action.flags &&& linuxSaNodefer = 0 then blocked ||| signalMaskFor signal else blocked
    let (_, tasks) := tasks.setTaskSignalMask tid blocked
    (.delivered signal, tasks.modifyTask tid (setRegsIfExpected expected regs))

def tryDeliverPendingGuestSignal (tasks : GuestKernel) (memory : μ) (altStack : Option GuestSignalAltStack)
    (tid : GuestTid) (pid : GuestPid) (expected : GprState) : Delivery × GuestKernel :=
  match tasks.takePendingSignalForReturnToUser tid with
  | (none, tasks) => (.idle, tasks)
  | (some signal, tasks) =>
    let action := (tasks.process pid).bind fun process => process.signals.action signal
    match tasks.task tid with
    | none => (.failed signal Task.esrch, tasks)
    | some task =>
      match action with
      | none => deliverDefaultSignalAction tasks pid signal
      | some action =>
        if action.action = linuxSigDfl then deliverDefaultSignalAction tasks pid signal
        else if action.action = linuxSigIgn then (.delivered signal, tasks)
        else if action.flags &&& linuxSaRestorer = 0 ∨ action.restorer = 0 then (.dropped signal, tasks)
        else runHandler tasks memory altStack tid expected action signal task.signalMask

/-! ### The calls -/

def linuxSiginfoSize : Nat := 128

def writeGuestSiginfo (addr : GuestAddress) (signal : Nat) : Prog μ LinuxErrno Unit :=
  storeAll [(addr, leBytes 4 signal ++ List.replicate (linuxSiginfoSize - 4) 0)]

structure RtSigtimedwaitArgs where
  set : GuestAddress
  info : GuestAddress
  timeout : GuestAddress
  sigsetsize : Nat
deriving DecidableEq, Repr

/-- `rt_sigtimedwait`; the timeout is read as that of a futex wait is. -/
def rtSigtimedwait (tasks : GuestKernel) (memory : μ) (tid : GuestTid) (args : RtSigtimedwaitArgs) :
    SyscallOutcome × GuestKernel :=
  if args.sigsetsize ≠ Task.linuxKernelSigsetSize then (.errno einval, tasks)
  else if args.set = 0 then (.errno efault, tasks)
  else
    match readGuestU64 memory args.set, readFutexTimeout memory args.timeout with
    | .error e, _ => (.errno e, tasks)
    | .ok _, .error e => (.errno e, tasks)
    | .ok mask, .ok timeout =>
      let (outcome, tasks) := tasks.rtSigtimedwaitCurrent tid (BitVec.ofNat 64 mask) args.sigsetsize timeout.isNone
      match outcome.result with
      | .success signal =>
        if signal ≠ 0 ∧ args.info ≠ 0 then
          match (writeGuestSiginfo args.info signal memory).1 with
          | .error e => (.errno e, tasks)
          | .ok () => (outcome, tasks)
        else (outcome, tasks)
      | .errno _ => (outcome, tasks)

/-- `rt_sigsuspend`: the kernel takes the signals that the temporary mask does not block. -/
def rtSigsuspend (tasks : GuestKernel) (memory : μ) (tid : GuestTid) (maskAddr : GuestAddress) (sigsetsize : Nat) :
    SyscallOutcome × GuestKernel :=
  if maskAddr = 0 then (.errno efault, tasks)
  else
    match readGuestU64 memory maskAddr with
    | .error e => (.errno e, tasks)
    | .ok temporaryMask => tasks.rtSigsuspendCurrent tid (~~~BitVec.ofNat 64 temporaryMask) sigsetsize

def rtSigreturn (tasks : GuestKernel) (memory : μ) (tid : GuestTid) (expected regs : GprState) :
    Except LinuxErrno Unit × GuestKernel :=
  match restoreRtSignalFrame memory regs with
  | .error e => (.error e, tasks)
  | .ok (signalMask, restored) =>
    let (_, tasks) := tasks.setTaskSignalMask tid signalMask
    (.ok (), tasks.modifyTask tid (setRegsIfExpected expected restored))

end Memory

end Mcr.Runtime
