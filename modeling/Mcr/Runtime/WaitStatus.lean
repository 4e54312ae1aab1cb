import Mcr.Lib.Digits
import Mcr.Runtime.Signals
import Mcr.Task.Endings

/-!
# The status words of waits

A `wait4` that finds an exited child tells the runtime its status word in the fields of the trace, as text that the
runtime reads back; a wait that is resumed hands the word over as it is. Either way the runtime stores it in the
memory of the process that waits. The history of a run says how each process ended, and the words are compared with
it.
-/

namespace Mcr.Runtime

open Net (LinuxErrno)
open Mcr.Task (CompletedWait DecodedField Ending ExitState GuestAddress GuestImageState GuestKernel GuestPid
  GuestProgram KernelCall KernelOp KernelReply SyscallOutcome SyscallRequest TaskError WaitedChild
  defaultSignalAction lowExitStatus sampleImage signalExitStatus)

/-! ### Fields as text -/

structure TraceField where
  name : String
  value : List Char
deriving DecidableEq, Repr

/-- The decimal text of a signed number. -/
def decimal : Int → List Char
  | .ofNat n => Nat.toDigits 10 n
  | .negSucc n => '-' :: Nat.toDigits 10 (n + 1)

def traceField : DecodedField → TraceField
  | .guestPid pid => ⟨"guest_pid", Nat.toDigits 10 pid⟩
  | .guestTid tid => ⟨"guest_tid", Nat.toDigits 10 tid⟩
  | .exitStatus status => ⟨"exit_status", decimal status⟩
  | .waitStatus status => ⟨"wait_status", '0' :: 'x' :: Nat.toDigits 16 status⟩

def fieldValue (name : String) (decoded : List TraceField) : Option (List Char) :=
  (decoded.find? fun field => field.name = name).map TraceField.value

def forkChildPid (decoded : List TraceField) : Option GuestPid :=
  (fieldValue "guest_pid" decoded).bind (fromStrRadix (2 ^ 32) 10)

def waitStatusFromDecoded (decoded : List TraceField) : Option Nat :=
  (fieldValue "wait_status" decoded).bind fun value =>
    match value with
    | '0' :: 'x' :: hex => fromStrRadix (2 ^ 32) 16 hex
    | value => fromStrRadix (2 ^ 32) 10 value

theorem forkChildPid_waited {waited : WaitedChild} (h : waited.pid < 2 ^ 32) :
    forkChildPid ((GuestKernel.waitedOutcome waited).decoded.map traceField) = some waited.pid :=
  fromStrRadix_toDigits (by decide) (by decide) h

theorem waitStatus_lt (waited : WaitedChild) : waited.waitStatus < 2 ^ 32 := by
  unfold WaitedChild.waitStatus Task.linuxWaitExitStatus
  have hbyte : (waited.status % 2 ^ 32).toNat &&& 0xff < 256 := Nat.lt_of_le_of_lt Nat.and_le_right (by decide)
  rw [Nat.shiftLeft_eq]
  omega

theorem waitStatusFromDecoded_waited (waited : WaitedChild) :
    waitStatusFromDecoded ((GuestKernel.waitedOutcome waited).decoded.map traceField) = some waited.waitStatus :=
  fromStrRadix_toDigits (by decide) (by decide) (waitStatus_lt waited)

/-! ### Stores -/

structure WaitStore where
  pid : GuestPid
  wstatus : GuestAddress
  waitStatus : Nat
deriving DecidableEq, Repr

namespace WaitStore

def bytes (store : WaitStore) : List UInt8 := leBytes 4 store.waitStatus

variable {μ : Type} [GuestMemoryAccess μ]

/-- The bytes go to the memory of the process, if it has one. -/
def write (store : WaitStore) : Prog (GuestPid → Option μ) LinuxErrno Unit := fun memories =>
  match memories store.pid with
  | none => (.error Task.esrch, memories)
  | some memory =>
    match GuestMemoryAccess.writeBytes store.wstatus store.bytes memory with
    | (.ok (), memory) => (.ok (), Function.update memories store.pid (some memory))
    | (.error (), memory) => (.error efault, Function.update memories store.pid (some memory))

/-- `write_wait_status_to_process`, where the children that still share the memory first get their own. -/
def writeWaitStatusToProcess (materialize : GuestPid → Prog (GuestPid → Option μ) LinuxErrno Unit)
    (store : WaitStore) : Prog (GuestPid → Option μ) LinuxErrno Unit :=
  if store.wstatus = 0 then pure ()
  else do
    materialize store.pid
    store.write

end WaitStore

/-- `write_wait_status_from_outcome`, of a `wait4` that has found a child. -/
def storeFromOutcome (request : SyscallRequest) (outcome : SyscallOutcome) : Option WaitStore :=
  match request.syscall, outcome.result with
  | .wait4, .success _ =>
    (forkChildPid (outcome.decoded.map traceField)).bind fun _ =>
      (waitStatusFromDecoded (outcome.decoded.map traceField)).map fun waitStatus =>
        ⟨request.pid, request.arg 1, waitStatus⟩
  | _, _ => none

def storeFromWait (wait : CompletedWait) : WaitStore := ⟨wait.pid, wait.args.wstatus, wait.waited.waitStatus⟩

/-- The two ways from the kernel to the runtime that hand children over. -/
inductive RuntimeWait
  | dispatch (request : SyscallRequest)
  | resumeWaitingTasks

namespace RuntimeWait

def call : RuntimeWait → KernelCall
  | .dispatch request => .dispatch request
  | .resumeWaitingTasks => .direct .resumeWaitingTasks

def stores : RuntimeWait → KernelReply → List WaitStore
  | .dispatch request, .outcome outcome => (storeFromOutcome request outcome).toList
  | .resumeWaitingTasks, .completed waits => waits.map storeFromWait
  | _, _ => []

end RuntimeWait

/-! ### Histories -/

def recordEnding (history : GuestPid → Option Ending) (ended : Option GuestPid) (ending : Ending) :
    GuestPid → Option Ending :=
  match ended with
  | none => history
  | some pid => Function.update history pid (some ending)

def endingOf : KernelCall → Ending
  | .dispatch request => .exited (request.arg 0)
  | .direct _ => .exited 0

def killedBy (k : GuestKernel) (pid : GuestPid) (signal : Nat) : Option GuestPid :=
  match defaultSignalAction signal with
  | .ignore => none
  | .terminate => k.endedBy (.exitGroup pid (signalExitStatus signal))

/-- The runs of the kernel in which processes end by their calls and by signals, each with the history of the
endings in it. -/
inductive Lived (load : GuestProgram → Except TaskError GuestImageState) (k₀ : GuestKernel) :
    (GuestPid → Option Ending) → GuestKernel → Prop
  | start : Lived load k₀ (fun _ => none) k₀
  | call {history : GuestPid → Option Ending} {k k' : GuestKernel} {reply : KernelReply} (h : Lived load k₀ history k)
      (call : KernelCall) (hdirect : ∀ op, call = .direct op → op.exits = false)
      (hrun : call.run load k = some (reply, k')) :
      Lived load k₀ (recordEnding history ((call.operation k).bind k.endedBy) (endingOf call)) k'
  | fatal {history : GuestPid → Option Ending} {k : GuestKernel} (h : Lived load k₀ history k) (pid : GuestPid)
      (signal : Nat) :
      Lived load k₀ (recordEnding history (killedBy k pid signal) (.killed signal))
        (deliverDefaultSignalAction k pid signal).2

/-- The status of every process that has exited is that of its ending. -/
def Recorded (history : GuestPid → Option Ending) (k : GuestKernel) : Prop :=
  ∀ pid status, k.exitOf pid = some (.exited status) →
    ∃ ending, history pid = some ending ∧ ending.Possible ∧ ending.status = status

variable {load : GuestProgram → Except TaskError GuestImageState} {k₀ k k' : GuestKernel}
  {history : GuestPid → Option Ending}

theorem Recorded.kept (h : Recorded history k) (hkept : k.KeepsExits k') : Recorded history k' :=
  fun pid status hexit => h pid status (hkept pid status hexit)

theorem Recorded.ended (hk : k.Consistent) (h : Recorded history k) {op : KernelOp} (hop : op.exits = true)
    {ending : Ending} (hpossible : ending.Possible) (hstatus : ending.status = op.exitStatus) :
    Recorded (recordEnding history (k.endedBy op) ending) (op.run load k).2 := by
  intro j status hexit
  rw [GuestKernel.exitOf_of_exit hk hop] at hexit
  unfold recordEnding
  cases hended : k.endedBy op with
  | none =>
      rw [hended, if_neg nofun] at hexit
      exact h j status hexit
  | some pid =>
      dsimp only
      rw [hended] at hexit
      by_cases hj : pid = j
      · rw [if_pos (congrArg some hj)] at hexit
        rw [hj, Function.update_self]
        exact ⟨ending, rfl, hpossible, hstatus.trans (ExitState.exited.inj (Option.some.inj hexit))⟩
      · rw [if_neg fun heq => hj (Option.some.inj heq)] at hexit
        rw [Function.update_of_ne (Ne.symm hj)]
        exact h j status hexit

theorem endedBy_of_no_exit {op : KernelOp} (h : op.exits = false) : k.endedBy op = none := by
  cases op with
  | exitTask _ _ => nomatch h
  | exitGroup _ _ => nomatch h
  | _ => rfl

theorem exitStatus_of_operation {request : SyscallRequest} {op : KernelOp}
    (h : (KernelCall.dispatch request).operation k = some op) (hop : op.exits = true) :
    op.exitStatus = lowExitStatus (request.arg 0) := by
  simp only [KernelCall.operation] at h
  cases htask : k.task request.tid with
  | none =>
      rw [htask] at h
      cases h
  | some task =>
      simp only [htask] at h
      split at h
      · cases h
      · unfold SyscallRequest.operation at h
        cases hsyscall : request.syscall <;> simp only [hsyscall, Option.some.injEq, Option.map_eq_some_iff] at h
        case exit => rw [← h]; rfl
        case exitGroup => rw [← h]; rfl
        case execve =>
            obtain ⟨_, _, rfl⟩ := h
            cases hop
        all_goals first
          | (rw [← h] at hop; exact absurd hop Bool.false_ne_true)
          | cases h

theorem Recorded.call (hk : k.Consistent) (h : Recorded history k) {call : KernelCall} {reply : KernelReply}
    (hdirect : ∀ op, call = .direct op → op.exits = false) (hrun : call.run load k = some (reply, k')) :
    Recorded (recordEnding history ((call.operation k).bind k.endedBy) (endingOf call)) k' := by
  rw [KernelCall.run_state hrun]
  cases hop : call.operation k with
  | none => exact h
  | some op =>
      rw [Option.bind_some]
      cases hexits : op.exits with
      | false =>
          rw [endedBy_of_no_exit hexits]
          exact h.kept (GuestKernel.keepsExits_of_op hk hexits)
      | true =>
          cases call with
          | direct op' =>
              obtain rfl := Option.some.inj hop
              nomatch (hdirect op' rfl).symm.trans hexits
          | dispatch request => exact h.ended hk hexits trivial (exitStatus_of_operation hop hexits).symm

theorem deliverDefaultSignalAction_terminate (load : GuestProgram → Except TaskError GuestImageState) {pid : GuestPid}
    {signal : Nat} (h : defaultSignalAction signal = .terminate) :
    (deliverDefaultSignalAction k pid signal).2 =
      ((KernelOp.exitGroup pid (signalExitStatus signal)).run load k).2 := by
  change _ = (k.exitGroup pid (signalExitStatus signal)).2
  simp only [deliverDefaultSignalAction, h]
  rcases k.exitGroup pid (signalExitStatus signal) with ⟨⟨_ | _, _⟩, _⟩ <;> rfl

theorem Recorded.fatal (hk : k.Consistent) (h : Recorded history k) (pid : GuestPid) (signal : Nat) :
    Recorded (recordEnding history (killedBy k pid signal) (.killed signal))
      (deliverDefaultSignalAction k pid signal).2 := by
  cases haction : defaultSignalAction signal with
  | ignore =>
      simp only [killedBy, deliverDefaultSignalAction, haction]
      exact h
  | terminate =>
      simp only [killedBy, haction]
      rw [deliverDefaultSignalAction_terminate (fun _ => .ok sampleImage) haction]
      exact h.ended hk rfl haction rfl

theorem Lived.recorded (h : Lived load k₀ history k) (hk₀ : k₀.Consistent) (hsmall : k₀.SmallPids)
    (hrunning : Recorded (fun _ => none) k₀) : k.Consistent ∧ k.SmallPids ∧ Recorded history k := by
  induction h with
  | start => exact ⟨hk₀, hsmall, hrunning⟩
  | call _ call hdirect hrun ih =>
      obtain ⟨hk, hpids, hrecorded⟩ := ih
      refine ⟨?_, ?_, hrecorded.call hk hdirect hrun⟩
      · rw [KernelCall.run_state hrun]
        cases call.operation _ with
        | none => exact hk
        | some op => exact hk.op op
      · rw [KernelCall.run_state hrun]
        cases call.operation _ with
        | none => exact hpids
        | some op => exact GuestKernel.smallPids_of_op hk hpids op
  | @fatal history k _ pid signal ih =>
      obtain ⟨hk, hpids, hrecorded⟩ := ih
      refine ⟨?_, ?_, hrecorded.fatal hk pid signal⟩
      · cases haction : defaultSignalAction signal with
        | ignore =>
            simp only [deliverDefaultSignalAction, haction]
            exact hk
        | terminate =>
            rw [deliverDefaultSignalAction_terminate load haction]
            exact hk.op _
      · cases haction : defaultSignalAction signal with
        | ignore =>
            simp only [deliverDefaultSignalAction, haction]
            exact hpids
        | terminate =>
            rw [deliverDefaultSignalAction_terminate load haction]
            exact GuestKernel.smallPids_of_op hk hpids _

/-! ### Waits -/

theorem wait4_outcome (k : GuestKernel) (tid : Task.GuestTid) (args : Task.Wait4SyscallArgs)
    (returnRip : GuestAddress) :
    (∃ waited, (k.wait4CurrentWithReturn tid args returnRip).1 = GuestKernel.waitedOutcome waited) ∨
      (k.wait4CurrentWithReturn tid args returnRip).1.decoded = [] := by
  unfold GuestKernel.wait4CurrentWithReturn
  cases k.task tid with
  | none => exact Or.inr rfl
  | some task =>
      dsimp only
      rcases k.wait4Child task.pid args with ⟨e | _ | waited, k₁⟩
      · cases e with
        | wouldBlock =>
            dsimp only
            cases k₁.task tid <;> exact Or.inr rfl
        | _ => exact Or.inr rfl
      · exact Or.inr rfl
      · exact Or.inl ⟨waited, rfl⟩

theorem dispatch_reports {request : SyscallRequest} {outcome : SyscallOutcome}
    (hrun : (KernelCall.dispatch request).run load k = some (.outcome outcome, k')) :
    (outcome.handed = [] ∧ storeFromOutcome request outcome = none) ∨
      ∃ waited, request.syscall = .wait4 ∧ outcome = GuestKernel.waitedOutcome waited := by
  by_cases hsyscall : request.syscall = .wait4
  · simp only [KernelCall.run, Option.map_eq_some_iff, Prod.exists] at hrun
    obtain ⟨outcome', k₁, hdispatch, hreply⟩ := hrun
    obtain rfl : outcome' = outcome := KernelReply.outcome.inj (congrArg Prod.fst hreply)
    have hnothing (hdecoded : outcome'.decoded = []) :
        outcome'.handed = [] ∧ storeFromOutcome request outcome' = none := by
      unfold SyscallOutcome.handed storeFromOutcome
      rw [hdecoded, hsyscall]
      refine ⟨rfl, ?_⟩
      cases outcome'.result <;> rfl
    unfold GuestKernel.dispatchForCurrentTask at hdispatch
    cases htask : k.task request.tid with
    | none =>
        simp only [htask, Option.some.injEq, Prod.mk.injEq] at hdispatch
        exact Or.inl (hnothing (hdispatch.1 ▸ rfl))
    | some task =>
        simp only [htask] at hdispatch
        by_cases hpid : task.pid ≠ request.pid
        · rw [if_pos hpid, Option.some.injEq, Prod.mk.injEq] at hdispatch
          exact Or.inl (hnothing (hdispatch.1 ▸ rfl))
        · rw [if_neg hpid] at hdispatch
          simp only [GuestKernel.dispatchTask, hsyscall, Option.some.injEq] at hdispatch
          obtain rfl := congrArg Prod.fst hdispatch
          rcases wait4_outcome k request.tid ⟨request.argI32 0, request.arg 1, BitVec.ofNat 32 (request.arg 2),
            request.arg 3⟩ request.childReturnRip with ⟨waited, hwaited⟩ | hdecoded
          · exact Or.inr ⟨waited, hsyscall, hwaited⟩
          · exact Or.inl (hnothing hdecoded)
  · left
    have hhanded := GuestKernel.call_handed hrun
    constructor
    · change outcome.handed = _ at hhanded
      rw [hhanded]
      cases hop : (KernelCall.dispatch request).operation k with
      | none => rfl
      | some op =>
          rw [Option.map_some, Option.getD_some]
          apply GuestKernel.handed_of_op
          simp only [KernelCall.operation] at hop
          cases htask : k.task request.tid with
          | none =>
              rw [htask] at hop
              cases hop
          | some task =>
              simp only [htask] at hop
              split at hop
              · cases hop
              · unfold SyscallRequest.operation at hop
                cases hcall : request.syscall <;>
                  simp only [hcall, Option.some.injEq, Option.map_eq_some_iff] at hop
                case wait4 => exact absurd hcall hsyscall
                case execve =>
                    obtain ⟨_, _, rfl⟩ := hop
                    rfl
                all_goals first
                  | (rw [← hop]; rfl)
                  | cases hop
    · unfold storeFromOutcome
      split
      · rename_i hcall _
        exact absurd hcall hsyscall
      · rfl

def Tells (history : GuestPid → Option Ending) (waited : WaitedChild) (store : WaitStore) : Prop :=
  ∃ ending, history waited.pid = some ending ∧ ending.Possible ∧ ending.Shows (ofLeBytes store.bytes)

theorem tells_of_waited (hrecorded : Recorded history k) {waited : WaitedChild}
    (hexit : k.exitOf waited.pid = some (.exited waited.status)) {store : WaitStore}
    (hword : store.waitStatus = waited.waitStatus) : Tells history waited store := by
  obtain ⟨ending, hhistory, hpossible, hstatus⟩ := hrecorded _ _ hexit
  refine ⟨ending, hhistory, hpossible, ?_⟩
  rw [WaitStore.bytes, ofLeBytes_leBytes, hword, show 256 ^ 4 = 2 ^ 32 from rfl, Nat.mod_eq_of_lt (waitStatus_lt waited),
    WaitedChild.waitStatus, ← hstatus]
  exact Ending.shows_status hpossible

theorem writeWaitStatusToProcess_ok {μ : Type} [GuestMemoryAccess μ]
    {materialize : GuestPid → Prog (GuestPid → Option μ) LinuxErrno Unit} {store : WaitStore}
    {memories memories' : GuestPid → Option μ} (hwstatus : store.wstatus ≠ 0)
    (h : store.writeWaitStatusToProcess materialize memories = (.ok (), memories')) :
    ∃ memory memory', GuestMemoryAccess.writeBytes store.wstatus store.bytes memory = (.ok (), memory') ∧
      memories' store.pid = some memory' := by
  unfold WaitStore.writeWaitStatusToProcess at h
  rw [if_neg hwstatus] at h
  rcases hshared : materialize store.pid memories with ⟨_ | _, shared⟩
  · rw [Prog.run_bind_error hshared] at h
    nomatch h
  · rw [Prog.run_bind_ok hshared] at h
    unfold WaitStore.write at h
    cases hmemory : shared store.pid with
    | none =>
        simp only [hmemory] at h
        nomatch h
    | some memory =>
        simp only [hmemory] at h
        rcases hwrite : GuestMemoryAccess.writeBytes store.wstatus store.bytes memory with ⟨_ | _, memory'⟩
        · simp only [hwrite] at h
          nomatch h
        · simp only [hwrite] at h
          obtain rfl := congrArg Prod.snd h
          exact ⟨memory, memory', hwrite, Function.update_self ..⟩

theorem recorded_initial (image : GuestImageState) : Recorded (fun _ => none) (GuestKernel.initial image) := by
  intro pid status hexit
  unfold GuestKernel.exitOf GuestKernel.initial at hexit
  rw [GuestKernel.process_insertTask, GuestKernel.process, SortedMap.get?_insert] at hexit
  split at hexit
  · cases hexit
  · cases hexit

/-- In every run, and for every wait: the runtime stores a word for each child that is handed over, and the word
shows an exit. For a child that exited it is the low byte of the status that the exit was called with, and for one
that was killed by a signal it is 128 and the signal. A store that succeeds leaves the word in memory. -/
theorem words_show_endings {image : GuestImageState} (h : Lived load (GuestKernel.initial image) history k)
    (wait : RuntimeWait) {reply : KernelReply} (hrun : wait.call.run load k = some (reply, k')) :
    List.Forall₂ (Tells history) reply.handed (wait.stores reply) ∧
      ∀ (μ : Type) [GuestMemoryAccess μ] (materialize : GuestPid → Prog (GuestPid → Option μ) LinuxErrno Unit),
        ∀ store ∈ wait.stores reply, ∀ memories memories', store.wstatus ≠ 0 →
          store.writeWaitStatusToProcess materialize memories = (.ok (), memories') →
            ∃ memory memory', GuestMemoryAccess.writeBytes store.wstatus store.bytes memory = (.ok (), memory') ∧
              memories' store.pid = some memory' := by
  obtain ⟨hk, hpids, hrecorded⟩ :=
    h.recorded (GuestKernel.consistent_initial image) (GuestKernel.smallPids_initial image) (recorded_initial image)
  refine ⟨?_, fun μ _ materialize store _ memories memories' => writeWaitStatusToProcess_ok⟩
  have hhands := GuestKernel.handsOver_of_call hk hrun
  have hexit (waited : WaitedChild) (hmem : waited ∈ reply.handed) :
      k.exitOf waited.pid = some (.exited waited.status) := by
    obtain ⟨child, hchild, hstatus⟩ := hhands.own waited hmem
    rw [GuestKernel.exitOf, hchild, Option.map_some, hstatus]
  cases wait with
  | dispatch request =>
      obtain ⟨outcome, rfl⟩ : ∃ outcome, KernelReply.outcome outcome = reply := by
        simp only [RuntimeWait.call, KernelCall.run, Option.map_eq_some_iff, Prod.exists] at hrun
        obtain ⟨outcome, _, _, hreply⟩ := hrun
        exact ⟨outcome, congrArg Prod.fst hreply⟩
      rcases dispatch_reports hrun with ⟨hhanded, hstore⟩ | ⟨waited, hsyscall, rfl⟩
      · simp only [KernelReply.handed, RuntimeWait.stores, hhanded, hstore]
        exact .nil
      · have hmem : waited ∈ (KernelReply.outcome (GuestKernel.waitedOutcome waited)).handed :=
          List.mem_singleton_self waited
        obtain ⟨child, hchild, -⟩ := hhands.own waited hmem
        have hpid : waited.pid < 2 ^ 32 := lt_trans (hk.pidBound hchild) hpids
        have hstore : storeFromOutcome request (GuestKernel.waitedOutcome waited) =
            some ⟨request.pid, request.arg 1, waited.waitStatus⟩ := by
          unfold storeFromOutcome
          rw [hsyscall, forkChildPid_waited hpid, waitStatusFromDecoded_waited]
          rfl
        simp only [RuntimeWait.stores, hstore, Option.toList_some]
        exact .cons (tells_of_waited hrecorded (hexit waited hmem) rfl) .nil
  | resumeWaitingTasks =>
      obtain rfl : KernelReply.completed k.resumeWaitingTasks.1 = reply := congrArg Prod.fst (Option.some.inj hrun)
      simp only [KernelReply.handed, RuntimeWait.stores] at hexit ⊢
      rw [List.forall₂_map_left_iff, List.forall₂_map_right_iff, List.forall₂_same]
      intro wait hmem
      exact tells_of_waited hrecorded (hexit wait.waited (List.mem_map_of_mem hmem)) rfl

def childExits : KernelCall := .dispatch ⟨2, 2, 0, .exitGroup, [263]⟩

def parentWaits : RuntimeWait := .dispatch ⟨1, 1, 0, .wait4, [2 ^ 64 - 1, 0x1000, 0, 0]⟩

def exitingKernel : GuestKernel := ((KernelOp.forkChild 1).run (fun _ => .ok sampleImage) (.initial sampleImage)).2

theorem exitingKernel_lived :
    Lived (fun _ => .ok sampleImage) (GuestKernel.initial sampleImage) (fun _ => none) exitingKernel :=
  .call .start (.direct (.forkChild 1)) (fun _ h => by obtain rfl := KernelCall.direct.inj h; rfl) rfl

theorem childExits_shown : ∃ history k reply k',
    Lived (fun _ => .ok sampleImage) (GuestKernel.initial sampleImage) history k ∧
      history 2 = some (.exited 263) ∧ parentWaits.call.run (fun _ => .ok sampleImage) k = some (reply, k') ∧
      parentWaits.stores reply = [⟨1, 0x1000, 0x700⟩] ∧
      List.Forall₂ (Tells history) reply.handed (parentWaits.stores reply) := by
  have hk : exitingKernel.Consistent := (GuestKernel.consistent_initial sampleImage).op (.forkChild 1)
  obtain ⟨_, k, hexit, hk'⟩ := GuestKernel.Consistent.call hk (fun _ => .ok sampleImage) childExits
  have hlived := Lived.call exitingKernel_lived childExits nofun hexit
  obtain ⟨reply, k', hwait, -⟩ := hk'.call (fun _ => .ok sampleImage) parentWaits.call
  refine ⟨_, k, reply, k', hlived, by decide +kernel, hwait, ?_, (words_show_endings hlived parentWaits hwait).1⟩
  have hstores : (((childExits.run (fun _ => .ok sampleImage) exitingKernel).bind fun result =>
      parentWaits.call.run (fun _ => .ok sampleImage) result.2).map fun result => parentWaits.stores result.1) =
        some [⟨1, 0x1000, 0x700⟩] := by
    decide +kernel
  rw [show childExits.run (fun _ => .ok sampleImage) exitingKernel = _ from hexit, Option.bind_some, hwait] at hstores
  exact Option.some.inj hstores

/-- The child is killed by signal 9, and the word of its wait is that of an exit with 137. -/
theorem killed_shown_as_exit : ∃ history k reply k' store,
    Lived (fun _ => .ok sampleImage) (GuestKernel.initial sampleImage) history k ∧
      history 2 = some (.killed 9) ∧ parentWaits.call.run (fun _ => .ok sampleImage) k = some (reply, k') ∧
      reply.handed = [⟨2, 137⟩] ∧ parentWaits.stores reply = [store] ∧
      ¬Ending.Decodes (.killed 9) (ofLeBytes store.bytes) ∧ Ending.Decodes (.exited 137) (ofLeBytes store.bytes) := by
  have hk : exitingKernel.Consistent := (GuestKernel.consistent_initial sampleImage).op (.forkChild 1)
  have hlived := Lived.fatal exitingKernel_lived 2 9
  have hk' : (deliverDefaultSignalAction exitingKernel 2 9).2.Consistent := by
    rw [deliverDefaultSignalAction_terminate (fun _ => .ok sampleImage) rfl]
    exact hk.op _
  obtain ⟨reply, k', hwait, -⟩ := hk'.call (fun _ => .ok sampleImage) parentWaits.call
  have hreply : ((parentWaits.call.run (fun _ => .ok sampleImage) (deliverDefaultSignalAction exitingKernel 2 9).2).map
      fun result => (result.1.handed, parentWaits.stores result.1)) = some ([⟨2, 137⟩], [⟨1, 0x1000, 0x8900⟩]) := by
    decide +kernel
  rw [hwait] at hreply
  obtain ⟨hhanded, hstores⟩ := Prod.mk.inj (Option.some.inj hreply)
  refine ⟨_, _, reply, k', ⟨1, 0x1000, 0x8900⟩, hlived, by decide +kernel, hwait, hhanded, hstores, ?_, ?_⟩
  · rintro ⟨⟨hpositive, -⟩, -⟩
    exact absurd hpositive (by decide)
  · exact ⟨by unfold Task.wifexited; decide, fun h => absurd h.1 (by decide), by decide⟩

end Mcr.Runtime
