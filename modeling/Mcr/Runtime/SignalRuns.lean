import Mcr.Runtime.Signals
import Mcr.Task.SignalTakes

/-!
# Signals over whole runs

A run is turns of tasks and other entries of the kernel, in any order. What it posts is accounted for by a ledger, at
every moment, as long as four things do not happen: a `rt_sigsuspend` with a mask that blocks `SIGKILL` or `SIGSTOP`,
which is not sanitized as other masks are, a handler without a restorer, which is not run, and a fault in the frame of
a handler or in the `siginfo` of `rt_sigtimedwait`; the last three come after the signal is taken.
-/

namespace Mcr.Runtime

open Net (LinuxErrno)
open Mcr.Task (GprState GuestAddress GuestImageState GuestKernel GuestProgram GuestTask GuestTid Handover KernelOp
  Moves Posted SignalLedger SignalMask SyscallOutcome TaskError TaskView linuxSigDfl linuxSigIgn)
open Mcr.Task.GuestKernel (Accounts Consistent Guarded WokenWith Sanitized TurnMoves initial)

/-! ### Turns -/

inductive SignalCall
  | rtSigtimedwait (args : RtSigtimedwaitArgs)
  | rtSigsuspend (mask : GuestAddress) (sigsetsize : Nat)
  | rtSigreturn (regs : GprState)
  | other

inductive TurnReply
  | delivery (delivery : Delivery)
  | outcome (outcome : SyscallOutcome)
  | restored (result : Except LinuxErrno Unit)

structure SignalTurn (μ : Type) where
  tid : GuestTid
  memory : μ
  altStack : Option GuestSignalAltStack
  call : SignalCall

/-- What is seen of a step: the kernels before and after, the masks in effect, and the signals that were posted and
handed over. -/
structure Observation where
  before : GuestKernel
  after : GuestKernel
  view : TaskView
  posted : List Posted
  handed : Option Handover

/-- The step handed the signal over, or ended the wait of a parked task with it. -/
def Observation.HandedOver (o : Observation) (x : Handover) : Prop :=
  o.handed = some x ∨ ∃ tid signal, x = .returned tid signal ∧ WokenWith o.before o.after tid signal

/-- The signal that `rt_sigtimedwait` returns. -/
def returnedSignal (tid : GuestTid) : SyscallOutcome → Option Handover
  | ⟨.success signal, _⟩ => if signal = 0 then none else some (.returned tid signal)
  | ⟨.errno _, _⟩ => none

namespace SignalTurn

variable {μ : Type} [GuestMemoryAccess μ]

/-- The turn of `dispatch_guest_task_with_dispatcher`. -/
def run (turn : SignalTurn μ) (tasks : GuestKernel) (task : GuestTask) : TurnReply × GuestKernel :=
  match tryDeliverPendingGuestSignal tasks turn.memory turn.altStack turn.tid task.pid task.regs with
  | (.idle, tasks) =>
    match turn.call with
    | .rtSigtimedwait args => (rtSigtimedwait tasks turn.memory turn.tid args).map .outcome id
    | .rtSigsuspend mask sigsetsize => (rtSigsuspend tasks turn.memory turn.tid mask sigsetsize).map .outcome id
    | .rtSigreturn regs => (rtSigreturn tasks turn.memory turn.tid task.regs regs).map .restored id
    | .other => (.delivery .idle, tasks)
  | (delivery, tasks) => (.delivery delivery, tasks)

/-- The mask of `rt_sigsuspend` is in effect while the call takes a signal. -/
def view (turn : SignalTurn μ) (tasks : GuestKernel) : TurnReply → TaskView
  | .outcome _ =>
    match turn.call with
    | .rtSigsuspend mask _ =>
      match readGuestU64 turn.memory mask with
      | .ok temporaryMask => tasks.viewUnder turn.tid (BitVec.ofNat 64 temporaryMask)
      | .error _ => tasks.view
    | _ => tasks.view
  | _ => tasks.view

def posted (turn : SignalTurn μ) (tasks : GuestKernel) (task : GuestTask) : TurnReply → List Posted
  | .delivery (.ended _) => (tasks.takePendingSignalForReturnToUser turn.tid).2.childSignal task.pid
  | _ => []

def handed (turn : SignalTurn μ) : TurnReply → Option Handover
  | .delivery (.delivered signal) | .delivery (.ended signal) => some (.delivered turn.tid signal)
  | .outcome outcome =>
    match turn.call with
    | .rtSigtimedwait _ => returnedSignal turn.tid outcome
    | _ => none
  | _ => none

def observation (turn : SignalTurn μ) (tasks : GuestKernel) (task : GuestTask) : Observation :=
  let (reply, after) := turn.run tasks task
  ⟨tasks, after, turn.view tasks reply, turn.posted tasks task reply, turn.handed reply⟩

/-- The memory takes the writes. -/
def Stores (memory : μ) (stores : List (GuestAddress × List UInt8)) : Prop := (storeAll stores memory).1 = .ok ()

/-- The handler has a restorer, its frame and the `siginfo` can be written, and the temporary mask blocks neither
`SIGKILL` nor `SIGSTOP`. -/
structure Fits (turn : SignalTurn μ) (tasks : GuestKernel) (task : GuestTask) : Prop where
  frame : ∀ signal process action, (tasks.takePendingSignalForReturnToUser turn.tid).1 = some signal →
    tasks.process task.pid = some process → process.signals.action signal = some action →
    action.action ≠ linuxSigDfl → action.action ≠ linuxSigIgn → hasHandler action = true ∧
    ∃ frame, signalFrameAddress task.regs.rsp action.flags turn.altStack = .ok frame ∧
      frame + x8664RtSigframeSize ≤ 2 ^ 64 ∧
      Stores turn.memory (signalFrameStores frame task.regs action signal task.signalMask 0 turn.altStack)
  info : (tasks.takePendingSignalForReturnToUser turn.tid).1 = none → ∀ args mask signal,
    turn.call = .rtSigtimedwait args → readGuestU64 turn.memory args.set = .ok mask → args.info ≠ 0 →
    (tasks.takePendingSignalForTask turn.tid task.pid (BitVec.ofNat 64 mask)).1 = some signal →
    (writeGuestSiginfo args.info signal turn.memory).1 = .ok ()
  mask : (tasks.takePendingSignalForReturnToUser turn.tid).1 = none → ∀ mask temporaryMask,
    turn.call = .rtSigsuspend mask Task.linuxKernelSigsetSize → readGuestU64 turn.memory mask = .ok temporaryMask →
    Sanitized (BitVec.ofNat 64 temporaryMask)

end SignalTurn

/-! ### Deliveries -/

section Delivery

variable {μ : Type} [GuestMemoryAccess μ] {tasks : GuestKernel} {task : GuestTask} {memory : μ}
  {altStack : Option GuestSignalAltStack} {tid : GuestTid}

theorem setupRtSignalFrame_ok {expected : GprState} {action : Task.GuestSignalAction} {signal : Nat}
    {signalMask : SignalMask} {frame : GuestAddress} (hhandler : hasHandler action = true)
    (hframe : signalFrameAddress expected.rsp action.flags altStack = .ok frame)
    (hfits : frame + x8664RtSigframeSize ≤ 2 ^ 64)
    (hstores : SignalTurn.Stores memory (signalFrameStores frame expected action signal signalMask 0 altStack)) :
    (setupRtSignalFrame expected action signal signalMask 0 altStack memory).1 =
      .ok (handlerRegisters frame expected action signal) := by
  have hbelow : ∀ offset, offset < x8664RtSigframeSize → frameAdd frame offset = .ok (frame + offset) :=
    fun offset hoffset => if_pos ((Nat.add_lt_add_left hoffset frame).trans_le hfits)
  have huc := hbelow 8 (by decide)
  have hmcontext : frameAdd (frame + 8) 40 = .ok (frame + 8 + 40) := by
    rw [frameAdd, Nat.add_assoc]
    exact hbelow 48 (by decide)
  have hsiginfo := hbelow 312 (by decide)
  have hpure : ∀ {x : Except LinuxErrno GuestAddress} {a : GuestAddress}, x = .ok a →
      (Prog.ofExcept x : Prog μ LinuxErrno GuestAddress) memory = (.ok a, memory) := fun h => by rw [h]; rfl
  unfold setupRtSignalFrame
  rw [if_neg (by rw [hhandler]; exact Bool.false_ne_true), Prog.run_bind_ok (hpure hframe), Prog.run_bind_ok (hpure huc),
    Prog.run_bind_ok (hpure hmcontext), Prog.run_bind_ok (hpure hsiginfo), Prog.run_bind_ok (Prog.run_eq hstores)]
  rfl

theorem deliverDefaultSignalAction_cases {pid : Task.GuestPid} {process : Task.GuestProcess}
    (hprocess : tasks.process pid = some process) (signal : Nat) :
    deliverDefaultSignalAction tasks pid signal = (.delivered signal, tasks) ∨
      deliverDefaultSignalAction tasks pid signal =
        (.ended signal, (tasks.exitGroup pid (Task.signalExitStatus signal)).2) := by
  unfold deliverDefaultSignalAction
  split
  · exact Or.inl rfl
  · refine Or.inr ?_
    unfold Task.GuestKernel.exitGroup
    rw [hprocess]
    rfl

theorem setRegsIfExpected_keeps (expected regs : GprState) : Task.GuestKernel.KeepsTask (setRegsIfExpected expected regs) := by
  intro t
  unfold setRegsIfExpected
  split <;> rfl

theorem signals_returnToUser (tasks : GuestKernel) (tid : GuestTid) (pid : Task.GuestPid) :
    ((tasks.takePendingSignalForReturnToUser tid).2.process pid).map Task.GuestProcess.signals =
      (tasks.process pid).map Task.GuestProcess.signals := by
  unfold Task.GuestKernel.takePendingSignalForReturnToUser
  split
  · rfl
  · split
    · rfl
    · rename_i task _
      rcases Task.GuestKernel.takePendingSignalForTask_cases tasks tid task.pid (~~~task.signalMask) with
        ⟨_, _, -, -, heq⟩ | ⟨_, _, -, -, -, heq⟩ | ⟨-, -, heq⟩ <;> rw [heq]
      · rfl
      · rw [Task.GuestKernel.process_modifyProcess]
        split
        · rename_i hpid
          rw [hpid, Option.map_map]
          rfl
        · rfl

/-- A new mask, and new registers where nothing has changed them, leave the signals. -/
theorem restoreMask_moves {k₁ : GuestKernel} {view : TaskView} {handed : List Handover} (hk₁ : Consistent k₁)
    (hmoves : TurnMoves view tasks k₁ tid handed) {task₁ : GuestTask} (htask₁ : k₁.task tid = some task₁)
    (expected regs : GprState) (mask : SignalMask) :
    Consistent ((k₁.setTaskSignalMask tid mask).2.modifyTask tid (setRegsIfExpected expected regs)) ∧
      TurnMoves view tasks ((k₁.setTaskSignalMask tid mask).2.modifyTask tid (setRegsIfExpected expected regs)) tid
        handed := by
  have hset : k₁.setTaskSignalMask tid mask =
      (true, k₁.modifyTask tid fun task => { task with signalMask := Task.sanitizeSignalMask mask }) := by
    rw [Task.GuestKernel.setTaskSignalMask, htask₁]
  have hmasked := hmoves.thenModify (f := fun task => { task with signalMask := Task.sanitizeSignalMask mask })
    (fun _ => ⟨rfl, rfl⟩) fun _ _ => ⟨Task.GuestKernel.sanitized_sanitizeSignalMask mask, rfl⟩
  have hquiet : Task.GuestKernel.Quiet .wakes k₁ (k₁.setTaskSignalMask tid mask).2 :=
    Task.GuestKernel.setTaskSignalMask_quiet k₁ tid mask
  have hkeeps := setRegsIfExpected_keeps expected regs
  rw [hset] at hquiet ⊢
  refine ⟨Consistent.quiet (hquiet.trans (.single (.task tid _ hkeeps))) hk₁, hmasked.thenModify
    (fun task => (hkeeps.kept task).2.2.2.2) fun task htask => ⟨?_, (hkeeps.kept task).2.2.1⟩⟩
  rw [(hkeeps.kept task).2.2.2.1]
  exact hmasked.guarded.mask tid task htask

theorem runHandler_moves {k₁ : GuestKernel} {handed : List Handover} (hk₁ : Consistent k₁)
    (hmoves : TurnMoves tasks.view tasks k₁ tid handed) {task₁ : GuestTask} (htask₁ : k₁.task tid = some task₁)
    (expected : GprState) (action : Task.GuestSignalAction) (signal : Nat) (signalMask : SignalMask) {regs : GprState}
    (hsetup : (setupRtSignalFrame expected action signal signalMask 0 altStack memory).1 = .ok regs) :
    ∃ k', runHandler k₁ memory altStack tid expected action signal signalMask = (.delivered signal, k') ∧
      Consistent k' ∧ TurnMoves tasks.view tasks k' tid handed := by
  unfold runHandler
  rw [hsetup]
  exact ⟨_, rfl, restoreMask_moves hk₁ hmoves htask₁ expected regs _⟩

theorem restorer_of_hasHandler {action : Task.GuestSignalAction} (h : hasHandler action = true) :
    ¬(action.flags &&& linuxSaRestorer = 0 ∨ action.restorer = 0) := by
  rintro (hflags | hrestorer)
  · simp [hasHandler, hflags] at h
  · simp [hasHandler, hrestorer] at h

/-- A turn finds no signal, or hands one over that may end the process. -/
theorem tryDeliver_cases (hk : Consistent tasks) (hg : Guarded tasks) (htask : tasks.task tid = some task)
    (hruns : task.state = .runnable)
    (hframe : ∀ signal process action, (tasks.takePendingSignalForReturnToUser tid).1 = some signal →
      tasks.process task.pid = some process → process.signals.action signal = some action →
      action.action ≠ linuxSigDfl → action.action ≠ linuxSigIgn → hasHandler action = true ∧
      ∃ frame, signalFrameAddress task.regs.rsp action.flags altStack = .ok frame ∧
        frame + x8664RtSigframeSize ≤ 2 ^ 64 ∧
        SignalTurn.Stores memory (signalFrameStores frame task.regs action signal task.signalMask 0 altStack)) :
    (tryDeliverPendingGuestSignal tasks memory altStack tid task.pid task.regs = (.idle, tasks) ∧
        (tasks.takePendingSignalForReturnToUser tid).1 = none ∧ task.pendingSignalDelivery = none) ∨
      ∃ signal k₁, tasks.takePendingSignalForReturnToUser tid = (some signal, k₁) ∧
        ((∃ k', tryDeliverPendingGuestSignal tasks memory altStack tid task.pid task.regs = (.delivered signal, k') ∧
            Consistent k' ∧ TurnMoves tasks.view tasks k' tid [.delivered tid signal]) ∨
          ∃ status, tryDeliverPendingGuestSignal tasks memory altStack tid task.pid task.regs =
            (.ended signal, (k₁.exitGroup task.pid status).2)) := by
  have hquiet : Task.GuestKernel.Quiet .signals tasks (tasks.takePendingSignalForReturnToUser tid).2 :=
    Task.GuestKernel.takePendingSignalForReturnToUser_quiet tasks tid trivial
  have hconsistent := Consistent.quiet hquiet hk
  have hsignals := signals_returnToUser tasks tid task.pid
  unfold tryDeliverPendingGuestSignal
  cases htake : tasks.takePendingSignalForReturnToUser tid with
  | mk taken k₁ =>
      rw [htake] at hconsistent hsignals hframe
      cases taken with
      | none =>
          rw [Task.GuestKernel.takePendingSignalForReturnToUser_of_task htask] at htake
          cases hslot : task.pendingSignalDelivery with
          | some held =>
              rw [hslot] at htake
              exact nomatch congrArg Prod.fst htake
          | none =>
              rw [hslot] at htake
              rcases Task.GuestKernel.turn_take hg htask hruns (~~~task.signalMask) with hnone | ⟨_, _, _, heq, -⟩
              · obtain rfl := (Prod.mk.inj (hnone.symm.trans htake)).2
                exact Or.inl ⟨rfl, rfl, rfl⟩
              · exact nomatch congrArg Prod.fst (heq.symm.trans htake)
      | some signal =>
          obtain ⟨hmoves, task₁, htask₁, hpid₁, hruns₁, hmask₁⟩ :=
            Task.GuestKernel.returnToUser_moves hg htask hruns htake
          refine Or.inr ⟨signal, k₁, rfl, ?_⟩
          obtain ⟨process₁, hprocess₁⟩ := hconsistent.owned htask₁
          rw [hpid₁] at hprocess₁
          rw [hprocess₁, Option.map_some] at hsignals
          obtain ⟨process, hprocess, hactions⟩ := Option.map_eq_some_iff.mp hsignals.symm
          have hdefault : (∃ k', deliverDefaultSignalAction k₁ task.pid signal = (.delivered signal, k') ∧
              Consistent k' ∧ TurnMoves tasks.view tasks k' tid [.delivered tid signal]) ∨
              ∃ status, deliverDefaultSignalAction k₁ task.pid signal =
                (.ended signal, (k₁.exitGroup task.pid status).2) := by
            rcases deliverDefaultSignalAction_cases hprocess₁ signal with heq | heq
            · exact Or.inl ⟨k₁, heq, hconsistent, hmoves⟩
            · exact Or.inr ⟨_, heq⟩
          dsimp only
          rw [hprocess₁, Option.bind_some, htask₁]
          cases haction : process₁.signals.action signal with
          | none => exact hdefault
          | some action =>
              dsimp only
              split
              · exact hdefault
              · rename_i hdfl
                split
                · exact Or.inl ⟨k₁, rfl, hconsistent, hmoves⟩
                · rename_i hign
                  obtain ⟨hhandler, frame, hframe, hfits, hstores⟩ :=
                    hframe signal process action rfl hprocess (hactions ▸ haction) hdfl hign
                  rw [if_neg (restorer_of_hasHandler hhandler)]
                  rw [← hmask₁] at hstores
                  exact Or.inl (runHandler_moves hconsistent hmoves htask₁ task.regs action signal task₁.signalMask
                    (setupRtSignalFrame_ok hhandler hframe hfits hstores))

end Delivery

/-! ### Runs -/

section Runs

variable {μ : Type} [GuestMemoryAccess μ] {load : GuestProgram → Except TaskError GuestImageState}
  {fits : SignalTurn μ → GuestKernel → GuestTask → Prop} {image : GuestImageState}

/-- The runs of a program, by what is seen of their steps, when every turn meets a condition. -/
inductive SignalRun (load : GuestProgram → Except TaskError GuestImageState)
    (fits : SignalTurn μ → GuestKernel → GuestTask → Prop) (image : GuestImageState) :
    List Observation → GuestKernel → Prop
  | start : SignalRun load fits image [] (initial image)
  | entry {observations : List Observation} {k : GuestKernel} (h : SignalRun load fits image observations k)
      (op : KernelOp) (hop : op.isTake = false) (hactor : ∀ tid, op.actor = some tid → k.stateOf tid = some .runnable) :
      SignalRun load fits image (observations ++ [⟨k, (op.run load k).2, k.view, op.posted k, none⟩]) (op.run load k).2
  | turn {observations : List Observation} {k : GuestKernel} (h : SignalRun load fits image observations k)
      (turn : SignalTurn μ) {task : GuestTask} (htask : k.task turn.tid = some task) (hruns : task.state = .runnable)
      (hfits : fits turn k task) :
      SignalRun load fits image (observations ++ [turn.observation k task]) (turn.run k task).2

/-- The ledger of a run: every step moves the signals it posts and hands over, and those of the targets it removes
are gone with them. -/
inductive Tracks : List Observation → SignalLedger → Prop
  | start : Tracks [] 0
  | step {observations : List Observation} {l l' : SignalLedger} {handovers : List Handover} (h : Tracks observations l)
      (o : Observation) (hmoves : Moves o.view l o.posted handovers l') (hnodup : handovers.Nodup)
      (hhanded : ∀ x, x ∈ handovers ↔ o.HandedOver x) :
      Tracks (observations ++ [o]) (l'.relocate o.after.removal)

theorem Tracks.tokens {observations : List Observation} {l : SignalLedger} (h : Tracks observations l) :
    l.tokens = ↑(observations.flatMap Observation.posted) := by
  induction h with
  | start => rfl
  | step _ o hmoves _ _ ih =>
      rw [Ledger.tokens_relocate, hmoves.tokens, ih, List.flatMap_append, ← Multiset.coe_add, List.flatMap_singleton]

/-- The step moves the signals that it posts and hands over, and leaves a kernel that they are accounted for in. -/
structure Observation.Accounted (o : Observation) : Prop where
  consistent : Consistent o.after
  guarded : Guarded o.after
  moves : ∀ {l}, Accounts l o.before → ∃ handovers l', Moves o.view l o.posted handovers l' ∧
    Accounts (l'.relocate o.after.removal) o.after ∧ handovers.Nodup ∧ ∀ x, x ∈ handovers ↔ o.HandedOver x

theorem accounted_of_turnMoves {k k' : GuestKernel} {view : TaskView} {tid : GuestTid} {handed : Option Handover}
    (hk' : Consistent k') (h : TurnMoves view k k' tid handed.toList) :
    Observation.Accounted ⟨k, k', view, [], handed⟩ where
  consistent := hk'
  guarded := h.guarded
  moves haccounts := by
    obtain ⟨l', hmoves, haccounts'⟩ := h.moves haccounts
    refine ⟨_, l', hmoves, haccounts'.carried hk' (.refl k'), ?_, fun x => ?_⟩
    · cases handed <;> simp
    · rw [Option.mem_toList]
      refine ⟨Or.inl, fun hhanded => hhanded.elim id ?_⟩
      rintro ⟨j, signal, -, hreturned⟩
      exact absurd hreturned h.turned.not_returned

/-- A process ends by a signal that is delivered: it is handed over, and its end sends one to the parent. -/
theorem accounted_of_ended {k k₁ : GuestKernel} {tid : GuestTid} {task : GuestTask} (hk : Consistent k)
    (hg : Guarded k) (htask : k.task tid = some task) (hruns : task.state = .runnable) {signal : Nat}
    (htake : k.takePendingSignalForReturnToUser tid = (some signal, k₁)) (status : Int) :
    Observation.Accounted ⟨k, (k₁.exitGroup task.pid status).2, k.view, k₁.childSignal task.pid,
      some (.delivered tid signal)⟩ := by
  obtain ⟨hmoves, task₁, htask₁, hpid₁, hruns₁, hmask₁⟩ := Task.GuestKernel.returnToUser_moves hg htask hruns htake
  have hquiet : Task.GuestKernel.Quiet .signals k (k.takePendingSignalForReturnToUser tid).2 :=
    Task.GuestKernel.takePendingSignalForReturnToUser_quiet k tid trivial
  have hk₁ : Consistent k₁ := by
    have hconsistent := Consistent.quiet hquiet hk
    rwa [htake] at hconsistent
  have hsends := Task.GuestKernel.sends_exitGroup hk₁ hmoves.guarded task.pid status
  have hk' : Consistent ((KernelOp.exitGroup task.pid status).run (fun _ => .error .elf) k₁).2 := hk₁.op _
  have hview : k₁.view = k.view := by
    unfold Task.GuestKernel.view
    refine congr (congrArg TaskView.mk (funext fun j => ?_)) (funext fun j => ?_)
    · by_cases hj : j = tid
      · rw [hj, Task.GuestKernel.ownerOf, htask₁, Task.GuestKernel.ownerOf, htask, Option.map_some, hpid₁, Option.map_some]
      · rw [Task.GuestKernel.ownerOf, hmoves.turned.others j hj, ← Task.GuestKernel.ownerOf]
    · by_cases hj : j = tid
      · rw [hj, htask₁, htask, Option.map_some, Option.map_some, GuestTask.heldBack, hruns₁, hmask₁, GuestTask.heldBack, hruns]
      · rw [hmoves.turned.others j hj]
  have hstates : ∀ j, k₁.stateOf j = k.stateOf j := fun j => by
    by_cases hj : j = tid
    · rw [hj, hmoves.turned.runs, Task.GuestKernel.stateOf_of_task htask₁, hruns₁]
    · rw [Task.GuestKernel.stateOf, hmoves.turned.others j hj, ← Task.GuestKernel.stateOf]
  refine ⟨hk', hsends.guarded, fun {l} haccounts => ?_⟩
  obtain ⟨l₁, hdelivered, haccounts₁⟩ := hmoves.moves haccounts
  obtain ⟨returned, l₂, hsent, haccounts₂, hnodup, hmem⟩ := hsends.moves haccounts₁
  rw [hview] at hsent
  refine ⟨_, l₂, hdelivered.trans hsent, haccounts₂.carried hk' (.refl _), ?_, fun x => ?_⟩
  · refine List.nodup_cons.mpr ⟨fun hx => ?_, hnodup⟩
    obtain ⟨j, s, heq, -⟩ := (hmem _).mp hx
    cases heq
  · rw [List.singleton_append, List.mem_cons, hmem]
    refine or_congr ⟨fun heq => congrArg some heq.symm, fun heq => (Option.some.inj heq).symm⟩ ?_
    exact exists₂_congr fun j s => and_congr_right fun _ => by rw [WokenWith, hstates, ← WokenWith]

theorem accounted_refl {k : GuestKernel} (hk : Consistent k) (hg : Guarded k) {tid : GuestTid}
    (hruns : k.stateOf tid = some .runnable) (view : TaskView) : Observation.Accounted ⟨k, k, view, [], none⟩ :=
  accounted_of_turnMoves hk (Task.GuestKernel.turnMoves_refl hruns hg)

section Calls

variable {k : GuestKernel} {tid : GuestTid} {task : GuestTask} {memory : μ}

theorem rtSigtimedwait_moves (hk : Consistent k) (hg : Guarded k) (htask : k.task tid = some task)
    (hruns : task.state = .runnable) (args : RtSigtimedwaitArgs)
    (hinfo : ∀ mask signal, readGuestU64 memory args.set = .ok mask → args.info ≠ 0 →
      (k.takePendingSignalForTask tid task.pid (BitVec.ofNat 64 mask)).1 = some signal →
      (writeGuestSiginfo args.info signal memory).1 = .ok ()) :
    Consistent (rtSigtimedwait k memory tid args).2 ∧ TurnMoves k.view k (rtSigtimedwait k memory tid args).2 tid
      (returnedSignal tid (rtSigtimedwait k memory tid args).1).toList := by
  have hrefl : TurnMoves k.view k k tid [] :=
    Task.GuestKernel.turnMoves_refl (Task.GuestKernel.stateOf_of_task htask ▸ congrArg some hruns) hg
  unfold rtSigtimedwait
  split
  · exact ⟨hk, hrefl⟩
  · split
    · exact ⟨hk, hrefl⟩
    · split
      · exact ⟨hk, hrefl⟩
      · exact ⟨hk, hrefl⟩
      · rename_i mask timeout hmask _
        have hop : Consistent ((KernelOp.rtSigtimedwait tid (BitVec.ofNat 64 mask) args.sigsetsize timeout.isNone).run
          (fun _ => .error .elf) k).2 := hk.op _
        change Consistent (k.rtSigtimedwaitCurrent tid (BitVec.ofNat 64 mask) args.sigsetsize timeout.isNone).2 at hop
        rcases Task.GuestKernel.rtSigtimedwaitCurrent_moves hg htask hruns (BitVec.ofNat 64 mask) args.sigsetsize
          timeout.isNone with ⟨signal, k₁, heq, hpositive, htake, hmoves⟩ | ⟨outcome, k₁, heq, hzero, hmoves⟩
        · rw [heq] at hop ⊢
          have hreturned : (returnedSignal tid (.success signal)).toList = [.returned tid signal] :=
            congrArg Option.toList (if_neg hpositive.ne')
          dsimp only [SyscallOutcome.success]
          split
          · rename_i hwrites
            rw [hinfo mask signal hmask hwrites.2 htake]
            exact ⟨hop, hreturned ▸ hmoves⟩
          · exact ⟨hop, hreturned ▸ hmoves⟩
        · rw [heq] at hop ⊢
          obtain ⟨result, decoded⟩ := outcome
          cases result with
          | errno e => exact ⟨hop, hmoves⟩
          | success signal =>
              obtain rfl := hzero signal rfl
              exact ⟨hop, hmoves⟩

theorem rtSigreturn_moves (hk : Consistent k) (hg : Guarded k) (htask : k.task tid = some task)
    (hruns : task.state = .runnable) (expected regs : GprState) :
    Consistent (rtSigreturn k memory tid expected regs).2 ∧
      TurnMoves k.view k (rtSigreturn k memory tid expected regs).2 tid [] := by
  have hrefl : TurnMoves k.view k k tid [] :=
    Task.GuestKernel.turnMoves_refl (Task.GuestKernel.stateOf_of_task htask ▸ congrArg some hruns) hg
  unfold rtSigreturn
  split
  · exact ⟨hk, hrefl⟩
  · rename_i signalMask restored _
    exact restoreMask_moves hk hrefl htask expected restored signalMask

theorem rtSigsuspend_moves (hk : Consistent k) (hg : Guarded k) (htask : k.task tid = some task)
    (hruns : task.state = .runnable) (hslot : task.pendingSignalDelivery = none) {mask : GuestAddress}
    {temporaryMask : Nat} (hmask : readGuestU64 memory mask = .ok temporaryMask) (sigsetsize : Nat)
    (hsanitized : sigsetsize = Task.linuxKernelSigsetSize → Sanitized (BitVec.ofNat 64 temporaryMask)) :
    Consistent (rtSigsuspend k memory tid mask sigsetsize).2 ∧
      TurnMoves (k.viewUnder tid (BitVec.ofNat 64 temporaryMask)) k (rtSigsuspend k memory tid mask sigsetsize).2 tid [] := by
  unfold rtSigsuspend
  split
  · exact ⟨hk, Task.GuestKernel.turnMoves_refl (Task.GuestKernel.stateOf_of_task htask ▸ congrArg some hruns) hg⟩
  · rw [hmask]
    have hop : Consistent ((KernelOp.rtSigsuspend tid (~~~BitVec.ofNat 64 temporaryMask) sigsetsize).run
      (fun _ => .error .elf) k).2 := hk.op _
    exact ⟨hop, Task.GuestKernel.rtSigsuspendCurrent_moves hg htask hruns hslot sigsetsize hsanitized⟩

end Calls

theorem accounted_turn {k : GuestKernel} (hk : Consistent k) (hg : Guarded k) (turn : SignalTurn μ) {task : GuestTask}
    (htask : k.task turn.tid = some task) (hruns : task.state = .runnable) (hfits : turn.Fits k task) :
    (turn.observation k task).Accounted := by
  have hstate : k.stateOf turn.tid = some .runnable := Task.GuestKernel.stateOf_of_task htask ▸ congrArg some hruns
  rcases tryDeliver_cases hk hg htask hruns hfits.frame with ⟨hidle, hnone, hslot⟩ | ⟨signal, k₁, htake,
    ⟨k', hdelivered, hk', hmoves⟩ | ⟨status, hended⟩⟩
  · unfold SignalTurn.observation SignalTurn.run
    rw [hidle]
    dsimp only
    cases hcall : turn.call with
    | rtSigtimedwait args =>
        have hmoved := rtSigtimedwait_moves hk hg htask hruns args fun mask signal => hfits.info hnone args mask signal hcall
        have haccounted := accounted_of_turnMoves hmoved.1 hmoved.2
        simp only [SignalTurn.view, SignalTurn.posted, SignalTurn.handed, Prod.map, hcall]
        exact haccounted
    | rtSigsuspend mask sigsetsize =>
        simp only [SignalTurn.view, SignalTurn.posted, SignalTurn.handed, Prod.map, hcall]
        cases hmask : readGuestU64 turn.memory mask with
        | error e =>
            have hkept : (rtSigsuspend k turn.memory turn.tid mask sigsetsize).2 = k := by
              unfold rtSigsuspend
              rw [hmask]
              split <;> rfl
            rw [id, hkept]
            exact accounted_refl hk hg hstate _
        | ok temporaryMask =>
            have hmoved := rtSigsuspend_moves hk hg htask hruns hslot hmask sigsetsize fun hsize =>
              hfits.mask hnone mask temporaryMask (hsize ▸ hcall) hmask
            exact accounted_of_turnMoves hmoved.1 hmoved.2
    | rtSigreturn regs =>
        have hmoved : Consistent (rtSigreturn k turn.memory turn.tid task.regs regs).2 ∧ _ :=
          rtSigreturn_moves hk hg htask hruns task.regs regs
        exact accounted_of_turnMoves hmoved.1 hmoved.2
    | other => exact accounted_refl hk hg hstate _
  · unfold SignalTurn.observation SignalTurn.run
    rw [hdelivered]
    exact accounted_of_turnMoves hk' hmoves
  · have haccounted := accounted_of_ended hk hg htask hruns htake status
    unfold SignalTurn.observation SignalTurn.run
    rw [hended]
    unfold SignalTurn.posted
    rw [htake]
    exact haccounted

theorem task_initial {image : GuestImageState} {tid : GuestTid} {task : GuestTask}
    (h : (initial image).task tid = some task) :
    task = Task.GuestKernel.initialTask Task.initialGuestTid Task.initialGuestPid image.memory := by
  rw [initial, Task.GuestKernel.task_insertTask] at h
  split at h
  · exact (Option.some.inj h).symm
  · cases h

theorem accounted_initial (image : GuestImageState) : Accounts 0 (initial image) where
  pending target signal := by
    have hpending : signal ∉ (initial image).pending target := by
      cases target with
      | process pid =>
          cases hprocess : (initial image).process pid with
          | none =>
              rw [Task.GuestKernel.pending, hprocess]
              exact SortedSet.not_mem_empty signal
          | some process =>
              have hget : (SortedMap.empty.insert Task.initialGuestPid
                  (Task.GuestKernel.initialProcess Task.initialGuestPid image)).get? pid = some process := hprocess
              rw [Task.GuestKernel.pending_of_process hprocess]
              rw [SortedMap.get?_insert] at hget
              split at hget
              · rw [← Option.some.inj hget]
                exact SortedSet.not_mem_empty signal
              · cases hget
      | task tid =>
          cases htask : (initial image).task tid with
          | none =>
              rw [Task.GuestKernel.pending, htask]
              exact SortedSet.not_mem_empty signal
          | some task =>
              rw [Task.GuestKernel.pending_of_task htask, task_initial htask]
              exact SortedSet.not_mem_empty signal
    rw [if_neg hpending]
    exact Multiset.countP_zero _
  held tid signal := by
    have hdelivery : (initial image).delivery tid = none := by
      unfold Task.GuestKernel.delivery
      cases htask : (initial image).task tid with
      | none => rfl
      | some task =>
          rw [task_initial htask]
          rfl
    rw [hdelivery]
    exact Multiset.countP_zero _

theorem guarded_initial (image : GuestImageState) : Guarded (initial image) where
  mask tid task htask := by
    rw [task_initial htask]
    exact BitVec.zero_and
  suspended htask hstate := by
    rw [task_initial htask] at hstate
    exact nomatch hstate

theorem accounted_entry {k : GuestKernel} (hk : Consistent k) (hg : Guarded k) {op : KernelOp} (hop : op.isTake = false)
    (hactor : ∀ tid, op.actor = some tid → k.stateOf tid = some .runnable) :
    Observation.Accounted ⟨k, (op.run load k).2, k.view, op.posted k, none⟩ := by
  have hmoves : Guarded (op.run load k).2 ∧ _ := Task.GuestKernel.moves_op hk hg hop hactor
  refine ⟨hk.op op, hmoves.1, fun haccounts => ?_⟩
  obtain ⟨handovers, l', hmoved, haccounts', hnodup, hmem⟩ := hmoves.2 haccounts
  exact ⟨handovers, l', hmoved, haccounts', hnodup, fun x => (hmem x).trans ⟨Or.inr, fun h => h.resolve_left nofun⟩⟩

/-- The ledger of a run follows every step that is accounted for. -/
theorem Tracks.accounted {observations : List Observation} {k : GuestKernel} {o : Observation} (ho : o.Accounted)
    (hbefore : o.before = k) (h : ∃ l, Tracks observations l ∧ Accounts l k) :
    Consistent o.after ∧ Guarded o.after ∧ ∃ l, Tracks (observations ++ [o]) l ∧ Accounts l o.after := by
  obtain ⟨l, htracks, haccounts⟩ := h
  obtain ⟨handovers, l', hmoves, haccounts', hnodup, hmem⟩ := ho.moves (hbefore ▸ haccounts)
  exact ⟨ho.consistent, ho.guarded, _, htracks.step o hmoves hnodup hmem, haccounts'⟩

theorem SignalRun.accounted {observations : List Observation} {k : GuestKernel}
    (h : SignalRun (μ := μ) load SignalTurn.Fits image observations k) :
    Consistent k ∧ Guarded k ∧ ∃ l, Tracks observations l ∧ Accounts l k := by
  induction h with
  | start =>
      exact ⟨Task.GuestKernel.consistent_initial image, guarded_initial image, 0, .start, accounted_initial image⟩
  | entry _ op hop hactor ih => exact Tracks.accounted (accounted_entry ih.1 ih.2.1 hop hactor) rfl ih.2.2
  | turn _ turn htask hruns hfits ih => exact Tracks.accounted (accounted_turn ih.1 ih.2.1 turn htask hruns hfits) rfl ih.2.2

/-- The signals of a run are kept: each one posted is at one place of the ledger, which accounts for the pending sets
and the slots, and no mask holds back `SIGKILL` or `SIGSTOP`. -/
structure SignalsKept (observations : List Observation) (k : GuestKernel) : Prop where
  ledger : ∃ l, Tracks observations l ∧ l.tokens = ↑(observations.flatMap Observation.posted) ∧ Accounts l k
  unblockable : ∀ tid task, k.task tid = some task → Sanitized task.heldBack

theorem Guarded.heldBack {k : GuestKernel} (hg : Guarded k) {tid : GuestTid} {task : GuestTask}
    (htask : k.task tid = some task) : Sanitized task.heldBack := by
  unfold GuestTask.heldBack
  split
  · rename_i allowed hstate
    exact (hg.suspended htask hstate).2
  · have hmask : Sanitized task.signalMask := hg.mask tid task htask
    rw [Sanitized, BitVec.and_assoc, BitVec.and_comm (~~~_), ← BitVec.and_assoc, hmask]
    exact BitVec.zero_and
  · exact hg.mask tid task htask

end Runs

/-! ### A turn with a signal, and a suspension that blocks every signal -/

/-- The process has sent itself `SIGCHLD`. -/
def childSignalled : GuestKernel := (KernelOp.run (fun _ => .ok Task.sampleImage) (initial Task.sampleImage) (.kill 1 17)).2

def plainTurn : SignalTurn FlatMemory := ⟨1, ⟨[]⟩, none, .other⟩

def blockingSuspend : SignalTurn FlatMemory :=
  ⟨1, ⟨List.replicate 8 0 ++ List.replicate 8 0xff⟩, none, .rtSigsuspend 8 8⟩

def forkedKernel : GuestKernel := (KernelOp.run (fun _ => .ok Task.sampleImage) (initial Task.sampleImage) (.forkChild 1)).2

def blockedKernel : GuestKernel :=
  ((forkedKernel.task 1).map fun task => (blockingSuspend.run forkedKernel task).2).getD forkedKernel

end Mcr.Runtime
