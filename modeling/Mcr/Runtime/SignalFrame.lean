import Mcr.Memory.Intrinsics
import Mcr.Memory.Stores
import Mcr.Runtime.Signals

/-!
# The signal frame

`setup_rt_signal_frame` saves the registers of an interrupted task in a frame on its stack, and
`restore_rt_signal_frame` takes them from there when the handler returns. Between the two the handler runs below the
frame, writes elsewhere, and may be interrupted itself; the frames of those signals lie below its stack pointer, or
on an alternate stack that the frame is not on.
-/

namespace Mcr.Runtime

open Memory (Context Flat Kept Machine Wf)
open Net (LinuxErrno)
open Mcr.Task (GprState GuestAddress GuestSignalAction SignalMask)

/-! ### The memory of a process -/

/-- The guest memory of a process, with the host and the other processes as they are. -/
def MachineMemory (_ctx : Context) : Type := Machine

instance (ctx : Context) : GuestMemoryAccess (MachineMemory ctx) where
  readBytes addr len (memory : Machine) :=
    match (Memory.read addr len memory).1 with
    | .ok bytes => some bytes
    | .error _ => none
  writeBytes addr bytes := .mapError (fun _ => ()) (Memory.write ctx addr bytes)

/-! ### Registers -/

structure GuestRegisters where
  rax : UInt64
  rbx : UInt64
  rcx : UInt64
  rdx : UInt64
  rsi : UInt64
  rdi : UInt64
  rbp : UInt64
  rsp : UInt64
  r8 : UInt64
  r9 : UInt64
  r10 : UInt64
  r11 : UInt64
  r12 : UInt64
  r13 : UInt64
  r14 : UInt64
  r15 : UInt64
  rip : UInt64
  rflags : UInt64
  fsBase : UInt64
deriving DecidableEq, Repr

namespace GuestRegisters

def gpr (regs : GuestRegisters) : GprState where
  rip := regs.rip.toNat
  rsp := regs.rsp.toNat
  rax := regs.rax.toNat
  rbx := regs.rbx.toNat
  rcx := regs.rcx.toNat
  rdi := regs.rdi.toNat
  rsi := regs.rsi.toNat
  rdx := regs.rdx.toNat
  rbp := regs.rbp.toNat
  r10 := regs.r10.toNat
  r8 := regs.r8.toNat
  r9 := regs.r9.toNat
  r11 := regs.r11.toNat
  r12 := regs.r12.toNat
  r13 := regs.r13.toNat
  r14 := regs.r14.toNat
  r15 := regs.r15.toNat
  rflags := regs.rflags.toNat

def ofGpr (regs : GprState) (fsBase : UInt64) : GuestRegisters where
  rax := .ofNat regs.rax
  rbx := .ofNat regs.rbx
  rcx := .ofNat regs.rcx
  rdx := .ofNat regs.rdx
  rsi := .ofNat regs.rsi
  rdi := .ofNat regs.rdi
  rbp := .ofNat regs.rbp
  rsp := .ofNat regs.rsp
  r8 := .ofNat regs.r8
  r9 := .ofNat regs.r9
  r10 := .ofNat regs.r10
  r11 := .ofNat regs.r11
  r12 := .ofNat regs.r12
  r13 := .ofNat regs.r13
  r14 := .ofNat regs.r14
  r15 := .ofNat regs.r15
  rip := .ofNat regs.rip
  rflags := .ofNat regs.rflags
  fsBase := fsBase

theorem ofGpr_gpr (regs : GuestRegisters) (fsBase : UInt64) : ofGpr regs.gpr fsBase = { regs with fsBase } := by
  simp [ofGpr, gpr]

end GuestRegisters

structure RestoredSignalFrame where
  registers : GuestRegisters
  signalMask : SignalMask
deriving DecidableEq, Repr

def linuxSsAutodisarm : BitVec 32 := 0x80000000
def linuxMinsigstksz : Nat := 2048

/-- `validate_sigaltstack`, which `sigaltstack` asks before it keeps a stack. -/
def validateSigaltstack (stack : GuestSignalAltStack) : Except LinuxErrno Unit :=
  if stack.flags &&& ~~~(linuxSsDisable ||| linuxSsAutodisarm) ≠ 0 then .error einval
  else if !stack.disabled ∧ stack.size < linuxMinsigstksz then .error enomem
  else .ok ()

section Frame

variable {μ : Type} [GuestMemoryAccess μ]

/-- `setup_rt_signal_frame`: the registers the handler starts with, under the interrupted `fs_base`. -/
def setupFrame (regs : GuestRegisters) (action : GuestSignalAction) (signal : Nat) (signalMask : SignalMask)
    (faultAddress : GuestAddress) (altStack : Option GuestSignalAltStack) : Prog μ LinuxErrno GuestRegisters := do
  let handler ← setupRtSignalFrame regs.gpr action signal signalMask faultAddress altStack
  pure (.ofGpr handler regs.fsBase)

/-- `restore_rt_signal_frame`: `fs_base` is not in the frame and stays as it is. -/
def restoreFrame (memory : μ) (regs : GuestRegisters) : Except LinuxErrno RestoredSignalFrame := do
  let (signalMask, restored) ← restoreRtSignalFrame memory regs.gpr
  pure ⟨.ofGpr restored regs.fsBase, signalMask⟩

end Frame

/-! ### What a frame promises -/

/-- The alternate stack that a frame is built on. -/
def selectedStack (rsp : GuestAddress) (flags : BitVec 64) (altStack : Option GuestSignalAltStack) :
    Option GuestSignalAltStack :=
  altStack.filter fun stack => flags &&& linuxSaOnstack != 0 && !stack.disabled && !onSignalStack rsp stack

/-- Only alternate stacks that `sigaltstack` lets pass. -/
def ValidStack (altStack : Option GuestSignalAltStack) : Prop :=
  ∀ stack ∈ altStack, validateSigaltstack stack = .ok ()

/-- One step of the process between the delivery of a signal, whose frame is at `frame`, and the return from its
handler. The guest leaves the bytes of the frame alone; a nested signal interrupts the handler, or the restorer, at
a stack pointer not above the frame, and on the alternate stack if the frame is on it. -/
inductive HandlerStep (frame : Nat) : Context × Machine → Context × Machine → Prop
  | guest {ctx ctx' : Context} {s s' : Machine} (hwf : Wf ctx' s') (hd : s'.mem.Disjoint)
      (hsame : ∀ x, frame ≤ x → x < frame + x8664RtSigframeSize →
        (s'.cell x).map (·.byte) = (s.cell x).map (·.byte)) : HandlerStep frame (ctx, s) (ctx', s')
  | nested {ctx : Context} {s s' : Machine} {regs handler : GuestRegisters} {action : GuestSignalAction}
      {signal : Nat} {signalMask : SignalMask} {faultAddress : GuestAddress} {altStack : Option GuestSignalAltStack}
      (hvalid : ValidStack altStack) (hbelow : regs.rsp.toNat ≤ frame + 8)
      (hstack : ∀ stack ∈ altStack, onSignalStack frame stack = true → onSignalStack regs.rsp.toNat stack = true)
      (hsetup : setupFrame (μ := MachineMemory ctx) regs action signal signalMask faultAddress altStack s =
        (.ok handler, s')) : HandlerStep frame (ctx, s) (ctx, s')

/-- What the delivery of a signal leaves: a frame in its place, and what it takes to undo the interruption. -/
structure FrameBuilt (ctx : Context) (s s' : Machine) (regs handler : GuestRegisters) (action : GuestSignalAction)
    (signalMask : SignalMask) (altStack : Option GuestSignalAltStack) : Prop where
  changes : ∃ bytes : List UInt8, bytes.length = x8664RtSigframeSize ∧
    s'.cell = Flat.store s.cell handler.rsp.toNat bytes
  below : selectedStack regs.rsp.toNat action.flags altStack = none →
    handler.rsp.toNat + x8664RtSigframeSize + x8664SignalRedZone ≤ regs.rsp.toNat
  inside : ∀ stack ∈ selectedStack regs.rsp.toNat action.flags altStack,
    stack.sp ≤ handler.rsp.toNat ∧ handler.rsp.toNat + x8664RtSigframeSize ≤ stack.sp + stack.size
  aligned : handler.rsp.toNat % 16 = 8
  fsBase : handler.fsBase = regs.fsBase
  restores : ∀ ctx' t, Relation.ReflTransGen (HandlerStep handler.rsp.toNat) (ctx, s') (ctx', t) →
    Flat.Permits t.cell (·.read) handler.rsp.toNat x8664RtSigframeSize →
    ∀ returning : GuestRegisters, returning.rsp = handler.rsp + 8 →
      restoreFrame (μ := MachineMemory ctx') t returning =
        .ok ⟨{ regs with fsBase := returning.fsBase }, signalMask⟩

/-! ### Little-endian values -/

theorem ofLeBytes_leBytes_toNat (value : UInt64) : ofLeBytes (leBytes 8 value.toNat) = value.toNat := by
  rw [ofLeBytes_leBytes]
  exact Nat.mod_eq_of_lt value.toNat_lt

theorem ofLeBytes_leBytes_mask (mask : SignalMask) : ofLeBytes (leBytes 8 mask.toNat) = mask.toNat := by
  rw [ofLeBytes_leBytes]
  exact Nat.mod_eq_of_lt mask.isLt

/-! ### The place of a frame -/

theorem frameSub_ok {a b c : Nat} : frameSub a b = .ok c ↔ b ≤ a ∧ a - b = c := by
  unfold frameSub
  by_cases h : b ≤ a
  · rw [if_pos h, Except.ok.injEq]
    exact ⟨fun heq => ⟨h, heq⟩, And.right⟩
  · rw [if_neg h]
    exact iff_of_false nofun fun hle => h hle.1

theorem frameAdd_ok {a b c : Nat} : frameAdd a b = .ok c ↔ a + b < 2 ^ 64 ∧ a + b = c := by
  unfold frameAdd
  by_cases h : a + b < 2 ^ 64
  · rw [if_pos h, Except.ok.injEq]
    exact ⟨fun heq => ⟨h, heq⟩, And.right⟩
  · rw [if_neg h]
    exact iff_of_false nofun fun hlt => h hlt.1

/-- A frame of aligned bytes below `top`, and the place of the return address below them. -/
theorem frameBelow_ok {top frame : Nat}
    (h : (frameSub top x8664RtSigframeSize >>= fun sp =>
      frameSub (sp / x8664FrameAlignment * x8664FrameAlignment) 8) = .ok frame) :
    frame % 16 = 8 ∧ frame + x8664RtSigframeSize + 8 ≤ top ∧ top < frame + x8664RtSigframeSize + 24 := by
  obtain ⟨bottom, hbottom, h⟩ := Prog.except_bind_eq_ok.mp h
  obtain ⟨hsize, rfl⟩ := frameSub_ok.mp hbottom
  obtain ⟨hbelow, rfl⟩ := frameSub_ok.mp h
  unfold x8664RtSigframeSize x8664FrameAlignment at *
  omega

/-- The address below which a frame is built. -/
def frameTop (rsp : Nat) (flags : BitVec 64) (altStack : Option GuestSignalAltStack) : Nat :=
  match selectedStack rsp flags altStack with
  | none => rsp - x8664SignalRedZone
  | some stack => stack.sp + stack.size

theorem signalFrameAddress_ok {rsp frame : Nat} {flags : BitVec 64} {altStack : Option GuestSignalAltStack}
    (h : signalFrameAddress rsp flags altStack = .ok frame) :
    x8664SignalRedZone ≤ rsp ∧ (∀ stack ∈ selectedStack rsp flags altStack, stack.sp + stack.size < 2 ^ 64) ∧
      frame % 16 = 8 ∧ frame + x8664RtSigframeSize + 8 ≤ frameTop rsp flags altStack ∧
      frameTop rsp flags altStack < frame + x8664RtSigframeSize + 24 := by
  unfold signalFrameAddress at h
  obtain ⟨sp, hsp, h⟩ := Prog.except_bind_eq_ok.mp h
  obtain ⟨hred, rfl⟩ := frameSub_ok.mp hsp
  refine ⟨hred, ?_⟩
  cases altStack with
  | none =>
      obtain ⟨top, htop, h⟩ := Prog.except_bind_eq_ok.mp h
      obtain rfl := Except.ok.inj htop
      exact ⟨nofun, frameBelow_ok h⟩
  | some stack =>
      by_cases hselected : flags &&& linuxSaOnstack ≠ 0 ∧ !stack.disabled ∧ !onSignalStack rsp stack
      · have hstack : selectedStack rsp flags (some stack) = some stack := by
          simpa [selectedStack, and_assoc] using hselected
        unfold frameTop
        simp only [if_pos hselected] at h
        obtain ⟨sp, hadd, h⟩ := Prog.except_bind_eq_ok.mp h
        obtain ⟨hbound, rfl⟩ := frameAdd_ok.mp hadd
        rw [hstack]
        refine ⟨fun other hother => Option.some.inj hother ▸ hbound, ?_⟩
        exact frameBelow_ok h
      · have hstack : selectedStack rsp flags (some stack) = none := by
          simpa [selectedStack, and_assoc] using hselected
        unfold frameTop
        simp only [if_neg hselected] at h
        obtain ⟨top, htop, h⟩ := Prog.except_bind_eq_ok.mp h
        obtain rfl := Except.ok.inj htop
        rw [hstack]
        exact ⟨nofun, frameBelow_ok h⟩

/-! ### The fields of a frame -/

section Fields

variable (frame : Nat) (regs : GprState) (action : GuestSignalAction) (signal : Nat) (signalMask : SignalMask)
  (faultAddress : GuestAddress) (altStack : Option GuestSignalAltStack)

def frameFields : List (Nat × List UInt8) :=
  [(frame, leBytes 8 action.restorer), (frame + 8, leBytes 8 0), (frame + 8 + 8, leBytes 8 0)] ++
    signalStackStores (frame + 8 + 16) altStack ++ sigcontextStores (frame + 8 + 40) regs signalMask faultAddress ++
    [(frame + 8 + 296, leBytes 8 signalMask.toNat)] ++
    siginfoStores (frame + 312) signal linuxSegvMaperr faultAddress

theorem signalFrameStores_eq : signalFrameStores frame regs action signal signalMask faultAddress altStack =
    (frame, List.replicate x8664RtSigframeSize 0) ::
      frameFields frame regs action signal signalMask faultAddress altStack := rfl

theorem frameFields_inOrder :
    Flat.InOrder (frameFields frame regs action signal signalMask faultAddress altStack) := by
  apply Flat.inOrder_of_chain
  simp [frameFields, signalStackStores, sigcontextStores, siginfoStores, Flat.Before,
    length_leBytes, Nat.add_assoc]

theorem frameFields_within :
    ∀ field ∈ frameFields frame regs action signal signalMask faultAddress altStack,
      frame ≤ field.1 ∧ field.1 + field.2.length ≤ frame + x8664RtSigframeSize := by
  simp [frameFields, signalStackStores, sigcontextStores, siginfoStores, length_leBytes,
    Nat.add_assoc, x8664RtSigframeSize]

end Fields

/-! ### A process's memory -/

section Machine

variable {ctx : Context} {s : Machine}

theorem writeBytes_spec (hwf : Wf ctx s) (hd : s.mem.Disjoint) (addr : Nat) (bytes : List UInt8) :
    Prog.wp (GuestMemoryAccess.writeBytes addr bytes : Prog (MachineMemory ctx) Unit Unit)
      (fun _ s' => Kept ctx s s' ∧ Flat.Permits s.cell (·.write) addr bytes.length ∧
        s'.cell = Flat.store s.cell addr bytes) (fun _ _ => True) s := by
  have hwrite := Prog.wp_and (Memory.writeGuest_kept hwf addr bytes) (Memory.write_refines hwf hd addr bytes)
  refine Prog.wp_mapError.mpr (Prog.wp_mono hwrite ?_ fun _ _ _ => trivial)
  rintro _ s' ⟨hkept, hallowed, hcell⟩
  exact ⟨hkept, hallowed, hcell⟩

theorem storeAll_spec (hwf : Wf ctx s) (hd : s.mem.Disjoint) (stores : List (GuestAddress × List UInt8)) :
    Prog.wp (storeAll stores : Prog (MachineMemory ctx) LinuxErrno Unit)
      (fun _ s' => Kept ctx s s' ∧ (∀ store ∈ stores, Flat.Permits s.cell (·.write) store.1 store.2.length) ∧
        s'.cell = Flat.storeAll s.cell stores) (fun _ _ => True) s := by
  induction stores generalizing s with
  | nil => exact (Prog.wp_pure ()).mpr ⟨(Memory.Cowed.refl hwf).kept, nofun, rfl⟩
  | cons store stores ih =>
      refine Prog.wp_bind.mpr (Prog.wp_mapError.mpr ?_)
      refine Prog.wp_mono (writeBytes_spec hwf hd store.1 store.2) ?_ fun _ _ _ => trivial
      rintro _ t ⟨hkept, hpermits, hcell⟩
      refine Prog.wp_mono (ih hkept.wf (hkept.disjoint hd)) ?_ fun _ _ _ => trivial
      rintro _ s' ⟨hkept', hrest, hcell'⟩
      rw [hcell] at hrest hcell'
      refine ⟨hkept.trans hkept', ?_, hcell'⟩
      intro other hother
      rcases List.mem_cons.mp hother with rfl | hlater
      · exact hpermits
      · exact Flat.permits_store.mp (hrest other hlater)

theorem readGuestU64_of_shows (hwf : Wf ctx s) (hd : s.mem.Disjoint) {addr value : Nat} (hbound : addr < 2 ^ 64)
    (hshows : Flat.Shows s.cell addr (leBytes 8 value)) (hread : Flat.Permits s.cell (·.read) addr 8) :
    readGuestU64 (μ := MachineMemory ctx) s addr = .ok (ofLeBytes (leBytes 8 value)) := by
  have hbytes := hshows.bytes (length_leBytes 8 value) hread
  have hok : Flat.read s.cell addr 8 = .ok (leBytes 8 value) := (Memory.read_eq_ok hwf hbound).mpr hbytes
  have hrun : (Memory.read addr 8 s).1 = .ok (leBytes 8 value) := by
    rw [Memory.read_refines hwf hd, hok]
    rfl
  have haccess : GuestMemoryAccess.readBytes (μ := MachineMemory ctx) addr 8 s = some (leBytes 8 value) := by
    simp only [GuestMemoryAccess.readBytes]
    rw [hrun]
  unfold readGuestU64
  rw [haccess]

/-! ### Delivery -/

section Delivery

variable {s' : Machine} {regs handler : GuestRegisters} {action : GuestSignalAction} {signal : Nat}
  {signalMask : SignalMask} {faultAddress : GuestAddress} {altStack : Option GuestSignalAltStack}

/-- What a delivery that succeeds has done. -/
theorem setupFrame_ok (hwf : Wf ctx s) (hd : s.mem.Disjoint)
    (h : setupFrame (μ := MachineMemory ctx) regs action signal signalMask faultAddress altStack s =
      (.ok handler, s')) :
    ∃ frame : Nat, signalFrameAddress regs.rsp.toNat action.flags altStack = .ok frame ∧
      handler = .ofGpr (handlerRegisters frame regs.gpr action signal) regs.fsBase ∧ Kept ctx s s' ∧
      (∀ store ∈ signalFrameStores frame regs.gpr action signal signalMask faultAddress altStack,
        Flat.Permits s.cell (·.write) store.1 store.2.length) ∧
      s'.cell =
        Flat.storeAll s.cell (signalFrameStores frame regs.gpr action signal signalMask faultAddress altStack) := by
  have hrun : Prog.wp (setupFrame (μ := MachineMemory ctx) regs action signal signalMask faultAddress altStack)
      (fun handler s' => ∃ frame : Nat, signalFrameAddress regs.rsp.toNat action.flags altStack = .ok frame ∧
        handler = .ofGpr (handlerRegisters frame regs.gpr action signal) regs.fsBase ∧ Kept ctx s s' ∧
        (∀ store ∈ signalFrameStores frame regs.gpr action signal signalMask faultAddress altStack,
          Flat.Permits s.cell (·.write) store.1 store.2.length) ∧
        s'.cell = Flat.storeAll s.cell
          (signalFrameStores frame regs.gpr action signal signalMask faultAddress altStack))
      (fun _ _ => True) s := by
    refine Prog.wp_bind.mpr ?_
    unfold setupRtSignalFrame
    refine Prog.wp_ite.mpr ?_
    split
    · exact (Prog.wp_throw einval).mpr trivial
    · refine Prog.wp_bind.mpr (Prog.wp_check (fun _ _ => trivial) ?_)
      intro frame hframe
      refine Prog.wp_bind.mpr (Prog.wp_check (fun _ _ => trivial) ?_)
      intro uc _
      refine Prog.wp_bind.mpr (Prog.wp_check (fun _ _ => trivial) ?_)
      intro mcontext _
      refine Prog.wp_bind.mpr (Prog.wp_check (fun _ _ => trivial) ?_)
      intro siginfo _
      refine Prog.wp_bind.mpr (Prog.wp_mono (storeAll_spec hwf hd _) ?_ fun _ _ _ => trivial)
      rintro _ t ⟨hkept, hpermits, hcell⟩
      exact (Prog.wp_pure _).mpr ((Prog.wp_pure _).mpr ⟨frame, hframe, rfl, hkept, hpermits, hcell⟩)
  exact Prog.wp_ok hrun h

theorem handler_rsp {frame : Nat} (hframe : frame < 2 ^ 64) :
    (GuestRegisters.ofGpr (handlerRegisters frame regs.gpr action signal) regs.fsBase).rsp.toNat = frame := by
  show (UInt64.ofNat frame).toNat = frame
  rw [UInt64.toNat_ofNat']
  exact Nat.mod_eq_of_lt hframe

theorem signalFrame_bounded {rsp frame : Nat} {flags : BitVec 64} (hrsp : rsp < 2 ^ 64)
    (h : signalFrameAddress rsp flags altStack = .ok frame) : frame + x8664RtSigframeSize + 8 < 2 ^ 64 := by
  obtain ⟨_, hbound, _, hbelow, _⟩ := signalFrameAddress_ok h
  apply lt_of_le_of_lt hbelow
  unfold frameTop
  cases hselected : selectedStack rsp flags altStack with
  | none => exact lt_of_le_of_lt (Nat.sub_le _ _) hrsp
  | some stack => exact hbound stack (hselected ▸ rfl)

theorem setupFrame_store (hwf : Wf ctx s) (hd : s.mem.Disjoint)
    (h : setupFrame (μ := MachineMemory ctx) regs action signal signalMask faultAddress altStack s =
      (.ok handler, s')) :
    ∃ bytes : List UInt8, bytes.length = x8664RtSigframeSize ∧
      s'.cell = Flat.store s.cell handler.rsp.toNat bytes := by
  obtain ⟨frame, hframe, rfl, _, _, hcell⟩ := setupFrame_ok hwf hd h
  have hbound := signalFrame_bounded regs.rsp.toNat_lt hframe
  rw [handler_rsp (by omega), hcell, signalFrameStores_eq, Flat.storeAll_cons]
  have hwithin := frameFields_within frame regs.gpr action signal signalMask faultAddress altStack
  obtain ⟨bytes, hlength, hstores⟩ : ∃ bytes : List UInt8,
      bytes.length = (List.replicate x8664RtSigframeSize (0 : UInt8)).length ∧
        (Flat.store s.cell frame (List.replicate x8664RtSigframeSize 0)).storeAll
          (frameFields frame regs.gpr action signal signalMask faultAddress altStack) = Flat.store s.cell frame bytes := by
    apply Flat.storeAll_within
    rw [List.length_replicate]
    exact hwithin
  exact ⟨bytes, hlength.trans List.length_replicate, hstores⟩

/-! ### The frame until the handler returns -/

theorem validStack_size {stack : GuestSignalAltStack} (h : validateSigaltstack stack = .ok ())
    (henabled : stack.disabled = false) : linuxMinsigstksz ≤ stack.size := by
  unfold validateSigaltstack at h
  by_contra hsmall
  have hfails : (!stack.disabled) = true ∧ stack.size < linuxMinsigstksz := ⟨by rw [henabled]; rfl, by omega⟩
  rw [if_pos hfails] at h
  split at h <;> cases h

theorem mem_selectedStack {rsp : GuestAddress} {flags : BitVec 64} {stack : GuestSignalAltStack}
    (h : stack ∈ selectedStack rsp flags altStack) :
    stack ∈ altStack ∧ stack.disabled = false ∧ onSignalStack rsp stack = false := by
  unfold selectedStack at h
  obtain ⟨hmem, hselected⟩ := Option.mem_filter_iff.mp h
  simp only [Bool.and_eq_true, Bool.not_eq_true'] at hselected
  exact ⟨hmem, hselected.1.2, hselected.2⟩

theorem onSignalStack_iff {rsp : Nat} {stack : GuestSignalAltStack} : onSignalStack rsp stack = true ↔
    stack.sp + stack.size < 2 ^ 64 ∧ stack.sp ≤ rsp ∧ rsp < stack.sp + stack.size := by
  unfold onSignalStack
  simp only [Bool.and_eq_true, decide_eq_true_eq, and_assoc]

theorem nested_apart {frame rsp nested : Nat} {flags : BitVec 64} (hvalid : ValidStack altStack)
    (hbelow : rsp ≤ frame + 8)
    (hstack : ∀ stack ∈ altStack, onSignalStack frame stack = true → onSignalStack rsp stack = true)
    (h : signalFrameAddress rsp flags altStack = .ok nested) :
    nested + x8664RtSigframeSize ≤ frame ∨ frame + x8664RtSigframeSize ≤ nested := by
  obtain ⟨hred, hbound, _, htop, hnear⟩ := signalFrameAddress_ok h
  cases hselected : selectedStack rsp flags altStack with
  | none =>
      have hplace : frameTop rsp flags altStack = rsp - x8664SignalRedZone := by
        unfold frameTop
        rw [hselected]
      left
      unfold x8664SignalRedZone x8664RtSigframeSize at *
      omega
  | some stack =>
      obtain ⟨hmem, henabled, hoff⟩ := mem_selectedStack (hselected ▸ rfl : stack ∈ selectedStack rsp flags altStack)
      have hsize := validStack_size (hvalid stack hmem) henabled
      have hstop := hbound stack (hselected ▸ rfl)
      -- the handler would be on the stack if its frame were
      have hframe : ¬onSignalStack frame stack = true := by
        intro hon
        rw [hstack stack hmem hon] at hoff
        cases hoff
      rw [onSignalStack_iff] at hframe
      have hplace : frameTop rsp flags altStack = stack.sp + stack.size := by
        unfold frameTop
        rw [hselected]
      unfold linuxMinsigstksz x8664RtSigframeSize GuestAddress at *
      omega

variable {ctx' : Context} {t : Machine} {frame : Nat}

def SameFrame (frame : Nat) (s t : Machine) : Prop :=
  ∀ x, frame ≤ x → x < frame + x8664RtSigframeSize → (t.cell x).map (·.byte) = (s.cell x).map (·.byte)

theorem HandlerStep.sameFrame (h : HandlerStep frame (ctx, s) (ctx', t)) (hwf : Wf ctx s) (hd : s.mem.Disjoint) :
    Wf ctx' t ∧ t.mem.Disjoint ∧ SameFrame frame s t := by
  cases h with
  | guest hwf' hd' hsame => exact ⟨hwf', hd', hsame⟩
  | nested hvalid hbelow hstack hsetup =>
      obtain ⟨nested, hnested, rfl, hkept, _⟩ := setupFrame_ok hwf hd hsetup
      obtain ⟨bytes, hlength, hcell⟩ := setupFrame_store hwf hd hsetup
      rw [handler_rsp (by have := signalFrame_bounded (UInt64.toNat_lt _) hnested; omega)] at hcell
      have hapart := nested_apart hvalid hbelow hstack hnested
      refine ⟨hkept.wf, hkept.disjoint hd, ?_⟩
      intro x hlow hhigh
      have hout : ¬(nested ≤ x ∧ x < nested + bytes.length) := by
        rw [hlength]
        omega
      rw [hcell, Flat.store_apply]
      cases s.cell x with
      | none => rfl
      | some c => rw [Option.map_some, if_neg hout]

theorem handlerRun_sameFrame {start last : Context × Machine}
    (h : Relation.ReflTransGen (HandlerStep frame) start last) (hwf : Wf start.1 start.2)
    (hd : start.2.mem.Disjoint) : Wf last.1 last.2 ∧ last.2.mem.Disjoint ∧ SameFrame frame start.2 last.2 := by
  induction h with
  | refl => exact ⟨hwf, hd, fun _ _ _ => rfl⟩
  | tail _ hstep ih =>
      obtain ⟨hwf', hd', hsame⟩ := ih
      obtain ⟨hwf'', hd'', hsame'⟩ := HandlerStep.sameFrame hstep hwf' hd'
      refine ⟨hwf'', hd'', ?_⟩
      intro x hlow hhigh
      exact (hsame' x hlow hhigh).trans (hsame x hlow hhigh)

/-! ### Return -/

theorem restoreFrame_of_fields {returning : GuestRegisters} (hwf : Wf ctx s) (hd : s.mem.Disjoint)
    (hbound : frame + x8664RtSigframeSize + 8 < 2 ^ 64) (hrsp : returning.rsp.toNat = frame + 8)
    (hfields : ∀ field ∈ frameFields frame regs.gpr action signal signalMask faultAddress altStack,
      Flat.Shows s.cell field.1 field.2)
    (hread : Flat.Permits s.cell (·.read) frame x8664RtSigframeSize) :
    restoreFrame (μ := MachineMemory ctx) s returning =
      .ok ⟨{ regs with fsBase := returning.fsBase }, signalMask⟩ := by
  have hfield : ∀ (i : Nat) (addr value : Nat),
      (frameFields frame regs.gpr action signal signalMask faultAddress altStack)[i]? =
        some (addr, leBytes 8 value) →
      readGuestU64 (μ := MachineMemory ctx) s addr = .ok (ofLeBytes (leBytes 8 value)) := by
    intro i addr value hi
    have hmem := List.mem_of_getElem? hi
    obtain ⟨hlow, hhigh⟩ := frameFields_within frame regs.gpr action signal signalMask faultAddress altStack _ hmem
    simp only [length_leBytes] at hlow hhigh
    apply readGuestU64_of_shows hwf hd (by omega) (hfields _ hmem)
    intro y hy hy'
    exact hread y (by omega) (by omega)
  have hsub : frameSub returning.gpr.rsp 8 = .ok frame := by
    refine frameSub_ok.mpr ⟨?_, ?_⟩
    · show 8 ≤ returning.rsp.toNat
      omega
    · show returning.rsp.toNat - 8 = frame
      omega
  have huc : frameAdd frame 8 = .ok (frame + 8) := frameAdd_ok.mpr ⟨by omega, rfl⟩
  have hmcontext : frameAdd (frame + 8) 40 = .ok (frame + 8 + 40) :=
    frameAdd_ok.mpr ⟨by unfold x8664RtSigframeSize at hbound; omega, rfl⟩
  unfold restoreFrame restoreRtSignalFrame readSigcontext
  simp only [bind, Except.bind, hsub, huc, hmcontext]
  rw [hfield 34 _ _ rfl, hfield 7 _ _ rfl, hfield 8 _ _ rfl, hfield 9 _ _ rfl, hfield 10 _ _ rfl, hfield 11 _ _ rfl,
    hfield 12 _ _ rfl, hfield 13 _ _ rfl, hfield 14 _ _ rfl, hfield 15 _ _ rfl, hfield 16 _ _ rfl,
    hfield 17 _ _ rfl, hfield 18 _ _ rfl, hfield 19 _ _ rfl, hfield 20 _ _ rfl, hfield 21 _ _ rfl,
    hfield 22 _ _ rfl, hfield 23 _ _ rfl, hfield 24 _ _ rfl]
  simp only [pure, Except.pure, GuestRegisters.gpr, ofLeBytes_leBytes_toNat, ofLeBytes_leBytes_mask,
    BitVec.ofNat_toNat, BitVec.setWidth_eq]
  exact congrArg (fun regs => Except.ok (RestoredSignalFrame.mk regs signalMask))
    (GuestRegisters.ofGpr_gpr regs returning.fsBase)

/-- A delivery changes the bytes of a frame in its place, and until the handler returns the frame keeps what the
return gives back. -/
theorem setupFrame_built (hwf : Wf ctx s) (hd : s.mem.Disjoint) (hvalid : ValidStack altStack)
    (h : setupFrame (μ := MachineMemory ctx) regs action signal signalMask faultAddress altStack s =
      (.ok handler, s')) : FrameBuilt ctx s s' regs handler action signalMask altStack := by
  have hchanges := setupFrame_store hwf hd h
  obtain ⟨frame, hframe, hhandler, hkept, hpermits, hcell⟩ := setupFrame_ok hwf hd h
  have hbound := signalFrame_bounded regs.rsp.toNat_lt hframe
  have hrsp : handler.rsp.toNat = frame := by
    rw [hhandler]
    exact handler_rsp (by omega)
  obtain ⟨hred, _, haligned, htop, hnear⟩ := signalFrameAddress_ok hframe
  refine ⟨hchanges, ?_, ?_, hrsp ▸ haligned, hhandler ▸ rfl, ?_⟩
  · intro hselected
    unfold frameTop at htop
    rw [hselected] at htop
    simp only at htop
    omega
  · intro stack hselected
    obtain ⟨hmem, henabled, _⟩ := mem_selectedStack hselected
    have hsize := validStack_size (hvalid stack hmem) henabled
    have hplace : frameTop regs.rsp.toNat action.flags altStack = stack.sp + stack.size := by
      unfold frameTop
      rw [Option.mem_def.mp hselected]
    unfold linuxMinsigstksz x8664RtSigframeSize GuestAddress at *
    omega
  · intro ctx' t hrun hread returning hreturning
    obtain ⟨hwf', hd', hsame⟩ := handlerRun_sameFrame hrun hkept.wf (hkept.disjoint hd)
    rw [hrsp] at hread hsame
    have hreturn : returning.rsp.toNat = frame + 8 := by
      rw [hreturning, UInt64.toNat_add, hrsp]
      exact Nat.mod_eq_of_lt (by unfold x8664RtSigframeSize at hbound; simp; omega)
    have hfields : ∀ field ∈ frameFields frame regs.gpr action signal signalMask faultAddress altStack,
        Flat.Shows t.cell field.1 field.2 := by
      intro field hfield
      obtain ⟨hlow, hhigh⟩ :=
        frameFields_within frame regs.gpr action signal signalMask faultAddress altStack _ hfield
      have hstored : Flat.Shows s'.cell field.1 field.2 := by
        rw [hcell, signalFrameStores_eq, Flat.storeAll_cons]
        apply Flat.shows_storeAll _ hfield
        · exact Flat.permits_store.mpr (hpermits field (List.mem_cons_of_mem _ hfield))
        · exact frameFields_inOrder frame regs.gpr action signal signalMask faultAddress altStack
      apply hstored.congr
      intro y hy hy'
      exact hsame y (by omega) (by omega)
    exact restoreFrame_of_fields hwf' hd' hbound hreturn hfields hread

end Delivery

end Machine

/-! ### Two stacks -/

open Memory

def interruptedRegisters : GuestRegisters where
  rax := 0x11
  rbx := 0x22
  rcx := 0x33
  rdx := 0x44
  rsi := 0x55
  rdi := 0x66
  rbp := 0x77
  rsp := 0x2001000
  r8 := 0x88
  r9 := 0x99
  r10 := 0xaa
  r11 := 0xbb
  r12 := 0xcc
  r13 := 0xdd
  r14 := 0xee
  r15 := 0xff
  rip := 0x401000
  rflags := 0x10246
  fsBase := 0x700000

def restoringAction : GuestSignalAction := ⟨0x500000, linuxSaRestorer ||| linuxSaOnstack, 0x600000, 0x20⟩

def alternateStack : GuestSignalAltStack := ⟨0x2000000, 0, 0x1000⟩

/-- A page that may be written and not read. -/
def writeOnlyStack : List (Nat × Event) := [(0, .call (.mmap (fixedMapping 0x2000000 0x1000 2)))]

theorem alternateStack_built :
    ∃ s s' handler, ((World.initial freshMemory).run (Host.granting .windows) codePage).machine 0 = some s ∧
      FrameBuilt (((World.initial freshMemory).run (Host.granting .windows) codePage).context (Host.granting .windows) 0)
        s s' interruptedRegisters handler restoringAction 0x40 (some alternateStack) := by
  let w := (World.initial freshMemory).run (Host.granting .windows) codePage
  let ctx := w.context (Host.granting .windows) 0
  have hs : w.machine 0 = some w.first := World.machine_first (by decide +kernel)
  obtain ⟨hwf, hd⟩ := codePage_reached hs
  have hvalid : ValidStack (some alternateStack) := by
    intro stack hstack
    obtain rfl := Option.some.inj hstack
    decide
  have hok : (setupFrame (μ := MachineMemory ctx) interruptedRegisters restoringAction 11 0x40 0
      (some alternateStack) w.first).1 =
        .ok (.ofGpr (handlerRegisters 0x2000e38 interruptedRegisters.gpr restoringAction 11) 0x700000) := by
    decide +kernel
  rcases hrun : setupFrame (μ := MachineMemory ctx) interruptedRegisters restoringAction 11 0x40 0
    (some alternateStack) w.first with ⟨r, s'⟩
  rw [hrun] at hok
  subst hok
  exact ⟨w.first, s', _, hs, setupFrame_built hwf hd hvalid hrun⟩

/-- A frame on a page that may not be read is built, and the return fails. -/
theorem writeOnlyStack_fails :
    ∃ s, ((World.initial freshMemory).run (Host.granting .windows) writeOnlyStack).machine 0 = some s ∧
      ∃ (s' : Machine) (handler : GuestRegisters),
        setupFrame (μ := MachineMemory (((World.initial freshMemory).run (Host.granting .windows)
          writeOnlyStack).context (Host.granting .windows) 0)) interruptedRegisters restoringAction 11 0x40 0 none s =
            (.ok handler, s') ∧
        restoreFrame (μ := MachineMemory (((World.initial freshMemory).run (Host.granting .windows)
          writeOnlyStack).context (Host.granting .windows) 0)) s' { handler with rsp := handler.rsp + 8 } =
            .error efault := by
  let w := (World.initial freshMemory).run (Host.granting .windows) writeOnlyStack
  let ctx := w.context (Host.granting .windows) 0
  let handler := GuestRegisters.ofGpr (handlerRegisters 0x2000db8 interruptedRegisters.gpr restoringAction 11) 0x700000
  have hs : w.machine 0 = some w.first := World.machine_first (by decide +kernel)
  have hok : (setupFrame (μ := MachineMemory ctx) interruptedRegisters restoringAction 11 0x40 0 none
      w.first).1 = .ok handler := by decide +kernel
  have hfails : restoreFrame (μ := MachineMemory ctx) (setupFrame (μ := MachineMemory ctx) interruptedRegisters
      restoringAction 11 0x40 0 none w.first).2 { handler with rsp := handler.rsp + 8 } = .error efault := by
    decide +kernel
  rcases hrun : setupFrame (μ := MachineMemory ctx) interruptedRegisters restoringAction 11 0x40 0 none
    w.first with ⟨r, s'⟩
  rw [hrun] at hok hfails
  subst hok
  exact ⟨w.first, hs, s', handler, hrun, hfails⟩

end Mcr.Runtime
