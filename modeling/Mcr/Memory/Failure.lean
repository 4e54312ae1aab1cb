import Mcr.Memory.Integrity

/-!
# A host that refuses allocations

A merge gives the old host memories back before it asks for the new one, and on a refusal asks for
them again. When those requests are granted a failed `mmap` or `set_brk` has lost nothing; when one of
them is refused as well, the VMAs of the allocation are left without one.
-/

namespace Mcr.Memory

open Prog World

/-- The VMA is where it was, over a live allocation that holds the same bytes for it. -/
structure Intact (s s' : Machine) (key : Nat) (v : GuestVma) : Prop where
  present : s'.mem.vmas.get? key = some v
  live : ∃ a a', s.mem.allocations.get? v.allocationId = some a ∧
    s'.mem.allocations.get? v.allocationId = some a' ∧
    ∀ x, v.start ≤ x → x < v.stop → a'.byteAt s'.heap x = a.byteAt s.heap x

/-- No access to the state can panic. -/
structure Safe (ctx : Context) (s : Machine) : Prop where
  call : ∀ op : Op, (op.merges = true → s.mem.nextAllocationId + 1 < u64Limit) →
    (op.exec ctx s).1 ≠ .error .panic
  read : ∀ address len, (Memory.read address len s).1 ≠ .error .panic

section Call

variable {ctx : Context} {s s' : Machine}

theorem Similar.intact (h : Similar s s') (hwf : Wf ctx s) {key : Nat} {v : GuestVma}
    (hv : s.mem.vmas.get? key = some v) : Intact s s' key v := by
  obtain ⟨a, ha, hlink, hend⟩ := (hwf.vma key v hv).linked
  obtain ⟨a', ha', hguest, hsame⟩ := h.get ha
  refine ⟨by rw [h.vmas]; exact hv, a, a', ha, ha', fun x hlow hhigh => ?_⟩
  unfold GuestAllocation.byteAt
  rw [hguest]
  exact (hsame.byte _ (by omega)).symm

theorem Wf.safe (hwf : Wf ctx s) (hrestore : ∀ n, ctx.refusal n .restore = none) : Safe ctx s := by
  refine ⟨fun op hop hpanic => ?_, fun address len hpanic => ?_⟩
  · exact (wp_error (exec_sound hwf hrestore op hop) (run_eq hpanic)).2 rfl
  · obtain ⟨_, error, h, _⟩ := wp_error (copyGuest_spec hwf address len .read) (run_eq hpanic)
    simp at h

/-- A VMA outside the range a call with `MAP_FIXED` asks for is outside what it unmaps. -/
theorem cleared_intact (hwf : Wf ctx s) {args : MmapSyscallArgs} {length : Nat} (hpos : 0 < length)
    (haligned : Aligned args.addr) {key : Nat} {v : GuestVma} (hv : s.mem.vmas.get? key = some v)
    (hout : args.isFixed = true → v.stop ≤ args.addr ∨ args.addr + length ≤ v.start) :
    (cleared args s args.addr length).mem.vmas.get? key = some v ∧
      (cleared args s args.addr length).mem.allocations.get? v.allocationId =
        s.mem.allocations.get? v.allocationId ∧
      (cleared args s args.addr length).heap = s.heap := by
  unfold cleared
  split
  · rename_i hfixed
    obtain ⟨hget, hallocation⟩ := unmapRange_get hwf haligned (Nat.lt_add_of_pos_right hpos) hv (hout hfixed)
    exact ⟨hget, hallocation, rfl⟩
  · exact ⟨hv, rfl, rfl⟩

/-- The checks of `mmap` accept the arguments, and place the mapping. -/
structure Checked (memory : GuestMemory) (args : MmapSyscallArgs) (start length : Nat) : Prop where
  protection : ∃ protection, GuestMemoryProtection.fromLinux args.prot = .ok protection
  rounded : pageRoundLength args.length = .ok length
  kind : ∃ kind, mmapKind args = .ok kind
  placed : memory.mmapStart args length = .ok start

/-- `MAP_FIXED` is granted where it was asked for. A failed `mmap` has unmapped its range when the checks were
past, and nothing otherwise. -/
theorem mmap_outcome (hwf : Wf ctx s) (hrestore : ∀ n, ctx.refusal n .restore = none)
    (hids : s.mem.nextAllocationId + 1 < u64Limit) (args : MmapSyscallArgs) :
    (mmap ctx args).wp (fun start _ => args.isFixed = true → start = args.addr)
      (fun e s' => e ≠ .panic ∧
        ((¬ (args.isFixed = true ∧ ∃ start length, Checked s.mem args start length) ∧ Similar s s') ∨
          ∃ start length, args.isFixed = true ∧ Checked s.mem args start length ∧
            MmapFailed ctx args s s' start length)) s := by
  cases hfixed : args.isFixed with
  | false =>
      apply wp_mono (mmap_spec hwf hrestore hids args) (fun _ _ _ h => (nomatch h))
      rintro e s' ⟨hpanic, h | ⟨_, _, h, _⟩⟩
      · exact ⟨hpanic, .inl ⟨fun h => (nomatch h.1), h.1⟩⟩
      · rw [hfixed] at h
        nomatch h
  | true =>
      have hearly : ∀ error : GuestMemoryError, (∀ start length, ¬ Checked s.mem args start length) →
          Abort.error error ≠ .panic ∧
            ((¬ (true = true ∧ ∃ start length, Checked s.mem args start length) ∧ Similar s s) ∨
              ∃ start length, true = true ∧ Checked s.mem args start length ∧
                MmapFailed ctx args s s start length) := by
        intro error hchecked
        refine ⟨by simp, .inl ⟨?_, Similar.refl s⟩⟩
        rintro ⟨_, start, length, h⟩
        exact hchecked start length h
      unfold mmap
      refine wp_check_bind (fun protection hprot => ?_) fun e he => hearly e fun _ _ h => ?_
      swap
      · obtain ⟨_, h⟩ := h.protection
        exact nomatch he.symm.trans h
      refine wp_check_bind (fun length hlen => ?_) fun e he => hearly e fun _ _ h => ?_
      swap
      · exact nomatch he.symm.trans h.rounded
      refine wp_check_bind (fun kind hkind => ?_) fun e he => hearly e fun _ _ h => ?_
      swap
      · obtain ⟨_, h⟩ := h.kind
        exact nomatch he.symm.trans h
      rw [wp_bind, wp_getMem]
      refine wp_check_bind (fun start hstart => ?_) fun e he => hearly e fun _ length' h => ?_
      swap
      · obtain rfl := Except.ok.inj (hlen.symm.trans h.rounded)
        exact nomatch he.symm.trans h.placed
      obtain ⟨hpos, _, hlength, _⟩ := pageRoundLength_ok hlen
      obtain ⟨rfl, haligned⟩ := mmapStart_fixed hfixed hstart
      apply wp_mono (mmapLoop_fixed_spec hwf hrestore hids hfixed hpos hlength (mmapKind_ne_heap hkind) haligned _)
        (fun _ _ h _ => h.1)
      intro e s' h
      exact ⟨h.2, .inr ⟨args.addr, length, rfl, ⟨⟨protection, hprot⟩, hlen, ⟨kind, hkind⟩, hstart⟩, h.1⟩⟩

/-- What is left of the range is empty. -/
theorem MmapFailed.cell {args : MmapSyscallArgs} {start length : Nat} (h : MmapFailed ctx args s s' start length)
    (hwf : Wf ctx s) (hd : s.mem.Disjoint) (hfixed : args.isFixed = true) (hchecked : Checked s.mem args start length)
    (x : Nat) : s'.cell x = if start ≤ x ∧ x < start + length then none else s.cell x := by
  obtain ⟨_, haligned⟩ := mmapStart_fixed hfixed hchecked.placed
  obtain ⟨_, _, hlength, _⟩ := pageRoundLength_ok hchecked.rounded
  have hstop : Aligned (start + length) := Nat.dvd_add haligned hlength
  have hcleared : cleared args s start length = { s with mem := s.mem.unmapRange start (start + length) } := by
    simp [cleared, hfixed]
  rw [h.1.cell x, hcleared]
  apply Option.ext
  intro c
  rw [(unmapRange_wf hwf haligned hstop).cell_eq_some_iff (unmapRange_disjoint hwf haligned hd),
    unmapRange_shows hwf hd haligned hstop, ← hwf.cell_eq_some_iff hd]
  by_cases hx : start ≤ x ∧ x < start + length
  · simp only [hx, not_true_eq_false, and_false, and_self, if_true, reduceCtorEq]
  · simp only [hx, not_false_eq_true, and_true, if_false]

end Call

/-- While a host gives back what a failed merge took, a failed `mmap` or `set_brk` leaves every VMA
outside the range it asked for, and what it leaves is safe to use. -/
theorem failed_call_intact {host : Host} (hrestore : ∀ n, host.refusal n .restore = none)
    {initialBrk mmapBase addressSpaceEnd : Nat} {memory : GuestMemory} {events : List (Nat × Event)}
    (hlayout : GuestMemory.withLayout initialBrk mmapBase addressSpaceEnd = .ok memory)
    (hids : Along host IdLeft (World.initial memory) events) {pid : Nat} {s s' : Machine}
    (hs : ((World.initial memory).run host events).machine pid = some s)
    (hid : s.mem.nextAllocationId + 1 < u64Limit) {ctx : Context}
    (hctx : ctx = ((World.initial memory).run host events).context host pid) {error : Abort} :
    (∀ args, mmap ctx args s = (.error error, s') → Safe ctx s' ∧
      ∀ key v, s.mem.vmas.get? key = some v →
        (args.isFixed = true → ∀ length, pageRoundLength args.length = .ok length →
          v.stop ≤ args.addr ∨ args.addr + length ≤ v.start) → Intact s s' key v) ∧
    (∀ requested, setBrk ctx requested s = (.error error, s') → Safe ctx s' ∧
      ∀ key v, s.mem.vmas.get? key = some v → Intact s s' key v) := by
  subst hctx
  have hwf := (run_sound hrestore (initial_sound host hlayout).1 hids).wf pid s hs
  refine ⟨fun args hcall => ?_, fun requested hcall => ?_⟩
  · obtain ⟨_, ⟨hsim, hwf'⟩ | ⟨length, hlen, hfixed, haligned, hsim, hwf'⟩⟩ :=
      wp_error (mmap_spec hwf hrestore hid args) hcall
    · exact ⟨hwf'.safe hrestore, fun key v hv _ => hsim.intact hwf hv⟩
    · refine ⟨hwf'.safe hrestore, fun key v hv hout => ?_⟩
      obtain ⟨hpos, _, hlength, _⟩ := pageRoundLength_ok hlen
      obtain ⟨hget, hallocation, hheap⟩ := cleared_intact hwf hpos haligned hv fun h => hout h length hlen
      have hcleared : Wf (((World.initial memory).run host events).context host pid)
          (cleared args s args.addr length) := by
        unfold cleared
        rw [if_pos hfixed]
        exact unmapRange_wf hwf haligned (Nat.dvd_add haligned hlength)
      obtain ⟨hpresent, a, a', ha, ha', hbytes⟩ := hsim.intact hcleared hget
      rw [hallocation] at ha
      rw [hheap] at hbytes
      exact ⟨hpresent, a, a', ha, ha', hbytes⟩
  · obtain ⟨⟨hsim, hwf'⟩, _⟩ := wp_error (setBrk_spec hwf hrestore hid requested) hcall
    exact ⟨hwf'.safe hrestore, fun key v hv => hsim.intact hwf hv⟩

/-- Two blocks of 64 KiB mapped, and the second unmapped. -/
def halfMapped : List (Nat × Event) :=
  [(0, .call (.mmap (fixedMapping 0x2000000 0x20000 3))), (0, .call (.munmap 0x2010000 0x10000))]

def Host.refusing (sites : List AllocSite) : Host where
  platform := .windows
  refusal := fun _ site => if site ∈ sites then some ⟨.allocateMemory, .outOfMemory⟩ else none

theorem failed_mmap_intact :
    ∃ s s', ((World.initial freshMemory).run (Host.refusing [.replacement]) halfMapped).machine 0 = some s ∧
      mmap (((World.initial freshMemory).run (Host.refusing [.replacement]) halfMapped).context
        (Host.refusing [.replacement]) 0) (fixedMapping 0x2010000 0x20000 3) s =
          (.error (.error (.host ⟨.allocateMemory, .outOfMemory⟩)), s') ∧
      ∃ v, s.mem.vmas.get? 0x2000000 = some v ∧ Intact s s' 0x2000000 v := by
  let w := (World.initial freshMemory).run (Host.refusing [.replacement]) halfMapped
  let ctx := w.context (Host.refusing [.replacement]) 0
  have hrestore : ∀ n, (Host.refusing [.replacement]).refusal n .restore = none := fun _ => rfl
  have hids : Along (Host.refusing [.replacement]) IdLeft (World.initial freshMemory) halfMapped :=
    ⟨idLeft_first (by decide +kernel) (by decide +kernel), idLeft_first (by decide +kernel) (by decide +kernel),
      trivial⟩
  have hs : w.machine 0 = some w.first := machine_first (by decide +kernel)
  have hid : w.first.mem.nextAllocationId + 1 < u64Limit := by decide +kernel
  have hcall : (mmap ctx (fixedMapping 0x2010000 0x20000 3) w.first).1 =
      .error (.error (.host ⟨.allocateMemory, .outOfMemory⟩)) := by decide +kernel
  have hvma : w.first.mem.vmas.get? 0x2000000 =
      some ⟨0x2000000, 0x2010000, ⟨true, true, false⟩, .anonymous, 1, 0⟩ := by decide +kernel
  have hkept := (failed_call_intact hrestore withLayout_freshMemory hids hs hid rfl).1
    (fixedMapping 0x2010000 0x20000 3) (run_eq hcall)
  refine ⟨w.first, _, hs, run_eq hcall, _, hvma, hkept.2 _ _ hvma fun _ length hlen => .inl ?_⟩
  decide

/-- When the host also refuses to give the old memory back, the VMA in front of the range names an
allocation that is gone, and reading it panics. -/
theorem failed_restore_loses_vma :
    ∃ s s', ((World.initial freshMemory).run (Host.refusing [.replacement, .restore]) halfMapped).machine 0 =
        some s ∧
      mmap (((World.initial freshMemory).run (Host.refusing [.replacement, .restore]) halfMapped).context
        (Host.refusing [.replacement, .restore]) 0) (fixedMapping 0x2010000 0x20000 3) s =
          (.error (.error (.host ⟨.allocateMemory, .outOfMemory⟩)), s') ∧
      (∃ v, s.mem.vmas.get? 0x2000000 = some v ∧ v.stop = 0x2010000 ∧ ¬ Intact s s' 0x2000000 v) ∧
      (read 0x2000000 1 s').1 = .error .panic := by
  let w := (World.initial freshMemory).run (Host.refusing [.replacement, .restore]) halfMapped
  let ctx := w.context (Host.refusing [.replacement, .restore]) 0
  have hs : w.machine 0 = some w.first := machine_first (by decide +kernel)
  have hcall : (mmap ctx (fixedMapping 0x2010000 0x20000 3) w.first).1 =
      .error (.error (.host ⟨.allocateMemory, .outOfMemory⟩)) := by decide +kernel
  have hvma : w.first.mem.vmas.get? 0x2000000 =
      some ⟨0x2000000, 0x2010000, ⟨true, true, false⟩, .anonymous, 1, 0⟩ := by decide +kernel
  have hgone : (mmap ctx (fixedMapping 0x2010000 0x20000 3) w.first).2.mem.allocations.get? 1 = none := by
    decide +kernel
  have hpanic : (read 0x2000000 1 (mmap ctx (fixedMapping 0x2010000 0x20000 3) w.first).2).1 = .error .panic := by
    decide +kernel
  refine ⟨w.first, _, hs, run_eq hcall, ⟨_, hvma, rfl, fun h => ?_⟩, hpanic⟩
  generalize (mmap ctx (fixedMapping 0x2010000 0x20000 3) w.first).2 = s' at *
  obtain ⟨_, a', _, ha', _⟩ := h.live
  rw [hgone] at ha'
  simp at ha'

end Mcr.Memory
