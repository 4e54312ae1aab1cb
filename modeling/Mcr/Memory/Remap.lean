import Mcr.Memory.Heap

/-!
# `mmap` over whole runs

A mapping that no host allocation has room for merges every host allocation its range touches, the
later over the earlier. After a fork a detached page lives in an allocation of its own while the
allocation it came from still spans it; a remap may put the page back into the older one, and the next
merge then lays the stale detached page over it. A mapping leaves the rest of the address space alone
exactly when each live page that moves has its own bytes on top.
-/

namespace Mcr.Memory

open Prog World

/-- The new range is zero under the requested protection; every other address is as it was. -/
structure MmapCorrect (s s' : Machine) (start length : Nat) (protection : GuestMemoryProtection) : Prop where
  zeroed : ∀ x, start ≤ x → x < start + length → ∃ kind, s'.cell x = some ⟨0, protection, kind⟩
  framed : ∀ x, ¬ (start ≤ x ∧ x < start + length) → s'.cell x = s.cell x

/-- Among the allocations the mapping at `[start, start + length)` merges, the last one over each live
address holds the byte that the address shows. -/
def MergeClean (ctx : Context) (s : Machine) (start length : Nat) : Prop :=
  ∀ key v a x, s.mem.vmas.get? key = some v → s.mem.allocations.get? v.allocationId = some a →
    v.allocationId ∈ mergedIds ctx s start length → v.start ≤ x → x < v.stop →
    homeByte ctx s start length x = a.byteAt s.heap x

def MmapClean (ctx : Context) (s : Machine) (args : MmapSyscallArgs) : Prop :=
  ∀ start length, mmapPlace ctx s args = some (start, length) →
    MergeClean ctx (cleared args s start length) start length

section Call

variable {ctx : Context} {s t s' : Machine} {start length : Nat} {protection : GuestMemoryProtection}
  {kind : GuestVmaKind}

theorem Wf.cell_of_vma (hwf : Wf ctx s) (hd : s.mem.Disjoint) {key x : Nat} {v : GuestVma} {a : GuestAllocation}
    (hv : s.mem.vmas.get? key = some v) (ha : s.mem.allocations.get? v.allocationId = some a)
    (hlow : v.start ≤ x) (hhigh : x < v.stop) :
    s.cell x = some ⟨a.byteAt s.heap x, v.protection, v.kind⟩ := by
  obtain ⟨a', ha', hcell⟩ := hwf.cell_of_containing (hwf.containing_of_vma hd hv hlow hhigh)
  obtain rfl := Option.some.inj (ha.symm.trans ha')
  exact hcell

/-- Outside its range `MAP_FIXED` unmaps nothing. -/
theorem cleared_cell (hwf : Wf ctx s) (hd : s.mem.Disjoint) {args : MmapSyscallArgs}
    (hstart : args.isFixed = true → Aligned start) (hlength : Aligned length) {x : Nat}
    (hx : ¬ (start ≤ x ∧ x < start + length)) : (cleared args s start length).cell x = s.cell x := by
  unfold cleared
  split
  · rename_i hfixed
    have haligned := hstart hfixed
    have hstop : Aligned (start + length) := Nat.dvd_add haligned hlength
    apply Option.ext
    intro c
    rw [(unmapRange_wf hwf haligned hstop).cell_eq_some_iff (unmapRange_disjoint hwf haligned hd),
      hwf.cell_eq_some_iff hd, unmapRange_shows hwf hd haligned hstop]
    exact and_iff_left hx
  · rfl

theorem Mapped.framed_iff (h : Mapped ctx t s' start (start + length) protection kind
      (mergedIds ctx t start length) (homeByte ctx t start length)) (hwf : Wf ctx t) (hd : t.mem.Disjoint) :
    (∀ x, ¬ (start ≤ x ∧ x < start + length) → s'.cell x = t.cell x) ↔ MergeClean ctx t start length := by
  have hcell : ∀ x c, s'.cell x = some c ↔ _ := fun x c =>
    (h.wf.cell_eq_some_iff (h.disjoint hd)).trans (h.shows x c)
  constructor
  · intro hframed key v a x hv ha hin hlow hhigh
    have hfree := h.free key v hv
    have hbefore := hwf.cell_of_vma hd hv ha hlow hhigh
    have hafter := (hcell x _).mpr (.inr ⟨key, v, a, hv, hlow, hhigh, ha, rfl⟩)
    rw [hframed x (by omega), hbefore, if_pos hin, Option.some.injEq, Cell.mk.injEq] at hafter
    exact hafter.1.symm
  · intro hclean x hx
    apply Option.ext
    intro c
    rw [hcell, hwf.cell_eq_some_iff hd, Machine.shows_iff]
    have hbyte : ∀ key v a, t.mem.vmas.get? key = some v → t.mem.allocations.get? v.allocationId = some a →
        v.start ≤ x → x < v.stop →
        (if v.allocationId ∈ mergedIds ctx t start length then homeByte ctx t start length x
          else a.byteAt t.heap x) = a.byteAt t.heap x := by
      intro key v a hv ha hlow hhigh
      split
      · rename_i hin
        exact hclean key v a x hv ha hin hlow hhigh
      · rfl
    constructor
    · rintro (⟨hin, _⟩ | ⟨key, v, a, hv, hlow, hhigh, ha, rfl⟩)
      · exact absurd hin hx
      · exact ⟨key, v, a, hv, hlow, hhigh, ha, by rw [hbyte key v a hv ha hlow hhigh]⟩
    · rintro ⟨key, v, a, hv, hlow, hhigh, ha, rfl⟩
      exact .inr ⟨key, v, a, hv, hlow, hhigh, ha, by rw [hbyte key v a hv ha hlow hhigh]⟩

/-- A successful call is correct exactly when its merge is clean. -/
theorem mmap_correct_iff_of_wf (hwf : Wf ctx s) (hd : s.mem.Disjoint) (hgrants : ∀ n site, ctx.refusal n site = none)
    (hids : s.mem.nextAllocationId + 1 < u64Limit) {args : MmapSyscallArgs}
    (hcall : mmap ctx args s = (.ok start, s')) :
    ∃ length protection, pageRoundLength args.length = .ok length ∧
      GuestMemoryProtection.fromLinux args.prot = .ok protection ∧
      (MmapCorrect s s' start length protection ↔ MmapClean ctx s args) := by
  obtain ⟨length, protection, kind, hlen, hprot, _, haligned, hmapped, hplace⟩ :=
    wp_ok (mmap_spec hwf (fun n => hgrants n .restore) hids args) hcall
  obtain ⟨_, _, hlength, _⟩ := pageRoundLength_ok hlen
  have hplace := hplace fun e => by
    rintro ⟨site, n, error, hrefused, _⟩
    rw [hgrants] at hrefused
    simp at hrefused
  have hwf' : Wf ctx (cleared args s start length) := by
    unfold cleared
    split
    · rename_i hfixed
      exact unmapRange_wf hwf (haligned hfixed) (Nat.dvd_add (haligned hfixed) hlength)
    · exact hwf
  have hiff := hmapped.framed_iff hwf' (cleared_disjoint hwf hd haligned)
  refine ⟨length, protection, hlen, hprot, fun hcorrect start' length' hplace' => ?_, fun hclean => ⟨?_, ?_⟩⟩
  · rw [hplace, Option.some.injEq, Prod.mk.injEq] at hplace'
    obtain ⟨rfl, rfl⟩ := hplace'
    refine hiff.mp fun x hx => ?_
    rw [hcorrect.framed x hx, cleared_cell hwf hd haligned hlength hx]
  · intro x hlow hhigh
    refine ⟨kind, ?_⟩
    rw [hmapped.wf.cell_eq_some_iff (hmapped.disjoint (cleared_disjoint hwf hd haligned)), hmapped.shows]
    exact .inl ⟨⟨hlow, hhigh⟩, rfl⟩
  · intro x hx
    rw [hiff.mpr (hclean start length hplace) x hx, cleared_cell hwf hd haligned hlength hx]

end Call

/-- After a clean run a successful `mmap` changes its own range and nothing else exactly when the merge
under it is clean. -/
theorem mmap_correct_iff (platform : HostPlatform) {initialBrk mmapBase addressSpaceEnd : Nat}
    {memory : GuestMemory} {events : List (Nat × Event)}
    (hlayout : GuestMemory.withLayout initialBrk mmapBase addressSpaceEnd = .ok memory)
    (hrun : CleanRun (Host.granting platform) (World.initial memory) events) {pid : Nat} {s s' : Machine}
    (hs : ((World.initial memory).run (Host.granting platform) events).machine pid = some s)
    (hids : s.mem.nextAllocationId + 1 < u64Limit) {args : MmapSyscallArgs} {start : Nat} {ctx : Context}
    (hctx : ctx = ((World.initial memory).run (Host.granting platform) events).context
      (Host.granting platform) pid)
    (hcall : mmap ctx args s = (.ok start, s')) :
    ∃ length protection, pageRoundLength args.length = .ok length ∧
      GuestMemoryProtection.fromLinux args.prot = .ok protection ∧
      (MmapCorrect s s' start length protection ↔ MmapClean ctx s args) := by
  subst hctx
  obtain ⟨hwf, hd⟩ := hrun.reached (fun _ => rfl) hlayout hs
  exact mmap_correct_iff_of_wf hwf hd (fun _ _ => rfl) hids hcall

theorem mmap_apart_correct :
    ∃ s s', ((World.initial freshMemory).run (Host.granting .windows)
        [(0, .call (.mmap (fixedMapping 0x2000000 0x10000 3)))]).machine 0 = some s ∧
      mmap (((World.initial freshMemory).run (Host.granting .windows)
          [(0, .call (.mmap (fixedMapping 0x2000000 0x10000 3)))]).context (Host.granting .windows) 0)
        (fixedMapping 0x2010000 0x10000 1) s = (.ok 0x2010000, s') ∧
      MmapCorrect s s' 0x2010000 0x10000 ⟨true, false, false⟩ := by
  let w := (World.initial freshMemory).run (Host.granting .windows)
    [(0, .call (.mmap (fixedMapping 0x2000000 0x10000 3)))]
  let ctx := w.context (Host.granting .windows) 0
  have hrun : CleanRun (Host.granting .windows) (World.initial freshMemory)
      [(0, .call (.mmap (fixedMapping 0x2000000 0x10000 3)))] := by
    refine ⟨⟨fun s op hs _ _ => ?_, fun s requested hs h => ?_⟩, trivial⟩
    · obtain rfl := Option.some.inj hs
      decide
    · simp at h
  have hs : w.machine 0 = some w.first := machine_first (by decide +kernel)
  have hids : w.first.mem.nextAllocationId + 1 < u64Limit := by decide +kernel
  have hok : (mmap ctx (fixedMapping 0x2010000 0x10000 1) w.first).1 = .ok 0x2010000 := by decide +kernel
  have hplace : mmapPlace ctx w.first (fixedMapping 0x2010000 0x10000 1) = some (0x2010000, 0x10000) := by
    decide +kernel
  have halone : mergedIds ctx (cleared (fixedMapping 0x2010000 0x10000 1) w.first 0x2010000 0x10000) 0x2010000
      0x10000 = [] := by decide +kernel
  obtain ⟨length, protection, hlen, hprot, hiff⟩ :=
    mmap_correct_iff .windows withLayout_freshMemory hrun hs hids rfl (run_eq hok)
  have hlen' : pageRoundLength (fixedMapping 0x2010000 0x10000 1).length = .ok 0x10000 := by decide +kernel
  have hprot' : GuestMemoryProtection.fromLinux (fixedMapping 0x2010000 0x10000 1).prot =
      .ok ⟨true, false, false⟩ := by decide +kernel
  obtain rfl := Except.ok.inj (hlen'.symm.trans hlen)
  obtain rfl := Except.ok.inj (hprot'.symm.trans hprot)
  refine ⟨w.first, _, hs, run_eq hok, hiff.mpr fun start length hp => ?_⟩
  rw [hplace, Option.some.injEq, Prod.mk.injEq] at hp
  obtain ⟨rfl, rfl⟩ := hp
  intro key v a x _ _ hin
  rw [halone] at hin
  simp at hin

/-- Four blocks of 64 KiB shared by a fork; three of them are detached by `mprotect`, the first of these is unmapped
and mapped again, now out of the old allocation, and written. -/
def detachedThenRemapped : List (Nat × Event) :=
  [(0, .call (.mmap (fixedMapping 0x2000000 0x40000 1))), (0, .fork .flexible),
    (0, .call (.mprotect 0x2010000 0x30000 3)), (0, .call (.munmap 0x2010000 0x10000)),
    (0, .call (.mmap (fixedMapping 0x2010000 0x10000 3))), (0, .call (.write 0x2010000 [42]))]

/-- A mapping two blocks further on merges the two allocations and zeroes the written byte. -/
theorem mmap_merges_stale_page :
    ∃ s s', ((World.initial freshMemory).run (Host.granting .windows) detachedThenRemapped).machine 0 = some s ∧
      mmap (((World.initial freshMemory).run (Host.granting .windows) detachedThenRemapped).context
        (Host.granting .windows) 0) (fixedMapping 0x2030000 0x20000 3) s = (.ok 0x2030000, s') ∧
      ¬ ∃ protection, MmapCorrect s s' 0x2030000 0x20000 protection := by
  let w := (World.initial freshMemory).run (Host.granting .windows) detachedThenRemapped
  let ctx := w.context (Host.granting .windows) 0
  have hs : w.machine 0 = some w.first := machine_first (by decide +kernel)
  have hok : (mmap ctx (fixedMapping 0x2030000 0x20000 3) w.first).1 = .ok 0x2030000 := by decide +kernel
  have hbefore : w.first.cell 0x2010000 = some ⟨42, ⟨true, true, false⟩, .anonymous⟩ := by decide +kernel
  have hafter : (mmap ctx (fixedMapping 0x2030000 0x20000 3) w.first).2.cell 0x2010000 =
      some ⟨0, ⟨true, true, false⟩, .anonymous⟩ := by decide +kernel
  refine ⟨w.first, _, hs, run_eq hok, ?_⟩
  rintro ⟨protection, hcorrect⟩
  generalize (mmap ctx (fixedMapping 0x2030000 0x20000 3) w.first).2 = s' at *
  generalize w.first = s at *
  have hframed := hcorrect.framed 0x2010000 (by omega)
  rw [hafter, hbefore] at hframed
  simp at hframed

end Mcr.Memory
