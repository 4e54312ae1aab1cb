import Mcr.Memory.Remap

/-!
# The tables over whole runs

Every call keeps the VMA table and the allocation table tied together, and none panics, while
allocation ids last. When they run out a merge of allocations is given up after the old allocations
have been dropped, and the VMAs that named them are left without one.
-/

namespace Mcr.Memory

open Prog World

/-- The representation invariant of a guest memory. -/
structure RepInv (s : Machine) : Prop where
  vma : ∀ key v, s.mem.vmas.get? key = some v → key = v.start ∧ v.start < v.stop ∧ Aligned v.start ∧
    Aligned v.stop ∧ minGuestAddress ≤ v.start ∧ v.stop ≤ s.mem.addressSpaceEnd
  disjoint : s.mem.Disjoint
  linked : ∀ key v, s.mem.vmas.get? key = some v → ∃ a, s.mem.allocations.get? v.allocationId = some a ∧
    a.guestStart + v.allocationOffset = v.start ∧ v.allocationOffset + v.len ≤ (s.heap.object a.memory).len

theorem Wf.repInv {ctx : Context} {s : Machine} (hwf : Wf ctx s) (hd : s.mem.Disjoint) : RepInv s := by
  refine ⟨fun key v hv => ?_, hd, fun key v hv => ?_⟩
  · have h := hwf.vma key v hv
    exact ⟨h.key, h.nonempty, h.startAligned, h.stopAligned, h.low, h.high⟩
  · obtain ⟨a, ha, hlink, hend⟩ := (hwf.vma key v hv).linked
    have hne := (hwf.vma key v hv).nonempty
    refine ⟨a, ha, hlink, ?_⟩
    unfold GuestVma.len
    omega

def Event.IsNotBrk (event : Event) : Prop := ∀ requested, event ≠ .call (.setBrk requested)

theorem World.Along.clean {host : Host} {events : List (Nat × Event)}
    (hbrk : ∀ e ∈ events, e.2.IsNotBrk) :
    ∀ w, Along host IdLeft w events → CleanRun host w events := by
  induction events with
  | nil => intro w _; trivial
  | cons e rest ih =>
      intro w h
      refine ⟨⟨h.1, fun s requested _ hevent => ?_⟩, ih (fun e he => hbrk e (List.mem_cons_of_mem _ he)) _ h.2⟩
      exact absurd hevent (hbrk e List.mem_cons_self requested)

/-- While allocation ids last, every run keeps the invariant in every process, and no call or fork on
what it reaches panics. -/
theorem run_repInv (platform : HostPlatform) {initialBrk mmapBase addressSpaceEnd : Nat}
    {memory : GuestMemory} {events : List (Nat × Event)}
    (hlayout : GuestMemory.withLayout initialBrk mmapBase addressSpaceEnd = .ok memory)
    (hbrk : ∀ e ∈ events, e.2.IsNotBrk)
    (hids : Along (Host.granting platform) IdLeft (World.initial memory) events) {pid : Nat} {s : Machine}
    (hs : ((World.initial memory).run (Host.granting platform) events).machine pid = some s) {ctx : Context}
    (hctx : ctx = ((World.initial memory).run (Host.granting platform) events).context
      (Host.granting platform) pid) :
    RepInv s ∧
      (∀ op : Op, (op.merges = true → s.mem.nextAllocationId + 1 < u64Limit) →
        (op.exec ctx s).1 ≠ .error .panic) ∧
      (∀ mode, (tryCloneRuntime ctx mode s).1 ≠ .error .panic) ∧
      ∀ address len, (read address len s).1 ≠ .error .panic := by
  subst hctx
  obtain ⟨hwf, hd⟩ := (Along.clean hbrk _ hids).reached (fun _ => rfl) hlayout hs
  have hmade : ∀ id a, s.mem.allocations.get? id = some a → a.memory < s.heap.next :=
    fun id a ha => (hwf.allocation id a ha).made
  -- a program whose early exits are no panics does not end in one
  have hsafe : ∀ {α : Type} {m : MemM α} {Q : α → Machine → Prop} {E : Machine → Prop},
      m.wp Q (fun e s' => E s' ∧ e ≠ .panic) s → (m s).1 ≠ .error .panic := by
    intro α m Q E h hpanic
    exact (wp_error h (run_eq hpanic)).2 rfl
  refine ⟨hwf.repInv hd, fun op hop => hsafe (exec_sound hwf (fun _ => rfl) op hop),
    fun mode => hsafe (tryCloneRuntime_spec _ mode s hmade), fun address len => ?_⟩
  refine hsafe (wp_mono (read_spec hwf hd address len) (fun _ _ h => h) (fun e s' h => ⟨h.1, ?_⟩))
  obtain ⟨_, error, rfl, _⟩ := h
  simp

theorem World.idLeft_first {w : World} {event : Event} (hlength : 0 < w.memories.length)
    (hid : w.first.mem.nextAllocationId + 1 < u64Limit) : IdLeft w 0 event := by
  intro s op hs _ _
  rw [machine_first hlength] at hs
  obtain rfl := Option.some.inj hs
  exact hid

/-- Two pages mapped read-only, a fork, and the second page made writable. -/
def forkAndProtect : List (Nat × Event) :=
  [(0, .call (.mmap (fixedMapping 0x2000000 0x2000 1))), (0, .fork .flexible),
    (0, .call (.mprotect 0x2001000 0x1000 3))]

theorem forkAndProtect_repInv :
    ∃ s, ((World.initial freshMemory).run (Host.granting .windows) forkAndProtect).machine 0 = some s ∧ RepInv s := by
  have hbrk : ∀ e ∈ forkAndProtect, e.2.IsNotBrk := by
    intro e he requested
    simp only [forkAndProtect, List.mem_cons, List.not_mem_nil, or_false] at he
    rcases he with rfl | rfl | rfl <;> simp
  have hids : Along (Host.granting .windows) IdLeft (World.initial freshMemory) forkAndProtect :=
    ⟨idLeft_first (by decide +kernel) (by decide +kernel), idLeft_first (by decide +kernel) (by decide +kernel),
      idLeft_first (by decide +kernel) (by decide +kernel), trivial⟩
  have hs : ((World.initial freshMemory).run (Host.granting .windows) forkAndProtect).machine 0 =
      some ((World.initial freshMemory).run (Host.granting .windows) forkAndProtect).first :=
    machine_first (by decide +kernel)
  exact ⟨_, hs, (run_repInv .windows withLayout_freshMemory hbrk hids hs rfl).1⟩

/-! ### Running out of allocation ids -/

/-- A memory with nothing mapped that has handed out every allocation id below `n`. -/
def idling (n : Nat) : GuestMemory := { freshMemory with nextAllocationId := n }

/-- One VMA over the start of the allocation `n`. -/
def heldVma (n stop : Nat) : GuestVma := ⟨0x2000000, stop, ⟨true, true, false⟩, .anonymous, n, 0⟩

/-- The same memory with the pages up to `stop` mapped, out of one allocation. -/
def holding (n stop : Nat) (arc : ArcId) : GuestMemory :=
  { idling (n + 1) with
    vmas := .insert .empty 0x2000000 (heldVma n stop)
    allocations := .insert .empty n ⟨0x2000000, arc⟩ }

def aloneContext : Context := ⟨.windows, fun _ _ => none, fun _ => 0⟩

theorem step_alone (memory : GuestMemory) (heap : HostHeap) (op : Op) :
    (⟨[memory], heap⟩ : World).step (Host.granting .windows) 0 (.call op) =
      ⟨[(op.exec aloneContext ⟨memory, heap⟩).2.mem], (op.exec aloneContext ⟨memory, heap⟩).2.heap⟩ := rfl

section Exhaust

variable {n : Nat} (heap : HostHeap)

theorem allocationRefused_alone {site : AllocSite} {start len : Nat} {error : HostError}
    (h : AllocationRefused aloneContext site start len .flexible error) (hlen : 0 < len) : False := by
  rcases h with h | ⟨h, _⟩ | ⟨_, h⟩
  · omega
  · simp at h
  · simp [aloneContext] at h

theorem ensureHostAllocation_idling (hn : n + 1 < u64Limit) :
    (ensureHostAllocation aloneContext 0x2000000 0x20000).wp
      (fun r s' => r = (n, 0) ∧
        s'.mem = { idling (n + 1) with allocations := .insert .empty n ⟨0x2000000, heap.next⟩ } ∧
        (s'.heap.object heap.next).len = 0x20000) (fun _ _ => False) ⟨idling n, heap⟩ := by
  have hraw : checkedRawRange 0x2000000 0x20000 = .ok 0x2020000 := by decide +kernel
  have hrange : hostAllocationRange aloneContext 0x2000000 0x20000 = .ok (0x2000000, 0x20000) := by
    decide +kernel
  rw [ensureHostAllocation, wp_bind, wp_check, hraw]
  simp only
  rw [wp_bind, wp_get]
  simp only [show (idling n).findContaining heap 0x2000000 0x2020000 = none from rfl]
  rw [wp_bind, wp_check, hrange]
  simp only
  rw [wp_bind, wp_check, hraw]
  simp only [show (idling n).allocations.entries = [] from rfl, List.filter_nil, List.map_nil, widenOver,
    ne_eq, not_true_eq_false, if_false, lt_irrefl]
  rw [if_neg (by decide), wp_bind]
  refine wp_allocateGuestHostMemoryAt (fun heap' halloc _ _ => ?_) (fun error heap' hrefused _ _ => ?_)
  · have hid : (idling n).nextAllocationId + 1 < u64Limit := hn
    simp only [wp_bind, wp_insertAllocation, hid, if_true]
    refine (wp_pure _).mpr ⟨rfl, rfl, ?_⟩
    rw [halloc.object]
    simp [HostHeap.set]
  · exact allocationRefused_alone hrefused (by decide)

theorem zeroAllocationRange_alone {s : Machine} {arc : ArcId}
    (hmem : s.mem = { idling (n + 1) with allocations := .insert .empty n ⟨0x2000000, arc⟩ })
    (hlen : (s.heap.object arc).len = 0x20000) :
    (zeroAllocationRange aloneContext n 0 0x20000).wp
      (fun _ s' => s'.mem = s.mem ∧ (s'.heap.object arc).len = 0x20000) (fun _ _ => False) s := by
  have hget : s.mem.allocations.get? n = some ⟨0x2000000, arc⟩ := by rw [hmem]; simp
  have hcount : strongCount aloneContext s.mem arc = 1 := by
    rw [hmem]
    simp [strongCount, aloneContext, GuestMemory.ownCount, SortedMap.values, SortedMap.insert,
      SortedMap.insertList, SortedMap.empty]
  have hranges : s.mem.allocationProtectionRanges n = [] := by rw [hmem]; rfl
  rw [zeroAllocationRange, wp_bind, wp_getMem, wp_bind]
  refine ensureAllocationUnique_exclusive ⟨_, hget, hcount⟩ ?_
  rw [wp_bind]
  refine wp_expectAllocation_ok hget ?_
  rw [wp_bind, wp_protect, if_neg (by rw [hlen]; decide), wp_bind]
  refine allocationMemoryMut_exclusive hget hcount ?_
  rw [wp_bind, wp_zeroFill, if_pos ⟨by decide, by rw [hlen]⟩, wp_bind]
  refine wp_expectAllocation_ok hget ?_
  rw [hranges]
  exact wp_applyAllocationProtections ⟨rfl, by simpa [HostHeap.set] using hlen⟩
    (.inr fun _ h => absurd h (by simp))

theorem mmap_idling (hn : n + 1 < u64Limit) :
    (mmap aloneContext (fixedMapping 0x2000000 0x20000 3)).wp
      (fun _ s' => s'.mem = holding n 0x2020000 heap.next ∧ (s'.heap.object heap.next).len = 0x20000)
      (fun _ _ => False) ⟨idling n, heap⟩ := by
  have hprot : GuestMemoryProtection.fromLinux (fixedMapping 0x2000000 0x20000 3).prot =
      .ok ⟨true, true, false⟩ := by decide +kernel
  have hlen : pageRoundLength (fixedMapping 0x2000000 0x20000 3).length = .ok 0x20000 := by decide +kernel
  have hkind : mmapKind (fixedMapping 0x2000000 0x20000 3) = .ok .anonymous := by decide +kernel
  have hstart : (idling n).mmapStart (fixedMapping 0x2000000 0x20000 3) 0x20000 = .ok 0x2000000 := rfl
  have hstop : checkedMappingEnd 0x2000000 0x20000 0x4000000 = .ok 0x2020000 := by decide +kernel
  have hfixed : (fixedMapping 0x2000000 0x20000 3).isFixed = true := by decide
  rw [mmap, hprot, hlen, hkind]
  simp only [wp_bind, wp_check, wp_getMem, hstart]
  rw [mmapHostConflictRetries, mmapLoop, wp_bind, wp_when, if_pos hfixed, wp_modifyMem, wp_tryCatch, wp_bind,
    insertMapping, wp_bind]
  have hidle : (idling n).unmapRange 0x2000000 (0x2000000 + 0x20000) = idling n := rfl
  have hfree : (idling n).overlaps 0x2000000 0x2020000 = false := rfl
  simp only [hidle, wp_getMem, wp_bind, wp_check, show (idling n).addressSpaceEnd = 0x4000000 from rfl, hstop,
    hfree, Bool.false_eq_true, if_false]
  refine wp_mono (ensureHostAllocation_idling heap hn) (fun r s' h => ?_) (fun _ _ h => h.elim)
  obtain ⟨rfl, hmem, hobject⟩ := h
  simp only
  refine wp_mono (zeroAllocationRange_alone hmem hobject) (fun _ t h => ?_) (fun _ _ h => h.elim)
  rw [hmem] at h
  have hget : t.mem.allocations.get? n = some ⟨0x2000000, heap.next⟩ := by rw [h.1]; simp
  refine wp_expectAllocation_ok hget (wp_protectRange_ok (by decide) (by rw [h.2]) ?_)
  rw [insertVma, wp_modifyMem, wp_pure]
  refine ⟨?_, h.2⟩
  rw [h.1]
  rfl

theorem dropUnreferenced_holding (arc : ArcId) :
    (holding n 0x2010000 arc).dropUnreferencedAllocations = holding n 0x2010000 arc := by
  simp [GuestMemory.dropUnreferencedAllocations, holding, heldVma, SortedMap.filter, SortedMap.insert,
    SortedMap.values, SortedMap.insertList, SortedMap.empty]

theorem unmapRange_second (arc : ArcId) :
    (holding n 0x2020000 arc).unmapRange 0x2010000 0x2020000 = holding n 0x2010000 arc :=
  dropUnreferenced_holding arc

theorem unmapRange_beyond (arc : ArcId) :
    (holding n 0x2010000 arc).unmapRange 0x2010000 (0x2010000 + 0x20000) = holding n 0x2010000 arc :=
  dropUnreferenced_holding arc

variable {arc : ArcId}

/-- The merge drops the one allocation and then finds no id for the new one. -/
theorem replaceOverlapping_out_of_ids (hn : ¬ n + 2 < u64Limit) (hlen : (heap.object arc).len = 0x20000) :
    (replaceOverlappingAllocations aloneContext 0x2010000 0x2000000 0x2030000 [n]).wp (fun _ _ => False)
      (fun e s' => e = .error .outOfMemory ∧ s'.mem = { holding n 0x2010000 arc with allocations := .empty })
      ⟨holding n 0x2010000 arc, heap⟩ := by
  have hget : (holding n 0x2010000 arc).allocations.get? n = some ⟨0x2000000, arc⟩ := by simp [holding]
  have hranges : (holding n 0x2010000 arc).allocationProtectionRanges n = [⟨0, 0x10000, ⟨true, true, false⟩⟩] := by
    have hvalues : (holding n 0x2010000 arc).vmas.values = [heldVma n 0x2010000] := rfl
    have hlength : (heldVma n 0x2010000).len = 0x10000 := by
      show 0x2010000 - 0x2000000 = 0x10000
      rfl
    rw [GuestMemory.allocationProtectionRanges, hvalues, List.filter_cons_of_pos (by simp [heldVma]),
      List.filter_nil, List.map_cons, List.map_nil, hlength]
    rfl
  have hdropped : (holding n 0x2010000 arc).allocations.filter (fun id _ => decide (id ∉ [n])) = .empty := by
    simp [holding, SortedMap.filter, SortedMap.insert, SortedMap.insertList, SortedMap.empty]
  rw [replaceOverlappingAllocations, Prog.collect, wp_bind, wp_bind, saveAllocation, wp_bind, wp_getMem, wp_bind]
  refine wp_expectAllocation_ok hget ?_
  rw [wp_bind, wp_get, wp_bind, hranges]
  refine wp_guardedBytes (fun r hr => ?_) (Nat.zero_le _) (by rw [hlen]; decide) le_rfl ?_
  · obtain rfl := List.mem_singleton.mp hr
    rw [hlen]
    decide
  rw [wp_pure, wp_bind, Prog.collect, wp_pure, wp_pure, wp_bind, wp_getMem, wp_bind, wp_modifyMem]
  simp only [hdropped]
  rw [if_neg (by decide), wp_bind, wp_tryCatch]
  refine wp_allocateGuestHostMemoryAt (fun heap' halloc _ _ => ?_) (fun error heap' hrefused _ _ => ?_)
  · have hnew : (heap'.object heap.next).len = 0x30000 := by
      rw [halloc.object]
      simp [HostHeap.set]
    have hid : ¬ (holding n 0x2010000 arc).nextAllocationId + 1 < u64Limit := hn
    rw [wp_bind, Prog.forEach, wp_bind, wp_copyInto, if_pos ⟨by simp, by simp [hnew, hlen], by simp⟩, Prog.forEach,
      wp_pure, wp_bind]
    simp only [wp_insertAllocation, hid, if_false]
    trivial
  · exact (allocationRefused_alone hrefused (by decide)).elim

/-- Mapping over the end of the only allocation then leaves its VMA without one. -/
theorem mmap_out_of_ids (hn : ¬ n + 2 < u64Limit) (hlen : (heap.object arc).len = 0x20000) :
    (mmap aloneContext (fixedMapping 0x2010000 0x20000 3)).wp (fun _ _ => False)
      (fun _ s' => s'.mem = { holding n 0x2010000 arc with allocations := .empty })
      ⟨holding n 0x2010000 arc, heap⟩ := by
  have hprot : GuestMemoryProtection.fromLinux (fixedMapping 0x2010000 0x20000 3).prot =
      .ok ⟨true, true, false⟩ := by decide +kernel
  have hround : pageRoundLength (fixedMapping 0x2010000 0x20000 3).length = .ok 0x20000 := by decide +kernel
  have hkind : mmapKind (fixedMapping 0x2010000 0x20000 3) = .ok .anonymous := by decide +kernel
  have hstart : (holding n 0x2010000 arc).mmapStart (fixedMapping 0x2010000 0x20000 3) 0x20000 =
      .ok 0x2010000 := rfl
  have hstop : checkedMappingEnd 0x2010000 0x20000 0x4000000 = .ok 0x2030000 := by decide +kernel
  have hfixed : (fixedMapping 0x2010000 0x20000 3).isFixed = true := by decide
  have hfree : (holding n 0x2010000 arc).overlaps 0x2010000 0x2030000 = false := rfl
  have hraw : checkedRawRange 0x2010000 0x20000 = .ok 0x2030000 := by decide +kernel
  have hrange : hostAllocationRange aloneContext 0x2010000 0x20000 = .ok (0x2010000, 0x20000) := by
    decide +kernel
  have hentries : (holding n 0x2010000 arc).allocations.entries = [(n, ⟨0x2000000, arc⟩)] := rfl
  have hend : GuestAllocation.guestEnd heap ⟨0x2000000, arc⟩ = 0x2020000 := by
    unfold GuestAllocation.guestEnd
    rw [hlen]
    show min (0x2000000 + 0x20000) (u64Limit - 1) = 0x2020000
    decide +kernel
  have hnone : (holding n 0x2010000 arc).findContaining heap 0x2010000 0x2030000 = none := by
    simp [GuestMemory.findContaining, hentries, GuestAllocation.containsGuestRange, hend]
  have hover : GuestAllocation.overlapsGuestRange heap ⟨0x2000000, arc⟩ 0x2010000 0x2030000 = true := by
    simp [GuestAllocation.overlapsGuestRange, hend]
  rw [mmap, hprot, hround, hkind]
  simp only [wp_bind, wp_check, wp_getMem, hstart]
  rw [mmapHostConflictRetries, mmapLoop, wp_bind, wp_when, if_pos hfixed, wp_modifyMem, wp_tryCatch, wp_bind,
    insertMapping, wp_bind]
  simp only [unmapRange_beyond, wp_getMem, wp_bind, wp_check,
    show (holding n 0x2010000 arc).addressSpaceEnd = 0x4000000 from rfl, hstop, hfree, Bool.false_eq_true, if_false]
  rw [ensureHostAllocation]
  simp only [wp_bind, wp_check, hraw, wp_get, hnone, hrange, hentries, List.filter_cons, hover, if_true,
    List.filter_nil, List.map_cons, List.map_nil, widenOver, hend]
  refine wp_mono (replaceOverlapping_out_of_ids heap hn hlen) (fun _ _ h => h.elim) (fun e s' h => ?_)
  obtain ⟨rfl, hmem⟩ := h
  rw [if_neg (by simp [retriesHostConflict]), wp_throw]
  exact hmem

end Exhaust

/-- One round: two pages mapped and unmapped again. -/
def mapUnmap : List (Nat × Event) :=
  [(0, .call (.mmap (fixedMapping 0x2000000 0x20000 3))), (0, .call (.munmap 0x2000000 0x20000))]

/-- Enough rounds to hand out all but two allocation ids, then a mapping of two pages, the second
unmapped, and a mapping over it and the page behind it. -/
def exhaustIds : List (Nat × Event) :=
  (List.replicate (u64Limit - 3) mapUnmap).flatten ++
    [(0, .call (.mmap (fixedMapping 0x2000000 0x20000 3))), (0, .call (.munmap 0x2010000 0x10000)),
      (0, .call (.mmap (fixedMapping 0x2010000 0x20000 3)))]

section Exhausted

variable {n : Nat} (heap : HostHeap)

theorem step_mmap_idling (hn : n + 1 < u64Limit) :
    ∃ heap', (⟨[idling n], heap⟩ : World).step (Host.granting .windows) 0
        (.call (.mmap (fixedMapping 0x2000000 0x20000 3))) = ⟨[holding n 0x2020000 heap.next], heap'⟩ ∧
      (heap'.object heap.next).len = 0x20000 := by
  have hexec : (Op.exec aloneContext (.mmap (fixedMapping 0x2000000 0x20000 3))).wp
      (fun _ s' => s'.mem = holding n 0x2020000 heap.next ∧ (s'.heap.object heap.next).len = 0x20000)
      (fun _ s' => s'.mem = holding n 0x2020000 heap.next ∧ (s'.heap.object heap.next).len = 0x20000)
      ⟨idling n, heap⟩ := by
    rw [Op.exec, wp_bind]
    exact wp_mono (mmap_idling heap hn) (fun _ _ h => (wp_pure _).mpr h) (fun _ _ h => h.elim)
  have hstate := wp_state hexec
  rw [step_alone, hstate.1]
  exact ⟨_, rfl, hstate.2⟩

theorem run_mapUnmap (k : Nat) (hn : n + k < u64Limit) :
    ∃ heap', (⟨[idling n], heap⟩ : World).run (Host.granting .windows) (List.replicate k mapUnmap).flatten =
      ⟨[idling (n + k)], heap'⟩ := by
  induction k generalizing n heap with
  | zero => exact ⟨heap, rfl⟩
  | succ k ih =>
      obtain ⟨heap', hstep, _⟩ := step_mmap_idling (n := n) heap (by omega)
      obtain ⟨heap'', hrest⟩ := ih (n := n + 1) heap' (by omega)
      refine ⟨heap'', ?_⟩
      have hunmap : (⟨[holding n 0x2020000 heap.next], heap'⟩ : World).step (Host.granting .windows) 0
          (.call (.munmap 0x2000000 0x20000)) = ⟨[idling (n + 1)], heap'⟩ := by
        rw [step_alone]
        rfl
      rw [List.replicate_succ, List.flatten_cons, World.run, List.foldl_append, mapUnmap]
      simp only [List.foldl_cons, List.foldl_nil]
      rw [hstep, hunmap]
      rw [Nat.add_right_comm] at hrest
      exact hrest

theorem step_munmap_second (arc : ArcId) :
    (⟨[holding n 0x2020000 arc], heap⟩ : World).step (Host.granting .windows) 0 (.call (.munmap 0x2010000 0x10000)) =
      ⟨[holding n 0x2010000 arc], heap⟩ := by
  have hexec : Op.exec aloneContext (.munmap 0x2010000 0x10000) ⟨holding n 0x2020000 arc, heap⟩ =
      (.ok (), ⟨(holding n 0x2020000 arc).unmapRange 0x2010000 0x2020000, heap⟩) := rfl
  rw [step_alone, hexec, unmapRange_second]

theorem step_mmap_out_of_ids (hn : ¬ n + 2 < u64Limit) {arc : ArcId} (hlen : (heap.object arc).len = 0x20000) :
    ∃ heap', (⟨[holding n 0x2010000 arc], heap⟩ : World).step (Host.granting .windows) 0
        (.call (.mmap (fixedMapping 0x2010000 0x20000 3))) =
      ⟨[{ holding n 0x2010000 arc with allocations := .empty }], heap'⟩ := by
  have hexec : (Op.exec aloneContext (.mmap (fixedMapping 0x2010000 0x20000 3))).wp
      (fun _ s' => s'.mem = { holding n 0x2010000 arc with allocations := .empty })
      (fun _ s' => s'.mem = { holding n 0x2010000 arc with allocations := .empty })
      ⟨holding n 0x2010000 arc, heap⟩ := by
    rw [Op.exec, wp_bind]
    exact wp_mono (mmap_out_of_ids heap hn hlen) (fun _ _ h => h.elim) (fun _ _ h => h)
  rw [step_alone, wp_state hexec]
  exact ⟨_, rfl⟩

theorem run_exhaustIds :
    ∃ n arc heap, (World.initial freshMemory).run (Host.granting .windows) exhaustIds =
      ⟨[{ holding n 0x2010000 arc with allocations := .empty }], heap⟩ := by
  have hlimit : 3 < u64Limit := by decide
  obtain ⟨heap, hrounds⟩ := run_mapUnmap (n := 1) .empty (u64Limit - 3) (by omega)
  generalize hn : 1 + (u64Limit - 3) = n at hrounds
  obtain ⟨heap', hmap, hlen⟩ := step_mmap_idling (n := n) heap (by omega)
  obtain ⟨heap'', hfails⟩ := step_mmap_out_of_ids (n := n) heap' (by omega) hlen
  refine ⟨n, heap.next, heap'', ?_⟩
  have hinitial : World.initial freshMemory = ⟨[idling 1], .empty⟩ := rfl
  rw [exhaustIds, World.run, List.foldl_append, hinitial]
  rw [World.run] at hrounds
  rw [hrounds]
  simp only [List.foldl_cons, List.foldl_nil]
  rw [hmap, step_munmap_second, hfails]

end Exhausted

/-- After the last call a VMA names an allocation that is gone, and reading it panics. -/
theorem exhaustIds_loses_allocation :
    (∀ e ∈ exhaustIds, e.2.IsNotBrk) ∧
    ∃ s, ((World.initial freshMemory).run (Host.granting .windows) exhaustIds).machine 0 = some s ∧
      ¬ RepInv s ∧ (read 0x2000000 1 s).1 = .error .panic := by
  refine ⟨fun e he requested => ?_, ?_⟩
  · simp only [exhaustIds, List.mem_append, List.mem_flatten, List.mem_replicate, List.mem_cons,
      List.not_mem_nil, or_false] at he
    rcases he with ⟨l, ⟨_, rfl⟩, he⟩ | rfl | rfl | rfl
    · simp only [mapUnmap, List.mem_cons, List.not_mem_nil, or_false] at he
      rcases he with rfl | rfl <;> simp
    · simp
    · simp
    · simp
  · obtain ⟨n, arc, heap, hrun⟩ := run_exhaustIds
    rw [hrun]
    refine ⟨_, rfl, fun hrep => ?_, rfl⟩
    obtain ⟨a, ha, _⟩ := hrep.linked 0x2000000 (heldVma n 0x2010000) rfl
    exact absurd ha (by simp)

end Mcr.Memory
