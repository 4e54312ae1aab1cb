import Mcr.Memory.Sound

/-!
# The break over whole runs

`set_brk` takes the first heap VMA for the whole heap. Calls that cut the heap leave more than one, and
growing then maps over the others; the host memory the heap moves to may also be a merge that holds
stale bytes. A run whose calls stay clear of both resizes the heap correctly, and a call that does not
is incorrect.
-/

namespace Mcr.Memory

open Prog

namespace World

/-- A run in which every call finds an allocation id left and moves the break cleanly. -/
def CleanRun (host : Host) (w : World) (events : List (Nat × Event)) : Prop :=
  Along host (fun w pid event => IdLeft w pid event ∧ BrkFits host w pid event) w events

theorem CleanRun.reached {host : Host} (hrestore : ∀ n, host.refusal n .restore = none)
    {initialBrk mmapBase addressSpaceEnd : Nat} {memory : GuestMemory} {events : List (Nat × Event)}
    (hlayout : GuestMemory.withLayout initialBrk mmapBase addressSpaceEnd = .ok memory)
    (hrun : CleanRun host (World.initial memory) events) {pid : Nat} {s : Machine}
    (hs : ((World.initial memory).run host events).machine pid = some s) :
    Wf (((World.initial memory).run host events).context host pid) s ∧ s.mem.Disjoint := by
  obtain ⟨hsound, hapart⟩ := initial_sound host hlayout
  obtain ⟨hsound', hapart'⟩ := run_apart hrestore hsound hapart hrun
  exact ⟨hsound'.wf pid s hs, hapart' pid s hs⟩

end World

open World

/-- After a clean run a successful `set_brk` is a correct resize exactly when it moves the break cleanly. -/
theorem setBrk_correct_iff (platform : HostPlatform) {initialBrk mmapBase addressSpaceEnd : Nat}
    {memory : GuestMemory} {events : List (Nat × Event)}
    (hlayout : GuestMemory.withLayout initialBrk mmapBase addressSpaceEnd = .ok memory)
    (hrun : CleanRun (Host.granting platform) (World.initial memory) events) {pid : Nat} {s s' : Machine}
    (hs : ((World.initial memory).run (Host.granting platform) events).machine pid = some s)
    (hids : s.mem.nextAllocationId + 1 < u64Limit) {requested brk : Nat} {ctx : Context}
    (hctx : ctx = ((World.initial memory).run (Host.granting platform) events).context
      (Host.granting platform) pid)
    (hcall : setBrk ctx requested s = (.ok brk, s')) :
    BrkCorrect s s' ↔ BrkClean ctx s requested := by
  subst hctx
  obtain ⟨hwf, hd⟩ := hrun.reached (fun _ => rfl) hlayout hs
  exact (wp_ok (setBrk_spec hwf (fun _ => rfl) hids requested) hcall).correct_iff hwf hd

theorem freshMemory_brkClean (ctx : Context) (heap : HostHeap) (requested : Nat) :
    BrkClean ctx ⟨freshMemory, heap⟩ requested := by
  intro newEnd _ _ _ _ _ _
  exact ⟨fun key v hv => absurd hv (by simp [freshMemory]), fun key v a x hv => absurd hv (by simp [freshMemory])⟩

/-- Two heap pages, and a mapping elsewhere. -/
def heapAndMapping : List (Nat × Event) :=
  [(0, .call (.setBrk 0x1002000)), (0, .call (.mmap (fixedMapping 0x2000000 0x1000 3)))]

theorem setBrk_grow_beside_mapping :
    ∃ s brk s', ((World.initial freshMemory).run (Host.granting .windows) heapAndMapping).machine 0 = some s ∧
      setBrk (((World.initial freshMemory).run (Host.granting .windows) heapAndMapping).context (Host.granting .windows) 0)
        0x1003000 s = (.ok brk, s') ∧ s.mem.heapMappedEnd < 0x1003000 ∧ BrkCorrect s s' := by
  let w := (World.initial freshMemory).run (Host.granting .windows) heapAndMapping
  have hrun : CleanRun (Host.granting .windows) (World.initial freshMemory) heapAndMapping := by
    refine ⟨⟨fun s op hs _ _ => ?_, fun s requested hs _ => ?_⟩,
      ⟨fun s op hs _ _ => ?_, fun s requested _ h => by simp at h⟩, trivial⟩
    · obtain rfl := Option.some.inj hs
      decide
    · obtain rfl := Option.some.inj hs
      exact freshMemory_brkClean _ _ requested
    · rw [← Option.some.inj ((machine_first (by decide +kernel)).symm.trans hs)]
      decide +kernel
  have hs : w.machine 0 = some w.first := machine_first (by decide +kernel)
  have hids : w.first.mem.nextAllocationId + 1 < u64Limit := by decide +kernel
  have hok : (setBrk (w.context (Host.granting .windows) 0) 0x1003000 w.first).1 = .ok 0x1003000 := by
    decide +kernel
  have hiff := setBrk_correct_iff .windows withLayout_freshMemory hrun hs hids rfl (run_eq hok)
  refine ⟨w.first, 0x1003000, _, hs, run_eq hok, by decide +kernel, hiff.mpr ?_⟩
  have hkeys : w.first.mem.vmas.keys = [0x1000000, 0x2000000] := by decide +kernel
  have hheap : w.first.mem.vmas.get? 0x1000000 =
      some ⟨0x1000000, 0x1002000, ⟨true, true, false⟩, .heap, 1, 0⟩ := by decide +kernel
  have hmapped : w.first.mem.vmas.get? 0x2000000 =
      some ⟨0x2000000, 0x2001000, ⟨true, true, false⟩, .anonymous, 2, 0⟩ := by decide +kernel
  have hhome : w.first.mem.findContaining w.first.heap 0x1000000 0x1003000 =
      (w.first.mem.allocations.get? 1).map (Prod.mk 1) := by decide +kernel
  have hbase : w.first.mem.brkBase = 0x1000000 := by decide +kernel
  have hmerged : 2 ∉ mergedIds (w.context (Host.granting .windows) 0) w.first 0x1000000 (0x1003000 - 0x1000000) := by
    decide +kernel
  have hvmas : ∀ key v, w.first.mem.vmas.get? key = some v →
      v = ⟨0x1000000, 0x1002000, ⟨true, true, false⟩, .heap, 1, 0⟩ ∨
        v = ⟨0x2000000, 0x2001000, ⟨true, true, false⟩, .anonymous, 2, 0⟩ := by
    intro key v hv
    have hkey := SortedMap.mem_keys.mpr ⟨v, hv⟩
    rw [hkeys, List.mem_cons, List.mem_singleton] at hkey
    rcases hkey with rfl | rfl
    · exact .inl (Option.some.inj (hv.symm.trans hheap))
    · exact .inr (Option.some.inj (hv.symm.trans hmapped))
  intro newEnd _ _ hup _ _ _
  have hend : alignUp 0x1003000 = .ok 0x1003000 := by decide
  obtain rfl := Except.ok.inj (hend.symm.trans hup)
  refine ⟨fun key v hv hkind => ?_, fun key v a x hv ha _ _ hcase => ?_⟩
  · rcases hvmas key v hv with rfl | rfl
    · exact .inl hbase.symm
    · cases hkind
  · rcases hvmas key v hv with rfl | rfl
    · rw [homeByte, hbase, hhome, ha]
      rfl
    · rcases hcase with ⟨hkind, -⟩ | ⟨-, hmem⟩
      · cases hkind
      · rw [hbase] at hmem
        exact absurd hmem hmerged

/-- Three heap pages, a byte in the second, and then that page made read-only. -/
def splitHeap : List (Nat × Event) :=
  [(0, .call (.setBrk 0x1003000)), (0, .call (.write 0x1001000 [7])),
    (0, .call (.mprotect 0x1001000 0x1000 1))]

/-- Growing a heap that `mprotect` has cut loses the byte and leaves VMAs that overlap. -/
theorem setBrk_split_heap :
    ∃ s brk s', ((World.initial freshMemory).run (Host.granting .windows) splitHeap).machine 0 = some s ∧
      setBrk (((World.initial freshMemory).run (Host.granting .windows) splitHeap).context
        (Host.granting .windows) 0) 0x1004000 s = (.ok brk, s') ∧ ¬ BrkCorrect s s' := by
  let w := (World.initial freshMemory).run (Host.granting .windows) splitHeap
  have hs : w.machine 0 = some w.first := machine_first (by decide +kernel)
  have hok : (setBrk (w.context (Host.granting .windows) 0) 0x1004000 w.first).1 = .ok 0x1004000 := by
    decide +kernel
  have hbefore : w.first.cell 0x1001000 = some ⟨7, ⟨true, false, false⟩, .heap⟩ := by decide +kernel
  have hafter : (setBrk (w.context (Host.granting .windows) 0) 0x1004000 w.first).2.cell 0x1001000 =
      some ⟨0, ⟨true, false, false⟩, .heap⟩ := by decide +kernel
  have hheap : w.first.mem.brkBase ≤ 0x1001000 ∧ 0x1001000 < pageCeil (min w.first.mem.currentBrk
      (setBrk (w.context (Host.granting .windows) 0) 0x1004000 w.first).2.mem.currentBrk) := by
    decide +kernel
  refine ⟨w.first, 0x1004000, _, hs, run_eq hok, fun hcorrect => ?_⟩
  generalize (setBrk (w.context (Host.granting .windows) 0) 0x1004000 w.first).2 = s' at *
  generalize w.first = s at *
  obtain ⟨c, hc, hbyte⟩ := hcorrect.preserved 0x1001000 _ hbefore hheap.1 hheap.2
  rw [hafter] at hc
  obtain rfl := Option.some.inj hc
  simp at hbyte

end Mcr.Memory
