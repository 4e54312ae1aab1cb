import Mcr.Memory.Fork
import Mcr.Memory.Patch
import Mcr.Memory.Brk

/-!
# The invariant of a run

Every call keeps the tables of its own process tied together and never panics, as long as the host can
give back what a failed merge took away and an allocation id is left; disjointness is kept too unless a
growing heap runs into another heap VMA. Other processes are out of reach of the call.
-/

namespace Mcr.Memory

open Prog

/-! ### One call -/

section Call

variable {ctx : Context} {s : Machine}

/-- The calls that may merge allocations. -/
def Op.merges : Op → Bool
  | .mmap _ => true
  | .setBrk _ => true
  | _ => false

theorem cleared_disjoint {args : MmapSyscallArgs} {start length : Nat} (hwf : Wf ctx s)
    (hd : s.mem.Disjoint) (hstart : args.isFixed = true → Aligned start) :
    (cleared args s start length).mem.Disjoint := by
  unfold cleared
  split
  · rename_i hfixed
    exact unmapRange_disjoint hwf (hstart hfixed) hd
  · exact hd

theorem mmap_sound (hwf : Wf ctx s) (hrestore : ∀ n, ctx.refusal n .restore = none)
    (hids : s.mem.nextAllocationId + 1 < u64Limit) (args : MmapSyscallArgs) :
    (mmap ctx args).wp (fun _ s' => Wf ctx s' ∧ (s.mem.Disjoint → s'.mem.Disjoint))
      (fun e s' => (Wf ctx s' ∧ (s.mem.Disjoint → s'.mem.Disjoint)) ∧ e ≠ .panic) s := by
  refine wp_mono (mmap_spec hwf hrestore hids args) (fun start s' h => ?_) (fun e s' h => ?_)
  · obtain ⟨length, _, _, _, _, _, haligned, hmapped, _⟩ := h
    exact ⟨hmapped.wf, fun hd => hmapped.disjoint (cleared_disjoint hwf hd haligned)⟩
  · obtain ⟨hpanic, ⟨hsim, hwf'⟩ | ⟨length, _, _, haligned, hsim, hwf'⟩⟩ := h
    · exact ⟨⟨hwf', hsim.disjoint⟩, hpanic⟩
    · exact ⟨⟨hwf', fun hd => hsim.disjoint (cleared_disjoint hwf hd fun _ => haligned)⟩, hpanic⟩

/-- What every call leaves: tables in order, and disjoint VMAs unless it moved the break. -/
theorem exec_sound (hwf : Wf ctx s) (hrestore : ∀ n, ctx.refusal n .restore = none) (op : Op)
    (hids : op.merges = true → s.mem.nextAllocationId + 1 < u64Limit) :
    (op.exec ctx).wp
      (fun _ s' => Wf ctx s' ∧ ((∀ r, op = .setBrk r → BrkClean ctx s r) → s.mem.Disjoint → s'.mem.Disjoint))
      (fun e s' => (Wf ctx s' ∧
        ((∀ r, op = .setBrk r → BrkClean ctx s r) → s.mem.Disjoint → s'.mem.Disjoint)) ∧ e ≠ .panic) s := by
  -- a call that keeps the tables, whatever the condition on the break
  have hkept : ∀ {m : MemM Unit}, m.wp (fun _ s' => Kept ctx s s') (fun e s' => Kept ctx s s' ∧ e ≠ .panic) s →
      m.wp
        (fun _ s' => Wf ctx s' ∧ ((∀ r, op = .setBrk r → BrkClean ctx s r) → s.mem.Disjoint → s'.mem.Disjoint))
        (fun e s' => (Wf ctx s' ∧
          ((∀ r, op = .setBrk r → BrkClean ctx s r) → s.mem.Disjoint → s'.mem.Disjoint)) ∧ e ≠ .panic) s :=
    fun h => wp_mono h (fun _ s' h => ⟨h.wf, fun _ => h.disjoint⟩) (fun e s' h => ⟨⟨h.1.wf, fun _ => h.1.disjoint⟩, h.2⟩)
  cases op with
  | mmap args =>
      rw [Op.exec, wp_bind]
      exact wp_mono (mmap_sound hwf hrestore (hids rfl) args)
        (fun _ s' h => (wp_pure _).mpr ⟨h.1, fun _ => h.2⟩) (fun e s' h => ⟨⟨h.1.1, fun _ => h.1.2⟩, h.2⟩)
  | munmap addr length =>
      refine hkept (wp_mono (munmap_spec addr length) (fun _ s' h => ?_) (fun e s' h => ?_))
      · obtain ⟨stop, hstop, rfl⟩ := h
        obtain ⟨haddr, hstopAligned, _⟩ := checkedPageRange_ok hstop
        obtain ⟨vmas, allocations, hmem⟩ := unmapRange_eq s.mem addr stop
        refine ⟨unmapRange_wf hwf haddr hstopAligned, fun hd => unmapRange_disjoint hwf haddr hd, ?_⟩
        rw [hmem]
        exact ⟨rfl, rfl, rfl, rfl, rfl, le_rfl⟩
      · obtain ⟨rfl, error, _, rfl⟩ := h
        exact ⟨(Cowed.refl hwf).kept, by simp⟩
  | mprotect addr length prot =>
      refine hkept (wp_mono (mprotect_spec hwf addr length prot) (fun _ s' h => ?_) (fun e s' h => ?_))
      · obtain ⟨_, _, ⟨_, rfl⟩ | ⟨_, _, _, _, hprotected⟩⟩ := h
        · exact (Cowed.refl hwf).kept
        · exact hprotected.kept
      · refine ⟨h.1.kept, ?_⟩
        rcases h.2 with ⟨_, _, rfl⟩ | ⟨_, _, _, rfl⟩ | ⟨_, _, _, _, rfl⟩ | ⟨_, _, _, _, hcause⟩
        · simp
        · simp
        · simp
        · exact hcause.ne_panic
  | setBrk requested =>
      rw [Op.exec, wp_bind]
      refine wp_mono (setBrk_spec hwf hrestore (hids rfl) requested) (fun _ s' h => ?_) (fun e s' h => ?_)
      · refine (wp_pure _).mpr ⟨h.wf hwf, fun hclean hd => ?_⟩
        exact ((h.correct_iff hwf hd).mpr (hclean requested rfl)).table.2
      · exact ⟨⟨h.1.2, fun _ => h.1.1.disjoint⟩, h.2⟩
  | write address bytes => exact hkept (writeGuest_kept hwf address bytes)
  | sliceMut address len update =>
      refine hkept ?_
      rw [Op.exec, wp_bind]
      exact wp_mono (sliceMut_kept hwf address len update) (fun _ s' h => (wp_pure _).mpr h) (fun _ _ h => h)
  | patchCode address bytes =>
      refine hkept ?_
      rw [Op.exec, wp_bind]
      exact wp_mono (patchCode_kept hwf address bytes) (fun _ s' h => (wp_pure _).mpr h) (fun _ _ h => h)
  | patchCodeFixed n patches => exact hkept (patchCodeFixed_kept hwf n patches)
  | memset address value len => exact hkept (memset_kept hwf address value len)
  | memmove destination source len => exact hkept (memmove_kept hwf destination source len)

end Call

/-! ### One fork -/

section Fork

variable {ctx ctx' : Context} {s s' : Machine}

/-- Tables over a heap in which their host memories are as they were, whoever else holds references. -/
theorem Wf.elsewhere (hwf : Wf ctx s) (hmem : s'.mem = s.mem)
    (hmade : ∀ id a, s'.mem.allocations.get? id = some a → a.memory < s'.heap.next)
    (hothers : ∀ arc, 0 < ctx'.others arc → arc < s'.heap.next)
    (hobject : ∀ id a, s.mem.allocations.get? id = some a → s'.heap.object a.memory = s.heap.object a.memory) :
    Wf ctx' s' := by
  refine ⟨fun key v hv => ?_, fun id a ha => ?_, hothers, ?_, ?_⟩
  · rw [hmem] at hv
    have h := hwf.vma key v hv
    obtain ⟨a, ha, hlink, hend⟩ := h.linked
    refine ⟨h.key, h.nonempty, h.startAligned, h.stopAligned, h.low, ?_, h.bounded, ?_, a, ?_, hlink, ?_⟩
    · rw [hmem]
      exact h.high
    · rw [hmem]
      exact h.heap
    · rw [hmem]
      exact ha
    · rw [hobject _ a ha]
      exact hend
  · have hnext := hmade id a ha
    rw [hmem] at ha
    have h := hwf.allocation id a ha
    have hobj := hobject id a ha
    refine ⟨?_, hnext, ?_, ?_, ?_⟩
    · rw [hmem]
      exact h.id
    · rw [hobj]
      exact h.nonempty
    · rw [hobj]
      exact h.bounded
    · rw [hmem]
      exact h.placed
  · rw [hmem]
    exact hwf.brkAligned
  · rw [hmem]
    exact hwf.brkLow

theorem Child.wf {mode : HostAddressMode} {child : GuestMemory} (h : Child mode s s' child) (hwf : Wf ctx s)
    (hothers : ∀ arc, 0 < ctx'.others arc → arc < s'.heap.next) : Wf ctx' ⟨child, s'.heap⟩ := by
  refine ⟨fun key v hv => ?_, fun id c hc => ?_, hothers, ?_, ?_⟩
  · change child.vmas.get? key = some v at hv
    rw [h.mem] at hv
    have hwv := hwf.vma key v hv
    obtain ⟨a, ha, hlink, hend⟩ := hwv.linked
    obtain ⟨c, hc, hcloned⟩ := h.get ha
    have hguest := hcloned.guestStart
    have hlen := hcloned.same.len
    simp only at hguest hlen
    refine ⟨hwv.key, hwv.nonempty, hwv.startAligned, hwv.stopAligned, hwv.low, ?_, hwv.bounded, ?_, c, hc, ?_, ?_⟩
    · rw [h.mem]
      exact hwv.high
    · rw [h.mem]
      exact hwv.heap
    · rw [hguest]
      exact hlink
    · show v.stop ≤ c.guestStart + (s'.heap.object c.memory).len
      rw [hguest, ← hlen]
      exact hend
  · obtain ⟨a, ha, hcloned⟩ := h.get' hc
    have hwa := hwf.allocation id a ha
    have hguest := hcloned.guestStart
    have hlen := hcloned.same.len
    simp only at hguest hlen
    refine ⟨?_, hcloned.made, ?_, ?_, fun hmode => ?_⟩
    · rw [h.mem]
      exact hwa.id
    · show 0 < (s'.heap.object c.memory).len
      rw [← hlen]
      exact hwa.nonempty
    · show c.guestStart + (s'.heap.object c.memory).len < u64Limit
      rw [hguest, ← hlen]
      exact hwa.bounded
    · rw [h.mem] at hmode
      rw [hguest]
      exact hcloned.placed hmode
  · rw [h.mem]
    exact hwf.brkAligned
  · rw [h.mem]
    exact hwf.brkLow

end Fork

/-! ### Runs -/

namespace World

variable {host : Host} {w : World} {pid : Nat} {event : Event}

/-- Every event of the run meets `P` in the world it happens in. -/
def Along (host : Host) (P : World → Nat → Event → Prop) : World → List (Nat × Event) → Prop
  | _, [] => True
  | w, (pid, event) :: rest => P w pid event ∧ Along host P (w.step host pid event) rest

theorem Along.invariant {P : World → Nat → Event → Prop} {I : World → Prop}
    (hstep : ∀ w pid event, I w → P w pid event → I (w.step host pid event)) (events : List (Nat × Event)) :
    ∀ w, I w → Along host P w events → I (w.run host events) := by
  induction events with
  | nil => intro w hw _; exact hw
  | cons e rest ih =>
      intro w hw h
      exact ih _ (hstep w e.1 e.2 hw h.1) h.2

/-- The tables of every process are tied together. -/
structure Sound (host : Host) (w : World) : Prop where
  made : w.Made
  wf : ∀ pid s, w.machine pid = some s → Wf (w.context host pid) s

/-- No process has two VMAs over one address. -/
def Apart (w : World) : Prop := ∀ pid s, w.machine pid = some s → s.mem.Disjoint

def IdLeft (w : World) (pid : Nat) (event : Event) : Prop :=
  ∀ s op, w.machine pid = some s → event = .call op → op.merges = true →
    s.mem.nextAllocationId + 1 < u64Limit

/-- A call that moves the break does so cleanly. -/
def BrkFits (host : Host) (w : World) (pid : Nat) (event : Event) : Prop :=
  ∀ s requested, w.machine pid = some s → event = .call (.setBrk requested) →
    BrkClean (w.context host pid) s requested

theorem Made.others_lt (hw : w.Made) (host : Host) (pid : Nat) (arc : ArcId)
    (h : 0 < (w.context host pid).others arc) : arc < w.heap.next := by
  obtain ⟨j, memory, id, a, _, hj, hget, rfl⟩ := others_pos_iff.mp h
  exact hw memory (List.mem_of_getElem? hj) id a hget

theorem machine_eq_some {s : Machine} : w.machine pid = some s ↔ w.memories[pid]? = some s.mem ∧ s.heap = w.heap := by
  unfold machine
  rw [Option.map_eq_some_iff]
  constructor
  · rintro ⟨m, hm, rfl⟩
    exact ⟨hm, rfl⟩
  · rintro ⟨hm, hheap⟩
    exact ⟨s.mem, hm, by rw [← hheap]⟩

theorem sound_elsewhere (h : Sound host w) {w' : World} (hstepped : Stepped w w' pid event) {j : Nat}
    {s u : Machine} (hne : j ≠ pid) (hs : w.machine j = some s) (hu : w'.machine j = some u) :
    Wf (w'.context host j) u ∧ u.mem = s.mem := by
  obtain ⟨s', hs', huntouched⟩ := hstepped.others j s hne hs
  obtain rfl := Option.some.inj (hu.symm.trans hs')
  obtain ⟨hmem, hheap⟩ := machine_eq_some.mp hu
  refine ⟨(h.wf j s hs).elsewhere huntouched.mem (fun id a ha => ?_) ?_ huntouched.object, huntouched.mem⟩
  · rw [hheap]
    exact hstepped.made _ (List.mem_of_getElem? hmem) id a ha
  · rw [hheap]
    exact hstepped.made.others_lt host j

/-- Each process after an event: tied together, and disjoint when the break was moved cleanly. -/
theorem step_machine (hrestore : ∀ n, host.refusal n .restore = none) (h : Sound host w)
    (hids : IdLeft w pid event) {j : Nat} {u : Machine} (hu : (w.step host pid event).machine j = some u) :
    Wf ((w.step host pid event).context host j) u ∧
      (Apart w → BrkFits host w pid event → u.mem.Disjoint) := by
  have hstepped := step_stepped host h.made pid event
  cases hpid : w.memories[pid]? with
  | none =>
      have hstep : w.step host pid event = w := by simp only [World.step, hpid]
      rw [hstep] at hu ⊢
      exact ⟨h.wf j u hu, fun hapart _ => hapart j u hu⟩
  | some memory =>
      have hparent : w.machine pid = some ⟨memory, w.heap⟩ := machine_eq_some.mpr ⟨hpid, rfl⟩
      have hwf := h.wf pid _ hparent
      have hlt : pid < w.memories.length := (List.getElem?_eq_some_iff.mp hpid).1
      have helsewhere : ∀ s, j ≠ pid → w.machine j = some s →
          Wf ((w.step host pid event).context host j) u ∧
            (Apart w → BrkFits host w pid event → u.mem.Disjoint) := by
        intro s hne hs
        obtain ⟨hwfu, hmem⟩ := sound_elsewhere h hstepped hne hs hu
        exact ⟨hwfu, fun hapart _ => hmem ▸ hapart j s hs⟩
      obtain ⟨hmem, hheap⟩ := machine_eq_some.mp hu
      have hmade : ∀ id a, u.mem.allocations.get? id = some a → a.memory < u.heap.next := by
        rw [hheap]
        exact hstepped.made _ (List.mem_of_getElem? hmem)
      have hothers : ∀ arc, 0 < ((w.step host pid event).context host j).others arc → arc < u.heap.next := by
        rw [hheap]
        exact hstepped.made.others_lt host j
      cases event with
      | call op =>
          have hexec := wp_state (wp_mono (exec_sound hwf hrestore op
            fun hm => hids _ op hparent rfl hm) (fun _ _ hs => hs) (fun _ _ hs => hs.1))
          simp only [World.step, hpid] at hmem hheap hothers hu helsewhere ⊢
          generalize (op.exec (w.context host pid) ⟨memory, w.heap⟩).2 = s' at *
          by_cases hj : j = pid
          · subst hj
            rw [List.getElem?_set_self hlt, Option.some.injEq] at hmem
            obtain rfl : u = s' := by
              cases u
              cases s'
              simp_all
            refine ⟨hexec.1.elsewhere rfl hmade hothers fun _ _ _ => rfl, fun hapart hfits => ?_⟩
            exact hexec.2 (fun r hr => hfits _ r hparent (by rw [hr])) (hapart _ _ hparent)
          · rw [List.getElem?_set_ne (Ne.symm hj)] at hmem
            exact helsewhere ⟨u.mem, w.heap⟩ hj (machine_eq_some.mpr ⟨hmem, rfl⟩)
      | fork mode =>
          obtain ⟨hok, herror⟩ := wp_iff.mp (tryCloneRuntime_spec (w.context host pid) mode ⟨memory, w.heap⟩
            fun id a ha => (hwf.allocation id a ha).made)
          simp only [World.step, hpid] at hmem hheap hothers hu helsewhere ⊢
          rcases hrun : tryCloneRuntime (w.context host pid) mode ⟨memory, w.heap⟩ with ⟨r, s'⟩
          -- the parent keeps its tables, and its host memories are older than the copies
          have hself : ∀ {tail : List GuestMemory} {ctx : Context}, Grown ⟨memory, w.heap⟩ s' → j = pid →
              (w.memories.set pid s'.mem ++ tail)[j]? = some u.mem → u.heap = s'.heap →
              (∀ arc, 0 < ctx.others arc → arc < u.heap.next) →
              Wf ctx u ∧ (Apart w → BrkFits host w pid (.fork mode) → u.mem.Disjoint) := by
            intro tail ctx hgrown hj hget hheap' hothers'
            rw [hj, List.getElem?_append_left (by simpa using hlt), List.getElem?_set_self hlt, hgrown.mem,
              Option.some.injEq] at hget
            refine ⟨hwf.elsewhere hget.symm hmade hothers' fun id a ha => ?_, fun hapart _ => ?_⟩
            · rw [hheap']
              exact hgrown.object _ (hwf.allocation id a ha).made
            · rw [← hget]
              exact hapart _ _ hparent
          rw [hrun] at hmem hheap hothers helsewhere
          cases r with
          | error e =>
              simp only at hmem hheap hothers helsewhere ⊢
              by_cases hj : j = pid
              · rw [← List.append_nil (w.memories.set pid s'.mem)] at hmem
                exact hself (herror e s' hrun).1 hj hmem hheap hothers
              · rw [List.getElem?_set_ne (Ne.symm hj)] at hmem
                exact helsewhere ⟨u.mem, w.heap⟩ hj (machine_eq_some.mpr ⟨hmem, rfl⟩)
          | ok child =>
              obtain ⟨hgrown, hchild⟩ := hok child s' hrun
              simp only at hmem hheap hothers helsewhere ⊢
              by_cases hj : j = pid
              · exact hself hgrown hj hmem hheap hothers
              · by_cases hold : j < w.memories.length
                · rw [List.getElem?_append_left (by simpa using hold), List.getElem?_set_ne (Ne.symm hj)] at hmem
                  exact helsewhere ⟨u.mem, w.heap⟩ hj (machine_eq_some.mpr ⟨hmem, rfl⟩)
                · rw [List.getElem?_append_right (by simpa using hold)] at hmem
                  have hcopy : u = ⟨child, s'.heap⟩ := by
                    have hmem' : u.mem = child := by
                      have := List.mem_of_getElem? hmem
                      simpa using this
                    cases u
                    simp_all
                  subst hcopy
                  refine ⟨hchild.wf hwf hothers, fun hapart _ => ?_⟩
                  show GuestMemory.Disjoint child
                  rw [hchild.mem]
                  exact hapart _ _ hparent

theorem step_sound (hrestore : ∀ n, host.refusal n .restore = none) (h : Sound host w)
    (hids : IdLeft w pid event) : Sound host (w.step host pid event) :=
  ⟨(step_stepped host h.made pid event).made, fun _ _ hu => (step_machine hrestore h hids hu).1⟩

theorem step_apart (hrestore : ∀ n, host.refusal n .restore = none) (h : Sound host w) (hapart : Apart w)
    (hids : IdLeft w pid event) (hfits : BrkFits host w pid event) : Apart (w.step host pid event) :=
  fun _ _ hu => (step_machine hrestore h hids hu).2 hapart hfits

theorem initial_sound {initialBrk mmapBase addressSpaceEnd : Nat} {memory : GuestMemory} (host : Host)
    (h : GuestMemory.withLayout initialBrk mmapBase addressSpaceEnd = .ok memory) :
    Sound host (World.initial memory) ∧ Apart (World.initial memory) := by
  have hmade := initial_made h
  have hmem : ∀ pid s, (World.initial memory).machine pid = some s → s.mem = memory := by
    intro pid s hs
    have := List.mem_of_getElem? (machine_eq_some.mp hs).1
    simpa [World.initial] using this
  unfold GuestMemory.withLayout at h
  split at h
  · simp at h
  · rename_i hlayout
    simp only [Bool.or_eq_true, Bool.not_eq_true', decide_eq_true_eq, not_or, Bool.not_eq_false,
      not_lt, isPageAligned_iff] at hlayout
    rw [Except.ok.injEq] at h
    refine ⟨⟨hmade, fun pid s hs => ?_⟩, fun pid s hs => ?_⟩
    · have hheap := (machine_eq_some.mp hs).2
      refine ⟨fun key v hv => ?_, fun id a ha => ?_, ?_, ?_, ?_⟩
      · rw [hmem pid s hs, ← h] at hv
        exact absurd hv (by simp)
      · rw [hmem pid s hs, ← h] at ha
        exact absurd ha (by simp)
      · rw [hheap]
        exact hmade.others_lt host pid
      · rw [hmem pid s hs, ← h]
        exact hlayout.1.1.1.1.1
      · rw [hmem pid s hs, ← h]
        exact hlayout.1.1.2
    · intro x key v key' v' hv
      rw [hmem pid s hs, ← h] at hv
      exact absurd hv (by simp)

/-- Every process of a run keeps its tables tied together. -/
theorem run_sound (hrestore : ∀ n, host.refusal n .restore = none) {events : List (Nat × Event)}
    (h : Sound host w) (hids : Along host IdLeft w events) : Sound host (w.run host events) :=
  Along.invariant (fun _ _ _ hw hleft => step_sound hrestore hw hleft) events w h hids

/-- A run that moves the break cleanly keeps the VMAs of every process disjoint. -/
theorem run_apart (hrestore : ∀ n, host.refusal n .restore = none) {events : List (Nat × Event)}
    (h : Sound host w) (hapart : Apart w)
    (hclean : Along host (fun w pid event => IdLeft w pid event ∧ BrkFits host w pid event) w events) :
    Sound host (w.run host events) ∧ Apart (w.run host events) :=
  Along.invariant (I := fun w => Sound host w ∧ Apart w) (fun _ _ _ hw hstep =>
    ⟨step_sound hrestore hw.1 hstep.1, step_apart hrestore hw.1 hw.2 hstep.1 hstep.2⟩) events w ⟨h, hapart⟩ hclean

end World

end Mcr.Memory
