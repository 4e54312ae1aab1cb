import Mcr.Memory.Frame
import Mcr.Memory.Rules

/-!
# Fork isolation

A fork makes a guest memory with the same VMAs over allocations with the same bytes, and from then on
no event in one process is seen by another.
-/

namespace Mcr.Memory

open Prog

/-! ### The copy -/

/-- Only new host memories were written. -/
structure Grown (s s' : Machine) : Prop where
  mem : s'.mem = s.mem
  next : s.heap.next ≤ s'.heap.next
  object : ∀ arc < s.heap.next, s'.heap.object arc = s.heap.object arc

theorem Grown.refl (s : Machine) : Grown s s := ⟨rfl, le_rfl, fun _ _ => rfl⟩

theorem Grown.trans {s t u : Machine} (h : Grown s t) (h' : Grown t u) : Grown s u :=
  ⟨h'.mem.trans h.mem, h.next.trans h'.next,
    fun arc harc => (h'.object arc (harc.trans_le h.next)).trans (h.object arc harc)⟩

/-- A cloned entry: the same place in the guest, over a host memory with the same bytes. -/
structure Cloned (mode : HostAddressMode) (s s' : Machine) (entry clone : Nat × GuestAllocation) : Prop where
  id : clone.1 = entry.1
  guestStart : clone.2.guestStart = entry.2.guestStart
  made : clone.2.memory < s'.heap.next
  placed : mode = .fixedGuest → entry.2.guestStart ≠ 0
  same : ByteBuf.Same (s.heap.object entry.2.memory) (s'.heap.object clone.2.memory)

theorem Cloned.grown {mode : HostAddressMode} {s s' s'' : Machine} {entry clone : Nat × GuestAllocation}
    (h : Cloned mode s s' entry clone) (hg : Grown s' s'') : Cloned mode s s'' entry clone where
  id := h.id
  guestStart := h.guestStart
  made := h.made.trans_le hg.next
  placed := h.placed
  same := by
    rw [hg.object _ h.made]
    exact h.same

theorem cloneAllocation_spec (ctx : Context) (mode : HostAddressMode) (entry : Nat × GuestAllocation)
    (s : Machine) (hmade : entry.2.memory < s.heap.next) :
    (cloneAllocation ctx mode entry).wp (fun clone s' => Grown s s' ∧ Cloned mode s s' entry clone)
      (fun e s' => Grown s s' ∧ e ≠ .panic) s := by
  obtain ⟨id, allocation⟩ := entry
  rw [cloneAllocation, wp_bind, wp_getMem, wp_ite]
  split
  · exact (wp_pure _).mpr ⟨Grown.refl s, rfl, rfl, hmade, by simp_all, ByteBuf.Same.refl _⟩
  · rw [wp_bind, wp_get, wp_bind, wp_protect]
    split
    · exact ⟨Grown.refl s, by simp⟩
    rw [wp_bind]
    refine wp_allocateGuestHostMemoryAt (fun heap' halloc _ hplaced => ?_) (fun e heap' _ hobj hnext => ?_)
    · -- the source of the copy is older than its target
      have hne : allocation.memory ≠ s.heap.next := hmade.ne
      have hold : heap'.object allocation.memory = s.heap.object allocation.memory := by
        rw [halloc.object]
        simp [HostHeap.set, hne]
      have hnew : heap'.object s.heap.next = .zeros (s.heap.object allocation.memory).len := by
        rw [halloc.object]
        simp [HostHeap.set]
      have hgrown : Grown s
          ⟨s.mem, heap'.set s.heap.next
            ((heap'.object s.heap.next).blit 0 ((heap'.object allocation.memory).extract 0
              (s.heap.object allocation.memory).len))⟩ := by
        refine ⟨rfl, ?_, fun arc harc => ?_⟩
        · show s.heap.next ≤ heap'.next
          rw [halloc.next]
          exact Nat.le_succ _
        · have hne' : arc ≠ s.heap.next := harc.ne
          show (heap'.set _ _).object arc = _
          simp [HostHeap.set, hne', halloc.object]
      rw [wp_bind, wp_sliceBytes, if_pos ⟨Nat.zero_le _, by rw [hold]⟩, wp_bind, wp_copyInto,
        if_pos ⟨Nat.zero_le _, by rw [hnew]; exact le_rfl, rfl⟩, wp_bind, Nat.sub_zero]
      refine wp_applyAllocationProtections ?_ (.inl ⟨hgrown, by simp⟩)
      rw [wp_bind]
      refine wp_applyAllocationProtections ?_ (.inl ⟨hgrown, by simp⟩)
      refine (wp_pure _).mpr ⟨hgrown, rfl, rfl, ?_, hplaced, ?_⟩
      · show s.heap.next < heap'.next
        rw [halloc.next]
        exact Nat.lt_succ_self _
      · have hcopy : (heap'.set s.heap.next ((heap'.object s.heap.next).blit 0
            ((heap'.object allocation.memory).extract 0 (s.heap.object allocation.memory).len))).object
              s.heap.next =
            (ByteBuf.zeros (s.heap.object allocation.memory).len).blit 0
              ((s.heap.object allocation.memory).extract 0 (s.heap.object allocation.memory).len) := by
          simp only [HostHeap.set, if_true, hold, hnew]
        rw [hcopy]
        exact ByteBuf.same_blit_zeros _
    · refine ⟨⟨rfl, ?_, fun arc _ => ?_⟩, by simp⟩
      · exact hnext.ge
      · rw [hobj]

theorem cloneAllocations_spec (ctx : Context) (mode : HostAddressMode) (s : Machine)
    (entries : List (Nat × GuestAllocation)) (hmade : ∀ e ∈ entries, e.2.memory < s.heap.next) :
    (Prog.collect entries (cloneAllocation ctx mode)).wp
      (fun clones s' => Grown s s' ∧ List.Forall₂ (Cloned mode s s') entries clones)
      (fun e s' => Grown s s' ∧ e ≠ .panic) s := by
  have hloop := wp_collect (f := cloneAllocation ctx mode)
    (I := fun rest clones s' => ∃ done, entries = done ++ rest ∧ Grown s s' ∧
      List.Forall₂ (Cloned mode s s') done clones)
    (E := fun e s' => Grown s s' ∧ e ≠ .panic) (fun entry rest clones s' h => ?_) entries [] s
    ⟨[], rfl, Grown.refl s, .nil⟩
  · refine wp_mono hloop (fun clones s' h => ?_) (fun _ _ h => h)
    obtain ⟨done, hdone, hgrown, hcloned⟩ := h
    rw [List.append_nil] at hdone
    subst hdone
    exact ⟨hgrown, hcloned⟩
  · obtain ⟨done, hdone, hgrown, hcloned⟩ := h
    have hentry : entry.2.memory < s.heap.next := hmade entry (by rw [hdone]; simp)
    refine wp_mono (cloneAllocation_spec ctx mode entry s' (hentry.trans_le hgrown.next))
      (fun clone s'' h' => ?_) (fun _ _ h' => ⟨hgrown.trans h'.1, h'.2⟩)
    refine ⟨done ++ [entry], by rw [hdone]; simp, hgrown.trans h'.1, ?_⟩
    refine List.rel_append (hcloned.imp fun e c hc => hc.grown h'.1) (.cons ?_ .nil)
    refine ⟨h'.2.id, h'.2.guestStart, h'.2.made, h'.2.placed, ?_⟩
    have hsame := h'.2.same
    rw [hgrown.object _ hentry] at hsame
    exact hsame

private theorem clone_ids {mode : HostAddressMode} {s s' : Machine} {entries clones : List (Nat × GuestAllocation)}
    (h : List.Forall₂ (Cloned mode s s') entries clones) : clones.map Prod.fst = entries.map Prod.fst := by
  induction h with
  | nil => rfl
  | cons hhead _ ih => rw [List.map_cons, List.map_cons, ih, hhead.id]

private theorem exists_clone {mode : HostAddressMode} {s s' : Machine} {entries clones : List (Nat × GuestAllocation)}
    (h : List.Forall₂ (Cloned mode s s') entries clones) :
    ∀ e ∈ entries, ∃ c ∈ clones, Cloned mode s s' e c := by
  induction h with
  | nil => simp
  | cons hhead _ ih =>
      intro e he
      rcases List.mem_cons.mp he with rfl | he
      · exact ⟨_, List.mem_cons_self, hhead⟩
      · obtain ⟨c, hc, hcloned⟩ := ih e he
        exact ⟨c, List.mem_cons_of_mem _ hc, hcloned⟩

theorem clonedTable_rel {mode : HostAddressMode} {s s' : Machine} {allocations : SortedMap Nat GuestAllocation}
    {clones : List (Nat × GuestAllocation)}
    (h : List.Forall₂ (Cloned mode s s') allocations.entries clones) (id : Nat) :
    Option.Rel (fun a c => Cloned mode s s' (id, a) (id, c)) (allocations.get? id)
      ((clones.foldl (fun m e => m.insert e.1 e.2) (.empty : SortedMap Nat GuestAllocation)).get? id) := by
  have hkeys : clones.map Prod.fst = allocations.keys := clone_ids h
  have hnodup : (clones.map Prod.fst).Nodup := by
    rw [hkeys]
    exact allocations.keys_sorted.imp fun hlt => hlt.ne
  cases hget : allocations.get? id with
  | none =>
      have hnone : (clones.foldl (fun m e => m.insert e.1 e.2)
          (.empty : SortedMap Nat GuestAllocation)).get? id = none := by
        rw [Option.eq_none_iff_forall_ne_some]
        intro c hc
        rw [SortedMap.get?_foldl_insert hnodup, SortedMap.get?_empty] at hc
        rcases hc with hc | hc
        · have hid : id ∈ allocations.keys := hkeys ▸ List.mem_map.mpr ⟨_, hc, rfl⟩
          obtain ⟨a, ha⟩ := SortedMap.mem_keys.mp hid
          rw [hget] at ha
          exact absurd ha (by simp)
        · exact absurd hc.2 (by simp)
      rw [hnone]
      exact .none
  | some a =>
      obtain ⟨⟨cloneId, clone⟩, hmem, hcloned⟩ := exists_clone h _ (SortedMap.get?_eq_some_iff.mp hget)
      obtain rfl : cloneId = id := hcloned.id
      have hsome : (clones.foldl (fun m e => m.insert e.1 e.2)
          (.empty : SortedMap Nat GuestAllocation)).get? cloneId = some clone :=
        (SortedMap.get?_foldl_insert hnodup _).mpr (.inl hmem)
      rw [hsome]
      exact .some hcloned

structure Child (mode : HostAddressMode) (s s' : Machine) (child : GuestMemory) : Prop where
  mem : child = { s.mem with allocations := child.allocations, hostAddressMode := mode }
  clones : ∀ id, Option.Rel (fun a c => Cloned mode s s' (id, a) (id, c)) (s.mem.allocations.get? id)
    (child.allocations.get? id)

theorem tryCloneRuntime_spec (ctx : Context) (mode : HostAddressMode) (s : Machine)
    (hmade : ∀ id a, s.mem.allocations.get? id = some a → a.memory < s.heap.next) :
    (tryCloneRuntime ctx mode).wp (fun child s' => Grown s s' ∧ Child mode s s' child)
      (fun e s' => Grown s s' ∧ e ≠ .panic) s := by
  rw [tryCloneRuntime, wp_bind, wp_getMem, wp_bind]
  refine wp_mono (cloneAllocations_spec ctx mode s s.mem.allocations.entries fun e he =>
    hmade e.1 e.2 (SortedMap.get?_eq_some_iff.mpr he)) (fun clones s' h => ?_) (fun _ _ h => h)
  exact (wp_pure _).mpr ⟨h.1, rfl, fun id => clonedTable_rel h.2 id⟩

namespace Child

variable {mode : HostAddressMode} {s s' : Machine} {child : GuestMemory}

theorem get (h : Child mode s s' child) {id : Nat} {a : GuestAllocation}
    (ha : s.mem.allocations.get? id = some a) :
    ∃ c, child.allocations.get? id = some c ∧ Cloned mode s s' (id, a) (id, c) := by
  have hrel := h.clones id
  rw [ha] at hrel
  generalize child.allocations.get? id = c at hrel ⊢
  cases hrel with
  | some hcloned => exact ⟨_, rfl, hcloned⟩

theorem get' (h : Child mode s s' child) {id : Nat} {c : GuestAllocation}
    (hc : child.allocations.get? id = some c) :
    ∃ a, s.mem.allocations.get? id = some a ∧ Cloned mode s s' (id, a) (id, c) := by
  have hrel := h.clones id
  rw [hc] at hrel
  generalize s.mem.allocations.get? id = a at hrel ⊢
  cases hrel with
  | some hcloned => exact ⟨_, rfl, hcloned⟩

theorem agree (h : Child mode s s' child) : Machine.Agree s ⟨child, s'.heap⟩ := by
  refine ⟨by rw [h.mem], fun id => ?_⟩
  have hrel := h.clones id
  unfold Machine.buffer
  show Option.Rel _ _ ((child.allocations.get? id).map _)
  generalize s.mem.allocations.get? id = old at hrel ⊢
  generalize child.allocations.get? id = new at hrel ⊢
  cases hrel with
  | none => exact .none
  | some hcloned => exact .some hcloned.same

theorem made (h : Child mode s s' child) (id : Nat) (c : GuestAllocation)
    (hc : child.allocations.get? id = some c) : c.memory < s'.heap.next := by
  obtain ⟨_, _, hcloned⟩ := h.get' hc
  exact hcloned.made

end Child

/-! ### Every process of a run -/

namespace World

/-- A process as a call on it sees it. -/
def machine (w : World) (pid : Nat) : Option Machine := (w.memories[pid]?).map fun m => ⟨m, w.heap⟩

/-- The state of the first process. -/
def first (w : World) : Machine := ⟨w.memories.headD freshMemory, w.heap⟩

theorem machine_first {w : World} (h : 0 < w.memories.length) : w.machine 0 = some w.first := by
  obtain ⟨memories, heap⟩ := w
  match memories, h with
  | m :: _, _ => rfl

/-- Every reference points at a host memory that has been made. -/
def Made (w : World) : Prop :=
  ∀ memory ∈ w.memories, ∀ id a, memory.allocations.get? id = some a → a.memory < w.heap.next

/-- A reference is counted when another process holds it. -/
theorem others_pos_iff {w : World} {pid : Nat} {arc : ArcId} :
    0 < w.others pid arc ↔ ∃ j memory id a, j ≠ pid ∧ w.memories[j]? = some memory ∧
      memory.allocations.get? id = some a ∧ a.memory = arc := by
  rw [World.others, List.sum_pos_iff_exists_pos_nat]
  constructor
  · rintro ⟨count, hcount, hpos⟩
    obtain ⟨memory, hmem, rfl⟩ := List.mem_map.mp hcount
    obtain ⟨j, hne, hj⟩ := List.mem_eraseIdx_iff_getElem?.mp hmem
    obtain ⟨a, ha, heq⟩ := List.countP_pos_iff.mp hpos
    obtain ⟨id, hget⟩ := SortedMap.mem_values.mp ha
    exact ⟨j, memory, id, a, hne, hj, hget, of_decide_eq_true heq⟩
  · rintro ⟨j, memory, id, a, hne, hj, hget, rfl⟩
    have hmem : memory ∈ w.memories.eraseIdx pid := List.mem_eraseIdx_iff_getElem?.mpr ⟨j, hne, hj⟩
    exact ⟨_, List.mem_map.mpr ⟨memory, hmem, rfl⟩, ownCount_pos hget⟩

theorem Made.arcsMade {w : World} (hw : w.Made) (host : Host) {pid : Nat} {memory : GuestMemory}
    (hpid : w.memories[pid]? = some memory) : ArcsMade (w.context host pid) ⟨memory, w.heap⟩ := by
  refine ⟨hw memory (List.mem_of_getElem? hpid), fun arc harc => ?_⟩
  obtain ⟨j, other, id, a, _, hj, hget, rfl⟩ := others_pos_iff.mp harc
  exact hw other (List.mem_of_getElem? hj) id a hget

/-- A process whose tables stayed and whose host memories nobody wrote. -/
structure Untouched (s s' : Machine) : Prop where
  mem : s'.mem = s.mem
  object : ∀ id a, s.mem.allocations.get? id = some a → s'.heap.object a.memory = s.heap.object a.memory

theorem Untouched.agree {s s' : Machine} (h : Untouched s s') : Machine.Agree s s' := by
  refine ⟨by rw [h.mem], fun id => ?_⟩
  unfold Machine.buffer
  rw [h.mem]
  cases hget : s.mem.allocations.get? id with
  | none => exact .none
  | some a =>
      rw [Option.map_some, Option.map_some, h.object id a hget]
      exact .some (ByteBuf.Same.refl _)

/-- What one event leaves behind: the processes it did not run in as they were, and, after a fork, a
child that agrees with its parent. -/
structure Stepped (w w' : World) (pid : Nat) (event : Event) : Prop where
  made : w'.Made
  others : ∀ j s, j ≠ pid → w.machine j = some s → ∃ s', w'.machine j = some s' ∧ Untouched s s'
  child : ∀ mode, event = .fork mode → ∀ c, w'.machine w.memories.length = some c →
    ∃ s s', w.machine pid = some s ∧ w'.machine pid = some s' ∧ Untouched s s' ∧ Machine.Agree s c

theorem machine_set_append {w : World} {pid j : Nat} {memory : GuestMemory} {tail : List GuestMemory}
    {heap : HostHeap} {s : Machine} (hne : j ≠ pid) (hj : w.machine j = some s) :
    World.machine ⟨w.memories.set pid memory ++ tail, heap⟩ j = some ⟨s.mem, heap⟩ := by
  obtain ⟨m, hm, rfl⟩ := Option.map_eq_some_iff.mp hj
  have hset : (w.memories.set pid memory)[j]? = some m := by
    rw [List.getElem?_set_ne (Ne.symm hne)]
    exact hm
  have hlt : j < (w.memories.set pid memory).length := (List.getElem?_eq_some_iff.mp hset).1
  show ((w.memories.set pid memory ++ tail)[j]?).map _ = _
  rw [List.getElem?_append_left hlt, hset]
  rfl

theorem untouched_of_frame {w : World} {host : Host} {pid j : Nat} {s s₀ s' : Machine} (hne : j ≠ pid)
    (hj : w.machine j = some s) (hs₀ : s₀.heap = w.heap)
    (hframe : Frame (w.context host pid) s₀ s') : Untouched s ⟨s.mem, s'.heap⟩ := by
  obtain ⟨m, hm, rfl⟩ := Option.map_eq_some_iff.mp hj
  refine ⟨rfl, fun id a hget => ?_⟩
  have hpos : 0 < (w.context host pid).others a.memory :=
    others_pos_iff.mpr ⟨j, m, id, a, hne, hm, hget, rfl⟩
  rw [hframe.shared _ hpos, hs₀]

theorem made_set_append {w : World} (hw : w.Made) {pid : Nat} {s' : Machine} {tail : List GuestMemory}
    (hnext : w.heap.next ≤ s'.heap.next)
    (hown : ∀ id a, s'.mem.allocations.get? id = some a → a.memory < s'.heap.next)
    (htail : ∀ m ∈ tail, ∀ id a, m.allocations.get? id = some a → a.memory < s'.heap.next) :
    Made ⟨w.memories.set pid s'.mem ++ tail, s'.heap⟩ := by
  intro m hm id a ha
  rcases List.mem_append.mp hm with hm | hm
  · rcases List.mem_or_eq_of_mem_set hm with hm | rfl
    · exact (hw m hm id a ha).trans_le hnext
    · exact hown id a ha
  · exact htail m hm id a ha

theorem machine_length (w : World) : w.machine w.memories.length = none := by
  unfold machine
  rw [List.getElem?_eq_none le_rfl]
  rfl

theorem Grown.frame {ctx : Context} {s s' : Machine} (h : Grown s s') (hs : ArcsMade ctx s) :
    Frame ctx s s' :=
  ⟨fun arc harc => h.object arc (hs.others arc harc), h.next⟩

theorem call_stepped (host : Host) {w : World} (hw : w.Made) {pid : Nat} {memory : GuestMemory}
    (hpid : w.memories[pid]? = some memory) (op : Op) :
    Stepped w (w.step host pid (.call op)) pid (.call op) := by
  have harcs := hw.arcsMade host hpid
  obtain ⟨hmade, hframe⟩ := wp_state (exec_framed (w.context host pid) 0 op _ harcs (Nat.zero_le _))
  simp only [World.step, hpid]
  generalize (op.exec (w.context host pid) ⟨memory, w.heap⟩).2 = s' at hmade hframe ⊢
  rw [← List.append_nil (w.memories.set pid s'.mem)]
  refine ⟨made_set_append hw hframe.next hmade.own (by simp), fun j s hne hj => ?_, by simp⟩
  exact ⟨_, machine_set_append hne hj, untouched_of_frame hne hj rfl hframe⟩

theorem fork_stepped (host : Host) {w : World} (hw : w.Made) {pid : Nat} {memory : GuestMemory}
    (hpid : w.memories[pid]? = some memory) (mode : HostAddressMode) :
    Stepped w (w.step host pid (.fork mode)) pid (.fork mode) := by
  have harcs := hw.arcsMade host hpid
  obtain ⟨hok, herror⟩ :=
    wp_iff.mp (tryCloneRuntime_spec (w.context host pid) mode ⟨memory, w.heap⟩ harcs.own)
  have hparent : w.machine pid = some ⟨memory, w.heap⟩ := by
    unfold machine
    rw [hpid]
    rfl
  have hlt : pid < w.memories.length := (List.getElem?_eq_some_iff.mp hpid).1
  simp only [World.step, hpid]
  rcases hrun : tryCloneRuntime (w.context host pid) mode ⟨memory, w.heap⟩ with ⟨r, s'⟩
  cases r with
  | error e =>
      have hgrown := (herror e s' hrun).1
      have hframe := Grown.frame hgrown harcs
      have hown : ∀ id a, s'.mem.allocations.get? id = some a → a.memory < s'.heap.next := by
        rw [hgrown.mem]
        exact fun id a ha => (harcs.own id a ha).trans_le hgrown.next
      simp only
      rw [← List.append_nil (w.memories.set pid s'.mem)]
      refine ⟨made_set_append hw hgrown.next hown (by simp), fun j s hne hj => ?_, fun _ _ c hc => ?_⟩
      · exact ⟨_, machine_set_append hne hj, untouched_of_frame hne hj rfl hframe⟩
      · simp [machine] at hc
  | ok clone =>
      obtain ⟨hgrown, hchild⟩ := hok clone s' hrun
      have hframe := Grown.frame hgrown harcs
      have hown : ∀ id a, s'.mem.allocations.get? id = some a → a.memory < s'.heap.next := by
        rw [hgrown.mem]
        exact fun id a ha => (harcs.own id a ha).trans_le hgrown.next
      refine ⟨made_set_append hw hgrown.next hown (by simpa using hchild.made), fun j s hne hj => ?_,
        fun _ _ c hc => ?_⟩
      · exact ⟨_, machine_set_append hne hj, untouched_of_frame hne hj rfl hframe⟩
      · have hc' : c = ⟨clone, s'.heap⟩ := by
          have : (w.memories.set pid s'.mem ++ [clone])[w.memories.length]? = some clone := by
            rw [List.getElem?_append_right (by simp)]
            simp
          simpa [machine, this, eq_comm] using hc
        refine ⟨_, ⟨memory, s'.heap⟩, hparent, ?_, ⟨rfl, fun id a ha => ?_⟩, hc' ▸ hchild.agree⟩
        · have : (w.memories.set pid s'.mem ++ [clone])[pid]? = some memory := by
            rw [List.getElem?_append_left (by simpa using hlt), List.getElem?_set_self hlt, hgrown.mem]
          simp [machine, this]
        · exact hgrown.object _ (harcs.own id a ha)

theorem step_stepped (host : Host) {w : World} (hw : w.Made) (pid : Nat) (event : Event) :
    Stepped w (w.step host pid event) pid event := by
  cases hpid : w.memories[pid]? with
  | none =>
      have hstep : w.step host pid event = w := by simp only [World.step, hpid]
      rw [hstep]
      refine ⟨hw, fun j s _ hj => ⟨s, hj, rfl, fun _ _ _ => rfl⟩, fun _ _ c hc => ?_⟩
      exact absurd hc (by rw [machine_length]; simp)
  | some memory =>
      cases event with
      | call op => exact call_stepped host hw hpid op
      | fork mode => exact fork_stepped host hw hpid mode

theorem initial_made {initialBrk mmapBase addressSpaceEnd : Nat} {memory : GuestMemory}
    (h : GuestMemory.withLayout initialBrk mmapBase addressSpaceEnd = .ok memory) :
    (World.initial memory).Made := by
  intro m hm id a ha
  obtain rfl := List.mem_singleton.mp hm
  unfold GuestMemory.withLayout at h
  split at h
  · simp at h
  · rw [Except.ok.injEq] at h
    rw [← h] at ha
    exact absurd ha (by simp)

theorem run_made (host : Host) (events : List (Nat × Event)) {w : World} (hw : w.Made) :
    (w.run host events).Made := by
  induction events generalizing w with
  | nil => exact hw
  | cons e rest ih => exact ih (step_stepped host hw e.1 e.2).made

end World

/-- The two processes show the same address space: the same byte, protection and kind behind every
address, and the same outcome of every read. -/
def SameView (s t : Machine) : Prop :=
  (∀ address, s.cell address = t.cell address) ∧
    ∀ address len, (read address len s).1 = (read address len t).1

theorem Machine.Agree.sameView {s t : Machine} (h : Machine.Agree s t) : SameView s t :=
  ⟨h.cell, fun address len => (h.read address len).result⟩

/-- An event in one process is not seen by any other process, in whatever order calls and forks came
before, and a fork gives a child that sees what its parent saw and still sees. -/
theorem fork_isolation (host : Host) {initialBrk mmapBase addressSpaceEnd : Nat} {memory : GuestMemory}
    (hinit : GuestMemory.withLayout initialBrk mmapBase addressSpaceEnd = .ok memory)
    (events : List (Nat × Event)) (pid : Nat) (event : Event) :
    let w := (World.initial memory).run host events
    let w' := w.step host pid event
    (∀ j s, j ≠ pid → w.machine j = some s → ∃ s', w'.machine j = some s' ∧ SameView s' s) ∧
    (∀ mode, event = .fork mode → ∀ child, w'.machine w.memories.length = some child →
      ∃ parent parent', w.machine pid = some parent ∧ w'.machine pid = some parent' ∧
        SameView parent' parent ∧ SameView child parent') := by
  intro w w'
  have hstep : World.Stepped w w' pid event :=
    World.step_stepped host (World.run_made host events (World.initial_made hinit)) pid event
  refine ⟨fun j s hne hj => ?_, fun mode hfork child hchild => ?_⟩
  · obtain ⟨s', hs', huntouched⟩ := hstep.others j s hne hj
    exact ⟨s', hs', huntouched.agree.symm.sameView⟩
  · obtain ⟨parent, parent', hp, hp', huntouched, hagree⟩ := hstep.child mode hfork child hchild
    refine ⟨parent, parent', hp, hp', huntouched.agree.symm.sameView, ?_⟩
    exact (hagree.symm.trans huntouched.agree).sameView

theorem fork_isolation_remapped :
    let w := (World.initial freshMemory).run (Host.granting .windows)
      [(0, .call (.mmap (fixedMapping 0x2000000 0x2000 1))), (0, .fork .flexible)]
    let w' := w.step (Host.granting .windows) 0 (.call (.mmap (fixedMapping 0x2000000 0x1000 3)))
    ∃ s s', w.machine 1 = some s ∧ w'.machine 1 = some s' ∧ SameView s' s := by
  intro w w'
  have hchild : w.machine 1 = some ⟨w.memories.getD 1 freshMemory, w.heap⟩ := by
    have hlength : 1 < w.memories.length := by decide +kernel
    simp [World.machine, List.getElem?_eq_getElem hlength]
  obtain ⟨s', hs', hsame⟩ := (fork_isolation (Host.granting .windows) withLayout_freshMemory
    [(0, .call (.mmap (fixedMapping 0x2000000 0x2000 1))), (0, .fork .flexible)] 0
    (.call (.mmap (fixedMapping 0x2000000 0x1000 3)))).1 1 _ (by decide) hchild
  exact ⟨_, s', hchild, hs', hsame⟩

end Mcr.Memory
