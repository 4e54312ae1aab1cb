import Mcr.Memory.Invariant

/-!
# Splitting, dropping, unmapping and coalescing

The table updates that touch no host memory. Splitting and coalescing only move the cuts between VMAs;
unmapping takes away exactly the addresses of its range.
-/

namespace Mcr.Memory

/-! ### What a neutral update leaves alone -/

/-- Everything but the tables, the id counter only growing. -/
structure SameLayout (m m' : GuestMemory) : Prop where
  brkBase : m'.brkBase = m.brkBase
  currentBrk : m'.currentBrk = m.currentBrk
  mmapBase : m'.mmapBase = m.mmapBase
  addressSpaceEnd : m'.addressSpaceEnd = m.addressSpaceEnd
  mode : m'.hostAddressMode = m.hostAddressMode
  ids : m.nextAllocationId ≤ m'.nextAllocationId

theorem SameLayout.refl (m : GuestMemory) : SameLayout m m := ⟨rfl, rfl, rfl, rfl, rfl, le_rfl⟩

theorem SameLayout.trans {m m' m'' : GuestMemory} (h : SameLayout m m') (h' : SameLayout m' m'') :
    SameLayout m m'' :=
  ⟨h'.brkBase.trans h.brkBase, h'.currentBrk.trans h.currentBrk, h'.mmapBase.trans h.mmapBase,
    h'.addressSpaceEnd.trans h.addressSpaceEnd, h'.mode.trans h.mode, h.ids.trans h'.ids⟩

/-- A guest cannot tell the two states apart. -/
structure Neutral (s s' : Machine) : Prop where
  shows : ∀ x c, s'.Shows x c ↔ s.Shows x c
  disjoint : s.mem.Disjoint → s'.mem.Disjoint
  layout : SameLayout s.mem s'.mem
  generation : s'.mem.executableWriteGeneration = s.mem.executableWriteGeneration

namespace Neutral

variable {ctx : Context} {s t u : Machine}

theorem refl (s : Machine) : Neutral s s := ⟨fun _ _ => Iff.rfl, id, SameLayout.refl _, rfl⟩

theorem trans (h : Neutral s t) (h' : Neutral t u) : Neutral s u :=
  ⟨fun x c => (h'.shows x c).trans (h.shows x c), fun hd => h'.disjoint (h.disjoint hd),
    h.layout.trans h'.layout, h'.generation.trans h.generation⟩

theorem cell (h : Neutral s t) (hwf : Wf ctx s) (hd : s.mem.Disjoint) (hwf' : Wf ctx t) (x : Nat) :
    t.cell x = s.cell x :=
  cell_eq_of_shows hwf hd hwf' (h.disjoint hd) (h.shows x)

end Neutral

theorem Similar.neutral {s t : Machine} (h : Similar s t) {ctx : Context} (hwf : Wf ctx s) :
    Neutral s t := by
  have hlayout : SameLayout s.mem t.mem := by
    rw [h.mem]
    exact ⟨rfl, rfl, rfl, rfl, rfl, le_rfl⟩
  refine ⟨fun x c => ?_, h.disjoint, hlayout, by rw [h.mem]⟩
  -- a shown address lies inside its allocation, where the bytes are the same
  have hbyte : ∀ key vma (a b : GuestAllocation), s.mem.vmas.get? key = some vma → vma.start ≤ x → x < vma.stop →
      s.mem.allocations.get? vma.allocationId = some a → b.guestStart = a.guestStart →
      ByteBuf.Same (s.heap.object a.memory) (t.heap.object b.memory) →
      b.byteAt t.heap x = a.byteAt s.heap x := by
    intro key vma a b hget hlow hhigh ha hguest hsame
    obtain ⟨a', ha', hstart, hend, _⟩ := (hwf.vma key vma hget).byteAt hlow hhigh
    obtain rfl := Option.some.inj (ha.symm.trans ha')
    unfold GuestAllocation.byteAt
    rw [hguest]
    exact (hsame.byte _ (by omega)).symm
  constructor
  · rintro ⟨id, b, hface, hb, hc⟩
    obtain ⟨a, ha, hguest, hsame⟩ := h.get' hb
    have hface' := h.face.mp hface
    have ⟨key, vma, hget, hlow, hhigh, _, _, hid⟩ := hface'
    subst hid
    exact ⟨_, a, hface', ha, hc.trans (hbyte key vma a b hget hlow hhigh ha hguest hsame)⟩
  · rintro ⟨id, a, hface, ha, hc⟩
    obtain ⟨b, hb, hguest, hsame⟩ := h.get ha
    have ⟨key, vma, hget, hlow, hhigh, _, _, hid⟩ := hface
    subst hid
    exact ⟨_, b, h.face.mpr hface, hb,
      hc.trans (hbyte key vma a b hget hlow hhigh ha hguest hsame).symm⟩

/-! ### Replacing the VMA table -/

section Vmas

variable {ctx : Context} {s : Machine}

theorem VmaWf.withVmas {key : Nat} {vma : GuestVma} (h : VmaWf s key vma)
    (vmas : SortedMap Nat GuestVma) : VmaWf { s with mem := { s.mem with vmas } } key vma :=
  ⟨h.key, h.nonempty, h.startAligned, h.stopAligned, h.low, h.high, h.bounded, h.heap, h.linked⟩

theorem Wf.withVmas (hwf : Wf ctx s) {vmas : SortedMap Nat GuestVma}
    (h : ∀ key vma, vmas.get? key = some vma → VmaWf s key vma) :
    Wf ctx { s with mem := { s.mem with vmas } } := by
  refine ⟨fun key vma hget => (h key vma hget).withVmas vmas, fun id a ha => ?_, hwf.others,
    hwf.brkAligned, hwf.brkLow⟩
  have hwa := hwf.allocation id a ha
  exact ⟨hwa.id, hwa.made, hwa.nonempty, hwa.bounded, hwa.placed⟩

theorem neutral_withVmas {vmas : SortedMap Nat GuestVma}
    (hface : ∀ x protection kind id,
      GuestMemory.Face { s.mem with vmas } x protection kind id ↔ s.mem.Face x protection kind id)
    (hd : s.mem.Disjoint → GuestMemory.Disjoint { s.mem with vmas }) :
    Neutral s { s with mem := { s.mem with vmas } } := by
  refine ⟨fun x c => ?_, hd, ⟨rfl, rfl, rfl, rfl, rfl, le_rfl⟩, rfl⟩
  unfold Machine.Shows
  simp only [hface]

theorem VmaWf.left {key : Nat} {vma : GuestVma} {address : Nat} (h : VmaWf s key vma)
    (haligned : Aligned address) (hlow : vma.start < address) (hhigh : address < vma.stop) :
    VmaWf s vma.start { vma with stop := address } := by
  obtain ⟨a, ha, hstart, hend⟩ := h.linked
  have hhigh' := h.high
  have hbounded := h.bounded
  exact ⟨rfl, hlow, h.startAligned, haligned, h.low, by show address ≤ _; omega,
    by show address < _; omega, h.heap, a, ha, hstart, by show address ≤ _; omega⟩

theorem VmaWf.right {key : Nat} {vma : GuestVma} {address : Nat} (h : VmaWf s key vma)
    (haligned : Aligned address) (hlow : vma.start < address) (hhigh : address < vma.stop) :
    VmaWf s address { vma with start := address,
                               allocationOffset := vma.allocationOffset + (address - vma.start) } := by
  obtain ⟨a, ha, hstart, hend⟩ := h.linked
  have hlow' := h.low
  refine ⟨rfl, hhigh, haligned, h.stopAligned, by show _ ≤ address; omega, h.high, h.bounded,
    fun hk => ?_, a, ha, ?_, hend⟩
  · have := h.heap hk
    show _ ≤ address
    omega
  · show a.guestStart + (vma.allocationOffset + (address - vma.start)) = address
    omega

end Vmas

/-! ### `split_vma_at` -/

section Split

variable {ctx : Context} {s : Machine} {address : Nat}

/-- Splitting does nothing, or replaces the VMA around the address by its two halves. -/
theorem splitVmaAt_cases (hwf : Wf ctx s) (address : Nat) :
    (s.mem.splitVmaAt address = s.mem ∧
      ∀ vma, s.mem.vmaContaining address = some vma → address = vma.start) ∨
    ∃ vma vmas, s.mem.vmas.get? vma.start = some vma ∧ vma.start < address ∧ address < vma.stop ∧
      s.mem.vmas.get? address = none ∧
      s.mem.splitVmaAt address = { s.mem with vmas } ∧
      ∀ key, vmas.get? key =
        if key = address then
          some { vma with start := address,
                          allocationOffset := vma.allocationOffset + (address - vma.start) }
        else if key = vma.start then some { vma with stop := address }
        else s.mem.vmas.get? key := by
  unfold GuestMemory.splitVmaAt
  cases hv : s.mem.vmaContaining address with
  | none => exact .inl ⟨rfl, by simp⟩
  | some vma =>
      obtain ⟨hget, hlow, hhigh, hwv⟩ := hwf.vma_of_containing hv
      by_cases hedge : address = vma.start ∨ address = vma.stop
      · left
        refine ⟨by simp [hedge], fun vma' h => ?_⟩
        obtain rfl := Option.some.inj h
        omega
      · right
        have hfree : s.mem.vmas.get? address = none := by
          obtain ⟨key, hkey, _, _, _, hlast⟩ := GuestMemory.vmaContaining_some hv
          have hstart := (hwf.vma key vma hkey).key
          rw [Option.eq_none_iff_forall_ne_some]
          intro w hw
          have := hlast address w hw le_rfl
          omega
        refine ⟨vma, _, hget, by omega, hhigh, hfree, by simp only [if_neg hedge]; rfl, fun key => ?_⟩
        rw [SortedMap.get?_insert, SortedMap.get?_insert, SortedMap.get?_erase]
        by_cases h1 : key = address
        · simp [h1]
        · by_cases h2 : key = vma.start
          · simp [h2]
          · simp [h1, h2]

theorem splitVmaAt_eq (memory : GuestMemory) (address : Nat) :
    ∃ vmas, memory.splitVmaAt address = { memory with vmas } := by
  unfold GuestMemory.splitVmaAt
  split
  · exact ⟨memory.vmas, rfl⟩
  · split
    · exact ⟨memory.vmas, rfl⟩
    · exact ⟨_, rfl⟩

theorem splitVmaAt_get (hwf : Wf ctx s) (address : Nat) {key : Nat} {w : GuestVma}
    (hw : s.mem.vmas.get? key = some w) (hout : ¬ (w.start < address ∧ address < w.stop)) :
    (s.mem.splitVmaAt address).vmas.get? key = some w := by
  obtain ⟨hsame, _⟩ | ⟨vma, vmas, hget, hlow, hhigh, hfree, hsplit, hvmas⟩ :=
    splitVmaAt_cases hwf address
  · rw [hsame]
    exact hw
  · rw [hsplit]
    show vmas.get? key = some w
    have hne : key ≠ address := by
      rintro rfl
      rw [hfree] at hw
      exact absurd hw (by simp)
    have hne' : key ≠ vma.start := by
      rintro rfl
      rw [hget] at hw
      obtain rfl := Option.some.inj hw
      exact hout ⟨hlow, hhigh⟩
    rw [hvmas, if_neg hne, if_neg hne']
    exact hw

theorem splitVmaAt_wf (hwf : Wf ctx s) (haligned : Aligned address) :
    Wf ctx { s with mem := s.mem.splitVmaAt address } := by
  obtain ⟨hsame, _⟩ | ⟨vma, vmas, hget, hlow, hhigh, hfree, hsplit, hvmas⟩ := splitVmaAt_cases hwf address
  · rw [hsame]
    exact hwf
  · rw [hsplit]
    have hv := hwf.vma _ _ hget
    refine hwf.withVmas fun key w hw => ?_
    rw [hvmas] at hw
    split at hw
    · rename_i hkey
      obtain rfl := Option.some.inj hw
      rw [hkey]
      exact hv.right haligned hlow hhigh
    · split at hw
      · rename_i hkey
        obtain rfl := Option.some.inj hw
        rw [hkey]
        exact hv.left haligned hlow hhigh
      · exact hwf.vma key w hw

theorem splitVmaAt_face (hwf : Wf ctx s) (address : Nat) {x : Nat} {protection : GuestMemoryProtection}
    {kind : GuestVmaKind} {id : Nat} :
    (s.mem.splitVmaAt address).Face x protection kind id ↔ s.mem.Face x protection kind id := by
  obtain ⟨hsame, _⟩ | ⟨vma, vmas, hget, hlow, hhigh, hfree, hsplit, hvmas⟩ := splitVmaAt_cases hwf address
  · rw [hsame]
  · rw [hsplit]
    constructor
    · rintro ⟨key, w, hw, hxlow, hxhigh, hrest⟩
      change vmas.get? key = some w at hw
      rw [hvmas] at hw
      split at hw
      · obtain rfl := Option.some.inj hw
        change address ≤ x at hxlow
        exact ⟨_, vma, hget, by omega, hxhigh, hrest⟩
      · split at hw
        · obtain rfl := Option.some.inj hw
          change x < address at hxhigh
          exact ⟨_, vma, hget, hxlow, by omega, hrest⟩
        · exact ⟨key, w, hw, hxlow, hxhigh, hrest⟩
    · rintro ⟨key, w, hw, hxlow, hxhigh, hrest⟩
      by_cases hkey : key = vma.start
      · obtain rfl : w = vma := by
          rw [hkey, hget] at hw
          exact (Option.some.inj hw).symm
        by_cases hx : x < address
        · refine ⟨w.start, { w with stop := address }, ?_, hxlow, hx, hrest⟩
          show vmas.get? w.start = _
          rw [hvmas, if_neg (by omega), if_pos rfl]
        · refine ⟨address, { w with start := address,
                                    allocationOffset := w.allocationOffset + (address - w.start) }, ?_,
            not_lt.mp hx, hxhigh, hrest⟩
          show vmas.get? address = _
          rw [hvmas, if_pos rfl]
      · have hkey' : key ≠ address := by
          rintro rfl
          rw [hfree] at hw
          exact absurd hw (by simp)
        refine ⟨key, w, ?_, hxlow, hxhigh, hrest⟩
        show vmas.get? key = some w
        rw [hvmas, if_neg hkey', if_neg hkey]
        exact hw

/-- A VMA of the split table is an old one, or a half of the one that was split. -/
theorem splitVmaAt_part {vma : GuestVma} {vmas : SortedMap Nat GuestVma}
    (hvmas : ∀ key, vmas.get? key =
        if key = address then
          some { vma with start := address,
                          allocationOffset := vma.allocationOffset + (address - vma.start) }
        else if key = vma.start then some { vma with stop := address }
        else s.mem.vmas.get? key)
    {key : Nat} {w : GuestVma} (hw : vmas.get? key = some w) :
    (key = address ∧ w.start = address ∧ w.stop = vma.stop) ∨
    (key = vma.start ∧ w.start = vma.start ∧ w.stop = address) ∨
    (key ≠ vma.start ∧ s.mem.vmas.get? key = some w) := by
  rw [hvmas] at hw
  split at hw
  · rename_i hkey
    obtain rfl := Option.some.inj hw
    exact .inl ⟨hkey, rfl, rfl⟩
  · split at hw
    · rename_i hkey
      obtain rfl := Option.some.inj hw
      exact .inr (.inl ⟨hkey, rfl, rfl⟩)
    · rename_i hkey
      exact .inr (.inr ⟨hkey, hw⟩)

theorem splitVmaAt_disjoint (hwf : Wf ctx s) (address : Nat) (hd : s.mem.Disjoint) :
    (s.mem.splitVmaAt address).Disjoint := by
  obtain ⟨hsame, _⟩ | ⟨vma, vmas, hget, hlow, hhigh, hfree, hsplit, hvmas⟩ :=
    splitVmaAt_cases hwf address
  · rw [hsame]
    exact hd
  · rw [hsplit]
    intro x k v k' v' hv hv' hxlow hxhigh hxlow' hxhigh'
    -- an old VMA that shares an address with a half shares it with the VMA that was split
    have hold : ∀ key w, s.mem.vmas.get? key = some w → key ≠ vma.start → w.start ≤ x → x < w.stop →
        ¬ (vma.start ≤ x ∧ x < vma.stop) := fun key w hw hne h1 h2 h3 =>
      hne (hd x key w vma.start vma hw hget h1 h2 h3.1 h3.2)
    rcases splitVmaAt_part hvmas hv with h | h | ⟨hne, h⟩ <;>
      rcases splitVmaAt_part hvmas hv' with h' | h' | ⟨hne', h'⟩
    all_goals first
      | omega
      | exact absurd ⟨by omega, by omega⟩ (hold _ _ (by assumption) (by assumption) (by assumption) (by assumption))
      | exact hd x k v k' v' h h' hxlow hxhigh hxlow' hxhigh'

theorem splitVmaAt_containing (hwf : Wf ctx s) (address : Nat) {x : Nat} {v : GuestVma}
    (hv : s.mem.vmaContaining x = some v) :
    ∃ w, (s.mem.splitVmaAt address).vmaContaining x = some w ∧ w.protection = v.protection ∧
      w.kind = v.kind ∧ (w.stop = v.stop ∨ w.stop = address) := by
  unfold GuestMemory.splitVmaAt
  cases haround : s.mem.vmaContaining address with
  | none => exact ⟨v, hv, rfl, rfl, .inl rfl⟩
  | some u =>
      by_cases hedge : address = u.start ∨ address = u.stop
      · simp only [hedge, if_true]
        exact ⟨v, hv, rfl, rfl, .inl rfl⟩
      · simp only [if_neg hedge]
        obtain ⟨_, hvlow, hvhigh, hwv⟩ := hwf.vma_of_containing hv
        obtain ⟨k, hk, _, _, _, hlast⟩ := GuestMemory.vmaContaining_some hv
        obtain rfl := (hwf.vma k v hk).key
        obtain ⟨k', hk', _, hulow, huhigh, hlast'⟩ := GuestMemory.vmaContaining_some haround
        obtain rfl := (hwf.vma k' u hk').key
        -- the table after the split, key by key
        have hget : ∀ (l r : GuestVma) key, (((s.mem.vmas.erase u.start).insert u.start l).insert address r).get? key =
            if key = address then some r else if key = u.start then some l else s.mem.vmas.get? key := by
          intro l r key
          rw [SortedMap.get?_insert, SortedMap.get?_insert, SortedMap.get?_erase]
          by_cases h1 : key = address
          · simp [h1]
          · by_cases h2 : key = u.start
            · simp [h2]
            · simp [h1, h2]
        by_cases hsame : v.start = u.start
        · obtain rfl : v = u := by
            rw [hsame, hk'] at hk
            exact (Option.some.inj hk).symm
          by_cases hx : address ≤ x
          · refine ⟨{ v with start := address,
                              allocationOffset := v.allocationOffset + (address - v.start) },
              GuestMemory.vmaContaining_of address ?_ hx (fun j w hj hjx => ?_) hx hvhigh,
              rfl, rfl, .inl rfl⟩
            · show (SortedMap.insert _ _ _).get? _ = _
              rw [hget, if_pos rfl]
            · change (SortedMap.insert _ _ _).get? j = _ at hj
              rw [hget] at hj
              split at hj
              · omega
              · split at hj
                · omega
                · have := hlast j w hj hjx
                  omega
          · refine ⟨{ v with stop := address },
              GuestMemory.vmaContaining_of v.start ?_ hvlow (fun j w hj hjx => ?_) hvlow
                (not_le.mp hx), rfl, rfl, .inr rfl⟩
            · show (SortedMap.insert _ _ _).get? _ = _
              rw [hget, if_neg (by omega), if_pos rfl]
            · change (SortedMap.insert _ _ _).get? j = _ at hj
              rw [hget] at hj
              split at hj
              · omega
              · split at hj
                · omega
                · exact hlast j w hj hjx
        · -- the VMA that was split is another one, before or after `x`
          have hne : v.start ≠ address := by
            intro h
            have := hlast' _ v hk h.le
            omega
          refine ⟨v, GuestMemory.vmaContaining_of v.start ?_ hvlow (fun j w hj hjx => ?_) hvlow
            hvhigh, rfl, rfl, .inl rfl⟩
          · show (SortedMap.insert _ _ _).get? _ = _
            rw [hget, if_neg hne, if_neg hsame]
            exact hk
          · change (SortedMap.insert _ _ _).get? j = _ at hj
            rw [hget] at hj
            split at hj
            · by_contra hlt
              have h1 := hlast _ u hk' (by omega)
              have h3 := hlast' _ v hk
              omega
            · split at hj
              · have := hlast _ u hk' (by omega)
                omega
              · exact hlast j w hj hjx

theorem splitVmaAt_neutral (hwf : Wf ctx s) (address : Nat) : Neutral s { s with mem := s.mem.splitVmaAt address } := by
  have hface : ∀ x p k id, (s.mem.splitVmaAt address).Face x p k id ↔ s.mem.Face x p k id :=
    fun x p k id => splitVmaAt_face hwf address
  have hdisj := splitVmaAt_disjoint hwf address
  obtain ⟨hsame, _⟩ | ⟨_, vmas, _, _, _, _, hsplit, _⟩ := splitVmaAt_cases hwf address
  · rw [hsame]
    exact Neutral.refl s
  · rw [hsplit] at hface hdisj ⊢
    exact neutral_withVmas hface hdisj

def GuestMemory.Cut (memory : GuestMemory) (address : Nat) : Prop :=
  ∀ key vma, memory.vmas.get? key = some vma → ¬ (vma.start < address ∧ address < vma.stop)

theorem splitVmaAt_cut (hwf : Wf ctx s) (address : Nat) (hd : s.mem.Disjoint) :
    (s.mem.splitVmaAt address).Cut address := by
  intro key w hw hacross
  obtain ⟨hsame, hedge⟩ | ⟨vma, vmas, hget, hlow, hhigh, hfree, hsplit, hvmas⟩ :=
    splitVmaAt_cases hwf address
  · rw [hsame] at hw
    have := hedge w (hwf.containing_of_vma hd hw hacross.1.le hacross.2)
    omega
  · rw [hsplit] at hw
    obtain h | h | ⟨hne, h⟩ := splitVmaAt_part hvmas hw
    · omega
    · omega
    · exact hne (hd address key w vma.start vma h hget hacross.1.le hacross.2 hlow.le hhigh)

theorem splitVmaAt_cut_of_cut {other : Nat} (hwf : Wf ctx s) (h : s.mem.Cut other) :
    (s.mem.splitVmaAt address).Cut other := by
  intro key w hw hacross
  obtain ⟨hsame, _⟩ | ⟨vma, vmas, hget, hlow, hhigh, hfree, hsplit, hvmas⟩ :=
    splitVmaAt_cases hwf address
  · rw [hsame] at hw
    exact h key w hw hacross
  · rw [hsplit] at hw
    have hvma := h _ vma hget
    obtain h' | h' | ⟨_, h'⟩ := splitVmaAt_part hvmas hw
    · omega
    · omega
    · exact h key w h' hacross

end Split

/-! ### Dropping and removing -/

section Remove

variable {ctx : Context} {s : Machine}

theorem dropUnreferenced_get {memory : GuestMemory} {id : Nat} {a : GuestAllocation} :
    memory.dropUnreferencedAllocations.allocations.get? id = some a ↔
      memory.allocations.get? id = some a ∧ ∃ key vma, memory.vmas.get? key = some vma ∧ vma.allocationId = id := by
  unfold GuestMemory.dropUnreferencedAllocations
  rw [SortedMap.get?_filter_eq_some]
  refine and_congr_right fun _ => ?_
  simp only [List.any_eq_true, SortedMap.mem_values, decide_eq_true_eq]
  constructor
  · rintro ⟨vma, ⟨key, hget⟩, hid⟩
    exact ⟨key, vma, hget, hid⟩
  · rintro ⟨key, vma, hget, hid⟩
    exact ⟨vma, ⟨key, hget⟩, hid⟩

theorem dropUnreferenced_wf (hwf : Wf ctx s) :
    Wf ctx { s with mem := s.mem.dropUnreferencedAllocations } := by
  refine ⟨fun key vma hget => ?_, fun id a ha => ?_, hwf.others, hwf.brkAligned, hwf.brkLow⟩
  · have hv := hwf.vma key vma hget
    obtain ⟨a, ha, hlink⟩ := hv.linked
    exact ⟨hv.key, hv.nonempty, hv.startAligned, hv.stopAligned, hv.low, hv.high, hv.bounded, hv.heap,
      a, dropUnreferenced_get.mpr ⟨ha, key, vma, hget, rfl⟩, hlink⟩
  · have hwa := hwf.allocation id a (dropUnreferenced_get.mp ha).1
    exact ⟨hwa.id, hwa.made, hwa.nonempty, hwa.bounded, hwa.placed⟩

theorem dropUnreferenced_neutral : Neutral s { s with mem := s.mem.dropUnreferencedAllocations } := by
  refine ⟨fun x c => ?_, id, ⟨rfl, rfl, rfl, rfl, rfl, le_rfl⟩, rfl⟩
  constructor
  · rintro ⟨id, a, hface, ha, hc⟩
    exact ⟨id, a, hface, (dropUnreferenced_get.mp ha).1, hc⟩
  · rintro ⟨id, a, hface, ha, hc⟩
    have ⟨key, vma, hget, _, _, _, _, hid⟩ := hface
    exact ⟨id, a, hface, dropUnreferenced_get.mpr ⟨ha, key, vma, hget, hid⟩, hc⟩

theorem removeKeys_get (memory : GuestMemory) (keys : List Nat) (key : Nat) :
    (memory.removeKeys keys).vmas.get? key = if key ∈ keys then none else memory.vmas.get? key := by
  unfold GuestMemory.removeKeys
  show (keys.foldl (fun vmas key => vmas.erase key) memory.vmas).get? key = _
  generalize memory.vmas = vmas
  induction keys generalizing vmas with
  | nil => simp
  | cons k rest ih =>
      rw [List.foldl_cons, ih, SortedMap.get?_erase]
      by_cases h1 : key ∈ rest
      · simp [h1]
      · by_cases h2 : key = k
        · simp [h2]
        · simp [h1, h2]

theorem removeKeys_get_some {memory : GuestMemory} {keys : List Nat} {key : Nat} {vma : GuestVma} :
    (memory.removeKeys keys).vmas.get? key = some vma ↔ memory.vmas.get? key = some vma ∧ key ∉ keys := by
  rw [removeKeys_get]
  split <;> simp_all

theorem removeKeys_wf (hwf : Wf ctx s) (keys : List Nat) :
    Wf ctx { s with mem := s.mem.removeKeys keys } :=
  hwf.withVmas fun key vma hget => hwf.vma key vma (removeKeys_get_some.mp hget).1

theorem removeKeys_disjoint {memory : GuestMemory} (hd : memory.Disjoint) (keys : List Nat) :
    (memory.removeKeys keys).Disjoint := by
  intro x k v k' v' hv hv'
  exact hd x k v k' v' (removeKeys_get_some.mp hv).1 (removeKeys_get_some.mp hv').1

/-- What is left once some VMAs are removed and the allocations nobody names are dropped. -/
theorem removeKeys_shows {keys : List Nat} {x : Nat} {c : Cell} :
    Machine.Shows { s with mem := (s.mem.removeKeys keys).dropUnreferencedAllocations } x c ↔
      ∃ key vma a, s.mem.vmas.get? key = some vma ∧ key ∉ keys ∧ vma.start ≤ x ∧ x < vma.stop ∧
        s.mem.allocations.get? vma.allocationId = some a ∧
        c = ⟨a.byteAt s.heap x, vma.protection, vma.kind⟩ := by
  rw [dropUnreferenced_neutral (s := { s with mem := s.mem.removeKeys keys }).shows]
  constructor
  · rintro ⟨id, a, ⟨key, vma, hget, hlow, hhigh, hprot, hkind, rfl⟩, ha, hc⟩
    obtain ⟨hget, hkey⟩ := removeKeys_get_some.mp hget
    refine ⟨key, vma, a, hget, hkey, hlow, hhigh, ha, ?_⟩
    cases c
    simp_all
  · rintro ⟨key, vma, a, hget, hkey, hlow, hhigh, ha, rfl⟩
    exact ⟨_, a, ⟨key, vma, removeKeys_get_some.mpr ⟨hget, hkey⟩, hlow, hhigh, rfl, rfl, rfl⟩, ha, rfl⟩

theorem Machine.shows_iff {x : Nat} {c : Cell} :
    s.Shows x c ↔ ∃ key vma a, s.mem.vmas.get? key = some vma ∧ vma.start ≤ x ∧ x < vma.stop ∧
      s.mem.allocations.get? vma.allocationId = some a ∧
      c = ⟨a.byteAt s.heap x, vma.protection, vma.kind⟩ := by
  constructor
  · rintro ⟨id, a, ⟨key, vma, hget, hlow, hhigh, hprot, hkind, rfl⟩, ha, hc⟩
    refine ⟨key, vma, a, hget, hlow, hhigh, ha, ?_⟩
    cases c
    simp_all
  · rintro ⟨key, vma, a, hget, hlow, hhigh, ha, rfl⟩
    exact ⟨_, a, ⟨key, vma, hget, hlow, hhigh, rfl, rfl, rfl⟩, ha, rfl⟩

end Remove

/-! ### `unmap_range` -/

section Unmap

variable {ctx : Context} {s : Machine} {start stop : Nat}

theorem cutRange_wf (hwf : Wf ctx s) (hstart : Aligned start) (hstop : Aligned stop) :
    Wf ctx { s with mem := (s.mem.splitVmaAt start).splitVmaAt stop } :=
  splitVmaAt_wf (splitVmaAt_wf hwf hstart) hstop

theorem cutRange_neutral (hwf : Wf ctx s) (hstart : Aligned start) (stop : Nat) :
    Neutral s { s with mem := (s.mem.splitVmaAt start).splitVmaAt stop } :=
  (splitVmaAt_neutral hwf start).trans (splitVmaAt_neutral (splitVmaAt_wf hwf hstart) stop)

theorem cutRange_cut (hwf : Wf ctx s) (hd : s.mem.Disjoint) (hstart : Aligned start) (stop : Nat) :
    ((s.mem.splitVmaAt start).splitVmaAt stop).Cut start ∧
      ((s.mem.splitVmaAt start).splitVmaAt stop).Cut stop := by
  have hwf' := splitVmaAt_wf hwf hstart
  exact ⟨splitVmaAt_cut_of_cut (s := { s with mem := _ }) hwf' (splitVmaAt_cut hwf start hd),
    splitVmaAt_cut (s := { s with mem := _ }) hwf' stop (splitVmaAt_disjoint hwf start hd)⟩

theorem unmapRange_wf (hwf : Wf ctx s) (hstart : Aligned start) (hstop : Aligned stop) :
    Wf ctx { s with mem := s.mem.unmapRange start stop } :=
  dropUnreferenced_wf (removeKeys_wf (cutRange_wf hwf hstart hstop) _)

theorem unmapRange_eq (memory : GuestMemory) (start stop : Nat) :
    ∃ vmas allocations, memory.unmapRange start stop = { memory with vmas, allocations } := by
  obtain ⟨vmas, h⟩ := splitVmaAt_eq memory start
  obtain ⟨vmas', h'⟩ := splitVmaAt_eq { memory with vmas } stop
  unfold GuestMemory.unmapRange
  rw [h, h']
  exact ⟨_, _, rfl⟩

theorem unmapRange_get (hwf : Wf ctx s) (hstart : Aligned start) (hlt : start < stop) {key : Nat} {vma : GuestVma}
    (hget : s.mem.vmas.get? key = some vma) (hout : vma.stop ≤ start ∨ stop ≤ vma.start) :
    (s.mem.unmapRange start stop).vmas.get? key = some vma ∧
      (s.mem.unmapRange start stop).allocations.get? vma.allocationId =
        s.mem.allocations.get? vma.allocationId := by
  have hne := (hwf.vma key vma hget).nonempty
  have hkey := (hwf.vma key vma hget).key
  have hwf' := splitVmaAt_wf hwf hstart
  have hcut := splitVmaAt_get (s := { s with mem := _ }) hwf' stop
    (splitVmaAt_get hwf start hget (by omega)) (by omega)
  have hallocations : ((s.mem.splitVmaAt start).splitVmaAt stop).allocations = s.mem.allocations := by
    obtain ⟨vmas, h⟩ := splitVmaAt_eq s.mem start
    obtain ⟨vmas', h'⟩ := splitVmaAt_eq (s.mem.splitVmaAt start) stop
    rw [h', h]
  have hnotin : key ∉ ((s.mem.splitVmaAt start).splitVmaAt stop).vmas.keysIn start stop := by
    intro hmem
    obtain ⟨_, h1, h2⟩ := SortedMap.mem_keysIn.mp hmem
    omega
  have hkept := removeKeys_get_some.mpr ⟨hcut, hnotin⟩
  refine ⟨hkept, ?_⟩
  obtain ⟨a, ha, _⟩ := (hwf.vma key vma hget).linked
  rw [ha]
  refine dropUnreferenced_get.mpr ⟨?_, key, vma, hkept, rfl⟩
  show ((s.mem.splitVmaAt start).splitVmaAt stop).allocations.get? _ = some a
  rw [hallocations]
  exact ha

theorem unmapRange_disjoint (hwf : Wf ctx s) (hstart : Aligned start) (hd : s.mem.Disjoint) :
    (s.mem.unmapRange start stop).Disjoint :=
  removeKeys_disjoint ((cutRange_neutral hwf hstart stop).disjoint hd) _

theorem unmapRange_shows (hwf : Wf ctx s) (hd : s.mem.Disjoint) (hstart : Aligned start)
    (hstop : Aligned stop) {x : Nat} {c : Cell} :
    Machine.Shows { s with mem := s.mem.unmapRange start stop } x c ↔
      s.Shows x c ∧ ¬ (start ≤ x ∧ x < stop) := by
  obtain ⟨hcut, hcut'⟩ := cutRange_cut hwf hd hstart stop
  have hwf' := cutRange_wf hwf hstart hstop
  rw [← (cutRange_neutral hwf hstart stop).shows x c,
    Machine.shows_iff (s := { s with mem := (s.mem.splitVmaAt start).splitVmaAt stop })]
  refine (removeKeys_shows (s := { s with mem := (s.mem.splitVmaAt start).splitVmaAt stop })).trans ?_
  constructor
  · rintro ⟨key, vma, a, hget, hkey, hlow, hhigh, ha, hc⟩
    refine ⟨⟨key, vma, a, hget, hlow, hhigh, ha, hc⟩, fun hx => hkey ?_⟩
    have hstart' := (hwf'.vma key vma hget).key
    have := hcut key vma hget
    exact SortedMap.mem_keysIn.mpr ⟨⟨vma, hget⟩, by omega, by omega⟩
  · rintro ⟨⟨key, vma, a, hget, hlow, hhigh, ha, hc⟩, hx⟩
    refine ⟨key, vma, a, hget, fun hkey => hx ?_, hlow, hhigh, ha, hc⟩
    obtain ⟨_, hk1, hk2⟩ := SortedMap.mem_keysIn.mp hkey
    have hstart' := (hwf'.vma key vma hget).key
    have := hcut' key vma hget
    omega

end Unmap

/-! ### `coalesce_adjacent` -/

section Coalesce

variable {ctx : Context} {s : Machine}

structure Coalesced (s : Machine) (taken : List GuestVma) (merged : SortedMap Nat GuestVma) : Prop where
  wf : ∀ key w, merged.get? key = some w → VmaWf s key w
  sound : ∀ key w x, merged.get? key = some w → w.start ≤ x → x < w.stop → ∃ v ∈ taken, v.start ≤ x ∧
    x < v.stop ∧ v.protection = w.protection ∧ v.kind = w.kind ∧ v.allocationId = w.allocationId
  complete : ∀ v ∈ taken, ∀ x, v.start ≤ x → x < v.stop → ∃ key w, merged.get? key = some w ∧
    w.start ≤ x ∧ x < w.stop ∧ w.protection = v.protection ∧ w.kind = v.kind ∧
    w.allocationId = v.allocationId
  keys : ∀ key w, merged.get? key = some w → ∃ v ∈ taken, v.start = key

theorem canMerge_iff {left right : GuestVma} : canMerge left right = true ↔
    left.stop = right.start ∧ left.protection = right.protection ∧ left.kind = right.kind ∧
      left.allocationId = right.allocationId ∧
      left.allocationOffset + left.len = right.allocationOffset := by
  simp [canMerge, and_assoc]

theorem VmaWf.join {key key' : Nat} {previous vma : GuestVma} (hp : VmaWf s key previous)
    (hv : VmaWf s key' vma) (hmerge : canMerge previous vma = true) :
    VmaWf s key { previous with stop := vma.stop } := by
  obtain ⟨hstop, _, _, hid, _⟩ := canMerge_iff.mp hmerge
  obtain ⟨a, ha, hstart, _⟩ := hp.linked
  obtain ⟨a', ha', _, hend⟩ := hv.linked
  rw [← hid, ha] at ha'
  obtain rfl := Option.some.inj ha'
  have hne := hp.nonempty
  have hne' := hv.nonempty
  exact ⟨hp.key, by show previous.start < vma.stop; omega, hp.startAligned, hv.stopAligned, hp.low,
    hv.high, hv.bounded, hp.heap, a, ha, hstart, hend⟩

theorem coalesceStep_cases (merged : SortedMap Nat GuestVma) (vma : GuestVma) :
    (∃ key previous, merged.get? key = some previous ∧ canMerge previous vma = true ∧
      GuestMemory.coalesceStep merged vma = merged.insert key { previous with stop := vma.stop }) ∨
    GuestMemory.coalesceStep merged vma = merged.insert vma.start vma := by
  unfold GuestMemory.coalesceStep
  cases hlast : merged.last? with
  | none => exact .inr rfl
  | some e =>
      obtain ⟨key, previous⟩ := e
      by_cases hmerge : canMerge previous vma = true
      · exact .inl ⟨key, previous, (SortedMap.last?_eq_some_iff.mp hlast).1, hmerge, by simp [hmerge]⟩
      · exact .inr (by simp [hmerge])

theorem Coalesced.step {taken : List GuestVma} {merged : SortedMap Nat GuestVma} {vma : GuestVma}
    (h : Coalesced s taken merged) (hv : VmaWf s vma.start vma)
    (hnew : ∀ v ∈ taken, v.start ≠ vma.start) :
    Coalesced s (taken ++ [vma]) (GuestMemory.coalesceStep merged vma) := by
  obtain ⟨key, previous, hget, hmerge, hstep⟩ | hstep := coalesceStep_cases merged vma
  · have hp := h.wf key previous hget
    obtain ⟨hstop, hprot, hkind, hid, _⟩ := canMerge_iff.mp hmerge
    have hne := hp.nonempty
    have hne' := hv.nonempty
    rw [hstep]
    refine ⟨fun k w hw => ?_, fun k w x hw hlow hhigh => ?_, fun v hmem x hlow hhigh => ?_,
      fun k w hw => ?_⟩
    · rw [SortedMap.get?_insert] at hw
      split at hw
      · rename_i hk
        obtain rfl := Option.some.inj hw
        rw [hk]
        exact hp.join hv hmerge
      · exact h.wf k w hw
    · rw [SortedMap.get?_insert] at hw
      split at hw
      · obtain rfl := Option.some.inj hw
        change previous.start ≤ x at hlow
        change x < vma.stop at hhigh
        by_cases hx : x < previous.stop
        · obtain ⟨v, hmem, hrest⟩ := h.sound key previous x hget hlow hx
          exact ⟨v, List.mem_append_left _ hmem, hrest⟩
        · exact ⟨vma, by simp, by omega, hhigh, hprot.symm, hkind.symm, hid.symm⟩
      · obtain ⟨v, hmem, hrest⟩ := h.sound k w x hw hlow hhigh
        exact ⟨v, List.mem_append_left _ hmem, hrest⟩
    · rcases List.mem_append.mp hmem with hmem | hmem
      · obtain ⟨k, w, hw, hwlow, hwhigh, hrest⟩ := h.complete v hmem x hlow hhigh
        by_cases hk : k = key
        · subst hk
          obtain rfl := Option.some.inj (hget.symm.trans hw)
          refine ⟨k, { previous with stop := vma.stop }, by rw [SortedMap.get?_insert, if_pos rfl],
            hwlow, ?_, hrest⟩
          show x < vma.stop
          omega
        · exact ⟨k, w, by rw [SortedMap.get?_insert, if_neg hk]; exact hw, hwlow, hwhigh, hrest⟩
      · obtain rfl := List.mem_singleton.mp hmem
        refine ⟨key, { previous with stop := v.stop }, by rw [SortedMap.get?_insert, if_pos rfl], ?_,
          hhigh, hprot, hkind, hid⟩
        show previous.start ≤ x
        omega
    · rw [SortedMap.get?_insert] at hw
      have hold : ∃ w', merged.get? k = some w' := by
        split at hw
        · rename_i hk
          exact ⟨previous, hk ▸ hget⟩
        · exact ⟨w, hw⟩
      obtain ⟨w', hw'⟩ := hold
      obtain ⟨v, hmem, hstart⟩ := h.keys k w' hw'
      exact ⟨v, List.mem_append_left _ hmem, hstart⟩
  · rw [hstep]
    refine ⟨fun k w hw => ?_, fun k w x hw hlow hhigh => ?_, fun v hmem x hlow hhigh => ?_,
      fun k w hw => ?_⟩
    · rw [SortedMap.get?_insert] at hw
      split at hw
      · rename_i hk
        obtain rfl := Option.some.inj hw
        exact hk ▸ hv
      · exact h.wf k w hw
    · rw [SortedMap.get?_insert] at hw
      split at hw
      · obtain rfl := Option.some.inj hw
        exact ⟨vma, by simp, hlow, hhigh, rfl, rfl, rfl⟩
      · obtain ⟨v, hmem, hrest⟩ := h.sound k w x hw hlow hhigh
        exact ⟨v, List.mem_append_left _ hmem, hrest⟩
    · rcases List.mem_append.mp hmem with hmem | hmem
      · obtain ⟨k, w, hw, hrest⟩ := h.complete v hmem x hlow hhigh
        -- the key of an earlier VMA is not overwritten
        have hk : k ≠ vma.start := by
          obtain ⟨v', hv', hstart⟩ := h.keys k w hw
          exact hstart ▸ hnew v' hv'
        exact ⟨k, w, by rw [SortedMap.get?_insert, if_neg hk]; exact hw, hrest⟩
      · obtain rfl := List.mem_singleton.mp hmem
        exact ⟨v.start, v, by rw [SortedMap.get?_insert, if_pos rfl], hlow, hhigh, rfl, rfl, rfl⟩
    · rw [SortedMap.get?_insert] at hw
      split at hw
      · rename_i hk
        exact ⟨vma, by simp, hk.symm⟩
      · obtain ⟨v, hmem, hstart⟩ := h.keys k w hw
        exact ⟨v, List.mem_append_left _ hmem, hstart⟩

theorem coalesceStep_disjoint {taken : List GuestVma} {merged : SortedMap Nat GuestVma} {vma : GuestVma}
    (h : Coalesced s taken merged)
    (hout : ∀ v ∈ taken, ∀ x, v.start ≤ x → x < v.stop → ¬ (vma.start ≤ x ∧ x < vma.stop))
    (hd : GuestMemory.Disjoint { s.mem with vmas := merged }) :
    GuestMemory.Disjoint { s.mem with vmas := GuestMemory.coalesceStep merged vma } := by
  -- an address of the map lies in a VMA taken before, so not in this one
  have hold : ∀ key w x, merged.get? key = some w → w.start ≤ x → x < w.stop →
      ¬ (vma.start ≤ x ∧ x < vma.stop) := by
    intro key w x hw hlow hhigh
    obtain ⟨v, hmem, hvlow, hvhigh, _⟩ := h.sound key w x hw hlow hhigh
    exact hout v hmem x hvlow hvhigh
  obtain ⟨key, previous, hget, hmerge, hstep⟩ | hstep := coalesceStep_cases merged vma
  · obtain ⟨hstop, _⟩ := canMerge_iff.mp hmerge
    rw [hstep]
    have hpart : ∀ k w x, (merged.insert key { previous with stop := vma.stop }).get? k = some w →
        w.start ≤ x → x < w.stop → (merged.get? k = some w ∧ k ≠ key) ∨
          (k = key ∧ ((previous.start ≤ x ∧ x < previous.stop) ∨ (vma.start ≤ x ∧ x < vma.stop))) := by
      intro k w x hw hlow hhigh
      rw [SortedMap.get?_insert] at hw
      split at hw
      · obtain rfl := Option.some.inj hw
        change previous.start ≤ x at hlow
        change x < vma.stop at hhigh
        refine .inr ⟨by assumption, ?_⟩
        omega
      · exact .inl ⟨hw, by assumption⟩
    intro x k w k' w' hw hw' hlow hhigh hlow' hhigh'
    rcases hpart k w x hw hlow hhigh with ⟨hm, hk⟩ | ⟨rfl, hx⟩ <;>
      rcases hpart k' w' x hw' hlow' hhigh' with ⟨hm', hk'⟩ | ⟨rfl, hx'⟩
    · exact hd x k w k' w' hm hm' hlow hhigh hlow' hhigh'
    · rcases hx' with hx' | hx'
      · exact hd x k w k' previous hm hget hlow hhigh hx'.1 hx'.2
      · exact absurd hx' (hold k w x hm hlow hhigh)
    · rcases hx with hx | hx
      · exact hd x k previous k' w' hget hm' hx.1 hx.2 hlow' hhigh'
      · exact absurd hx (hold k' w' x hm' hlow' hhigh')
    · rfl
  · rw [hstep]
    intro x k w k' w' hw hw' hlow hhigh hlow' hhigh'
    change (merged.insert vma.start vma).get? k = some w at hw
    change (merged.insert vma.start vma).get? k' = some w' at hw'
    rw [SortedMap.get?_insert] at hw hw'
    split at hw <;> split at hw'
    · rename_i hk hk'
      rw [hk, hk']
    · obtain rfl := Option.some.inj hw
      exact absurd ⟨hlow, hhigh⟩ (hold k' w' x hw' hlow' hhigh')
    · obtain rfl := Option.some.inj hw'
      exact absurd ⟨hlow', hhigh'⟩ (hold k w x hw hlow hhigh)
    · exact hd x k w k' w' hw hw' hlow hhigh hlow' hhigh'

/-- The whole loop, from a map that has taken in a first part of the VMAs. -/
theorem coalesce_fold (hwf : Wf ctx s) (rest : List GuestVma) :
    ∀ taken merged, taken ++ rest = s.mem.vmas.values → Coalesced s taken merged →
      Coalesced s (taken ++ rest) (rest.foldl GuestMemory.coalesceStep merged) ∧
      (s.mem.Disjoint → GuestMemory.Disjoint { s.mem with vmas := merged } →
        GuestMemory.Disjoint { s.mem with vmas := rest.foldl GuestMemory.coalesceStep merged }) := by
  induction rest with
  | nil =>
      intro taken merged _ h
      rw [List.append_nil]
      exact ⟨h, fun _ hd => hd⟩
  | cons vma rest ih =>
      intro taken merged hsplit h
      have hstart : ∀ v ∈ s.mem.vmas.values, s.mem.vmas.get? v.start = some v := by
        intro v hmem
        obtain ⟨key, hget⟩ := SortedMap.mem_values.mp hmem
        exact (hwf.vma key v hget).key ▸ hget
      have hmem : vma ∈ s.mem.vmas.values := hsplit ▸ by simp
      have htaken : ∀ v ∈ taken, v ∈ s.mem.vmas.values := fun v hv => hsplit ▸ List.mem_append_left _ hv
      -- the VMAs come in the order of their keys, which are their starts
      have hsorted : (s.mem.vmas.values.map GuestVma.start).Pairwise (· < ·) := by
        have hkeys : s.mem.vmas.values.map GuestVma.start = s.mem.vmas.keys := by
          unfold SortedMap.values SortedMap.keys
          rw [List.map_map]
          refine List.map_congr_left fun e he => ?_
          exact (hwf.vma e.1 e.2 (SortedMap.get?_eq_some_iff.mpr he)).key.symm
        rw [hkeys]
        exact s.mem.vmas.keys_sorted
      have hnew : ∀ v ∈ taken, v.start ≠ vma.start := by
        rw [← hsplit, List.map_append, List.pairwise_append] at hsorted
        exact fun v hv => (hsorted.2.2 v.start (List.mem_map.mpr ⟨v, hv, rfl⟩) vma.start (by simp)).ne
      have hstep := h.step (hwf.vma _ _ (hstart vma hmem)) hnew
      obtain ⟨hco, hdisj⟩ := ih (taken ++ [vma]) _ (by simpa using hsplit) hstep
      rw [List.append_assoc, List.singleton_append] at hco
      refine ⟨hco, fun hd hdm => hdisj hd (coalesceStep_disjoint h (fun v hv x hlow hhigh hx => ?_) hdm)⟩
      exact hnew v hv (hd x v.start v vma.start vma (hstart v (htaken v hv)) (hstart vma hmem) hlow hhigh
        hx.1 hx.2)

theorem coalesceAdjacent_coalesced (hwf : Wf ctx s) :
    Coalesced s s.mem.vmas.values s.mem.coalesceAdjacent.vmas ∧
      (s.mem.Disjoint → s.mem.coalesceAdjacent.Disjoint) := by
  have hempty : Coalesced s [] .empty := ⟨by simp, by simp, by simp, by simp⟩
  obtain ⟨hco, hd⟩ := coalesce_fold hwf s.mem.vmas.values [] .empty rfl hempty
  refine ⟨hco, fun hdisj => hd hdisj ?_⟩
  intro x k v k' v' hv
  exact absurd hv (by simp)

theorem coalesceAdjacent_wf (hwf : Wf ctx s) : Wf ctx { s with mem := s.mem.coalesceAdjacent } :=
  hwf.withVmas (coalesceAdjacent_coalesced hwf).1.wf

theorem coalesceAdjacent_neutral (hwf : Wf ctx s) :
    Neutral s { s with mem := s.mem.coalesceAdjacent } := by
  obtain ⟨hco, hd⟩ := coalesceAdjacent_coalesced hwf
  refine neutral_withVmas (fun x protection kind id => ⟨?_, ?_⟩) hd
  · rintro ⟨key, w, hw, hlow, hhigh, hprot, hkind, hid⟩
    obtain ⟨v, hmem, hvlow, hvhigh, h1, h2, h3⟩ := hco.sound key w x hw hlow hhigh
    obtain ⟨key', hget⟩ := SortedMap.mem_values.mp hmem
    exact ⟨key', v, hget, hvlow, hvhigh, h1.trans hprot, h2.trans hkind, h3.trans hid⟩
  · rintro ⟨key, v, hget, hlow, hhigh, hprot, hkind, hid⟩
    obtain ⟨k, w, hw, hwlow, hwhigh, h1, h2, h3⟩ :=
      hco.complete v (SortedMap.mem_values.mpr ⟨key, hget⟩) x hlow hhigh
    exact ⟨k, w, hw, hwlow, hwhigh, h1.trans hprot, h2.trans hkind, h3.trans hid⟩

end Coalesce

/-! ### New protections -/

section Protections

variable {ctx : Context} {s : Machine} {protection : GuestMemoryProtection}

theorem setProtections_get {memory : GuestMemory} {keys : List Nat} {key : Nat} {vma : GuestVma} :
    (memory.setProtections keys protection).vmas.get? key = some vma ↔
      ∃ v, memory.vmas.get? key = some v ∧ vma = if key ∈ keys then { v with protection } else v := by
  unfold GuestMemory.setProtections
  rw [SortedMap.get?_mapValues, Option.map_eq_some_iff]
  simp only [eq_comm]

theorem setProtections_wf (hwf : Wf ctx s) (keys : List Nat) :
    Wf ctx { s with mem := s.mem.setProtections keys protection } := by
  refine hwf.withVmas fun key vma hget => ?_
  obtain ⟨v, hv, rfl⟩ := setProtections_get.mp hget
  have h := hwf.vma key v hv
  split
  · exact ⟨h.key, h.nonempty, h.startAligned, h.stopAligned, h.low, h.high, h.bounded, h.heap, h.linked⟩
  · exact h

theorem setProtections_disjoint {memory : GuestMemory} (hd : memory.Disjoint) (keys : List Nat) :
    (memory.setProtections keys protection).Disjoint := by
  intro x k v k' v' hv hv' hlow hhigh hlow' hhigh'
  obtain ⟨w, hw, rfl⟩ := setProtections_get.mp hv
  obtain ⟨w', hw', rfl⟩ := setProtections_get.mp hv'
  refine hd x k w k' w' hw hw' ?_ ?_ ?_ ?_
  · split at hlow <;> exact hlow
  · split at hhigh <;> exact hhigh
  · split at hlow' <;> exact hlow'
  · split at hhigh' <;> exact hhigh'

/-- On a table cut at both ends, exactly the addresses of the range get the new protection. -/
theorem setProtections_shows (hwf : Wf ctx s) {start stop : Nat} (hcut : s.mem.Cut start)
    (hcut' : s.mem.Cut stop) {x : Nat} {c : Cell} :
    Machine.Shows { s with mem := s.mem.setProtections (s.mem.vmas.keysIn start stop) protection } x c ↔
      ∃ c₀, s.Shows x c₀ ∧ c = if start ≤ x ∧ x < stop then { c₀ with protection } else c₀ := by
  -- a VMA is in the range when one of its addresses is
  have hrange : ∀ key v, s.mem.vmas.get? key = some v → v.start ≤ x → x < v.stop →
      (key ∈ s.mem.vmas.keysIn start stop ↔ start ≤ x ∧ x < stop) := by
    intro key v hv hlow hhigh
    have hkey := (hwf.vma key v hv).key
    have h1 := hcut key v hv
    have h2 := hcut' key v hv
    rw [SortedMap.mem_keysIn]
    constructor
    · rintro ⟨_, h3, h4⟩
      omega
    · intro hx
      exact ⟨⟨v, hv⟩, by omega, by omega⟩
  simp only [Machine.shows_iff]
  constructor
  · rintro ⟨key, vma, a, hget, hlow, hhigh, ha, rfl⟩
    obtain ⟨v, hv, rfl⟩ := setProtections_get.mp hget
    have hiff := hrange key v hv
    split at hlow
    · rename_i hin
      simp only [hin, if_true] at hhigh ha
      refine ⟨_, ⟨key, v, a, hv, hlow, hhigh, ha, rfl⟩, ?_⟩
      rw [if_pos ((hiff hlow hhigh).mp hin), if_pos hin]
    · rename_i hin
      simp only [hin, if_false] at hhigh ha
      refine ⟨_, ⟨key, v, a, hv, hlow, hhigh, ha, rfl⟩, ?_⟩
      rw [if_neg (fun h => hin ((hiff hlow hhigh).mpr h)), if_neg hin]
  · rintro ⟨c₀, ⟨key, v, a, hv, hlow, hhigh, ha, rfl⟩, rfl⟩
    have hiff := hrange key v hv hlow hhigh
    refine ⟨key, _, a, setProtections_get.mpr ⟨v, hv, rfl⟩, ?_, ?_, ?_, ?_⟩
    · split <;> exact hlow
    · split <;> exact hhigh
    · split <;> exact ha
    · by_cases hin : key ∈ s.mem.vmas.keysIn start stop
      · rw [if_pos (hiff.mp hin), if_pos hin]
      · rw [if_neg (fun h => hin (hiff.mpr h)), if_neg hin]

end Protections

end Mcr.Memory
