import Mcr.Task.Indexes

/-!
# What a round of resumed waits reaps

`resume_waiting_tasks` makes the blocked waits one after the other, and each one changes what the next may find.
The outcome can be told from the kernel before the round: every wait claims the lowest exited child that its
selector matches and that no earlier wait of the round has claimed.
-/

namespace Mcr.Task

namespace GuestKernel

variable {k k' : GuestKernel} {reaped : List GuestPid}

def remaining (k : GuestKernel) (reaped : List GuestPid) (parentPid : GuestPid) (selector : Int) : List GuestPid :=
  match k.process parentPid with
  | none => []
  | some parent =>
    parent.children.toList.filter fun child => k.childMatches parent child selector && decide (child ∉ reaped)

def claimed (k : GuestKernel) (reaped : List GuestPid) (parentPid : GuestPid) (args : Wait4SyscallArgs) :
    Option GuestPid :=
  if args.hasUnsupportedOptions = true ∨ parentPid ∈ reaped then none
  else (k.remaining reaped parentPid args.pid).find? k.hasExited

def claims (k : GuestKernel) : List (GuestTid × GuestPid × Wait4SyscallArgs) → List GuestPid → List GuestPid
  | [], reaped => reaped
  | (_, parentPid, args) :: rest, reaped => claims k rest ((k.claimed reaped parentPid args).toList ++ reaped)

/-- The children an entry reaps. -/
def reapedBy (k : GuestKernel) : KernelOp → List GuestPid
  | .wait4Child parentPid args => (k.claimed [] parentPid args).toList
  | .wait4Current tid args _ =>
    match k.task tid with
    | some task => (k.claimed [] task.pid args).toList
    | none => []
  | .resumeWaitingTasks => k.claims k.waitingTasks []
  | _ => []

theorem mem_remaining {parentPid childPid : GuestPid} {selector : Int} :
    childPid ∈ k.remaining reaped parentPid selector ↔
      (∃ parent, k.process parentPid = some parent ∧ childPid ∈ parent.children ∧
        k.childMatches parent childPid selector = true) ∧ childPid ∉ reaped := by
  unfold remaining
  cases k.process parentPid with
  | none => simp
  | some parent => simp [and_assoc]

theorem mem_of_claimed {parentPid childPid : GuestPid} {args : Wait4SyscallArgs}
    (h : k.claimed reaped parentPid args = some childPid) :
    parentPid ∉ reaped ∧ childPid ∈ k.remaining reaped parentPid args.pid := by
  unfold claimed at h
  split at h
  · exact nomatch h
  · exact ⟨(not_or.mp ‹_›).2, List.mem_of_find?_eq_some h⟩

theorem subset_claims (waiting : List (GuestTid × GuestPid × Wait4SyscallArgs)) (reaped : List GuestPid) :
    reaped ⊆ k.claims waiting reaped := by
  induction waiting generalizing reaped with
  | nil => exact List.Subset.refl reaped
  | cons waiter rest ih => exact List.Subset.trans (List.subset_append_right _ _) (ih _)

structure AfterReaping (k : GuestKernel) (reaped : List GuestPid) (k' : GuestKernel) : Prop where
  gone : ∀ pid ∈ reaped, k'.process pid = none
  kept : ∀ pid ∉ reaped, ∀ process, k.process pid = some process →
    ∃ children, k'.process pid = some { process with children := children } ∧
      (∀ c ∈ children, c ∈ process.children) ∧ ∀ c ∈ process.children, c ∈ children ∨ c ∈ reaped
  old : ∀ pid process, k'.process pid = some process → ∃ process, k.process pid = some process

theorem AfterReaping.refl (k : GuestKernel) : AfterReaping k [] k where
  gone := nofun
  kept := fun _ _ process hprocess => ⟨process.children, hprocess, fun _ => id, fun _ => Or.inl⟩
  old := fun _ process hprocess => ⟨process, hprocess⟩

theorem AfterReaping.of_process (h : AfterReaping k reaped k') {k'' : GuestKernel}
    (hprocess : ∀ pid, k''.process pid = k'.process pid) : AfterReaping k reaped k'' where
  gone pid hpid := (hprocess pid).trans (h.gone pid hpid)
  kept pid hpid process hget := by
    rw [hprocess]
    exact h.kept pid hpid process hget
  old pid process hget := h.old pid process (hprocess pid ▸ hget)

namespace AfterReaping

variable {parentPid : GuestPid} {selector : Int}

theorem matchingChildren (h : AfterReaping k reaped k') (hparent : parentPid ∉ reaped) {parent : GuestProcess}
    (hget : k.process parentPid = some parent) (selector : Int) :
    k'.matchingChildren parentPid selector = .ok (k.remaining reaped parentPid selector) := by
  obtain ⟨children, hget', hsub, hsup⟩ := h.kept parentPid hparent parent hget
  rw [GuestKernel.matchingChildren, hget', remaining, hget]
  refine congrArg Except.ok (List.Pairwise.eq_of_mem_iff (r := (· < ·)) (children.toList_sorted.filter _)
    (parent.children.toList_sorted.filter _) fun c => ?_)
  simp only [List.mem_filter, SortedSet.mem_toList, Bool.and_eq_true, decide_eq_true_eq]
  by_cases hc : c ∈ reaped
  · simp [childMatches, h.gone c hc, hc]
  · have hmatches : k'.childMatches { parent with children := children } c selector =
        k.childMatches parent c selector := by
      unfold childMatches
      cases hchild : k.process c with
      | none =>
          cases hchild' : k'.process c with
          | none => rfl
          | some child =>
              obtain ⟨old, hold⟩ := h.old c child hchild'
              rw [hchild] at hold
              cases hold
      | some child =>
          obtain ⟨grandchildren, hchild', -⟩ := h.kept c hc child hchild
          rw [hchild']
    rw [hmatches]
    exact ⟨fun h => ⟨hsub c h.1, h.2, hc⟩, fun h => ⟨(hsup c h.1).resolve_right hc, h.2.1⟩⟩

theorem hasExited (h : AfterReaping k reaped k') {pid : GuestPid} (hpid : pid ∉ reaped) :
    k'.hasExited pid = k.hasExited pid := by
  unfold GuestKernel.hasExited
  cases hget : k.process pid with
  | none =>
      cases hget' : k'.process pid with
      | none => rfl
      | some process =>
          obtain ⟨old, hold⟩ := h.old pid process hget'
          rw [hget] at hold
          exact nomatch hold
  | some process =>
      obtain ⟨children, hget', -⟩ := h.kept pid hpid process hget
      rw [hget']

theorem exitedWaitableChild (h : AfterReaping k reaped k') (hparent : parentPid ∉ reaped) {parent : GuestProcess}
    (hget : k.process parentPid = some parent) (selector : Int) :
    k'.exitedWaitableChild parentPid selector =
      .ok ((k.remaining reaped parentPid selector).find? k.hasExited) := by
  rw [GuestKernel.exitedWaitableChild, h.matchingChildren hparent hget]
  refine congrArg Except.ok ?_
  have hremaining : ∀ c ∈ k.remaining reaped parentPid selector, k'.hasExited c = k.hasExited c := fun c hc =>
    h.hasExited (mem_remaining.mp hc).2
  generalize k.remaining reaped parentPid selector = children at hremaining
  induction children with
  | nil => rfl
  | cons c rest ih =>
      rw [List.find?_cons, List.find?_cons, hremaining c List.mem_cons_self,
        ih fun c hc => hremaining c (List.mem_cons_of_mem _ hc)]

end AfterReaping

theorem mem_of_exitedWaitableChild {parentPid childPid : GuestPid} {selector : Int}
    (h : k.exitedWaitableChild parentPid selector = .ok (some childPid)) :
    ∃ parent, k.process parentPid = some parent ∧ childPid ∈ parent.children ∧
      k.childMatches parent childPid selector = true ∧ k.hasExited childPid = true := by
  unfold exitedWaitableChild matchingChildren at h
  cases hparent : k.process parentPid with
  | none =>
      rw [hparent] at h
      exact nomatch h
  | some parent =>
      rw [hparent] at h
      have hfind := Option.some.inj (Except.ok.inj h ▸ rfl :
        some ((parent.children.toList.filter fun child => k.childMatches parent child selector).find? k.hasExited) =
          some (some childPid))
      have hmem := List.mem_filter.mp (List.mem_of_find?_eq_some hfind)
      exact ⟨parent, rfl, SortedSet.mem_toList.mp hmem.1, hmem.2, List.find?_some hfind⟩

namespace AfterReaping

variable {parentPid childPid : GuestPid} {args : Wait4SyscallArgs}

theorem reap (h : AfterReaping k reaped k') (hparent : parentPid ∉ reaped) (hne : childPid ≠ parentPid) :
    AfterReaping k (childPid :: reaped) ((k'.withoutProcess childPid).modifyProcess parentPid fun parent =>
      { parent with children := parent.children.erase childPid }) := by
  have hlook : ∀ j, ((k'.withoutProcess childPid).modifyProcess parentPid fun parent =>
      { parent with children := parent.children.erase childPid }).process j =
      if j = parentPid then (k'.process parentPid).map fun parent =>
        { parent with children := parent.children.erase childPid }
      else if j = childPid then none else k'.process j := by
    intro j
    rw [process_modifyProcess, process_withoutProcess, process_withoutProcess, if_neg (Ne.symm hne)]
  refine ⟨fun pid hpid => ?_, fun pid hpid process hget => ?_, fun pid process hget => ?_⟩
  · rw [hlook]
    rcases List.mem_cons.mp hpid with rfl | hpid
    · rw [if_neg hne, if_pos rfl]
    · rw [if_neg (ne_of_mem_of_not_mem hpid hparent), h.gone pid hpid]
      split <;> rfl
  · obtain ⟨hpc, hpid⟩ := not_or.mp (fun hor => hpid (List.mem_cons.mpr hor))
    obtain ⟨children, hget', hsub, hsup⟩ := h.kept pid hpid process hget
    rw [hlook]
    by_cases hpp : pid = parentPid
    · subst hpp
      refine ⟨children.erase childPid, by rw [if_pos rfl, hget', Option.map_some], fun c hc => ?_, fun c hc => ?_⟩
      · exact hsub c (SortedSet.mem_erase.mp hc).2
      · by_cases hcc : c = childPid
        · exact Or.inr (List.mem_cons.mpr (Or.inl hcc))
        · exact (hsup c hc).imp (fun hmem => SortedSet.mem_erase.mpr ⟨hcc, hmem⟩) (List.mem_cons_of_mem _)
    · refine ⟨children, by rw [if_neg hpp, if_neg hpc, hget'], hsub, fun c hc => ?_⟩
      exact (hsup c hc).imp id (List.mem_cons_of_mem _)
  · rw [hlook] at hget
    split at hget
    · rename_i hpp
      obtain ⟨old, hold, -⟩ := Option.map_eq_some_iff.mp hget
      exact hpp ▸ h.old parentPid old hold
    · split at hget
      · exact nomatch hget
      · exact h.old pid process hget

theorem wait4Child (h : AfterReaping k reaped k') (hk : Irreflexive k) (parentPid : GuestPid)
    (args : Wait4SyscallArgs) :
    (k.claimed reaped parentPid args = none ∧ (k'.wait4Child parentPid args).2 = k' ∧
        ∀ waited, (k'.wait4Child parentPid args).1 ≠ .ok (some waited)) ∨
      ∃ childPid child status, k.claimed reaped parentPid args = some childPid ∧
        k'.process childPid = some child ∧ child.exitState = .exited status ∧
        k'.wait4Child parentPid args = (.ok (some ⟨childPid, status⟩),
          (k'.withoutProcess childPid).modifyProcess parentPid fun parent =>
            { parent with children := parent.children.erase childPid }) ∧
        AfterReaping k (childPid :: reaped) (k'.wait4Child parentPid args).2 := by
  have hfound : ∀ {parent : GuestProcess}, k.process parentPid = some parent → parentPid ∉ reaped →
      args.hasUnsupportedOptions = false →
        k'.exitedWaitableChild parentPid args.pid = .ok (k.claimed reaped parentPid args) := by
    intro parent hget hparent hoptions
    rw [h.exitedWaitableChild hparent hget, claimed, if_neg (by simp [hoptions, hparent])]
  rcases wait4Child_cases k' parentPid args with ⟨r, hwait, hnone, -, hmissed⟩ | ⟨childPid, hoptions, hexited, hwait⟩
  · refine Or.inl ⟨?_, by rw [hwait], by rw [hwait]; exact hnone⟩
    cases hclaimed : k.claimed reaped parentPid args with
    | none => rfl
    | some childPid =>
        unfold claimed at hclaimed
        split at hclaimed
        · exact nomatch hclaimed
        · rename_i hdoes
          obtain ⟨hoptions, hparent⟩ := not_or.mp hdoes
          obtain ⟨⟨parent, hget, -⟩, -⟩ := mem_remaining.mp (List.mem_of_find?_eq_some hclaimed)
          refine absurd (hfound hget hparent (by simpa using hoptions)) ?_
          rw [claimed, if_neg hdoes, hclaimed]
          exact hmissed (by simpa using hoptions) childPid
  · obtain ⟨parent', hget', -⟩ := mem_of_exitedWaitableChild hexited
    have hparent : parentPid ∉ reaped := fun hmem => nomatch (h.gone parentPid hmem).symm.trans hget'
    obtain ⟨parent, hget⟩ := h.old parentPid parent' hget'
    have hclaimed : k.claimed reaped parentPid args = some childPid :=
      Except.ok.inj ((hfound hget hparent hoptions).symm.trans hexited)
    have hmem : childPid ∈ k.remaining reaped parentPid args.pid := by
      rw [claimed, if_neg (by simp [hoptions, hparent])] at hclaimed
      exact List.mem_of_find?_eq_some hclaimed
    have hne : childPid ≠ parentPid := by
      obtain ⟨⟨p, hp, hchild, -⟩, -⟩ := mem_remaining.mp hmem
      exact fun heq => hk parentPid p hp (heq ▸ hchild)
    rcases reapChild_cases k' parentPid childPid with
      ⟨hrunning, -⟩ | ⟨child, status, hchild, hstatus, ⟨hgone, -⟩ | hreap⟩
    · exact absurd (mem_of_exitedWaitableChild hexited).choose_spec.2.2.2 (by rw [hrunning]; exact Bool.false_ne_true)
    · rcases hgone with heq | hnone
      · exact absurd heq.symm hne
      · exact nomatch hget'.symm.trans hnone
    · rw [hreap] at hwait
      refine Or.inr ⟨childPid, child, status, hclaimed, hchild, hstatus, hwait, ?_⟩
      rw [hwait]
      exact h.reap hparent hne

theorem resumeWaitingTask (h : AfterReaping k reaped k') (hk : Irreflexive k) (tid : GuestTid) (parentPid : GuestPid)
    (args : Wait4SyscallArgs) :
    AfterReaping k ((k.claimed reaped parentPid args).toList ++ reaped)
      (k'.resumeWaitingTask tid parentPid args).2 := by
  unfold GuestKernel.resumeWaitingTask
  rcases h.wait4Child hk parentPid args with
    ⟨hclaimed, hkept, hnone⟩ | ⟨childPid, child, status, hclaimed, -, -, hwait, hreaped⟩
  · rw [hclaimed]
    generalize k'.wait4Child parentPid args = result at hkept hnone
    obtain ⟨_ | _ | waited, k₁⟩ := result
    · exact hkept ▸ h
    · exact hkept ▸ h
    · exact absurd rfl (hnone waited)
  · rw [hwait] at hreaped ⊢
    rw [hclaimed]
    exact hreaped.of_process fun pid => by rw [process_setTaskState, process_modifyTask]

theorem resumeEach (waiting : List (GuestTid × GuestPid × Wait4SyscallArgs)) (h : AfterReaping k reaped k')
    (hk : Irreflexive k) : AfterReaping k (k.claims waiting reaped) (resumeEach waiting k').2 := by
  induction waiting generalizing reaped k' with
  | nil => exact h
  | cons waiter rest ih =>
      obtain ⟨tid, parentPid, args⟩ := waiter
      exact ih (h.resumeWaitingTask hk tid parentPid args)

end AfterReaping

end GuestKernel

end Mcr.Task
