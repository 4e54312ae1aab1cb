import Mcr.Vfs.Resolve

/-!
# The jail of the root

Resolution is a loop over the components still to pass; a followed link adds the components of its
target. `iteration` is one round of that loop as the source writes it. It is shown to end, with the result
of `walk`, because a round either passes a component or uses up a link; and no round leaves the guest
root.
-/

namespace Mcr.Vfs

namespace PathResolver

/-- What the loop of `walk` keeps from round to round. -/
structure WalkState where
  current : GuestPath
  pending : List String
  symlinkCount : Nat

/-- The check that ends a round. -/
def jailed (resolver : PathResolver) (state : WalkState) : WalkState ⊕ Except VfsError GuestPath :=
  match resolver.enforceJail state.current with
  | .ok () => .inl state
  | .error error => .inr (.error error)

/-- One round of the loop: the state of the next one, or what the function returns. -/
def iteration (resolver : PathResolver) (state : WalkState) : WalkState ⊕ Except VfsError GuestPath :=
  match state.pending with
  | [] => .inr (.ok state.current)
  | component :: pending =>
    if component = "" ∨ component = "." then resolver.jailed { state with pending := pending }
    else if component = ".." then
      resolver.jailed
        { state with
          current :=
            if resolver.rootfs.root.length < state.current.length then state.current.dropLast
            else state.current
          pending := pending }
    else
      let nextPath := state.current.joinComponent component
      match resolver.enforceJail nextPath with
      | .error error => .inr (.error error)
      | .ok () =>
        match resolver.tree.lookupSymlinkPlaceholder nextPath with
        | some link =>
          if !resolver.followFinalSymlink && pending.isEmpty then
            .inl { state with current := nextPath, pending := pending }
          else if symlinkLimit < state.symlinkCount + 1 then .inr (.error .loop)
          else
            let current :=
              if link.target.toList.head? = some '/' then resolver.rootfs.root else link.parent
            match splitGuestComponents link.target with
            | .error error => .inr (.error error)
            | .ok components =>
              resolver.jailed ⟨current, components ++ pending, state.symlinkCount + 1⟩
        | none =>
          match resolver.tree.lookupPath nextPath with
          | some node =>
            if !node.isDirectory && !pending.isEmpty then .inr (.error .notDirectory)
            else .inl { state with current := nextPath, pending := pending }
          | none =>
            if resolver.allowMissingLeaf nextPath pending then .inr (.ok nextPath)
            else .inr (.error .noEntry)

/-- The loop gets from one state to another. -/
def Reaches (resolver : PathResolver) : WalkState → WalkState → Prop :=
  Relation.ReflTransGen fun state next => resolver.iteration state = .inl next

/-- The loop, started in a state, ends and returns a result. -/
def Returns (resolver : PathResolver) (state : WalkState) (result : Except VfsError GuestPath) : Prop :=
  ∃ last, resolver.Reaches state last ∧ resolver.iteration last = .inr result

/-- The walk comes to `count` links in a row that it follows, without regard to the limit. -/
def MeetsLinks (resolver : PathResolver) : Nat → GuestPath → List String → Prop
  | 0, _, _ => True
  | count + 1, current, pending =>
    ∃ link rest, resolver.walkToLink current pending = .ok (.atLink link rest) ∧
      (count = 0 ∨ ∃ next, resolver.expandLink link rest = .ok next ∧
        resolver.MeetsLinks count next.1 next.2)

variable {resolver : PathResolver}

theorem enforceJail_eq_ok {path : GuestPath} {u : Unit} :
    resolver.enforceJail path = .ok u ↔ resolver.rootfs.root <+: path := by
  rw [enforceJail, failIf_eq_ok, Bool.not_eq_false, GuestPath.startsWith_iff]

theorem Returns.step {state next : WalkState} {result : Except VfsError GuestPath}
    (hstep : resolver.iteration state = .inl next) (hnext : resolver.Returns next result) :
    resolver.Returns state result := by
  obtain ⟨last, hreach, hlast⟩ := hnext
  exact ⟨last, hreach.head hstep, hlast⟩

def AtLink (resolver : PathResolver) (state : WalkState) (link : SymlinkPlaceholder) (rest : List String) :
    Prop :=
  resolver.iteration state =
    if symlinkLimit < state.symlinkCount + 1 then .inr (.error .loop)
    else match resolver.expandLink link rest with
      | .ok next => .inl ⟨next.1, next.2, state.symlinkCount + 1⟩
      | .error error => .inr (.error error)

/-- The loop does from `state` on what `stop` says. -/
def Agrees (resolver : PathResolver) (state : WalkState) : Except VfsError Stop → Prop
  | .error error => resolver.Returns state (.error error)
  | .ok (.finished path) => resolver.Returns state (.ok path)
  | .ok (.atLink link rest) => ∃ at_, resolver.Reaches state at_ ∧
      at_.symlinkCount = state.symlinkCount ∧ resolver.AtLink at_ link rest

theorem Agrees.step {state next : WalkState} {stop : Except VfsError Stop}
    (hstep : resolver.iteration state = .inl next) (hcount : next.symlinkCount = state.symlinkCount)
    (hnext : resolver.Agrees next stop) : resolver.Agrees state stop := by
  match stop, hnext with
  | .error _, hnext => exact Returns.step hstep hnext
  | .ok (.finished _), hnext => exact Returns.step hstep hnext
  | .ok (.atLink _ _), ⟨at_, hreach, hat, hlink⟩ =>
      exact ⟨at_, hreach.head hstep, hat.trans hcount, hlink⟩

theorem Agrees.of_return {state : WalkState} {result : Except VfsError GuestPath}
    (hreturn : resolver.iteration state = .inr result) :
    resolver.Agrees state (result.map .finished) := by
  cases result <;> exact ⟨state, .refl, hreturn⟩

theorem Agrees.jailed_step {state next : WalkState}
    (hround : resolver.iteration state = resolver.jailed next)
    (hcount : next.symlinkCount = state.symlinkCount)
    (hnext : resolver.Agrees next (resolver.walkToLink next.current next.pending)) :
    resolver.Agrees state
      (do resolver.enforceJail next.current; resolver.walkToLink next.current next.pending) := by
  unfold jailed at hround
  cases hjail : resolver.enforceJail next.current with
  | ok u =>
      rw [hjail] at hround
      exact hnext.step hround hcount
  | error error =>
      rw [hjail] at hround
      exact Agrees.of_return hround

variable (resolver) in
/-- What the loop does up to the next link it follows is what `walkToLink` says. -/
theorem walkToLink_agrees (pending : List String) (current : GuestPath) (count : Nat) :
    resolver.Agrees ⟨current, pending, count⟩ (resolver.walkToLink current pending) := by
  induction pending generalizing current with
  | nil => exact Agrees.of_return (show resolver.iteration _ = .inr (.ok current) from rfl)
  | cons component pending ih =>
      rw [walkToLink]
      have hround := iteration.eq_def resolver ⟨current, component :: pending, count⟩
      by_cases hdot : component = "" ∨ component = "."
      · simp only [if_pos hdot] at hround ⊢
        exact Agrees.jailed_step hround rfl (ih _)
      by_cases hup : component = ".."
      · simp only [if_neg hdot, if_pos hup] at hround ⊢
        exact Agrees.jailed_step hround rfl (ih _)
      simp only [if_neg hdot, if_neg hup] at hround ⊢
      cases hjail : resolver.enforceJail (current.joinComponent component) with
      | error error =>
          rw [hjail] at hround
          exact Agrees.of_return hround
      | ok u =>
          rw [hjail] at hround
          rw [Prog.except_ok_bind]
          cases hlink : resolver.tree.lookupSymlinkPlaceholder (current.joinComponent component) with
          | some link =>
              simp only [hlink] at hround ⊢
              by_cases hlast : (!resolver.followFinalSymlink && pending.isEmpty) = true
              · rw [if_pos hlast] at hround ⊢
                exact (ih _).step hround rfl
              · rw [if_neg hlast] at hround ⊢
                refine ⟨_, .refl, rfl, ?_⟩
                rw [AtLink, hround]
                by_cases hlimit : symlinkLimit < count + 1
                · simp only [if_pos hlimit]
                · simp only [if_neg hlimit, expandLink]
                  cases splitGuestComponents link.target with
                  | error error => rfl
                  | ok components =>
                      simp only [Prog.except_ok_bind, jailed]
                      split
                      · rename_i hok
                        rw [hok]
                        rfl
                      · rename_i herror
                        rw [herror]
                        rfl
          | none =>
              simp only [hlink] at hround ⊢
              cases hnode : resolver.tree.lookupPath (current.joinComponent component) with
              | some node =>
                  simp only [hnode] at hround ⊢
                  by_cases hleaf : (!node.isDirectory && !pending.isEmpty) = true
                  · rw [if_pos hleaf] at hround ⊢
                    exact Agrees.of_return hround
                  · rw [if_neg hleaf] at hround ⊢
                    exact (ih _).step hround rfl
              | none =>
                  simp only [hnode] at hround ⊢
                  by_cases hmissing :
                      resolver.allowMissingLeaf (current.joinComponent component) pending = true
                  · rw [if_pos hmissing] at hround ⊢
                    exact Agrees.of_return hround
                  · rw [if_neg hmissing] at hround ⊢
                    exact Agrees.of_return hround

/-- The loop ends with the result of `walk`: the links left are the limit less those followed. -/
theorem walk_returns (links count : Nat) (hcount : links + count = symlinkLimit) (current : GuestPath)
    (pending : List String) :
    resolver.Returns ⟨current, pending, count⟩ (resolver.walk links current pending) := by
  induction links generalizing count current pending with
  | zero =>
      rw [walk]
      have hagrees := walkToLink_agrees resolver pending current count
      cases hstop : resolver.walkToLink current pending with
      | error error => rw [hstop] at hagrees; exact hagrees
      | ok stop =>
          rw [hstop] at hagrees
          cases stop with
          | finished path => exact hagrees
          | atLink link rest =>
              obtain ⟨at_, hreach, hat, hlink⟩ := hagrees
              rw [AtLink, if_pos (by rw [hat]; show symlinkLimit < count + 1; omega)] at hlink
              exact ⟨at_, hreach, hlink⟩
  | succ links ih =>
      rw [walk]
      have hagrees := walkToLink_agrees resolver pending current count
      cases hstop : resolver.walkToLink current pending with
      | error error => rw [hstop] at hagrees; exact hagrees
      | ok stop =>
          rw [hstop] at hagrees
          cases stop with
          | finished path => exact hagrees
          | atLink link rest =>
              obtain ⟨at_, hreach, hat, hlink⟩ := hagrees
              rw [AtLink, if_neg (by rw [hat]; show ¬ symlinkLimit < count + 1; omega)] at hlink
              simp only [Prog.except_ok_bind]
              cases hnext : resolver.expandLink link rest with
              | error error =>
                  rw [hnext] at hlink
                  exact ⟨at_, hreach, hlink⟩
              | ok next =>
                  rw [hnext] at hlink
                  simp only [hat] at hlink
                  obtain ⟨last, hlast, hresult⟩ := ih (count + 1) (by omega) next.1 next.2
                  exact ⟨last, hreach.trans (hlast.head hlink), hresult⟩

/-! ### What the walk may return -/

theorem walkToLink_jailed (pending : List String) (current : GuestPath) {path : GuestPath}
    (hcurrent : resolver.rootfs.root <+: current)
    (hstop : resolver.walkToLink current pending = .ok (.finished path)) :
    resolver.rootfs.root <+: path := by
  induction pending generalizing current with
  | nil =>
      simp only [walkToLink, Except.ok.injEq, Stop.finished.injEq] at hstop
      exact hstop ▸ hcurrent
  | cons component pending ih =>
      rw [walkToLink] at hstop
      split at hstop
      · obtain ⟨_, hjail, hrest⟩ := Prog.except_bind_eq_ok.mp hstop
        exact ih _ (enforceJail_eq_ok.mp hjail) hrest
      · split at hstop
        · obtain ⟨_, hjail, hrest⟩ := Prog.except_bind_eq_ok.mp hstop
          exact ih _ (enforceJail_eq_ok.mp hjail) hrest
        · obtain ⟨_, hjail, hrest⟩ := Prog.except_bind_eq_ok.mp hstop
          have hnext := enforceJail_eq_ok.mp hjail
          split at hrest
          · split at hrest
            · exact ih _ hnext hrest
            · nomatch hrest
          · split at hrest
            · split at hrest
              · nomatch hrest
              · exact ih _ hnext hrest
            · split at hrest
              · simp only [Except.ok.injEq, Stop.finished.injEq] at hrest
                exact hrest ▸ hnext
              · nomatch hrest

theorem walk_jailed (links : Nat) {current path : GuestPath} {pending : List String}
    (hcurrent : resolver.rootfs.root <+: current)
    (hwalk : resolver.walk links current pending = .ok path) : resolver.rootfs.root <+: path := by
  induction links generalizing current pending with
  | zero =>
      rw [walk] at hwalk
      obtain ⟨stop, hstop, hrest⟩ := Prog.except_bind_eq_ok.mp hwalk
      cases stop with
      | finished p =>
          cases hrest
          exact walkToLink_jailed pending current hcurrent hstop
      | atLink link rest => nomatch hrest
  | succ links ih =>
      rw [walk] at hwalk
      obtain ⟨stop, hstop, hrest⟩ := Prog.except_bind_eq_ok.mp hwalk
      cases stop with
      | finished p =>
          cases hrest
          exact walkToLink_jailed pending current hcurrent hstop
      | atLink link rest =>
          obtain ⟨next, hnext, hlater⟩ := Prog.except_bind_eq_ok.mp hrest
          unfold expandLink at hnext
          obtain ⟨components, -, hrest⟩ := Prog.except_bind_eq_ok.mp hnext
          obtain ⟨_, hjail, heq⟩ := Prog.except_bind_eq_ok.mp hrest
          cases heq
          exact ih (enforceJail_eq_ok.mp hjail) hlater

theorem enforceJail_ne_loop (path : GuestPath) : resolver.enforceJail path ≠ .error .loop := by
  intro h
  nomatch failIf_eq_error h

variable (resolver) in
theorem walkToLink_ne_loop (pending : List String) (current : GuestPath) :
    resolver.walkToLink current pending ≠ .error .loop := by
  induction pending generalizing current with
  | nil => intro h; nomatch h
  | cons component pending ih =>
      rw [walkToLink]
      -- every round either fails the jail or goes on
      have hround : ∀ (path : GuestPath) (rest : Except VfsError Stop), rest ≠ .error .loop →
          (do resolver.enforceJail path; rest) ≠ .error .loop := by
        intro path rest hrest h
        rcases Prog.except_bind_eq_error.mp h with hjail | ⟨_, _, h⟩
        · exact enforceJail_ne_loop path hjail
        · exact hrest h
      split
      · exact hround _ _ (ih _)
      · split
        · exact hround _ _ (ih _)
        · apply hround
          split
          · split
            · exact ih _
            · simp
          · split
            · split
              · simp
              · exact ih _
            · split <;> simp

theorem splitGuestComponents_ne_loop (path : String) : splitGuestComponents path ≠ .error .loop := by
  intro h
  rcases Prog.except_bind_eq_error.mp h with h | ⟨_, _, h⟩
  · nomatch failIf_eq_error h
  · rcases Prog.except_bind_eq_error.mp h with h | ⟨_, _, h⟩
    · nomatch failIf_eq_error h
    · nomatch h

variable (resolver) in
theorem expandLink_ne_loop (link : SymlinkPlaceholder) (rest : List String) :
    resolver.expandLink link rest ≠ .error .loop := by
  intro h
  rcases Prog.except_bind_eq_error.mp h with h | ⟨_, _, h⟩
  · exact splitGuestComponents_ne_loop _ h
  · rcases Prog.except_bind_eq_error.mp h with h | ⟨_, _, h⟩
    · exact enforceJail_ne_loop _ h
    · nomatch h

/-- `Loop` is the answer to one link too many, and to nothing else. -/
theorem walk_eq_loop_iff (links : Nat) (current : GuestPath) (pending : List String) :
    resolver.walk links current pending = .error .loop ↔
      resolver.MeetsLinks (links + 1) current pending := by
  induction links generalizing current pending with
  | zero =>
      rw [walk, MeetsLinks]
      cases hstop : resolver.walkToLink current pending with
      | error error =>
          have hne := walkToLink_ne_loop resolver pending current
          rw [hstop] at hne
          simpa using hne
      | ok stop => cases stop <;> simp [pure, Except.pure]
  | succ links ih =>
      rw [walk, MeetsLinks]
      cases hstop : resolver.walkToLink current pending with
      | error error =>
          have hne := walkToLink_ne_loop resolver pending current
          rw [hstop] at hne
          simpa using hne
      | ok stop =>
          cases stop with
          | finished path => simp [pure, Except.pure]
          | atLink link rest =>
              have hne := expandLink_ne_loop resolver link rest
              cases hnext : resolver.expandLink link rest with
              | error error =>
                  rw [hnext] at hne
                  simpa [hnext] using hne
              | ok next =>
                  obtain ⟨current, pending⟩ := next
                  simp [hnext, ih]

theorem resolve_eq {path : String} {components : List String} (hpath : path ≠ "")
    (hsplit : splitGuestComponents path = .ok components) :
    resolver.resolve path = resolver.walk symlinkLimit (resolver.base path) components := by
  obtain ⟨_, hnul, -⟩ := Prog.except_bind_eq_ok.mp hsplit
  rw [resolve, hsplit, failIf, if_neg (not_or.mpr ⟨hpath, failIf_eq_ok.mp hnul⟩)]
  rfl

end PathResolver

/-- Whatever the tree, resolution ends; what it returns lies in the guest root; and it gives up with
`Loop` exactly when it comes to one link more than the limit. -/
theorem resolve_jailed (resolver : PathResolver)
    (hcwd : resolver.rootfs.cwd.startsWith resolver.rootfs.root = true) (path : String) :
    (∀ components, path ≠ "" → splitGuestComponents path = .ok components →
      resolver.Returns ⟨resolver.base path, components, 0⟩ (resolver.resolve path)) ∧
    (∀ resolved, resolver.resolve path = .ok resolved →
      resolved.startsWith resolver.rootfs.root = true) ∧
    (resolver.resolve path = .error .loop ↔ path ≠ "" ∧ ∃ components,
      splitGuestComponents path = .ok components ∧
      resolver.MeetsLinks (symlinkLimit + 1) (resolver.base path) components) := by
  refine ⟨?_, ?_, ?_⟩
  · intro components hpath hsplit
    rw [PathResolver.resolve_eq hpath hsplit]
    exact PathResolver.walk_returns symlinkLimit 0 rfl _ components
  · intro resolved hresolved
    obtain ⟨_, -, hrest⟩ := Prog.except_bind_eq_ok.mp hresolved
    obtain ⟨components, -, hwalk⟩ := Prog.except_bind_eq_ok.mp hrest
    rw [GuestPath.startsWith_iff]
    apply PathResolver.walk_jailed symlinkLimit _ hwalk
    unfold PathResolver.base
    split
    · exact List.prefix_rfl
    · exact GuestPath.startsWith_iff.mp hcwd
  · constructor
    · intro hloop
      rcases Prog.except_bind_eq_error.mp hloop with hcheck | ⟨_, hcheck, hrest⟩
      · nomatch failIf_eq_error hcheck
      have hpath : path ≠ "" := fun h => failIf_eq_ok.mp hcheck (Or.inl h)
      rcases Prog.except_bind_eq_error.mp hrest with hsplit | ⟨components, hsplit, hwalk⟩
      · exact absurd hsplit (PathResolver.splitGuestComponents_ne_loop path)
      · exact ⟨hpath, components, hsplit, (PathResolver.walk_eq_loop_iff _ _ _).mp hwalk⟩
    · rintro ⟨hpath, components, hsplit, hlinks⟩
      rw [PathResolver.resolve_eq hpath hsplit]
      exact (PathResolver.walk_eq_loop_iff _ _ _).mpr hlinks

/-- A jail at `/jail` with a link that tries to leave it and one that leads to itself. -/
def jailTree : PathTree :=
  let call : PathTree.Call Unit := do
    let _ ← PathTree.createDir "/etc"
    let _ ← PathTree.createDir "/jail"
    let _ ← PathTree.createDir "/jail/etc"
    let _ ← PathTree.createSymlink "/jail/out" "../../../etc"
    let _ ← PathTree.createSymlink "/jail/self" "self"
  (call .new).2

def jailResolver : PathResolver := ⟨.withGuestRoot "/host" ["jail"], jailTree, true⟩

theorem jailTree_resolve_jailed :
    jailResolver.resolve "out/passwd" = .ok ["jail", "etc", "passwd"] ∧
      GuestPath.startsWith ["jail", "etc", "passwd"] ["jail"] = true ∧
      jailResolver.resolve "self" = .error .loop ∧
      ∃ components, splitGuestComponents "self" = .ok components ∧
        jailResolver.MeetsLinks (symlinkLimit + 1) ["jail"] components := by
  have hcwd : jailResolver.rootfs.cwd.startsWith jailResolver.rootfs.root = true := by decide +kernel
  have hout : jailResolver.resolve "out/passwd" = .ok ["jail", "etc", "passwd"] := by decide +kernel
  have hself : jailResolver.resolve "self" = .error .loop := by decide +kernel
  have hloop := ((resolve_jailed jailResolver hcwd "self").2.2.mp hself).2
  exact ⟨hout, (resolve_jailed jailResolver hcwd "out/passwd").2.1 _ hout, hself, hloop⟩

end Mcr.Vfs
