import Mcr.Lib.SortedSet

/-!
# Forests linked both ways

A forest whose nodes name their parent and whose parents name their children, with a mark on the nodes that have
ended. `Linked` says that the two sides agree and that an ended node hangs under one that has not ended, so that
somebody is left to take it away. The four edits of such a forest are a new leaf, a node ending, a node starting
over and a leaf taken away.
-/

namespace Mcr.Forest

variable {κ : Type} [LinearOrder κ]

structure Node (κ : Type) [LinearOrder κ] where
  parent : Option κ
  children : SortedSet κ
  ended : Bool

/-- The two sides of the links agree, no node is its own parent, and every ended node has a parent that has not
ended. -/
structure Linked (f : κ → Option (Node κ)) : Prop where
  proper : ∀ {p n}, f p = some n → n.parent ≠ some p
  up : ∀ {p n q}, f p = some n → n.parent = some q → ∃ m, f q = some m ∧ p ∈ m.children
  down : ∀ {q m c}, f q = some m → c ∈ m.children → ∃ n, f c = some n ∧ n.parent = some q
  attended : ∀ {p n q m}, f p = some n → n.parent = some q → f q = some m → n.ended = true → m.ended = false

namespace Linked

variable {f : κ → Option (Node κ)} {p q c : κ} {n m : Node κ}

theorem root (p : κ) : Linked (Function.update (fun _ : κ => none) p (some ⟨none, .empty, false⟩)) := by
  have hlook : ∀ {j n}, Function.update (fun _ : κ => (none : Option (Node κ))) p (some ⟨none, .empty, false⟩) j = some n →
      n = ⟨none, .empty, false⟩ := by
    intro j n hn
    rw [Function.update_apply] at hn
    split at hn
    · exact (Option.some.inj hn).symm
    · exact nomatch hn
  refine ⟨fun hn hparent => ?_, fun hn hparent => ?_, fun hm hc => ?_, fun hn hparent _ _ => ?_⟩
  · rw [hlook hn] at hparent
    exact nomatch hparent
  · rw [hlook hn] at hparent
    exact nomatch hparent
  · rw [hlook hm] at hc
    exact absurd hc (SortedSet.not_mem_empty _)
  · rw [hlook hn] at hparent
    exact nomatch hparent

theorem addLeaf (h : Linked f) (hfresh : f c = none) (hq : f q = some m) (hrunning : m.ended = false) :
    Linked (Function.update (Function.update f c (some ⟨some q, .empty, false⟩)) q
      (some { m with children := m.children.insert c })) := by
  have hcq : c ≠ q := by
    rintro rfl
    exact nomatch hfresh.symm.trans hq
  have hlook : ∀ j, Function.update (Function.update f c (some ⟨some q, .empty, false⟩)) q
      (some { m with children := m.children.insert c }) j =
      if j = q then some { m with children := m.children.insert c }
      else if j = c then some ⟨some q, .empty, false⟩ else f j := by
    intro j
    rw [Function.update_apply, Function.update_apply]
  -- A node of the new forest is the parent, the leaf or an old node.
  have hold : ∀ {r}, (∃ m', f r = some m') → r ≠ c := by
    rintro r ⟨m', hm'⟩ rfl
    exact nomatch hfresh.symm.trans hm'
  have hup : ∀ {x r} {n : Node κ}, f x = some n → n.parent = some r →
      ∃ m', (if r = q then some { m with children := m.children.insert c }
        else if r = c then some ⟨some q, .empty, false⟩ else f r) = some m' ∧ x ∈ m'.children ∧
        ∃ m₀, f r = some m₀ ∧ m'.ended = m₀.ended := by
    intro x r n hx hparent
    obtain ⟨m', hm', hmem⟩ := h.up hx hparent
    by_cases hr : r = q
    · subst hr
      obtain rfl := Option.some.inj (hm'.symm.trans hq)
      exact ⟨_, if_pos rfl, SortedSet.mem_insert.mpr (Or.inr hmem), m', hq, rfl⟩
    · exact ⟨m', by rw [if_neg hr, if_neg (hold ⟨m', hm'⟩), hm'], hmem, m', hm', rfl⟩
  refine ⟨fun {x n} hx => ?_, fun {x n r} hx hparent => ?_, fun {r m' x} hr hmem => ?_,
    fun {x n r m'} hx hparent hr hended => ?_⟩
  · rw [hlook] at hx
    split at hx
    · rename_i hxq
      obtain rfl := Option.some.inj hx
      exact hxq ▸ h.proper (n := m) hq
    · split at hx
      · rename_i hxc
        obtain rfl := Option.some.inj hx
        exact fun hparent => hcq ((Option.some.inj hparent).symm ▸ hxc.symm)
      · exact h.proper hx
  · rw [hlook] at hx ⊢
    split at hx
    · rename_i hxq
      obtain rfl := Option.some.inj hx
      obtain ⟨m', hm', hmem, -⟩ := hup hq hparent
      exact ⟨m', hm', hxq ▸ hmem⟩
    · split at hx
      · rename_i hxc
        obtain rfl := Option.some.inj hx
        obtain rfl := Option.some.inj hparent
        exact ⟨_, if_pos rfl, SortedSet.mem_insert.mpr (Or.inl hxc)⟩
      · obtain ⟨m', hm', hmem, -⟩ := hup hx hparent
        exact ⟨m', hm', hmem⟩
  · rw [hlook] at hr ⊢
    have hdown : ∀ {r m'}, f r = some m' → x ∈ m'.children →
        ∃ n, (if x = q then some { m with children := m.children.insert c }
          else if x = c then some ⟨some q, .empty, false⟩ else f x) = some n ∧ n.parent = some r := by
      intro r m' hr hmem
      obtain ⟨n, hn, hparent⟩ := h.down hr hmem
      by_cases hx : x = q
      · obtain rfl := Option.some.inj (hq.symm.trans (hx ▸ hn))
        exact ⟨_, if_pos hx, hparent⟩
      · exact ⟨n, by rw [if_neg hx, if_neg (hold ⟨n, hn⟩), hn], hparent⟩
    split at hr
    · rename_i hrq
      obtain rfl := Option.some.inj hr
      rcases SortedSet.mem_insert.mp hmem with hxc | hmem
      · exact ⟨⟨some q, .empty, false⟩, by rw [if_neg (hxc ▸ hcq), if_pos hxc], congrArg some hrq.symm⟩
      · exact hrq ▸ hdown hq hmem
    · split at hr
      · obtain rfl := Option.some.inj hr
        exact absurd hmem (SortedSet.not_mem_empty _)
      · exact hdown hr hmem
  · rw [hlook] at hx hr
    have hattended : ∀ n₀, f x = some n₀ → n₀.parent = some r → n₀.ended = true → m'.ended = false := by
      intro n₀ hn₀ hparent hended
      obtain ⟨m'', hm'', -, m₀, hm₀, heq⟩ := hup hn₀ hparent
      obtain rfl := Option.some.inj (hm''.symm.trans hr)
      exact heq.trans (h.attended hn₀ hparent hm₀ hended)
    split at hx
    · rename_i hxq
      obtain rfl := Option.some.inj hx
      exact hattended m (hxq ▸ hq) hparent hended
    · split at hx
      · obtain rfl := Option.some.inj hx
        exact nomatch hended
      · exact hattended _ hx hparent hended

theorem setEnded (h : Linked f) (hp : f p = some n) (ended : Bool)
    (hparent : ended = true → ∀ q m, n.parent = some q → f q = some m → m.ended = false)
    (hchildren : ended = true → ∀ c m, c ∈ n.children → f c = some m → m.ended = false) :
    Linked (Function.update f p (some { n with ended := ended })) := by
  have hlook : ∀ j, Function.update f p (some { n with ended := ended }) j =
      if j = p then some { n with ended := ended } else f j :=
    fun j => Function.update_apply f p _ j
  -- A node of the new forest has the links of its old self, and its mark if it is not `p`.
  have hold : ∀ {j m}, (if j = p then some { n with ended := ended } else f j) = some m →
      ∃ m₀, f j = some m₀ ∧ m.parent = m₀.parent ∧ m.children = m₀.children ∧
        m.ended = if j = p then ended else m₀.ended := by
    intro j m hm
    split at hm
    · rename_i hj
      obtain rfl := Option.some.inj hm
      exact ⟨n, hj ▸ hp, rfl, rfl, (if_pos hj).symm⟩
    · rename_i hj
      exact ⟨m, hm, rfl, rfl, (if_neg hj).symm⟩
  have hnew : ∀ {j m₀}, f j = some m₀ → ∃ m, (if j = p then some { n with ended := ended } else f j) = some m ∧
      m.parent = m₀.parent ∧ m.children = m₀.children := by
    intro j m₀ hm₀
    split
    · rename_i hj
      obtain rfl := Option.some.inj ((hj ▸ hp).symm.trans hm₀)
      exact ⟨_, rfl, rfl, rfl⟩
    · exact ⟨m₀, hm₀, rfl, rfl⟩
  refine ⟨fun {x nx} hx => ?_, fun {x nx r} hx hr => ?_, fun {r mr x} hr hx => ?_, fun {x nx r mr} hx hxr hr hended => ?_⟩
  · rw [hlook] at hx
    obtain ⟨n₀, hn₀, heq, -⟩ := hold hx
    exact heq ▸ h.proper hn₀
  · rw [hlook] at hx ⊢
    obtain ⟨n₀, hn₀, heq, -⟩ := hold hx
    obtain ⟨m₀, hm₀, hmem⟩ := h.up hn₀ (heq ▸ hr)
    obtain ⟨m, hm, -, hchildren⟩ := hnew hm₀
    exact ⟨m, hm, hchildren ▸ hmem⟩
  · rw [hlook] at hr ⊢
    obtain ⟨m₀, hm₀, -, heq, -⟩ := hold hr
    obtain ⟨n₀, hn₀, hparent₀⟩ := h.down hm₀ (heq ▸ hx)
    obtain ⟨n', hn', heq', -⟩ := hnew hn₀
    exact ⟨n', hn', heq'.trans hparent₀⟩
  · rw [hlook] at hx hr
    obtain ⟨n₀, hn₀, hnparent, -, hnended⟩ := hold hx
    obtain ⟨m₀, hm₀, -, -, hmended⟩ := hold hr
    rw [hnparent] at hxr
    rw [hnended] at hended
    rw [hmended]
    by_cases hxp : x = p
    · rw [if_pos hxp] at hended
      obtain rfl : n = n₀ := Option.some.inj (hp.symm.trans (hxp ▸ hn₀))
      have hrp : r ≠ p := fun hrp => h.proper hp (hrp ▸ hxr)
      rw [if_neg hrp]
      exact hparent hended r m₀ hxr hm₀
    · rw [if_neg hxp] at hended
      by_cases hrp : r = p
      · rw [if_pos hrp]
        cases ended with
        | false => rfl
        | true =>
            obtain ⟨m₁, hm₁, hmem⟩ := h.up hn₀ hxr
            obtain rfl : n = m₁ := Option.some.inj (hp.symm.trans (hrp ▸ hm₁))
            exact absurd hended (by simp [hchildren rfl x n₀ hmem hn₀])
      · rw [if_neg hrp]
        exact h.attended hn₀ hxr hm₀ hended

theorem removeLeaf (h : Linked f) (hc : f c = some n) (hleaf : ∀ d, d ∉ n.children) (hparent : n.parent = some q)
    (hq : f q = some m) :
    Linked (Function.update (Function.update f c none) q (some { m with children := m.children.erase c })) := by
  have hcq : q ≠ c := by
    rintro rfl
    exact h.proper hc hparent
  have hlook : ∀ j, Function.update (Function.update f c none) q (some { m with children := m.children.erase c }) j =
      if j = q then some { m with children := m.children.erase c } else if j = c then none else f j := by
    intro j
    rw [Function.update_apply, Function.update_apply]
  have hold : ∀ {j m'}, (if j = q then some { m with children := m.children.erase c }
      else if j = c then none else f j) = some m' →
      j ≠ c ∧ ∃ m₀, f j = some m₀ ∧ m'.parent = m₀.parent ∧ m'.ended = m₀.ended ∧
        ∀ x, x ∈ m'.children ↔ x ≠ c ∧ x ∈ m₀.children := by
    intro j m' hm'
    split at hm'
    · rename_i hj
      obtain rfl := Option.some.inj hm'
      exact ⟨hj ▸ hcq, m, hj ▸ hq, rfl, rfl, fun x => SortedSet.mem_erase⟩
    · rename_i hj
      split at hm'
      · exact nomatch hm'
      · rename_i hjc
        refine ⟨hjc, m', hm', rfl, rfl, fun x => ⟨fun hx => ⟨?_, hx⟩, And.right⟩⟩
        -- Only `q` lists `c`.
        rintro rfl
        obtain ⟨n', hn', hparent'⟩ := h.down hm' hx
        obtain rfl := Option.some.inj (hn'.symm.trans hc)
        exact hj (Option.some.inj (hparent'.symm.trans hparent))
  have hnew : ∀ {j m₀}, f j = some m₀ → j ≠ c → ∃ m', (if j = q then some { m with children := m.children.erase c }
      else if j = c then none else f j) = some m' ∧ m'.parent = m₀.parent := by
    intro j m₀ hm₀ hjc
    split
    · rename_i hj
      obtain rfl := Option.some.inj ((hj ▸ hq).symm.trans hm₀)
      exact ⟨_, rfl, rfl⟩
    · exact ⟨m₀, hm₀, rfl⟩
  refine ⟨fun {x nx} hx => ?_, fun {x nx r} hx hr => ?_, fun {r mr x} hr hx => ?_, fun {x nx r mr} hx hxr hr hended => ?_⟩
  · rw [hlook] at hx
    obtain ⟨-, n₀, hn₀, heq, -⟩ := hold hx
    exact heq ▸ h.proper hn₀
  · rw [hlook] at hx ⊢
    obtain ⟨hxc, n₀, hn₀, heq, -⟩ := hold hx
    obtain ⟨m₀, hm₀, hmem⟩ := h.up hn₀ (heq ▸ hr)
    have hrc : r ≠ c := by
      rintro rfl
      obtain rfl := Option.some.inj (hm₀.symm.trans hc)
      exact hleaf x hmem
    obtain ⟨m', hm', -⟩ := hnew hm₀ hrc
    obtain ⟨-, m₁, hm₁, -, -, hmem'⟩ := hold hm'
    obtain rfl := Option.some.inj (hm₁.symm.trans hm₀)
    exact ⟨m', hm', (hmem' x).mpr ⟨hxc, hmem⟩⟩
  · rw [hlook] at hr ⊢
    obtain ⟨-, m₀, hm₀, -, -, hmem⟩ := hold hr
    obtain ⟨hxc, hx⟩ := (hmem x).mp hx
    obtain ⟨n₀, hn₀, hparent₀⟩ := h.down hm₀ hx
    obtain ⟨n', hn', heq⟩ := hnew hn₀ hxc
    exact ⟨n', hn', heq.trans hparent₀⟩
  · rw [hlook] at hx hr
    obtain ⟨-, n₀, hn₀, heq, hended₀, -⟩ := hold hx
    obtain ⟨-, m₀, hm₀, -, hended₁, -⟩ := hold hr
    rw [hended₁]
    exact h.attended hn₀ (heq ▸ hxr) hm₀ (hended₀ ▸ hended)

end Linked

end Mcr.Forest
