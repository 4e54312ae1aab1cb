import Mcr.Vfs.Effect

/-!
# What an invalidation drops

An invalidation of an inode moves its generation on and removes its entries, so a lookup finds nothing
for it until a query fills the cache again; the entries of other inodes stay, under the same keys.
-/

namespace Mcr.Vfs

namespace VfsCache

/-- The part of an invalidation that concerns one inode. -/
def dropOne (cache : VfsCache) (inode : InodeId) : VfsCache :=
  (cache.bumpInodeGeneration inode).removeInodeEntries inode

theorem keyGeneration_dropOne (cache : VfsCache) (j i : InodeId) :
    (cache.dropOne j).keyGeneration i =
      if i = j then (cache.keyGeneration i + 1) % u64Limit else cache.keyGeneration i := by
  simp only [keyGeneration, dropOne, removeInodeEntries, bumpInodeGeneration, SortedMap.get?_insert]
  split
  · rename_i heq
    subst heq
    cases hgen : cache.inodeGenerations.get? i with
    | none => simp [Nat.add_mod]
    | some generation =>
        simp only [Option.getD_some, wrappingSucc, Nat.add_mod_mod, Nat.mod_add_mod]
        congr 1
  · rfl

theorem get?_dropOne {ν : Type} (cache : VfsCache) (table : SortedMap VfsCacheKey ν) {j i : InodeId} {v : ν}
    (h : (table.filter fun key _ => (ofLex key).1 ≠ j).get? ((cache.dropOne j).key i) = some v) :
    i ≠ j ∧ table.get? (cache.key i) = some v := by
  obtain ⟨hget, hne⟩ := SortedMap.get?_filter_eq_some.mp h
  have hij : i ≠ j := of_decide_eq_true hne
  rw [key, keyGeneration_dropOne, if_neg hij] at hget
  exact ⟨hij, hget⟩

structure DropsList (cache cache' : VfsCache) (ids : List InodeId) : Prop where
  metadata : ∀ i attr, cache'.metadataOf i = some attr → i ∉ ids ∧ cache.metadataOf i = some attr
  listing : ∀ i entries, cache'.directoryListing i = some entries →
    i ∉ ids ∧ cache.directoryListing i = some entries
  smallRead : ∀ i data, cache'.smallRead i = some data → i ∉ ids ∧ cache.smallRead i = some data
  generation : ∀ i, cache'.keyGeneration i = (cache.keyGeneration i + ids.count i) % u64Limit

theorem DropsList.nil (cache : VfsCache) : DropsList cache cache [] :=
  ⟨fun _ _ h => ⟨by simp, h⟩, fun _ _ h => ⟨by simp, h⟩, fun _ _ h => ⟨by simp, h⟩,
    fun i => by simp [keyGeneration]⟩

theorem DropsList.cons {cache cache' : VfsCache} {j : InodeId} {ids : List InodeId}
    (h : DropsList (cache.dropOne j) cache' ids) : DropsList cache cache' (j :: ids) := by
  refine ⟨?_, ?_, ?_, ?_⟩
  · intro i attr hi
    obtain ⟨hnot, hget⟩ := h.metadata i attr hi
    obtain ⟨hne, hget⟩ := get?_dropOne cache cache.metadata hget
    exact ⟨by simp [hne, hnot], hget⟩
  · intro i entries hi
    obtain ⟨hnot, hget⟩ := h.listing i entries hi
    obtain ⟨hne, hget⟩ := get?_dropOne cache cache.directoryListings hget
    exact ⟨by simp [hne, hnot], hget⟩
  · intro i data hi
    obtain ⟨hnot, hget⟩ := h.smallRead i data hi
    obtain ⟨hne, hget⟩ := get?_dropOne cache cache.smallReads hget
    exact ⟨by simp [hne, hnot], hget⟩
  · intro i
    rw [h.generation, keyGeneration_dropOne, List.count_cons]
    split
    · rename_i heq
      simp only [heq, BEq.rfl, if_true, Nat.mod_add_mod]
      congr 1
      omega
    · rename_i hne
      rw [if_neg (by simpa using fun h => hne h.symm), Nat.add_zero]

theorem DropsList.foldl (ids : List InodeId) (cache : VfsCache) :
    DropsList cache (ids.foldl dropOne cache) ids := by
  induction ids generalizing cache with
  | nil => exact .nil cache
  | cons j ids ih => exact .cons (ih (cache.dropOne j))

theorem DropsList.stamp {cache cache' : VfsCache} {ids : List InodeId} {g g' : Nat}
    (h : DropsList { cache with generation := g } { cache' with generation := g' } ids) :
    DropsList cache cache' ids := ⟨h.metadata, h.listing, h.smallRead, h.generation⟩

theorem DropsList.drops {cache cache' : VfsCache} {ids : List InodeId} (h : DropsList cache cache' ids)
    (hlen : ids.length ≤ 3) : cache.Drops cache' ids := by
  refine ⟨h.metadata, h.listing, h.smallRead, fun i => ⟨ids.count i, ?_, h.generation i, ?_⟩⟩
  · exact (List.count_le_length).trans hlen
  · exact List.count_pos_iff.mpr

theorem Drops.mono {cache cache' : VfsCache} {ids ids' : List InodeId} (h : cache.Drops cache' ids)
    (hsub : ∀ i ∈ ids', i ∈ ids) : cache.Drops cache' ids' := by
  refine ⟨?_, ?_, ?_, ?_⟩
  · intro i attr hi
    exact ⟨fun hmem => (h.metadata i attr hi).1 (hsub i hmem), (h.metadata i attr hi).2⟩
  · intro i entries hi
    exact ⟨fun hmem => (h.listing i entries hi).1 (hsub i hmem), (h.listing i entries hi).2⟩
  · intro i data hi
    exact ⟨fun hmem => (h.smallRead i data hi).1 (hsub i hmem), (h.smallRead i data hi).2⟩
  · intro i
    obtain ⟨n, hn, hgen, hpos⟩ := h.generation i
    exact ⟨n, hn, hgen, fun hmem => hpos (hsub i hmem)⟩

theorem invalidateInode_drops (cache : VfsCache) (i : InodeId) : cache.Drops (cache.invalidateInode i) [i] :=
  DropsList.drops (.stamp (DropsList.foldl [i] { cache with generation := wrappingSucc cache.generation })) (by simp)

theorem invalidateInodes_drops (cache : VfsCache) (ids : List InodeId) (hlen : ids.length ≤ 3) :
    cache.Drops (cache.invalidateInodes ids) ids := by
  have h := (DropsList.foldl ids cache).drops hlen
  unfold invalidateInodes
  simp only
  split
  · exact h
  · exact ⟨h.metadata, h.listing, h.smallRead, h.generation⟩

theorem invalidateTwo_drops (cache : VfsCache) (i j : InodeId) :
    cache.Drops ((cache.invalidateInode i).invalidateInode j) [i, j] :=
  DropsList.drops (.cons (.stamp (DropsList.foldl [j]
    { cache.dropOne i with generation := wrappingSucc (wrappingSucc cache.generation) }))) (by simp)

theorem invalidateAll_drops (cache : VfsCache) (ids : List InodeId) : cache.Drops cache.invalidateAll ids := by
  refine ⟨?_, ?_, ?_, fun i => ⟨1, by omega, ?_, ?_⟩⟩
  · intro _ _ h
    nomatch h
  · intro _ _ h
    nomatch h
  · intro _ _ h
    nomatch h
  · simp only [keyGeneration, invalidateAll, wrappingSucc, Nat.mod_add_mod]
    congr 1
    omega
  · intro _
    omega

end VfsCache

end Mcr.Vfs
