import Mcr.Image.Registry
import Mcr.Lib.Journal

/-!
# The manifest comes last

The checks before a push only ask, and what they keep under a digest is the first blob of the manifest with that
digest, read and verified. The plan names each digest the registry lacks once, again by its first blob, so the
uploads send verified bytes, and when all of them have succeeded every digest is settled and the manifest follows.
-/

namespace Mcr.Image

open Prog

/-! ### What a safe push is -/

section Spec

variable (sha256 : List UInt8 → String) (manifest : OciImageManifest)

/-- The bytes are the ones the descriptor names. -/
def Verified (descriptor : OciDescriptor) (bytes : List UInt8) : Prop :=
  LocalContentStore.digestOf sha256 bytes = descriptor.digest ∧ bytes.length = descriptor.size

/-- The registry has said that it holds the digest, or has taken it. -/
def Settled (journal : List RegistryCall) (digest : OciDigest) : Prop :=
  .blobExists digest (.ok true) ∈ journal ∨
    ∃ descriptor bytes, .uploadBlob descriptor bytes (.ok ()) ∈ journal ∧ descriptor.digest = digest

def RegistryCall.sendsManifest : RegistryCall → Prop
  | .uploadManifest _ _ _ _ => True
  | _ => False

def RegistryCall.sends (digest : OciDigest) : RegistryCall → Bool
  | .uploadBlob descriptor _ _ => decide (descriptor.digest = digest)
  | _ => false

/-- A journal in which each blob is sent at most once, and as its descriptor says. -/
structure Careful (journal : List RegistryCall) : Prop where
  once : ∀ digest, journal.countP (·.sends digest) ≤ 1
  faithful : ∀ descriptor bytes answer, .uploadBlob descriptor bytes answer ∈ journal →
    descriptor ∈ manifest.blobs ∧ Verified sha256 descriptor bytes

structure PushSafe (journal : List RegistryCall) (result : Except PushStop RegistryPushPlan) : Prop where
  careful : Careful sha256 manifest journal
  ordered : Journal.Guarded RegistryCall.sendsManifest
    (fun before => ∀ blob ∈ manifest.blobs, Settled before blob.digest) journal
  failed : ∀ stop, result = .error stop → ∀ reference descriptor bytes,
    .uploadManifest reference descriptor bytes (.ok ()) ∉ journal
  returns : result ≠ .error .panic

end Spec

variable {σ : Type} {sha256 : List UInt8 → String} {manifest : OciImageManifest} {journal : List RegistryCall}

theorem PushSafe.of_unsent {error : ImageError} (h : Careful sha256 manifest journal)
    (hunsent : ∀ call ∈ journal, ¬call.sendsManifest) : PushSafe sha256 manifest journal (.error (.error error)) where
  careful := h
  ordered := .of_none hunsent
  failed _ _ _ _ _ hmem := hunsent _ hmem trivial
  returns h := nomatch h

/-! ### The rules of the calls -/

section Rules

variable {α : Type} {s : PushState σ} {Q : α → PushState σ → Prop} {E : PushStop → PushState σ → Prop}

theorem wp_call {ask : σ → Except ImageError α × σ} {record : Except ImageError α → List RegistryCall}
    (hok : ∀ a world, Q a ⟨world, s.journal ++ record (.ok a)⟩)
    (herror : ∀ error world, E (.error error) ⟨world, s.journal ++ record (.error error)⟩) :
    (PushProg.call ask record).wp Q E s := by
  rcases hask : ask s.world with ⟨answer, world⟩
  cases answer with
  | ok a =>
      apply wp_of_run _ (hok a world)
      simp only [PushProg.call, hask]
  | error error =>
      apply wp_of_error _ (herror error world)
      simp only [PushProg.call, hask]

theorem wp_checked {x : Except ImageError α} (hok : ∀ a, x = .ok a → Q a s)
    (herror : ∀ error, x = .error error → E (.error error) s) : (PushProg.check x).wp Q E s := by
  unfold PushProg.check
  rw [wp_mapError]
  exact Prog.wp_check herror hok

end Rules

/-! ### The checks before the uploads -/

/-- Every call so far was a question. -/
def Asks (journal : List RegistryCall) : Prop := ∀ call ∈ journal, ∃ digest answer, call = .blobExists digest answer

theorem Asks.unsent (h : Asks journal) : ∀ call ∈ journal, ¬call.sendsManifest := by
  intro call hmem hsends
  obtain ⟨digest, answer, rfl⟩ := h call hmem
  exact hsends

theorem Asks.count (h : Asks journal) (digest : OciDigest) : journal.countP (·.sends digest) = 0 := by
  rw [List.countP_eq_zero]
  intro call hmem hsends
  obtain ⟨_, _, rfl⟩ := h call hmem
  cases hsends

theorem Asks.careful (h : Asks journal) : Careful sha256 manifest journal where
  once digest := by rw [h.count digest]; omega
  faithful descriptor bytes answer hmem := by
    obtain ⟨_, _, heq⟩ := h _ hmem
    cases heq

theorem Asks.snoc (h : Asks journal) (digest : OciDigest) (answer : Except ImageError Bool) :
    Asks (journal ++ [.blobExists digest answer]) := by
  intro call hmem
  rcases List.mem_append.mp hmem with hmem | hmem
  · exact h call hmem
  · exact ⟨digest, answer, List.mem_singleton.mp hmem⟩

def firstWith (blobs : List OciDescriptor) (digest : OciDigest) : Option OciDescriptor :=
  blobs.find? fun descriptor => descriptor.digest = digest

theorem firstWith_snoc (blobs : List OciDescriptor) (descriptor : OciDescriptor) (digest : OciDigest) :
    firstWith (blobs ++ [descriptor]) digest =
      (firstWith blobs digest).or (if descriptor.digest = digest then some descriptor else none) := by
  unfold firstWith
  rw [List.find?_append, List.find?_singleton]
  simp only [decide_eq_true_eq]

theorem firstWith_mem {blobs : List OciDescriptor} {digest : OciDigest} {descriptor : OciDescriptor}
    (h : firstWith blobs digest = some descriptor) : descriptor ∈ blobs ∧ descriptor.digest = digest :=
  ⟨List.mem_of_find?_eq_some h, by simpa using List.find?_some h⟩

/-- What the checks of a part of the manifest have found. -/
structure Seen (sha256 : List UInt8 → String) (blobs : List OciDescriptor) (checked : LocalContentStore.Checked)
    (journal : List RegistryCall) : Prop where
  asks : Asks journal
  remote : ∀ digest ∈ checked.remoteBlobs, .blobExists digest (.ok true) ∈ journal
  first : ∀ digest, (checked.localBlobs.get? digest).map Prod.fst = firstWith blobs digest
  verified : ∀ digest descriptor bytes, checked.localBlobs.get? digest = some (descriptor, bytes) →
    Verified sha256 descriptor bytes

namespace LocalContentStore

variable {outside : Outside σ} {store : LocalContentStore} {s : PushState σ} {blobs : List OciDescriptor}
  {checked : Checked}

theorem readBlob_spec (descriptor : OciDescriptor) :
    (readBlob sha256 outside store descriptor).wp
      (fun bytes s' => s'.journal = s.journal ∧ Verified sha256 descriptor bytes)
      (fun stop s' => stop ≠ .panic ∧ s'.journal = s.journal) s := by
  unfold readBlob
  rw [wp_bind]
  apply wp_checked
  · intro path _
    rw [wp_bind]
    apply wp_call
    · intro bytes world
      rw [wp_ite]
      by_cases hsize : bytes.length ≠ descriptor.size
      · rw [if_pos hsize, wp_throw]
        exact ⟨by simp, List.append_nil _⟩
      · rw [if_neg hsize, wp_bind]
        apply wp_checked
        · intro _ hverified
          rw [wp_pure]
          refine ⟨List.append_nil _, ?_, not_not.mp hsize⟩
          unfold verifyBlobBytes at hverified
          by_contra hdigest
          rw [if_pos hdigest] at hverified
          cases hverified
        · exact fun _ _ => ⟨by simp, List.append_nil _⟩
    · exact fun _ _ => ⟨by simp, List.append_nil _⟩
  · exact fun _ _ => ⟨by simp, rfl⟩

theorem checkBlob_spec (h : Seen sha256 blobs checked s.journal) (descriptor : OciDescriptor) :
    (checkBlob sha256 outside store checked descriptor).wp
      (fun checked' s' => Seen sha256 (blobs ++ [descriptor]) checked' s'.journal)
      (fun stop s' => stop ≠ .panic ∧ Asks s'.journal) s := by
  unfold checkBlob
  rw [wp_bind]
  apply wp_mono (readBlob_spec descriptor)
  · intro bytes s' hread
    obtain ⟨hjournal, hverified⟩ := hread
    have hasks : Asks s'.journal := hjournal ▸ h.asks
    rw [wp_bind]
    apply wp_call
    · intro found world
      rw [wp_pure]
      constructor
      · exact hasks.snoc _ _
      · intro digest hmem
        cases found with
        | true =>
            rcases List.mem_append.mp hmem with hmem | hmem
            · rw [hjournal]
              exact List.mem_append_left _ (h.remote digest hmem)
            · rw [List.mem_singleton.mp hmem]
              exact List.mem_append_right _ (List.mem_singleton.mpr rfl)
        | false =>
            rw [hjournal]
            exact List.mem_append_left _ (h.remote digest hmem)
      · intro digest
        rw [firstWith_snoc, ← h.first digest]
        cases hlocal : checked.localBlobs.get? descriptor.digest with
        | some kept =>
            by_cases heq : descriptor.digest = digest
            · rw [← heq, hlocal]
              rfl
            · rw [if_neg heq, Option.or_none]
        | none =>
            rw [SortedMap.get?_insert]
            by_cases heq : descriptor.digest = digest
            · rw [if_pos heq.symm, if_pos heq, ← heq, hlocal]
              rfl
            · rw [if_neg (Ne.symm heq), if_neg heq, Option.or_none]
      · intro digest descriptor' bytes' hget
        cases hlocal : checked.localBlobs.get? descriptor.digest with
        | some kept =>
            rw [hlocal] at hget
            exact h.verified digest descriptor' bytes' hget
        | none =>
            simp only [hlocal] at hget
            rw [SortedMap.get?_insert] at hget
            by_cases heq : digest = descriptor.digest
            · rw [if_pos heq] at hget
              cases hget
              exact hverified
            · rw [if_neg heq] at hget
              exact h.verified digest descriptor' bytes' hget
    · exact fun _ _ => ⟨by simp, hasks.snoc _ _⟩
  · intro stop s' hstop
    exact ⟨hstop.1, hstop.2 ▸ h.asks⟩

theorem checkLayers_spec : ∀ (layers : List OciDescriptor) (blobs : List OciDescriptor) (checked : Checked)
    (s : PushState σ), Seen sha256 blobs checked s.journal →
    (checkLayers sha256 outside store checked layers).wp
      (fun checked' s' => Seen sha256 (blobs ++ layers) checked' s'.journal)
      (fun stop s' => stop ≠ .panic ∧ Asks s'.journal) s := by
  intro layers
  induction layers with
  | nil =>
      intro blobs checked s h
      rw [checkLayers, wp_pure, List.append_nil]
      exact h
  | cons layer rest ih =>
      intro blobs checked s h
      rw [checkLayers, wp_bind]
      apply wp_checked
      · intro _ _
        rw [wp_bind]
        apply wp_mono (checkBlob_spec h layer)
        · intro checked' s' h'
          have hrest := ih (blobs ++ [layer]) checked' s' h'
          rw [List.append_assoc] at hrest
          exact hrest
        · exact fun _ _ hstop => hstop
      · exact fun _ _ => ⟨by simp, h.asks⟩

end LocalContentStore

/-! ### The plan -/

structure Planned (remote : SortedSet OciDigest) (seen : List OciDescriptor)
    (planned : SortedSet OciDigest × List RegistryPushUpload) (blobs : List OciDescriptor) : Prop where
  uploads : planned.2 = blobs.map fun descriptor => ⟨.blob, descriptor⟩
  digests : ∀ digest, digest ∈ planned.1 ↔ ∃ blob ∈ blobs, blob.digest = digest
  distinct : blobs.Pairwise fun a b => a.digest ≠ b.digest
  first : ∀ blob ∈ blobs, firstWith seen blob.digest = some blob
  covered : ∀ descriptor ∈ seen, descriptor.digest ∈ remote ∨ ∃ blob ∈ blobs, blob.digest = descriptor.digest

theorem Planned.step {remote : SortedSet OciDigest} {seen : List OciDescriptor}
    {planned : SortedSet OciDigest × List RegistryPushUpload} {blobs : List OciDescriptor}
    (h : Planned remote seen planned blobs) (descriptor : OciDescriptor) :
    ∃ blobs', Planned remote (seen ++ [descriptor]) (planBlob remote planned descriptor) blobs' := by
  have hfirst : ∀ blob ∈ blobs, firstWith (seen ++ [descriptor]) blob.digest = some blob := by
    intro blob hblob
    rw [firstWith_snoc, h.first blob hblob]
    rfl
  -- A descriptor that adds nothing to the plan is covered by what is there.
  have hkeep : (descriptor.digest ∈ remote ∨ ∃ blob ∈ blobs, blob.digest = descriptor.digest) →
      Planned remote (seen ++ [descriptor]) planned blobs := by
    intro hcovered
    refine ⟨h.uploads, h.digests, h.distinct, hfirst, ?_⟩
    intro descriptor' hmem
    rcases List.mem_append.mp hmem with hmem | hmem
    · exact h.covered descriptor' hmem
    · rw [List.mem_singleton.mp hmem]
      exact hcovered
  unfold planBlob
  by_cases hremote : descriptor.digest ∈ remote
  · rw [if_pos hremote]
    exact ⟨blobs, hkeep (Or.inl hremote)⟩
  rw [if_neg hremote]
  by_cases hplanned : descriptor.digest ∈ planned.1
  · rw [if_pos hplanned]
    exact ⟨blobs, hkeep (Or.inr ((h.digests _).mp hplanned))⟩
  rw [if_neg hplanned]
  have hnew : ∀ blob ∈ blobs, blob.digest ≠ descriptor.digest := fun blob hblob heq =>
    hplanned ((h.digests _).mpr ⟨blob, hblob, heq⟩)
  refine ⟨blobs ++ [descriptor], ?_, ?_, ?_, ?_, ?_⟩
  · rw [h.uploads, List.map_append]
    rfl
  · intro digest
    rw [SortedSet.mem_insert, h.digests]
    constructor
    · intro hdigest
      rcases hdigest with rfl | ⟨blob, hblob, heq⟩
      · exact ⟨descriptor, List.mem_append_right _ (List.mem_singleton.mpr rfl), rfl⟩
      · exact ⟨blob, List.mem_append_left _ hblob, heq⟩
    · intro hdigest
      obtain ⟨blob, hblob, heq⟩ := hdigest
      rcases List.mem_append.mp hblob with hblob | hblob
      · exact Or.inr ⟨blob, hblob, heq⟩
      · rw [List.mem_singleton.mp hblob] at heq
        exact Or.inl heq.symm
  · rw [List.pairwise_append]
    refine ⟨h.distinct, List.pairwise_singleton _ _, ?_⟩
    intro blob hblob descriptor' hmem
    rw [List.mem_singleton.mp hmem]
    exact hnew blob hblob
  · intro blob hblob
    rcases List.mem_append.mp hblob with hblob | hblob
    · exact hfirst blob hblob
    · rw [List.mem_singleton.mp hblob, firstWith_snoc, if_pos rfl]
      have hunseen : firstWith seen descriptor.digest = none := by
        cases hfind : firstWith seen descriptor.digest with
        | none => rfl
        | some earlier =>
            obtain ⟨hmem, hsame⟩ := firstWith_mem hfind
            rcases h.covered earlier hmem with hcovered | ⟨blob, hblob, heq⟩
            · exact absurd (hsame ▸ hcovered) hremote
            · exact absurd (heq.trans hsame) (hnew blob hblob)
      rw [hunseen]
      rfl
  · intro descriptor' hmem
    rcases List.mem_append.mp hmem with hmem | hmem
    · refine (h.covered descriptor' hmem).imp_right ?_
      intro hcovered
      obtain ⟨blob, hblob, heq⟩ := hcovered
      exact ⟨blob, List.mem_append_left _ hblob, heq⟩
    · exact Or.inr ⟨descriptor, List.mem_append_right _ (List.mem_singleton.mpr rfl), by rw [List.mem_singleton.mp hmem]⟩

theorem Planned.foldl {remote : SortedSet OciDigest} : ∀ (rest seen : List OciDescriptor)
    (planned : SortedSet OciDigest × List RegistryPushUpload) (blobs : List OciDescriptor),
    Planned remote seen planned blobs →
      ∃ blobs', Planned remote (seen ++ rest) (rest.foldl (planBlob remote) planned) blobs' := by
  intro rest
  induction rest with
  | nil =>
      intro seen planned blobs h
      rw [List.append_nil]
      exact ⟨blobs, h⟩
  | cons descriptor rest ih =>
      intro seen planned blobs h
      obtain ⟨blobs', h'⟩ := h.step descriptor
      obtain ⟨blobs'', hrest⟩ := ih (seen ++ [descriptor]) (planBlob remote planned descriptor) blobs' h'
      rw [List.append_assoc] at hrest
      exact ⟨blobs'', hrest⟩

theorem mem_foldl_insert (digest : OciDigest) : ∀ (digests : List OciDigest) (set : SortedSet OciDigest),
    digest ∈ digests.foldl SortedSet.insert set → digest ∈ digests ∨ digest ∈ set := by
  intro digests
  induction digests with
  | nil =>
      intro set h
      exact Or.inr h
  | cons first rest ih =>
      intro set h
      rcases ih (set.insert first) h with hrest | hset
      · exact Or.inl (List.mem_cons_of_mem _ hrest)
      · rcases SortedSet.mem_insert.mp hset with rfl | hset
        · exact Or.inl List.mem_cons_self
        · exact Or.inr hset

theorem fromManifest_ok {reference : OciReference} {manifestDescriptor : OciDescriptor} {remoteBlobs : List OciDigest}
    {plan : RegistryPushPlan}
    (h : RegistryPushPlan.fromManifest reference manifestDescriptor manifest remoteBlobs = .ok plan) :
    ∃ blobs : List OciDescriptor,
      plan.uploads = (blobs.map fun descriptor => ⟨.blob, descriptor⟩) ++ [⟨.manifest, manifestDescriptor⟩] ∧
      (blobs.Pairwise fun a b => a.digest ≠ b.digest) ∧
      (∀ blob ∈ blobs, firstWith manifest.blobs blob.digest = some blob) ∧
      ∀ descriptor ∈ manifest.blobs, descriptor.digest ∈ remoteBlobs ∨ ∃ blob ∈ blobs, blob.digest = descriptor.digest := by
  unfold RegistryPushPlan.fromManifest at h
  by_cases hmanifest : manifestDescriptor.mediaType ≠ mediaTypeOciManifest
  · rw [if_pos hmanifest] at h
    cases h
  rw [if_neg hmanifest] at h
  by_cases hconfig : manifest.config.mediaType ≠ mediaTypeOciConfig
  · rw [if_pos hconfig] at h
    cases h
  rw [if_neg hconfig] at h
  obtain ⟨_, _, hplan⟩ := except_bind_eq_ok.mp h
  have hstart : Planned (remoteBlobs.foldl SortedSet.insert .empty) [] (.empty, []) [] :=
    ⟨rfl, fun digest => by simp, .nil, fun _ h => (nomatch h), fun _ h => (nomatch h)⟩
  obtain ⟨blobs, hblobs⟩ := hstart.foldl manifest.blobs [] _ _
  cases hplan
  refine ⟨blobs, by rw [hblobs.uploads], hblobs.distinct, hblobs.first, ?_⟩
  intro descriptor hmem
  refine (hblobs.covered descriptor hmem).imp_left ?_
  intro hremote
  exact (mem_foldl_insert _ remoteBlobs .empty hremote).resolve_right (SortedSet.not_mem_empty _)

theorem countP_digest_le_one {blobs : List OciDescriptor} (h : blobs.Pairwise fun a b => a.digest ≠ b.digest)
    (digest : OciDigest) : blobs.countP (·.digest = digest) ≤ 1 := by
  have hcount := List.nodup_iff_count_le_one.mp (List.pairwise_map.mpr h) digest
  rw [List.count, List.countP_map] at hcount
  exact hcount

/-! ### The uploads -/

/-- Between two uploads: `rest` are the blobs still to be sent. -/
structure Uploading (sha256 : List UInt8 → String) (manifest : OciImageManifest) (rest : List OciDescriptor)
    (journal : List RegistryCall) : Prop where
  unsent : ∀ call ∈ journal, ¬call.sendsManifest
  count : ∀ digest, journal.countP (·.sends digest) + rest.countP (·.digest = digest) ≤ 1
  faithful : ∀ descriptor bytes answer, .uploadBlob descriptor bytes answer ∈ journal →
    descriptor ∈ manifest.blobs ∧ Verified sha256 descriptor bytes
  settled : ∀ descriptor ∈ manifest.blobs, Settled journal descriptor.digest ∨
    ∃ blob ∈ rest, blob.digest = descriptor.digest

namespace Uploading

variable {rest : List OciDescriptor}

theorem sent {blob : OciDescriptor} {bytes : List UInt8} (h : Uploading sha256 manifest (blob :: rest) journal)
    (hmem : blob ∈ manifest.blobs) (hbytes : Verified sha256 blob bytes) (answer : Except ImageError Unit) :
    (∀ call ∈ journal ++ [RegistryCall.uploadBlob blob bytes answer], ¬call.sendsManifest) ∧
      (∀ digest, (journal ++ [RegistryCall.uploadBlob blob bytes answer]).countP (·.sends digest) +
        rest.countP (·.digest = digest) ≤ 1) ∧
      Careful sha256 manifest (journal ++ [.uploadBlob blob bytes answer]) := by
  have hcount : ∀ digest, (journal ++ [RegistryCall.uploadBlob blob bytes answer]).countP (·.sends digest) +
      rest.countP (·.digest = digest) ≤ 1 := by
    intro digest
    have hbefore := h.count digest
    rw [List.countP_cons] at hbefore
    rw [List.countP_append, List.countP_singleton, RegistryCall.sends]
    by_cases hdigest : blob.digest = digest
    · simp only [hdigest, decide_true, if_true] at hbefore ⊢
      omega
    · simp only [hdigest, decide_false, Bool.false_eq_true, if_false] at hbefore ⊢
      omega
  refine ⟨?_, hcount, ?_, ?_⟩
  · intro call hcall
    rcases List.mem_append.mp hcall with hcall | hcall
    · exact h.unsent call hcall
    · rw [List.mem_singleton.mp hcall]
      exact id
  · intro digest
    exact le_trans (Nat.le_add_right _ _) (hcount digest)
  · intro descriptor bytes' answer' hcall
    rcases List.mem_append.mp hcall with hcall | hcall
    · exact h.faithful descriptor bytes' answer' hcall
    · cases List.mem_singleton.mp hcall
      exact ⟨hmem, hbytes⟩

theorem taken {blob : OciDescriptor} {bytes : List UInt8} (h : Uploading sha256 manifest (blob :: rest) journal)
    (hmem : blob ∈ manifest.blobs) (hbytes : Verified sha256 blob bytes) :
    Uploading sha256 manifest rest (journal ++ [.uploadBlob blob bytes (.ok ())]) := by
  obtain ⟨hunsent, hcount, hcareful⟩ := h.sent hmem hbytes (.ok ())
  refine ⟨hunsent, hcount, hcareful.faithful, ?_⟩
  intro descriptor hdescriptor
  rcases h.settled descriptor hdescriptor with hsettled | ⟨blob', hblob', heq⟩
  · left
    rcases hsettled with hexists | ⟨descriptor', bytes', huploaded, heq⟩
    · exact Or.inl (List.mem_append_left _ hexists)
    · exact Or.inr ⟨descriptor', bytes', List.mem_append_left _ huploaded, heq⟩
  · rcases List.mem_cons.mp hblob' with rfl | hblob'
    · exact Or.inl (Or.inr ⟨blob', bytes, List.mem_append_right _ (List.mem_singleton.mpr rfl), heq⟩)
    · exact Or.inr ⟨blob', hblob', heq⟩

theorem manifestSent (h : Uploading sha256 manifest [] journal) (reference : OciReference) (descriptor : OciDescriptor)
    (bytes : List UInt8) (answer : Except ImageError Unit) :
    Careful sha256 manifest (journal ++ [.uploadManifest reference descriptor bytes answer]) ∧
      Journal.Guarded RegistryCall.sendsManifest (fun before => ∀ blob ∈ manifest.blobs, Settled before blob.digest)
        (journal ++ [.uploadManifest reference descriptor bytes answer]) := by
  refine ⟨⟨?_, ?_⟩, ?_⟩
  · intro digest
    rw [List.countP_append]
    exact h.count digest
  · intro descriptor' bytes' answer' hcall
    rcases List.mem_append.mp hcall with hcall | hcall
    · exact h.faithful descriptor' bytes' answer' hcall
    · cases List.mem_singleton.mp hcall
  · refine (Journal.Guarded.of_none h.unsent).snoc ?_
    intro _ blob hblob
    rcases h.settled blob hblob with hsettled | ⟨_, hnone, _⟩
    · exact hsettled
    · cases hnone

end Uploading

/-- How a push ends: with everything sent, or early and without the manifest. -/
def Ends (sha256 : List UInt8 → String) (manifest : OciImageManifest) (stop : PushStop) (s : PushState σ) : Prop :=
  PushSafe sha256 manifest s.journal (.error stop)

theorem Asks.ends {stop : PushStop} {s : PushState σ} (hstop : stop ≠ .panic) (h : Asks s.journal) :
    Ends sha256 manifest stop s := by
  cases stop with
  | error error => exact .of_unsent h.careful h.unsent
  | panic => exact absurd rfl hstop

namespace LocalContentStore

variable {outside : Outside σ} {store : LocalContentStore} {plan : RegistryPushPlan} {checked : Checked}

theorem uploads_spec {manifestBytes : List UInt8} {manifestDescriptor : OciDescriptor}
    (hlocal : ∀ blob, firstWith manifest.blobs blob.digest = some blob →
      ∃ bytes, checked.localBlobs.get? blob.digest = some (blob, bytes) ∧ Verified sha256 blob bytes) :
    ∀ (blobs : List OciDescriptor) (s : PushState σ),
      (∀ blob ∈ blobs, firstWith manifest.blobs blob.digest = some blob) →
      Uploading sha256 manifest blobs s.journal →
      (Prog.forEach ((blobs.map fun descriptor => ⟨.blob, descriptor⟩) ++ [⟨.manifest, manifestDescriptor⟩])
        (upload outside plan manifestBytes checked)).wp
        (fun _ s' => Careful sha256 manifest s'.journal ∧
          Journal.Guarded RegistryCall.sendsManifest (fun before => ∀ blob ∈ manifest.blobs, Settled before blob.digest)
            s'.journal)
        (Ends sha256 manifest) s := by
  intro blobs
  induction blobs with
  | nil =>
      intro s _ h
      rw [List.map_nil, List.nil_append, Prog.forEach, wp_bind]
      simp only [upload, uploadManifest]
      apply wp_call
      · intro _ world
        rw [Prog.forEach, wp_pure]
        exact h.manifestSent _ _ _ _
      · intro error world
        obtain ⟨hcareful, hordered⟩ := h.manifestSent plan.reference manifestDescriptor manifestBytes (.error error)
        refine ⟨hcareful, hordered, ?_, by simp⟩
        intro _ _ reference descriptor bytes hmem
        rcases List.mem_append.mp hmem with hmem | hmem
        · exact h.unsent _ hmem trivial
        · cases List.mem_singleton.mp hmem
  | cons blob rest ih =>
      intro s hfirst h
      have hblob := hfirst blob List.mem_cons_self
      obtain ⟨bytes, hget, hbytes⟩ := hlocal blob hblob
      rw [List.map_cons, List.cons_append, Prog.forEach, wp_bind]
      simp only [upload, uploadBlob, hget]
      apply wp_call
      · intro _ world
        exact ih ⟨world, _⟩ (fun blob' hmem => hfirst blob' (List.mem_cons_of_mem _ hmem))
          (h.taken (firstWith_mem hblob).1 hbytes)
      · intro error world
        obtain ⟨hunsent, _, hcareful⟩ := h.sent (firstWith_mem hblob).1 hbytes (.error error)
        exact .of_unsent hcareful hunsent

/-- Whatever the file system and the registry answer, a push is safe. -/
theorem push_safe (sha256 : List UInt8 → String) (outside : Outside σ) (store : LocalContentStore)
    (reference : OciReference) (manifest : OciImageManifest) (world : σ) :
    PushSafe sha256 manifest (pushToRegistry sha256 outside store reference manifest ⟨world, []⟩).2.journal
      (pushToRegistry sha256 outside store reference manifest ⟨world, []⟩).1 := by
  have hrun : (pushToRegistry sha256 outside store reference manifest).wp
      (fun plan s => PushSafe sha256 manifest s.journal (.ok plan)) (Ends sha256 manifest) ⟨world, []⟩ := by
    have hnothing : Asks [] := fun _ h => nomatch h
    unfold pushToRegistry
    rw [wp_ite]
    by_cases hconfig : manifest.config.mediaType ≠ mediaTypeOciConfig
    · rw [if_pos hconfig, wp_throw]
      exact hnothing.ends (by simp)
    rw [if_neg hconfig, wp_bind]
    have hstart : Seen sha256 [] ⟨.empty, []⟩ [] :=
      ⟨hnothing, fun _ h => (nomatch h), fun _ => rfl, fun _ _ _ h => by simp at h⟩
    apply wp_mono (checkBlob_spec (s := ⟨world, []⟩) hstart manifest.config)
    · intro checked s hseen
      rw [wp_bind]
      apply wp_mono (checkLayers_spec manifest.layers _ checked s hseen)
      · intro checked s hseen
        rw [wp_bind]
        apply wp_checked
        · intro plan hplan
          obtain ⟨blobs, huploads, hdistinct, hfirst, hcovered⟩ := fromManifest_ok hplan
          rw [wp_bind, huploads]
          apply wp_mono
          · apply uploads_spec
            · intro blob hblob
              have hkept := hseen.first blob.digest
              rw [show [] ++ [manifest.config] ++ manifest.layers = manifest.blobs from rfl, hblob] at hkept
              obtain ⟨⟨_, bytes⟩, hget, rfl⟩ := Option.map_eq_some_iff.mp hkept
              exact ⟨bytes, hget, hseen.verified _ _ _ hget⟩
            · exact hfirst
            · refine ⟨hseen.asks.unsent, ?_, hseen.asks.careful.faithful, ?_⟩
              · intro digest
                rw [hseen.asks.count digest, Nat.zero_add]
                exact countP_digest_le_one hdistinct digest
              · intro descriptor hmem
                refine (hcovered descriptor hmem).imp_left ?_
                intro hremote
                exact Or.inl (hseen.remote _ hremote)
          · intro _ s' hdone
            rw [wp_pure]
            exact ⟨hdone.1, hdone.2, fun _ h => (nomatch h), by simp⟩
          · exact fun _ _ h => h
        · exact fun _ _ => hseen.asks.ends (by simp)
      · exact fun _ _ h => h.2.ends h.1
    · exact fun _ _ h => h.2.ends h.1
  rcases hend : pushToRegistry sha256 outside store reference manifest ⟨world, []⟩ with ⟨result, s⟩
  cases result with
  | ok plan =>
      have hsafe := wp_ok hrun hend
      exact hsafe
  | error stop =>
      have hsafe := wp_error hrun hend
      exact hsafe

end LocalContentStore

end Mcr.Image
