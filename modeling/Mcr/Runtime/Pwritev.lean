import Mcr.Runtime.Transfers
import Mcr.Vfs.Contents

/-!
# `pwritev2` and its offset

The offset comes in two registers. On a 64-bit machine the low one holds all of it; the code takes half of it from
each, so what lies above the low 32 bits of the low register is lost.
-/

namespace Mcr.Runtime

open Prog
open Vfs (Fd FdEntry VirtualFileSystem overlayBytes u64Limit)
open Vfs.VirtualFileSystem (sharedEntry sharedFile sharedFile_openToWrite sharedFile_plain)
open Net (LinuxErrno)

variable {σ ω μ : Type} [RuntimeMemoryAccess μ]

/-! ### The call -/

def linuxRwfDsync : UInt64 := 0x2
def linuxRwfSync : UInt64 := 0x4
def linuxRwfNoappend : UInt64 := 0x20
def linuxRwfSyncFlags : UInt64 := linuxRwfDsync ||| linuxRwfSync
def linuxRwfPwritev2Supported : UInt64 := linuxRwfDsync ||| linuxRwfSync ||| linuxRwfNoappend
def pwritev2UseFileOffset : UInt64 := 0xffffffffffffffff

/-- `u32::MAX` as a `u64`. -/
def u32Mask : UInt64 := 0xffffffff

def i64Max : UInt64 := 0x7fffffffffffffff

def pwritev2Offset (posL posH : UInt64) : Except LinuxErrno UInt64 :=
  let offset := ((posH &&& u32Mask) <<< 32) ||| (posL &&& u32Mask)
  if offset = pwritev2UseFileOffset then .ok offset
  else if i64Max < offset then .error einval
  else .ok offset

def syncFd (fd : Fd) : VirtualFileSystem.Call Unit := do
  let vfs ← .get
  let entry ← .ofExcept (vfs.fds.get fd)
  .ofExcept (Vfs.failIf (¬ (entry.file.kind = .regular ∨ entry.file.kind = .directory)) .invalidPath)

variable (outside : Outside σ ω)

def pwriteIovecs (fd : Fd) : List LinuxIovec → Nat → Nat → FsProg σ ω μ Nat
  | [], total, _ => pure total
  | iovec :: rest, total, nextOffset => do
    let count ← writeFrom (fun bytes => onVfs (VirtualFileSystem.pwrite outside.files fd nextOffset bytes))
      iovec.iovBase iovec.iovLen
    if u64Limit ≤ total + count then .throw einval
    else if u64Limit ≤ nextOffset + count then .throw einval
    else if count < iovec.iovLen then pure (total + count)
    else pwriteIovecs fd rest (total + count) (nextOffset + count)

def sysPwritev2 (fd : Fd) (addr count : Nat) (posL posH flags : UInt64) : FsProg σ ω μ Nat := do
  if flags &&& ~~~linuxRwfPwritev2Supported ≠ 0 then .throw .operationNotSupported
  else do
    let offset ← .ofExcept (pwritev2Offset posL posH)
    if offset = pwritev2UseFileOffset then sysWritev outside fd addr count
    else do
      let iov ← readIovecs addr count
      let bytesWritten ← pwriteIovecs outside fd iov 0 offset.toNat
      .when (flags &&& linuxRwfSyncFlags ≠ 0) (onVfs (syncFd fd))
      pure bytesWritten

/-! ### The buffers -/

/-- The vector's buffer lies in the memory, whichever way it is looked at. -/
structure Lies (memory : μ) (iovec : LinuxIovec) (buffer : List UInt8) : Prop where
  length : buffer.length = iovec.iovLen
  read : GuestMemoryAccess.readBytes iovec.iovBase iovec.iovLen memory = some buffer
  borrowed : RuntimeMemoryAccess.borrowedBytes iovec.iovBase iovec.iovLen memory = .ok none ∨
    RuntimeMemoryAccess.borrowedBytes iovec.iovBase iovec.iovLen memory = .ok (some buffer)

/-- A list of vectors in the memory, and their buffers, which together are no longer than a slice can be. -/
structure Listed (σ ω : Type) (memory : μ) (addr count : Nat) (iov : List LinuxIovec) (buffers : List (List UInt8)) :
    Prop where
  vectors : ∀ s : RuntimeFileSystem σ ω μ, s.memory = memory → readIovecs addr count s = (.ok iov, s)
  each : List.Forall₂ (Lies memory) iov buffers
  fits : buffers.flatten.length ≤ i64Max.toNat

omit [RuntimeMemoryAccess μ] in
theorem wp_onVfs {α : Type} {call : VirtualFileSystem.Call α} {s : RuntimeFileSystem σ ω μ}
    {Q : α → RuntimeFileSystem σ ω μ → Prop} {E : LinuxErrno → RuntimeFileSystem σ ω μ → Prop}
    (h : wp call (fun a vfs => Q a { s with vfs := vfs }) (fun _ _ => False) s.vfs) : wp (onVfs call) Q E s := by
  rw [onVfs, wp_mapError, wp_zoom]
  exact wp_mono h (fun _ _ hq => hq) (fun _ _ hfalse => hfalse.elim)

theorem wp_writeFrom {send : List UInt8 → FsProg σ ω μ Nat} {iovec : LinuxIovec} {buffer : List UInt8}
    {s : RuntimeFileSystem σ ω μ} {Q : Nat → RuntimeFileSystem σ ω μ → Prop}
    {E : LinuxErrno → RuntimeFileSystem σ ω μ → Prop} (hlies : Lies s.memory iovec buffer)
    (h : wp (send buffer) Q E s) : wp (writeFrom send iovec.iovBase iovec.iovLen) Q E s := by
  unfold writeFrom borrowedBytes readBytes
  rcases hlies.borrowed with hnone | hsome
  · rw [wp_bind, wp_bind, wp_get, hnone, wp_pure, wp_bind, wp_bind, wp_get, hlies.read, wp_pure]
    exact h
  · rw [wp_bind, wp_bind, wp_get, hsome, wp_pure]
    exact h

/-! ### Writing them one after the other -/

/-- What the loop leaves of the bytes: no vector, no write. -/
def laid (data : List UInt8) (offset : Nat) (iov : List LinuxIovec) (buffers : List (List UInt8)) : List UInt8 :=
  if iov = [] then data else overlayBytes data offset buffers.flatten

theorem laid_cons (data : List UInt8) (offset : Nat) (iovec : LinuxIovec) (rest : List LinuxIovec)
    (buffer : List UInt8) {buffers : List (List UInt8)} (hempty : rest = [] → buffers = []) :
    laid (overlayBytes data offset buffer) (offset + buffer.length) rest buffers =
      laid data offset (iovec :: rest) (buffer :: buffers) := by
  unfold laid
  rw [if_neg (List.cons_ne_nil _ _), List.flatten_cons]
  split
  · rw [hempty ‹_›, List.flatten_nil, List.append_nil]
  · rw [Vfs.overlayBytes_append]

theorem listed_empty {memory : μ} {iov : List LinuxIovec} {buffers : List (List UInt8)}
    (h : List.Forall₂ (Lies memory) iov buffers) (hempty : iov = []) : buffers = [] := by
  subst hempty
  cases h
  rfl

section Writes

variable {outside} {fd : Fd} {entry : FdEntry} {memory : μ}

structure Written (outside : Outside σ ω) (s s' : RuntimeFileSystem σ ω μ) (fd : Fd) (entry : FdEntry)
    (data : List UInt8) : Prop where
  memory : s'.memory = s.memory
  file : s'.vfs.OpenToWrite outside.files fd entry data
  rewrites : s.vfs.Rewrites outside.files s'.vfs entry.inodeId data

theorem pwriteIovecs_writes {iov : List LinuxIovec} {buffers : List (List UInt8)}
    (hlies : List.Forall₂ (Lies memory) iov buffers) : ∀ {s : RuntimeFileSystem σ ω μ} {data : List UInt8}
    {total nextOffset : Nat}, s.memory = memory → s.vfs.OpenToWrite outside.files fd entry data →
    total + buffers.flatten.length < u64Limit → nextOffset + buffers.flatten.length < u64Limit →
    wp (pwriteIovecs outside fd iov total nextOffset)
      (fun count s' => count = total + buffers.flatten.length ∧
        Written outside s s' fd entry (laid data nextOffset iov buffers) ∧ s'.vfs.shared = s.vfs.shared)
      (fun _ _ => False) s := by
  induction hlies with
  | nil =>
      intro s data total nextOffset _ hopen _ _
      exact (wp_pure _).mpr ⟨rfl, ⟨rfl, hopen, hopen.unchanged⟩, rfl⟩
  | @cons iovec buffer rest buffers hbuffer hrest ih =>
      intro s data total nextOffset hmemory hopen htotal hnext
      rw [List.flatten_cons, List.length_append] at htotal hnext
      unfold pwriteIovecs
      rw [wp_bind]
      refine wp_writeFrom (hmemory ▸ hbuffer) (wp_onVfs ?_)
      refine wp_mono (VirtualFileSystem.pwrite_rewrites hopen (by omega)) ?_ (fun _ _ hfalse => hfalse)
      rintro count vfs' ⟨rfl, hopen', hrewrites, hshared⟩
      rw [if_neg (by omega), if_neg (by omega), if_neg (by rw [hbuffer.length]; omega)]
      refine wp_mono (ih (s := { s with vfs := vfs' }) hmemory hopen' (by omega) (by omega)) ?_
        (fun _ _ hfalse => hfalse)
      rintro count s' ⟨rfl, hwritten, hshared'⟩
      rw [laid_cons data nextOffset iovec rest buffer (listed_empty hrest)] at hwritten
      refine ⟨?_, ⟨hwritten.memory, hwritten.file, hrewrites.trans hwritten.rewrites⟩, hshared'.trans hshared⟩
      rw [List.flatten_cons, List.length_append, Nat.add_assoc]

variable (outside) in
omit [RuntimeMemoryAccess μ] in
theorem moveIovecs_writes {move : LinuxIovec → FsProg σ ω μ Nat} {iov : List LinuxIovec} {buffers : List (List UInt8)}
    (hmove : List.Forall₂ (fun iovec buffer => buffer.length = iovec.iovLen ∧ ∀ {s : RuntimeFileSystem σ ω μ}
      {data : List UInt8} {offset : Nat}, s.memory = memory → s.vfs.OpenToWrite outside.files fd entry data →
      s.vfs.PlainAt entry offset → offset + buffer.length < u64Limit →
      wp (move iovec) (fun count s' => count = buffer.length ∧
        Written outside s s' fd entry (overlayBytes data offset buffer) ∧
        s'.vfs.PlainAt entry (offset + buffer.length)) (fun _ _ => False) s) iov buffers) :
    ∀ {s : RuntimeFileSystem σ ω μ} {data : List UInt8} {total offset : Nat}, s.memory = memory →
    s.vfs.OpenToWrite outside.files fd entry data → s.vfs.PlainAt entry offset →
    total + buffers.flatten.length < u64Limit → offset + buffers.flatten.length < u64Limit →
    wp (moveIovecs move iov total)
      (fun count s' => count = total + buffers.flatten.length ∧
        Written outside s s' fd entry (laid data offset iov buffers) ∧
        s'.vfs.PlainAt entry (offset + buffers.flatten.length)) (fun _ _ => False) s := by
  induction hmove with
  | nil =>
      intro s data total offset _ hopen hplain _ _
      exact (wp_pure _).mpr ⟨rfl, ⟨rfl, hopen, hopen.unchanged⟩, hplain⟩
  | @cons iovec buffer rest buffers hbuffer hrest ih =>
      intro s data total offset hmemory hopen hplain htotal hnext
      rw [List.flatten_cons, List.length_append] at htotal hnext
      unfold moveIovecs
      rw [wp_bind]
      refine wp_mono (hbuffer.2 hmemory hopen hplain (by omega)) ?_ (fun _ _ hfalse => hfalse)
      rintro count s' ⟨rfl, hwritten, hplain'⟩
      rw [if_neg (by omega), if_neg (by rw [hbuffer.1]; omega)]
      refine wp_mono (ih (hwritten.memory.trans hmemory) hwritten.file hplain' (by omega) (by omega)) ?_
        (fun _ _ hfalse => hfalse)
      rintro count s'' ⟨rfl, hwritten', hplain''⟩
      have hempty : rest = [] → buffers = [] := by
        rintro rfl
        cases hrest
        rfl
      rw [laid_cons data offset iovec rest buffer hempty] at hwritten'
      rw [Nat.add_assoc] at hplain''
      refine ⟨?_, ⟨hwritten'.memory.trans hwritten.memory, hwritten'.file,
        hwritten.rewrites.trans hwritten'.rewrites⟩, ?_⟩
      · rw [List.flatten_cons, List.length_append, Nat.add_assoc]
      · rw [List.flatten_cons, List.length_append]
        exact hplain''

/-! ### The two calls -/

omit [RuntimeMemoryAccess μ] in
theorem socketIdForFdOrNone_file {s : RuntimeFileSystem σ ω μ} {data : List UInt8}
    (hopen : s.vfs.OpenToWrite outside.files fd entry data) : socketIdForFdOrNone fd s = (.ok none, s) := by
  have hnone : (vfsSocketIdForFd fd s.vfs).1 = .error .notSocket := by
    have hrun : wp (vfsSocketIdForFd fd) (fun _ _ => False) (fun error _ => error = .notSocket) s.vfs := by
      unfold vfsSocketIdForFd
      rw [wp_bind, wp_get, wp_bind, VirtualFileSystem.fds_get hopen.held, wp_ofExcept]
      simp only
      split
      · exact (hopen.notSocket _ ‹_›).elim
      · exact (wp_throw _).mpr rfl
    rcases hresult : vfsSocketIdForFd fd s.vfs with ⟨r, vfs'⟩
    cases r with
    | ok id => exact (wp_ok hrun hresult).elim
    | error error => rw [wp_error hrun hresult]
  unfold socketIdForFdOrNone
  rw [run_bind_ok (show Prog.get s = (.ok s, s) from rfl), hnone]
  rfl

theorem canRegularWritevFastPath_file {vfs : VirtualFileSystem} {data : List UInt8}
    (hopen : vfs.OpenToWrite outside.files fd entry data) :
    wp (canRegularWritevFastPath fd) (fun fast vfs' => fast = true ∧ vfs' = vfs) (fun _ _ => False) vfs := by
  unfold canRegularWritevFastPath
  rw [wp_bind, wp_get, wp_bind, VirtualFileSystem.fds_get hopen.held, wp_ofExcept]
  simp only
  rw [Vfs.wp_failIf, if_neg (by rw [hopen.mode]; exact Bool.noConfusion), wp_pure]
  exact ⟨decide_eq_true hopen.kind, rfl⟩

theorem readIovecBuffers_reads {iov : List LinuxIovec} {buffers : List (List UInt8)} {s : RuntimeFileSystem σ ω μ}
    (hlies : List.Forall₂ (Lies s.memory) iov buffers) : readIovecBuffers iov s = (.ok buffers, s) := by
  induction hlies with
  | nil => rfl
  | @cons iovec buffer rest buffers hbuffer hrest ih =>
      have hread : readBytes iovec.iovBase iovec.iovLen s = (.ok buffer, s) := by
        unfold readBytes
        rw [run_bind_ok (show Prog.get s = (.ok s, s) from rfl), hbuffer.read]
        rfl
      unfold readIovecBuffers at ih ⊢
      rw [collect, run_bind_ok hread, run_bind_ok ih]
      rfl

theorem borrowed_writes {iovec : LinuxIovec} {buffer bytes : List UInt8} (hlies : Lies memory iovec buffer)
    (hborrowed : RuntimeMemoryAccess.borrowedBytes iovec.iovBase iovec.iovLen memory = .ok (some bytes))
    {s : RuntimeFileSystem σ ω μ} {data : List UInt8} {offset : Nat} (hmemory : s.memory = memory)
    (hopen : s.vfs.OpenToWrite outside.files fd entry data) (hplain : s.vfs.PlainAt entry offset)
    (hfits : offset + buffer.length < u64Limit) :
    wp (do
      match ← borrowedBytes iovec.iovBase iovec.iovLen with
      | some bytes => sendTo outside none fd bytes
      | none => .throw efault)
      (fun count s' => count = buffer.length ∧
        Written outside s s' fd entry (overlayBytes data offset buffer) ∧
        s'.vfs.PlainAt entry (offset + buffer.length)) (fun _ _ => False) s := by
  have hbytes : bytes = buffer := by
    rcases hlies.borrowed with hnone | hsome
    · rw [hborrowed] at hnone
      cases hnone
    · rw [hborrowed] at hsome
      cases hsome
      rfl
  subst hbytes
  unfold borrowedBytes
  rw [wp_bind, wp_bind, wp_get, hmemory, hborrowed, wp_pure]
  simp only
  refine wp_onVfs (wp_mono (VirtualFileSystem.write_rewrites hopen hplain hfits) ?_ (fun _ _ hfalse => hfalse))
  rintro _ vfs' ⟨rfl, hopen', hrewrites, hplain'⟩
  exact ⟨rfl, ⟨rfl, hopen', hrewrites⟩, hplain'⟩

theorem sysWritev_writes {addr count : Nat} {iov : List LinuxIovec} {buffers : List (List UInt8)}
    (hlisted : Listed σ ω memory addr count iov buffers) {s : RuntimeFileSystem σ ω μ} {data : List UInt8} {offset : Nat}
    (hmemory : s.memory = memory) (hopen : s.vfs.OpenToWrite outside.files fd entry data)
    (hplain : s.vfs.PlainAt entry offset) (hinside : offset ≤ data.length)
    (hfits : offset + buffers.flatten.length < u64Limit) :
    wp (sysWritev outside fd addr count)
      (fun count s' => count = buffers.flatten.length ∧
        Written outside s s' fd entry (overlayBytes data offset buffers.flatten) ∧
        s'.vfs.PlainAt entry (offset + buffers.flatten.length)) (fun _ _ => False) s := by
  have hlies : List.Forall₂ (Lies s.memory) iov buffers := hmemory ▸ hlisted.each
  have hlaid : laid data offset iov buffers = overlayBytes data offset buffers.flatten := by
    unfold laid
    split
    · rw [listed_empty hlies ‹_›, List.flatten_nil, Vfs.overlayBytes_nil hinside]
    · rfl
  unfold sysWritev
  rw [wp_bind]
  apply wp_of_run (hlisted.vectors s hmemory)
  rw [wp_bind]
  apply wp_of_run (socketIdForFdOrNone_file hopen)
  simp only
  rw [wp_bind]
  refine wp_onVfs (wp_mono (canRegularWritevFastPath_file hopen) ?_ (fun _ _ hfalse => hfalse))
  rintro _ _ ⟨rfl, rfl⟩
  unfold writevFrom iovecsAreBorrowable
  rw [wp_bind, wp_bind, wp_get, wp_pure]
  split
  · rename_i hall
    have hborrowed : ∀ iovec ∈ iov, ∃ bytes,
        RuntimeMemoryAccess.borrowedBytes iovec.iovBase iovec.iovLen memory = .ok (some bytes) := by
      intro iovec hiovec
      have hone := List.all_eq_true.mp hall iovec hiovec
      rw [hmemory] at hone
      split at hone
      · exact ⟨_, ‹_›⟩
      · cases hone
    have hboth := (List.forall₂_and_left _ _).mpr ⟨hborrowed, hlisted.each⟩
    rw [← hlaid]
    refine wp_mono (moveIovecs_writes outside (hboth.imp ?_) hmemory hopen hplain (by omega) hfits) ?_
      (fun _ _ hfalse => hfalse)
    · rintro iovec buffer ⟨⟨bytes, hbytes⟩, hone⟩
      exact ⟨hone.length, fun hmemory hopen hplain hfits =>
        borrowed_writes hone hbytes hmemory hopen hplain hfits⟩
    · rintro total s' ⟨htotal, hwritten⟩
      exact ⟨htotal.trans (Nat.zero_add _), hwritten⟩
  · rw [if_pos rfl, wp_bind]
    apply wp_of_run (readIovecBuffers_reads hlies)
    rw [wp_bind]
    refine wp_onVfs (wp_mono (VirtualFileSystem.writevRegular_rewrites hopen hplain hinside hfits) ?_
      (fun _ _ hfalse => hfalse))
    rintro _ vfs' ⟨rfl, hopen', hrewrites, hplain'⟩
    exact (wp_pure _).mpr ⟨rfl, ⟨rfl, hopen', hrewrites⟩, hplain'⟩

/-- With nothing in the high register, the offset is what the low 32 bits of the other hold. -/
theorem pwritev2Offset_zero (posL : UInt64) : ∃ offset, pwritev2Offset posL 0 = .ok offset ∧
    offset ≠ pwritev2UseFileOffset ∧ offset.toNat = posL.toNat % 2 ^ 32 := by
  have hoffset : (((0 : UInt64) &&& u32Mask) <<< 32) ||| (posL &&& u32Mask) = posL &&& u32Mask := by simp
  have hmod : (posL &&& u32Mask).toNat = posL.toNat % 2 ^ 32 := by
    rw [UInt64.toNat_and, show u32Mask.toNat = 2 ^ 32 - 1 from rfl, Nat.and_two_pow_sub_one_eq_mod]
  have hlow : (posL &&& u32Mask).toNat < 2 ^ 32 := by
    rw [hmod]
    exact Nat.mod_lt _ (by decide)
  have hfile : posL &&& u32Mask ≠ pwritev2UseFileOffset := by
    intro heq
    rw [heq] at hlow
    exact absurd hlow (by decide)
  refine ⟨_, ?_, hfile, hmod⟩
  unfold pwritev2Offset
  rw [hoffset, if_neg hfile, if_neg]
  rw [UInt64.lt_iff_toNat_lt, show i64Max.toNat = 2 ^ 63 - 1 from rfl]
  omega

theorem sysPwritev2_writes {addr count : Nat} {iov : List LinuxIovec} {buffers : List (List UInt8)}
    (hlisted : Listed σ ω memory addr count iov buffers) {flags : UInt64}
    (hflags : flags &&& ~~~linuxRwfPwritev2Supported = 0) (posL : UInt64) {s : RuntimeFileSystem σ ω μ} {data : List UInt8}
    (hmemory : s.memory = memory) (hopen : s.vfs.OpenToWrite outside.files fd entry data) :
    wp (sysPwritev2 outside fd addr count posL 0 flags)
      (fun count s' => count = buffers.flatten.length ∧
        Written outside s s' fd entry (laid data (posL.toNat % 2 ^ 32) iov buffers) ∧ s'.vfs.shared = s.vfs.shared)
      (fun _ _ => False) s := by
  obtain ⟨offset, hoffset, hfile, hlow⟩ := pwritev2Offset_zero posL
  have hsmall : offset.toNat < 2 ^ 32 := by
    rw [hlow]
    exact Nat.mod_lt _ (by decide)
  have hfits := hlisted.fits
  rw [show i64Max.toNat = 2 ^ 63 - 1 from rfl] at hfits
  have hlimit : u64Limit = 2 ^ 64 := rfl
  unfold sysPwritev2
  rw [if_neg (not_not.mpr hflags), wp_bind, hoffset, wp_ofExcept]
  simp only
  rw [if_neg hfile, wp_bind]
  apply wp_of_run (hlisted.vectors s hmemory)
  rw [wp_bind, ← hlow]
  refine wp_mono (pwriteIovecs_writes hlisted.each hmemory hopen (by omega) (by omega)) ?_ (fun _ _ hfalse => hfalse)
  rintro written s' ⟨hcount, hwritten, hshared⟩
  rw [wp_bind, wp_when]
  rw [Nat.zero_add] at hcount
  split
  · refine wp_onVfs ?_
    unfold syncFd
    rw [wp_bind, wp_get, wp_bind, VirtualFileSystem.fds_get hwritten.file.held, wp_ofExcept]
    simp only
    rw [wp_ofExcept, Vfs.failIf, if_neg (not_not.mpr (Or.inl hwritten.file.kind))]
    exact (wp_pure _).mpr ⟨hcount, hwritten, hshared⟩
  · exact (wp_pure _).mpr ⟨hcount, hwritten, hshared⟩

end Writes

/-! ### The convention -/

/-- Alike for the caller: the answers, the descriptors with their offsets, and the bytes of all files. -/
structure SameOutcome (outside : Outside σ ω) (call call' : Except LinuxErrno Nat × RuntimeFileSystem σ ω μ) : Prop where
  answer : call.1 = call'.1
  fds : call.2.vfs.fds = call'.2.vfs.fds
  shared : call.2.vfs.shared = call'.2.vfs.shared
  contents : ∀ j, call.2.vfs.contentAt outside.files j = call'.2.vfs.contentAt outside.files j

/-- The call answered so, left these bytes in the file, and moved no offset. -/
structure Left (outside : Outside σ ω) (s : RuntimeFileSystem σ ω μ)
    (call : Except LinuxErrno Nat × RuntimeFileSystem σ ω μ) (entry : FdEntry) (answer : Except LinuxErrno Nat)
    (data : List UInt8) : Prop where
  answer : call.1 = answer
  rewrites : s.vfs.Rewrites outside.files call.2.vfs entry.inodeId data
  shared : call.2.vfs.shared = s.vfs.shared

/-- The offset convention of a 64-bit caller, for one call. -/
def Honours (outside : Outside σ ω) (s : RuntimeFileSystem σ ω μ) (fd : Fd) (entry : FdEntry) (data : List UInt8)
    (addr count : Nat) (posL flags : UInt64) (bytes : List UInt8) : Prop :=
  let call := sysPwritev2 outside fd addr count posL 0 flags s
  if posL ≤ i64Max then
    Left outside s call entry (.ok bytes.length) (if bytes = [] then data else overlayBytes data posL.toNat bytes)
  else if posL = pwritev2UseFileOffset then SameOutcome outside call (sysWritev outside fd addr count s)
  else Left outside s call entry (.error einval) data

/-- The calls that keep to it: the offset is less than 2^32. Where there are no bytes to write it may be more, as
long as the vectors' places do not show. -/
def Honoured (posL : UInt64) (iov : List LinuxIovec) (bytes : List UInt8) : Prop :=
  if bytes ≠ [] then posL.toNat < 2 ^ 32
  else if iov = [] then posL ≤ i64Max ∨ posL = pwritev2UseFileOffset
  else posL ≤ i64Max ∧ posL.toNat % 2 ^ 32 = 0

instance (posL : UInt64) (iov : List LinuxIovec) (bytes : List UInt8) : Decidable (Honoured posL iov bytes) :=
  inferInstanceAs (Decidable (if bytes ≠ [] then posL.toNat < 2 ^ 32
    else if iov = [] then posL ≤ i64Max ∨ posL = pwritev2UseFileOffset
    else posL ≤ i64Max ∧ posL.toNat % 2 ^ 32 = 0))

section Convention

variable {outside} {net : Net.NetState σ ω} {memory : μ} {addr count : Nat} {iov : List LinuxIovec}
  {buffers : List (List UInt8)} {flags posL : UInt64}

omit [RuntimeMemoryAccess μ] in
theorem wp_runs {α : Type} {m : FsProg σ ω μ α} {Q : α → RuntimeFileSystem σ ω μ → Prop} {s : RuntimeFileSystem σ ω μ}
    (h : wp m Q (fun _ _ => False) s) : ∃ a s', m s = (.ok a, s') ∧ Q a s' := by
  rcases hm : m s with ⟨r, s'⟩
  cases r with
  | ok a => exact ⟨a, s', rfl, wp_ok h hm⟩
  | error e => exact (wp_error h hm).elim

theorem sysWritev_nothing (hlisted : Listed σ ω memory addr count [] buffers) {s : RuntimeFileSystem σ ω μ} {fd : Fd}
    {entry : FdEntry} {data : List UInt8} (hmemory : s.memory = memory)
    (hopen : s.vfs.OpenToWrite outside.files fd entry data) :
    wp (sysWritev outside fd addr count) (fun count s' => count = 0 ∧ s' = s) (fun _ _ => False) s := by
  unfold sysWritev
  rw [wp_bind]
  apply wp_of_run (hlisted.vectors s hmemory)
  rw [wp_bind]
  apply wp_of_run (socketIdForFdOrNone_file hopen)
  simp only
  rw [wp_bind]
  refine wp_onVfs (wp_mono (canRegularWritevFastPath_file hopen) ?_ (fun _ _ hfalse => hfalse))
  rintro _ _ ⟨rfl, rfl⟩
  unfold writevFrom iovecsAreBorrowable
  rw [wp_bind, wp_bind, wp_get, wp_pure, List.all_nil, if_pos rfl, moveIovecs, wp_pure]
  exact ⟨rfl, rfl⟩

/-- Below 2^32 the call keeps to the convention, on every file. -/
theorem honours_of_honoured (hlisted : Listed σ ω memory addr count iov buffers)
    (hflags : flags &&& ~~~linuxRwfPwritev2Supported = 0) (h : Honoured posL iov buffers.flatten)
    {vfs : VirtualFileSystem} {fd : Fd} {entry : FdEntry} {data : List UInt8}
    (hopen : vfs.OpenToWrite outside.files fd entry data) :
    Honours outside ⟨vfs, memory, net⟩ fd entry data addr count posL flags buffers.flatten := by
  obtain ⟨written, s', hrun, rfl, hwritten, hshared⟩ := wp_runs
    (sysPwritev2_writes (s := ⟨vfs, memory, net⟩) hlisted hflags posL rfl hopen)
  have hlaid {bytes : List UInt8} (hbytes : laid data (posL.toNat % 2 ^ 32) iov buffers = bytes) :
      Left outside ⟨vfs, memory, net⟩ (.ok buffers.flatten.length, s') entry (.ok buffers.flatten.length) bytes :=
    ⟨rfl, hbytes ▸ hwritten.rewrites, hshared⟩
  unfold Honours
  simp only
  rw [hrun]
  unfold Honoured at h
  by_cases hbytes : buffers.flatten = []
  · rw [if_neg (not_not.mpr hbytes)] at h
    by_cases hiov : iov = []
    · rw [if_pos hiov] at h
      have hsame : laid data (posL.toNat % 2 ^ 32) iov buffers = data := if_pos hiov
      split
      · exact hlaid hsame
      · rename_i hbig
        rw [if_pos (h.resolve_left hbig)]
        subst hiov
        obtain ⟨_, _, hnothing, rfl, rfl⟩ := wp_runs
          (sysWritev_nothing (s := ⟨vfs, memory, net⟩) hlisted rfl hopen)
        rw [hnothing, hbytes]
        refine ⟨rfl, hwritten.rewrites.fds, hshared, fun j => ?_⟩
        rw [hwritten.rewrites.contents j, hsame, ← hopen.unchanged.contents j]
    · rw [if_neg hiov] at h
      rw [if_pos h.1, if_pos hbytes]
      apply hlaid
      unfold laid
      rw [if_neg hiov, h.2, hbytes, Vfs.overlayBytes_nil (Nat.zero_le _)]
  · rw [if_pos hbytes] at h
    have hsmall : posL ≤ i64Max := by
      rw [UInt64.le_iff_toNat_le, show i64Max.toNat = 2 ^ 63 - 1 from rfl]
      omega
    have hiov : iov ≠ [] := fun hempty => hbytes (by rw [listed_empty hlisted.each hempty, List.flatten_nil])
    rw [if_pos hsmall, if_neg hbytes]
    apply hlaid
    unfold laid
    rw [if_neg hiov, Nat.mod_eq_of_lt h]

/-- Any other call breaks it already on an empty file at offset zero. -/
theorem honoured_of_honours (hlisted : Listed σ ω memory addr count iov buffers)
    (hflags : flags &&& ~~~linuxRwfPwritev2Supported = 0)
    (h : Honours outside ⟨sharedFile, memory, net⟩ 0 sharedEntry [] addr count posL flags
      buffers.flatten) : Honoured posL iov buffers.flatten := by
  obtain ⟨_, s', hrun, rfl, hwritten, hshared⟩ := wp_runs
    (sysPwritev2_writes (s := ⟨sharedFile, memory, net⟩) hlisted hflags posL rfl (sharedFile_openToWrite outside.files))
  have hcontent := hwritten.rewrites.contents sharedEntry.inodeId
  rw [if_pos rfl] at hcontent
  have hlow : posL.toNat % 2 ^ 32 < 2 ^ 32 := Nat.mod_lt _ (by decide)
  have hlength (hiov : iov ≠ []) : (laid [] (posL.toNat % 2 ^ 32) iov buffers).length =
      posL.toNat % 2 ^ 32 + buffers.flatten.length := by
    unfold laid
    rw [if_neg hiov, Vfs.length_overlayBytes, List.length_nil, Nat.zero_max]
  have hbytesIov : buffers.flatten ≠ [] → iov ≠ [] := fun hbytes hempty =>
    hbytes (by rw [listed_empty hlisted.each hempty, List.flatten_nil])
  have hfits := hlisted.fits
  rw [show i64Max.toNat = 2 ^ 63 - 1 from rfl] at hfits
  obtain ⟨_, s'', hrun', rfl, hwritten', hplain'⟩ := wp_runs
    (sysWritev_writes (s := ⟨sharedFile, memory, net⟩) hlisted rfl (sharedFile_openToWrite outside.files)
      sharedFile_plain (Nat.le_refl 0) (by rw [Nat.zero_add]; exact Nat.lt_of_le_of_lt hfits (by decide)))
  unfold Honours at h
  simp only at h
  rw [hrun] at h
  split at h
  · -- the place of the bytes shows in the length of the file
    rename_i hsmall
    have heq := hcontent.symm.trans (h.rewrites.contents sharedEntry.inodeId)
    rw [if_pos rfl] at heq
    have heqLength := congrArg List.length (Option.some.inj heq)
    unfold Honoured
    by_cases hbytes : buffers.flatten = []
    · rw [if_neg (not_not.mpr hbytes)]
      split
      · exact Or.inl hsmall
      · rw [hlength ‹_›, if_pos hbytes, hbytes, List.length_nil] at heqLength
        exact ⟨hsmall, heqLength⟩
    · rw [hlength (hbytesIov hbytes), if_neg hbytes, Vfs.length_overlayBytes, List.length_nil, Nat.zero_max]
        at heqLength
      rw [if_pos hbytes]
      omega
  · split at h
    · -- `writev` moves the offset, and leaves no gap
      rename_i hfile
      rw [hrun'] at h
      have hoffset : (0 : Nat) = 0 + buffers.flatten.length := by
        rw [← hplain'.2, ← sharedFile_plain.2]
        unfold VirtualFileSystem.offsetOf
        rw [← h.shared, hshared]
      have hbytes : buffers.flatten = [] := List.eq_nil_of_length_eq_zero (by omega)
      unfold Honoured
      rw [if_neg (not_not.mpr hbytes)]
      split
      · exact Or.inr hfile
      · have heq := hcontent.symm.trans ((h.contents _).trans (hwritten'.rewrites.contents _))
        rw [if_pos rfl] at heq
        have heqLength := congrArg List.length (Option.some.inj heq)
        rw [hlength ‹_›, hbytes, hfile] at heqLength
        exact absurd heqLength (by decide)
    · nomatch h.answer

/-- Over all files, the calls that keep to the offset convention are those with an offset below 2^32, and the few
that write no bytes and whose places do not show. -/
theorem pwritev2_honours_iff (outside : Outside σ ω) (net : Net.NetState σ ω)
    (hlisted : Listed σ ω memory addr count iov buffers) (hflags : flags &&& ~~~linuxRwfPwritev2Supported = 0) :
    (∀ vfs fd entry data, VirtualFileSystem.OpenToWrite outside.files vfs fd entry data →
      Honours outside ⟨vfs, memory, net⟩ fd entry data addr count posL flags buffers.flatten) ↔
    Honoured posL iov buffers.flatten := by
  constructor
  · intro h
    exact honoured_of_honours hlisted hflags (h _ _ _ _ (sharedFile_openToWrite outside.files))
  · intro h vfs fd entry data hopen
    exact honours_of_honoured hlisted hflags h hopen

end Convention

/-! ### One list of vectors -/

/-- Two vectors, over three bytes. -/
def vectorMemory : FlatMemory :=
  ⟨[32, 0, 0, 0, 0, 0, 0, 0, 2, 0, 0, 0, 0, 0, 0, 0, 34, 0, 0, 0, 0, 0, 0, 0, 1, 0, 0, 0, 0, 0, 0, 0, 7, 8, 9]⟩

open Net (ListenerWorld listenerHost)

def quietOutside : Outside Unit ListenerWorld :=
  ⟨.empty, listenerHost, ⟨fun bytes => pure bytes.length, fun buffers => pure buffers.flatten.length⟩⟩

theorem vectorMemory_listed :
    Listed Unit ListenerWorld vectorMemory 0 2 [⟨32, 2⟩, ⟨34, 1⟩] [[7, 8], [9]] := by
  refine ⟨?_, .cons ⟨rfl, rfl, Or.inl rfl⟩ (.cons ⟨rfl, rfl, Or.inl rfl⟩ .nil), by decide⟩
  rintro ⟨vfs, memory, net⟩ hmemory
  cases hmemory
  rfl

theorem sharedFile_honours :
    Honours quietOutside ⟨sharedFile, vectorMemory, ⟨.new true, ⟨[], []⟩⟩⟩ 0
      sharedEntry [] 0 2 5 linuxRwfNoappend [7, 8, 9] := by
  have hsmall : Honoured 5 [⟨32, 2⟩, ⟨34, 1⟩] [[7, 8], [9]].flatten := by decide
  exact (pwritev2_honours_iff quietOutside ⟨.new true, ⟨[], []⟩⟩ vectorMemory_listed (by decide)).mpr hsmall _ _ _ _
    (sharedFile_openToWrite .empty)

/-- At 2^32 the bytes go to the beginning of the file. -/
theorem fourGigabytes_truncated :
    ¬∀ (posL : UInt64) (vfs : VirtualFileSystem) (fd : Fd) (entry : FdEntry) (data : List UInt8),
      VirtualFileSystem.OpenToWrite quietOutside.files vfs fd entry data →
      Honours quietOutside ⟨vfs, vectorMemory, ⟨.new true, ⟨[], []⟩⟩⟩ fd entry data 0 2 posL 0 [7, 8, 9] := by
  intro h
  have hhonoured : Honoured 0x100000000 [⟨32, 2⟩, ⟨34, 1⟩] [[7, 8], [9]].flatten :=
    honoured_of_honours vectorMemory_listed (UInt64.zero_and) (h _ _ _ _ _ (sharedFile_openToWrite .empty))
  exact absurd hhonoured (by decide)

end Mcr.Runtime
