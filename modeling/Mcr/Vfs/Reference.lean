import Mathlib.Data.List.SplitLengths
import Mcr.Vfs.FileReads

/-!
# Files as arrays of bytes

What regular files are for, in terms of their own: a file is an array of bytes whose size is its length, a
description carries an offset, and descriptors share descriptions. A write fills the gap before it with zeros, a
write of no bytes does nothing, the positioned calls move no offset, and the vectored calls are the plain ones on
the buffers put together. `VirtualFileSystem.reference` reads such a state off a file system. A call that would make
a `Vec` longer than `isize::MAX` panics, and a run of the calls ends there.
-/

namespace Mcr.Vfs

/-- The bytes of a file and the times of their last change. -/
structure RefFile where
  data : List UInt8
  mtimeNsec : Int
  ctimeNsec : Int
deriving DecidableEq, Repr

structure RefDescription where
  offset : Nat
  append : Bool
  canRead : Bool
  canWrite : Bool
deriving DecidableEq, Repr

structure Reference where
  file : InodeId → Option RefFile
  description : DescriptionId → RefDescription
  handle : Fd → Option (DescriptionId × InodeId)

/-- The calls on a regular file. Offsets and lengths that the code takes as `u64` are no larger. -/
inductive FileOp
  | read (fd : Fd) (len : Nat)
  | readvRegular (fd : Fd) (buffers : List (List UInt8))
  | pread (fd : Fd) (offset : UInt64) (len : Nat)
  | write (fd : Fd) (bytes : List UInt8)
  | writevRegular (fd : Fd) (buffers : List (List UInt8))
  | pwrite (fd : Fd) (offset : UInt64) (bytes : List UInt8)
  | lseek (fd : Fd) (offset : Int) (whence : SeekWhence)
  | ftruncate (fd : Fd) (length : UInt64)
  | fallocate (fd : Fd) (offset length : UInt64)
  | fstat (fd : Fd)
deriving DecidableEq, Repr

def FileOp.fd : FileOp → Fd
  | .read fd _ | .readvRegular fd _ | .pread fd _ _ | .write fd _ | .writevRegular fd _ | .pwrite fd _ _
  | .lseek fd _ _ | .ftruncate fd _ | .fallocate fd _ _ | .fstat fd => fd

inductive FileAnswer
  | bytes (bytes : List UInt8)
  | buffers (count : Nat) (buffers : List (List UInt8))
  | count (count : Nat)
  | offset (offset : Nat)
  | done
  | status (size : Nat) (mtimeNsec ctimeNsec : Int)
  | notRegular
  | panicked
deriving DecidableEq, Repr

/-! ### Arrays -/

/-- `bytes` at `offset`, with zeros where the array ended before. -/
def overlayBytes (data : List UInt8) (offset : Nat) (bytes : List UInt8) : List UInt8 :=
  data.take offset ++ List.replicate (offset - data.length) 0 ++ bytes ++ data.drop (offset + bytes.length)

theorem length_overlayBytes (data : List UInt8) (offset : Nat) (bytes : List UInt8) :
    (overlayBytes data offset bytes).length = max data.length (offset + bytes.length) := by
  simp only [overlayBytes, List.length_append, List.length_take, List.length_replicate, List.length_drop]
  omega

/-- Growing first and copying into place afterwards is the same. -/
theorem overwriteAt_resized (data : List UInt8) (offset : Nat) (bytes : List UInt8) :
    overwriteAt (if data.length < offset + bytes.length then resizeBytes data (offset + bytes.length) else data)
      offset bytes = overlayBytes data offset bytes := by
  unfold overwriteAt overlayBytes
  split
  · rename_i hgrows
    have htake : data.take (offset + bytes.length) = data := List.take_of_length_le (by omega)
    have hlength : (data ++ List.replicate (offset + bytes.length - data.length) (0 : UInt8)).length =
        offset + bytes.length := by
      rw [List.length_append, List.length_replicate]
      omega
    rw [resizeBytes, htake, List.drop_of_length_le (Nat.le_of_eq hlength), List.drop_of_length_le (by omega),
      List.take_append, List.take_replicate, Nat.min_eq_left (by omega)]
  · rw [show offset - data.length = 0 by omega, List.replicate_zero, List.append_nil]

theorem length_resizeBytes (data : List UInt8) (length : Nat) : (resizeBytes data length).length = length := by
  simp only [resizeBytes, List.length_append, List.length_take, List.length_replicate]
  omega

def RefFile.changed (file : RefFile) (data : List UInt8) : RefFile :=
  ⟨data, tick file.mtimeNsec, tick file.ctimeNsec⟩

namespace Reference

/-! ### The calls -/

def setOffset (reference : Reference) (id : DescriptionId) (offset : Nat) : Reference :=
  { reference with
    description := fun i => if i = id then { reference.description id with offset } else reference.description i }

def setFile (reference : Reference) (inode : InodeId) (file : RefFile) : Reference :=
  { reference with file := fun i => if i = inode then some file else reference.file i }

structure Opened where
  id : DescriptionId
  description : RefDescription
  inode : InodeId
  file : RefFile

def opened (reference : Reference) (fd : Fd) : Except VfsError Opened :=
  match reference.handle fd with
  | none => .error .badFd
  | some (id, inode) =>
    match reference.file inode with
    | none => .error .noEntry
    | some file => .ok ⟨id, reference.description id, inode, file⟩

abbrev Step := Except VfsError FileAnswer × Reference

variable (reference : Reference) (f : Opened)

def read (len : Nat) : Step :=
  if f.description.canRead = false then (.error .badFd, reference)
  else
    let bytes := (f.file.data.drop f.description.offset).take len
    (.ok (.bytes bytes), reference.setOffset f.id (f.description.offset + bytes.length))

/-- One read into the buffers put together, which are taken apart again at their lengths. -/
def readv (buffers : List (List UInt8)) : Step :=
  if f.description.canRead = false then (.error .badFd, reference)
  else if u64Limit ≤ buffers.flatten.length then (.error .invalidPath, reference)
  else match reference.read f buffers.flatten.length with
    | (.ok (.bytes bytes), next) =>
      (.ok (.buffers bytes.length
        ((buffers.map List.length).splitLengths (bytes ++ buffers.flatten.drop bytes.length))), next)
    | refused => refused

def pread (offset len : Nat) : Step :=
  if f.description.canRead = false then (.error .badFd, reference)
  else (.ok (.bytes ((f.file.data.drop offset).take len)), reference)

def write (bytes : List UInt8) : Step :=
  let offset := if f.description.append then f.file.data.length else f.description.offset
  if f.description.canWrite = false then (.error .badFd, reference)
  else if bytes = [] then (.ok (.count 0), reference)
  else if u64Limit ≤ offset + bytes.length then (.error .invalidPath, reference)
  else
    (.ok (.count bytes.length),
      (reference.setFile f.inode (f.file.changed (overlayBytes f.file.data offset bytes))).setOffset f.id
        (offset + bytes.length))

def pwrite (offset : Nat) (bytes : List UInt8) : Step :=
  if f.description.canWrite = false then (.error .badFd, reference)
  else if bytes = [] then (.ok (.count 0), reference)
  else if u64Limit ≤ offset + bytes.length then (.error .invalidPath, reference)
  else
    (.ok (.count bytes.length),
      reference.setFile f.inode (f.file.changed (overlayBytes f.file.data offset bytes)))

def lseek (offset : Int) (whence : SeekWhence) : Step :=
  let base : Int := match whence with
    | .set => 0
    | .cur => f.description.offset
    | .fromEnd => f.file.data.length
  if base + offset < 0 ∨ (u64Limit : Int) ≤ base + offset then (.error .invalidPath, reference)
  else (.ok (.offset (base + offset).toNat), reference.setOffset f.id (base + offset).toNat)

def ftruncate (length : Nat) : Step :=
  if f.description.canWrite = false then (.error .badFd, reference)
  else (.ok .done, reference.setFile f.inode (f.file.changed (resizeBytes f.file.data length)))

/-- Only a file that ends before the range is grown. -/
def fallocate (offset length : Nat) : Step :=
  if u64Limit ≤ offset + length then (.error .noSpace, reference)
  else if f.description.canWrite = false then (.error .badFd, reference)
  else if f.file.data.length < offset + length then
    (.ok .done, reference.setFile f.inode (f.file.changed (resizeBytes f.file.data (offset + length))))
  else (.ok .done, reference)

def exec (reference : Reference) (op : FileOp) : Step :=
  match reference.opened op.fd with
  | .error e => (.error e, reference)
  | .ok f =>
    match op with
    | .read _ len => reference.read f len
    | .readvRegular _ buffers => reference.readv f buffers
    | .pread _ offset len => reference.pread f offset.toNat len
    | .write _ bytes => reference.write f bytes
    | .writevRegular _ buffers => reference.write f buffers.flatten
    | .pwrite _ offset bytes => reference.pwrite f offset.toNat bytes
    | .lseek _ offset whence => reference.lseek f offset whence
    | .ftruncate _ length => reference.ftruncate f length.toNat
    | .fallocate _ offset length => reference.fallocate f offset.toNat length.toNat
    | .fstat _ => (.ok (.status f.file.data.length f.file.mtimeNsec f.file.ctimeNsec), reference)

def run : Reference → List FileOp → List (Except VfsError FileAnswer) × Reference
  | reference, [] => ([], reference)
  | reference, op :: ops =>
    let (answer, next) := reference.exec op
    let (answers, last) := run next ops
    (answer :: answers, last)

end Reference

/-! ### The reference of a file system -/

def PathNode.refFile (node : PathNode) : Option RefFile :=
  if node.kind = .file then some ⟨node.data, node.attr.mtimeNsec, node.attr.ctimeNsec⟩ else none

def FdDescription.reference (description : FdDescription) : RefDescription :=
  ⟨description.offset, description.flags.append, description.flags.canRead, description.flags.canWrite⟩

def FdEntry.handle (entry : FdEntry) : Option (DescriptionId × InodeId) :=
  if entry.file.kind = .regular then some (entry.description, entry.inodeId) else none

namespace VirtualFileSystem

def reference (vfs : VirtualFileSystem) : Reference where
  file i := (vfs.tree.inodes.get? i).bind PathNode.refFile
  description id := (vfs.shared.description id).reference
  handle fd := (vfs.fds.entries.get? fd).bind FdEntry.handle

/-- `scatter_vectored`: the source over the buffers in turn, which keep the bytes that it does not reach. -/
def scatterVectored : List UInt8 → List (List UInt8) → List (List UInt8)
  | _, [] => []
  | source, buffer :: buffers =>
    if source = [] then buffer :: buffers
    else (source.take buffer.length ++ buffer.drop source.length) ::
      scatterVectored (source.drop buffer.length) buffers

/-- The call behind an operation. -/
def fileCall (host : Host) : FileOp → Call FileAnswer
  | .read fd len => do
    let bytes ← read host fd len
    pure (.bytes bytes)
  | .readvRegular fd buffers => do
    match ← readvRegular host fd (buffers.map List.length) with
    | some bytes => pure (.buffers bytes.length (scatterVectored bytes buffers))
    | none => pure .notRegular
  | .pread fd offset len => do
    let bytes ← pread host fd offset.toNat len
    pure (.bytes bytes)
  | .write fd bytes => do
    let count ← write host fd bytes
    pure (.count count)
  | .writevRegular fd buffers => do
    match ← writevRegular host fd buffers with
    | some count => pure (.count count)
    | none => pure .notRegular
  | .pwrite fd offset bytes => do
    let count ← pwrite host fd offset.toNat bytes
    pure (.count count)
  | .lseek fd offset whence => do
    let offset ← lseek fd offset whence
    pure (.offset offset)
  | .ftruncate fd length => do
    ftruncate host fd length.toNat
    pure .done
  | .fallocate fd offset length => do
    fallocate host fd offset.toNat length.toNat
    pure .done
  | .fstat fd => do
    let attr ← fstat fd
    pure (.status attr.size attr.mtimeNsec attr.ctimeNsec)

/-! ### Panics -/

/-- The length of a `Vec` of bytes is an `isize`: making a longer one panics. The calls refuse what is no `usize`. -/
def tooLong (length : Nat) : Bool := 2 ^ 63 ≤ length && length < u64Limit

/-- The description and the node that a call which changes a regular file goes by, if the mode allows the change. -/
def changeTarget (vfs : VirtualFileSystem) (fd : Fd) : Option (FdDescription × PathNode) := do
  let entry ← vfs.fds.entries.get? fd
  let node ← vfs.tree.lookupInode entry.inodeId
  let description := vfs.shared.description entry.description
  if description.flags.canWrite ∧ entry.file.kind = .regular then some (description, node) else none

/-- `set_len` and `write_at` come as far as the resizing. -/
def resizable (host : Host) (node : PathNode) : Bool :=
  node.kind = .file && (PathNode.materializeDeferredContent host node).1.isOk

/-- The length of the buffer that a vectored call puts its own together in. -/
def stagingLength : FileOp → Nat
  | .readvRegular _ buffers | .writevRegular _ buffers => buffers.flatten.length
  | _ => 0

/-- The length that a call asks for the contents of the file, 0 where it asks for none. -/
def requestedLength (description : FdDescription) (node : PathNode) : FileOp → Nat
  | .write _ bytes => position + bytes.length
  | .writevRegular _ buffers => if buffers.flatten = [] then 0 else position + buffers.flatten.length
  | .pwrite _ offset bytes => offset.toNat + bytes.length
  | .ftruncate _ length => length.toNat
  | .fallocate _ offset length =>
    if node.attr.size < offset.toNat + length.toNat then offset.toNat + length.toNat else 0
  | .read _ _ | .readvRegular _ _ | .pread _ _ _ | .lseek _ _ _ | .fstat _ => 0
where
  position : Nat := if description.flags.append then node.attr.size else description.offset

def panics (vfs : VirtualFileSystem) (host : Host) (op : FileOp) : Bool :=
  match op with
  | .readvRegular fd _ =>
    match vfs.regularReadRequest fd with
    | .ok (some _) => tooLong (stagingLength op)
    | _ => false
  | _ =>
    match vfs.changeTarget op.fd with
    | some (description, node) =>
      tooLong (stagingLength op) || resizable host node && tooLong (requestedLength description node op)
    | none => false

/-- The answers in turn. After a panic there are no more. -/
def runFiles (host : Host) : VirtualFileSystem → List FileOp →
    List (Except VfsError FileAnswer) × VirtualFileSystem
  | vfs, [] => ([], vfs)
  | vfs, op :: ops =>
    if vfs.panics host op then ([.ok .panicked], vfs)
    else
      let (answer, next) := fileCall host op vfs
      let (answers, last) := runFiles host next ops
      (answer :: answers, last)

/-- No call of the run panics where it comes. -/
def NoPanic (host : Host) : VirtualFileSystem → List FileOp → Prop
  | _, [] => True
  | vfs, op :: ops => vfs.panics host op = false ∧ NoPanic host (fileCall host op vfs).2 ops

instance instDecidableNoPanic (host : Host) : (vfs : VirtualFileSystem) → (ops : List FileOp) → Decidable (NoPanic host vfs ops)
  | _, [] => instDecidableTrue
  | _, op :: ops => @instDecidableAnd _ _ _ (instDecidableNoPanic host (fileCall host op _).2 ops)

/-- The contents of the files are in memory, with their sizes, and the cache fits. -/
structure InMemory (vfs : VirtualFileSystem) : Prop where
  wf : vfs.tree.Wf
  coherent : vfs.Coherent
  loaded : ∀ i node, vfs.tree.inodes.get? i = some node → node.kind = .file → node.deferredHostPath = none
  size : ∀ i node, vfs.tree.inodes.get? i = some node → node.kind = .file → node.attr.size = node.data.length
  bounded : ∀ i node, vfs.tree.inodes.get? i = some node → node.kind = .file → node.data.length < u64Limit
  regular : ∀ i node, vfs.tree.inodes.get? i = some node → node.kind = .file → node.attr.isDirectory = false
  offset : ∀ id, (vfs.shared.description id).offset < u64Limit

def OnFile (vfs : VirtualFileSystem) (fd : Fd) : Prop := ∃ i node, RegularFile vfs fd i node

def WritesBytes (vfs : VirtualFileSystem) : FileOp → Prop
  | .write fd bytes | .pwrite fd _ bytes => bytes = [] → ∀ entry, vfs.fds.entries.get? fd = some entry →
    (vfs.shared.description entry.description).flags.canWrite = false
  | _ => True

end VirtualFileSystem

end Mcr.Vfs
