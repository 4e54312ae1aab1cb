import Mcr.Vfs.Fd

/-!
# The cache of the virtual file system

Metadata, directory listings and the bytes of small files are kept under the inode id and the
generation of the inode at the time. An invalidation both moves the generation on and removes the
entries; the generations wrap around.
-/

namespace Mcr.Vfs

structure DirectoryEntry where
  inode : InodeId
  offset : Int
  fileType : UInt8
  name : String
deriving DecidableEq, Repr

def alignUp (value alignment : Nat) : Nat := (value + alignment - 1) / alignment * alignment

def DirectoryEntry.recordLen (entry : DirectoryEntry) : Nat := alignUp (19 + entry.name.utf8ByteSize + 1) 8

/-- An inode id and a generation, ordered by both. -/
abbrev VfsCacheKey := InodeId ×ₗ Nat

structure RegularFileCacheKey where
  inode : InodeId
  generation : Nat
deriving DecidableEq, Repr

/-- A handle is known by the path it was opened at. -/
structure HostReadHandleCacheEntry where
  generation : Nat
  path : HostPath
deriving DecidableEq, Repr

structure VfsCache where
  generation : Nat
  globalGeneration : Nat
  inodeGenerations : SortedMap InodeId Nat
  directoryListings : SortedMap VfsCacheKey (List DirectoryEntry)
  metadata : SortedMap VfsCacheKey LinuxFileAttr
  smallReads : SortedMap VfsCacheKey (List UInt8)
  hostReadHandles : SortedMap InodeId HostReadHandleCacheEntry
  hostReadLru : List InodeId

namespace VfsCache

def default : VfsCache := ⟨0, 0, .empty, .empty, .empty, .empty, .empty, []⟩

def wrappingSucc (n : Nat) : Nat := (n + 1) % u64Limit

def keyGeneration (cache : VfsCache) (inode : InodeId) : Nat :=
  (cache.globalGeneration + (cache.inodeGenerations.get? inode).getD 0) % u64Limit

def key (cache : VfsCache) (inode : InodeId) : VfsCacheKey := toLex (inode, cache.keyGeneration inode)

def invalidateAll (cache : VfsCache) : VfsCache :=
  { cache with
    generation := wrappingSucc cache.generation
    globalGeneration := wrappingSucc cache.globalGeneration
    directoryListings := .empty
    metadata := .empty
    smallReads := .empty
    hostReadHandles := .empty
    hostReadLru := [] }

def invalidateProcViews (cache : VfsCache) : VfsCache :=
  { cache with
    generation := wrappingSucc cache.generation
    directoryListings := .empty
    metadata := .empty
    smallReads := .empty }

def bumpInodeGeneration (cache : VfsCache) (inode : InodeId) : VfsCache :=
  let generation := match cache.inodeGenerations.get? inode with
    | some generation => wrappingSucc generation
    | none => 1
  { cache with inodeGenerations := cache.inodeGenerations.insert inode generation }

def removeInodeEntries (cache : VfsCache) (inode : InodeId) : VfsCache :=
  { cache with
    directoryListings := cache.directoryListings.filter fun key _ => (ofLex key).1 ≠ inode
    metadata := cache.metadata.filter fun key _ => (ofLex key).1 ≠ inode
    smallReads := cache.smallReads.filter fun key _ => (ofLex key).1 ≠ inode
    hostReadHandles := cache.hostReadHandles.erase inode
    hostReadLru := cache.hostReadLru.filter (· ≠ inode) }

def invalidateInode (cache : VfsCache) (inode : InodeId) : VfsCache :=
  ({ cache with generation := wrappingSucc cache.generation }.bumpInodeGeneration inode).removeInodeEntries
    inode

def invalidateInodes (cache : VfsCache) (inodes : List InodeId) : VfsCache :=
  let cache := inodes.foldl (fun cache inode => (cache.bumpInodeGeneration inode).removeInodeEntries inode) cache
  if inodes = [] then cache else { cache with generation := wrappingSucc cache.generation }

def directoryListing (cache : VfsCache) (inode : InodeId) : Option (List DirectoryEntry) :=
  cache.directoryListings.get? (cache.key inode)

def insertDirectoryListing (cache : VfsCache) (inode : InodeId) (entries : List DirectoryEntry) : VfsCache :=
  { cache with directoryListings := cache.directoryListings.insert (cache.key inode) entries }

def metadataOf (cache : VfsCache) (inode : InodeId) : Option LinuxFileAttr :=
  cache.metadata.get? (cache.key inode)

def insertMetadata (cache : VfsCache) (inode : InodeId) (attr : LinuxFileAttr) : VfsCache :=
  { cache with metadata := cache.metadata.insert (cache.key inode) attr }

def smallRead (cache : VfsCache) (inode : InodeId) : Option (List UInt8) :=
  cache.smallReads.get? (cache.key inode)

def insertSmallRead (cache : VfsCache) (inode : InodeId) (data : List UInt8) : VfsCache :=
  { cache with smallReads := cache.smallReads.insert (cache.key inode) data }

def touchHostReadLru (cache : VfsCache) (inode : InodeId) : VfsCache :=
  { cache with hostReadLru := cache.hostReadLru.filter (· ≠ inode) ++ [inode] }

/-- The handles least recently used give way, `lru` being what is left of the queue. -/
def evictFrom (handles : SortedMap InodeId HostReadHandleCacheEntry) :
    List InodeId → SortedMap InodeId HostReadHandleCacheEntry × List InodeId
  | [] => (handles, [])
  | inode :: lru =>
    if hostReadHandleCacheLimit < handles.entries.length then evictFrom (handles.erase inode) lru
    else (handles, inode :: lru)

def evictHostReadHandles (cache : VfsCache) : VfsCache :=
  let (handles, lru) := evictFrom cache.hostReadHandles cache.hostReadLru
  { cache with hostReadHandles := handles, hostReadLru := lru }

/-- The handle for a file, and the cache after the lookup; a handle opened at this path for this
generation is used again. -/
def hostReadHandle (host : Host) (cache : VfsCache) (inode : InodeId) (path : HostPath) :
    Except VfsError HostPath × VfsCache :=
  let generation := cache.keyGeneration inode
  if cache.hostReadHandles.get? inode = some ⟨generation, path⟩ then
    (.ok path, cache.touchHostReadLru inode)
  else
    match host.openRead path with
    | .error kind => (.error (vfsErrorFromHost kind), cache)
    | .ok () =>
      let cache := { cache with hostReadHandles := cache.hostReadHandles.insert inode ⟨generation, path⟩ }
      (.ok path, (cache.touchHostReadLru inode).evictHostReadHandles)

end VfsCache

end Mcr.Vfs
