import Mathlib.Logic.Function.Basic
import Hazelnut.Thread.Tcb

/-!
The buffer allocator of the mapping database, after `kernel/src/mapping_alloc.c` and
`mdb_buflists` of `kernel/src/x86/memory.c`.

Buffers of a size are cut out of 4K chunks, each of which starts with a management header.
The free buffers of a chunk are linked through their first words, and the chunks of a size
that have free buffers form a doubly linked list.

* `MdbPool`: the words of memory and the heads of the lists of chunks.  A `mdb_buflist_t *`
  is the number of the entry in `mdb_buflists`.
* `maxFree`: the number of buffers of a chunk, as `mdb_buflist_init` counts them.
* `mdbAllocBuffer`, `mdbFreeBuffer`: the functions of the source.  The chunk that `kmem_alloc`
  would return is an argument, and whether a chunk is taken or given back is part of the
  result.
-/

namespace Hazelnut

/-- `MDB_ALLOC_CHUNKSZ`. -/
def chunkSz : Word := 4096

/-- The sizes in `mdb_buflists`: mapping nodes, dual nodes, root arrays, and mapping nodes of
I/O flexpages. -/
def bufSize : Nat → Word
  | 0 => 12
  | 1 => 8
  | 2 => 4096
  | 3 => 28
  | _ => 0

/-- The search of `mdb_alloc_buffer` for the entry of a size, from entry `bl` on; the kernel
panics if there is none. -/
def findBuflist (size : Word) : Nat → Nat → Option Nat
  | 0, _ => none
  | n + 1, bl =>
    if bufSize bl = size then some bl
    else if bufSize bl = 0 then none
    else findBuflist size n (bl + 1)

/-- The loop of `mdb_buflist_init` that counts the buffers of a chunk.  The header takes 20
bytes. -/
def countFree (size : Word) : Nat → Word → Word → Option Word
  | 0, _, _ => none
  | n + 1, i, maxFree =>
    if 20 ≤ i then countFree size n (i - size) (maxFree + 1) else some maxFree

/-- `max_free` of an entry, after `mdb_buflist_init`. -/
def maxFree : Nat → Word
  | 0 => 339
  | 1 => 509
  | 3 => 145
  | _ => 0

/-- The words of memory, and `list_of_lists` for every entry. -/
structure MdbPool where
  mem : Word → Word
  lists : Nat → Word

namespace MdbPool

variable (s : MdbPool)

def set (a v : Word) : MdbPool := { s with mem := Function.update s.mem a v }

def setList (bl : Nat) (v : Word) : MdbPool := { s with lists := Function.update s.lists bl v }

/-- The fields of the header of a chunk. -/
def freelist (mng : Word) : Word := s.mem mng
def numFree (mng : Word) : Word := s.mem (mng + 4)
def nextFreelist (mng : Word) : Word := s.mem (mng + 8)
def prevFreelist (mng : Word) : Word := s.mem (mng + 12)
def bl (mng : Word) : Nat := (s.mem (mng + 16)).toNat

def setFreelist (mng v : Word) : MdbPool := s.set mng v
def setNumFree (mng v : Word) : MdbPool := s.set (mng + 4) v
def setNextFreelist (mng v : Word) : MdbPool := s.set (mng + 8) v
def setPrevFreelist (mng v : Word) : MdbPool := s.set (mng + 12) v
def setBl (mng : Word) (bl : Nat) : MdbPool := s.set (mng + 16) (BitVec.ofNat 32 bl)

end MdbPool

/-- The loop that links the buffers of a new chunk: the first address behind them, and the
memory. -/
def linkBuffers (size ed : Word) : Nat → Word → MdbPool → Option (Word × MdbPool)
  | 0, _, _ => none
  | fuel + 1, b, s =>
    if b ≤ ed then linkBuffers size ed fuel (b + size) (s.set b (b + size)) else some (b, s)

/-- A new chunk with its buffers. -/
def newChunk (bl : Nat) (mng : Word) (s : MdbPool) : Option MdbPool := do
  let size := bufSize bl
  let s := s.setFreelist mng (mng + chunkSz - maxFree bl * size)
  let s := s.setNumFree mng (maxFree bl)
  let s := s.setPrevFreelist mng 0
  let s := s.setBl mng bl
  -- Initialize buffers.
  let ed := mng + chunkSz - size
  let (b, s) ← linkBuffers size ed 1024 (s.freelist mng) s
  let s := s.set (b - size) 0
  -- Update list of freelists.
  let s := s.setNextFreelist mng (s.lists bl)
  let s := s.setList bl mng
  let next := s.nextFreelist mng
  return if next ≠ 0 then s.setPrevFreelist next mng else s

/-- A buffer is taken from a chunk. -/
def takeBuffer (bl : Nat) (mng : Word) (s : MdbPool) : Word × MdbPool :=
  let buf := s.freelist mng
  let s := s.setFreelist mng (s.mem buf)
  let s := s.setNumFree mng (s.numFree mng - 1)
  let s :=
    if s.numFree mng = 0 then
      -- All buffers in page have been used.
      let s := s.setList bl (s.nextFreelist mng)
      if s.lists bl ≠ 0 then s.setPrevFreelist (s.lists bl) 0 else s
    else s
  (buf, s)

/-- `mdb_alloc_buffer`, where `kmem` is what `kmem_alloc` returns: the buffer, whether
`kmem_alloc` has been called, and the memory. -/
def mdbAllocBuffer (kmem size : Word) (s : MdbPool) : Option (Word × Bool × MdbPool) := do
  let bl ← findBuflist size 5 0
  if chunkSz ≤ size then
    return (kmem, true, s)
  else if s.lists bl = 0 then
    let s ← newChunk bl kmem s
    let (buf, s) := takeBuffer bl kmem s
    return (buf, true, s)
  else
    let (buf, s) := takeBuffer bl (s.lists bl) s
    return (buf, false, s)

/-- A buffer is put back into its chunk. -/
def putBuffer (mng buf : Word) (s : MdbPool) : MdbPool :=
  let s := s.set buf (s.freelist mng)
  let s := s.setFreelist mng buf
  s.setNumFree mng (s.numFree mng + 1)

/-- A chunk goes back into the list of its size. -/
def pushChunk (bl : Nat) (mng : Word) (s : MdbPool) : MdbPool :=
  let s := if s.lists bl ≠ 0 then s.setPrevFreelist (s.lists bl) mng else s
  let s := s.setNextFreelist mng (s.lists bl)
  let s := s.setPrevFreelist mng 0
  s.setList bl mng

/-- A chunk leaves the list of its size. -/
def unlinkChunk (bl : Nat) (mng : Word) (s : MdbPool) : MdbPool :=
  let s :=
    if s.nextFreelist mng ≠ 0 then s.setPrevFreelist (s.nextFreelist mng) (s.prevFreelist mng)
    else s
  if s.lists bl = mng then s.setList bl (s.nextFreelist mng)
  else if s.prevFreelist mng ≠ 0 then
    s.setNextFreelist (s.prevFreelist mng) (s.nextFreelist mng)
  else s

/-- `mdb_free_buffer`: the chunk given to `kmem_free`, if any, and the memory. -/
def mdbFreeBuffer (addr size : Word) (s : MdbPool) : Option Word × MdbPool :=
  if chunkSz ≤ size then (some addr, s)
  else
    let mng := addr &&& ~~~(chunkSz - 1)
    let bl := s.bl mng
    let s := putBuffer mng addr s
    if s.numFree mng = 1 then
      -- Buffer pool has gone from empty to non-empty.
      (none, pushChunk bl mng s)
    else if s.numFree mng = maxFree bl then
      -- We have freed up all buffers in the frame.
      (some mng, unlinkChunk bl mng s)
    else (none, s)

/-- The numbers of buffers are those that `mdb_buflist_init` counts. -/
example : ∀ bl ∈ [0, 1, 3], countFree (bufSize bl) 1024 (chunkSz - bufSize bl) 0 =
    some (maxFree bl) := by
  decide +kernel

end Hazelnut
