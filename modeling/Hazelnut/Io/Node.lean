import Mathlib.Logic.Function.Basic
import Hazelnut.Lib.Word
import Hazelnut.Thread.Tcb

/-!
Nodes of the I/O mapping database and I/O permission bitmaps, after
`kernel/src/x86/io_mapping.c`.

* `IoNode`: `io_mnode_t`, with the packed words the code keeps it in.
* `IoMdb`: the nodes, the buffers that can still be allocated, the dummy node and the bitmap of
  every task.  `stale` is a ghost: it lists the nodes that were dereferenced while they were free.
* `IoM`: what runs on the database and may stop, at a null pointer, for lack of memory or when the
  fuel of a loop is used up.
* `enqThreadList`, `deqThreadList`, `enqSubtree`, `deqSubtree`, `mdbAllocNode`, `mdbFreeNode`.
* `setIopbm`, `zeroIopbm`: the bits of a range of ports.
-/

namespace Hazelnut.Io

/-! ### Nodes -/

def iomdbTidMask : Word := 0x000000ff
def iomdbLoMask : Word := 0xffff0000
def iomdbHiMask : Word := 0xffff8000
def iomdbDummyMask : Word := 0x00004000
def iomdbDepthMask : Word := 0x00003fff
def iomdbSupDepth : Word := 0x00004000

/-- `io_mnode_t`.  `w1` holds the lower bound and the task, `w2` the upper bound, the dummy mark and
the depth; `next` and `prev` are the links in the mapping tree, `nextSt` and `prevSt` those in
the list of the task. -/
structure IoNode where
  w1 : Word
  w2 : Word
  next : Word
  prev : Word
  nextSt : Word
  prevSt : Word
  parent : Word
  deriving DecidableEq

namespace IoNode

variable (n : IoNode)

def getLo : Word := n.w1 >>> 16

def setLo (l : Word) : IoNode := { n with w1 := (n.w1 &&& iomdbTidMask) ||| (l <<< 16) }

/-- The task of `get_tid`, without the thread and version bits, which are zero. -/
def getTid : Word := n.w1 &&& iomdbTidMask

def getHi : Word := n.w2 >>> 15

def setHi (h : Word) : IoNode :=
  { n with w2 := (n.w2 &&& (iomdbDepthMask ||| iomdbDummyMask)) ||| (h <<< 15) }

def getDummy : Word := n.w2 &&& iomdbDummyMask

def getDepth : Word := n.w2 &&& iomdbDepthMask

def setValues (lo hi tid depth : Word) (dummy : Bool) : IoNode :=
  { n with
    w1 := (lo <<< 16) ||| (tid &&& iomdbTidMask)
    w2 := ((hi <<< 15) ||| if dummy then iomdbDummyMask else 0) ||| (depth &&& iomdbDepthMask) }

section fields

variable {n : IoNode} {l h tid d : Word} {b : Bool}

lemma getLo_setLo (hl : l.toNat < 65536) : (n.setLo l).getLo = l := by
  rw [getLo, setLo]
  dsimp only
  rw [BitVec.ushiftRight_or_distrib, Word.and_ushiftRight_of_lt (by decide),
    Word.shiftLeft_ushiftRight_of_lt (by omega), BitVec.zero_or]

@[simp] lemma getTid_setLo : (n.setLo l).getTid = n.getTid := by
  rw [getTid, setLo]
  dsimp only
  rw [BitVec.and_or_distrib_right, Word.shiftLeft_and_of_lt (by decide), BitVec.or_zero,
    BitVec.and_assoc, BitVec.and_self, getTid]

@[simp] lemma getHi_setLo : (n.setLo l).getHi = n.getHi := rfl

@[simp] lemma getDummy_setLo : (n.setLo l).getDummy = n.getDummy := rfl

@[simp] lemma getDepth_setLo : (n.setLo l).getDepth = n.getDepth := rfl

lemma getHi_setHi (hh : h.toNat < 131072) : (n.setHi h).getHi = h := by
  rw [getHi, setHi]
  dsimp only
  rw [BitVec.ushiftRight_or_distrib, Word.and_ushiftRight_of_lt (by decide),
    Word.shiftLeft_ushiftRight_of_lt (by omega), BitVec.zero_or]

@[simp] lemma getLo_setHi : (n.setHi h).getLo = n.getLo := rfl

@[simp] lemma getTid_setHi : (n.setHi h).getTid = n.getTid := rfl

@[simp] lemma getDummy_setHi : (n.setHi h).getDummy = n.getDummy := by
  rw [getDummy, setHi]
  dsimp only
  rw [BitVec.and_or_distrib_right, Word.shiftLeft_and_of_lt (by decide), BitVec.or_zero,
    BitVec.and_assoc, getDummy]
  rfl

@[simp] lemma getDepth_setHi : (n.setHi h).getDepth = n.getDepth := by
  rw [getDepth, setHi]
  dsimp only
  rw [BitVec.and_or_distrib_right, Word.shiftLeft_and_of_lt (by decide), BitVec.or_zero,
    BitVec.and_assoc, getDepth]
  rfl

lemma getLo_setValues (hl : l.toNat < 65536) : (n.setValues l h tid d b).getLo = l := by
  rw [getLo, setValues]
  dsimp only
  rw [BitVec.ushiftRight_or_distrib, Word.and_ushiftRight_of_lt (by decide),
    Word.shiftLeft_ushiftRight_of_lt (by omega), BitVec.or_zero]

@[simp] lemma getTid_setValues : (n.setValues l h tid d b).getTid = tid &&& iomdbTidMask := by
  rw [getTid, setValues]
  dsimp only
  rw [BitVec.and_or_distrib_right, Word.shiftLeft_and_of_lt (by decide), BitVec.zero_or,
    BitVec.and_assoc, BitVec.and_self]

lemma getHi_setValues (hh : h.toNat < 131072) : (n.setValues l h tid d b).getHi = h := by
  rw [getHi, setValues]
  dsimp only
  have hd : (if b then iomdbDummyMask else 0) >>> 15 = 0 := by cases b <;> decide
  rw [BitVec.ushiftRight_or_distrib, BitVec.ushiftRight_or_distrib, hd,
    Word.and_ushiftRight_of_lt (by decide), Word.shiftLeft_ushiftRight_of_lt (by omega)]
  simp

@[simp] lemma getDummy_setValues :
    (n.setValues l h tid d b).getDummy = if b then iomdbDummyMask else 0 := by
  rw [getDummy, setValues]
  dsimp only
  have hd : iomdbDepthMask &&& iomdbDummyMask = 0 := by decide
  rw [BitVec.and_or_distrib_right, BitVec.and_or_distrib_right,
    Word.shiftLeft_and_of_lt (by decide), BitVec.and_assoc, hd]
  cases b <;> simp

@[simp] lemma getDepth_setValues :
    (n.setValues l h tid d b).getDepth = d &&& iomdbDepthMask := by
  rw [getDepth, setValues]
  dsimp only
  have hd : (if b then iomdbDummyMask else 0) &&& iomdbDepthMask = 0 := by cases b <;> decide
  rw [BitVec.and_or_distrib_right, BitVec.and_or_distrib_right,
    Word.shiftLeft_and_of_lt (by decide), BitVec.and_assoc, BitVec.and_self, hd]
  simp

lemma getLo_lt : n.getLo.toNat < 65536 := by
  rw [getLo, BitVec.toNat_ushiftRight, Nat.shiftRight_eq_div_pow]
  have := n.w1.isLt
  omega

lemma getDepth_lt : n.getDepth < iomdbSupDepth := by
  rw [BitVec.lt_def, getDepth, BitVec.toNat_and]
  exact Nat.lt_of_le_of_lt Nat.and_le_right (by decide)

lemma getTid_and : n.getTid &&& iomdbTidMask = n.getTid := by
  rw [getTid, BitVec.and_assoc, BitVec.and_self]

lemma getDepth_and : n.getDepth &&& iomdbDepthMask = n.getDepth := by
  rw [getDepth, BitVec.and_assoc, BitVec.and_self]

end fields

end IoNode

/-! ### Permission bitmaps -/

/-- An I/O permission bitmap, as dwords.  A set bit denies the port. -/
abbrev Iopbm := Nat → Word

namespace Iopbm

/-- The loops over whole dwords: `k` dwords from `i` on are set to `v`. -/
def fill (v : Word) : Nat → Nat → Iopbm → Iopbm
  | _, 0, bm => bm
  | i, k + 1, bm => fill v (i + 1) k (Function.update bm i v)

/-- The part of `set_iopbm` that works on the bitmap. -/
def setBits (port size : Nat) (bm : Iopbm) : Iopbm :=
  let i := port / 32
  let count := min size (32 - port % 32)
  let bm := Function.update bm i (bm i ||| ((BitVec.allOnes 32 >>> (32 - count)) <<< (port % 32)))
  let size := size - count
  let bm := fill (BitVec.allOnes 32) (i + 1) (size / 32) bm
  let j := i + 1 + size / 32
  if size % 32 ≠ 0 then
    Function.update bm j (bm j ||| (BitVec.allOnes 32 >>> (32 - size % 32)))
  else bm

/-- The part of `zero_iopbm` that works on a bitmap the task has already. -/
def zeroBits (port size : Nat) (bm : Iopbm) : Iopbm :=
  let i := port / 32
  let count := min size (32 - port % 32)
  let bm := Function.update bm i
    (bm i &&& ~~~((BitVec.allOnes 32 >>> (32 - count)) <<< (port % 32)))
  let size := size - count
  let bm := fill 0 (i + 1) (size / 32) bm
  let j := i + 1 + size / 32
  if size % 32 ≠ 0 then
    Function.update bm j (bm j &&& ~~~(BitVec.allOnes 32 >>> (32 - size % 32)))
  else bm

/-- The part of `zero_iopbm` that fills the memory it has allocated for a task that had the default
bitmap. -/
def freshBits (port size : Nat) (mem : Iopbm) : Iopbm :=
  let i := port / 32
  -- up to the dword of the port
  let bm := fill (BitVec.allOnes 32) 0 i mem
  let count := min size (32 - port % 32)
  let bm := Function.update bm i (~~~((BitVec.allOnes 32 >>> (32 - count)) <<< (port % 32)))
  let size := size - count
  let bm := fill 0 (i + 1) (size / 32) bm
  let j := i + 1 + size / 32
  let bm := if size % 32 ≠ 0 then Function.update bm j (~~~(BitVec.allOnes 32 >>> (32 - size % 32)))
    else bm
  let j := if size % 32 ≠ 0 then j + 1 else j
  -- the remainder of the 2048 dwords
  fill (BitVec.allOnes 32) j (2048 - j) bm

/-- The bitmap that `zero_iopbm` builds for a task that had the default one.  What the memory holds
behind the bitmap does not matter. -/
def fresh (port size : Nat) : Iopbm := freshBits port size fun _ => BitVec.allOnes 32

end Iopbm

/-! ### The database -/

/-- Why a run of the kernel stops. -/
inductive IoStop where
  /-- A null pointer is dereferenced. -/
  | null
  /-- "out of memory" -/
  | memory
  /-- A loop has used up its fuel. -/
  | fuel
  deriving DecidableEq, Repr

/-- The I/O mapping database.  `free` lists the buffers that `mdb_alloc_buffer` will hand out,
`iospace` is the entry `IO_SPACE_IDX` of the page directory of a task, `iopbm` the bitmap of a task
that has one of its own; `pages` counts the bitmaps there is still memory for. -/
structure IoMdb where
  node : Word → IoNode
  free : List Word
  iospace : Word → Word
  iopbm : Word → Option Iopbm
  defaultIopbm : Iopbm
  pages : Nat
  stale : List Word

/-- Kernel code that works on the I/O mapping database. -/
abbrev IoM := StateT IoMdb (Except IoStop)

/-- The node at `p` is read. -/
def deref (p : Word) : IoM IoNode := fun s =>
  if p = 0 then .error .null
  else .ok (s.node p, if p ∈ s.free then { s with stale := p :: s.stale } else s)

/-- The node at `p` is written. -/
def writeNode (p : Word) (f : IoNode → IoNode) : IoM Unit := do
  let n ← deref p
  modify fun s => { s with node := Function.update s.node p (f n) }

def setNext (p v : Word) : IoM Unit := writeNode p fun n => { n with next := v }
def setPrev (p v : Word) : IoM Unit := writeNode p fun n => { n with prev := v }
def setNextSt (p v : Word) : IoM Unit := writeNode p fun n => { n with nextSt := v }
def setPrevSt (p v : Word) : IoM Unit := writeNode p fun n => { n with prevSt := v }
def setParent (p v : Word) : IoM Unit := writeNode p fun n => { n with parent := v }

def enqThreadList (this before : Word) : IoM Unit := do
  setNextSt this before
  setPrevSt this (← deref before).prevSt
  setPrevSt before this
  setNextSt (← deref this).prevSt this

def deqThreadList (this : Word) : IoM Unit := do
  setPrevSt (← deref this).nextSt (← deref this).prevSt
  setNextSt (← deref this).prevSt (← deref this).nextSt

def enqSubtree (this after : Word) : IoM Unit := do
  setNext this (← deref after).next
  setPrev this after
  setPrev (← deref this).next this
  setNext after this

def deqSubtree (this : Word) : IoM Unit := do
  setPrev (← deref this).next (← deref this).prev
  setNext (← deref this).prev (← deref this).next

/-- `mdb_alloc_buffer(sizeof(io_mnode_t))`, and the halt if there is no memory. -/
def mdbAllocNode : IoM Word := fun s =>
  match s.free with
  | [] => .error .memory
  | p :: ps => .ok (p, { s with free := ps })

/-- `mdb_free_buffer`; the link of the free list goes into the first word of the node. -/
def mdbFreeNode (p : Word) : IoM Unit := modify fun s =>
  { s with
    node := Function.update s.node p { s.node p with w1 := s.free.headD 0 }
    free := p :: s.free }

/-- `set_iopbm`: a task without a bitmap of its own has the default one changed. -/
def setIopbm (tid port size : Word) : IoM Unit := modify fun s =>
  match s.iopbm tid with
  | some bm => { s with iopbm := Function.update s.iopbm tid (some
      (bm.setBits port.toNat size.toNat)) }
  | none => { s with defaultIopbm := s.defaultIopbm.setBits port.toNat size.toNat }

/-- `zero_iopbm`: a task without a bitmap of its own gets one. -/
def zeroIopbm (tid port size : Word) : IoM Unit := fun s =>
  match s.iopbm tid with
  | some bm =>
      .ok ((), { s with
        iopbm := Function.update s.iopbm tid (some (bm.zeroBits port.toNat size.toNat)) })
  | none =>
      match s.pages with
      | 0 => .error .memory
      | k + 1 =>
          .ok ((), { s with
            iopbm := Function.update s.iopbm tid (some (Iopbm.fresh port.toNat size.toNat)),
            pages := k })

end Hazelnut.Io
