import Hazelnut.Memory.Pgent

/-!
Nodes of the mapping database, after `kernel/include/x86/mapping.h`, and
`mdb_map` of `kernel/src/mapping.c`.

* `MNode`, `RNode`, `DualNode`: mapping nodes, root nodes and dual nodes, as the
  words the code keeps them in.  A mapping node holds its predecessor xored with
  its page table entry; bit 0 tells root predecessors and dual successors.
* `Mdb`: the database, one memory for each kind of node, and the buffers the
  allocator can still hand out.  The lock bits are not used on a uniprocessor.
* `mdbCreateRoots`, `mdbInit`, `mdbMap`.
-/

namespace Hazelnut

/-! ### Mapping nodes -/

/-- `mnode_t`: `w1` is the predecessor and the page table entry, `w2` space and
depth, `w3` the successor. -/
structure MNode where
  w1 : Word
  w2 : Word
  w3 : Word
  deriving DecidableEq, Repr

/-- `MDB_SPACE_MASK`. -/
def spaceMask : Word := 0xfffff000

/-- `MDB_DEPTH_MASK`. -/
def depthMask : Word := 0xff

/-- `MDB_UPLOCK | MDB_DOWNLOCK`. -/
def lockMask : Word := 0x300

namespace MNode

variable (n : MNode)

def isPrevRoot : Prop := n.w1 &&& 1 ≠ 0

instance : Decidable n.isPrevRoot := inferInstanceAs (Decidable (_ ≠ _))

/-- `get_pgent` for a mapping node as predecessor. -/
def getPgentM (prev : Word) : Word := n.w1 ^^^ prev

/-- `get_pgent` for a root node as predecessor. -/
def getPgentR (prev : Word) : Word := (n.w1 ^^^ prev) &&& ~~~1

/-- `get_prevm` and `get_prevr`, which compute the same. -/
def getPrev (pg : Word) : Word := (n.w1 ^^^ pg) &&& ~~~1

def setBacklinkM (prev pg : Word) : MNode := { n with w1 := prev ^^^ pg }

def setBacklinkR (prev pg : Word) : MNode := { n with w1 := (prev ^^^ pg) ||| 1 }

def isNextRoot : Prop := n.w3 &&& 1 ≠ 0

instance : Decidable n.isNextRoot := inferInstanceAs (Decidable (_ ≠ _))

/-- `get_nextm` and `get_nextr`. -/
def getNext : Word := n.w3 &&& ~~~1

def setNextM (map : Word) : MNode := { n with w3 := map }

def setNextR (root : Word) : MNode := { n with w3 := root ||| 1 }

def getSpace : Word := n.w2 &&& spaceMask

def setSpace (space : Word) : MNode := { n with w2 := Word.setField spaceMask n.w2 space }

def getDepth : Word := n.w2 &&& depthMask

def setDepth (depth : Word) : MNode := { n with w2 := Word.setField depthMask n.w2 depth }

def clearLocks : MNode := { n with w2 := n.w2 &&& ~~~lockMask }

end MNode

/-! ### Root nodes and dual nodes -/

/-- `rnode_t`: a pointer with the dual bit (bit 0) and the lock bit (bit 1). -/
abbrev RNode := Word

namespace RNode

def getMap (r : RNode) : Word := r &&& ~~~3

/-- `set_ptr` of a mapping node; it leaves the lock bit set. -/
def ptrM (map : Word) : RNode := map ||| 2

/-- `set_ptr` of a dual node. -/
def ptrR (root : Word) : RNode := root ||| 1 ||| 2

def clearLocks (r : RNode) : RNode := r &&& ~~~2

def isNextRoot (r : RNode) : Prop := r &&& 1 ≠ 0

instance (r : RNode) : Decidable (isNextRoot r) := inferInstanceAs (Decidable (_ ≠ _))

end RNode

/-- `dualnode_t`. -/
structure DualNode where
  map : Word
  root : Word
  deriving DecidableEq, Repr

/-! ### The database -/

/-- The three buffer sizes of `mdb_buflists`: mapping nodes, dual nodes and root
arrays. -/
inductive Buf where
  | mnode
  | dual
  | roots
  deriving DecidableEq, Repr

/-- The mapping database.  `free b` lists the buffers of kind `b` that
`mdb_alloc_buffer` will hand out; when there are none left the kernel is out of
memory. -/
structure Mdb where
  mnode : Word → MNode
  dual : Word → DualNode
  rnode : Word → RNode
  free : Buf → List Word
  sigma0Mapnode : Word

namespace Mdb

variable (h : Mdb)

def setMNode (p : Word) (n : MNode) : Mdb := { h with mnode := Function.update h.mnode p n }

def setDual (d : Word) (n : DualNode) : Mdb := { h with dual := Function.update h.dual d n }

def setRNode (r : Word) (n : RNode) : Mdb := { h with rnode := Function.update h.rnode r n }

/-- `mdb_alloc_buffer`. -/
def allocBuffer (b : Buf) : Option (Word × Mdb) :=
  match h.free b with
  | [] => none
  | p :: ps => some (p, { h with free := Function.update h.free b ps })

/-- `mdb_free_buffer`. -/
def freeBuffer (b : Buf) (p : Word) : Mdb :=
  { h with free := Function.update h.free b (p :: h.free b) }

end Mdb

/-- The `i`th root node of the array at `base`. -/
def slot (base : Word) (i : Nat) : Word := base + 4 * BitVec.ofNat 32 i

/-- `mdb_index_root`. -/
def mdbIndexRoot (size : Nat) (r addr : Word) : Word := slot r (tableIndex addr size)

/-- The initialisation loop of `mdb_create_roots`. -/
@[irreducible] def clearRoots : Nat → Word → Mdb → Mdb
  | 0, _, h => h
  | n + 1, p, h => clearRoots n (p + 4) (h.setRNode p (RNode.clearLocks (RNode.ptrM 0)))

/-- `mdb_create_roots`. -/
def mdbCreateRoots (size : Nat) (h : Mdb) : Option (Word × Mdb) := do
  let (newnodes, h) ← h.allocBuffer .roots
  let h := clearRoots (tableSize size) newnodes h
  let (d, h) ← h.allocBuffer .dual
  return (d, h.setDual d { map := 0, root := newnodes })

/-- `mdb_init`. -/
def mdbInit (h : Mdb) : Option Mdb := do
  let (d, h) ← mdbCreateRoots 1 h
  let n := h.mnode h.sigma0Mapnode
  return h.setMNode h.sigma0Mapnode
    (((((n.setBacklinkM 0 0).setSpace 0).setDepth 0).clearLocks).setNextR d)

/-! ### `mdb_map` -/

/-- What a mapping node leads to: its dual node, or null, and the next mapping
node. -/
def mnodeNext (h : Mdb) (p : Word) : Word × Word :=
  let n := h.mnode p
  if n.isNextRoot then (n.getNext, (h.dual n.getNext).map) else (0, n.getNext)

/-- What a root node leads to. -/
def rnodeNext (h : Mdb) (r : Word) : Word × Word :=
  let n := h.rnode r
  if n.isNextRoot then (n.getMap, (h.dual n.getMap).map) else (0, n.getMap)

/-- The descent of `mdb_map` through root arrays below root nodes, from pages of
size `f` to pages of size `t`: the root node reached, and what it leads to. -/
def mdbDescend (addr : Word) (t : Nat) : Nat → Word → Word → Word → Mdb →
    Option (Word × Word × Word × Mdb)
  | 0, root, dual, nmap, h => some (root, dual, nmap, h)
  | f + 1, root, dual, nmap, h =>
    if t < f + 1 then do
      let (dual, h) ←
        if dual = 0 then do
          let (d, h) ← mdbCreateRoots f h
          let h := h.setDual d { h.dual d with map := (h.rnode root).getMap }
          pure (d, h.setRNode root (RNode.ptrR d))
        else pure (dual, h)
      let root := mdbIndexRoot f (h.dual dual).root addr
      let (dual, nmap) := rnodeNext h root
      mdbDescend addr t f root dual nmap h
    else some (root, dual, nmap, h)

/-- The grant branch of `mdb_map`: the node is edited in place. -/
def mdbGrant (h : Mdb) (fMap fPg tPg tSpace : Word) : Mdb :=
  let n := h.mnode fMap
  let n := if n.isPrevRoot then n.setBacklinkR (n.getPrev fPg) tPg
    else n.setBacklinkM (n.getPrev fPg) tPg
  h.setMNode fMap (n.setSpace tSpace)

/-- `mdb_map`: the mapping node of the new mapping, and the database after it. -/
def mdbMap (h : Mdb) (fMap fPg : Word) (fPgsize : Nat) (fAddr tPg : Word) (tPgsize : Nat)
    (tSpace : Word) : Option (Word × Mdb) := do
  if fAddr &&& 1 ≠ 0 then
    return (fMap, mdbGrant h fMap fPg tPg tSpace)
  let newdepth := (h.mnode fMap).getDepth + 1
  let (dual, nmap) := mnodeNext h fMap
  let (newm, h) ← h.allocBuffer .mnode
  if fPgsize = tPgsize then
    -- Hook new node directly below mapping node.
    let n := ((((h.mnode newm).setBacklinkM fMap tPg).setSpace tSpace).setDepth newdepth).clearLocks
    let h := h.setMNode newm (n.setNextM nmap)
    let h := if dual ≠ 0 then h.setDual dual { h.dual dual with map := newm }
      else h.setMNode fMap ((h.mnode fMap).setNextM newm)
    let h := if nmap ≠ 0 then
        h.setMNode nmap ((h.mnode nmap).setBacklinkM newm ((h.mnode nmap).getPgentM fMap))
      else h
    return (newm, h)
  else if tPgsize < fPgsize then
    let f := fPgsize - 1
    let (root, dual, nmap, h) ←
      if dual = 0 then do
        -- New array needs to be created.
        let (d, h) ← mdbCreateRoots f h
        let h := h.setDual d { h.dual d with map := nmap }
        let root := mdbIndexRoot f (h.dual d).root fAddr
        pure (root, (0 : Word), (0 : Word), h.setMNode fMap ((h.mnode fMap).setNextR d))
      else
        let root := mdbIndexRoot f (h.dual dual).root fAddr
        let (dual, nmap) := rnodeNext h root
        pure (root, dual, nmap, h)
    let (root, dual, nmap, h) ← mdbDescend fAddr tPgsize f root dual nmap h
    let n := (((h.mnode newm).setBacklinkR root tPg).setSpace tSpace).setDepth newdepth
    let h := h.setMNode newm (n.setNextM nmap)
    let h := if dual ≠ 0 then h.setDual dual { h.dual dual with map := newm }
      else h.setRNode root (RNode.ptrM newm)
    let h := if nmap ≠ 0 then
        h.setMNode nmap ((h.mnode nmap).setBacklinkM newm ((h.mnode nmap).getPgentR root))
      else h
    return (newm, h)
  else
    -- The page sizes are the wrong way round: the kernel debugger is entered.
    return (newm, h)

end Hazelnut
