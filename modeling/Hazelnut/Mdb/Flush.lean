import Hazelnut.Mdb.Node

/-!
`mdb_flush` of `kernel/src/mapping.c`, as a machine over its local variables.

`flushVisit` is the body of the outer loop up to the walk over the root array,
`flushScan` one round of that walk, and `flushStep` strings them together;
`mdbFlush` runs the machine.  Flushing TLB entries is left out.
-/

namespace Hazelnut

/-- `MDB_ALL_SPACES`. -/
def mdbAllSpaces : Word := 0x80000000

/-- `MDB_FLUSH`. -/
def mdbFlushBit : Word := 0x2

/-- The mapping database and the page tables. -/
structure Maps where
  mdb : Mdb
  ptab : Ptab

/-- The local variables of `mdb_flush`, with the state it works on.  The arrays
`r_nmap`, `r_root`, `r_rcnt` and `r_prev` are indexed by page size. -/
structure Flush extends Maps where
  fMap : Word
  fPg : Word
  fPgsize : Nat
  mode : Word
  pmap : Word
  proot : Word
  root : Word
  rcnt : Nat
  rNmap : Nat → Word
  rRoot : Nat → Word
  rRcnt : Nat → Nat
  rPrev : Nat → Word

namespace Flush

variable (s : Flush)

/-- `mode & MDB_ALL_SPACES`. -/
def allSpaces : Prop := s.mode &&& mdbAllSpaces ≠ 0

instance : Decidable s.allSpaces := inferInstanceAs (Decidable (_ ≠ _))

/-- `mode & MDB_FLUSH`. -/
def flushing : Prop := s.mode &&& mdbFlushBit ≠ 0

instance : Decidable s.flushing := inferInstanceAs (Decidable (_ ≠ _))

/-- The previous mapping node or root node of the node that is visited. -/
def locate : Flush :=
  let n := s.mdb.mnode s.fMap
  { s with
    pmap := if n.isPrevRoot then 0 else n.getPrev s.fPg
    proot := if n.isPrevRoot then n.getPrev s.fPg else 0 }

/-- "Remove ourselves": the node is unlinked and freed, its entry cleared. -/
def remove (nmap : Word) : Flush :=
  let h := s.mdb
  let h := if s.pmap ≠ 0 then
      let h := h.setMNode s.pmap ((h.mnode s.pmap).setNextM nmap)
      if nmap ≠ 0 then
        h.setMNode nmap ((h.mnode nmap).setBacklinkM s.pmap ((h.mnode nmap).getPgentM s.fMap))
      else h
    else
      let h := h.setRNode s.proot (RNode.ptrM nmap)
      if nmap ≠ 0 then
        h.setMNode nmap ((h.mnode nmap).setBacklinkR s.proot ((h.mnode nmap).getPgentM s.fMap))
      else h
  { s with mdb := h.freeBuffer .mnode s.fMap, ptab := s.ptab.clear s.fPg }

/-- What happens to the node that is visited. -/
def treat (nmap : Word) : Flush :=
  if s.allSpaces then
    if s.flushing then s.remove nmap
    else { s with ptab := s.ptab.setReadonly s.fPg, pmap := s.fMap, proot := 0 }
  else { s with pmap := s.fMap, proot := 0 }

/-- The branch for nodes with a dual node: go for the root array below. -/
def enter (fAddr : Word) (t : Nat) (dual nmap : Word) : Flush :=
  let f := s.fPgsize - 1
  let array := (s.mdb.dual dual).root
  if f < t then
    { s with
      fMap := 0
      fPgsize := f
      rPrev := Function.update s.rPrev f (if s.pmap ≠ 0 then s.pmap ||| 1 else s.proot)
      rNmap := Function.update s.rNmap f nmap
      rRoot := Function.update s.rRoot f s.root
      rRcnt := Function.update s.rRcnt f s.rcnt
      root := array - 4
      rcnt := tableSize f
      mdb := if (s.mode &&& mdbFlushBit) &&& (s.mode &&& mdbAllSpaces) ≠ 0
        then s.mdb.freeBuffer .dual dual else s.mdb }
  else
    { s with fMap := 0, fPgsize := f, root := mdbIndexRoot f array fAddr - 4, rcnt := 1 }

/-- The branch for nodes with a next mapping node. -/
def advance (nmap : Word) : Flush :=
  { s with
    fMap := nmap
    fPg := if s.pmap ≠ 0 then (s.mdb.mnode nmap).getPgentM s.pmap
      else (s.mdb.mnode nmap).getPgentR s.proot }

/-- "Recurse up from subarray and delete it." -/
def climb : Flush :=
  let f := s.fPgsize
  let h := if s.flushing then
      s.mdb.freeBuffer .roots (s.root - 4 * BitVec.ofNat 32 (tableSize f - 1)) else s.mdb
  let m := s.rNmap f
  let prev := s.rPrev f
  let pmap := if prev &&& 1 ≠ 0 then prev &&& ~~~1 else 0
  let proot := if prev &&& 1 ≠ 0 then 0 else prev
  { s with
    mdb := h
    fMap := m
    root := s.rRoot f
    rcnt := s.rRcnt f
    pmap := pmap
    proot := proot
    fPg := if m = 0 then s.fPg
      else if prev &&& 1 ≠ 0 then (h.mnode m).getPgentM pmap else (h.mnode m).getPgentR proot
    fPgsize := f + 1 }

/-- What is next after the visited node has been dealt with. -/
def proceed (fAddr : Word) (t : Nat) (dual nmap : Word) : Flush :=
  if dual ≠ 0 then s.enter fAddr t dual nmap
  else if nmap ≠ 0 then s.advance nmap
  else if s.fPgsize < t ∧ s.root ≠ 0 then s.climb
  else s

/-- "From now on, we will remove all nodes." -/
def spread (t : Nat) : Flush :=
  if s.fPgsize ≤ t then { s with mode := s.mode ||| mdbAllSpaces } else s

end Flush

/-- The body of the outer loop, up to the walk over the root array; `none` if a
page is too small to be flushed. -/
def flushVisit (fAddr : Word) (t : Nat) (s : Flush) : Option Flush :=
  let dual := (mnodeNext s.mdb s.fMap).1
  let nmap := (mnodeNext s.mdb s.fMap).2
  if s.allSpaces ∧ t < s.fPgsize ∧ nmap ≠ 0 then none
  else some ({ s.locate.treat nmap with fMap := 0 }.proceed fAddr t dual nmap)

/-- One round of the walk over the root array. -/
def flushScan (s : Flush) : Flush :=
  let root := s.root + 4
  let rcnt := s.rcnt - 1
  let (dual, map) := rnodeNext s.mdb root
  if dual ≠ 0 then
    -- Recurse into subarray before checking mappings.
    let f := s.fPgsize - 1
    let h := if s.flushing then s.mdb.setRNode root (RNode.ptrM map) else s.mdb
    let array := (h.dual dual).root
    { s with
      fMap := 0
      fPgsize := f
      rPrev := Function.update s.rPrev f root
      rNmap := Function.update s.rNmap f map
      rRoot := Function.update s.rRoot f root
      rRcnt := Function.update s.rRcnt f rcnt
      root := array - 4
      rcnt := tableSize f
      mdb := if s.flushing then h.freeBuffer .dual dual else h }
  else if map ≠ 0 then
    { s with
      root := root, rcnt := rcnt, fMap := map
      fPg := (s.mdb.mnode map).getPgentR root
      pmap := 0
      proot := root }
  else { s with root := root, rcnt := rcnt, fMap := 0 }

/-- Where `mdb_flush` stands: before a visit, before a round of the walk over the
root array, or returned. -/
inductive FlushAt where
  | visit (s : Flush)
  | scan (s : Flush)
  | done (r : Int) (s : Flush)

/-- One step of `mdb_flush`. -/
def flushStep (fAddr : Word) (t : Nat) (startdepth : Word) : FlushAt → FlushAt
  | .visit s =>
    match flushVisit fAddr t s with
    | none => .done (-1) s
    | some s => .scan s
  | .scan s =>
    if s.fMap = 0 ∧ 0 < s.rcnt then .scan (flushScan s)
    else if s.fMap ≠ 0 ∧ startdepth < (s.mdb.mnode s.fMap).getDepth then .visit (s.spread t)
    else .done 0 (s.spread t)
  | .done r s => .done r s

/-- The variables `mdb_flush` starts with. -/
def flushInit (k : Maps) (fMap fPg : Word) (fPgsize : Nat) (mode : Word) : Flush where
  toMaps := k
  fMap := fMap
  fPg := fPg
  fPgsize := fPgsize
  mode := mode
  pmap := 0
  proot := 0
  root := 0
  rcnt := 0
  rNmap := fun _ => 0
  rRoot := fun _ => 0
  rRcnt := fun _ => 0
  rPrev := fun _ => 0

/-- `mdb_flush`, for at most `fuel` steps: its result, and the state it leaves. -/
def mdbFlush (fuel : Nat) (k : Maps) (fMap fPg : Word) (fPgsize : Nat) (fAddr : Word) (t : Nat)
    (mode : Word) : Option (Int × Maps) :=
  match (flushStep fAddr t (k.mdb.mnode fMap).getDepth)^[fuel]
      (.visit (flushInit k fMap fPg fPgsize mode)) with
  | .done r s => some (r, s.toMaps)
  | _ => none

end Hazelnut
