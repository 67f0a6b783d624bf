import Hazelnut.Io.Node

/-!
Mapping, granting and unmapping of I/O ports, after `kernel/src/x86/io_mapping.c`.

A `tcb_t *` is the number of its task, and loops carry fuel.  Failures of `set_iopbm` and
`zero_iopbm` do not occur, as `install_iopbm` returns 0.
-/

namespace Hazelnut.Io

/-- `FLUSH_OWN_SPACE`. -/
def flushOwnSpace : Word := 0x80000000

/-! ### Flexpages -/

/-- `IOFP_PORT`. -/
def iofpPort (fp : Word) : Word := (fp >>> 12) &&& 0xffff

/-- `IOFP_SIZE`; the shift of the hardware looks at five bits of the size field. -/
def iofpSize (fp : Word) : Word := 1 <<< (((fp >>> 2) &&& 0x3f).toNat % 32)

/-- The grant bit of an `fpage_t`. -/
def iofpGrant (fp : Word) : Prop := fp &&& 1 ≠ 0

instance (fp : Word) : Decidable (iofpGrant fp) := inferInstanceAs (Decidable (_ ≠ _))

/-- `get_iospace`. -/
def getIospace (tid : Word) : IoM Word := do
  return (← deref ((← get).iospace tid)).nextSt

/-! ### Unmapping -/

/-- The local variables of the loop of `unmap_subtree`. -/
structure Cut where
  n : Word
  splitDepth : Word
  nLeftEnd : Word

/-- "If the node is not part of a split subtree, set split mark to infinite." -/
def Cut.leaveSplit (c : Cut) (depth : Word) : Cut :=
  if depth ≤ c.splitDepth then { c with splitDepth := iomdbSupDepth } else c

/-- The node lies in the range: it is freed. -/
def unmapWhole (c : Cut) : IoM Cut := do
  deqThreadList c.n
  deqSubtree c.n
  let nd ← deref c.n
  setIopbm nd.getTid nd.getLo (nd.getHi - nd.getLo)
  let c' := c.leaveSplit nd.getDepth
  let tmp := (← deref c.n).prev
  mdbFreeNode c.n
  return { c' with n := tmp }

/-- The range begins before the node and ends in or before it. -/
def unmapFront (hi : Word) (c : Cut) : IoM Cut := do
  let nd ← deref c.n
  if hi > nd.getLo then
    setIopbm nd.getTid nd.getLo (hi - nd.getLo)
    writeNode c.n fun n => n.setLo hi
  return c.leaveSplit nd.getDepth

/-- The range begins in or after the node and ends after it. -/
def unmapBack (lo : Word) (c : Cut) : IoM Cut := do
  let nd ← deref c.n
  if lo < nd.getHi then
    setIopbm nd.getTid lo (nd.getHi - lo)
    writeNode c.n fun n => n.setHi lo
  if nd.getDepth > c.splitDepth then
    let tmp := (← deref c.n).next
    deqSubtree c.n
    enqSubtree c.n c.nLeftEnd
    let n := (← deref (← deref tmp).next).prev
    return { c with n := n, nLeftEnd := c.n }
  else
    return { c with splitDepth := iomdbSupDepth }

/-- The range begins and ends in the node: it is split. -/
def unmapSplit (lo hi : Word) (c : Cut) : IoM Cut := do
  let nd ← deref c.n
  setIopbm nd.getTid lo (hi - lo)
  let left ← mdbAllocNode
  let nd ← deref c.n
  writeNode left fun n => n.setValues nd.getLo lo nd.getTid nd.getDepth false
  writeNode c.n fun n => n.setLo hi
  enqThreadList left c.n
  if (← deref c.n).getDepth > c.splitDepth then
    enqSubtree left c.nLeftEnd
    let ed ← deref c.nLeftEnd
    let ld ← deref left
    setParent left (if ed.getDepth < ld.getDepth then c.nLeftEnd else ld.parent)
    return { c with nLeftEnd := left }
  else
    enqSubtree left (← deref c.n).prev
    setParent left (← deref c.n).parent
    return { c with splitDepth := (← deref c.n).getDepth, nLeftEnd := left }

/-- One turn of the loop of `unmap_subtree`. -/
def unmapNode (lo hi : Word) (c : Cut) : IoM Cut := do
  let nd ← deref c.n
  let c ←
    if lo ≤ nd.getLo then
      if hi ≥ nd.getHi then unmapWhole c else unmapFront hi c
    else
      if hi > nd.getHi then unmapBack lo c else unmapSplit lo hi c
  return { c with n := (← deref c.n).next }

/-- The loop of `unmap_subtree`; `own` is the local `mapmask`. -/
def unmapLoop (root lo hi : Word) : Nat → Bool → Cut → IoM Unit
  | 0, _, _ => throw .fuel
  | k + 1, own, c => do
      if (← deref c.n).getDepth > (← deref root).getDepth ∨ own then
        unmapLoop root lo hi k false (← unmapNode lo hi c)

/-- `unmap_subtree`. -/
def unmapSubtree (fuel : Nat) (root lo hi mapmask : Word) : IoM Unit := do
  let own := decide (mapmask &&& flushOwnSpace ≠ 0)
  let n ← if own then pure root else do pure (← deref root).next
  unmapLoop root lo hi fuel own ⟨n, iomdbSupDepth, 0⟩

/-- The loop of `unmap_io_fpage`. -/
def unmapIoLoop (fuel : Nat) (lo hi mapmask : Word) : Nat → Word → IoM Unit
  | 0, _ => throw .fuel
  | k + 1, parent => do
      let nd ← deref parent
      if nd.getDummy = 0 then
        if nd.getLo < hi then
          let tmp := nd.nextSt
          if nd.getHi > lo then unmapSubtree fuel parent lo hi mapmask
          unmapIoLoop fuel lo hi mapmask k tmp

/-- `unmap_io_fpage`. -/
def unmapIoFpage (fuel : Nat) (fromTid fp mapmask : Word) : IoM Unit := do
  let lo := iofpPort fp
  let hi := lo + iofpSize fp
  if iofpSize fp > 1 <<< 16 then return
  unmapIoLoop fuel lo hi mapmask fuel (← getIospace fromTid)

/-! ### Granting -/

/-- The loop of `grant_subtree` that copies the nodes below `root`; `nNew` is the last copy and
`nCur` the node the next copy is chained in behind. -/
def grantLoop (root newRoot : Word) : Nat → Word → Word → Word → IoM Word
  | 0, _, _, _ => throw .fuel
  | k + 1, n, nNew, nCur => do
      let nd ← deref n
      if nd.getDepth > (← deref root).getDepth then
        let nr ← deref newRoot
        if nd.getLo < nr.getHi ∧ nd.getHi > nr.getLo then
          let nNew ← mdbAllocNode
          writeNode nNew fun x => x.setValues (if nd.getLo < nr.getLo then nr.getLo else nd.getLo)
            (if nd.getHi < nr.getHi then nd.getHi else nr.getHi) nd.getTid nd.getDepth false
          setParent nNew newRoot
          setPrev nNew nCur
          setNext nCur nNew
          enqThreadList nNew (← deref n).nextSt
          grantLoop root newRoot k (← deref n).next nNew n
        else
          grantLoop root newRoot k nd.next nNew nCur
      else
        return nNew

/-- The loop of `grant_subtree` over the new subtree, which switches nodes in the lists of the
tasks. -/
def switchLoop (newRoot : Word) : Nat → Word → IoM Unit
  | 0, _ => throw .fuel
  | k + 1, n => do
      let tmp := (← deref n).prevSt
      if (← deref tmp).getHi > (← deref n).getLo then
        setNextSt (← deref tmp).prevSt n
        setPrevSt (← deref n).nextSt tmp
        setNextSt tmp (← deref n).nextSt
        setNextSt n tmp
        setPrevSt n (← deref tmp).prevSt
        setPrevSt tmp n
      let n := (← deref n).next
      if (← deref n).getDepth > (← deref newRoot).getDepth then switchLoop newRoot k n

/-- `grant_subtree`. -/
def grantSubtree (fuel : Nat) (root dest toTid lo hi : Word) : IoM Word := do
  let newRoot ← mdbAllocNode
  let rd ← deref root
  writeNode newRoot fun x => x.setValues lo hi toTid rd.getDepth false
  setParent newRoot rd.parent
  enqThreadList newRoot (← deref dest).nextSt
  let nNew ← grantLoop root newRoot fuel (← deref root).next newRoot newRoot
  let root := (← deref root).prev
  unmapSubtree fuel (← deref root).next lo hi flushOwnSpace
  setPrev newRoot root
  setNext nNew (← deref root).next
  setNext root newRoot
  setPrev (← deref nNew).next nNew
  switchLoop newRoot fuel newRoot
  return newRoot

/-! ### Mapping -/

/-- The loop of `map_io_fpage` that unmaps the range from the destination.  The check for recursive
mappings before it only prints. -/
def clearDest (fuel : Nat) (lo hi : Word) : Nat → Word → IoM Word
  | 0, _ => throw .fuel
  | k + 1, dest => do
      let nd ← deref dest
      if nd.getDummy = 0 then
        if nd.getLo < hi then
          let tmp := nd.nextSt
          if nd.getHi > lo then unmapSubtree fuel dest lo hi flushOwnSpace
          clearDest fuel lo hi k tmp
        else return dest
      else return dest

/-- What `map_io_fpage` does for a node of the mapper that meets the flexpage: the ports from
`lo` to `hi` are mapped or granted.  Returns where the search in the list of the destination
has got to. -/
def mapNode (fuel : Nat) (toTid fp parent dest lo hi : Word) : IoM Word := do
  let dest := (← deref (← clearDest fuel lo hi fuel dest)).prevSt
  let child ←
    if iofpGrant fp then grantSubtree fuel parent dest toTid lo hi
    else do
      let child ← mdbAllocNode
      let depth := (← deref parent).getDepth + 1
      writeNode child fun x => x.setValues lo hi toTid depth false
      setParent child parent
      enqSubtree child parent
      enqThreadList child (← deref dest).nextSt
      pure child
  let cd ← deref child
  zeroIopbm toTid cd.getLo (cd.getHi - cd.getLo)
  return dest

/-- The loop of `map_io_fpage` over the nodes of the mapper. -/
def mapIoLoop (fuel : Nat) (toTid fp : Word) : Nat → Word → Word → IoM Unit
  | 0, _, _ => throw .fuel
  | k + 1, parent, dest => do
      let nd ← deref parent
      if nd.getDummy = 0 then
        let lo := iofpPort fp
        let hi := lo + iofpSize fp
        if nd.getLo < hi then
          let dest ←
            if nd.getHi > lo then
              mapNode fuel toTid fp parent dest (if lo < nd.getLo then nd.getLo else lo)
                (if hi < nd.getHi then hi else nd.getHi)
            else pure dest
          mapIoLoop fuel toTid fp k (← deref parent).nextSt dest

/-- `map_io_fpage`; it returns -1 for a flexpage of the wrong size. -/
def mapIoFpage (fuel : Nat) (fromTid toTid fp : Word) : IoM Int := do
  if iofpSize fp > 1 <<< 16 then return -1
  let parent ← getIospace fromTid
  let dest ← getIospace toTid
  mapIoLoop fuel toTid fp fuel parent dest
  return 0

end Hazelnut.Io
