import Hazelnut.Memory.Pgent
import Hazelnut.Mdb.Flush

/-!
`fpage_unmap` of `kernel/src/memory.c`, as a machine over its local variables.

What `mdb_flush` does to the mapping database and the page tables is a parameter of the walk; the
calls are recorded, and so are the page tables that are handed back to the kernel memory.  Locks and
TLB flushes are left out.
-/

namespace Hazelnut

/-- `USER_LIMIT`, which is `TCB_AREA`. -/
def userLimit : Word := 0xe0000000

/-- The size field of an `fpage_t`. -/
def fpageSize (fp : Word) : Nat := (fp.extractLsb' 2 6).toNat

/-- `address`. -/
def fpageAddress (fp : Word) (num : Nat) : Word := fp &&& ~~~(BitVec.allOnes 32 >>> (32 - num))

/-- The loop that finds the page size to use; both sizes are valid ones of the hardware. -/
def unmapPgsize (num : Nat) : Nat := if pgshift 1 > num then 0 else 1

/-- The arguments of `mdb_flush`. -/
structure FlushCall where
  map : Word
  pg : Word
  size : Nat
  vaddr : Word
  pgsize : Nat
  mapmask : Word
  deriving DecidableEq

/-- What `mdb_flush` does. -/
abbrev Flusher := FlushCall → Maps → Maps

/-- The state the walk works on, the calls of `mdb_flush` and the page tables that have been freed.
-/
structure Unmapped extends Maps where
  calls : List FlushCall
  freed : List Word

/-- `MDB_ALL_SPACES` and `MDB_FLUSH` are both set. -/
def ownFlush (mapmask : Word) : Prop := mapmask &&& mdbAllSpaces ≠ 0 ∧ mapmask &&& mdbFlushBit ≠ 0

instance (mapmask : Word) : Decidable (ownFlush mapmask) := inferInstanceAs (Decidable (_ ∧ _))

namespace Unmapped

/-- An entry is handed to `mdb_flush`. -/
def hand (flush : Flusher) (mapmask pg : Word) (size : Nat) (vaddr : Word) (pgsize : Nat)
    (u : Unmapped) : Unmapped :=
  let c : FlushCall := ⟨u.ptab.mapnode pg (vaddr &&& ~~~pageMask size), pg, size, vaddr,
    pgsize, mapmask⟩
  { toMaps := flush c u.toMaps, calls := u.calls ++ [c], freed := u.freed }

/-- `remove_subtree`. -/
def removeSubtree (pg : Word) (u : Unmapped) : Unmapped :=
  { u with ptab := Function.update u.ptab pg 0, freed := u.freed ++ [u.ptab.subtree pg] }

end Unmapped

/-! ### The walk -/

/-- The local variables of `fpage_unmap`.  The arrays `r_pg` and `r_num` are indexed by page size.
-/
structure Walk extends Unmapped where
  vaddr : Word
  num : Nat
  size : Nat
  pg : Word
  rPg : Nat → Word
  rNum : Nat → Nat

namespace Walk

variable (flush : Flusher) (pgsize : Nat) (mapmask : Word) (s : Walk)

/-- "Recurse up." -/
def climb : Walk :=
  let pg := s.rPg s.size
  let s1 := { s with num := s.rNum s.size, size := s.size + 1 }
  let s2 := if ownFlush mapmask then { s1 with toUnmapped := s1.removeSubtree pg } else s1
  { s2 with pg := pgentNext pg 1 }

/-- `Next_entry`. -/
def nextEntry : Walk :=
  let s1 := { s with pg := pgentNext s.pg 1, vaddr := s.vaddr + pageSize s.size, num := s.num - 1 }
  if s1.num = 0 ∧ s1.size < pgsize then s1.climb mapmask else s1

/-- The rest of the body, behind the test for larger page sizes. -/
def atEntry : Walk :=
  if ¬s.ptab.isValid s.pg then s.nextEntry pgsize mapmask
  else if s.ptab.isSubtree s.pg s.size then
    -- "We have to flush each single page in the subtree."
    let size := s.size - 1
    { s with
      size := size
      rPg := Function.update s.rPg size s.pg
      rNum := Function.update s.rNum size (s.num - 1)
      pg := s.ptab.subtree s.pg
      num := tableSize size }
  else
    { s with
      toUnmapped := s.hand flush mapmask s.pg s.size s.vaddr pgsize }.nextEntry pgsize mapmask

/-- The body of the loop; `none` if it is left. -/
def body : Option Walk :=
  if userLimit ≤ s.vaddr then none
  else if pgsize < s.size then
    if ¬s.ptab.isValid s.pg then none
    else if s.ptab.isSubtree s.pg s.size then
      let size := s.size - 1
      some { s with
        size := size
        pg := pgentNext (s.ptab.subtree s.pg) (tableIndex s.vaddr size) }
    -- "page is to large"
    else if mapmask &&& mdbAllSpaces ≠ 0 then none
    else some (s.atEntry flush pgsize mapmask)
  else some (s.atEntry flush pgsize mapmask)

/-- The loop, for at most `fuel` rounds. -/
def loop : Nat → Walk → Option Unmapped
  | 0, _ => none
  | fuel + 1, s =>
      if s.num = 0 then some s.toUnmapped
      else
        match s.body flush pgsize mapmask with
        | none => some s.toUnmapped
        | some s' => loop fuel s'

end Walk

/-- `fpage_unmap`, for at most `fuel` rounds, on the space with page directory `pgdir`. -/
def fpageUnmap (flush : Flusher) (fuel : Nat) (pgdir fp mapmask : Word) (k : Maps) :
    Option Unmapped :=
  let num := fpageSize fp
  let vaddr := fpageAddress fp num
  let u : Unmapped := { toMaps := k, calls := [], freed := [] }
  if num < pgshift 0 then some u
  else
    let pgsize := unmapPgsize num
    Walk.loop flush pgsize mapmask fuel
      { toUnmapped := u
        vaddr := vaddr
        num := 2 ^ (num - pgshift pgsize)
        size := 1
        pg := pgentNext pgdir (tableIndex vaddr 1)
        rPg := fun _ => 0
        rNum := fun _ => 0 }

end Hazelnut
