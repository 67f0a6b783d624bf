import Mathlib.Logic.Function.Basic
import Hazelnut.Lib.Word
import Hazelnut.Thread.Tcb

/-!
Page table entries, after `pgent_t` of `kernel/include/x86/memory.h`, and the
page size tables of `kernel/include/mapping.h`.

The words of all page tables are one memory, `Ptab`; a `pgent_t *` is an address
in it.  A page table takes two pages, the second of which shadows the first: the
word `PAGE_SIZE` bytes above an entry holds the mapping node of the entry xored
with the virtual address.  The space and page size arguments that the x86
functions ignore are left out.
-/

namespace Hazelnut

/-- The words of the page tables, by their addresses. -/
abbrev Ptab := Word → Word

/-! ### Page sizes -/

/-- `hw_pgshifts` and `mdb_pgshifts`, which are the same table: 4K, 4M and the
whole address space.  The conversions between the two numberings, `mdb_pgsize` and
`hw_pgsize`, are the identity. -/
def pgshift : Nat → Nat
  | 0 => 12
  | 1 => 22
  | _ => 32

/-- `page_size`. -/
def pageSize (pgsize : Nat) : Word := 1 <<< pgshift pgsize

/-- `page_mask`. -/
def pageMask (pgsize : Nat) : Word := pageSize pgsize - 1

/-- `table_size`: the number of entries of a table of pages of that size. -/
def tableSize (pgsize : Nat) : Nat := 2 ^ (pgshift (pgsize + 1) - pgshift pgsize)

/-- `table_index`. -/
def tableIndex (addr : Word) (pgsize : Nat) : Nat :=
  (addr >>> pgshift pgsize).toNat % tableSize pgsize

/-! ### Entries -/

def pageValid : Word := 0x1
def pageWritable : Word := 0x2
def pageSuper : Word := 0x80
def pageUserBits : Word := 0x5
def pageUserTbits : Word := 0x7

/-- `PAGE_MASK`. -/
def framePart : Word := 0xfffff000

/-- `KERNEL_OFFSET`. -/
def kernelOffset : Word := 0xf0000000

def physToVirt (a : Word) : Word := a + kernelOffset

def virtToPhys (a : Word) : Word := a - kernelOffset

/-- The address of the shadow of an entry. -/
def shadow (pg : Word) : Word := pg + 0x1000

namespace Ptab

variable (m : Ptab) (pg : Word)

def isValid : Prop := m pg &&& pageValid ≠ 0

instance : Decidable (m.isValid pg) := inferInstanceAs (Decidable (_ ≠ _))

def isWritable : Prop := m pg &&& pageWritable ≠ 0

instance : Decidable (m.isWritable pg) := inferInstanceAs (Decidable (_ ≠ _))

def isSubtree (pgsize : Nat) : Prop := pgsize = 1 ∧ m pg &&& pageSuper = 0

instance (pgsize : Nat) : Decidable (m.isSubtree pg pgsize) :=
  inferInstanceAs (Decidable (_ ∧ _))

def address : Word := m pg &&& framePart

def subtree : Word := physToVirt (m pg &&& framePart)

def mapnode (vaddr : Word) : Word := m (shadow pg) ^^^ vaddr

/-- `clear`: the entry and its shadow are zeroed. -/
def clear : Ptab := Function.update (Function.update m pg 0) (shadow pg) 0

/-- `make_subtree`, given the two pages `kmem_alloc` returned; they are zeroed. -/
def makeSubtree (table : Word) : Ptab :=
  Function.update
    (fun a => if (a - table).toNat < 0x2000 then 0 else m a) pg (virtToPhys table ||| pageUserTbits)

def setEntry (addr : Word) (writable : Prop) [Decidable writable] (pgsize : Nat) : Ptab :=
  Function.update m pg ((addr &&& framePart) ||| pageUserBits |||
    (if writable then pageWritable else 0) ||| (if pgsize = 1 then pageSuper else 0))

def setWritable : Ptab := Function.update m pg (m pg ||| pageWritable)

def setReadonly : Ptab := Function.update m pg (m pg &&& ~~~pageWritable)

def setMapnode (map vaddr : Word) : Ptab := Function.update m (shadow pg) (map ^^^ vaddr)

end Ptab

/-- `next`: the `n`th entry after this one. -/
def pgentNext (pg : Word) (n : Nat) : Word := pg + 4 * BitVec.ofNat 32 n

end Hazelnut
