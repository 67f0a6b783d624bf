import Hazelnut.Lib.Bytes

/-!
The allocator of user programs, after `apps/lib/l4malloc/libl4malloc.c`.

Free areas and allocated blocks are described by nodes that lie in the heap itself.  The
nodes of each kind are linked in both directions between two static nodes.

* `Layout`: the addresses of the static nodes and of the end of the program.
* `MHeap`: the bytes of memory, and the static variables.
* `malloc`, `free`: the functions of the source.  The result is `none` if they do not return:
  if the address space has no more pages for the pager to supply, or if null is dereferenced.
-/

namespace Hazelnut

open Bytes

/-- The addresses of `head`, `tail`, `a_head`, `a_tail` and `_end`.  The nodes are not at null,
do not overlap and lie in the program. -/
structure Layout where
  head : Nat
  tail : Nat
  aHead : Nat
  aTail : Nat
  dataEnd : Nat
  apart : [head, tail, aHead, aTail].Pairwise fun x y => x + 16 ≤ y ∨ y + 16 ≤ x
  inside : ∀ x ∈ [head, tail, aHead, aTail], 0 < x ∧ x + 16 ≤ dataEnd
  fits : dataEnd + 4096 ≤ 2 ^ 32

/-- The first page boundary behind the program. -/
def Layout.heapStart (L : Layout) : Nat := (L.dataEnd + 4095) / 4096 * 4096

/-- The bytes of memory, with `init` and `heap_end`. -/
structure MHeap where
  mem : Nat → Nat
  init : Bool
  heapEnd : Nat

namespace Nodes

variable (m : Nat → Nat) (x v : Nat)

/-- The fields of `struct node_t`. -/
def base : Nat := ld m x
def size : Nat := ld m (x + 4)
def next : Nat := ld m (x + 8)
def prev : Nat := ld m (x + 12)

def setBase : Nat → Nat := st m x v
def setSize : Nat → Nat := st m (x + 4) v
def setNext : Nat → Nat := st m (x + 8) v
def setPrev : Nat → Nat := st m (x + 12) v

end Nodes

open Nodes

variable (L : Layout)

/-- Initialization by the first call of `malloc`. -/
def mallocInit (h : MHeap) : MHeap :=
  if h.init then h
  else
    let m := setNext h.mem L.head L.tail
    let m := setPrev m L.tail L.head
    let m := setNext m L.aHead L.aTail
    let m := setPrev m L.aTail L.aHead
    { mem := m, init := true, heapEnd := L.heapStart }

/-- The search for a free area, from the node `tmp` on. -/
def findFit (m : Nat → Nat) (sz : Nat) : Nat → Nat → Option (Option Nat)
  | 0, _ => none
  | fuel + 1, tmp =>
    if tmp = L.tail then some none
    else if (sz + 16) % 2 ^ 32 ≤ size m tmp then some (some tmp)
    else findFit m sz fuel (next m tmp)

/-- A block is taken from the front of the area of `tmp`. -/
def takeBlock (tmp sz : Nat) (m : Nat → Nat) : Nat × (Nat → Nat) :=
  let tmp2 := base m tmp
  let m := setBase m tmp2 (base m tmp + 16)
  let m := setSize m tmp2 sz
  -- Update size and base of the node we took memory from.
  let m := setBase m tmp (base m tmp + (sz + 16))
  let m := setSize m tmp (size m tmp + 2 ^ 32 - (sz + 16))
  -- Insert allocation info into head of allocation list.
  let m := setNext m tmp2 (next m L.aHead)
  let m := setPrev m tmp2 L.aHead
  let m := setPrev m (next m L.aHead) tmp2
  let m := setNext m L.aHead tmp2
  (base m tmp2, m)

/-- The pages needed for a block, with one more. -/
def mallocPages (sz : Nat) : Nat := (sz + 16 + 4095) % 2 ^ 32 / 4096 + 1

/-- More memory.  `malloc_get_pages` does not return if the pages are not there. -/
def mallocGrow (sz : Nat) (h : MHeap) : Option MHeap :=
  let pages := mallocPages sz
  let tmp := h.heapEnd
  if 2 ^ 32 ≤ tmp + pages * 4096 then none
  else
    let m := h.mem
    let m :=
      if (base m (prev m L.tail) + size m (prev m L.tail)) % 2 ^ 32 = tmp then
        -- We should coalesce.
        setSize m (prev m L.tail) (size m (prev m L.tail) + pages * 4096)
      else
        -- Create a new node.
        let m := setSize m tmp (pages * 4096 - 16)
        let m := setBase m tmp (tmp + 16)
        let m := setNext m (prev m L.tail) tmp
        let m := setPrev m tmp (prev m L.tail)
        let m := setNext m tmp L.tail
        setPrev m L.tail tmp
    some { h with mem := m, heapEnd := tmp + pages * 4096 }

/-- More than the nodes that have room in the address space. -/
def mallocFuel : Nat := 2 ^ 32

/-- `malloc`, with at most `n` calls in all. -/
def malloc : Nat → Nat → MHeap → Option (Nat × MHeap)
  | 0, _, _ => none
  | n + 1, sz, h =>
    let h := mallocInit L h
    match findFit L h.mem sz mallocFuel (next h.mem L.head) with
    | none => none
    | some (some tmp) =>
      let (p, m) := takeBlock L tmp sz h.mem
      some (p, { h with mem := m })
    | some none =>
      match mallocGrow L sz h with
      | none => none
      | some h' => if h.heapEnd = 0 then some (0, { h with heapEnd := h'.heapEnd })
          else malloc n sz h'

/-- The search for an allocated block, from the node `tmp` on. -/
def findAlloc (m : Nat → Nat) (ptr : Nat) : Nat → Nat → Option (Option Nat)
  | 0, _ => none
  | fuel + 1, tmp =>
    if tmp = L.aTail then some none
    else if tmp = 0 then none
    else if base m tmp = ptr then some (some tmp)
    else findAlloc m ptr fuel (next m tmp)

/-- The node `tmp` is put in before `tmp2`. -/
def insertBefore (tmp tmp2 : Nat) (m : Nat → Nat) : Nat → Nat :=
  let m := setNext m (prev m tmp2) tmp
  let m := setPrev m tmp (prev m tmp2)
  let m := setNext m tmp tmp2
  setPrev m tmp2 tmp

/-- The block of `tmp` goes back into the list of free areas, from the node `tmp2` on. -/
def putBack (tmp : Nat) (m : Nat → Nat) : Nat → Nat → Option (Nat → Nat)
  | 0, _ => none
  | fuel + 1, tmp2 =>
    if tmp2 = L.tail then some (insertBefore tmp tmp2 m)
    else if base m tmp2 = (base m tmp + size m tmp) % 2 ^ 32 then
      -- Coalesce before `tmp2`.
      let m := setBase m tmp2 (base m tmp2 + 2 ^ 32 - (size m tmp + 16))
      some (setSize m tmp2 (size m tmp2 + (size m tmp + 16)))
    else if (base m tmp2 + size m tmp2) % 2 ^ 32 = tmp then
      -- Coalesce after `tmp2`.
      some (setSize m tmp2 (size m tmp2 + (size m tmp + 16)))
    else if base m tmp < base m tmp2 then some (insertBefore tmp tmp2 m)
    else putBack tmp m fuel (next m tmp2)

/-- `free`. -/
def free (ptr : Nat) (h : MHeap) : Option MHeap :=
  match findAlloc L h.mem ptr mallocFuel (next h.mem L.aHead) with
  | none => none
  | some none => some h
  | some (some tmp) =>
    -- Remove the node from the list of allocated entries.
    let m := setNext h.mem (prev h.mem tmp) (next h.mem tmp)
    let m := setPrev m (next m tmp) (prev m tmp)
    match putBack L tmp m mallocFuel (next m L.head) with
    | none => none
    | some m => some { h with mem := m }

end Hazelnut
