import Mathlib.Algebra.Group.Nat.Defs
import Mathlib.Logic.Function.Basic

/-!
The root pager, after `apps/sigma0/sigma0-new.c` for x86 with I/O flexpages.

* `Sigma0`: `page_array` and `io_space`, with the start of main memory from the kernel info
  page.
* `initSpace`, `allocateSpace`, `allocateAny`, `freeSpace`, `allocateIoSpace`, `freeIoSpace`:
  the functions of the source.  `1 << n` uses the low five bits of `n`.
* `handle`: one turn of the loop of `sigma0_main`, with the older encodings of requests.
-/

namespace Hazelnut

/-- The markers in `page_array`, next to the numbers of tasks. -/
def pageReserved : Nat := 0xff
def pageFree : Nat := 0xfe
def pageShared : Nat := 0xfc
def pageRoot : Nat := 0x04

def portFree : Nat := 0
def maxMem : Nat := 256 * 1024 * 1024
def noMap : Nat := 2 ^ 32 - 1
def iofpLoBound : Nat := 0xf0000000
def iofpHiBound : Nat := 0xfffff000

/-- `1 << n`. -/
def shl (n : Nat) : Nat := 2 ^ (n % 32)

/-- The fields of an I/O flexpage. -/
def iofpPort (x : Nat) : Nat := x / 4096 % 65536
def iofpLdSize (x : Nat) : Nat := x / 4 % 64
def iofpSize (x : Nat) : Nat := shl (iofpLdSize x)

/-- Whether an address is that of an I/O flexpage. -/
def IsIofp (x : Nat) : Prop := iofpLoBound ≤ x ∧ x ≤ iofpHiBound

instance (x : Nat) : Decidable (IsIofp x) := by unfold IsIofp; infer_instance

/-- `page_array`, `io_space` and `kip->main_memory.low`. -/
structure Sigma0 where
  low : Nat
  pages : Nat → Nat
  ports : Nat → Nat

/-- A memory descriptor in the kernel info page, and what it is marked with. -/
structure MemDesc where
  low : Nat
  high : Nat
  mark : Nat

/-- The pages from `i` on are marked. -/
def markRange (base v : Nat) : Nat → Nat → (Nat → Nat) → Nat → Nat
  | 0, _, p => p
  | n + 1, i, p => markRange base v n (i + 1) (Function.update p (i - base) v)

/-- `setmem`. -/
def setmem (main d : MemDesc) (p : Nat → Nat) : Nat → Nat :=
  if d.high ≠ 0 ∧ main.low ≤ d.low ∧ d.high ≤ main.high then
    markRange (main.low / 4096) d.mark (d.high / 4096 - d.low / 4096) (d.low / 4096) p
  else p

/-- `init_space`: `main` is the main memory, and `ds` are the other descriptors in the order of
the source. -/
def initSpace (main : MemDesc) (ds : List MemDesc) : Sigma0 where
  low := main.low
  pages := ds.foldl (fun p d => setmem main d p) (setmem main main fun _ => pageReserved)
  ports := fun _ => portFree

/-- The loop of `allocate_space` that checks the pages. -/
def checkPages (space : Nat) (p : Nat → Nat) : Nat → Nat → Nat → Bool
  | 0, tmp, _ => tmp < maxMem
  | n + 1, tmp, idx =>
    if tmp < maxMem then
      if p idx = pageFree ∨ p idx = pageShared ∨ p idx = space then
        checkPages space p n (tmp + 4096) (idx + 1)
      else false
    else false

/-- The loop that marks pages as allocated. -/
def markPages (space : Nat) : Nat → Nat → (Nat → Nat) → Nat → Nat
  | 0, _, p => p
  | n + 1, idx, p =>
    markPages space n (idx + 1) (if p idx = pageFree then Function.update p idx space else p)

/-- The loop of `allocate_io_space` that checks the ports. -/
def checkPorts (space : Nat) (p : Nat → Nat) : Nat → Nat → Bool
  | 0, _ => true
  | n + 1, idx =>
    if p idx ≠ portFree ∧ p idx ≠ space then false else checkPorts space p n (idx + 1)

/-- The loops that set ports. -/
def setPorts (v : Nat) : Nat → Nat → (Nat → Nat) → Nat → Nat
  | 0, _, p => p
  | n + 1, idx, p => setPorts v n (idx + 1) (Function.update p idx v)

/-- `allocate_io_space`. -/
def allocateIoSpace (space addr : Nat) (s : Sigma0) : Nat × Sigma0 :=
  let size := iofpSize addr
  let port := iofpPort addr
  if 65536 < port + size then (noMap, s)
  else if checkPorts space s.ports size port then
    (addr, { s with ports := setPorts space size port s.ports })
  else (noMap, s)

/-- `free_io_space`. -/
def freeIoSpace (space addr : Nat) (s : Sigma0) : Sigma0 :=
  let size := iofpSize addr
  let port := iofpPort addr
  if 65536 < port + size then s
  else if checkPorts space s.ports size port then
    { s with ports := setPorts portFree size port s.ports }
  else s

/-- `allocate_space` at an address. -/
def allocateSpace (space addr size : Nat) (s : Sigma0) : Nat × Sigma0 :=
  if addr < s.low then (noMap, s)
  else if IsIofp addr then allocateIoSpace space addr s
  else if size < 12 then (noMap, s)
  else
    let addr := addr / shl size * shl size
    let tmp := (addr + 2 ^ 32 - s.low) % 2 ^ 32
    let num := shl (size - 12)
    let idx := tmp / 4096
    if checkPages space s.pages num tmp idx then
      (addr, { s with pages := markPages space num idx s.pages })
    else (noMap, s)

/-- The inner loop of the search for free pages: what is left of `num`, and `tmp`. -/
def scanPages (p : Nat → Nat) : Nat → Nat → Nat → Nat × Nat
  | 0, tmp, _ => (0, tmp)
  | n + 1, tmp, idx =>
    if tmp ≤ maxMem then
      if n = 0 then (0, tmp)
      else if p idx ≠ pageFree then (n, tmp)
      else scanPages p n (tmp + 4096) (idx + 1)
    else (n + 1, tmp)

/-- The search for free pages, from an address on. -/
def findPages (size : Nat) (p : Nat → Nat) : Nat → Nat → Option (Option Nat)
  | 0, _ => none
  | fuel + 1, addr =>
    if addr < maxMem then
      let (num, tmp) := scanPages p (shl (size - 12) + 1) addr (addr / 4096)
      if num = 0 then some (some addr)
      else if maxMem ≤ tmp then some none
      else findPages size p fuel (addr + shl size)
    else some none

/-- `allocate_space` anywhere. -/
def allocateAny (space size : Nat) (s : Sigma0) : Option (Nat × Sigma0) :=
  if size < 12 then some (noMap, s)
  else
    match findPages size s.pages (maxMem + 1) 0 with
    | none => none
    | some none => some (noMap, s)
    | some (some addr) =>
      some ((s.low + addr) % 2 ^ 32,
        { s with pages := markPages space (shl (size - 12)) (addr / 4096) s.pages })

/-- Whether a task owns all pages of a region. -/
def ownsAll (space : Nat) (p : Nat → Nat) : Nat → Nat → Bool
  | 0, _ => true
  | n + 1, idx => p idx = space && ownsAll space p n (idx + 1)

/-- The loop of `free_space` that frees the pages of a region. -/
def freePages (space addr endaddr : Nat) : Nat → Nat → Nat → (Nat → Nat) → Nat → Nat
  | 0, _, _, p => p
  | n + 1, idx, tmp, p =>
    freePages space addr endaddr n (idx + 1) (tmp + 4096)
      (if addr ≤ tmp ∧ tmp ≤ endaddr ∧ p idx = space then Function.update p idx pageFree else p)

/-- The loop of `free_space` over the regions of one size. -/
def freeRegions (space addr endaddr shift : Nat) : Nat → Nat → (Nat → Nat) → Nat → Nat
  | 0, _, p => p
  | n + 1, plus, p =>
    let tmp := (addr / 2 ^ shift * 2 ^ shift + plus) % 2 ^ 32
    let num := 2 ^ (shift - 12)
    let idx := tmp / 4096
    freeRegions space addr endaddr shift n (plus + 2 ^ shift)
      (if ownsAll space p num idx then freePages space addr endaddr num idx tmp p else p)

/-- `free_space`: regions of 4 MB, and then pages. -/
def freeSpace (space addr size : Nat) (s : Sigma0) : Sigma0 :=
  if IsIofp addr then freeIoSpace space addr s
  else if size < 12 then s
  else
    let addr := addr / shl size * shl size
    let endaddr := (addr + shl size + 2 ^ 32 - 4096) % 2 ^ 32
    let snum := fun shift => if shift < size then shl (size - shift) else 1
    let p := freeRegions space addr endaddr 22 (snum 22) 0 s.pages
    { s with pages := freeRegions space addr endaddr 12 (snum 12) 0 p }

/-- What the client is sent. -/
inductive Reply
  | nothing
  | noMap
  /-- The kernel info page, or the amount of memory for the kernel. -/
  | info
  /-- The pages at an address. -/
  | memory (base size : Nat)
  /-- An I/O flexpage. -/
  | ports (raw : Nat)
  deriving DecidableEq

/-- `l4_fpage`. -/
def fpageRaw (addr size write grant : Nat) : Nat :=
  addr / 4096 * 4096 % 2 ^ 32 + 4 * (size % 64) + 2 * write + grant

/-- The flexpage that is asked for, from the three words of a message. -/
def decodeRequest (dw0 dw1 raw : Nat) : Nat :=
  if dw0 = 0xfffffffc then fpageRaw 0 12 0 1
  else if (raw = 0 ∧ dw0 ≠ 1) ∨ dw0 % 4 = 0 then
    if 1024 * 1024 * 1024 < dw0 then
      if IsIofp dw0 then (dw0 + 3) % 2 ^ 32
      else fpageRaw ((dw0 + 1024 * 1024 * 1024) % 2 ^ 32) 22 1 1
    else fpageRaw dw0 12 1 1
  else if dw0 % 4 = 1 ∧ dw1 = 4 * 22 then fpageRaw dw0 22 1 1
  else raw

/-- The reply to an allocation. -/
def allocReply (raw size dw0 : Nat) : Reply :=
  if dw0 = Hazelnut.noMap then .noMap
  else if IsIofp raw then
    -- Only a request for an address is one for ports.
    if raw / 2 % 2 = 1 then .ports (dw0 / 4 * 4) else .memory (dw0 / 4 * 4) 0
  else .memory dw0 size

/-- One turn of the loop of `sigma0_main`, for a message of the task `space`. -/
def handle (space dw0 dw1 raw : Nat) (s : Sigma0) : Option (Reply × Sigma0) :=
  let raw := decodeRequest dw0 dw1 raw
  let size := raw / 4 % 64
  if dw0 = 1 then some (.info, s)
  else if raw % 2 = 1 then
    if raw / 2 % 2 = 1 then
      let (a, s) := allocateSpace space raw size s
      some (allocReply raw size a, s)
    else (allocateAny space size s).map fun (a, s) => (allocReply raw size a, s)
  else some (.nothing, freeSpace space raw size s)

end Hazelnut
