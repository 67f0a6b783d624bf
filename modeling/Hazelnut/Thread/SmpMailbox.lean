import Mathlib.Logic.Function.Basic
import Hazelnut.Lib.WaitFor

/-!
The mailboxes of `kernel/src/x86/smp.c` and `kernel/include/x86/smp.h`, through which processors ask
each other for something.

* `Processor`: the mailbox of a processor, and where the processor is in `send_command`,
  `smp_handle_requests` and `do_xcpu_ipc_short`.  What a command does to threads is left out; its
  answer is arbitrary.
* `Plain`: nobody demands a remote unwind, flushes a TLB in the middle of a short IPC, or leaves a
  handler by `switch_to_idle`.
* `Step`: one access of one processor to shared memory.
* `Monitor`: calls that are executed at once, by the processor they are sent to.
* `mailbox_calls`: every interleaving looks like that, as long as it is plain.
* `mailbox_stuck`: where nothing can happen any more, short IPCs wait for each other.
* `mailbox_progress`: without them, something can.
* `mailbox_deadlock`: if they wait, it is for ever.
* `mailbox_stale`: a demanded unwind lets a later command return before it ran.

Left out: `MAILBOX_TIMEOUT`, which only repeats the interrupt, `broadcast_command`, which nobody
uses, and how a thread goes on that was left by `switch_to_idle` out of a handler.
-/

namespace Hazelnut.Smp

/-- `MAILBOX_NULL` and so on. -/
inductive Status where
  | null
  | ok
  | error
  | done
  | unwindRemote
  deriving DecidableEq, Repr

/-- `SMP_CMD_FLUSH_TLB` and so on. -/
inductive Command where
  | flushTlb
  | ipcShort
  | ipcStart
  | ipcEnd
  | ipcReceive
  | threadExRegs
  | threadGet
  | threadPut
  | deleteAllThreads
  | unwind
  deriving DecidableEq, Repr

/-- The handler calls `unwind_ipc`. -/
def Command.Unwinds : Command → Prop
  | .threadExRegs | .deleteAllThreads | .unwind => True
  | _ => False

/-- Where a processor is with a command of its own. -/
inductive Client (C : Type) where
  | idle
  /-- `m_status` and `m_command` are written -/
  | prepared (dst : C) (cmd : Command)
  /-- the loop of `send_command` -/
  | waiting (dst : C) (cmd : Command)
  /-- between `smp_start_short_ipc` and `smp_end_short_ipc` -/
  | transfer (dst : C)
  /-- meanwhile, `smp_flush_tlb` asks `cpu`; `sent` is false before `set_request` -/
  | nested (dst cpu : C) (sent : Bool)
  deriving DecidableEq, Repr

/-- A processor and its `cpu_mailbox_t`.  `stack` has the processors in whose mailboxes it is in
`wait_for_status`, innermost first; `serving` tells that it is in `smp_handle_requests` there, and
`now` is the processor whose request it executes, and `doing` the command of the request. -/
@[ext]
structure Processor (C : Type) where
  status : Status
  command : Command
  pending : C → Bool
  client : Client C
  stack : List C
  serving : Bool
  now : Option C
  doing : Command

/-- What can be seen of a run. -/
inductive Event (C : Type) where
  | sent (src dst : C) (cmd : Command)
  | ran (dst src : C) (cmd : Command) (answer : Status)
  | returned (src : C) (answer : Status)
  /-- the receiver of a short IPC is let run -/
  | resumed (dst src : C)
  /-- `smp_unwind_ipc` while a request is handled -/
  | demanded (dst src : C)
  /-- a TLB flush during the transfer of a short IPC -/
  | nested (src : C)
  /-- a handler is left by `switch_to_idle` -/
  | departed (dst src : C)
  deriving DecidableEq, Repr

/-- All processors, and the events so far. -/
@[ext]
structure System (C : Type) where
  cpu : C → Processor C
  hist : List (Event C)

variable {C : Type} [DecidableEq C]

namespace System

/-- One processor, or its mailbox, is changed. -/
def upd (s : System C) (p : C) (f : Processor C → Processor C) : System C :=
  { s with cpu := Function.update s.cpu p (f (s.cpu p)) }

def log (s : System C) (e : Event C) : System C := { s with hist := s.hist ++ [e] }

variable {s : System C} {p d q : C} {f g : Processor C → Processor C} {e : Event C}

@[simp] lemma upd_cpu : (s.upd p f).cpu q = if q = p then f (s.cpu p) else s.cpu q := by
  simp only [upd, Function.update_apply]

@[simp] lemma upd_hist : (s.upd p f).hist = s.hist := rfl

omit [DecidableEq C] in
@[simp] lemma log_cpu : (s.log e).cpu = s.cpu := rfl

omit [DecidableEq C] in
@[simp] lemma log_hist : (s.log e).hist = s.hist ++ [e] := rfl

lemma log_upd_cpu : ((s.upd p f).log e).cpu q = if q = p then f (s.cpu p) else s.cpu q := by
  rw [log_cpu, upd_cpu]

/-- Two processors are changed. -/
lemma upd_upd_cpu (h : d ≠ p) : ((s.upd d f).upd p g).cpu q =
    if q = p then g (s.cpu p) else if q = d then f (s.cpu d) else s.cpu q := by
  simp only [upd_cpu, if_neg h.symm]

end System

/-- The processor is at none of the loops that wait inside of a handler. -/
def Processor.AtBase (x : Processor C) : Prop := x.stack = [] ∧ x.serving = false ∧ x.now = none

/-- `send_command` writes the mailbox of the processor; commands are sent to other processors. -/
inductive Start : System C → System C → Prop
  | prepare {s : System C} {p d : C} {k : Command} : (s.cpu p).AtBase → (s.cpu p).client = .idle →
      d ≠ p →
      Start s (s.upd p fun x => { x with status := .null, command := k, client := .prepared d k })

/-- Every other step of one processor. -/
inductive Work : System C → System C → Prop
  /-- `set_request` -/
  | signal {s : System C} {p d : C} {k : Command} : (s.cpu p).AtBase →
      (s.cpu p).client = .prepared d k →
      Work s (((s.upd d fun x => { x with pending := Function.update x.pending p true }).upd p
        fun x => { x with client := .waiting d k }).log (.sent p d k))
  /-- the interrupt, or a turn of the loop of `send_command`, finds a request -/
  | enter {s : System C} {p i : C} : (s.cpu p).AtBase →
      ((s.cpu p).client = .idle ∨ (∃ d cmd, (s.cpu p).client = .waiting d cmd) ∨
        ∃ d c, (s.cpu p).client = .nested d c true) → (s.cpu p).pending i = true →
      Work s (s.upd p fun x => { x with serving := true })
  /-- a turn of the loop of `wait_for_status`, which looks at the requests of the other mailbox -/
  | enterNested {s : System C} {p c i : C} {l : List C} : (s.cpu p).stack = c :: l →
      (s.cpu p).serving = false → (s.cpu p).now = none → (s.cpu c).pending i = true →
      Work s (s.upd p fun x => { x with serving := true })
  /-- `smp_handle_requests` takes one of the requests -/
  | take {s : System C} {p i : C} : (s.cpu p).serving = true → (s.cpu p).now = none →
      (s.cpu p).pending i = true →
      Work s (s.upd p fun x =>
        { x with
          pending := Function.update x.pending i false, now := some i, doing := (s.cpu i).command })
  /-- the last request is handled -/
  | leave {s : System C} {p : C} : (s.cpu p).serving = true → (s.cpu p).now = none →
      (∀ i, (s.cpu p).pending i = false) → Work s (s.upd p fun x => { x with serving := false })
  /-- `set_status` at the end of a handler; `do_xcpu_ipc_short` ends so if it refuses -/
  | answer {s : System C} {p i : C} {a : Status} : (s.cpu p).now = some i → a = .error ∨
      a = .ok ∧ (s.cpu p).doing ≠ .ipcShort →
      Work s (((s.upd i fun x => { x with status := a }).upd p fun x => { x with now := none }).log
        (.ran p i (s.cpu p).doing a))
  /-- `do_xcpu_ipc_short` comes to `wait_for_status` -/
  | accept {s : System C} {p i : C} : (s.cpu p).now = some i → (s.cpu p).doing = .ipcShort →
      Work s (((s.upd i fun x => { x with status := .ok }).upd p fun x =>
        { x with now := none, serving := false, stack := i :: x.stack }).log
          (.ran p i .ipcShort .ok))
  /-- `smp_unwind_ipc` sets the status, and the handler goes on -/
  | demand {s : System C} {p i : C} : (s.cpu p).now = some i → (s.cpu p).doing.Unwinds →
      Work s ((s.upd i fun x => { x with status := .unwindRemote }).log (.demanded p i))
  /-- `do_xcpu_thread_get` and `do_xcpu_delete_all_threads` can leave the current thread, with the
  command it may have sent -/
  | depart {s : System C} {p i : C} : (s.cpu p).now = some i →
      (s.cpu p).doing = .threadGet ∨ (s.cpu p).doing = .deleteAllThreads →
      Work s (((s.upd i fun x => { x with status := .ok }).upd p fun x =>
        { x with client := .idle, stack := [], serving := false, now := none }).log (.departed p i))
  /-- `wait_for_status` ends, and the receiver is enqueued -/
  | finish {s : System C} {p i : C} {l : List C} : (s.cpu p).stack = i :: l →
      (s.cpu p).serving = false → (s.cpu p).now = none → (s.cpu i).status ≠ .ok →
      Work s ((s.upd p fun x => { x with stack := l, serving := true }).log (.resumed p i))
  /-- `send_command` returns, and not into a short transfer -/
  | ret {s : System C} {p d : C} {k : Command} : (s.cpu p).AtBase →
      (s.cpu p).client = .waiting d k → (s.cpu p).status ≠ .null →
      ¬(k = .ipcShort ∧ (s.cpu p).status = .ok) →
      Work s ((s.upd p fun x => { x with client := .idle }).log (.returned p (s.cpu p).status))
  /-- the message can be transferred -/
  | retShort {s : System C} {p d : C} : (s.cpu p).AtBase → (s.cpu p).client = .waiting d .ipcShort →
      (s.cpu p).status = .ok → Work s (s.upd p fun x => { x with client := .transfer d })
  /-- `transfer_message` and `smp_end_short_ipc` -/
  | endShort {s : System C} {p d : C} : (s.cpu p).AtBase → (s.cpu p).client = .transfer d →
      Work s ((s.upd p fun x => { x with status := .done, client := .idle }).log (.returned p .ok))
  /-- the transfer has to flush the TLBs of the other processors: `send_command` for one of them -/
  | flush {s : System C} {p d c : C} : (s.cpu p).AtBase → (s.cpu p).client = .transfer d → c ≠ p →
      Work s ((s.upd p fun x =>
        { x with status := .null, command := .flushTlb, client := .nested d c false }).log
          (.nested p))
  | signalFlush {s : System C} {p d c : C} : (s.cpu p).AtBase →
      (s.cpu p).client = .nested d c false →
      Work s (((s.upd c fun x => { x with pending := Function.update x.pending p true }).upd p
        fun x => { x with client := .nested d c true }).log (.sent p c .flushTlb))
  | retFlush {s : System C} {p d c : C} : (s.cpu p).AtBase → (s.cpu p).client = .nested d c true →
      (s.cpu p).status ≠ .null → Work s
        ((s.upd p fun x => { x with client := .transfer d }).log (.returned p (s.cpu p).status))

/-- One step of one processor. -/
def Step (s s' : System C) : Prop := Start s s' ∨ Work s s'

/-- Nobody has a command or handles one. -/
def System.init : System C where
  cpu _ :=
    { status := .null, command := .flushTlb, pending := fun _ => false, client := .idle, stack := []
      serving := false, now := none, doing := .flushTlb }
  hist := []

/-- The states that processors get to in any order of their steps. -/
def Reachable (s : System C) : Prop := Relation.ReflTransGen Step System.init s

/-! ### What a caller may expect -/

/-- What became of the command of a processor. -/
inductive Call (C : Type) where
  | idle
  | sent (dst : C) (cmd : Command)
  | ran (dst : C) (cmd : Command) (answer : Status)
  deriving DecidableEq, Repr

/-- Who has yet to execute the command. -/
def Call.at : Call C → Option C
  | .sent d _ => some d
  | _ => none

/-- The message of a short IPC is being transferred. -/
def Call.Short : Call C → Bool
  | .ran _ .ipcShort .ok => true
  | _ => false

omit [DecidableEq C] in
lemma Call.short_iff {c : Call C} : c.Short = true ↔ ∃ d, c = .ran d .ipcShort .ok := by
  unfold Call.Short
  split <;> simp_all

/-- The calls of all processors, and the short IPCs, as sender and receiver, whose receiver waits.
-/
structure Monitor (C : Type) where
  call : C → Call C
  owed : List (C × C)

namespace Monitor

def init : Monitor C where
  call _ := .idle
  owed := []

/-- Commands run once, where they are sent to and between call and return; the return has the answer
of the run; a receiver is let run once for each short IPC, and not during a transfer. -/
def next (m : Monitor C) : Event C → Option (Monitor C)
  | .sent p d cmd =>
    if m.call p = .idle then some { m with call := Function.update m.call p (.sent d cmd) }
      else none
  | .ran d p cmd a =>
    if m.call p = .sent d cmd then
      some
        { call := Function.update m.call p (.ran d cmd a)
          owed := if cmd = .ipcShort ∧ a = .ok then (p, d) :: m.owed else m.owed }
    else none
  | .returned p a =>
    match m.call p with
    | .ran _ _ b => if b = a then some { m with call := Function.update m.call p .idle } else none
    | _ => none
  | .resumed d p =>
    if (p, d) ∈ m.owed ∧ (m.call p).Short = false then some
      { m with owed := m.owed.erase (p, d) } else none
  | .demanded _ _ | .nested _ | .departed _ _ => none

end Monitor

/-- The calls of a history are as they should be. -/
def Accepts (h : List (Event C)) : Prop := ∃ m, h.foldlM Monitor.next Monitor.init = some m

/-- No remote unwind was demanded, no TLB flushed during a transfer, and no handler left by
`switch_to_idle`. -/
def System.Plain (s : System C) : Prop :=
  ∀ p d, Event.demanded d p ∉ s.hist ∧ Event.nested p ∉ s.hist ∧ Event.departed d p ∉ s.hist

/-! ### The mailboxes between two steps -/

/-- What the client of the mailbox can be told. -/
def Processor.call (x : Processor C) : Call C :=
  match x.client with
  | .idle | .prepared _ _ => .idle
  | .waiting d cmd => if x.status = .null then .sent d cmd else .ran d cmd x.status
  | .transfer d | .nested d _ _ => .ran d .ipcShort .ok

/-- Status and command of a mailbox are as its client left them. -/
def Processor.Fine (p : C) (x : Processor C) : Prop :=
  match x.client with
  | .idle => True
  | .prepared d cmd => d ≠ p ∧ x.command = cmd ∧ x.status = .null
  | .waiting d cmd => d ≠ p ∧ x.command = cmd
  | .transfer _ => x.status = .ok
  | .nested _ _ _ => False

/-- The mailboxes between two steps, and what a monitor saw of the steps so far. -/
structure Inv (s : System C) (m : Monitor C) : Prop where
  call : ∀ p, m.call p = (s.cpu p).call
  owed : ∀ p d, m.owed.count (p, d) = (s.cpu d).stack.count p
  fine : ∀ p, (s.cpu p).Fine p
  request : ∀ d p, (s.cpu p).call.at = some d ↔ (s.cpu d).pending p = true ∨ (s.cpu d).now = some p
  doing : ∀ d p, (s.cpu d).now = some p → (s.cpu d).doing = (s.cpu p).command
  once : ∀ d p, (s.cpu d).pending p = true → (s.cpu d).now ≠ some p

variable {s t : System C} {m : Monitor C} {p d i : C} {cmd : Command} {a : Status} {x : Processor C}

/-- Where the command of the processor is does not change, nor what it does for others. -/
lemma Inv.own (hi : Inv s m) (ht : ∀ q, t.cpu q = if q = p then x else s.cpu q)
    (hp : x.pending = (s.cpu p).pending) (hn : x.now = (s.cpu p).now)
    (ho : x.doing = (s.cpu p).doing)
    (hs : x.stack = (s.cpu p).stack) (hf : x.Fine p)
    (hm : x.command = (s.cpu p).command ∨ (s.cpu p).call.at = none)
      (ha : x.call.at = (s.cpu p).call.at) :
    Inv t { m with call := Function.update m.call p x.call } := by
  have hpend (q) : (t.cpu q).pending = (s.cpu q).pending := by
    rw [ht]; split_ifs with h <;> simp [*]
  have hnow (q) : (t.cpu q).now = (s.cpu q).now := by rw [ht]; split_ifs with h <;> simp [*]
  have hstack (q) : (t.cpu q).stack = (s.cpu q).stack := by rw [ht]; split_ifs with h <;> simp [*]
  have hat (q) : (t.cpu q).call.at = (s.cpu q).call.at := by rw [ht]; split_ifs with h <;> simp [*]
  have hdoing (q) : (t.cpu q).doing = (s.cpu q).doing := by rw [ht]; split_ifs with h <;> simp [*]
  exact
    { call := fun q => by
        rw [ht]
        split_ifs with h
        · subst h
          exact Function.update_self ..
        · exact (Function.update_of_ne h ..).trans (hi.call q)
      owed := fun q r => by rw [hi.owed, hstack]
      fine := fun q => by
        rw [ht]
        split_ifs with h
        exacts [h ▸ hf, hi.fine q]
      request := fun q r => by rw [hat, hpend, hnow, hi.request]
      doing := fun q r h => by
        rw [hnow] at h
        have hr := (hi.request q r).2 (.inr h)
        rw [hdoing, hi.doing q r h, ht]
        split_ifs with hrp
        · subst hrp
          rcases hm with hm | hm
          · exact hm.symm
          · simp [hm] at hr
        · rfl
      once := fun q r => by rw [hpend, hnow]; exact hi.once q r }

/-- The same, where nothing becomes of the command either. -/
lemma Inv.own_call (hi : Inv s m) (ht : ∀ q, t.cpu q = if q = p then x else s.cpu q)
    (hp : x.pending = (s.cpu p).pending) (hn : x.now = (s.cpu p).now)
    (ho : x.doing = (s.cpu p).doing)
    (hs : x.stack = (s.cpu p).stack) (hf : x.Fine p)
    (hm : x.command = (s.cpu p).command ∨ (s.cpu p).call.at = none) (hc : x.call = (s.cpu p).call) :
    Inv t m := by
  have := hi.own ht hp hn ho hs hf hm (by rw [hc])
  rwa [hc, ← hi.call, Function.update_eq_self] at this

lemma Inv.signal (hi : Inv s m) (hc : (s.cpu p).client = .prepared d cmd) :
    ∃ m', m.next (.sent p d cmd) = some m' ∧
      Inv (((s.upd d fun x => { x with pending := Function.update x.pending p true }).upd p fun x =>
        { x with client := .waiting d cmd }).log (.sent p d cmd)) m' := by
  have hf := hi.fine p
  simp only [Processor.Fine, hc] at hf
  obtain ⟨hd, hcmd, hst⟩ := hf
  have hp : (s.cpu p).call = .idle := by rw [Processor.call, hc]
  refine ⟨_, by rw [Monitor.next, if_pos (by rw [hi.call, hp])], ?_⟩
  set t := System.log _ (.sent p d cmd)
  have ht (q) : t.cpu q = if q = p then { s.cpu p with client := .waiting d cmd } else
      if q = d then { s.cpu d with pending := Function.update (s.cpu d).pending p true }
          else s.cpu q :=
    (congrFun System.log_cpu q).trans (System.upd_upd_cpu hd)
  have hcall (q) : (t.cpu q).call = if q = p then .sent d cmd else (s.cpu q).call := by
    rw [ht]
    split_ifs <;> simp [Processor.call, *]
  have hpend (q r) : (t.cpu q).pending r = true ↔ q = d ∧ r = p ∨ (s.cpu q).pending r = true := by
    rw [ht]
    split_ifs with hq hq' <;> by_cases hr : r = p <;> simp [hd.symm, *]
  have hnow (q) : (t.cpu q).now = (s.cpu q).now := by rw [ht]; split_ifs <;> simp [*]
  have hstack (q) : (t.cpu q).stack = (s.cpu q).stack := by rw [ht]; split_ifs <;> simp [*]
  obtain ⟨h1, h2, h3, h4, h6, h5⟩ := hi
  constructor
  case request | once => grind [Call.at]
  case call => grind [Function.update_apply]
  case owed => grind
  case doing => grind
  case fine =>
    intro q
    rw [ht]
    grind [Processor.Fine]

lemma Inv.take (hi : Inv s m) (hn : (s.cpu p).now = none) (hp : (s.cpu p).pending i = true) :
    Inv (s.upd p fun x =>
      { x with
        pending := Function.update x.pending i false, now := some i, doing := (s.cpu i).command })
      m := by
  set t := s.upd p _
  have ht (q) : t.cpu q = _ := System.upd_cpu
  have hcall (q) : (t.cpu q).call = (s.cpu q).call := by
    rw [ht]
    split_ifs <;> simp [Processor.call, *]
  have hpend (q r) :
      (t.cpu q).pending r = true ↔ ¬(q = p ∧ r = i) ∧ (s.cpu q).pending r = true := by
    rw [ht]
    split_ifs with hq <;> by_cases hr : r = i <;> simp [*]
  have hnow (q) : (t.cpu q).now = if q = p then some i else (s.cpu q).now := by
    rw [ht]
    split_ifs <;> simp [*]
  have hstack (q) : (t.cpu q).stack = (s.cpu q).stack := by rw [ht]; split_ifs <;> simp [*]
  obtain ⟨h1, h2, h3, h4, h6, h5⟩ := hi
  constructor
  case request | once => grind
  case call | owed => grind
  case doing => grind
  case fine =>
    intro q
    rw [ht]
    grind [Processor.Fine]

/-- Nobody executes a request of its own. -/
lemma Inv.ne_of_now (hi : Inv s m) (hn : (s.cpu p).now = some i) : i ≠ p := by
  have hat : (s.cpu i).call.at = some p := (hi.request p i).2 (.inr hn)
  have hf := hi.fine i
  grind [Processor.call, Call.at, Processor.Fine]

/-- A request is executed; `l` tells whether the receiver of a short IPC waits. -/
lemma Inv.ran {l : List C} (hi : Inv s m) (hn : (s.cpu p).now = some i) (ha : a ≠ .null)
    (hl : l = if (s.cpu p).doing = .ipcShort ∧ a = .ok then [i] else [])
    (ht : ∀ q, t.cpu q = if q = p then
      { s.cpu p with now := none, serving := (t.cpu p).serving, stack := l ++ (s.cpu p).stack }
      else if q = i then { s.cpu i with status := a } else s.cpu q) :
    ∃ m', m.next (.ran p i (s.cpu p).doing a) = some m' ∧ Inv t m' := by
  have hat : (s.cpu i).call.at = some p := (hi.request p i).2 (.inr hn)
  have hf := hi.fine i
  obtain ⟨hp, hci⟩ : p ≠ i ∧ (s.cpu i).client = .waiting p (s.cpu i).command ∧
      (s.cpu i).status = .null := by
    grind [Processor.call, Call.at, Processor.Fine]
  have hci' : (s.cpu i).call = .sent p (s.cpu i).command := by simp [Processor.call, hci]
  rw [hi.doing p i hn] at hl ⊢
  refine ⟨_, by rw [Monitor.next, if_pos (by rw [hi.call, hci'])], ?_⟩
  have hcall (q) : (t.cpu q).call = if q = i then .ran p (s.cpu i).command a
      else (s.cpu q).call := by
    rw [ht]
    split_ifs <;> simp_all [Processor.call]
  have hpend (q) : (t.cpu q).pending = (s.cpu q).pending := by rw [ht]; split_ifs <;> simp [*]
  have hnow (q) : (t.cpu q).now = if q = p then none else (s.cpu q).now := by
    rw [ht]
    split_ifs <;> simp [*]
  have hstack (q) : (t.cpu q).stack = if q = p then l ++ (s.cpu p).stack else (s.cpu q).stack := by
    rw [ht]
    split_ifs <;> simp [*]
  obtain ⟨h1, h2, h3, h4, h6, h5⟩ := hi
  constructor
  case request =>
    intro r q
    rw [hcall, hpend, hnow]
    have := h4 r q
    have := h4 p i
    have := h5 p i
    grind [Call.at]
  case once => grind
  case doing => grind
  case call => grind [Function.update_apply]
  case owed =>
    intro q r
    rw [hstack]
    grind
  case fine =>
    intro q
    rw [ht]
    grind [Processor.Fine]

lemma Inv.finish {l : List C} (hi : Inv s m) (hs : (s.cpu p).stack = i :: l)
    (ho : (s.cpu i).status ≠ .ok) :
    ∃ m', m.next (.resumed p i) = some m' ∧
      Inv ((s.upd p fun x => { x with stack := l, serving := true }).log (.resumed p i)) m' := by
  have hmem : (i, p) ∈ m.owed := by
    rw [← List.count_pos_iff, hi.owed, hs]
    simp
  have hshort : (m.call i).Short = false := by
    have hf := hi.fine i
    rw [hi.call, Bool.eq_false_iff, Ne, Call.short_iff]
    grind [Processor.call, Processor.Fine]
  refine ⟨_, by rw [Monitor.next, if_pos ⟨hmem, hshort⟩], ?_⟩
  set t := System.log _ (.resumed p i)
  have ht (q) : t.cpu q = if q = p then { s.cpu p with stack := l, serving := true } else s.cpu q :=
    (congrFun System.log_cpu q).trans System.upd_cpu
  have hcall (q) : (t.cpu q).call = (s.cpu q).call := by
    rw [ht]
    split_ifs <;> simp [Processor.call, *]
  have hpend (q) : (t.cpu q).pending = (s.cpu q).pending := by rw [ht]; split_ifs <;> simp [*]
  have hnow (q) : (t.cpu q).now = (s.cpu q).now := by rw [ht]; split_ifs <;> simp [*]
  have hstack (q) : (t.cpu q).stack = if q = p then l else (s.cpu q).stack := by
    rw [ht]
    split_ifs <;> simp [*]
  obtain ⟨h1, h2, h3, h4, h6, h5⟩ := hi
  constructor
  case request | once => grind
  case call => grind
  case doing => grind
  case owed =>
    intro q r
    rw [hstack]
    grind
  case fine =>
    intro q
    rw [ht]
    grind [Processor.Fine]

/-- A monitor accepts what happened between two states, and the mailboxes are in order again. -/
def Goes (s : System C) (m : Monitor C) (t : System C) : Prop :=
  ∃ es m', t.hist = s.hist ++ es ∧ es.foldlM Monitor.next m = some m' ∧ Inv t m'

lemma Goes.one {e : Event C} (hh : t.hist = s.hist ++ [e])
    (h : ∃ m', m.next e = some m' ∧ Inv t m') :
    Goes s m t := by
  obtain ⟨m', hm, ht⟩ := h
  exact ⟨[e], m', hh, by simp [hm], ht⟩

lemma Goes.zero (hh : t.hist = s.hist) (h : Inv t m) : Goes s m t := ⟨[], m, by simp [hh], rfl, h⟩

/-- **Step**: a step keeps the mailboxes in order, and a monitor accepts what it did. -/
lemma Inv.step (hi : Inv s m) (h : Step s t) (hn : t.Plain) : Goes s m t := by
  have hf := fun p => hi.fine p
  rcases h with h | h
  · cases h with
    | prepare _ hc hd =>
      refine .zero rfl (hi.own_call (fun _ => System.upd_cpu) rfl rfl rfl rfl ?_ (.inr ?_) ?_)
      · exact ⟨hd, rfl, rfl⟩
      · simp [Processor.call, hc, Call.at]
      · simp [Processor.call, hc]
  cases h with
  | signal _ hc => exact .one rfl (hi.signal hc)
  | @enter p =>
    exact .zero rfl (hi.own_call (fun _ => System.upd_cpu) rfl rfl rfl rfl (hf p) (.inl rfl) rfl)
  | @enterNested p =>
    exact .zero rfl (hi.own_call (fun _ => System.upd_cpu) rfl rfl rfl rfl (hf p) (.inl rfl) rfl)
  | take _ hnow hp => exact .zero rfl (hi.take hnow hp)
  | @leave p =>
    exact .zero rfl (hi.own_call (fun _ => System.upd_cpu) rfl rfl rfl rfl (hf p) (.inl rfl) rfl)
  | @answer p i a hnow ha =>
    have hpi := hi.ne_of_now hnow
    refine .one rfl (hi.ran (l := []) hnow ?_ ?_ fun q => ?_)
    · rintro rfl
      simp at ha
    · grind
    · rw [System.log_cpu, System.upd_upd_cpu hpi]
      split_ifs <;> simp [hpi.symm]
  | @accept p i hnow hcmd =>
    have hpi := hi.ne_of_now hnow
    have := hi.ran (t := ((s.upd i fun x => { x with status := .ok }).upd p fun x =>
        { x with now := none, serving := false, stack := i :: x.stack }).log
          (.ran p i .ipcShort .ok))
      (l := [i]) (a := .ok) hnow (by decide) (by simp [hcmd]) fun q => ?_
    · rw [hcmd] at this
      exact .one rfl this
    · rw [System.log_cpu, System.upd_upd_cpu hpi]
      split_ifs <;> simp [hpi.symm]
  | @demand p i => exact absurd (List.mem_append_right _ (List.mem_singleton_self _)) (hn i p).1
  | @depart p i => exact absurd (List.mem_append_right _ (List.mem_singleton_self _)) (hn i p).2.2
  | @flush p => exact absurd (List.mem_append_right _ (List.mem_singleton_self _)) (hn p p).2.1
  | @signalFlush p _ _ _ hc => exact absurd (hf p) (by simp [Processor.Fine, hc])
  | @retFlush p _ _ _ hc => exact absurd (hf p) (by simp [Processor.Fine, hc])
  | finish hs _ _ hst => exact .one rfl (hi.finish hs hst)
  | @ret p d cmd _ hc hst hshort =>
    have hcall : (s.cpu p).call = .ran d cmd (s.cpu p).status := by simp [Processor.call, hc, hst]
    refine .one rfl ⟨_, ?_,
      hi.own (fun _ => System.log_upd_cpu) rfl rfl rfl rfl trivial (.inl rfl) ?_⟩
    · simp [Monitor.next, hi.call, hcall]
      rfl
    · rw [hcall]
      rfl
  | @retShort p d _ hc hst =>
    refine .zero rfl (hi.own_call (fun _ => System.upd_cpu) rfl rfl rfl rfl hst (.inl rfl) ?_)
    simp [Processor.call, hc, hst]
  | @endShort p d _ hc =>
    have hcall : (s.cpu p).call = .ran d .ipcShort .ok := by simp [Processor.call, hc]
    refine .one rfl ⟨_, ?_,
      hi.own (fun _ => System.log_upd_cpu) rfl rfl rfl rfl trivial (.inl rfl) ?_⟩
    · simp [Monitor.next, hi.call, hcall]
      rfl
    · rw [hcall]
      rfl

/-- A step adds to the history. -/
lemma Step.hist (h : Step s t) : ∃ es, t.hist = s.hist ++ es := by
  rcases h with h | h <;> cases h
  case inr.take | inr.enter | inr.enterNested | inr.leave | inr.retShort | inl.prepare =>
    exact ⟨[], by simp⟩
  all_goals exact ⟨_, rfl⟩

lemma System.Plain.of_step (h : Step s t) (ht : t.Plain) : s.Plain := by
  obtain ⟨es, he⟩ := h.hist
  rw [System.Plain, he] at ht
  simp only [List.mem_append, not_or] at ht
  exact fun p d => ⟨(ht p d).1.1, (ht p d).2.1.1, (ht p d).2.2.1⟩

/-- **Run**: what is so for a step is so for any number of steps of any processors. -/
lemma Inv.run (hi : Inv s m) (h : Relation.ReflTransGen Step s t) (hn : t.Plain) : Goes s m t := by
  induction h with
  | refl => exact .zero rfl hi
  | tail _ hst ih =>
    obtain ⟨es, m', hh, hm, hi'⟩ := ih (hn.of_step hst)
    obtain ⟨es', m'', hh', hm', hi''⟩ := hi'.step hst hn
    exact ⟨es ++ es', m'', by rw [hh', hh, List.append_assoc],
      by simp [List.foldlM_append, hm, hm'], hi''⟩

lemma Inv.init : Inv (System.init : System C) Monitor.init where
  call _ := rfl
  owed _ _ := rfl
  fine _ := trivial
  request _ _ := by simp [System.init, Processor.call, Call.at]
  doing _ _ h := by simp [System.init] at h
  once _ _ h := by simp [System.init] at h

lemma Reachable.inv (h : Reachable s) (hn : s.Plain) :
    ∃ m, s.hist.foldlM Monitor.next Monitor.init = some m ∧ Inv s m := by
  obtain ⟨es, m, hh, hm, hi⟩ := Inv.init.run h hn
  exact ⟨m, by rw [hh]; exact hm, hi⟩

/-- Both of two processors have accepted the short IPC of the other. -/
def crossed : System Bool where
  cpu p :=
    { status := .ok, command := .ipcShort,
      pending := fun _ => false, client := .waiting (!p) .ipcShort
      stack := [!p], serving := false, now := none, doing := .ipcShort }
  hist := [.sent false true .ipcShort, .sent true false .ipcShort, .ran false true .ipcShort .ok,
    .ran true false .ipcShort .ok]

lemma reachable_crossed : Reachable crossed := by
  suffices ∃ t, Reachable t ∧ t = crossed by
    obtain ⟨_, ht, rfl⟩ := this
    exact ht
  refine ⟨_, .tail (.tail (.tail (.tail (.tail (.tail (.tail (.tail (.tail (.tail .refl
    (.inl (.prepare (p := false) (d := true) (k := .ipcShort) ?_ ?_ ?_)))
    (.inl (.prepare (p := true) (d := false) (k := .ipcShort) ?_ ?_ ?_)))
    (.inr (.signal (p := false) (d := true) (k := .ipcShort) ?_ ?_)))
    (.inr (.signal (p := true) (d := false) (k := .ipcShort) ?_ ?_)))
    (.inr (.enter (p := false) (i := true) ?_ (.inr (.inl ⟨true, .ipcShort, ?_⟩)) ?_)))
    (.inr (.enter (p := true) (i := false) ?_ (.inr (.inl ⟨false, .ipcShort, ?_⟩)) ?_)))
    (.inr (.take (p := false) (i := true) ?_ ?_ ?_)))
    (.inr (.take (p := true) (i := false) ?_ ?_ ?_)))
    (.inr (.accept (p := false) (i := true) ?_ ?_)))
    (.inr (.accept (p := true) (i := false) ?_ ?_)), ?_⟩
  case refine_27 =>
    refine System.ext ?_ rfl
    funext p
    cases p <;> refine Processor.ext rfl rfl (funext fun q => ?_) rfl rfl rfl rfl rfl <;>
      cases q <;> rfl
  all_goals simp [System.init, Processor.AtBase]

lemma plain_crossed : crossed.Plain := by simp [System.Plain, crossed]

/-- Nobody can do anything but send a command. -/
def System.Stuck (s : System C) : Prop := ∀ t, ¬Work s t

/-- The processor waits for nobody. -/
def Processor.Quiet (x : Processor C) : Prop := x.AtBase ∧ x.client = .idle

/-- The processor `p` is in `wait_for_status` of the mailbox of `c`, and has to stay there. -/
def Awaits (s : System C) (p c : C) : Prop :=
  (s.cpu p).stack.head? = some c ∧ (s.cpu c).status = .ok

lemma System.Stuck.now (h : s.Stuck) (p : C) : (s.cpu p).now = none := by
  by_contra hn
  obtain ⟨i, hi⟩ := Option.ne_none_iff_exists'.1 hn
  exact h _ (.answer hi (.inl rfl))

lemma System.Stuck.serving (h : s.Stuck) (p : C) : (s.cpu p).serving = false := by
  by_contra hs
  rw [Bool.not_eq_false] at hs
  by_cases hp : ∃ i, (s.cpu p).pending i = true
  · obtain ⟨i, hi⟩ := hp
    exact h _ (.take hs (h.now p) hi)
  · push Not at hp
    exact h _ (.leave hs (h.now p) fun i => by simpa using hp i)

lemma System.Stuck.atBase (h : s.Stuck) (hp : (s.cpu p).stack = []) : (s.cpu p).AtBase :=
  ⟨hp, h.serving p, h.now p⟩

/-- Who is not in a handler sends nothing, or waits for one that is. -/
lemma System.Stuck.quiet_or (h : s.Stuck) (hi : Inv s m) (hp : (s.cpu p).stack = []) :
    (s.cpu p).Quiet ∨ ∃ d, (s.cpu d).stack ≠ [] ∧ (s.cpu p).status = .null := by
  have hb := h.atBase hp
  cases hc : (s.cpu p).client with
  | idle => exact .inl ⟨hb, hc⟩
  | prepared d cmd => exact absurd (.signal hb hc) (h _)
  | transfer d => exact absurd (.endShort hb hc) (h _)
  | nested _ _ _ => exact absurd (hi.fine p) (by simp [Processor.Fine, hc])
  | waiting d cmd =>
    by_cases hst : (s.cpu p).status = .null
    · refine .inr ⟨d, fun hd => ?_, hst⟩
      have hreq := (hi.request d p).1 (by simp [Processor.call, Call.at, hc, hst])
      rw [h.now] at hreq
      have hpend : (s.cpu d).pending p = true := by simpa using hreq
      have hbd := h.atBase hd
      cases hcd : (s.cpu d).client with
      | idle => exact h _ (.enter hbd (.inl hcd) hpend)
      | waiting _ _ => exact h _ (.enter hbd (.inr (.inl ⟨_, _, hcd⟩)) hpend)
      | prepared _ _ => exact h _ (.signal hbd hcd)
      | transfer _ => exact h _ (.endShort hbd hcd)
      | nested _ _ _ => exact absurd (hi.fine d) (by simp [Processor.Fine, hcd])
    · by_cases hok : cmd = .ipcShort ∧ (s.cpu p).status = .ok
      · obtain ⟨rfl, hok⟩ := hok
        exact absurd (.retShort hb hc hok) (h _)
      · exact absurd (.ret hb hc hst hok) (h _)

lemma System.Stuck.awaits (h : s.Stuck) (hp : (s.cpu p).stack ≠ []) : ∃ c, Awaits s p c := by
  obtain ⟨c, l, hs⟩ := List.exists_cons_of_ne_nil hp
  refine ⟨c, by rw [hs]; rfl, ?_⟩
  by_contra hst
  exact h _ (.finish hs (h.serving p) (h.now p) hst)

lemma stuck_crossed : crossed.Stuck := by
  intro t h
  cases h <;> simp_all [crossed, Processor.AtBase]

/-- A receiver is owed only after its processor accepted a short IPC. -/
lemma Monitor.mem_owed {es : List (Event C)} {m m' : Monitor C} (h : es.foldlM next m = some m')
    {x : C × C}
    (hx : x ∈ m'.owed) : x ∈ m.owed ∨ .ran x.2 x.1 .ipcShort .ok ∈ es := by
  induction es generalizing m with
  | nil =>
    cases h
    exact .inl hx
  | cons e es ih =>
    simp only [List.foldlM_cons, Option.bind_eq_bind, Option.bind_eq_some_iff] at h
    obtain ⟨m₁, hm, hes⟩ := h
    rcases ih hes with h₁ | h₁
    · cases e with
      | ran d p cmd a =>
        simp only [next] at hm
        grind
      | resumed d p =>
        simp only [next] at hm
        grind [List.mem_of_mem_erase]
      | sent _ _ _ | returned _ _ | demanded _ _ | nested _ | departed _ _ =>
        simp only [next] at hm
        grind
    · exact .inr (List.mem_cons_of_mem _ h₁)

/-- A processor is about to flush the TLB of the other one. -/
def flushing : System Bool :=
  System.init.upd false fun x =>
    { x with status := .null, command := .flushTlb, client := .prepared true .flushTlb }

lemma reachable_flushing : Reachable flushing :=
  .single (.inl (.prepare ⟨rfl, rfl, rfl⟩ rfl (by decide)))

/-- **No deadlock**: without short IPC, as long as a processor is busy something can happen. -/
theorem mailbox_progress [Finite C] (h : Reachable s) (hn : s.Plain)
    (hshort : ∀ p d, .ran d p .ipcShort .ok ∉ s.hist) (hbusy : ¬∀ p, (s.cpu p).Quiet) :
    ∃ t, Work s t := by
  by_contra hs
  push Not at hs
  obtain ⟨m, hm, hi⟩ := h.inv hn
  have hempty (d : C) : (s.cpu d).stack = [] := by
    refine List.eq_nil_iff_forall_not_mem.2 fun p hp => ?_
    rw [← List.count_pos_iff, ← hi.owed, List.count_pos_iff] at hp
    rcases Monitor.mem_owed hm hp with h | h
    · cases h
    · exact hshort p d h
  refine hbusy fun p => ?_
  rcases System.Stuck.quiet_or hs hi (hempty p) with hq | ⟨d, hd, -⟩
  · exact hq
  · exact absurd (hempty d) hd

theorem mailbox_progress_flushing : ∃ t, Work flushing t :=
  mailbox_progress reachable_flushing (by simp [System.Plain, flushing, System.init])
    (by simp [flushing, System.init]) fun h => by simpa [flushing] using (h false).2

/-! ### Deadlocks -/

/-- A processor in a handler has the status that its short IPC was answered with. -/
lemma Inv.status_step {c : C} (hi : Inv s m) (h : Step s t) (hok : (s.cpu c).status = .ok)
    (hc : (s.cpu c).stack ≠ []) : (t.cpu c).status = .ok := by
  have hnow (q : C) : (s.cpu q).now ≠ some c := fun hq => by
    have hat := (hi.request q c).2 (.inr hq)
    have hf := hi.fine c
    grind [Processor.call, Call.at, Processor.Fine]
  have hbase : ¬(s.cpu c).AtBase := fun hb => hc hb.1
  rcases h with h | h <;> cases h <;>
    simp only [System.log_cpu, System.upd_cpu] <;> grind

/-- Who is in `wait_for_status` stays there until the status changes. -/
lemma Step.mem_stack {a c : C} (h : Step s t) (hn : t.Plain) (hc : c ∈ (s.cpu a).stack)
    (hok : (s.cpu c).status = .ok) : c ∈ (t.cpu a).stack := by
  rcases h with h | h <;> cases h
  case inr.depart p i _ _ =>
    exact absurd (List.mem_append_right _ (List.mem_singleton_self _)) (hn i p).2.2
  all_goals
    simp only [System.log_cpu, System.upd_cpu]
    grind

/-- Everybody of `S` waits for a short IPC of one of `S`. -/
def Deadlock (S : Set C) (s : System C) : Prop :=
  ∀ a ∈ S, ∃ c ∈ S, c ∈ (s.cpu a).stack ∧ (s.cpu c).status = .ok

lemma Deadlock.step {S : Set C} (hd : Deadlock S s) (hi : Inv s m) (h : Step s t) (hn : t.Plain) :
    Deadlock S t := by
  intro a ha
  obtain ⟨c, hc, hmem, hok⟩ := hd a ha
  obtain ⟨b, -, hb, -⟩ := hd c hc
  exact ⟨c, hc, h.mem_stack hn hmem hok, hi.status_step h hok (List.ne_nil_of_mem hb)⟩

lemma Deadlock.run {S : Set C} (hd : Deadlock S s) (hi : Inv s m)
    (h : Relation.ReflTransGen Step s t)
    (hn : t.Plain) : Deadlock S t := by
  induction h with
  | refl => exact hd
  | tail hr hst ih =>
    obtain ⟨-, m', -, -, hi'⟩ := hi.run hr (hn.of_step hst)
    exact (ih (hn.of_step hst)).step hi' hst hn

lemma awaits_crossed (p : Bool) : Awaits crossed p (!p) := ⟨rfl, rfl⟩

/-- **Deadlock**: short IPCs that wait in a cycle wait for ever, whatever anybody does. -/
theorem mailbox_deadlock (h : Reachable s) (hp : Relation.TransGen (Awaits s) p p)
    (hr : Relation.ReflTransGen Step s t) (hn : t.Plain) : ¬(t.cpu p).AtBase := by
  have hs : s.Plain := hr.head_induction_on hn fun hst _ ih => ih.of_step hst
  obtain ⟨m, -, hi⟩ := h.inv hs
  have hd : Deadlock {c | Relation.TransGen (Awaits s) p c ∧
      Relation.TransGen (Awaits s) c p} s := by
    rintro a ⟨hpa, hap⟩
    obtain ⟨c, hac, hcp⟩ := Relation.TransGen.head'_iff.1 hap
    refine ⟨c, ⟨hpa.tail hac, ?_⟩, List.mem_of_mem_head? hac.1, hac.2⟩
    rcases Relation.reflTransGen_iff_eq_or_transGen.1 hcp with rfl | hcp
    · exact hp
    · exact hcp
  obtain ⟨c, -, hc, -⟩ := hd.run hi hr hn p ⟨hp, hp⟩
  exact fun hb => absurd hb.1 (List.ne_nil_of_mem hc)

theorem mailbox_deadlock_crossed : ¬(crossed.cpu false).AtBase :=
  mailbox_deadlock reachable_crossed
    (.tail (.single (awaits_crossed false)) (awaits_crossed true)) .refl
    plain_crossed

/-! ### Remote unwinds -/

/-- A processor executes the unwind that the other one asked for. -/
def unwinding : System Bool :=
  (((((System.init.upd false fun x =>
    { x with status := .null, command := .unwind, client := .prepared true .unwind }).upd true
        fun x =>
    { x with pending := Function.update x.pending false true }).upd false fun x =>
    { x with client := .waiting true .unwind }).log (.sent false true .unwind)).upd true fun x =>
    { x with serving := true }).upd true fun x =>
    { x with pending := Function.update x.pending false false, now := some false, doing := .unwind }

lemma reachable_unwinding : Reachable unwinding := by
  refine .tail (.tail (.tail
    (.single (.inl (.prepare (p := false) (d := true) (k := .unwind) ?_ ?_ ?_)))
    (.inr (.signal (p := false) (d := true) (k := .unwind) ?_ ?_)))
    (.inr (.enter (p := true) (i := false) ?_ (.inl ?_) ?_)))
    (.inr (.take (p := true) (i := false) ?_ ?_ ?_))
  all_goals simp [System.init, Processor.AtBase]

/-- **Stale**: if a remote unwind is demanded, the command that the processor sends next can return
`MAILBOX_OK` before anybody has looked at it. -/
theorem mailbox_stale {e : C} (h : Reachable s) (hn : s.Plain) (hb : (s.cpu p).AtBase)
    (hnow : (s.cpu d).now = some p) (hu : (s.cpu d).doing.Unwinds) (he : e ≠ p)
    (hcmd : cmd ≠ .ipcShort) :
    ∃ t, Relation.ReflTransGen Step s t ∧ (t.cpu e).pending p = true ∧ (t.cpu p).client = .idle ∧
      t.hist = s.hist ++ [.demanded d p, .returned p .unwindRemote, .sent p e cmd,
        .ran d p (s.cpu d).doing .ok, .returned p .ok] := by
  obtain ⟨m, -, hi⟩ := h.inv hn
  obtain ⟨hs, hv, ho⟩ := hb
  have hdp := hi.ne_of_now hnow
  have hat := (hi.request d p).2 (.inr hnow)
  obtain ⟨c, hc⟩ : ∃ c, (s.cpu p).client = .waiting d c := by
    grind [Processor.call, Call.at]
  have hshort : (s.cpu d).doing ≠ .ipcShort := by
    intro hs
    rw [hs] at hu
    exact hu
  refine ⟨_, .tail (.tail (.tail (.tail (.tail (.tail .refl
    (.inr (.demand hnow hu))) (.inr (.ret (p := p) (d := d) (k := c) ?_ ?_ ?_ ?_)))
    (.inl (.prepare (p := p) (d := e) (k := cmd) ?_ ?_ he)))
      (.inr (.signal (p := p) (d := e) (k := cmd) ?_ ?_)))
    (.inr (.answer (p := d) (i := p) (a := .ok) ?_ (.inr ⟨rfl, ?_⟩))))
    (.inr (.ret (p := p) (d := e) (k := cmd) ?_ ?_ ?_ ?_)), ?_, ?_, ?_⟩
  all_goals
    rcases eq_or_ne d e with rfl | hed
    · simp [Processor.AtBase, hdp.symm, *]
    · simp [Processor.AtBase, hdp.symm, he.symm, hed.symm, *]

theorem mailbox_stale_unwinding : ∃ t, Relation.ReflTransGen Step unwinding t ∧
    (t.cpu true).pending false = true ∧ (t.cpu false).client = .idle ∧
    t.hist = unwinding.hist ++ [.demanded true false, .returned false .unwindRemote,
      .sent false true .threadGet, .ran true false .unwind .ok, .returned false .ok] :=
  mailbox_stale reachable_unwinding (by simp [System.Plain, unwinding, System.init])
    ⟨rfl, rfl, rfl⟩ rfl
    trivial (by decide) (by decide)

end Hazelnut.Smp
