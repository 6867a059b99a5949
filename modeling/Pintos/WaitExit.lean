import Mathlib.Data.Int.Notation
import Pintos.ExecRuns

/-!
# process_wait and thread_exit as interleaved steps

Each statement of `process_wait` that touches another thread's `struct thread`
is a step of its own, because the timer may switch threads between any two of
them. Code that runs with interrupts off is one step. The scheduler may choose
any ready thread, so the round-robin order of `ready_list` is one of the runs.
-/
namespace Pintos.WaitExit
open ExecRuns
open Function (update)

inductive ThreadStatus where
 | running | ready | blocked | dying
 deriving DecidableEq,Repr

/-- The members of `struct thread` that waiting and exiting read or write. -/
structure Thread where
 status:ThreadStatus
 waitCalled:Bool
 waitingThread:ℕ
 childExitStatus:ℤ
 exitStatus:ℤ
 deriving DecidableEq,Repr

def poisoned:Thread:=⟨.dying,true,0xcccccccc,-858993460,-858993460⟩

/-- Where a thread stands in `process_wait` or `thread_exit`. -/
inductive Pc where
 | user
 | found (c:ℕ)
 | checked (c:ℕ)
 | claimed (c:ℕ)
 | announced (c:ℕ)
 | waiting (c:ℕ)
 | exiting
 | gone
 deriving DecidableEq,Repr

/-- A thread is named by its tid; `thread t` is the content of its page.
`recorded` and `returns` are what an observer notes: the `exit_status` with
which a thread terminated, and the results of `process_wait` in order. -/
structure Kernel where
 thread:ℕ→Thread
 pc:ℕ→Pc
 allList:List ℕ
 running:Option ℕ
 freed:ℕ→Bool
 initialThread:ℕ
 mapped:ℕ→ℕ→Bool
 recorded:ℕ→Option ℤ
 returns:List (ℕ×ℕ×ℤ)

inductive Act where
 | dispatch (next:ℕ)
 | preempt
 | wait (pid:ℕ)
 | processWait (tid:ℕ)
 | exit (status:ℤ)
 | threadExit
 | step
 deriving DecidableEq,Repr

inductive Assertion where
 | isThread
 | statusBlocked
 deriving DecidableEq,Repr

inductive Outcome where
 | running (k:Kernel)
 | disabled
 | panic (a:Assertion)

def physBase:ℕ:=0xc0000000
def Kernel.setThread (k:Kernel)(t:ℕ)(v:Thread):Kernel:={k with thread:=update k.thread t v}
def Kernel.setPc (k:Kernel)(t:ℕ)(pc:Pc):Kernel:={k with pc:=update k.pc t pc}
def getThread (k:Kernel)(tid:ℕ):Option ℕ:=k.allList.find? (fun t=>t=tid)

def threadUnblock (k:Kernel):Option ℕ→Except Assertion Kernel
 | none=>.error .isThread
 | some t=>
  if (k.thread t).status=.blocked then
   .ok (k.setThread t {k.thread t with status:=.ready})
  else .error .statusBlocked

def waitReturn (k:Kernel)(p c:ℕ)(v:ℤ):Kernel:={k.setPc p .user with returns:=k.returns++[(p,c,v)]}

/-- `get_thread` and the test of its result. -/
def processWait (k:Kernel)(p tid:ℕ):Kernel:=
 match getThread k tid with
 | none=>waitReturn k p tid (-1)
 | some t=>k.setPc p (.found t)

/-- Recording the status, up to the call of `process_exit`. -/
def exit (k:Kernel)(p:ℕ)(status:ℤ):Kernel:=
 (k.setThread p {k.thread p with exitStatus:=status}).setPc p .exiting

/-- The test that the system call makes on its argument. -/
def Refused (k:Kernel)(p pid:ℕ):Prop:=pid=0 ∨ physBase≤pid ∨ k.mapped p pid=true

instance (k:Kernel)(p pid:ℕ):Decidable (Refused k p pid):=inferInstanceAs (Decidable (_ ∨ _ ∨ _))
def wait (k:Kernel)(p pid:ℕ):Kernel:=
 if Refused k p pid then exit k p (-1) else processWait k p pid

/-- Wakes the thread recorded in `waiting_thread` and hands it the status. -/
def wakeWaiter (k:Kernel)(c:ℕ):Except Assertion Kernel:=
 let w:=(k.thread c).waitingThread
 if w=0 then .ok k
 else do
  let k←threadUnblock k (getThread k w)
  return k.setThread w {k.thread w with childExitStatus:=(k.thread c).exitStatus}

/-- The page of a dying thread other than `initial_thread` is freed. -/
def threadScheduleTail (k:Kernel)(prev:ℕ):Kernel:=
 if prev=k.initialThread then k
 else {k.setThread prev poisoned with freed:=update k.freed prev true}

/-- `thread_exit` from `intr_disable` on, with the switch to the next thread. -/
def threadExit (k:Kernel)(c:ℕ):Except Assertion Kernel:=do
 let status:=(k.thread c).exitStatus
 let k:={k with allList:=k.allList.erase c}
 let k←wakeWaiter k c
 let k:=(k.setThread c {k.thread c with status:=.dying}).setPc c .gone
 return threadScheduleTail {k with running:=none,recorded:=update k.recorded c (some status)} c

def threadBlock (k:Kernel)(p:ℕ):Kernel:=
 { k.setThread p {k.thread p with status:=.blocked} with running:=none}

def statement (k:Kernel)(p:ℕ):Outcome:=
 match k.pc p with
 | .found c=>
  if (k.thread c).waitCalled then .running (waitReturn k p c (-1))
  else .running (k.setPc p (.checked c))
 | .checked c=>
  .running ((k.setThread c {k.thread c with waitCalled:=true}).setPc p (.claimed c))
 | .claimed c=>
  .running ((k.setThread c {k.thread c with waitingThread:=p}).setPc p (.announced c))
 | .announced c=>.running ((threadBlock k p).setPc p (.waiting c))
 | .waiting c=>.running (waitReturn k p c (k.thread p).childExitStatus)
 | .exiting=>
  match threadExit k p with
  | .ok k=>.running k
  | .error a=>.panic a
 | .user | .gone=>.disabled

/-- After `thread_block` returns, interrupts stay off until the return to user code. -/
def interruptsOff:Pc→Bool
 | .waiting _=>true
 | _=>false

def schedule (k:Kernel)(next:ℕ):Kernel:=
 { k.setThread next {k.thread next with status:=.running} with running:=some next}

def act (k:Kernel):Option ℕ→Act→Outcome
 | none,.dispatch next=>
  if (k.thread next).status=.ready then .running (schedule k next) else .disabled
 | some p,.preempt=>
  if interruptsOff (k.pc p) then .disabled
  else .running { k.setThread p {k.thread p with status:=.ready} with running:=none}
 | some p,.wait pid=>if k.pc p=.user then .running (wait k p pid) else .disabled
 | some p,.processWait tid=>
  if k.pc p=.user then .running (processWait k p tid) else .disabled
 | some p,.exit status=>if k.pc p=.user then .running (exit k p status) else .disabled
 | some p,.threadExit=>
  if k.pc p=.user then .running (k.setPc p .exiting) else .disabled
 | some p,.step=>statement k p
 | _,_=>.disabled

def perform (k:Kernel)(a:Act):Outcome:=act k k.running a
def next (k:Kernel)(a:Act):Option Kernel:=
 match perform k a with
 | .running k=>some k
 | _=>none

end Pintos.WaitExit
