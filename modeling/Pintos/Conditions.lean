import Pintos.Locks

/-!
# Condition variables

`cond_wait`, `cond_signal` and `cond_broadcast` of one condition variable with one lock. Each
wait sleeps on a semaphore on the stack of its thread, which is queued on `waiters`; the lock
has semaphore 2, the semaphore of thread `t` is `waiterSema t`, and those with other numbers
are used by the rest of the kernel.
-/
namespace Pintos.Conditions
open ExecRuns Threads Locks

def theLock:ℕ:=2
def waiterSema (t:ℕ):ℕ:=2*t+4
def isWaiterSema (s:ℕ):Bool:=decide (4 ≤ s ∧ s%2=0)
def isLock (l:ℕ):Bool:=l == theLock

/-- Where a thread stands. In a signal or broadcast (`all`) an observer notes the queue at the
time of the call and the threads that it has released. -/
inductive Place where
 | outside
 | initing
 | pushing
 | queued
 | releasing
 | sleeping
 | awake
 | acquiring
 | signalling (all:Bool) (queue sofar:List ℕ)
 | raising (all:Bool) (queue sofar:List ℕ) (t:ℕ)
 deriving DecidableEq,Repr

/-- What an observer writes down: that a thread has gone on `waiters`, that its semaphore was
raised, what a finished signal has done, and that a wait has returned with this `holder`. -/
inductive Entry where
 | waits (t:ℕ)
 | releases (t:ℕ)
 | signals (all:Bool) (queue released:List ℕ)
 | returns (t:ℕ) (holder:Option ℕ)
 deriving DecidableEq,Repr

structure State where
 locks:Locks.State
 waiters:List ℕ
 place:ℕ→Place
 log:List Entry

inductive Act where
 | locks (a:Locks.Act)
 | condWait
 | condSignal
 | condBroadcast
 | step
 deriving DecidableEq,Repr

section
variable (s:State)

def State.current:ℕ:=s.locks.kernel.current
def State.put (t:ℕ)(p:Place):State:={s with place:=Function.update s.place t p}
def State.note (e:Entry):State:={s with log:=s.log++[e]}
def semaInit (k:Kernel)(n value:ℕ):Kernel:=k.setSema n ⟨value,[]⟩

/-- An action of the lock or the scheduler on behalf of the running thread. -/
def onLocks (a:Locks.Act)(next:Locks.State→State):Option State:=(Locks.next s.locks a).map next

def statement:Place→Option State
 | .outside=>none
 | .initing=>
  if lockHeldByCurrentThread s.locks theLock then
   some ({s with locks.kernel:=semaInit s.locks.kernel (waiterSema s.current) 0}.put
    s.current .pushing)
  else none
 | .pushing=>
  some (({s with waiters:=s.waiters++[s.current]}.put s.current .queued).note (.waits s.current))
 | .queued=>onLocks s (.lockRelease theLock) (fun l=>
  {s with locks:=l}.put s.current .releasing)
 | .releasing=>onLocks s .step (fun l=>
  {s with locks:=l}.put s.current (if l.op s.current=none then .sleeping else .releasing))
 | .sleeping=>
  onLocks s (.kernel (downAct s.locks.kernel (waiterSema s.current))) (fun l=>
   {s with locks:=l}.put s.current
     (if (s.locks.kernel.sema (waiterSema s.current)).value=0 then .sleeping else .awake))
 | .awake=>onLocks s (.lockAcquire theLock) (fun l=>
  {s with locks:=l}.put s.current .acquiring)
 | .acquiring=>onLocks s .step (fun l=>
  if l.op s.current=none then
   ({s with locks:=l}.put s.current .outside).note (.returns s.current (l.holder theLock))
  else {s with locks:=l})
 | .signalling all queue sofar=>
  if all ∧ s.waiters=[] then
   some ((s.put s.current .outside).note (.signals all queue sofar))
  else if lockHeldByCurrentThread s.locks theLock then
   match s.waiters with
   | []=>some ((s.put s.current .outside).note (.signals all queue sofar))
   | t::rest=>some ({s with waiters:=rest}.put s.current (.raising all queue sofar t))
  else none
 | .raising all queue sofar t=>
  onLocks s (.kernel (.semaUp (waiterSema t))) (fun l=>
   let s':={s with locks:=l}.note (.releases t)
   if all then s'.put s.current (.signalling all queue (sofar++[t]))
   else (s'.put s.current .outside).note (.signals all queue (sofar++[t])))

def next:Act→Option State
 | .locks a=>onLocks s a (fun l=>{s with locks:=l})
 | .condWait=>some (s.put s.current .initing)
 | .condSignal=>some (s.put s.current (.signalling false s.waiters []))
 | .condBroadcast=>some (s.put s.current (.signalling true s.waiters []))
 | .step=>statement s (s.place s.current)

end

def isHandler:Locks.Act→Bool
 | .kernel a=>fromHandler a
 | _=>false
variable (s:State)

/-- The semaphores of waits are used by these functions only. -/
def Apart:Locks.Act→Prop
 | .kernel a=>∀n∈Event.sema (event s.locks.kernel a),isWaiterSema n=false
 | _=>True

/-- The functions are called with the lock held. In them a thread runs when the scheduler lets
it; the preconditions of the functions of the lock are not required here. -/
def Respects:Act→Prop
 | .locks a=>Locks.Respects isLock s.locks a ∧ Apart s a ∧
   (s.place s.current≠.outside → isHandler a=true)
 | .condWait | .condSignal | .condBroadcast=>
  Idle s.locks ∧ s.place s.current=.outside ∧ lockHeldByCurrentThread s.locks theLock
 | .step=>
  match s.place s.current with
  | .sleeping=>Enabled s.locks.kernel (downAct s.locks.kernel (waiterSema s.current))
  | .releasing | .acquiring=>Locks.Respects isLock s.locks .step
  | _=>InBody s.locks.kernel

variable (log:List Entry)

def waited:List ℕ:=log.filterMap fun | .waits t=>some t | _=>none
def released:List ℕ:=log.filterMap fun | .releases t=>some t | _=>none
def returned:List ℕ:=log.filterMap fun | .returns t _=>some t | _=>none
def signalled:List ℕ:=log.flatMap fun | .signals _ _ released=>released | _=>[]

end Pintos.Conditions
