import Mathlib.Algebra.Group.Nat.Defs
import Pintos.WaitExit

/-!
# Threads, the scheduler and semaphores

The functions of `threads/thread.c` and `threads/synch.c`. What runs with
interrupts off is one step; between two steps a timer interrupt or a handler that
calls `sema_up` may come in. `thread_create` is several steps, because
`allocate_tid` takes a lock and so may sleep.
-/
namespace Pintos.Threads
open Function
open WaitExit (ThreadStatus)

def threadMagic:ℕ:=0xcd6abf4b
def timeSlice:ℕ:=4

inductive Stage where
 | body
 | fresh
 | allocating (t:ℕ)
 | numbering (t:ℕ)
 | releasing (t:ℕ)
 | unblocking (t:ℕ)
 | booting
 | starting
 | idleInit
 | idleUp
 | idleLoop
 deriving DecidableEq,Repr

def Stage.creates:Stage→Option ℕ
 | .allocating t | .numbering t | .releasing t | .unblocking t=>some t
 | _=>none

/-- `struct thread`, and what is saved on the stack above it: `waiting` is the
semaphore in whose `sema_down` the thread has called `thread_block`. -/
structure Thread where
 tid:ℕ
 status:ThreadStatus
 magic:ℕ
 stage:Stage
 waiting:Option ℕ
 deriving DecidableEq,Repr

/-- A page filled with 0xcc by `palloc_free_page`, read as a thread. -/
def poisoned:Thread:=⟨0xcccccccc,.dying,0xcccccccc,.body,none⟩

/-- `value` is an `unsigned`. -/
structure Semaphore where
 value:ℕ
 waiters:List ℕ
 deriving DecidableEq,Repr

/-- A thread is named by its page. The last fields are what an observer notes:
the pages of the threads in the order of their calls of `init_thread` and
`thread_exit`, the pages freed, what was put on `ready_list` and taken from it,
how often `schedule` was called, and the time of its last call. -/
structure Kernel where
 thread:ℕ→Thread
 free:ℕ→Bool
 current:ℕ
 readyList:List ℕ
 allList:List ℕ
 idleThread:Option ℕ
 initialThread:ℕ
 threadTicks:ℕ
 ticks:ℕ
 nextTid:ℕ
 sema:ℕ→Semaphore
 created:List ℕ
 exited:List ℕ
 freed:List ℕ
 queued:List ℕ
 selected:List ℕ
 schedules:ℕ
 since:ℕ

/-- The `ASSERT`s of `thread_current`, `thread_unblock`, `schedule` and
`thread_schedule_tail` on threads. Those on the interrupt level are in `KernelCode`: a step here is
code that runs with interrupts off. -/
inductive Assertion where
 | currentIsThread
 | currentRunning
 | unblockIsThread
 | unblockBlocked
 | scheduleNotRunning
 | scheduleIsThread
 | tailPrev
 deriving DecidableEq,Repr

abbrev Step:=Except Assertion Kernel
def tidLock:ℕ:=0
def idleStarted:ℕ:=1

variable (k:Kernel)

def Kernel.setThread (t:ℕ)(v:Thread):Kernel:={k with thread:=update k.thread t v}
def Kernel.setStatus (t:ℕ)(status:ThreadStatus):Kernel:=
 k.setThread t {k.thread t with status:=status}
def Kernel.setStage (t:ℕ)(stage:Stage):Kernel:=k.setThread t {k.thread t with stage:=stage}
def Kernel.setWaiting (t:ℕ)(waiting:Option ℕ):Kernel:=
 k.setThread t {k.thread t with waiting:=waiting}
def Kernel.setSema (s:ℕ)(v:Semaphore):Kernel:={k with sema:=update k.sema s v}
def Kernel.pushReady (t:ℕ):Kernel:={k with readyList:=k.readyList++[t],queued:=k.queued++[t]}
def isThread (t:ℕ):Prop:=(k.thread t).magic=threadMagic
instance (t:ℕ):Decidable (isThread k t):=inferInstanceAs (Decidable (_=_))
def threadCurrent:Except Assertion ℕ:=
 if ¬isThread k k.current then .error .currentIsThread
 else if (k.thread k.current).status≠.running then .error .currentRunning
 else .ok k.current
def threadUnblock (t:ℕ):Step:=
 if ¬isThread k t then .error .unblockIsThread
 else if (k.thread t).status≠.blocked then .error .unblockBlocked
 else .ok ((k.pushReady t).setStatus t .ready)
def nextThreadToRun:Option ℕ×Kernel:=
 match k.readyList with
 | []=>(k.idleThread,k)
 | t::rest=>(some t,{k with readyList:=rest,selected:=k.selected++[t]})
def pallocFreePage (p:ℕ):Kernel:=
 {k.setThread p poisoned with
   free:=update k.free p true,freed:=k.freed++[p]}

/-- With the new thread in `current` already. -/
def threadScheduleTail (prev:Option ℕ):Step:=
 let k:={k.setStatus k.current .running with threadTicks:=0,since:=k.ticks}
 match prev with
 | none=>.ok k
 | some p=>
  if (k.thread p).status=.dying ∧ p≠k.initialThread then
   if p=k.current then .error .tailPrev else .ok (pallocFreePage k p)
  else .ok k

def schedule:Step:=
 let cur:=k.current
 let (next,k):=nextThreadToRun k
 if (k.thread cur).status=.running then .error .scheduleNotRunning
 else match next with
 | none=>.error .scheduleIsThread
 | some t=>
  if ¬isThread k t then .error .scheduleIsThread
  else threadScheduleTail {k with current:=t,schedules:=k.schedules+1}
   (if cur=t then none else some cur)

def threadBlock:Step:=do
 let cur←threadCurrent k
 schedule (k.setStatus cur .blocked)
def threadYield:Step:=do
 let cur←threadCurrent k
 let k:=if k.idleThread=some cur then k else k.pushReady cur
 schedule (k.setStatus cur .ready)

/-- From `intr_disable` on, with no thread recorded in `waiting_thread`. -/
def threadExit:Step:=do
 let cur←threadCurrent k
 let k:={k with allList:=k.allList.erase cur,exited:=k.exited++[cur]}
 schedule (k.setStatus cur .dying)

/-- Where a thread goes on after the call of `sema_down` that it is in. -/
def Stage.afterDown:Stage→Stage
 | .allocating t=>.numbering t
 | .starting=>.body
 | stage=>stage

/-- One turn of the loop of `sema_down`. -/
def semaDown (s:ℕ):Step:=do
 if (k.sema s).value=0 then
  let cur←threadCurrent k
  let sema:={k.sema s with waiters:=(k.sema s).waiters++[cur]}
  threadBlock ((k.setSema s sema).setWaiting cur (some s))
 else
  let t:=k.thread k.current
  return (k.setSema s {k.sema s with value:=(k.sema s).value-1}).setThread k.current
   {t with stage:=t.stage.afterDown,waiting:=none}

def semaTryDown (s:ℕ):Kernel:=
 if 0<(k.sema s).value then k.setSema s {k.sema s with value:=(k.sema s).value-1} else k

def semaUp (s:ℕ):Step:=do
 let k←match (k.sema s).waiters with
  | []=>pure k
  | t::rest=>threadUnblock (k.setSema s {k.sema s with waiters:=rest}) t
 return k.setSema s {k.sema s with value:=((k.sema s).value+1)%2^32}

/-- The timer interrupt, with what `intr_handler` does before it returns. -/
def timerInterrupt:Step:=do
 let k:={k with ticks:=k.ticks+1}
 let _←threadCurrent k
 let k:={k with threadTicks:=k.threadTicks+1}
 if timeSlice≤k.threadTicks then threadYield k else return k

def initThread (t:ℕ):Kernel:=
 {k.setThread t ⟨0,.blocked,threadMagic,.fresh,none⟩ with
   free:=update k.free t false
   allList:=k.allList++[t]
   created:=k.created++[t]}

def allocateTid (t:ℕ):Kernel:=
 { k.setThread t {k.thread t with tid:=k.nextTid} with nextTid:=k.nextTid+1}

/-- `thread_create` up to the call of `allocate_tid`; `page` is what
`palloc_get_page` returned. -/
def threadCreate (page:Option ℕ):Kernel:=
 match page with
 | none=>k
 | some t=>(initThread k t).setStage k.current (.allocating t)

/-- `thread_start` up to `intr_enable`. Interrupts are off, so nothing comes
between the steps of `thread_create`. -/
def threadStart (t:ℕ):Step:=
 let new:=allocateTid (initThread k t) t
 threadUnblock ((new.setStage t .idleInit).setStage k.current .starting) t

def statement:Step:=
 let cur:=k.current
 match (k.thread cur).waiting,(k.thread cur).stage with
 | some s,_=>semaDown k s
 | none,.allocating _=>semaDown k tidLock
 | none,.numbering t=>.ok ((allocateTid k t).setStage cur (.releasing t))
 | none,.releasing t=>do
  let k←semaUp k tidLock
  return k.setStage cur (.unblocking t)
 | none,.unblocking t=>threadUnblock ((k.setStage cur .body).setStage t .body) t
 | none,.starting=>semaDown k idleStarted
 | none,.idleInit=>.ok ({k with idleThread:=some cur}.setStage cur .idleUp)
 | none,.idleUp=>do
  let k←semaUp k idleStarted
  return k.setStage cur .idleLoop
 | none,.idleLoop=>threadBlock k
 | none,.body | none,.fresh | none,.booting=>.ok k

/-- The kernel when `thread_init` returns to the thread whose stack is on the page
`main`. What memory holds and the values that `sema_init` will give to semaphores
are arbitrary. -/
def threadInit (memory:ℕ→Thread)(free:ℕ→Bool)(values:ℕ→ℕ)(main:ℕ):Kernel where
 thread:=update memory main ⟨1,.running,threadMagic,.booting,none⟩
 free:=update free main false
 current:=main
 readyList:=[]
 allList:=[main]
 idleThread:=none
 initialThread:=main
 threadTicks:=0
 ticks:=0
 nextTid:=2
 sema s:=⟨if s=tidLock then 1 else if s=idleStarted then 0 else values s,[]⟩
 created:=[main]
 exited:=[]
 freed:=[]
 queued:=[]
 selected:=[]
 schedules:=0
 since:=0

inductive Act where
 | threadStart (t:ℕ)
 | threadCreate (page:Option ℕ)
 | threadYield
 | threadBlock
 | threadUnblock (t:ℕ)
 | threadExit
 | semaDown (s:ℕ)
 | semaTryDown (s:ℕ)
 | semaUp (s:ℕ)
 | timer
 | step
 deriving DecidableEq,Repr

def run (k:Kernel):Act→Step
 | .threadStart t=>threadStart k t
 | .threadCreate page=>.ok (threadCreate k page)
 | .threadYield=>threadYield k
 | .threadBlock=>threadBlock k
 | .threadUnblock t=>threadUnblock k t
 | .threadExit=>threadExit k
 | .semaDown s=>semaDown k s
 | .semaTryDown s=>.ok (semaTryDown k s)
 | .semaUp s=>semaUp k s
 | .timer=>timerInterrupt k
 | .step=>statement k

/-- Interrupts are off on return from `thread_block` in `sema_down`, and until
`thread_start` enables them. -/
def Interruptible (k:Kernel):Prop:=
 (k.thread k.current).waiting=none ∧ (k.thread k.current).stage≠.booting

def InBody (k:Kernel):Prop:=(k.thread k.current).waiting=none ∧ (k.thread k.current).stage=.body
def Asleep (k:Kernel)(t:ℕ):Prop:=
 t∈k.allList ∧ (k.thread t).status=.blocked ∧ (k.thread t).waiting=none ∧ (k.thread t).stage=.body

/-- When an action may come. `sema_up`, `sema_try_down` and `thread_unblock` may
be called by an interrupt handler, whatever the running thread does. -/
def Enabled (k:Kernel):Act→Prop
 | .threadStart t=>(k.thread k.current).stage=.booting ∧ k.free t=true
 | .threadCreate page=>InBody k ∧ ∀t∈page,k.free t=true
 | .threadYield | .threadBlock | .threadExit | .semaDown _=>InBody k
 | .threadUnblock t=>Interruptible k ∧ Asleep k t
 | .semaTryDown _ | .semaUp _ | .timer=>Interruptible k
 | .step=>(k.thread k.current).waiting≠none ∨
   ((k.thread k.current).stage≠.body ∧ (k.thread k.current).stage≠.booting)

instance (k:Kernel):Decidable (Interruptible k):=inferInstanceAs (Decidable (_ ∧ _))
instance (k:Kernel):Decidable (InBody k):=inferInstanceAs (Decidable (_ ∧ _))
instance (k:Kernel)(t:ℕ):Decidable (Asleep k t):=inferInstanceAs (Decidable (_ ∧ _ ∧ _ ∧ _))

instance (k:Kernel):(a:Act) → Decidable (Enabled k a)
 | .threadStart _=>inferInstanceAs (Decidable (_ ∧ _))
 | .threadCreate page=>inferInstanceAs (Decidable (InBody k ∧ ∀t∈page,k.free t=true))
 | .threadYield | .threadBlock | .threadExit | .semaDown _=>
  inferInstanceAs (Decidable (InBody k))
 | .threadUnblock t=>inferInstanceAs (Decidable (Interruptible k ∧ Asleep k t))
 | .semaTryDown _ | .semaUp _ | .timer=>inferInstanceAs (Decidable (Interruptible k))
 | .step=>inferInstanceAs (Decidable (_ ∨ (_ ∧ _)))

def next (k:Kernel)(a:Act):Option Kernel:=(run k a).toOption

end Pintos.Threads
