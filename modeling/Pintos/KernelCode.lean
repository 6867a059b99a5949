import Pintos.Multitasking
import Pintos.Serial
import Pintos.Threads

/-!
# Kernel functions that turn interrupts off

Every statement is an operation of its own: with interrupts on, a handler may run between any two
of them, and other threads run while a thread is blocked.
-/
namespace Pintos.KernelCode
open Interaction Multitasking Function
open Intq (Slot intqBufsize intqBufsize_pos)
open RingBuffer (Ring)
open Serial (Mode)
open Threads (Semaphore threadMagic)

inductive Queue where
 | input
 | txq
 deriving DecidableEq,Repr

inductive SemaId where
 | own (n:ℕ)
 | lockOf (q:Queue)
 deriving DecidableEq,Repr

structure Thread extends WaitExit.Thread where
 tid:ℕ
 magic:ℕ
 deriving DecidableEq,Repr

/-- What `palloc_free_page` leaves of a thread. -/
def poisoned:Thread:=⟨WaitExit.poisoned,0xcccccccc,0xcccccccc⟩

structure Intq where
 ring:Ring UInt8 intqBufsize
 holder:Option ℕ
 waiter:Slot→Option ℕ

structure Data where
 thread:ℕ→Thread
 readyList:List ℕ
 allList:List ℕ
 idleThread:Option ℕ
 initialThread:ℕ
 threadTicks:ℕ
 ticks:ℤ
 sema:SemaId→Semaphore
 queue:Queue→Intq
 mode:Mode
 inExternalIntr:Bool
 yieldOnReturn:Bool
 expectingInterrupt:ℕ→Bool

inductive Fn where
 | semaDown (s:SemaId)
 | semaDownLoop (s:SemaId)
 | semaTryDown (s:SemaId)
 | semaUp (s:SemaId)
 | threadBlock
 | threadUnblock (t:Option ℕ)
 | threadYield
 | threadExit
 | getThread (tid:ℕ)
 | timerTicks
 | intqLoop (q:Queue) (slot:Slot)
 | inputGetc
 | pollLoop
 | serialPutc (byte:UInt8)
 | processWait (tid:ℕ)
 | issuePioCommand (channel:ℕ) (command:UInt8)
 | intrHandler (irq:Fin 16)
 deriving DecidableEq

def Fn.Ret:Fn→Type
 | .semaTryDown _=>Bool
 | .getThread _=>Option ℕ
 | .timerTicks | .processWait _=>ℤ
 | .inputGetc=>UInt8
 | _=>Unit

abbrev Kernel (α:Type):=Code Data Fn Fn.Ret α

section
variable (d:Data)

def Data.setThread (t:ℕ)(v:Thread):Data:={d with thread:=update d.thread t v}
def Data.setStatus (t:ℕ)(status:WaitExit.ThreadStatus):Data:=
 d.setThread t {d.thread t with status:=status}
def Data.setSema (s:SemaId)(v:Semaphore):Data:={d with sema:=update d.sema s v}
def Data.setQueue (q:Queue)(v:Intq):Data:={d with queue:=update d.queue q v}
def Data.setHolder (q:Queue)(holder:Option ℕ):Data:=d.setQueue q {d.queue q with holder}
def Data.setWaiter (q:Queue)(slot:Slot)(t:Option ℕ):Data:=
 d.setQueue q {d.queue q with waiter:=update (d.queue q).waiter slot t}
def isThread (t:ℕ):Prop:=(d.thread t).magic=threadMagic
instance (t:ℕ):Decidable (isThread d t):=inferInstanceAs (Decidable (_=_))

end

def read:Kernel Data:=act .read
def write (f:Data→Data):Kernel Unit:=act (.write f)
def outb (port:ℕ)(byte:UInt8):Kernel Unit:=act (.output port byte)
def inb (port:ℕ):Kernel UInt8:=act (.input port)
def call (f:Fn):Kernel f.Ret:=act (.call f)
def panic {α:Type}:Kernel α:=stop .fail id
def assert (p:Prop)[Decidable p]:Kernel Unit:=if p then pure () else panic
def runningThread:Kernel ℕ:=act .running
def switchThreads (next:ℕ):Kernel ℕ:=act (.switch next)
def intrGetLevel:Kernel Level:=act .level
def intrContext:Kernel Bool:=do
 let d←read
 return d.inExternalIntr

def intrEnable:Kernel Level:=do
 let oldLevel←intrGetLevel
 let context←intrContext
 assert (context=false)
 act .sti
 return oldLevel

def intrDisable:Kernel Level:=do
 let oldLevel←intrGetLevel
 act .cli
 return oldLevel
def intrSetLevel (level:Level):Kernel Level:=
 if level=.on then intrEnable else intrDisable
def assertOff:Kernel Unit:=do
 let level←intrGetLevel
 assert (level=.off)
def assertNoContext:Kernel Unit:=do
 let context←intrContext
 assert (context=false)

def threadCurrent:Kernel ℕ:=do
 let t←runningThread
 let d←read
 assert (isThread d t)
 assert ((d.thread t).status=.running)
 return t

def threadTid:Kernel ℕ:=do
 let t←threadCurrent
 let d←read
 return (d.thread t).tid

def nextThreadToRun:Kernel (Option ℕ):=do
 let d←read
 match d.readyList with
 | []=>return d.idleThread
 | t::rest=>
  write fun d=>{d with readyList:=rest}
  return some t

def threadScheduleTail (prev:Option ℕ):Kernel Unit:=do
 let cur←runningThread
 assertOff
 write fun d=>d.setStatus cur .running
 write fun d=>{d with threadTicks:=0}
 let d←read
 match prev with
 | none=>return ()
 | some p=>
  if (d.thread p).status=.dying ∧ p≠d.initialThread then
   assert (p≠cur)
   write fun d=>d.setThread p poisoned
  else return ()

def schedule:Kernel Unit:=do
 let cur←runningThread
 let next←nextThreadToRun
 assertOff
 let d←read
 assert ((d.thread cur).status≠.running)
 match next with
 | none=>panic
 | some t=>
  assert (isThread d t)
  -- The source does not switch from a thread to itself; such a switch goes on at once.
  let prev←switchThreads t
  threadScheduleTail (if cur=t then none else some prev)

def threadBlock:Kernel Unit:=do
 assertNoContext
 assertOff
 let cur←threadCurrent
 write fun d=>d.setStatus cur .blocked
 schedule

def threadUnblock (t:Option ℕ):Kernel Unit:=
 match t with
 | none=>panic
 | some t=>do
  let d←read
  assert (isThread d t)
  let oldLevel←intrDisable
  let d←read
  assert ((d.thread t).status=.blocked)
  write fun d=>{d with readyList:=d.readyList++[t]}
  write fun d=>d.setStatus t .ready
  let _←intrSetLevel oldLevel

def threadYield:Kernel Unit:=do
 let cur←threadCurrent
 assertNoContext
 let oldLevel←intrDisable
 let d←read
 if d.idleThread≠some cur then
  write fun d=>{d with readyList:=d.readyList++[cur]}
 write fun d=>d.setStatus cur .ready
 schedule
 let _←intrSetLevel oldLevel

def getThread (tid:ℕ):Kernel (Option ℕ):=do
 let intrState←intrDisable
 let d←read
 match d.allList.find? (fun t=>(d.thread t).tid=tid) with
 | some t=>
  let _←intrSetLevel intrState
  return some t
 | none=>
  let _←intrSetLevel intrState
  return none

/-- After `process_exit`, which is code of other modules. -/
def threadExit (processExit:Kernel Unit):Kernel Unit:=do
 assertNoContext
 processExit
 let _←intrDisable
 let cur←threadCurrent
 write fun d=>{d with allList:=d.allList.erase cur}
 let d←read
 let waiter:=(d.thread cur).waitingThread
 if waiter≠0 then
  let t←call (.getThread waiter)
  call (.threadUnblock t)
  match←call (.getThread waiter) with
  | none=>panic
  | some p=>
   write fun d=>d.setThread p {d.thread p with childExitStatus:=(d.thread cur).exitStatus}
 write fun d=>d.setStatus cur .dying
 schedule
 panic

section
variable (s:SemaId)

def semaDown:Kernel Unit:=do
 assertNoContext
 let oldLevel←intrDisable
 call (.semaDownLoop s)
 write fun d=>d.setSema s {d.sema s with value:=(d.sema s).value-1}
 let _←intrSetLevel oldLevel

def semaDownLoop:Kernel Unit:=do
 let d←read
 if (d.sema s).value=0 then
  let cur←threadCurrent
  write fun d=>d.setSema s {d.sema s with waiters:=(d.sema s).waiters++[cur]}
  threadBlock
  call (.semaDownLoop s)
 else return ()

def semaTryDown:Kernel Bool:=do
 let oldLevel←intrDisable
 let d←read
 let success:=decide (0<(d.sema s).value)
 if success then
  write fun d=>d.setSema s {d.sema s with value:=(d.sema s).value-1}
 let _←intrSetLevel oldLevel
 return success

def semaUp:Kernel Unit:=do
 let oldLevel←intrDisable
 let d←read
 match (d.sema s).waiters with
 | []=>pure ()
 | t::rest=>
  write fun d=>d.setSema s {d.sema s with waiters:=rest}
  call (.threadUnblock (some t))
 write fun d=>d.setSema s {d.sema s with value:=((d.sema s).value+1)%2^32}
 let _←intrSetLevel oldLevel

variable (q:Queue)

def lockHeldByCurrentThread:Kernel Bool:=do
 let cur←threadCurrent
 let d←read
 return decide ((d.queue q).holder=some cur)

def lockAcquire:Kernel Unit:=do
 assertNoContext
 let held←lockHeldByCurrentThread q
 assert (held=false)
 call (.semaDown (.lockOf q))
 let cur←threadCurrent
 write fun d=>d.setHolder q (some cur)

def lockRelease:Kernel Unit:=do
 let held←lockHeldByCurrentThread q
 assert (held=true)
 write fun d=>d.setHolder q none
 call (.semaUp (.lockOf q))

def intqEmpty:Kernel Bool:=do
 assertOff
 let d←read
 return (d.queue q).ring.isEmpty
def intqFull:Kernel Bool:=do
 assertOff
 let d←read
 return (d.queue q).ring.isFull

/-- What a thread waits for in a slot is not true. -/
def intqLacks:Slot→Kernel Bool
 | .notEmpty=>intqEmpty q
 | .notFull=>intqFull q

def wait (slot:Slot):Kernel Unit:=do
 assertNoContext
 assertOff
 let lacks←intqLacks q slot
 assert (lacks=true)
 let cur←threadCurrent
 write fun d=>d.setWaiter q slot (some cur)
 threadBlock

def signal (slot:Slot):Kernel Unit:=do
 assertOff
 let lacks←intqLacks q slot
 assert (lacks=false)
 let d←read
 match (d.queue q).waiter slot with
 | none=>return ()
 | some t=>
  call (.threadUnblock (some t))
  write fun d=>d.setWaiter q slot none

def intqLoop (slot:Slot):Kernel Unit:=do
 if←intqLacks q slot then
  assertNoContext
  lockAcquire q
  wait q slot
  lockRelease q
  call (.intqLoop q slot)
 else return ()

def intqGetc:Kernel UInt8:=do
 assertOff
 call (.intqLoop q .notEmpty)
 let d←read
 let byte:=(d.queue q).ring.front
 write fun d=>d.setQueue q {d.queue q with ring:=(d.queue q).ring.pop}
 signal q .notFull
 return byte

def intqPutc (byte:UInt8):Kernel Unit:=do
 assertOff
 call (.intqLoop q .notFull)
 write fun d=>d.setQueue q {d.queue q with ring:=(d.queue q).ring.push byte}
 signal q .notEmpty

def intqInit:Kernel Unit:=do
 write fun d=>d.setSema (.lockOf q) ⟨1,[]⟩
 write fun d=>d.setQueue q
  ⟨{ (d.queue q).ring with head:=⟨0,intqBufsize_pos⟩,tail:=⟨0,intqBufsize_pos⟩},none,fun _=>none⟩

end

def timerTicks:Kernel ℤ:=do
 let oldLevel←intrDisable
 let d←read
 let _←intrSetLevel oldLevel
 return d.ticks

def ioBase:ℕ:=0x3f8
def inputFull:Kernel Bool:=do
 assertOff
 intqFull .input

def writeIer:Kernel Unit:=do
 assertOff
 let empty←intqEmpty .txq
 let full←inputFull
 outb (ioBase+1) ((if empty then 0 else 0x02) ||| (if full then 0 else 0x01))

def serialNotify:Kernel Unit:=do
 assertOff
 let d←read
 if d.mode=.queue then writeIer else return ()

def inputGetc:Kernel UInt8:=do
 let oldLevel←intrDisable
 let key←intqGetc .input
 serialNotify
 let _←intrSetLevel oldLevel
 return key

/-- The divisor for 9600 bits per second. -/
def setSerial:Kernel Unit:=do
 outb (ioBase+3) 0x83
 outb ioBase 12
 outb (ioBase+1) 0
 outb (ioBase+3) 0x03

def initPoll:Kernel Unit:=do
 let d←read
 assert (d.mode=.uninit)
 outb (ioBase+1) 0
 outb (ioBase+2) 0
 setSerial
 outb (ioBase+4) 0x08
 intqInit .txq
 write fun d=>{d with mode:=.poll}

def pollLoop:Kernel Unit:=do
 let lsr←inb (ioBase+5)
 if lsr &&& 0x20=0 then call .pollLoop else return ()
def putcPoll (byte:UInt8):Kernel Unit:=do
 assertOff
 call .pollLoop
 outb ioBase byte

/-- `intq_full` is called only with interrupts off. -/
def serialPutc (byte:UInt8):Kernel Unit:=do
 let oldLevel←intrDisable
 let d←read
 if d.mode≠.queue then
  if d.mode=.uninit then initPoll
  putcPoll byte
 else
  if oldLevel=.off then
   if←intqFull .txq then
    let front←intqGetc .txq
    putcPoll front
  intqPutc .txq byte
  writeIer
 let _←intrSetLevel oldLevel

def issuePioCommand (channel:ℕ)(command:UInt8):Kernel Unit:=do
 let level←intrGetLevel
 assert (level=.on)
 write fun d=>
  {d with expectingInterrupt:=update d.expectingInterrupt channel true}
 outb ((if channel=0 then 0x1f0 else 0x170)+7) command

def processWait (tid:ℕ):Kernel ℤ:=do
 match←call (.getThread tid) with
 | none=>return -1
 | some t=>
  let d←read
  if (d.thread t).waitCalled then return -1
  else
   write fun d=>d.setThread t {d.thread t with waitCalled:=true}
   let own←threadTid
   write fun d=>d.setThread t {d.thread t with waitingThread:=own}
   let _←intrDisable
   threadBlock
   let cur←threadCurrent
   let d←read
   return (d.thread cur).childExitStatus

/-- The code of other modules: the handlers that are registered for external interrupts, the
functions that threads are made with, and `process_exit`. -/
structure Others where
 handler:Fin 16 → Kernel Unit
 function:ℕ→Kernel Unit
 processExit:Kernel Unit
variable (others:Others)

/-- From the interrupt stub to its `iret`, which turns interrupts on again. -/
def intrHandler (irq:Fin 16):Kernel Unit:=do
 assertOff
 assertNoContext
 write fun d=>{d with inExternalIntr:=true,yieldOnReturn:=false}
 others.handler irq
 assertOff
 let context←intrContext
 assert (context=true)
 write fun d=>{d with inExternalIntr:=false}
 outb 0x20 0x20
 if 8 ≤ irq.val then outb 0xa0 0x20
 let d←read
 if d.yieldOnReturn then call .threadYield
 act .sti

def body:(f:Fn) → Kernel f.Ret
 | .semaDown s=>semaDown s
 | .semaDownLoop s=>semaDownLoop s
 | .semaTryDown s=>semaTryDown s
 | .semaUp s=>semaUp s
 | .threadBlock=>threadBlock
 | .threadUnblock t=>threadUnblock t
 | .threadYield=>threadYield
 | .threadExit=>threadExit others.processExit
 | .getThread tid=>getThread tid
 | .timerTicks=>timerTicks
 | .intqLoop q slot=>intqLoop q slot
 | .inputGetc=>inputGetc
 | .pollLoop=>pollLoop
 | .serialPutc byte=>serialPutc byte
 | .processWait tid=>processWait tid
 | .issuePioCommand channel command=>issuePioCommand channel command
 | .intrHandler irq=>intrHandler others irq

def isHandler:Fn→Bool
 | .intrHandler _=>true
 | _=>false

def kernelThread (function prev:ℕ):Kernel Unit:=do
 threadScheduleTail (some prev)
 let _←intrEnable
 others.function function
 call .threadExit

def table:Table Data Fn Fn.Ret:=⟨body others,isHandler,kernelThread others⟩

end Pintos.KernelCode
