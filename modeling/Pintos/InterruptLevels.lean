import Pintos.KernelCode

/-!
# Functions that restore the interrupt level

What every function of the kernel does to the interrupt flag, and from it the levels on entry and
on return of the calls in every run, with any code in other threads and handlers.
-/
namespace Pintos.KernelCode
open ExecRuns Interaction Multitasking
open Function (update update_of_ne)
open Pintos.Intq (intqBufsize_pos)

/-- All functions but `process_wait` restore the level. That one leaves interrupts off if it has
slept. -/
def contract:Contract Fn where
 keeps
  | .processWait _=>false
  | _=>true
 post
  | .processWait _,entry,exit,slept=>exit=if slept then .off else entry
  | _,entry,exit,_=>exit=entry

variable {others:Others}

abbrev Goes {α:Type}(others:Others)(p:Kernel α)(s t:Phase):Prop:=
 Takes (table others) contract p s t

/-- The code is left at the level at which it is entered. -/
def Stays {α:Type}(others:Others)(p:Kernel α)(l:Level):Prop:=
 ∀slept,Meets (rules (table others) contract) p (fun _ t=>t.level=some l) ⟨some l,slept⟩

section
variable {s t:Phase}{α:Type}

lemma goes_read:Goes others read s s:=takes_quiet trivial fun _=>rfl
lemma goes_write (f:Data→Data):Goes others (write f) s s:=takes_quiet trivial fun _=>rfl
lemma goes_outb (port:ℕ)(byte:UInt8):Goes others (outb port byte) s s:=
 takes_quiet trivial fun _=>rfl
lemma goes_inb (port:ℕ):Goes others (inb port) s s:=takes_quiet trivial fun _=>rfl
lemma goes_runningThread:Goes others runningThread s s:=takes_quiet trivial fun _=>rfl
lemma goes_panic:Goes others (panic:Kernel α) s t:=takes_fail
lemma goes_panic_then {β:Type}{f:α→Kernel β}:
 Goes others ((panic:Kernel α) >>= f) s t:=⟨trivial,fun r=>Empty.elim r⟩
lemma goes_call {f:Fn}(called:isHandler f=false)(keeps:contract.keeps f=true):
 Goes others (call f) s s:=
 takes_call called keeps

lemma Goes.stays {p:Kernel α}{l:Level}{slept:Bool}(slept':Bool)
 (h:Goes others p ⟨some l,slept⟩ ⟨some l,slept'⟩):
 Meets (rules (table others) contract) p (fun _ t=>t.level=some l) ⟨some l,slept⟩:=by
 refine Meets.mono h ?_
 rintro _ _ rfl
 rfl

lemma goes_assert {p:Prop}[Decidable p](same:p → s=t):Goes others (assert p) s t:=
 meets_ite (fun holds=>same holds▸takes_pure ()) fun _=>goes_panic

variable {l:Level}{slept:Bool}

lemma goes_intrContext:Goes others intrContext s s:=goes_read.bind fun _=>takes_pure _
lemma goes_assertNoContext:Goes others assertNoContext s s:=
 goes_intrContext.bind fun _=>goes_assert fun _=>rfl
lemma goes_assertOff:Goes others assertOff s ⟨some .off,s.slept⟩:=
 takes_level fun _ _=>goes_assert fun off=>by rw[off]

lemma meets_assertOff_on {Q:Unit→Phase→Prop}:
 Meets (rules (table others) contract) assertOff Q ⟨some .on,slept⟩:=by
 refine ⟨trivial,fun r knows=>?_⟩
 obtain rfl:=knows .on rfl
 exact meets_stop trivial

lemma goes_assertOff_same:Goes others assertOff ⟨some l,slept⟩ ⟨some l,slept⟩:=
 takes_level fun r knows=>goes_assert fun _=>by rw[knows l rfl]
lemma goes_intrEnable:Goes others intrEnable s ⟨some .on,s.slept⟩:=by
 refine takes_level fun _ _=>?_
 refine goes_assertNoContext.bind fun _=>?_
 exact takes_sti.bind fun _=>takes_pure _
lemma goes_intrDisable:Goes others intrDisable s ⟨some .off,s.slept⟩:=
 takes_level fun _ _=>takes_cli.bind fun _=>takes_pure _
lemma goes_intrSetLevel (level:Level):Goes others (intrSetLevel level) s ⟨some level,s.slept⟩:=by
 cases level with
 | on=>exact goes_intrEnable
 | off=>exact goes_intrDisable

lemma goes_disable {k:Level→Kernel α}(rest:Goes others (k l) ⟨some .off,slept⟩ t):
 Goes others (intrDisable >>= k) ⟨some l,slept⟩ t:=by
 refine takes_level fun r knows=>?_
 obtain rfl:=knows l rfl
 exact takes_cli.bind fun _=>rest

lemma goes_threadCurrent:Goes others threadCurrent s s:=by
 refine goes_runningThread.bind fun _=>goes_read.bind fun _=>?_
 refine (goes_assert fun _=>rfl).bind fun _=>(goes_assert fun _=>rfl).bind fun _=>?_
 exact takes_pure _
lemma goes_threadTid:Goes others threadTid s s:=
 goes_threadCurrent.bind fun _=>goes_read.bind fun _=>takes_pure _

lemma goes_nextThreadToRun:Goes others nextThreadToRun s s:=by
 refine goes_read.bind fun d=>?_
 cases d.readyList with
 | nil=>exact takes_pure _
 | cons t rest=>exact (goes_write _).bind fun _=>takes_pure _

lemma goes_threadScheduleTail (prev:Option ℕ):
 Goes others (threadScheduleTail prev) s ⟨some .off,s.slept⟩:=by
 refine goes_runningThread.bind fun _=>goes_assertOff.bind fun _=>?_
 refine (goes_write _).bind fun _=>(goes_write _).bind fun _=>goes_read.bind fun _=>?_
 cases prev with
 | none=>exact takes_pure ()
 | some p=>
  refine meets_ite (fun _=>?_) fun _=>takes_pure ()
  exact (goes_assert fun _=>rfl).bind fun _=>goes_write _

lemma goes_schedule:Goes others schedule s ⟨some .off,true⟩:=by
 refine goes_runningThread.bind fun _=>goes_nextThreadToRun.bind fun next=>?_
 refine goes_assertOff.bind fun _=>goes_read.bind fun _=>?_
 refine (goes_assert fun _=>rfl).bind fun _=>?_
 cases next with
 | none=>exact goes_panic
 | some t=>
  refine (goes_assert fun _=>rfl).bind fun _=>?_
  exact takes_switch.bind fun _=>goes_threadScheduleTail _

lemma goes_threadBlock:Goes others threadBlock s ⟨some .off,true⟩:=by
 refine goes_assertNoContext.bind fun _=>goes_assertOff.bind fun _=>?_
 exact goes_threadCurrent.bind fun _=>(goes_write _).bind fun _=>goes_schedule

lemma goes_threadBlock_same:Goes others threadBlock ⟨some l,slept⟩ ⟨some l,true⟩:=by
 cases l with
 | off=>exact goes_threadBlock
 | on=>
  refine goes_assertNoContext.bind fun _=>?_
  exact meets_bind.2 meets_assertOff_on

lemma goes_threadUnblock (t:Option ℕ):
 Goes others (threadUnblock t) ⟨some l,slept⟩ ⟨some l,slept⟩:=by
 cases t with
 | none=>exact goes_panic
 | some t=>
  refine goes_read.bind fun _=>(goes_assert fun _=>rfl).bind fun _=>goes_disable ?_
  refine goes_read.bind fun _=>(goes_assert fun _=>rfl).bind fun _=>?_
  refine (goes_write _).bind fun _=>(goes_write _).bind fun _=>?_
  exact (goes_intrSetLevel l).bind fun _=>takes_pure ()

lemma goes_threadYield:Goes others threadYield ⟨some l,slept⟩ ⟨some l,true⟩:=by
 refine goes_threadCurrent.bind fun cur=>goes_assertNoContext.bind fun _=>goes_disable ?_
 refine goes_read.bind fun d=>?_
 have rest:Goes others (do
   write fun d=>d.setStatus cur .ready
   schedule
   let _←intrSetLevel l) ⟨some .off,slept⟩ ⟨some l,true⟩:=by
  refine (goes_write _).bind fun _=>goes_schedule.bind fun _=>?_
  exact (goes_intrSetLevel l).bind fun _=>takes_pure ()
 exact meets_ite (fun _=>(goes_write _).bind fun _=>rest) fun _=>rest

lemma goes_getThread (tid:ℕ):Goes others (getThread tid) ⟨some l,slept⟩ ⟨some l,slept⟩:=by
 refine goes_disable (goes_read.bind fun d=>?_)
 split
 · exact (goes_intrSetLevel l).bind fun _=>takes_pure _
 · exact (goes_intrSetLevel l).bind fun _=>takes_pure _

lemma goes_threadExit {t:Phase}(plain:Plain (table others) others.processExit):
 Goes others (threadExit others.processExit) s t:=by
 refine goes_assertNoContext.bind fun _=>?_
 refine meets_bind.2 ((plain.meets s).mono fun _ s' _=>?_)
 refine goes_intrDisable.bind fun _=>goes_threadCurrent.bind fun cur=>?_
 refine (goes_write _).bind fun _=>goes_read.bind fun d=>?_
 have rest {s':Phase}:Goes others (do
   write fun d=>d.setStatus cur .dying
   schedule
   (panic:Kernel Unit)) s' t:=
  (goes_write _).bind fun _=>goes_schedule.bind fun _=>goes_panic
 refine meets_ite (fun _=>?_) fun _=>rest
 refine (goes_call rfl rfl).bind fun _=>(goes_call rfl rfl).bind fun _=>?_
 refine (goes_call rfl rfl).bind fun found=>?_
 cases found with
 | none=>exact goes_panic_then
 | some p=>exact (goes_write _).bind fun _=>rest

lemma goes_semaDown (sema:SemaId):Goes others (semaDown sema) ⟨some l,slept⟩ ⟨some l,slept⟩:=by
 refine goes_assertNoContext.bind fun _=>goes_disable ?_
 refine (goes_call rfl rfl).bind fun _=>(goes_write _).bind fun _=>?_
 exact (goes_intrSetLevel l).bind fun _=>takes_pure ()

lemma stays_semaDownLoop (sema:SemaId):Stays others (semaDownLoop sema) l:=by
 intro slept
 refine meets_bind.2 (goes_read.mono ?_)
 rintro d _ rfl
 refine meets_ite (fun _=>Goes.stays true ?_) fun _=>rfl
 refine goes_threadCurrent.bind fun _=>(goes_write _).bind fun _=>?_
 exact goes_threadBlock_same.bind fun _=>goes_call rfl rfl

lemma goes_semaTryDown (sema:SemaId):
 Goes others (semaTryDown sema) ⟨some l,slept⟩ ⟨some l,slept⟩:=by
 refine goes_disable (goes_read.bind fun d=>?_)
 have rest:Goes others (do
   let _←intrSetLevel l
   return decide (0<(d.sema sema).value)) ⟨some .off,slept⟩ ⟨some l,slept⟩:=
  (goes_intrSetLevel l).bind fun _=>takes_pure _
 exact meets_ite (fun _=>(goes_write _).bind fun _=>rest) fun _=>rest

lemma goes_semaUp (sema:SemaId):Goes others (semaUp sema) ⟨some l,slept⟩ ⟨some l,slept⟩:=by
 refine goes_disable (goes_read.bind fun d=>?_)
 have rest:Goes others (do
   write fun d=>d.setSema sema {d.sema sema with value:=((d.sema sema).value+1)%2^32}
   let _←intrSetLevel l) ⟨some .off,slept⟩ ⟨some l,slept⟩:=
  (goes_write _).bind fun _=>(goes_intrSetLevel l).bind fun _=>takes_pure ()
 cases (d.sema sema).waiters with
 | nil=>exact rest
 | cons t others=>
  exact (goes_write _).bind fun _=>(goes_call rfl rfl).bind fun _=>rest

lemma goes_lockHeldByCurrentThread (q:Queue):Goes others (lockHeldByCurrentThread q) s s:=
 goes_threadCurrent.bind fun _=>goes_read.bind fun _=>takes_pure _
lemma goes_lockAcquire (q:Queue):Goes others (lockAcquire q) s s:=by
 refine goes_assertNoContext.bind fun _=>(goes_lockHeldByCurrentThread q).bind fun _=>?_
 refine (goes_assert fun _=>rfl).bind fun _=>(goes_call rfl rfl).bind fun _=>?_
 exact goes_threadCurrent.bind fun _=>goes_write _
lemma goes_lockRelease (q:Queue):Goes others (lockRelease q) s s:=by
 refine (goes_lockHeldByCurrentThread q).bind fun _=>(goes_assert fun _=>rfl).bind fun _=>?_
 exact (goes_write _).bind fun _=>goes_call rfl rfl

variable (q:Queue)

lemma goes_intqEmpty:Goes others (intqEmpty q) ⟨some l,slept⟩ ⟨some l,slept⟩:=
 goes_assertOff_same.bind fun _=>goes_read.bind fun _=>takes_pure _
lemma goes_intqFull:Goes others (intqFull q) ⟨some l,slept⟩ ⟨some l,slept⟩:=
 goes_assertOff_same.bind fun _=>goes_read.bind fun _=>takes_pure _

lemma goes_intqLacks (slot:Intq.Slot):
 Goes others (intqLacks q slot) ⟨some l,slept⟩ ⟨some l,slept⟩:=by
 cases slot with
 | notEmpty=>exact goes_intqEmpty q
 | notFull=>exact goes_intqFull q

lemma goes_wait (slot:Intq.Slot):Goes others (wait q slot) ⟨some l,slept⟩ ⟨some l,true⟩:=by
 refine goes_assertNoContext.bind fun _=>goes_assertOff_same.bind fun _=>?_
 refine (goes_intqLacks q slot).bind fun _=>(goes_assert fun _=>rfl).bind fun _=>?_
 exact goes_threadCurrent.bind fun _=>(goes_write _).bind fun _=>goes_threadBlock_same

lemma goes_signal (slot:Intq.Slot):Goes others (signal q slot) ⟨some l,slept⟩ ⟨some l,slept⟩:=by
 refine goes_assertOff_same.bind fun _=>(goes_intqLacks q slot).bind fun _=>?_
 refine (goes_assert fun _=>rfl).bind fun _=>goes_read.bind fun d=>?_
 cases (d.queue q).waiter slot with
 | none=>exact takes_pure ()
 | some t=>exact (goes_call rfl rfl).bind fun _=>goes_write _

lemma stays_intqLoop (slot:Intq.Slot):Stays others (intqLoop q slot) l:=by
 intro slept
 refine meets_bind.2 ((goes_intqLacks q slot).mono ?_)
 rintro lacks _ rfl
 refine meets_ite (fun _=>Goes.stays true ?_) fun _=>rfl
 refine goes_assertNoContext.bind fun _=>(goes_lockAcquire q).bind fun _=>?_
 refine (goes_wait q slot).bind fun _=>(goes_lockRelease q).bind fun _=>?_
 exact goes_call rfl rfl

lemma goes_intqGetc:Goes others (intqGetc q) ⟨some l,slept⟩ ⟨some l,slept⟩:=by
 refine goes_assertOff_same.bind fun _=>(goes_call rfl rfl).bind fun _=>?_
 refine goes_read.bind fun _=>(goes_write _).bind fun _=>?_
 exact (goes_signal q .notFull).bind fun _=>takes_pure _
lemma goes_intqPutc (byte:UInt8):Goes others (intqPutc q byte) ⟨some l,slept⟩ ⟨some l,slept⟩:=by
 refine goes_assertOff_same.bind fun _=>(goes_call rfl rfl).bind fun _=>?_
 exact (goes_write _).bind fun _=>goes_signal q .notEmpty
lemma goes_intqInit:Goes others (intqInit q) s s:=(goes_write _).bind fun _=>goes_write _
lemma goes_timerTicks:Goes others timerTicks ⟨some l,slept⟩ ⟨some l,slept⟩:=by
 refine goes_disable (goes_read.bind fun _=>?_)
 exact (goes_intrSetLevel l).bind fun _=>takes_pure _
lemma goes_inputFull:Goes others inputFull ⟨some l,slept⟩ ⟨some l,slept⟩:=
 goes_assertOff_same.bind fun _=>goes_intqFull .input
lemma goes_writeIer:Goes others writeIer ⟨some l,slept⟩ ⟨some l,slept⟩:=by
 refine goes_assertOff_same.bind fun _=>(goes_intqEmpty .txq).bind fun _=>?_
 exact goes_inputFull.bind fun _=>goes_outb _ _
lemma goes_serialNotify:Goes others serialNotify ⟨some l,slept⟩ ⟨some l,slept⟩:=by
 refine goes_assertOff_same.bind fun _=>goes_read.bind fun _=>?_
 exact meets_ite (fun _=>goes_writeIer) fun _=>takes_pure ()
lemma goes_inputGetc:Goes others inputGetc ⟨some l,slept⟩ ⟨some l,slept⟩:=by
 refine goes_disable ((goes_intqGetc .input).bind fun _=>?_)
 refine goes_serialNotify.bind fun _=>?_
 exact (goes_intrSetLevel l).bind fun _=>takes_pure _
lemma goes_setSerial:Goes others setSerial s s:=by
 refine (goes_outb _ _).bind fun _=>(goes_outb _ _).bind fun _=>?_
 exact (goes_outb _ _).bind fun _=>goes_outb _ _

lemma goes_initPoll:Goes others initPoll s s:=by
 refine goes_read.bind fun _=>(goes_assert fun _=>rfl).bind fun _=>?_
 refine (goes_outb _ _).bind fun _=>(goes_outb _ _).bind fun _=>?_
 refine goes_setSerial.bind fun _=>(goes_outb _ _).bind fun _=>?_
 exact (goes_intqInit .txq).bind fun _=>goes_write _

lemma goes_pollLoop:Goes others pollLoop s s:=by
 refine (goes_inb _).bind fun _=>?_
 exact meets_ite (fun _=>goes_call rfl rfl) fun _=>takes_pure ()
lemma goes_putcPoll (byte:UInt8):Goes others (putcPoll byte) ⟨some l,slept⟩ ⟨some l,slept⟩:=by
 refine goes_assertOff_same.bind fun _=>(goes_call rfl rfl).bind fun _=>?_
 exact goes_outb _ _

lemma goes_serialPutc (byte:UInt8):Goes others (serialPutc byte) ⟨some l,slept⟩ ⟨some l,slept⟩:=by
 refine goes_disable (goes_read.bind fun d=>?_)
 have restore:Goes others (do let _←intrSetLevel l) ⟨some .off,slept⟩ ⟨some l,slept⟩:=
  (goes_intrSetLevel l).bind fun _=>takes_pure ()
 refine meets_ite (fun _=>?_) fun _=>?_
 · have send:Goes others (do putcPoll byte;let _←intrSetLevel l) ⟨some .off,slept⟩
     ⟨some l,slept⟩:=(goes_putcPoll byte).bind fun _=>restore
   exact meets_ite (fun _=>goes_initPoll.bind fun _=>send) fun _=>send
 · have send:Goes others (do intqPutc .txq byte;writeIer;let _←intrSetLevel l)
     ⟨some .off,slept⟩ ⟨some l,slept⟩:=
    (goes_intqPutc .txq byte).bind fun _=>goes_writeIer.bind fun _=>restore
   refine meets_ite (fun _=>?_) fun _=>send
   refine (goes_intqFull .txq).bind fun _=>meets_ite (fun _=>?_) fun _=>send
   exact (goes_intqGetc .txq).bind fun _=>(goes_putcPoll _).bind fun _=>send

lemma goes_issuePioCommand (channel:ℕ)(command:UInt8):
 Goes others (issuePioCommand channel command) ⟨some l,slept⟩ ⟨some l,slept⟩:=by
 refine takes_level fun r knows=>?_
 obtain rfl:=knows l rfl
 refine (goes_assert fun _=>rfl).bind fun _=>(goes_write _).bind fun _=>?_
 exact goes_outb _ _

end

lemma fulfils_processWait (tid:ℕ)(entry:Level):
 Fulfils (table others) contract (.processWait tid) entry (processWait tid) ⟨some entry,false⟩:=by
 have returns (v:ℤ):Fulfils (table others) contract (.processWait tid) entry (pure v)
   ⟨some entry,false⟩:=fun x knows=>knows entry rfl
 refine meets_bind.2 ((goes_call rfl rfl).mono ?_)
 rintro found _ rfl
 cases found with
 | none=>exact returns (-1)
 | some t=>
  refine meets_bind.2 (goes_read.mono ?_)
  rintro d _ rfl
  refine meets_ite (fun _=>returns (-1)) fun _=>?_
  have sleeps:Goes others (do
    write fun d=>d.setThread t {d.thread t with waitCalled:=true}
    let own←threadTid
    write fun d=>d.setThread t {d.thread t with waitingThread:=own}
    let _←intrDisable
    threadBlock
    let cur←threadCurrent
    let d←read
    return (d.thread cur).childExitStatus) ⟨some entry,false⟩ ⟨some .off,true⟩:=by
   refine (goes_write _).bind fun _=>goes_threadTid.bind fun _=>?_
   refine (goes_write _).bind fun _=>goes_intrDisable.bind fun _=>?_
   refine goes_threadBlock.bind fun _=>goes_threadCurrent.bind fun _=>?_
   exact goes_read.bind fun _=>takes_pure _
  refine Meets.mono sleeps ?_
  rintro _ _ rfl x knows
  exact knows .off rfl

/-- The code of other modules does not switch threads itself. -/
structure Others.Plain (others:Others):Prop where
 handler:∀irq,Multitasking.Plain (table others) (others.handler irq)
 function:∀i,Multitasking.Plain (table others) (others.function i)
 processExit:Multitasking.Plain (table others) others.processExit

/-- Whatever the handler does, it must have turned interrupts off again, and `iret` turns them
on. -/
lemma fulfils_intrHandler (plain:others.Plain)(irq:Fin 16):
 Fulfils (table others) contract (.intrHandler irq) .on (intrHandler others irq)
  ⟨some .off,false⟩:=by
 have tail {s:Phase}:Goes others (do
   assertOff
   let context←intrContext
   assert (context=true)
   write fun d=>{d with inExternalIntr:=false}
   outb 0x20 0x20
   if 8 ≤ irq.val then outb 0xa0 0x20
   let d←read
   if d.yieldOnReturn then call .threadYield
   act .sti) s ⟨some .on,s.slept⟩:=by
  refine goes_assertOff.bind fun _=>goes_intrContext.bind fun _=>?_
  refine (goes_assert fun _=>rfl).bind fun _=>(goes_write _).bind fun _=>?_
  refine (goes_outb _ _).bind fun _=>?_
  have returns:Goes others (do
    let d←read
    if d.yieldOnReturn then call .threadYield
    act .sti) ⟨some .off,s.slept⟩ ⟨some .on,s.slept⟩:=by
   refine goes_read.bind fun d=>?_
   exact meets_ite (fun _=>(goes_call rfl rfl).bind fun _=>takes_sti) fun _=>takes_sti
  exact meets_ite (fun _=>(goes_outb _ _).bind fun _=>returns) fun _=>returns
 refine meets_bind.2 (goes_assertOff.mono ?_)
 rintro _ _ rfl
 refine meets_bind.2 (goes_assertNoContext.mono ?_)
 rintro _ _ rfl
 refine meets_bind.2 ((goes_write _).mono ?_)
 rintro _ _ rfl
 refine meets_bind.2 (((plain.handler irq).meets _).mono ?_)
 rintro _ s' -
 refine Meets.mono tail ?_
 rintro _ _ rfl x knows
 exact knows .on rfl

lemma meets_kernelThread (plain:others.Plain)(function prev:ℕ)(s:Phase):
 Meets (rules (table others) contract) (kernelThread others function prev) (fun _ _=>True) s:=by
 refine meets_bind.2 ((goes_threadScheduleTail _).mono ?_)
 rintro _ _ rfl
 refine meets_bind.2 (goes_intrEnable.mono ?_)
 rintro _ _ rfl
 refine meets_bind.2 (((plain.function function).meets _).mono fun _ _ _=>?_)
 exact Meets.mono (goes_call rfl rfl) fun _ _ _=>trivial

lemma Stays.fulfils {f:Fn}{l:Level}{p:Kernel f.Ret}(h:Stays others p l)
 (post:∀exit slept,contract.post f l exit slept=(exit=l)):
 Fulfils (table others) contract f l p ⟨some l,false⟩:=by
 refine (h false).mono ?_
 intro _ t level x knows
 rw[post]
 exact knows l level

lemma Goes.fulfils {f:Fn}{l:Level}{slept:Bool}{p:Kernel f.Ret}
 (h:Goes others p ⟨some l,false⟩ ⟨some l,slept⟩)
 (post:∀exit slept,contract.post f l exit slept=(exit=l)):
 Fulfils (table others) contract f l p ⟨some l,false⟩:=by
 refine Takes.fulfils h ?_
 intro x knows
 rw[post]
 exact knows l rfl

lemma fulfils_body (plain:others.Plain)(f:Fn)(entry:Level)(called:isHandler f=false):
 Fulfils (table others) contract f entry (body others f) ⟨some entry,false⟩:=by
 cases f with
 | semaDown s=>exact Goes.fulfils (goes_semaDown s) fun _ _=>rfl
 | semaDownLoop s=>exact (stays_semaDownLoop s).fulfils fun _ _=>rfl
 | semaTryDown s=>exact Goes.fulfils (goes_semaTryDown s) fun _ _=>rfl
 | semaUp s=>exact Goes.fulfils (goes_semaUp s) fun _ _=>rfl
 | threadBlock=>exact Goes.fulfils goes_threadBlock_same fun _ _=>rfl
 | threadUnblock t=>exact Goes.fulfils (goes_threadUnblock t) fun _ _=>rfl
 | threadYield=>exact Goes.fulfils goes_threadYield fun _ _=>rfl
 | threadExit=>
  have exits:Goes others (threadExit others.processExit) ⟨some entry,false⟩
   ⟨some entry,true⟩:=goes_threadExit plain.processExit
  exact Goes.fulfils exits fun _ _=>rfl
 | getThread tid=>exact Goes.fulfils (goes_getThread tid) fun _ _=>rfl
 | timerTicks=>exact Goes.fulfils goes_timerTicks fun _ _=>rfl
 | intqLoop q slot=>exact (stays_intqLoop q slot).fulfils fun _ _=>rfl
 | inputGetc=>exact Goes.fulfils goes_inputGetc fun _ _=>rfl
 | pollLoop=>exact Goes.fulfils goes_pollLoop fun _ _=>rfl
 | serialPutc byte=>exact Goes.fulfils (goes_serialPutc byte) fun _ _=>rfl
 | processWait tid=>exact fulfils_processWait tid entry
 | issuePioCommand channel command=>
  exact Goes.fulfils (goes_issuePioCommand channel command) fun _ _=>rfl
 | intrHandler irq=>cases called

lemma sound (plain:others.Plain):Sound (table others) contract where
 restores f entry exit slept post keeps:=by
  cases f with
  | processWait tid=>cases keeps
  | _=>exact post
 body:=fulfils_body plain
 handlerKeeps f handler:=by
  cases f with
  | intrHandler irq=>rfl
  | _=>cases handler
 handler f handler:=by
  cases f with
  | intrHandler irq=>exact fulfils_intrHandler plain irq
  | _=>cases handler
 start i prev:=meets_kernelThread plain i prev _
structure Booted (others:Others)(m:Machine Data Fn Fn.Ret):Prop where
 code:Multitasking.Plain (table others) (m.code m.running)
 unmade:∀t,t≠m.running → m.code t=pure ()
 calls:∀t,m.calls t=[]
 returns:m.returns=[]

variable {m m':Machine Data Fn Fn.Ret}{as:List (Act Fn)}

lemma Booted.inv (booted:Booted others m):Inv (table others) contract m where
 good t:=by
  rw[booted.calls t]
  refine ⟨⟨none,false⟩,nofun,?_⟩
  by_cases own:t=m.running
  · rw[own]
    exact (booted.code.meets _).mono fun _ _ _=>trivial
  · rw[booted.unmade t own]
    exact trivial
 returned r mem:=by
  rw[booted.returns] at mem
  cases mem

/-- The functions that should restore the level. -/
def Restoring:Fn→Prop
 | .semaDown _ | .semaTryDown _ | .semaUp _ | .threadYield | .threadUnblock _ | .getThread _
 | .timerTicks | .inputGetc | .serialPutc _ | .processWait _=>True
 | _=>False

/-- Whatever threads run and whatever interrupts come, every call that returns has restored the
level, if no `process_wait` that has slept was called with interrupts on. -/
theorem levels_restored_iff (plain:others.Plain)(booted:Booted others m)
 (run:Runs (next (table others)) Always m as m'):
 (∀r∈m'.returns,Restoring r.fn → r.exit=r.entry) ↔
  ∀r∈m'.returns,∀tid,r.fn=.processWait tid → r.slept=true → r.entry=.off:=by
 have inv:=runs_inv (sound plain) run booted.inv
 constructor
 · intro restored r mem tid waits slept
   have post:=inv.returned r mem
   have same:=restored r mem (by rw[waits];trivial)
   rw[waits,slept] at post
   rw[←same]
   exact post
 · intro quiet r mem _
   have post:=inv.returned r mem
   cases waits:r.fn with
   | processWait tid=>
    rw[waits] at post
    change r.exit=if r.slept then .off else r.entry at post
    cases slept:r.slept with
    | true=>rw[post,if_pos slept,quiet r mem tid waits slept]
    | false=>rw[post,if_neg (by simp[slept])]
   | _=>
    rw[waits] at post
    exact post

def idleOthers:Others:=⟨fun _=>pure (),fun _=>pure (),pure ()⟩

def twoThreads:Data where
 thread t:=⟨⟨if t=1 then .running else .ready,false,0,0,0⟩,t,Threads.threadMagic⟩
 readyList:=[2]
 allList:=[1,2]
 idleThread:=none
 initialThread:=1
 threadTicks:=0
 ticks:=0
 sema _:=⟨1,[]⟩
 queue _:=⟨⟨fun _=>0,⟨0,intqBufsize_pos⟩,⟨0,intqBufsize_pos⟩⟩,none,fun _=>none⟩
 mode:=.queue
 inExternalIntr:=false
 yieldOnReturn:=false
 expectingInterrupt _:=false

def boot (main:Kernel Unit):Machine Data Fn Fn.Ret where
 level:=.on
 running:=1
 data:=twoThreads
 code:=update (fun _=>pure ()) 1 main
 calls _:=[]
 returns:=[]
 failed:=false

def waitThenRead:Kernel Unit:=do
 act (.spawn 2 0)
 let _←call (.processWait 2)
 call (.issuePioCommand 0 0x20)
def yieldOnce:Kernel Unit:=do
 act (.spawn 2 0)
 call .threadYield
lemma idleOthers_plain:idleOthers.Plain:=⟨fun _=>trivial,fun _=>trivial,trivial⟩

lemma boot_booted {main:Kernel Unit}(plain:Multitasking.Plain (table idleOthers) main):
 Booted idleOthers (boot main) where
 code:=plain
 unmade t other:=by
  change update (fun _=>pure ()) (boot main).running main t=pure ()
  rw[update_of_ne other]
 calls _:=rfl
 returns:=rfl

lemma waitThenRead_plain:Multitasking.Plain (table idleOthers) waitThenRead:=
 ⟨id,fun _=>⟨nofun,fun _=>⟨nofun,fun _=>trivial⟩⟩⟩
lemma yieldOnce_plain:Multitasking.Plain (table idleOthers) yieldOnce:=
 ⟨id,fun _=>⟨nofun,fun _=>trivial⟩⟩

/-- `process_wait` is called with interrupts on and returns with interrupts off, and then the
assertion of `issue_pio_command` fails. -/
theorem process_wait_disables:idleOthers.Plain ∧ Booted idleOthers (boot waitThenRead) ∧
 ∃as m,Runs (next (table idleOthers)) Always (boot waitThenRead) as m ∧
  (∃r∈m.returns,r.fn=.processWait 2 ∧ r.entry=.on ∧ r.exit=.off) ∧
  m.failed=true ∧ (m.calls m.running).map (·.fn)=[.issuePioCommand 0 0x20]:=by
 refine ⟨idleOthers_plain,boot_booted waitThenRead_plain,List.replicate 90 (.step 0),?_⟩
 have ends:(exec (next (table idleOthers)) Always (boot waitThenRead)
   (List.replicate 90 (.step 0))).any (fun m=>(m.returns.any fun r=>
    r.fn=.processWait 2 ∧ r.entry=.on ∧ r.exit=.off) && (m.failed &&
    (m.calls m.running).map (·.fn)=[.issuePioCommand 0 0x20]))=true:=by
  decide +kernel
 obtain ⟨m,run,test⟩:=exec_any ends
 simp only[Bool.and_eq_true,List.any_eq_true,decide_eq_true_eq] at test
 exact ⟨m,run,test⟩

theorem levels_restored_yield:∃as m,Runs (next (table idleOthers)) Always (boot yieldOnce) as m ∧
  (∃r∈m.returns,r.fn=.threadYield ∧ r.slept=true ∧ r.entry=.on) ∧
  ∀r∈m.returns,Restoring r.fn → r.exit=r.entry:=by
 have ends:(exec (next (table idleOthers)) Always (boot yieldOnce)
   (List.replicate 49 (.step 0))).any (fun m=>(m.returns.any fun r=>
    r.fn=.threadYield ∧ r.slept=true ∧ r.entry=.on) &&
    m.returns.all fun r=>contract.keeps r.fn)=true:=by
  decide +kernel
 obtain ⟨m,run,test⟩:=exec_any ends
 simp only[Bool.and_eq_true,List.any_eq_true,List.all_eq_true,decide_eq_true_eq] at test
 refine ⟨_,m,run,test.1,?_⟩
 refine (levels_restored_iff idleOthers_plain (boot_booted yieldOnce_plain) run).2 ?_
 intro r mem tid waits
 have keeps:=test.2 r mem
 rw[waits] at keeps
 cases keeps

end Pintos.KernelCode
