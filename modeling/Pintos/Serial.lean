import Pintos.Intq

/-!
# The serial port

`serial_putc`, `serial_interrupt` and `serial_flush` run with interrupts off; the only places at
which they let another thread run are those at which `intq_putc` blocks. `ins` are the bytes that
the port returns to the `inb`s of a call, in order. A call that polls forever does not end.
-/
namespace Pintos.Serial
open ExecRuns RingBuffer Intq List Option

inductive Mode where
 | uninit
 | poll
 | queue
 deriving DecidableEq,Repr

/-- Where the one call of `serial_init_queue` is. -/
inductive Boot where
 | before
 | registered
 | done
 deriving DecidableEq,Repr

/-- `thr` is what has been written to `THR_REG`, `accepted` what `putc_poll` or `intq_putc` has
accepted from `serial_putc`. -/
structure State where
 mode:Mode
 txq:Intq.State
 input:Intq.State
 boot:Boot
 thr:List UInt8
 accepted:List UInt8
 panicked:Bool

def lsrDr:UInt8:=0x01
def lsrThre:UInt8:=0x20
def State.panic (s:State):State:={s with panicked:=true}
def initPoll (s:State):State:=
 if s.mode=.uninit then {s with txq:=intqInit s.txq,mode:=.poll} else s.panic

/-- `if (mode == UNINIT) init_poll ();` -/
def ensurePoll (s:State):State:=if s.mode=.uninit then initPoll s else s

/-- Returns the bytes of `ins` that it has not read. -/
def putcPoll (s:State)(byte:UInt8):List UInt8→Option (State×List UInt8)
 | []=>none
 | lsr::ins=>
  if lsr &&& lsrThre=0 then putcPoll s byte ins
  else some ({s with thr:=s.thr++[byte]},ins)

/-- `putc_poll (intq_getc (&txq))` with something in the queue. -/
def drainOne (s:State)(ins:List UInt8):Option (State×List UInt8):=
 putcPoll {s with txq:=finish s.txq .getc} s.txq.ring.front ins

/-- `intq_putc (&txq, byte)` by thread `t`, up to where it blocks or has accepted the byte. -/
def intqPutc (s:State)(q:Intq.State)(t:ℕ)(byte:UInt8):State:=
 {s with
   txq:=enter q t (.putc byte)
   accepted:=if intqFull q then s.accepted else s.accepted++[byte]}

/-- `on` is the interrupt level before the call. -/
def serialPutc (s:State)(t:ℕ)(byte:UInt8)(on:Bool)(ins:List UInt8):Option State:=
 if s.mode=.queue then
  if !on && intqFull s.txq then
   (drainOne s ins).map fun r=>intqPutc r.1 r.1.txq t byte
  else some (intqPutc s s.txq t byte)
 else
  (putcPoll (ensurePoll s) byte ins).map fun r=>
   {r.1 with accepted:=r.1.accepted++[byte]}

def flushLoop:ℕ→State→List UInt8→Option (State×List UInt8)
 | 0,_,_=>none
 | fuel+1,s,ins=>
  if intqEmpty s.txq then some (s,ins)
  else (drainOne s ins).bind fun r=>flushLoop fuel r.1 r.2

def serialFlush (s:State)(ins:List UInt8):Option State:=(flushLoop intqBufsize s ins).map Prod.fst

def receive (s:State):List UInt8→Option (State×List UInt8)
 | []=>if intqFull s.input then some (s,[]) else none
 | lsr::ins=>
  if intqFull s.input then some (s,lsr::ins)
  else if lsr &&& lsrDr=0 then some (s,ins)
  else match ins with
   | []=>none
   | key::ins=>receive {s with input:=finish s.input (.putc key)} ins

def transmit (s:State):List UInt8→Option (State×List UInt8)
 | []=>if intqEmpty s.txq then some (s,[]) else none
 | lsr::ins=>
  if intqEmpty s.txq then some (s,lsr::ins)
  else if lsr &&& lsrThre=0 then some (s,ins)
  else transmit {s with txq:=finish s.txq .getc,thr:=s.thr++[s.txq.ring.front]} ins

/-- The first byte is that of `IIR_REG`. -/
def serialInterrupt (s:State):List UInt8→Option State
 | []=>none
 | _::ins=>(receive s ins).bind fun r=>(transmit r.1 r.2).map Prod.fst

/-- `serial_init_queue` up to the registration of the handler, and the switch of the mode. -/
def serialInitQueue (s:State):Option State:=
 match s.boot with
 | .before=>
  some (if (ensurePoll s).mode=.poll then {ensurePoll s with boot:=.registered}
   else (ensurePoll s).panic)
 | .registered=>some {s with mode:=.queue,boot:=.done}
 | .done=>none

/-- In `input` the other users of the input buffer leave it in some state. -/
inductive Act where
 | putc (t:ℕ) (byte:UInt8) (on:Bool) (ins:List UInt8)
 | lock (t:ℕ)
 | resume (t:ℕ)
 | initQueue
 | interrupt (ins:List UInt8)
 | flush (ins:List UInt8)
 | input (buffer:Intq.State)

def act (s:State):Act→Option State
 | .putc t byte on ins=>if s.txq.task t=.idle then serialPutc s t byte on ins else none
 | .lock t=>(Intq.act s.txq (.lock t)).map fun q=>{s with txq:=q}
 | .resume t=>
  match s.txq.task t with
  | .awake (.putc byte)=>
   some (if s.txq.holder=some t then intqPutc s {s.txq with holder:=none} t byte
    else s.panic)
  | _=>none
 | .initQueue=>serialInitQueue s
 | .interrupt ins=>if s.boot=.before then none else serialInterrupt s ins
 | .flush ins=>serialFlush s ins
 | .input buffer=>some {s with input:=buffer}

def next (s:State)(a:Act):Option State:=
 if s.panicked || s.txq.panicked || s.input.panicked then none else act s a
def start (buf:Fin intqBufsize → UInt8)(input:Intq.State):State:=
 {mode:=.uninit,txq:=Intq.start buf,input:=input,boot:=.before,thr:=[],accepted:=[],panicked:=false}

variable {ins rest:List UInt8}

def State.queued (s:State):List UInt8:=s.txq.ring.contents

/-- What is written and what is queued is what has been accepted; only in the interrupt-driven
mode there is anything, or any thread, in the queue. -/
structure Inv (s:State):Prop where
 order:s.thr++s.queued=s.accepted
 polling:s.mode≠.queue → s.queued=[]
 outside:s.mode≠.queue → ∀t,s.txq.task t=.idle
 booting:s.boot≠.done → s.mode≠.queue

structure Sends (s u:State):Prop where
 mode:u.mode=s.mode
 boot:u.boot=s.boot
 accepted:u.accepted=s.accepted
 outside:∀t,s.txq.task t=.idle → u.txq.task t=.idle
 moved:∃sent,s.queued=sent++u.queued ∧ u.thr=s.thr++sent

variable {s u v:State}

lemma Sends.refl (s:State):Sends s s:=⟨rfl,rfl,rfl,fun _=>id,[],rfl,(append_nil _).symm⟩

lemma Sends.trans (h:Sends s u)(h':Sends u v):Sends s v:=by
 obtain ⟨first,queued,thr⟩:=h.moved
 obtain ⟨second,queued',thr'⟩:=h'.moved
 refine ⟨h'.mode.trans h.mode,h'.boot.trans h.boot,h'.accepted.trans h.accepted,
  fun t idle=>h'.outside t (h.outside t idle),first++second,?_,?_⟩
 · rw[queued,queued',append_assoc]
 · rw[thr',thr,append_assoc]

lemma Inv.sends (h:Inv s)(sent:Sends s u):Inv u:=by
 obtain ⟨bytes,queued,thr⟩:=sent.moved
 constructor
 · rw[thr,sent.accepted,append_assoc,←queued,h.order]
 · intro mode
   have none_queued:=h.polling (by rwa[←sent.mode])
   rw[queued] at none_queued
   exact (append_eq_nil_iff.1 none_queued).2
 · intro mode t
   exact sent.outside t (h.outside (by rwa[←sent.mode]) t)
 · rw[sent.mode,sent.boot]
   exact h.booting

lemma putcPoll_spec {byte:UInt8}(h:putcPoll s byte ins=some (u,rest)):
 u={s with thr:=s.thr++[byte]}:=by
 induction ins with
 | nil=>cases h
 | cons lsr ins ih=>
  rw[putcPoll] at h
  split_ifs at h with busy
  · exact ih h
  · exact (Prod.mk.inj (some.inj h)).1.symm

lemma sends_front (busy:intqEmpty s.txq=false):
 Sends s {s with txq:=finish s.txq .getc,thr:=s.thr++[s.txq.ring.front]}:=by
 refine ⟨rfl,rfl,rfl,fun t=>finish_idle,[s.txq.ring.front],?_,rfl⟩
 rw[State.queued,State.queued,finish_ring]
 exact contents_pop busy

lemma drainOne_sends (busy:intqEmpty s.txq=false)(h:drainOne s ins=some (u,rest)):Sends s u:=by
 rw[putcPoll_spec h]
 exact sends_front busy

lemma flushLoop_sends {fuel:ℕ}(h:flushLoop fuel s ins=some (u,rest)):Sends s u:=by
 induction fuel generalizing s ins with
 | zero=>cases h
 | succ fuel ih=>
  rw[flushLoop] at h
  split_ifs at h with empty
  · obtain ⟨rfl,-⟩:=Prod.mk.inj (some.inj h)
    exact .refl s
  · obtain ⟨⟨v,between⟩,drained,more⟩:=bind_eq_some_iff.1 h
    exact (drainOne_sends (eq_false_of_ne_true empty) drained).trans (ih more)

lemma drainOne_length (busy:intqEmpty s.txq=false)(h:drainOne s ins=some (u,rest)):
 u.txq.ring.length+1=s.txq.ring.length:=by
 have ring:u.txq.ring=s.txq.ring.pop:=by
  rw[putcPoll_spec h]
  exact finish_ring .getc
 rw[ring]
 exact pop_length busy

/-- The loop of `serial_flush` ends by itself: more fuel than the queue is long changes nothing. -/
lemma flushLoop_fuel {fuel:ℕ}(ins:List UInt8)(enough:s.txq.ring.length<fuel):
 flushLoop (fuel+1) s ins=flushLoop fuel s ins:=by
 induction fuel generalizing s ins with
 | zero=>cases enough
 | succ fuel ih=>
  rw[flushLoop,flushLoop]
  split_ifs with empty
  · rfl
  · refine bind_congr ?_
    rintro ⟨v,rest⟩ drained
    have shorter:=drainOne_length (eq_false_of_ne_true empty) drained
    have enough':v.txq.ring.length<fuel:=by omega
    exact ih rest enough'

lemma serialFlush_fuel (ins:List UInt8)(more:ℕ):
 (flushLoop (intqBufsize+more) s ins).map Prod.fst=serialFlush s ins:=by
 have bound:=length_lt s.txq.ring
 induction more with
 | zero=>rfl
 | succ more ih=>
  rw[←Nat.add_assoc,flushLoop_fuel ins (Nat.lt_of_lt_of_le bound (Nat.le_add_right _ _)),ih]

lemma receive_sends (h:receive s ins=some (u,rest)):Sends s u:=by
 fun_induction receive s ins with
 | case1 s full=>
  obtain ⟨rfl,-⟩:=Prod.mk.inj (some.inj h)
  exact .refl s
 | case2 s room=>cases h
 | case3 s lsr ins full=>
  obtain ⟨rfl,-⟩:=Prod.mk.inj (some.inj h)
  exact .refl s
 | case4 s lsr ins room nothing=>
  obtain ⟨rfl,-⟩:=Prod.mk.inj (some.inj h)
  exact .refl s
 | case5=>cases h
 | case6 s lsr room ready key ins ih=>
  have kept:Sends s {s with input:=finish s.input (.putc key)}:=
   ⟨rfl,rfl,rfl,fun _=>id,[],rfl,(append_nil _).symm⟩
  exact kept.trans (ih h)

lemma transmit_sends (h:transmit s ins=some (u,rest)):Sends s u:=by
 induction ins generalizing s with
 | nil=>
  rw[transmit] at h
  split_ifs at h
  obtain ⟨rfl,-⟩:=Prod.mk.inj (some.inj h)
  exact .refl s
 | cons lsr ins ih=>
  rw[transmit] at h
  split_ifs at h with empty full
  · obtain ⟨rfl,-⟩:=Prod.mk.inj (some.inj h)
    exact .refl s
  · obtain ⟨rfl,-⟩:=Prod.mk.inj (some.inj h)
    exact .refl s
  · exact (sends_front (eq_false_of_ne_true empty)).trans (ih h)

lemma serialInterrupt_sends (h:serialInterrupt s ins=some u):Sends s u:=by
 cases ins with
 | nil=>cases h
 | cons iir ins=>
  obtain ⟨⟨v,rest⟩,received,sent⟩:=bind_eq_some_iff.1 h
  obtain ⟨⟨w,left⟩,transmitted,rfl⟩:=map_eq_some_iff.1 sent
  exact (receive_sends received).trans (transmit_sends transmitted)

/-- `intq_putc` either blocks and changes nothing in the queue, or adds the byte at its end. -/
lemma Inv.intqPutc (h:Inv s)(mode:s.mode=.queue){q:Intq.State}
 (ring:q.ring=s.txq.ring)(t:ℕ)(byte:UInt8):Inv (intqPutc s q t byte):=by
 refine ⟨?_,fun polling=>absurd mode polling,fun polling=>absurd mode polling,h.booting⟩
 have after:=enter_ring (q:=q) t (.putc byte)
 simp only[Serial.intqPutc,State.queued,after]
 cases full:intqFull q with
 | true=>
  have lacks:q.lacks (Op.putc byte).needs=true:=full
  rw[if_pos lacks,if_pos rfl,ring]
  exact h.order
 | false=>
  have has:q.lacks (Op.putc byte).needs≠true:=by
   rw[ne_eq,Bool.not_eq_true]
   exact full
  have added:(transfer q (.putc byte)).ring.contents=q.ring.contents++[byte]:=
   contents_push full byte
  rw[if_neg has,if_neg (by decide),added,ring,←append_assoc,←h.order,State.queued]

lemma ensurePoll_inv (h:Inv s)(mode:s.mode≠.queue):
 Inv (ensurePoll s) ∧ (ensurePoll s).mode=.poll ∧ (ensurePoll s).boot=s.boot:=by
 cases at_:s.mode with
 | uninit=>
  have order:=h.order
  rw[h.polling mode] at order
  rw[ensurePoll,if_pos at_,initPoll,if_pos at_]
  exact ⟨⟨order,fun _=>rfl,fun _=>h.outside mode,fun _=>nofun⟩,rfl,rfl⟩
 | poll=>
  have ready:ensurePoll s=s:=by rw[ensurePoll,if_neg (by rw[at_];decide)]
  rw[ready]
  exact ⟨h,at_,rfl⟩
 | queue=>exact absurd at_ mode

lemma not_empty_of_full {q:Intq.State}(full:intqFull q=true):intqEmpty q=false:=by
 have none_left:q.margin .notFull=0:=(lacks_iff q .notFull).1 full
 have whole:=margin_add q .getc
 refine (lacks_eq_false q .notEmpty).2 ?_
 simp only[Op.needs,Op.signals] at whole
 omega

lemma serialPutc_inv (h:Inv s){t:ℕ}{byte:UInt8}{on:Bool}
 (step:serialPutc s t byte on ins=some u):Inv u:=by
 unfold serialPutc at step
 split_ifs at step with mode full
 · obtain ⟨⟨v,rest⟩,drained,rfl⟩:=map_eq_some_iff.1 step
   have busy:=not_empty_of_full (Bool.and_eq_true_iff.1 full).2
   have sent:=drainOne_sends busy drained
   exact (h.sends sent).intqPutc (sent.mode.trans mode) rfl t byte
 · obtain rfl:=some.inj step
   exact h.intqPutc mode rfl t byte
 · obtain ⟨⟨v,rest⟩,polled,rfl⟩:=map_eq_some_iff.1 step
   obtain ⟨inv,ready,-⟩:=ensurePoll_inv h mode
   have none_queued:(ensurePoll s).queued=[]:=inv.polling (by rw[ready];decide)
   have order:=inv.order
   rw[none_queued,append_nil] at order
   rw[putcPoll_spec polled]
   refine ⟨?_,fun _=>none_queued,inv.outside,inv.booting⟩
   change (ensurePoll s).thr++[byte]++(ensurePoll s).queued=(ensurePoll s).accepted++[byte]
   rw[none_queued,append_nil,order]

lemma serialInitQueue_inv (h:Inv s)(step:serialInitQueue s=some u):Inv u:=by
 unfold serialInitQueue at step
 cases boot:s.boot with
 | before=>
  obtain ⟨inv,ready,-⟩:=ensurePoll_inv h (h.booting (by rw[boot];decide))
  have polling:(ensurePoll s).mode≠.queue:=by rw[ready];decide
  simp only[boot] at step
  rw[if_pos ready] at step
  obtain rfl:=some.inj step
  exact ⟨inv.order,inv.polling,inv.outside,fun _=>polling⟩
 | registered=>
  simp only[boot,some.injEq] at step
  subst step
  exact ⟨h.order,fun polling=>absurd rfl polling,fun polling=>absurd rfl polling,
   fun early=>absurd rfl early⟩
 | done=>simp[boot] at step

lemma Inv.queue_of_task (h:Inv s){t:ℕ}(inside:s.txq.task t≠.idle):s.mode=.queue:=by
 by_contra polling
 exact inside (h.outside polling t)

lemma next_inv {a:Act}(h:Inv s)(step:next s a=some u):Inv u:=by
 unfold next at step
 split_ifs at step
 cases a with
 | putc t byte on ins=>
  rw[act] at step
  split_ifs at step
  exact serialPutc_inv h step
 | lock t=>
  obtain ⟨q,locked,rfl⟩:=map_eq_some_iff.1 step
  obtain ⟨ring,inside⟩:=lock_ring locked
  have mode:=h.queue_of_task inside
  refine ⟨?_,fun polling=>absurd mode polling,fun polling=>absurd mode polling,h.booting⟩
  rw[State.queued,ring]
  exact h.order
 | resume t=>
  rw[act] at step
  split at step
  · rename_i byte at_
    have mode:=h.queue_of_task (t:=t) (by rw[at_];nofun)
    obtain rfl:=some.inj step
    split_ifs
    · exact h.intqPutc (q:={s.txq with holder:=none}) mode rfl t byte
    · exact ⟨h.order,h.polling,h.outside,h.booting⟩
  · cases step
 | initQueue=>exact serialInitQueue_inv h step
 | interrupt ins=>
  rw[act] at step
  split_ifs at step
  exact h.sends (serialInterrupt_sends step)
 | flush ins=>
  obtain ⟨⟨v,rest⟩,flushed,rfl⟩:=map_eq_some_iff.1 step
  exact h.sends (flushLoop_sends flushed)
 | input buffer=>
  obtain rfl:=some.inj step
  exact ⟨h.order,h.polling,h.outside,h.booting⟩

lemma start_inv (buf:Fin intqBufsize → UInt8)(input:Intq.State):Inv (start buf input):=
 ⟨rfl,fun _=>rfl,fun _ _=>rfl,fun _=>nofun⟩

/-- No byte is lost, sent twice or sent out of order. -/
theorem serial_output_ordered {buf:Fin intqBufsize → UInt8}{input:Intq.State}
 {as:List Act}{s:State}(run:Runs next Always (start buf input) as s):
 s.thr++s.txq.ring.contents=s.accepted:=
 (run.invariant (fun _ _ _ inv _=>next_inv inv) (start_inv buf input)).order

def threeBytes:List Act:=
 [.putc 0 65 true [0,0x20],.initQueue,.initQueue,.putc 0 66 true [],.putc 0 67 false [],
  .interrupt [0,0,0x20,0]]

theorem serial_output_three:∃s,Runs next Always (start (fun _=>0) (Intq.start fun _=>0))
 threeBytes s ∧ s.thr=[65,66] ∧ s.accepted=[65,66,67] ∧
 s.thr++s.txq.ring.contents=s.accepted:=by
 have found:(exec next Always (start (fun _=>0) (Intq.start fun _=>0)) threeBytes).any
   (fun s=>decide (s.thr=[65,66] ∧ s.accepted=[65,66,67]))=true:=by
  decide +kernel
 obtain ⟨s,run,facts⟩:=exec_any found
 obtain ⟨thr,accepted⟩:=of_decide_eq_true facts
 exact ⟨s,run,thr,accepted,serial_output_ordered run⟩

end Pintos.Serial
