import Pintos.ExecRuns
import Pintos.RingBuffer

/-!
# Interrupt queues

`intq_getc` and `intq_putc` on one queue. They run with interrupts off, so a thread is interleaved
with the others and with interrupt handlers only where it blocks: on the lock of the queue, or in
`wait`.
-/
namespace Pintos.Intq
open ExecRuns RingBuffer Function Option

inductive Slot where
 | notFull
 | notEmpty
 deriving DecidableEq,Repr

inductive Op where
 | getc
 | putc (byte:UInt8)
 deriving DecidableEq,Repr

def Op.needs:Op→Slot
 | .getc=>.notEmpty
 | .putc _=>.notFull
def Op.signals:Op→Slot
 | .getc=>.notFull
 | .putc _=>.notEmpty

/-- Where a thread is: not in the queue, in `lock_acquire`, blocked in `wait`, or unblocked again
and about to return from it. -/
inductive Task where
 | idle
 | locking (op:Op)
 | asleep (op:Op)
 | awake (op:Op)
 deriving DecidableEq,Repr

def intqBufsize:ℕ:=64
lemma intqBufsize_pos:0 < intqBufsize:=by decide

@[ext] structure State where
 holder:Option ℕ
 waiter:Slot→Option ℕ
 ring:Ring UInt8 intqBufsize
 task:ℕ→Task
 panicked:Bool

section
variable (q:State)

def intqInit:State:=
 {q with
   holder:=none
   waiter:=fun _=>none
   ring:={q.ring with head:=⟨0,by decide⟩,tail:=⟨0,by decide⟩}}

def intqEmpty:Bool:=q.ring.isEmpty
def intqFull:Bool:=q.ring.isFull
def State.put (t:ℕ)(task:Task):State:={q with task:=update q.task t task}
def State.panic:State:={q with panicked:=true}
def State.lacks:Slot→Bool
 | .notFull=>intqFull q
 | .notEmpty=>intqEmpty q
def threadUnblock (t:ℕ):State:=
 match q.task t with
 | .asleep op=>q.put t (.awake op)
 | _=>q.panic

def signal (c:Slot):State:=
 if q.lacks c then q.panic
 else match q.waiter c with
  | none=>q
  | some t=>{threadUnblock q t with waiter:=update q.waiter c none}

/-- Up to where the thread blocks. -/
def wait (t:ℕ)(op:Op):State:=
 if q.lacks op.needs then
  {q.put t (.asleep op) with waiter:=update q.waiter op.needs (some t)}
 else q.panic

def transfer:Op→State
 | .getc=>{q with ring:=q.ring.pop}
 | .putc byte=>{q with ring:=q.ring.push byte}
def finish (op:Op):State:=signal (transfer q op) op.signals

/-- Thread `t` at the test of the loop, up to where it blocks or returns. -/
def enter (t:ℕ)(op:Op):State:=
 if q.lacks op.needs then
  if q.holder=none then wait {q with holder:=some t} t op else q.put t (.locking op)
 else finish (q.put t .idle) op

end

/-- An interrupt handler calls the queue only after it has checked it. -/
inductive Act where
 | call (t:ℕ) (op:Op)
 | lock (t:ℕ)
 | resume (t:ℕ)
 | interrupt (op:Op)
 deriving DecidableEq,Repr

section
variable (q:State)

def act:Act→Option State
 | .call t op=>if q.task t=.idle then some (enter q t op) else none
 | .lock t=>
  match q.task t with
  | .locking op=>if q.holder=none then some (wait {q with holder:=some t} t op) else none
  | _=>none
 | .resume t=>
  match q.task t with
  | .awake op=>
   some (if q.holder=some t then enter {q with holder:=none} t op else q.panic)
  | _=>none
 | .interrupt op=>if q.lacks op.needs then none else some (finish q op)

def next (a:Act):Option State:=if q.panicked then none else act q a

end

def start (buf:Fin intqBufsize → UInt8):State:=
 {holder:=none,waiter:=fun _=>none,
  ring:=⟨buf,⟨0,by decide⟩,⟨0,by decide⟩⟩,task:=fun _=>.idle,panicked:=false}

section

/-- How many operations that need the condition of a slot can be done in a row. -/
def State.margin (q:State):Slot→ℕ
 | .notEmpty=>q.ring.length
 | .notFull=>63-q.ring.length

variable (q:State)

lemma lacks_iff (c:Slot):q.lacks c=true ↔ q.margin c=0:=by
 have bound:q.ring.length<64:=length_lt q.ring
 cases c with
 | notFull=>
  have full:q.ring.isFull=true ↔ q.ring.length+1=64:=isFull_iff q.ring
  simp only[State.lacks,intqFull,State.margin,full]
  omega
 | notEmpty=>exact isEmpty_iff q.ring

lemma lacks_eq_false (c:Slot):q.lacks c=false ↔ 0<q.margin c:=by
 rw[←Bool.not_eq_true,lacks_iff]
 omega
lemma margin_add (op:Op):q.margin op.needs+q.margin op.signals=63:=by
 have bound:q.ring.length<64:=length_lt q.ring
 cases op<;>simp only[Op.needs,Op.signals,State.margin]<;>omega

variable {q}

lemma transfer_margin {op:Op}(can:q.lacks op.needs=false):
 (transfer q op).margin op.needs+1=q.margin op.needs:=by
 cases op with
 | getc=>exact pop_length can
 | putc byte=>
  have room:=(lacks_eq_false q _).1 can
  have grown:(q.ring.push byte).length=q.ring.length+1:=push_length can byte
  simp only[transfer,Op.needs,State.margin] at room ⊢
  omega

end

section
variable {c:Slot}{op:Op}{t:ℕ}

def Task.inWait:Task→Bool
 | .asleep _ | .awake _=>true
 | _=>false
def Task.wake:Task→Task
 | .asleep op=>.awake op
 | task=>task

/-- Who is in `wait` holds the lock; who sleeps there is in the slot of its condition, and the
condition is false. -/
structure Inv (q:State):Prop where
 holds:∀t,(q.task t).inWait=true ↔ q.holder=some t
 registered:∀c t,q.waiter c=some t ↔ ∃op,q.task t=.asleep op ∧ op.needs=c
 lacking:∀t op,q.task t=.asleep op → q.lacks op.needs=true

variable {q u:State}

lemma start_inv (buf:Fin intqBufsize → UInt8):Inv (start buf):=by
 constructor<;>simp[start,Task.inWait]
lemma needs_eq_or (op:Op):c=op.needs ∨ c=op.signals:=by
 cases op<;>cases c<;>simp[Op.needs,Op.signals]
lemma needs_ne_signals (op:Op):op.needs≠op.signals:=by
 cases op<;>simp[Op.needs,Op.signals]

lemma Inv.waiter_needs (h:Inv q)(can:q.lacks op.needs=false):q.waiter op.needs=none:=by
 by_contra some
 obtain ⟨t,ht⟩:=ne_none_iff_exists'.1 some
 obtain ⟨other,sleeps,same⟩:=(h.registered _ t).1 ht
 have lacks:=h.lacking t other sleeps
 rw[same,can] at lacks
 cases lacks

lemma Inv.asleep_signalled (h:Inv q){other:Op}(can:q.lacks op.needs=false)
 (sleeps:q.task t=.asleep other):q.waiter op.signals=some t:=by
 have slot:q.waiter other.needs=some t:=(h.registered _ t).2 ⟨other,sleeps,rfl⟩
 obtain same|same:=needs_eq_or (c:=other.needs) op
 · rw[same,h.waiter_needs can] at slot
   cases slot
 · rwa[same] at slot

lemma transfer_task (op:Op):(transfer q op).task=q.task:=by
 cases op<;>rfl
lemma transfer_waiter (op:Op):(transfer q op).waiter=q.waiter:=by
 cases op<;>rfl

lemma transfer_signals (can:q.lacks op.needs=false):(transfer q op).lacks op.signals=false:=by
 rw[lacks_eq_false]
 have before:=margin_add q op
 have after:=margin_add (transfer q op) op
 have moved:=transfer_margin can
 omega

lemma signal_none (done:q.lacks c=false)(slot:q.waiter c=none):signal q c=q:=by
 simp[signal,done,slot]
lemma signal_some (done:q.lacks c=false)(slot:q.waiter c=some t)(sleeps:q.task t=.asleep op):
 signal q c={q.put t (.awake op) with waiter:=update q.waiter c none}:=by
 simp[signal,done,slot,threadUnblock,sleeps]

lemma Inv.wake_eq (h:Inv q)(can:q.lacks op.needs=false)
 (other:q.waiter op.signals≠some t):(q.task t).wake=q.task t:=by
 cases at_:q.task t with
 | asleep sleeper=>exact absurd (h.asleep_signalled can at_) other
 | idle | locking | awake=>rfl

lemma finish_eq (h:Inv q)(can:q.lacks op.needs=false):
 finish q op={transfer q op with
  waiter:=fun _=>none,task:=fun t=>(q.task t).wake}:=by
 have done:=transfer_signals can
 have task:=transfer_task (q:=q) op
 have waiter:=transfer_waiter (q:=q) op
 have cleared:update q.waiter op.signals none=fun _=>none:=by
  funext c
  obtain rfl|rfl:=needs_eq_or (c:=c) op
  · rw[update_of_ne (needs_ne_signals op),h.waiter_needs can]
  · rw[update_self]
 cases slot:q.waiter op.signals with
 | none=>
  have woken:q.task=fun t=>(q.task t).wake:=by
   funext t
   exact (h.wake_eq can (by simp[slot])).symm
  have none_left:q.waiter=fun _=>none:=by
   rw[←cleared,←slot,update_eq_self]
  rw[finish,signal_none done (by rw[waiter,slot])]
  exact State.ext rfl (waiter.trans none_left) rfl (task.trans woken) rfl
 | some r=>
  obtain ⟨other,sleeps,-⟩:=(h.registered _ r).1 slot
  have woken:update q.task r (.awake other)=fun t=>(q.task t).wake:=by
   funext t
   by_cases same:t=r
   · subst same
     rw[update_self,sleeps,Task.wake]
   · rw[update_of_ne same,h.wake_eq can (by simpa[slot] using Ne.symm same)]
  rw[finish,signal_some done (by rw[waiter,slot]) (by rw[task,sleeps]),State.put,task,waiter]
  exact State.ext rfl cleared rfl woken rfl

lemma wake_inWait (task:Task):task.wake.inWait=task.inWait:=by
 cases task<;>rfl
lemma wake_ne_asleep (task:Task)(op:Op):task.wake≠.asleep op:=by
 cases task<;>simp[Task.wake]
lemma transfer_holder (op:Op):(transfer q op).holder=q.holder:=by
 cases op<;>rfl
lemma transfer_panicked (op:Op):(transfer q op).panicked=q.panicked:=by
 cases op<;>rfl

lemma finish_inv (h:Inv q)(can:q.lacks op.needs=false):Inv (finish q op):=by
 rw[finish_eq h can]
 constructor
 · intro t
   simpa only[wake_inWait,transfer_holder] using h.holds t
 · simp[wake_ne_asleep]
 · intro t other sleeps
   exact absurd sleeps (wake_ne_asleep _ _)

lemma wait_panics (has:q.lacks op.needs=false)(t:ℕ):
 (wait {q with holder:=some t} t op).panicked=true:=by
 have unblocked:State.lacks {q with holder:=some t} op.needs≠true:=by
  rw[ne_eq,Bool.not_eq_true]
  exact has
 rw[wait,if_neg unblocked,State.panic]

lemma Inv.not_asleep (h:Inv q)(free:q.holder=none)(t:ℕ)(op:Op):q.task t≠.asleep op:=by
 intro sleeps
 have held:=(h.holds t).1 (by rw[sleeps,Task.inWait])
 rw[free] at held
 cases held

lemma wait_inv (h:Inv (q.put t .idle))(free:q.holder=none)
 (lacks:q.lacks op.needs=true):Inv (wait {q with holder:=some t} t op):=by
 have blocked:State.lacks {q with holder:=some t} op.needs=true:=lacks
 rw[wait,if_pos blocked]
 have outside:∀t',t'≠t → (q.task t').inWait=false:=by
  intro t' other
  simpa[State.put,other,free] using h.holds t'
 have up:∀t',t'≠t → ∀other,q.task t'≠.asleep other:=by
  intro t' other op' sleeps
  have inside:=outside t' other
  rw[sleeps,Task.inWait] at inside
  cases inside
 have unregistered:∀c t',q.waiter c≠some t':=by
  intro c t' slot
  obtain ⟨other,sleeps,-⟩:=(h.registered c t').1 slot
  exact h.not_asleep free t' other sleeps
 constructor
 · intro t'
   by_cases same:t'=t
   · subst same
     simp[State.put,Task.inWait]
   · simp[State.put,same,outside t' same,Ne.symm same]
 · intro c t'
   by_cases same:t'=t
   · subst same
     by_cases slot:c=op.needs
     · simp[State.put,slot]
     · simp[State.put,slot,Ne.symm slot,unregistered]
   · by_cases slot:c=op.needs
     · simp[State.put,slot,same,up t' same,Ne.symm same]
     · simp[State.put,slot,same,up t' same,unregistered]
 · intro t' other sleeps
   by_cases same:t'=t
   · subst same
     obtain rfl:op=other:=by simpa[State.put] using sleeps
     exact lacks
   · exact absurd (by simpa[State.put,same] using sleeps) (up t' same other)

lemma not_asleep_of_outside {task:Task}(outside:task.inWait=false)(op:Op):task≠.asleep op:=by
 rintro rfl
 cases outside

lemma Inv.relabel {before after:Task}(h:Inv (q.put t before))(out:before.inWait=false)
 (out':after.inWait=false):Inv (q.put t after):=by
 constructor
 · intro t'
   have holds:=h.holds t'
   by_cases same:t'=t
   · subst same
     simpa[State.put,out,out'] using holds
   · simpa[State.put,same] using holds
 · intro c t'
   have registered:=h.registered c t'
   by_cases same:t'=t
   · subst same
     simpa[State.put,not_asleep_of_outside out,not_asleep_of_outside out'] using registered
   · simpa[State.put,same] using registered
 · intro t' other sleeps
   by_cases same:t'=t
   · subst same
     exact absurd (by simpa[State.put] using sleeps) (not_asleep_of_outside out' other)
   · exact h.lacking t' other (by simpa[State.put,same] using sleeps)

lemma Inv.idle (h:Inv q)(outside:(q.task t).inWait=false):Inv (q.put t .idle):=by
 have self:q.put t (q.task t)=q:=by rw[State.put,update_eq_self]
 rw[←self] at h
 exact h.relabel outside rfl
def State.leave (q:State)(t:ℕ):State:=State.put {q with holder:=none} t .idle

lemma Inv.release (h:Inv q)(at_:q.task t=.awake op):Inv (q.leave t):=by
 have held:q.holder=some t:=(h.holds t).1 (by rw[at_];rfl)
 constructor
 · intro t'
   by_cases same:t'=t
   · subst same
     simp[State.leave,State.put,Task.inWait]
   · have outside:(q.task t').inWait≠true:=by
      rw[ne_eq,h.holds t',held]
      exact fun eq=>same (some.inj eq).symm
     simpa[State.leave,State.put,same] using outside
 · intro c t'
   by_cases same:t'=t
   · subst same
     simp[State.leave,State.put,h.registered,at_]
   · simp[State.leave,State.put,h.registered,same]
 · intro t' other sleeps
   by_cases same:t'=t
   · subst same
     simp[State.leave,State.put] at sleeps
   · exact h.lacking t' other (by simpa[State.leave,State.put,same] using sleeps)

lemma enter_inv (h:Inv (q.put t .idle)):Inv (enter q t op):=by
 unfold enter
 split_ifs with lacks free
 · exact wait_inv h free lacks
 · exact h.relabel rfl rfl
 · exact finish_inv h (eq_false_of_ne_true lacks)

lemma next_cases {a:Act}(h:Inv q)(step:next q a=some u):
 (∃t op,a=.call t op ∧ q.task t=.idle ∧ u=enter q t op) ∨
 (∃t op,a=.lock t ∧ q.task t=.locking op ∧ q.holder=none ∧ u=wait {q with holder:=some t} t op) ∨
 (∃t op,a=.resume t ∧ q.task t=.awake op ∧ u=enter {q with holder:=none} t op) ∨
 ∃op,a=.interrupt op ∧ q.lacks op.needs=false ∧ u=finish q op:=by
 unfold next at step
 split_ifs at step
 cases a with
 | call t op=>
  rw[act] at step
  split_ifs at step with idle
  exact .inl ⟨t,op,rfl,idle,(some.inj step).symm⟩
 | lock t=>
  rw[act] at step
  cases at_:q.task t with
  | locking op=>
   simp only[at_] at step
   split_ifs at step with free
   exact .inr (.inl ⟨t,op,rfl,at_,free,(some.inj step).symm⟩)
  | idle | asleep | awake=>simp[at_] at step
 | resume t=>
  rw[act] at step
  cases at_:q.task t with
  | awake op=>
   have held:q.holder=some t:=(h.holds t).1 (by rw[at_];rfl)
   simp only[at_,if_pos held] at step
   exact .inr (.inr (.inl ⟨t,op,rfl,at_,(some.inj step).symm⟩))
  | idle | asleep | locking=>simp[at_] at step
 | interrupt op=>
  rw[act] at step
  split_ifs at step with lacks
  exact .inr (.inr (.inr ⟨op,rfl,eq_false_of_ne_true lacks,(some.inj step).symm⟩))

lemma signal_ring (c:Slot):(signal q c).ring=q.ring:=by
 unfold signal threadUnblock
 split_ifs
 · rfl
 · split
   · rfl
   · split<;>rfl

lemma finish_ring (op:Op):(finish q op).ring=(transfer q op).ring:=signal_ring _

lemma lock_ring (step:act q (.lock t)=some u):u.ring=q.ring ∧ q.task t≠.idle:=by
 rw[act] at step
 cases at_:q.task t with
 | locking op=>
  simp only[at_] at step
  split_ifs at step
  obtain rfl:=some.inj step
  refine ⟨?_,nofun⟩
  unfold wait
  split_ifs<;>rfl
 | idle | asleep | awake=>simp[at_] at step

lemma finish_idle (idle:q.task t=.idle):(finish q op).task t=.idle:=by
 have before:(transfer q op).task t=.idle:=by rw[transfer_task,idle]
 unfold finish signal threadUnblock
 split_ifs
 · exact before
 · split
   · exact before
   · rename_i r _
     cases sleeps:(transfer q op).task r with
     | asleep other=>
      have apart:t≠r:=by
       rintro rfl
       rw[before] at sleeps
       cases sleeps
      simpa[State.put,apart] using before
     | idle | locking | awake=>exact before

lemma enter_ring (t:ℕ)(op:Op):
 (enter q t op).ring=if q.lacks op.needs then q.ring else (transfer q op).ring:=by
 unfold enter wait
 split_ifs
 · rfl
 · rfl
 · rfl
 · rw[finish_ring]
   cases op<;>rfl

lemma next_inv {a:Act}(h:Inv q)(step:next q a=some u):u.panicked=true ∨ Inv u:=by
 obtain ⟨t,op,-,idle,rfl⟩|⟨t,op,-,at_,free,rfl⟩|⟨t,op,-,at_,rfl⟩ |
  ⟨op,-,can,rfl⟩:=next_cases h step
 · exact .inr (enter_inv (h.idle (by rw[idle];rfl)))
 · cases lacks:q.lacks op.needs with
   | false=>exact .inl (wait_panics lacks t)
   | true=>exact .inr (wait_inv (h.idle (by rw[at_];rfl)) free lacks)
 · exact .inr (enter_inv (h.release at_))
 · exact .inr (finish_inv h can)

lemma finish_panicked (h:Inv q)(can:q.lacks op.needs=false):(finish q op).panicked=q.panicked:=by
 rw[finish_eq h can]
 exact transfer_panicked op

lemma enter_panicked (h:Inv (q.put t .idle)):(enter q t op).panicked=q.panicked:=by
 unfold enter
 split_ifs with lacks free
 · have blocked:State.lacks {q with holder:=some t} op.needs=true:=lacks
   rw[wait,if_pos blocked,State.put]
 · rfl
 · exact finish_panicked h (eq_false_of_ne_true lacks)

end

def Uncontended (q:State):Act→Prop
 | .call _ op=>q.lacks op.needs=true → q.holder=none
 | _=>True
instance (q:State)(a:Act):Decidable (Uncontended q a):=
 match a with
 | .call _ _=>inferInstanceAs (Decidable (_=true → _=none))
 | .lock _ | .resume _ | .interrupt _=>.isTrue trivial

/-- No assertion has failed, a thread that sleeps in `wait` is in its slot, and the condition it
waits for is false. -/
structure Sound (q:State):Prop where
 asserts:q.panicked=false
 kept:∀t op,q.task t=.asleep op → q.waiter op.needs=some t
 lacking:∀t op,q.task t=.asleep op → q.lacks op.needs=true

structure Calm (q:State):Prop where
 inv:Inv q
 alive:q.panicked=false
 quiet:∀t op,q.task t≠.locking op

section
variable {q u:State}{op:Op}{t r:ℕ}

lemma Calm.sound (h:Calm q):Sound q:=
 ⟨h.alive,fun t op sleeps=>(h.inv.registered _ t).2 ⟨op,sleeps,rfl⟩,h.inv.lacking⟩

lemma finish_quiet (h:Inv q)(can:q.lacks op.needs=false)
 (quiet:∀t other,q.task t≠.locking other)(t:ℕ)(other:Op):
 (finish q op).task t≠.locking other:=by
 rw[finish_eq h can]
 cases at_:q.task t with
 | locking waiting=>exact absurd at_ (quiet t waiting)
 | idle | asleep | awake=>simp[at_,Task.wake]

lemma enter_calm (inv:Inv (q.put t .idle))(alive:q.panicked=false)
 (quiet:∀t other,q.task t≠.locking other)
 (free:q.lacks op.needs=true → q.holder=none):Calm (enter q t op):=by
 refine ⟨enter_inv inv,(enter_panicked inv).trans alive,?_⟩
 have elsewhere:∀task,(∀other,task≠.locking other) →
   ∀t' other,(q.put t task).task t'≠.locking other:=by
  intro task out t' other
  by_cases same:t'=t
  · subst same
    simpa[State.put] using out other
  · simpa[State.put,same] using quiet t' other
 by_cases lacks:q.lacks op.needs=true
 · have blocked:State.lacks {q with holder:=some t} op.needs=true:=lacks
   rw[enter,if_pos lacks,if_pos (free lacks),wait,if_pos blocked]
   exact elsewhere (.asleep op) nofun
 · rw[enter,if_neg lacks]
   exact finish_quiet inv (eq_false_of_ne_true lacks) (elsewhere .idle nofun)

lemma next_calm {a:Act}(h:Calm q)(free:Uncontended q a)(step:next q a=some u):Calm u:=by
 obtain ⟨t,op,rfl,idle,rfl⟩|⟨t,op,-,at_,-,-⟩|⟨t,op,-,at_,rfl⟩ |
  ⟨op,-,can,rfl⟩:=next_cases h.inv step
 · exact enter_calm (h.inv.idle (by rw[idle];rfl)) h.alive h.quiet free
 · exact absurd at_ (h.quiet t op)
 · exact enter_calm (h.inv.release at_) h.alive h.quiet (fun _=>rfl)
 · exact ⟨finish_inv h.inv can,(finish_panicked h.inv can).trans h.alive,
    finish_quiet h.inv can h.quiet⟩

structure Contended (q:State)(t r:ℕ)(op:Op):Prop where
 inv:Inv q
 alive:q.panicked=false
 waits:q.task t=.locking op
 held:q.holder=some r

lemma Contended.after_finish {other:Op}(h:Contended q t r op)
 (can:q.lacks other.needs=false):Contended (finish q other) t r op:=by
 refine ⟨finish_inv h.inv can,(finish_panicked h.inv can).trans h.alive,?_,?_⟩
 · rw[finish_eq h.inv can]
   simp[h.waits,Task.wake]
 · rw[finish_eq h.inv can]
   exact (transfer_holder other).trans h.held

lemma finish_margin (h:Inv q)(can:q.lacks op.needs=false):
 (finish q op).margin op.needs+1=q.margin op.needs:=by
 rw[finish_eq h can,←transfer_margin can]
 cases op<;>rfl
def Op.opposite:Op→Op
 | .getc=>.putc 0
 | .putc _=>.getc
lemma opposite_needs (op:Op):op.opposite.needs=op.signals:=by
 cases op<;>rfl

/-- A holder that can go on does so, and its operation leaves one place more or less for the
thread behind it. -/
lemma Contended.resume (h:Contended q t r op)(enough:2≤q.margin op.needs)
 (others:0<q.margin op.signals):
 ∃u,next q (.resume r)=some u ∧ u.panicked=false ∧ u.task t=.locking op ∧
  u.holder=none ∧ 0<u.margin op.needs:=by
 obtain ⟨other,at_⟩:∃other,q.task r=.awake other:=by
  have inside:(q.task r).inWait=true:=(h.inv.holds r).2 h.held
  cases at_:q.task r with
  | awake other=>exact ⟨other,rfl⟩
  | asleep other=>
   have lacks:=(lacks_iff q _).1 (h.inv.lacking r other at_)
   obtain same|same:=needs_eq_or (c:=other.needs) op<;>rw[same] at lacks<;>omega
  | idle | locking=>simp[at_,Task.inWait] at inside
 have apart:t≠r:=by
  rintro rfl
  simp[h.waits] at at_
 have released:=h.inv.release at_
 have can:State.lacks (q.leave r) other.needs=false:=by
  rw[lacks_eq_false]
  change 0<q.margin other.needs
  obtain same|same:=needs_eq_or (c:=other.needs) op<;>rw[same]<;>omega
 have goes:enter {q with holder:=none} r other=finish (q.leave r) other:=by
  have open_:State.lacks {q with holder:=none} other.needs≠true:=by
   rw[ne_eq,Bool.not_eq_true]
   exact can
  rw[enter,if_neg open_,State.leave]
 have margin:(finish (q.leave r) other).margin other.needs+1=
   q.margin other.needs:=finish_margin released can
 refine ⟨finish (q.leave r) other,?_,?_,?_,?_,?_⟩
 · rw[next,h.alive,←goes]
   simp[act,at_,h.held]
 · exact (finish_panicked released can).trans h.alive
 · rw[finish_eq released can]
   simp[State.leave,State.put,apart,h.waits,Task.wake]
 · rw[finish_eq released can]
   exact transfer_holder other
 · have before:=margin_add q op
   have after:=margin_add (finish (q.leave r) other) op
   obtain same|same:=needs_eq_or (c:=other.needs) op<;>rw[same] at margin<;>omega

lemma interrupt_step (alive:q.panicked=false)(can:q.lacks op.needs=false):
 next q (.interrupt op)=some (finish q op):=by
 simp[next,act,alive,can]

/-- Interrupts that bring something for two let the holder go on, and the thread behind it then
fails the assertion in `wait`. -/
lemma Contended.fails (h:Contended q t r op)(lacks:q.lacks op.needs=true):
 ∃bs v,Runs next Uncontended q bs v ∧ v.panicked=true:=by
 have empty:=(lacks_iff q _).1 lacks
 have whole:=margin_add q op
 have can:q.lacks op.opposite.needs=false:=by
  rw[lacks_eq_false,opposite_needs]
  omega
 have first:=h.after_finish can
 have margin:=finish_margin h.inv can
 rw[opposite_needs] at margin
 have can₁:(finish q op.opposite).lacks op.opposite.needs=false:=by
  rw[lacks_eq_false,opposite_needs]
  omega
 have second:=first.after_finish can₁
 have margin₁:=finish_margin first.inv can₁
 have whole₂:=margin_add (finish (finish q op.opposite) op.opposite) op
 rw[opposite_needs] at margin₁
 obtain ⟨u,step,alive,waits,free,has⟩:=second.resume (by omega) (by omega)
 have last:next u (.lock t)=some (wait {u with holder:=some t} t op):=by
  simp[next,act,alive,waits,free]
 refine ⟨[.interrupt op.opposite,.interrupt op.opposite,.resume r,.lock t],_,?_,
  wait_panics ((lacks_eq_false u _).2 has) t⟩
 exact .cons trivial (interrupt_step h.alive can) (.cons trivial (interrupt_step first.alive can₁)
  (.cons trivial step (.cons trivial last (.nil _))))

end

lemma start_calm (buf:Fin intqBufsize → UInt8):Calm (start buf):=⟨start_inv buf,rfl,fun _ _=>nofun⟩

/-- The queue is sound as long as no thread has to wait while another one holds the lock; once one
does, two bytes more or less make an assertion fail. -/
theorem waiters_sound_iff {buf:Fin intqBufsize → UInt8}{as:List Act}{q:State}
 (run:Runs next Uncontended (start buf) as q):
 Sound q ∧ ∀a u,next q a=some u →
  ((∀bs v,Runs next Uncontended u bs v → Sound v) ↔ Uncontended q a):=by
 have calm:Calm q:=run.invariant (fun _ _ _=>next_calm) (start_calm buf)
 refine ⟨calm.sound,?_⟩
 intro a u step
 constructor
 · intro sound
   obtain ⟨t,op,rfl,idle,rfl⟩|⟨t,op,rfl,-⟩|⟨t,op,rfl,-⟩|⟨op,rfl,-⟩:=next_cases calm.inv step
   · intro lacks
     by_contra held
     obtain ⟨r,hr⟩:=ne_none_iff_exists'.1 held
     have behind:enter q t op=q.put t (.locking op):=by
      rw[enter,if_pos lacks,if_neg held]
     have contended:Contended (enter q t op) t r op:=by
      refine ⟨enter_inv (calm.inv.idle (by rw[idle];rfl)),?_,?_,?_⟩<;>rw[behind]
      · exact calm.alive
      · simp[State.put]
      · exact hr
     obtain ⟨bs,v,more,panicked⟩:=contended.fails (by rw[behind];exact lacks)
     have asserts:=(sound bs v more).asserts
     rw[panicked] at asserts
     cases asserts
   · trivial
   · trivial
   · trivial
 · intro free bs v more
   have after:=next_calm calm free step
   exact (more.invariant (fun _ _ _=>next_calm) after).sound

def oneReader:List Act:=[.call 0 .getc,.interrupt (.putc 7),.resume 0]

theorem waiters_sound_reader:∃q,Runs next Uncontended (start fun _=>0) oneReader q ∧
 q.task 0=.idle ∧ Sound q ∧ ∀a u,next q a=some u →
  ((∀bs v,Runs next Uncontended u bs v → Sound v) ↔ Uncontended q a):=by
 have found:(exec next Uncontended (start fun _=>0) oneReader).any
   (fun q=>decide (q.task 0=.idle))=true:=by
  decide +kernel
 obtain ⟨q,run,idle⟩:=exec_any found
 exact ⟨q,run,of_decide_eq_true idle,waiters_sound_iff run⟩

/-- Two readers, the second of them behind the lock, and two keys: the first reader takes one, and
the second finds the other where `wait` asserts that there is none. -/
def twoReaders:List Act:=
 [.call 0 .getc,.call 1 .getc,.interrupt (.putc 7),.interrupt (.putc 8),.resume 0,.lock 1]

theorem wait_assertion_fails:∃q,Runs next Always (start fun _=>0) twoReaders q ∧ ¬Sound q:=by
 have found:(exec next Always (start fun _=>0) twoReaders).any (fun q=>q.panicked)=true:=by
  decide +kernel
 obtain ⟨q,run,panicked⟩:=exec_any found
 refine ⟨q,run,fun sound=>?_⟩
 have asserts:=sound.asserts
 rw[panicked] at asserts
 cases asserts

/-- Under contention, too, no sleeper is lost up to the first failed assertion. -/
theorem sleepers_kept {buf:Fin intqBufsize → UInt8}{as:List Act}{q:State}
 (run:Runs next Always (start buf) as q):q.panicked=true ∨ Inv q:=by
 have keep:∀s a u,s.panicked=true ∨ Inv s → Always s a → next s a=some u → u.panicked=true ∨ Inv u:=by
  intro s a u before _ step
  rcases before with panicked|inv
  · simp[next,panicked] at step
  · exact next_inv inv step
 exact run.invariant keep (.inr (start_inv buf))

theorem sleepers_kept_behind:∃q,Runs next Always (start fun _=>0) (twoReaders.take 2) q ∧
 (q.task 0=.asleep .getc ∧ q.task 1=.locking .getc) ∧ Inv q:=by
 have found:(exec next Always (start fun _=>0) (twoReaders.take 2)).any (fun q=>
   q.panicked=false ∧ q.task 0=.asleep .getc ∧ q.task 1=.locking .getc)=true:=by
  decide +kernel
 obtain ⟨q,run,facts⟩:=exec_any found
 obtain ⟨calm,tasks⟩:=of_decide_eq_true facts
 exact ⟨q,run,tasks,(sleepers_kept run).resolve_left (by simp[calm])⟩

variable (q:State)

/-- A call by a thread or by an interrupt handler. -/
def call (op:Op):Option ℕ→State
 | some t=>enter q t op
 | none=>finish q op

def Op.returned:Op→List UInt8
 | .getc=>[q.ring.front]
 | .putc _=>[]
def Op.given:Op→List UInt8
 | .getc=>[]
 | .putc byte=>[byte]

/-- Calls in a row, none of which finds the queue empty or full: the bytes that `intq_getc` has
returned, and the queue behind them. -/
def callAll:State→List (Op×Option ℕ)→Option (List UInt8×State)
 | q,[]=>some ([],q)
 | q,(op,caller)::calls=>
  if q.lacks op.needs then none
  else (callAll (call q op caller) calls).map fun r=>(op.returned q++r.1,r.2)

variable {q}

lemma call_spec {op:Op}(can:q.lacks op.needs=false)(none_:q.waiter=fun _=>none)(caller:Option ℕ):
 (call q op caller).ring=(transfer q op).ring ∧ (call q op caller).waiter=(fun _=>none) ∧
  (call q op caller).panicked=q.panicked:=by
 have done (u:State) (can:u.lacks op.needs=false) (none_:u.waiter=fun _=>none):
   finish u op=transfer u op:=by
  exact signal_none (transfer_signals can) (by rw[transfer_waiter,none_])
 cases caller with
 | none=>
  rw[call,done q can none_,transfer_waiter]
  exact ⟨rfl,none_,transfer_panicked op⟩
 | some t=>
  rw[call,enter,if_neg (by rw[can];decide),done (q.put t .idle) can none_,transfer_waiter]
  exact ⟨by cases op<;>rfl,none_,transfer_panicked op⟩

lemma transfer_contents {op:Op}(can:q.lacks op.needs=false):
 q.ring.contents++op.given=op.returned q++(transfer q op).ring.contents:=by
 cases op with
 | getc=>
  rw[Op.given,List.append_nil]
  exact contents_pop can
 | putc byte=>exact (contents_push can byte).symm

lemma callAll_spec {calls:List (Op×Option ℕ)}{out:List UInt8}{u:State}
 (none_:q.waiter=fun _=>none)(run:callAll q calls=some (out,u)):
 q.ring.contents++calls.flatMap (·.1.given)=out++u.ring.contents ∧ u.panicked=q.panicked:=by
 induction calls generalizing q out with
 | nil=>
  obtain ⟨rfl,rfl⟩:=Prod.mk.inj (some.inj run)
  exact ⟨List.append_nil _,rfl⟩
 | cons c calls ih=>
  obtain ⟨op,caller⟩:=c
  rw[callAll] at run
  split_ifs at run with lacks
  have can:=eq_false_of_ne_true lacks
  obtain ⟨⟨rest,v⟩,more,same⟩:=map_eq_some_iff.1 run
  obtain ⟨rfl,rfl⟩:=Prod.mk.inj same
  obtain ⟨ring,still,panicked⟩:=call_spec can none_ caller
  obtain ⟨bytes,panicked'⟩:=ih still more
  refine ⟨?_,panicked'.trans panicked⟩
  rw[List.flatMap_cons,←List.append_assoc,transfer_contents can,←ring,List.append_assoc,bytes,
   List.append_assoc]

lemma contents_length:q.ring.contents.length=q.ring.length:=by
 simp[Ring.contents]

/-- After `intq_init` the queue gives back what was put into it, in order. -/
theorem intq_fifo {q u:State}{calls:List (Op×Option ℕ)}{out:List UInt8}
 (run:callAll (intqInit q) calls=some (out,u)):
 u.ring.head.val < intqBufsize ∧ u.ring.tail.val < intqBufsize ∧ u.panicked=q.panicked ∧
 calls.flatMap (·.1.given)=out++u.ring.contents ∧
 (intqEmpty u=true ↔ out=calls.flatMap (·.1.given)) ∧
 (intqFull u=true ↔ (calls.flatMap (·.1.given)).length=out.length+(intqBufsize-1)):=by
 have start:(intqInit q).ring.contents=[]:=rfl
 obtain ⟨bytes,panicked⟩:=callAll_spec rfl run
 rw[start,List.nil_append] at bytes
 refine ⟨u.ring.head.isLt,u.ring.tail.isLt,panicked,bytes,?_,?_⟩
 · rw[bytes,List.self_eq_append_right,←List.length_eq_zero_iff,contents_length]
   exact isEmpty_iff u.ring
 · rw[bytes,List.length_append,Nat.add_left_cancel_iff,contents_length]
   exact (isFull_iff u.ring).trans (by unfold intqBufsize;omega)

/-- A handler puts two bytes, and a thread takes the first of them. -/
theorem intq_fifo_two:∃u,callAll (intqInit (start fun _=>0))
  [(.putc 7,none),(.putc 8,none),(.getc,some 1)]=some ([7],u) ∧ u.ring.contents=[8]:=by
 have found:(callAll (intqInit (start fun _=>0))
   [(.putc 7,none),(.putc 8,none),(.getc,some 1)]).map (·.1)=some [7]:=by decide
 obtain ⟨⟨out,u⟩,run,same⟩:=map_eq_some_iff.1 found
 obtain rfl:out=[7]:=same
 obtain ⟨-,-,-,bytes,-⟩:=intq_fifo run
 exact ⟨u,run,(List.cons.inj bytes).2.symm⟩

end Pintos.Intq
