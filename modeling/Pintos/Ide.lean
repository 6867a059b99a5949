import Mathlib.Algebra.Group.Nat.Defs
import Pintos.ExecRuns

/-!
# An ATA channel

`ide_read` and `ide_write` on one channel, by threads that take a step at a time, with the
interrupts of the controller between the steps. The controller raises one interrupt for each
command, in the order of the commands, and others when no command is outstanding.
-/
namespace Pintos.Ide
open ExecRuns Option

inductive Op where
 | read
 | write
 deriving DecidableEq,Repr

structure Request where
 op:Op
 sector:ℕ
 interrupts:Bool
 deriving DecidableEq,Repr

inductive Stage where
 | lockAcquire
 | selectSector
 | expectInterrupt
 | outCommand
 | semaDown
 | waitWhileBusy
 | transferSector
 | lockRelease
 deriving DecidableEq,Repr

/-- `ide_read` waits for the interrupt before it takes the data, `ide_write` after it has given
them. -/
def Stage.after:Op→Stage→Stage
 | _,.lockAcquire=>.selectSector
 | _,.selectSector=>.expectInterrupt
 | _,.expectInterrupt=>.outCommand
 | .read,.outCommand=>.semaDown
 | .read,.semaDown | .write,.outCommand=>.waitWhileBusy
 | .write,.semaDown=>.lockRelease
 | _,.waitWhileBusy=>.transferSector
 | .read,.transferSector=>.lockRelease
 | .write,.transferSector=>.semaDown
 | _,.lockRelease=>.lockRelease

inductive Thread where
 | idle
 /-- `command` is the number of the command, once it has been issued. -/
 | within (req:Request) (stage:Stage) (command:ℕ)
 deriving DecidableEq,Repr

structure Channel where
 holder:Option ℕ
 expectingInterrupt:Bool
 completionWait:ℕ
 deriving DecidableEq,Repr

/-- Commands are numbered in the order in which they are issued; `completed` of them have had
their interrupt. -/
structure State where
 channel:Channel
 thread:ℕ→Thread
 issued:ℕ
 completed:ℕ
 panicked:Bool

/-- `wait_while_busy` returns `ready` in a step that calls it. -/
inductive Act where
 | call (t:ℕ) (req:Request)
 | step (t:ℕ) (ready:Bool)
 | complete
 | spurious
 deriving DecidableEq,Repr

def interruptHandler (c:Channel):Channel:=
 if c.expectingInterrupt then {c with completionWait:=(c.completionWait+1)%2^32} else c

section
variable (s:State)

def State.put (t:ℕ)(thread:Thread):State:={s with thread:=Function.update s.thread t thread}
def State.panic:State:={s with panicked:=true}

def stageStep (t:ℕ)(ready:Bool)(req:Request)(command:ℕ)(stage:Stage):Option State:=
 let moved:=s.put t (.within req (stage.after req.op) command)
 match stage with
 | .lockAcquire=>
  if s.channel.holder=none then
   some {moved with channel:={s.channel with holder:=some t}}
  else none
 | .selectSector=>some (if req.sector<2^28 then moved else s.panic)
 | .expectInterrupt=>
  some (if req.interrupts then
   {moved with channel:={s.channel with expectingInterrupt:=true}} else s.panic)
 | .outCommand=>
  some {s.put t (.within req (stage.after req.op) s.issued) with issued:=s.issued+1}
 | .semaDown=>
  if 0<s.channel.completionWait then
   some {moved with
    channel:={s.channel with completionWait:=s.channel.completionWait-1}}
  else none
 | .waitWhileBusy=>some (if ready then moved else s.panic)
 | .transferSector=>some moved
 | .lockRelease=>
  some {s.put t .idle with channel:={s.channel with holder:=none}}

def act:Act→Option State
 | .call t req=>if s.thread t=.idle then some (s.put t (.within req .lockAcquire 0)) else none
 | .step t ready=>
  match s.thread t with
  | .idle=>none
  | .within req stage command=>stageStep s t ready req command stage
 | .complete=>
  if s.completed<s.issued then
   some {s with channel:=interruptHandler s.channel,completed:=s.completed+1}
  else none
 | .spurious=>
  if s.completed=s.issued then some {s with channel:=interruptHandler s.channel} else none

def next (a:Act):Option State:=if s.panicked then none else act s a

end

/-- A channel after `ide_init`; `identified` says whether a disk has been found on it, which takes
a command and its interrupt. -/
def start (identified:Bool):State:=
 {channel:=⟨none,identified,0⟩,thread:=fun _=>.idle,issued:=0,completed:=0,panicked:=false}

inductive Phase where
 | outside
 | early
 | armed
 | inFlight
 | past
 deriving DecidableEq,Repr

def Stage.phase:Op→Stage→Phase
 | _,.lockAcquire=>.outside
 | _,.selectSector | _,.expectInterrupt=>.early
 | _,.outCommand=>.armed
 | _,.semaDown | .write,.waitWhileBusy | .write,.transferSector=>.inFlight
 | .read,.waitWhileBusy | .read,.transferSector | _,.lockRelease=>.past

def Thread.phase:Thread→Phase
 | .idle=>.outside
 | .within req stage _=>stage.phase req.op
def Thread.command:Thread→ℕ
 | .idle=>0
 | .within _ _ command=>command

/-- The semaphore is down whenever the lock is free, and who is past `sema_down` has had the
interrupt of the command it issued. -/
structure Orderly (s:State):Prop where
 free:s.channel.holder=none → s.channel.completionWait=0
 waited:∀t,(s.thread t).phase=.past → (s.thread t).command<s.completed

/-- An interrupt without a command comes only while the flag still says that none is expected. -/
def Harmless (s:State):Act→Prop
 | .spurious=>s.channel.expectingInterrupt=false
 | _=>True

instance (s:State)(a:Act):Decidable (Harmless s a):=
 match a with
 | .call .. | .step .. | .complete=>.isTrue trivial
 | .spurious=>inferInstanceAs (Decidable (_=false))

section
variable {t n:ℕ}{req:Request}

/-- The interrupts that the call in this phase has still to take from the semaphore. -/
def Phase.due:Phase→ℕ
 | .inFlight=>1
 | _=>0

def Phase.expects:Phase→Bool
 | .armed | .inFlight=>true
 | _=>false
def Phase.issued:Phase→Bool
 | .inFlight | .past=>true
 | _=>false
def State.phase (s:State):Phase:=
 match s.channel.holder with
 | none=>.outside
 | some t=>(s.thread t).phase

structure Inv (s:State):Prop where
 holds:∀t,(s.thread t).phase≠.outside ↔ s.channel.holder=some t
 balance:s.channel.completionWait+s.issued=s.completed+s.phase.due
 bounded:s.completed ≤ s.issued
 expects:s.phase.expects=true → s.channel.expectingInterrupt=true
 numbered:∀t,(s.thread t).phase.issued=true → (s.thread t).command+1=s.issued

variable {s u:State}

lemma start_inv (identified:Bool):Inv (start identified):=by
 constructor<;>simp[start,State.phase,Thread.phase,Phase.due,Phase.expects,Phase.issued]

section
variable (h:Inv s)
include h

lemma Inv.orderly:Orderly s:=by
 have due:=h.balance
 have bounded:=h.bounded
 constructor
 · intro free
   simp only[State.phase,free,Phase.due] at due
   omega
 · intro t past
   have holder:s.channel.holder=some t:=(h.holds t).1 (by simp[past])
   have own:=h.numbered t (by simp[past,Phase.issued])
   simp only[State.phase,holder,past,Phase.due] at due
   omega

lemma Inv.panic:Inv s.panic:=⟨h.holds,h.balance,h.bounded,h.expects,h.numbered⟩
lemma Inv.phase_eq (inside:(s.thread t).phase≠.outside):s.phase=(s.thread t).phase:=by
 rw[State.phase,(h.holds t).1 inside]

lemma Inv.others {t':ℕ}(inside:(s.thread t).phase≠.outside)(other:t'≠t):
 (s.thread t').phase=.outside:=by
 by_contra also
 have mine:=(h.holds t).1 inside
 have theirs:=(h.holds t').1 also
 rw[mine] at theirs
 exact other (some.inj theirs).symm

lemma Inv.put {thread:Thread}{c:Channel}(others:∀t',t'≠t → (s.thread t').phase=.outside)
 (holder:c.holder=if thread.phase=.outside then none else some t)
 (balance:c.completionWait+n=s.completed+thread.phase.due)(grows:s.issued≤n)
 (expects:thread.phase.expects=true → c.expectingInterrupt=true)
 (numbered:thread.phase.issued=true → thread.command+1=n):
 Inv {s.put t thread with channel:=c,issued:=n}:=by
 have phase:State.phase {s.put t thread with channel:=c,issued:=n}=thread.phase:=by
  by_cases out:thread.phase=.outside
  · simp[State.phase,holder,out]
  · simp[State.phase,State.put,holder,out]
 constructor
 · intro t'
   by_cases same:t'=t
   · subst same
     by_cases out:thread.phase=.outside<;>simp[State.put,holder]
   · by_cases out:thread.phase=.outside
     · simp[State.put,holder,out,same,others t' same]
     · simp[State.put,holder,same,others t' same,Ne.symm same]
 · rw[phase]
   exact balance
 · exact Nat.le_trans h.bounded grows
 · rw[phase]
   exact expects
 · intro t'
   by_cases same:t'=t
   · subst same
     simpa[State.put] using numbered
   · simp[State.put,same,others t' same,Phase.issued]

lemma call_inv (idle:s.thread t=.idle)(req:Request):Inv (s.put t (.within req .lockAcquire 0)):=by
 have phase:∀t',((s.put t (.within req .lockAcquire 0)).thread t').phase=(s.thread t').phase:=by
  intro t'
  by_cases same:t'=t
  · subst same
    simp[State.put,idle,Thread.phase,Stage.phase]
  · simp[State.put,same]
 have whole:(s.put t (.within req .lockAcquire 0)).phase=s.phase:=by
  simp only[State.phase,phase]
  rfl
 constructor
 · intro t'
   rw[phase]
   exact h.holds t'
 · rw[whole]
   exact h.balance
 · exact h.bounded
 · rw[whole]
   exact h.expects
 · intro t'
   rw[phase]
   by_cases same:t'=t
   · subst same
     simp[idle,Thread.phase,Phase.issued]
   · simpa[State.put,same] using h.numbered t'

lemma Inv.advance {command:ℕ}{stage:Stage}{thread:Thread}{c:Channel}
 (at_:s.thread t=.within req stage command)(inside:stage.phase req.op≠.outside)
 (holder:c.holder=if thread.phase=.outside then none else some t)
 (balance:s.channel.completionWait+s.issued=s.completed+(stage.phase req.op).due →
  c.completionWait+n=s.completed+thread.phase.due)(grows:s.issued≤n)
 (expects:((stage.phase req.op).expects=true → s.channel.expectingInterrupt=true) →
  thread.phase.expects=true → c.expectingInterrupt=true)
 (numbered:((stage.phase req.op).issued=true → command+1=s.issued) →
  thread.phase.issued=true → thread.command+1=n):
 Inv {s.put t thread with channel:=c,issued:=n}:=by
 have here:(s.thread t).phase=stage.phase req.op:=by rw[at_,Thread.phase]
 have phase:s.phase=stage.phase req.op:=by rw[h.phase_eq (by rwa[here]),here]
 refine h.put (fun t'=>h.others (by rwa[here])) holder (balance ?_) grows (expects ?_) (numbered ?_)
 · simpa only[phase] using h.balance
 · simpa only[phase] using h.expects
 · simpa only[at_,Thread.phase,Thread.command] using h.numbered t

lemma Inv.stay {command:ℕ}{stage:Stage}
 (at_:s.thread t=.within req stage command)(inside:stage.phase req.op≠.outside)
 (same:(stage.after req.op).phase req.op=stage.phase req.op):
 Inv (s.put t (.within req (stage.after req.op) command)):=by
 have phase:Thread.phase (.within req (stage.after req.op) command)=stage.phase req.op:=same
 have held:s.channel.holder=some t:=(h.holds t).1 (by rwa[at_,Thread.phase])
 refine h.advance at_ inside ?_ ?_ (Nat.le_refl _) ?_ ?_<;>rw[phase]
 · rw[held,if_neg inside]
 · exact id
 · exact id
 · exact id

end

lemma phase_after_outCommand (op:Op):(Stage.outCommand.after op).phase op=.inFlight:=by
 cases op<;>rfl
lemma phase_after_semaDown (op:Op):(Stage.semaDown.after op).phase op=.past:=by
 cases op<;>rfl
lemma phase_transfers (op:Op):Stage.waitWhileBusy.phase op≠.outside ∧
 (Stage.waitWhileBusy.after op).phase op=Stage.waitWhileBusy.phase op ∧
 (Stage.transferSector.after op).phase op=Stage.transferSector.phase op:=by
 cases op<;>decide

lemma stageStep_inv (h:Inv s){command:ℕ}{ready:Bool}{stage:Stage}
 (at_:s.thread t=.within req stage command)
 (step:stageStep s t ready req command stage=some u):Inv u:=by
 have held:stage.phase req.op≠.outside → s.channel.holder=some t:=by
  intro inside
  apply (h.holds t).1
  rwa[at_,Thread.phase]
 cases stage with
 | lockAcquire=>
  obtain ⟨free,rfl⟩:s.channel.holder=none ∧ _:=by simpa[stageStep] using step
  have outside:∀t',(s.thread t').phase=.outside:=by
   intro t'
   by_contra inside
   simpa[free] using (h.holds t').1 inside
  have balance:=h.balance
  simp only[State.phase,free] at balance
  exact h.put (fun t' _=>outside t') rfl balance (Nat.le_refl _) nofun nofun
 | selectSector=>
  obtain rfl:_=u:=some.inj step
  split_ifs
  · exact h.stay at_ nofun rfl
  · exact h.panic
 | expectInterrupt=>
  obtain rfl:_=u:=some.inj step
  split_ifs
  · exact h.advance at_ nofun (held nofun) id (Nat.le_refl _) (fun _ _=>rfl) nofun
  · exact h.panic
 | outCommand=>
  obtain rfl:_=u:=some.inj step
  have phase:=phase_after_outCommand req.op
  refine h.advance at_ nofun ?_ ?_ (Nat.le_succ _) (fun expects _=>expects rfl) (fun _ _=>rfl)
  · rw[Thread.phase,phase]
    exact held nofun
  · rw[Thread.phase,phase]
    exact congrArg Nat.succ
 | semaDown=>
  obtain ⟨up,rfl⟩:0<s.channel.completionWait ∧ _:=by simpa[stageStep] using step
  have phase:=phase_after_semaDown req.op
  refine h.advance at_ (by simp[Stage.phase]) ?_ ?_ (Nat.le_refl _) ?_ ?_ <;>
   rw[Thread.phase,phase]
  · exact held (by simp[Stage.phase])
  · simp only[Stage.phase,Phase.due,State.put]
    omega
  · nofun
  · exact fun numbered _=>numbered (by simp[Stage.phase,Phase.issued])
 | waitWhileBusy=>
  obtain rfl:_=u:=some.inj step
  split_ifs
  · exact h.stay at_ (phase_transfers req.op).1 (phase_transfers req.op).2.1
  · exact h.panic
 | transferSector=>
  obtain rfl:_=u:=some.inj step
  obtain ⟨inside,polled,transferred⟩:=phase_transfers req.op
  refine h.stay at_ ?_ transferred
  rwa[←polled] at inside
 | lockRelease=>
  obtain rfl:_=u:=some.inj step
  refine h.advance at_ (by simp[Stage.phase]) rfl ?_ (Nat.le_refl _) nofun nofun
  simp only[Stage.phase]
  exact id

lemma Inv.interrupt (h:Inv s)(bounded:n ≤ s.issued)
 (balance:(interruptHandler s.channel).completionWait+s.issued=n+s.phase.due):
 Inv {s with channel:=interruptHandler s.channel,completed:=n}:=by
 have holder:(interruptHandler s.channel).holder=s.channel.holder:=by
  unfold interruptHandler
  split_ifs<;>rfl
 have flag:(interruptHandler s.channel).expectingInterrupt=s.channel.expectingInterrupt:=by
  unfold interruptHandler
  split_ifs<;>rfl
 have phase:State.phase {s with channel:=interruptHandler s.channel,completed:=n}=s.phase:=by
  simp only[State.phase,holder]
 constructor
 · simpa only[holder] using h.holds
 · simpa only[phase] using balance
 · exact bounded
 · simpa only[phase,flag] using h.expects
 · exact h.numbered

lemma complete_inv (h:Inv s)(outstanding:s.completed<s.issued):
 Inv {s with channel:=interruptHandler s.channel,completed:=s.completed+1}:=by
 have balance:=h.balance
 -- Only a call that waits for its interrupt leaves a command without one.
 have flight:s.phase=.inFlight:=by
  cases phase:s.phase<;>simp only[phase,Phase.due] at balance ⊢<;>omega
 have expected:=h.expects (by rw[flight];rfl)
 apply h.interrupt (Nat.succ_le_of_lt outstanding)
 simp only[flight,Phase.due] at balance ⊢
 simp only[interruptHandler,expected,if_true]
 omega

lemma act_of_next {a:Act}(step:next s a=some u):act s a=some u:=by
 unfold next at step
 split_ifs at step
 exact step

lemma next_inv {a:Act}(h:Inv s)(harmless:Harmless s a)(step:next s a=some u):Inv u:=by
 replace step:=act_of_next step
 cases a with
 | call t req=>
  rw[act] at step
  split_ifs at step with idle
  obtain rfl:=some.inj step
  exact call_inv h idle req
 | step t ready=>
  rw[act] at step
  cases at_:s.thread t with
  | idle=>simp[at_] at step
  | within req stage command=>
   simp only[at_] at step
   exact stageStep_inv h at_ step
 | complete=>
  rw[act] at step
  split_ifs at step with outstanding
  obtain rfl:=some.inj step
  exact complete_inv h outstanding
 | spurious=>
  rw[act] at step
  split_ifs at step
  obtain rfl:=some.inj step
  have unexpected:s.channel.expectingInterrupt=false:=harmless
  apply h.interrupt h.bounded
  simpa[interruptHandler,unexpected] using h.balance

lemma spurious_raises (h:Inv s)(free:s.channel.holder=none)
 (expected:s.channel.expectingInterrupt=true)(step:next s .spurious=some u):
 ¬Orderly u:=by
 intro orderly
 have down:=h.orderly.free free
 replace step:=act_of_next step
 rw[act] at step
 split_ifs at step
 obtain rfl:=some.inj step
 have raised:=orderly.free (by simp[interruptHandler,expected,free])
 simp[interruptHandler,expected,down] at raised

end

/-- Every command is waited for as long as no interrupt comes without a command once the flag is
set; while the lock is free, any such interrupt breaks it at once. -/
theorem commands_wait_iff {identified:Bool}{as:List Act}{s:State}
 (run:Runs next Harmless (start identified) as s):
 Orderly s ∧ ∀a u,s.channel.holder=none → next s a=some u → (Orderly u ↔ Harmless s a):=by
 have inv:Inv s:=run.invariant (fun _ _ _=>next_inv) (start_inv identified)
 refine ⟨inv.orderly,?_⟩
 intro a u free step
 constructor
 · intro orderly
   cases a with
   | call | step | complete=>trivial
   | spurious=>
    by_contra expected
    have set:s.channel.expectingInterrupt=true:=by simpa[Harmless] using expected
    exact spurious_raises inv free set step orderly
 · intro harmless
   exact (next_inv inv harmless step).orderly

def sectorRead:Request:=⟨.read,0,true⟩
def issuing (t:ℕ)(req:Request):List Act:=.call t req::List.replicate 4 (.step t true)
def wholeRead (t:ℕ):List Act:=issuing t sectorRead++.complete::List.replicate 4 (.step t true)

theorem commands_wait_read:∃s,Runs next Harmless (start false) (.spurious::wholeRead 0) s ∧
 s.completed=1 ∧ Orderly s ∧ ∀a u,s.channel.holder=none → next s a=some u →
  (Orderly u ↔ Harmless s a):=by
 have found:(exec next Harmless (start false) (.spurious::wholeRead 0)).any
   (fun s=>decide (s.completed=1))=true:=by
  decide +kernel
 obtain ⟨s,run,completed⟩:=exec_any found
 exact ⟨s,run,of_decide_eq_true completed,commands_wait_iff run⟩

/-- The flag stays set after a command, so a spurious interrupt lets the next read go on to its
data before its own interrupt. -/
theorem command_not_waited:∃as s bs u,Runs next Always (start false) as s ∧
 s.channel.holder=none ∧ s.channel.completionWait=1 ∧
 Runs next Always s bs u ∧ (u.thread 0).phase=.past ∧ (u.thread 0).command=1 ∧
 u.completed=1:=by
 have found:(exec next Always (start false) (wholeRead 0++[.spurious])).any (fun s=>
   decide (s.channel.holder=none ∧ s.channel.completionWait=1) &&
   (exec next Always s (issuing 0 sectorRead++[.step 0 true])).any (fun u=>
    decide ((u.thread 0).phase=.past ∧ (u.thread 0).command=1 ∧ u.completed=1)))=
   true:=by
  decide +kernel
 obtain ⟨s,run,facts⟩:=exec_any found
 obtain ⟨raised,after⟩:=Bool.and_eq_true_iff.1 facts
 obtain ⟨u,again,early⟩:=exec_any after
 obtain ⟨free,value⟩:=of_decide_eq_true raised
 exact ⟨_,s,_,u,run,free,value,again,of_decide_eq_true early⟩

end Pintos.Ide
