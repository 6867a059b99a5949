import Pintos.WaitExitAgreement

/-! What `process_wait` does for a thread that has not created the thread that it names. The
kernel does not record who has created whom; `creator` is what an observer knows. -/
namespace Pintos.WaitExit
open ExecRuns
open Function (update_self)

/-- `a` is a statement by which `p` calls `process_wait` for `c`, or one inside the call. -/
def Waits (k:Kernel)(a:Act)(p c:ℕ):Prop:=
 k.running=some p ∧ ((k.pc p=.user ∧ Calls k a p c) ∨
  (a=.step ∧ (k.pc p=.found c ∨ Passed (k.pc p) c)))

/-- Nothing about any thread has changed, and the call has returned -1 or not come farther than
the lookup. -/
def TurnedAway (k u:Kernel)(p c:ℕ):Prop:=
 u.thread=k.thread ∧ (u.pc p=.found c ∨ (u.pc p=.user ∧ u.returns=k.returns++[(p,c,-1)]))

variable (creator:ℕ→Option ℕ)

/-- A thread that has not created `c` is turned away. -/
def OnlyCreators (k:Kernel)(a:Act):Prop:=
 ∀p c u,Waits k a p c → creator c≠some p → next k a=some u → TurnedAway k u p c

/-- Where a thread that has not created `c` has found it, some `process_wait` has already set its
`wait_called`. -/
def ClaimedBefore (k:Kernel)(a:Act):Prop:=
 ∀p c,k.running=some p → k.pc p=.found c → a=.step → creator c≠some p → (k.thread c).waitCalled=true

def Pc.looked:Pc→Option ℕ
 | .found c=>some c
 | _=>none
lemma Pc.looked_eq_some {pc:Pc}{c:ℕ}:pc.looked=some c ↔ pc=.found c:=by
 cases pc<;>simp[Pc.looked]

instance (k:Kernel)(a:Act):Decidable (ClaimedBefore creator k a):=
 decidable_of_iff (∀p∈k.running,∀c∈(k.pc p).looked,a=.step → creator c≠some p →
   (k.thread c).waitCalled=true)
  ⟨fun h p c cur found=>h p cur c (Pc.looked_eq_some.2 found),
   fun h p cur c found=>h p c cur (Pc.looked_eq_some.1 found)⟩

/-- Only those who have created a thread are past the test for it. -/
def CreatorsInside (k:Kernel):Prop:=∀p c,Passed (k.pc p) c → creator c=some p

variable {creator}{k u:Kernel}{a:Act}{as:List Act}

lemma OnlyCreators.claimed (h:OnlyCreators creator k a):ClaimedBefore creator k a:=by
 rintro p c cur found rfl stranger
 by_contra called
 have passes:next k .step=some (k.setPc p (.checked c)):=by
  simp[next,perform,act,cur,statement,found,called]
 obtain ⟨-,away⟩:=h p c _ ⟨cur,.inr ⟨rfl,.inl found⟩⟩ stranger passes
 simp[Kernel.setPc] at away

lemma processWait_turnedAway (p c:ℕ):TurnedAway k (processWait k p c) p c:=by
 unfold processWait
 cases found:getThread k c with
 | none=>exact ⟨rfl,.inr ⟨update_self ..,rfl⟩⟩
 | some t=>
  obtain ⟨rfl,-⟩:=getThread_eq_some.1 found
  exact ⟨rfl,.inl (update_self ..)⟩

lemma turnedAway (inside:CreatorsInside creator k)(claimed:ClaimedBefore creator k a)
 {p c:ℕ}(waits:Waits k a p c)(stranger:creator c≠some p)
 (step:next k a=some u):TurnedAway k u p c:=by
 obtain ⟨cur,⟨at_,call⟩|⟨rfl,found|passed⟩⟩:=waits
 · have done:next k a=some (processWait k p c):=by
    rcases call with ⟨rfl,fine⟩|rfl
    · simp[next,perform,act,cur,at_,wait,fine]
    · simp[next,perform,act,cur,at_]
   obtain rfl:=Option.some.inj (step.symm.trans done)
   exact processWait_turnedAway p c
 · have called:=claimed p c cur found rfl stranger
   have done:next k .step=some (waitReturn k p c (-1)):=by
    simp[next,perform,act,cur,statement,found,called]
   obtain rfl:=Option.some.inj (step.symm.trans done)
   exact ⟨rfl,.inr ⟨update_self ..,rfl⟩⟩
 · exact absurd (inside p c passed) stranger

lemma Move.creatorsInside (m:Move k a u)(inside:CreatorsInside creator k)
 (claimed:ClaimedBefore creator k a):CreatorsInside creator u:=by
 intro p c passed
 by_cases turn:k.running=some p
 swap
 · rw[(m.frame turn).1] at passed
   exact inside p c passed
 have me:∀ {q:ℕ},k.running=some q → q=p:=fun cur=>
  Option.some.inj (cur.symm.trans turn)
 cases m with
 | dispatch q idle=>
  rw[idle] at turn
  cases turn
 | preempt q=>exact inside p c passed
 | refused q _ cur | missing _ q _ _ cur | lookup _ q _ _ cur | exit q _ cur | threadExit q cur
 | denied q _ cur | wakeup q _ cur=>
  obtain rfl:=me cur
  simp[Passed,WaitExit.exit,waitReturn,Kernel.setPc] at passed
 | bury q cur=>
  obtain rfl:=me cur
  simp[Passed] at passed
 | check q d cur at_ called=>
  obtain rfl:=me cur
  obtain rfl:d=c:=by simpa[Passed,Kernel.setPc] using passed
  by_contra stranger
  rw[claimed q d cur at_ rfl stranger] at called
  cases called
 | claim q d cur at_ | announce q d cur at_ | block q d cur at_=>
  obtain rfl:=me cur
  obtain rfl:d=c:=by simpa[Passed,Kernel.setPc] using passed
  exact inside q d (by simp[Passed,at_])

theorem onlyCreators_iff (start:Started k):
 Runs next (OnlyCreators creator) k as u ↔ Runs next (ClaimedBefore creator) k as u:=by
 constructor
 · exact fun run=>run.mono fun _ _ h=>h.claimed
 · intro run
   refine run.strengthen (I:=fun k=>Inv k ∧ CreatorsInside creator k) ?_ ?_
    ⟨start.inv,fun p c passed=>?_⟩
   · rintro k a u ⟨inv,inside⟩ claimed step
     exact ⟨inv.next step,(next_move inv.nodup step).creatorsInside inside claimed⟩
   · rintro k a ⟨inv,inside⟩ claimed p c u waits stranger step
     exact turnedAway inside claimed waits stranger step
   · rcases start.pc p with he|he<;>simp[Passed,he] at passed

def siblings:Kernel where
 thread t:=⟨if t=5 then .running else if t=3 ∨ t=4 then .ready else .dying,false,0,0,0⟩
 pc t:=if t=3 ∨ t=4 ∨ t=5 then .user else .gone
 allList:=[3,4,5]
 running:=some 5
 freed _:=false
 initialThread:=1
 mapped _ _:=false
 recorded _:=none
 returns:=[]

def siblingsCreator (t:ℕ):Option ℕ:=if t=4 ∨ t=5 then some 3 else none

lemma siblings_started:Started siblings where
 nodup:=by decide
 nonzero:=by decide
 listed t ht:=by
  obtain ⟨h3,h4,h5⟩:t≠3 ∧ t≠4 ∧ t≠5:=by simpa[siblings] using ht
  simp[siblings,h3,h4,h5]
 awake:=by decide
 current t:=by
  by_cases h5:t=5
  · simp[siblings,h5]
  · by_cases h:t=3 ∨ t=4<;>simp[siblings,h5,h,Ne.symm h5]
 fresh:=by decide
 unrecorded _:=rfl
 unfreed _:=rfl
 quiet:=rfl

def siblingFirst:List Act:=
 [.wait 4,.step,.step,.step,.step,.dispatch 3,.wait 4,.step,.preempt,.dispatch 4,
  .exit 57,.step,.dispatch 5,.step]

/-- A sibling waits and gets the status of the child; its parent, who asks later, gets -1. -/
theorem sibling_takes_status:Started siblings ∧ siblingsCreator 4=some 3 ∧
 ∃u,Runs next Always siblings siblingFirst u ∧
  ¬Runs next (OnlyCreators siblingsCreator) siblings siblingFirst u ∧
  u.recorded 4=some 57 ∧ waitReturns u 5 4=[57] ∧ waitReturns u 3 4=[-1]:=by
 have run:∃u,exec next Always siblings siblingFirst=some u ∧ u.recorded 4=some 57 ∧
   waitReturns u 5 4=[57] ∧ waitReturns u 3 4=[-1]:=⟨_,rfl,rfl,rfl,rfl⟩
 obtain ⟨u,hu,facts⟩:=run
 refine ⟨siblings_started,rfl,u,exec_runs hu,fun only=>?_,facts⟩
 cases only with
 | cons _ head tail=>
  obtain rfl:=Option.some.inj (head.symm.trans rfl)
  cases tail with
  | cons meets=>exact absurd (meets.claimed 5 4 rfl rfl rfl (by decide)) (by decide)

/-- A sibling that asks for a child after its parent is turned away. -/
theorem sibling_turned_away:∃u,Runs next (OnlyCreators siblingsCreator) siblings
  [.preempt,.dispatch 3,.wait 4,.step,.step,.preempt,.dispatch 5,.wait 4,.step] u ∧
  waitReturns u 5 4=[-1]:=by
 have run:∃u,exec next (ClaimedBefore siblingsCreator) siblings
   [.preempt,.dispatch 3,.wait 4,.step,.step,.preempt,.dispatch 5,.wait 4,.step]=
    some u ∧ waitReturns u 5 4=[-1]:=⟨_,rfl,rfl⟩
 obtain ⟨u,hu,returned⟩:=run
 exact ⟨u,(onlyCreators_iff siblings_started).2 (exec_runs hu),returned⟩

end Pintos.WaitExit
