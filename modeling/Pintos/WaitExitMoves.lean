import Pintos.WaitExit

namespace Pintos.WaitExit
open ExecRuns List Outcome
open Function (update)

variable {k:Kernel}

lemma getThread_eq_none {t:ℕ}:getThread k t=none ↔ t∉k.allList:=by
 simp only[getThread,find?_eq_none,decide_eq_true_eq]
 exact ⟨fun h hm=>h t hm rfl,fun h x hx he=>h (he▸hx)⟩

lemma getThread_eq_some {t u:ℕ}:getThread k t=some u ↔ u=t ∧ t∈k.allList:=by
 constructor
 · intro h
   have he:u=t:=by simpa using find?_some h
   exact ⟨he,he▸mem_of_find?_eq_some h⟩
 · rintro ⟨rfl,hm⟩
   cases h:getThread k u with
   | none=>exact absurd hm (getThread_eq_none.1 h)
   | some v=>
    have hv:v=u:=by simpa using find?_some h
    rw[hv]

def wokenThreads (k:Kernel)(c:ℕ):ℕ→Thread:=
 let w:=(k.thread c).waitingThread
 if w=0 then k.thread
 else update k.thread w {k.thread w with status:=.ready,childExitStatus:=(k.thread c).exitStatus}

/-- The kernel after `c` has left: everything of `thread_exit` but its assertions. -/
def buried (k:Kernel)(c:ℕ):Kernel:=
 threadScheduleTail
  {k with
    thread:=update (wokenThreads k c) c {wokenThreads k c c with status:=.dying}
    pc:=update k.pc c .gone
    allList:=k.allList.erase c
    running:=none
    recorded:=update k.recorded c (some (k.thread c).exitStatus)} c

def Wakeable (k:Kernel)(c:ℕ):Prop:=
 (k.thread c).waitingThread=0 ∨ ((k.thread c).waitingThread∈k.allList.erase c ∧
   (k.thread (k.thread c).waitingThread).status=.blocked)

variable {c:ℕ}

lemma wakeWaiter_zero (h:(k.thread c).waitingThread=0):wakeWaiter k c=.ok k:=by
 simp[wakeWaiter,h]

lemma wakeWaiter_blocked {w:ℕ}(hw:(k.thread c).waitingThread=w)(hz:w≠0)
 (hm:w∈k.allList)(hb:(k.thread w).status=.blocked)(hc:c≠w):
 wakeWaiter k c=.ok {k with
  thread:=update k.thread w
   {k.thread w with status:=.ready,childExitStatus:=(k.thread c).exitStatus}}:=by
 have hg:getThread k w=some w:=getThread_eq_some.2 ⟨rfl,hm⟩
 simp[wakeWaiter,hw,hz,hg,threadUnblock,hb,Kernel.setThread,hc,bind,Except.bind,pure,Except.pure]

lemma wakeWaiter_unlisted (hz:(k.thread c).waitingThread≠0)
 (hm:(k.thread c).waitingThread∉k.allList):wakeWaiter k c=.error .isThread:=by
 have hg:getThread k (k.thread c).waitingThread=none:=getThread_eq_none.2 hm
 simp[wakeWaiter,hz,hg,threadUnblock]

lemma wakeWaiter_unblocked (hz:(k.thread c).waitingThread≠0)
 (hm:(k.thread c).waitingThread∈k.allList)
 (hb:(k.thread (k.thread c).waitingThread).status≠.blocked):
 wakeWaiter k c=.error .statusBlocked:=by
 have hg:getThread k (k.thread c).waitingThread=some (k.thread c).waitingThread:=
  getThread_eq_some.2 ⟨rfl,hm⟩
 simp[wakeWaiter,hz,hg,threadUnblock,hb]

lemma threadExit_ok (nodup:k.allList.Nodup)(h:Wakeable k c):threadExit k c=.ok (buried k c):=by
 rcases h with hz|⟨hm,hb⟩
 · simp[threadExit,wakeWaiter_zero (k:={k with allList:=k.allList.erase c}) hz,buried,
    wokenThreads,hz,Kernel.setThread,Kernel.setPc,bind,Except.bind,pure,Except.pure]
 · by_cases hz:(k.thread c).waitingThread=0
   · simp[threadExit,wakeWaiter_zero (k:={k with allList:=k.allList.erase c}) hz,buried,
      wokenThreads,hz,Kernel.setThread,Kernel.setPc,bind,Except.bind,pure,Except.pure]
   · have hc:c≠(k.thread c).waitingThread:=by
      intro he
      rw[←he] at hm
      exact nodup.not_mem_erase hm
     have hw:=wakeWaiter_blocked (k:={k with allList:=k.allList.erase c}) (c:=c) rfl hz hm hb hc
     simp[threadExit,hw,buried,wokenThreads,hz,Kernel.setThread,Kernel.setPc,bind,
      Except.bind,pure,Except.pure]

variable {u:Kernel}

lemma threadExit_wakeable (h:threadExit k c=.ok u):Wakeable k c:=by
 by_cases hz:(k.thread c).waitingThread=0
 · exact .inl hz
 by_cases hm:(k.thread c).waitingThread∈k.allList.erase c
 · by_cases hb:(k.thread (k.thread c).waitingThread).status=.blocked
   · exact .inr ⟨hm,hb⟩
   · have he:=wakeWaiter_unblocked (k:={k with allList:=k.allList.erase c}) hz hm hb
     simp[threadExit,he] at h
 · have he:=wakeWaiter_unlisted (k:={k with allList:=k.allList.erase c}) hz hm
   simp[threadExit,he] at h

/-- `a` is a call by `p` that reaches `process_wait` on `c`. -/
def Calls (k:Kernel)(a:Act)(p c:ℕ):Prop:=(a=.wait c ∧ ¬Refused k p c) ∨ a=.processWait c

/-- Everything a step can do, with the guard under which it does it. -/
inductive Move (k:Kernel):Act→Kernel→Prop where
 | dispatch (p:ℕ) (idle:k.running=none) (ready:(k.thread p).status=.ready):
   Move k (.dispatch p) (schedule k p)
 | preempt (p:ℕ) (cur:k.running=some p) (on:interruptsOff (k.pc p)=false):
   Move k .preempt { k.setThread p {k.thread p with status:=.ready} with running:=none}
 | refused (p pid:ℕ) (cur:k.running=some p) (at_:k.pc p=.user)
   (bad:Refused k p pid):Move k (.wait pid) (exit k p (-1))
 | missing (a:Act) (p c:ℕ) (call:Calls k a p c)
   (cur:k.running=some p) (at_:k.pc p=.user) (dead:c∉k.allList):
   Move k a (waitReturn k p c (-1))
 | lookup (a:Act) (p c:ℕ) (call:Calls k a p c)
   (cur:k.running=some p) (at_:k.pc p=.user) (live:c∈k.allList):
   Move k a (k.setPc p (.found c))
 | exit (p:ℕ) (status:ℤ) (cur:k.running=some p) (at_:k.pc p=.user):
   Move k (.exit status) (exit k p status)
 | threadExit (p:ℕ) (cur:k.running=some p) (at_:k.pc p=.user):
   Move k .threadExit (k.setPc p .exiting)
 | denied (p c:ℕ) (cur:k.running=some p) (at_:k.pc p=.found c)
   (called:(k.thread c).waitCalled=true):Move k .step (waitReturn k p c (-1))
 | check (p c:ℕ) (cur:k.running=some p) (at_:k.pc p=.found c)
   (called:(k.thread c).waitCalled=false):Move k .step (k.setPc p (.checked c))
 | claim (p c:ℕ) (cur:k.running=some p) (at_:k.pc p=.checked c):Move k .step
    ((k.setThread c {k.thread c with waitCalled:=true}).setPc p (.claimed c))
 | announce (p c:ℕ) (cur:k.running=some p) (at_:k.pc p=.claimed c):Move k .step
    ((k.setThread c {k.thread c with waitingThread:=p}).setPc p (.announced c))
 | block (p c:ℕ) (cur:k.running=some p) (at_:k.pc p=.announced c):
   Move k .step ((threadBlock k p).setPc p (.waiting c))
 | wakeup (p c:ℕ) (cur:k.running=some p) (at_:k.pc p=.waiting c):
   Move k .step (waitReturn k p c (k.thread p).childExitStatus)
 | bury (p:ℕ) (cur:k.running=some p) (at_:k.pc p=.exiting) (wake:Wakeable k p):
   Move k .step (buried k p)

lemma processWait_move {a:Act}{p:ℕ}(call:Calls k a p c)(cur:k.running=some p)
 (at_:k.pc p=.user):Move k a (processWait k p c):=by
 unfold processWait
 cases hg:getThread k c with
 | none=>exact .missing a p c call cur at_ (getThread_eq_none.1 hg)
 | some t=>
  obtain ⟨rfl,hm⟩:=getThread_eq_some.1 hg
  exact .lookup a p t call cur at_ hm

lemma statement_move {p:ℕ}(nodup:k.allList.Nodup)(cur:k.running=some p)
 (h:statement k p=.running u):Move k .step u:=by
 unfold statement at h
 cases at_:k.pc p with
 | user | gone=>simp[at_] at h
 | found c=>
  simp only[at_] at h
  cases called:(k.thread c).waitCalled with
  | true=>
   simp only[called,if_true,running.injEq] at h
   exact h▸.denied p c cur at_ called
  | false=>
   simp only[called,Bool.false_eq_true,if_false,running.injEq] at h
   exact h▸.check p c cur at_ called
 | checked c=>
  simp only[at_,running.injEq] at h
  exact h▸.claim p c cur at_
 | claimed c=>
  simp only[at_,running.injEq] at h
  exact h▸.announce p c cur at_
 | announced c=>
  simp only[at_,running.injEq] at h
  exact h▸.block p c cur at_
 | waiting c=>
  simp only[at_,running.injEq] at h
  exact h▸.wakeup p c cur at_
 | exiting=>
  simp only[at_] at h
  cases he:threadExit k p with
  | error a=>simp[he] at h
  | ok v=>
   have wake:=threadExit_wakeable he
   rw[threadExit_ok nodup wake] at h
   simp only[running.injEq] at h
   exact h▸.bury p cur at_ wake

lemma next_move {a:Act}(nodup:k.allList.Nodup)(h:next k a=some u):Move k a u:=by
 have hp:perform k a=.running u:=by
  unfold next at h
  cases he:perform k a with
  | running v=>
   simp only[he,Option.some.injEq] at h
   rw[h]
  | disabled | panic _=>simp[he] at h
 unfold perform at hp
 cases cur:k.running with
 | none=>
  rw[cur] at hp
  cases a with
  | dispatch p=>
   simp only[act] at hp
   split at hp
   · simp only[running.injEq] at hp
     exact hp▸.dispatch p cur ‹_›
   · cases hp
  | _=>simp[act] at hp
 | some p=>
  rw[cur] at hp
  cases a with
  | dispatch q=>simp[act] at hp
  | preempt=>
   simp only[act] at hp
   cases on:interruptsOff (k.pc p) with
   | true=>simp[on] at hp
   | false=>
    simp only[on,Bool.false_eq_true,if_false,running.injEq] at hp
    exact hp▸.preempt p cur on
  | wait pid=>
   simp only[act] at hp
   split at hp
   · simp only[running.injEq] at hp
     subst hp
     unfold wait
     split
     · exact .refused p pid cur ‹_› ‹_›
     · exact processWait_move (.inl ⟨rfl,‹_›⟩) cur ‹_›
   · cases hp
  | processWait tid=>
   simp only[act] at hp
   split at hp
   · simp only[running.injEq] at hp
     exact hp▸processWait_move (.inr rfl) cur ‹_›
   · cases hp
  | exit status=>
   simp only[act] at hp
   split at hp
   · simp only[running.injEq] at hp
     exact hp▸.exit p status cur ‹_›
   · cases hp
  | threadExit=>
   simp only[act] at hp
   split at hp
   · simp only[running.injEq] at hp
     exact hp▸.threadExit p cur ‹_›
   · cases hp
  | step=>exact statement_move nodup cur hp

end Pintos.WaitExit
