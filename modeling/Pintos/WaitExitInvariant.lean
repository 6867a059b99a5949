import Pintos.WaitExitMoves

namespace Pintos.WaitExit
open ExecRuns
open Function (update update_self update_of_ne)

section
variable (k:Kernel)(c:ℕ)

@[simp] lemma buried_pc:(buried k c).pc=update k.pc c .gone:=by
 unfold buried threadScheduleTail
 split<;>rfl
@[simp] lemma buried_allList:(buried k c).allList=k.allList.erase c:=by
 unfold buried threadScheduleTail
 split<;>rfl
@[simp] lemma buried_running:(buried k c).running=none:=by
 unfold buried threadScheduleTail
 split<;>rfl
@[simp] lemma buried_returns:(buried k c).returns=k.returns:=by
 unfold buried threadScheduleTail
 split<;>rfl
@[simp] lemma buried_initialThread:(buried k c).initialThread=k.initialThread:=by
 unfold buried threadScheduleTail
 split<;>rfl
@[simp] lemma buried_recorded:
 (buried k c).recorded=update k.recorded c (some (k.thread c).exitStatus):=by
 unfold buried threadScheduleTail
 split<;>rfl
lemma buried_thread_of_ne {t:ℕ}(h:t≠c):(buried k c).thread t=wokenThreads k c t:=by
 unfold buried threadScheduleTail
 split<;>simp[Kernel.setThread,h]
lemma buried_status_self:((buried k c).thread c).status=.dying:=by
 unfold buried threadScheduleTail
 split<;>simp[Kernel.setThread,poisoned]
lemma buried_freed (h:c≠k.initialThread):
 (buried k c).freed=update k.freed c true ∧ (buried k c).thread c=poisoned:=by
 simp[buried,threadScheduleTail,h,Kernel.setThread]
lemma buried_freed_initial (h:c=k.initialThread):(buried k c).freed=k.freed:=by
 simp[buried,threadScheduleTail,h]
lemma buried_freed_of_ne {d:ℕ}(h:d≠c):(buried k c).freed d=k.freed d:=by
 by_cases hi:c=k.initialThread
 · rw[buried_freed_initial k c hi]
 · rw[(buried_freed k c hi).1,update_of_ne h]

lemma wokenThreads_of_ne {t:ℕ}(h:t≠(k.thread c).waitingThread):wokenThreads k c t=k.thread t:=by
 unfold wokenThreads
 split
 · rfl
 · exact update_of_ne h _ _

lemma wokenThreads_waiter (h:(k.thread c).waitingThread≠0):
 wokenThreads k c (k.thread c).waitingThread=
  {k.thread (k.thread c).waitingThread with
    status:=.ready,childExitStatus:=(k.thread c).exitStatus}:=by
 simp[wokenThreads,h]

lemma wokenThreads_waitingThread (t:ℕ):
 (wokenThreads k c t).waitingThread=(k.thread t).waitingThread ∧
  (wokenThreads k c t).waitCalled=(k.thread t).waitCalled:=by
 unfold wokenThreads
 split
 · exact ⟨rfl,rfl⟩
 · by_cases h:t=(k.thread c).waitingThread
   · subst h
     simp
   · simp[h]

end

def AwaitsExit (k:Kernel)(w d:ℕ):Prop:=
 w∈k.allList ∧ (k.pc w=.announced d ∨ (k.pc w=.waiting d ∧ (k.thread w).status=.blocked))

/-- What holds in every reachable state, whatever the schedule. -/
structure Inv (k:Kernel):Prop where
 nodup:k.allList.Nodup
 nonzero:0∉k.allList
 listed:∀t,(k.thread t).status≠.dying → t∈k.allList
 current:∀t,k.running=some t ↔ (k.thread t).status=.running
 asleep:∀t,(k.thread t).status=.blocked → ∃c,k.pc t=.waiting c
 registered:∀d∈k.allList,(k.thread d).waitingThread≠0 → AwaitsExit k (k.thread d).waitingThread d
 woken:∀w d,k.pc w=.waiting d → (k.thread w).status≠.blocked →
  k.recorded d=some (k.thread w).childExitStatus
 unrecorded:∀d∈k.allList,k.recorded d=none
 poison:∀d,k.freed d=true → d∉k.allList ∧ (k.thread d).waitCalled=true
 looked:∀t d,k.pc t=.found d → d∈k.allList ∨ k.freed d=true ∨ d=k.initialThread

variable {k:Kernel}{p:ℕ}

lemma Inv.running_listed (h:Inv k)(cur:k.running=some p):p∈k.allList:=by
 apply h.listed
 rw[(h.current p).1 cur]
 simp

lemma Inv.only_running (h:Inv k){u:ℕ}(cur:k.running=some p)(hu:u≠p):
 (k.thread u).status≠.running:=by
 intro he
 have hc:=(h.current u).2 he
 rw[cur] at hc
 exact hu (Option.some.inj hc).symm

variable {c:ℕ}

lemma Inv.mem_buried (h:Inv k){d:ℕ}:d∈(buried k c).allList ↔ d≠c ∧ d∈k.allList:=by
 rw[buried_allList]
 exact h.nodup.mem_erase_iff

lemma Inv.unregistered (h:Inv k){d:ℕ}(hd:d∈k.allList)(ha:k.pc p≠.announced d)
 (hw:k.pc p=.waiting d → (k.thread p).status≠.blocked)(hp:p≠0):
 (k.thread d).waitingThread≠p:=by
 rintro rfl
 rcases (h.registered d hd hp).2 with h'|⟨h',hb⟩
 · exact ha h'
 · exact hw h' hb

/-- A change of `p`'s place among those outside `thread_block`, with the pages,
the lists and the schedule left alone. -/
lemma Inv.setPc (h:Inv k)(pc:Pc){returns:List (ℕ×ℕ×ℤ)}(cur:k.running=some p)
 (from_:∀d,k.pc p≠.announced d)(to_:∀d,pc≠.waiting d)
 (looked:∀d,pc=.found d → d∈k.allList):
 Inv {k.setPc p pc with returns:=returns}:=by
 have hrun:=(h.current p).1 cur
 have hp:p≠0:=fun he=>h.nonzero (he▸h.running_listed cur)
 refine ⟨h.nodup,h.nonzero,h.listed,h.current,?_,?_,?_,h.unrecorded,h.poison,?_⟩
 · intro t ht
   have hne:t≠p:=by
    rintro rfl
    exact absurd (hrun.symm.trans ht) (by simp)
   simpa[Kernel.setPc,hne] using h.asleep t ht
 · intro d hd hz
   have hne:(k.thread d).waitingThread≠p:=h.unregistered hd (from_ d) (fun _=>by rw[hrun];simp) hp
   simpa[AwaitsExit,Kernel.setPc,hne] using h.registered d hd hz
 · intro w d hw hb
   have hne:w≠p:=by
    rintro rfl
    exact to_ d (by simpa[Kernel.setPc] using hw)
   exact h.woken w d (by simpa[Kernel.setPc,hne] using hw) hb
 · intro t d ht
   by_cases hne:t=p
   · subst hne
     exact .inl (looked d (by simpa[Kernel.setPc] using ht))
   · exact h.looked t d (by simpa[Kernel.setPc,hne] using ht)

variable {t:ℕ}

/-- Rewriting a page without touching its status, its waiter or what its
waiter will be told keeps the invariant. -/
lemma Inv.setThread (h:Inv k){v:Thread}(status:v.status=(k.thread t).status)
 (waiter:v.waitingThread=(k.thread t).waitingThread)
 (child:v.childExitStatus=(k.thread t).childExitStatus)
 (called:(k.thread t).waitCalled=true → v.waitCalled=true):Inv (k.setThread t v):=by
 have hstatus:∀u,((k.setThread t v).thread u).status=(k.thread u).status:=by
  intro u
  by_cases hu:u=t
  · subst hu;simpa[Kernel.setThread] using status
  · simp[Kernel.setThread,hu]
 have hwaiter:∀u,((k.setThread t v).thread u).waitingThread=(k.thread u).waitingThread:=by
  intro u
  by_cases hu:u=t
  · subst hu;simpa[Kernel.setThread] using waiter
  · simp[Kernel.setThread,hu]
 refine ⟨h.nodup,h.nonzero,?_,?_,?_,?_,?_,h.unrecorded,?_,h.looked⟩
 · intro u hu
   exact h.listed u (by rwa[hstatus] at hu)
 · intro u
   rw[hstatus]
   exact h.current u
 · intro u hu
   exact h.asleep u (by rwa[hstatus] at hu)
 · intro d hd hz
   rw[hwaiter] at hz ⊢
   obtain ⟨hm,hw⟩:=h.registered d hd hz
   refine ⟨hm,?_⟩
   rw[hstatus]
   exact hw
 · intro w d hw hb
   rw[hstatus] at hb
   have hr:=h.woken w d hw hb
   by_cases hu:w=t
   · subst hu;simpa[Kernel.setThread,child] using hr
   · simpa[Kernel.setThread,hu] using hr
 · intro d hd
   refine ⟨(h.poison d hd).1,?_⟩
   by_cases hu:d=t
   · subst hu;simpa[Kernel.setThread] using called (h.poison d hd).2
   · simpa[Kernel.setThread,hu] using (h.poison d hd).2

lemma Inv.setStatus (h:Inv k){status:ThreadStatus}{running:Option ℕ}
 (awake:(k.thread t).status≠.blocked)(live:(k.thread t).status≠.dying)
 (to_:status≠.blocked)(current:∀u,running=some u ↔
  ((k.setThread t {k.thread t with status:=status}).thread u).status=.running):
 Inv { k.setThread t {k.thread t with status:=status} with running:=running}:=by
 have hblocked:∀u,((k.setThread t {k.thread t with status:=status}).thread u).status=
   .blocked ↔ (k.thread u).status=.blocked:=by
  intro u
  by_cases hu:u=t
  · subst hu;simp[Kernel.setThread,awake,to_]
  · simp[Kernel.setThread,hu]
 have hother:∀u,((k.setThread t {k.thread t with status:=status}).thread u)=
   {k.thread u with
     status:=((k.setThread t {k.thread t with status:=status}).thread u).status}:=by
  intro u
  by_cases hu:u=t
  · subst hu;simp[Kernel.setThread]
  · simp[Kernel.setThread,hu]
 refine ⟨h.nodup,h.nonzero,?_,current,?_,?_,?_,h.unrecorded,?_,h.looked⟩
 · intro u hu
   by_cases he:u=t
   · exact he▸h.listed t live
   · exact h.listed u (by simpa[Kernel.setThread,he] using hu)
 · intro u hu
   exact h.asleep u ((hblocked u).1 hu)
 · intro d hd hz
   rw[hother d] at hz ⊢
   obtain ⟨hm,hw⟩:=h.registered d hd hz
   exact ⟨hm,hw.imp_right (fun hw=>⟨hw.1,(hblocked _).2 hw.2⟩)⟩
 · intro w d hw hb
   rw[hother w]
   exact h.woken w d hw (fun he=>hb ((hblocked w).2 he))
 · intro d hd
   rw[hother d]
   exact h.poison d hd

lemma Inv.schedule (h:Inv k)(idle:k.running=none)(ready:(k.thread p).status=.ready):
 Inv (schedule k p):=by
 refine h.setStatus (by rw[ready];simp) (by rw[ready];simp) (by simp) ?_
 intro u
 by_cases hu:u=p
 · subst hu;simp[Kernel.setThread]
 · have hn:(k.thread u).status≠.running:=fun he=>by
    have:=(h.current u).2 he
    simp[idle] at this
   simp[Kernel.setThread,hu,hn,Ne.symm hu]

lemma Inv.preempt (h:Inv k)(cur:k.running=some p):
 Inv { k.setThread p {k.thread p with status:=.ready} with running:=none}:=by
 have hrun:=(h.current p).1 cur
 refine h.setStatus (by rw[hrun];simp) (by rw[hrun];simp) (by simp) ?_
 intro u
 by_cases hu:u=p
 · subst hu;simp[Kernel.setThread]
 · simp[Kernel.setThread,hu,h.only_running cur hu]

lemma Inv.announce (h:Inv k)(cur:k.running=some p)(at_:k.pc p=.claimed c):
 Inv ((k.setThread c {k.thread c with waitingThread:=p}).setPc p (.announced c)):=by
 have hp:=h.running_listed cur
 have hp0:p≠0:=fun he=>h.nonzero (he▸hp)
 have hfree:∀d∈k.allList,(k.thread d).waitingThread≠p:=fun d hd=>
  h.unregistered hd (by simp[at_]) (by simp[at_]) hp0
 have hother:∀u,(k.setThread c {k.thread c with waitingThread:=p}).thread u=
   {k.thread u with waitingThread:=if u=c then p else (k.thread u).waitingThread}:=by
  intro u
  by_cases hu:u=c
  · subst hu;simp[Kernel.setThread]
  · simp[Kernel.setThread,hu]
 have hpc:∀u,u≠p → update k.pc p (.announced c) u=k.pc u:=fun u hu=>
  update_of_ne hu _ _
 refine ⟨h.nodup,h.nonzero,?_,?_,?_,?_,?_,h.unrecorded,?_,?_⟩
 · intro u hu
   change ((k.setThread c _).thread u).status≠_ at hu
   rw[hother] at hu
   exact h.listed u hu
 · intro u
   change _ ↔ ((k.setThread c _).thread u).status=_
   rw[hother]
   exact h.current u
 · intro u hu
   change ((k.setThread c _).thread u).status=_ at hu
   rw[hother] at hu
   have hne:u≠p:=by
    rintro rfl
    exact absurd (((h.current u).1 cur).symm.trans hu) (by simp)
   obtain ⟨d,hd⟩:=h.asleep u hu
   exact ⟨d,(hpc u hne).trans hd⟩
 · intro d hd hz
   change AwaitsExit _ ((k.setThread c _).thread d).waitingThread d
   change ((k.setThread c _).thread d).waitingThread≠0 at hz
   rw[hother] at hz ⊢
   by_cases hc:d=c
   · subst hc
     simp only[if_true]
     exact ⟨hp,.inl (update_self ..)⟩
   · simp only[hc,if_false] at hz ⊢
     obtain ⟨hm,hw⟩:=h.registered d hd hz
     refine ⟨hm,?_⟩
     change update k.pc p _ _=_ ∨ (update k.pc p _ _=_ ∧ ((k.setThread c _).thread _).status=_)
     rw[hpc _ (hfree d hd),hother]
     exact hw
 · intro w d hw hb
   change update k.pc p _ w=_ at hw
   change ((k.setThread c _).thread w).status≠_ at hb
   change k.recorded d=some ((k.setThread c _).thread w).childExitStatus
   have hne:w≠p:=by
    rintro rfl
    simp at hw
   rw[hpc w hne] at hw
   rw[hother] at hb ⊢
   exact h.woken w d hw hb
 · intro d hd
   change _ ∧ ((k.setThread c _).thread d).waitCalled=true
   rw[hother]
   exact h.poison d hd
 · intro t d ht
   change update k.pc p _ t=_ at ht
   have hne:t≠p:=by
    rintro rfl
    simp at ht
   rw[hpc t hne] at ht
   exact h.looked t d ht

lemma Inv.block (h:Inv k)(cur:k.running=some p)(at_:k.pc p=.announced c):
 Inv ((threadBlock k p).setPc p (.waiting c)):=by
 have hother:∀u,(threadBlock k p).thread u=
   {k.thread u with status:=if u=p then .blocked else (k.thread u).status}:=by
  intro u
  by_cases hu:u=p
  · subst hu;simp[threadBlock,Kernel.setThread]
  · simp[threadBlock,Kernel.setThread,hu]
 have hpc:∀u,u≠p → update k.pc p (.waiting c) u=k.pc u:=fun u hu=>
  update_of_ne hu _ _
 refine ⟨h.nodup,h.nonzero,?_,?_,?_,?_,?_,h.unrecorded,?_,?_⟩
 · intro u hu
   change ((threadBlock k p).thread u).status≠_ at hu
   rw[hother] at hu
   by_cases he:u=p
   · rw[he]
     exact h.running_listed cur
   · exact h.listed u (by simpa[he] using hu)
 · intro u
   change none=some u ↔ ((threadBlock k p).thread u).status=_
   rw[hother]
   by_cases he:u=p
   · simp[he]
   · simp[he,h.only_running cur he]
 · intro u hu
   change ((threadBlock k p).thread u).status=_ at hu
   rw[hother] at hu
   by_cases he:u=p
   · exact ⟨c,by rw[he];exact update_self ..⟩
   · obtain ⟨d,hd⟩:=h.asleep u (by simpa[he] using hu)
     exact ⟨d,(hpc u he).trans hd⟩
 · intro d hd hz
   change ((threadBlock k p).thread d).waitingThread≠0 at hz
   change AwaitsExit _ ((threadBlock k p).thread d).waitingThread d
   rw[hother] at hz ⊢
   obtain ⟨hm,hw⟩:=h.registered d hd hz
   refine ⟨hm,?_⟩
   change update k.pc p _ _=_ ∨ (update k.pc p _ _=_ ∧ ((threadBlock k p).thread _).status=_)
   rw[hother]
   by_cases he:(k.thread d).waitingThread=p
   · -- the announced target is the one `p` now sleeps for
     have hcd:c=d:=by
      rw[he,at_] at hw
      rcases hw with hw|hw
      · simpa using hw
      · simp at hw
     simp[he,hcd]
   · simpa[he] using hw
 · intro w d hw hb
   change update k.pc p _ w=_ at hw
   change ((threadBlock k p).thread w).status≠_ at hb
   change k.recorded d=some ((threadBlock k p).thread w).childExitStatus
   rw[hother] at hb ⊢
   by_cases he:w=p
   · simp[he] at hb
   · rw[hpc w he] at hw
     exact h.woken w d hw (by simpa[he] using hb)
 · intro d hd
   change _ ∧ ((threadBlock k p).thread d).waitCalled=true
   rw[hother]
   exact h.poison d hd
 · intro t d ht
   change update k.pc p _ t=_ at ht
   have hne:t≠p:=by
    rintro rfl
    simp at ht
   rw[hpc t hne] at ht
   exact h.looked t d ht

lemma Inv.waiter_asleep (h:Inv k)(hc:c∈k.allList)(hz:(k.thread c).waitingThread≠0)
 (wake:Wakeable k c):k.pc (k.thread c).waitingThread=.waiting c:=by
 rcases (h.registered c hc hz).2 with hw|⟨hw,_⟩
 · rcases wake with h0|⟨_,hb⟩
   · exact absurd h0 hz
   · obtain ⟨d,hd⟩:=h.asleep _ hb
     rw[hw] at hd
     cases hd
 · exact hw

lemma Inv.buried_other (h:Inv k)(hc:c∈k.allList)(wake:Wakeable k c)(ht:t≠c):
 (buried k c).thread t=k.thread t ∨
  (t∈k.allList ∧ k.pc t=.waiting c ∧ (k.thread c).waitingThread=t ∧
   (buried k c).thread t={k.thread t with
    status:=.ready,childExitStatus:=(k.thread c).exitStatus}):=by
 rw[buried_thread_of_ne k c ht]
 by_cases hz:(k.thread c).waitingThread=0
 · simp[wokenThreads,hz]
 by_cases he:t=(k.thread c).waitingThread
 · right
   subst he
   exact ⟨(h.registered c hc hz).1,h.waiter_asleep hc hz wake,rfl,wokenThreads_waiter k c hz⟩
 · exact .inl (wokenThreads_of_ne k c he)

lemma Inv.bury (h:Inv k)(cur:k.running=some c)(at_:k.pc c=.exiting)
 (wake:Wakeable k c):Inv (buried k c):=by
 have hc:=h.running_listed cur
 have hpc:∀u,u≠c → (buried k c).pc u=k.pc u:=fun u hu=>by
  simp[hu]
 refine ⟨?_,?_,?_,?_,?_,?_,?_,?_,?_,?_⟩
 · rw[buried_allList]
   exact h.nodup.erase c
 · exact fun hm=>h.nonzero (h.mem_buried.1 hm).2
 · intro u hu
   have hne:u≠c:=by
    rintro rfl
    exact hu (buried_status_self k u)
   refine h.mem_buried.2 ⟨hne,?_⟩
   rcases h.buried_other hc wake hne with he|⟨hm,-,-,-⟩
   · exact h.listed u (he▸hu)
   · exact hm
 · intro u
   have hn:((buried k c).thread u).status≠.running:=by
    by_cases hne:u=c
    · rw[hne,buried_status_self]
      simp
    · rcases h.buried_other hc wake hne with he|⟨-,-,-,he⟩
      · rw[he]
        exact h.only_running cur hne
      · rw[he]
        simp
   simp[hn]
 · intro u hu
   have hne:u≠c:=by
    rintro rfl
    rw[buried_status_self] at hu
    cases hu
   rw[hpc u hne]
   rcases h.buried_other hc wake hne with he|⟨-,-,-,he⟩
   · exact h.asleep u (he▸hu)
   · simp[he] at hu
 · intro d hd hz
   obtain ⟨hdc,hd⟩:=h.mem_buried.1 hd
   have hw:((buried k c).thread d).waitingThread=(k.thread d).waitingThread:=by
    rw[buried_thread_of_ne k c hdc]
    exact (wokenThreads_waitingThread k c d).1
   rw[hw] at hz ⊢
   obtain ⟨hm,hcase⟩:=h.registered d hd hz
   have hne:(k.thread d).waitingThread≠c:=by
    intro he
    rw[he,at_] at hcase
    simp at hcase
   refine ⟨h.mem_buried.2 ⟨hne,hm⟩,?_⟩
   rw[hpc _ hne]
   rcases h.buried_other hc wake hne with he|⟨-,hwait,-,-⟩
   · rw[he]
     exact hcase
   · -- the thread woken now slept for `c`, so it is not the one registered with `d`
     rw[hwait] at hcase
     simp[Ne.symm hdc] at hcase
 · intro w d hw hb
   have hne:w≠c:=by
    rintro rfl
    simp at hw
   rw[hpc w hne] at hw
   rcases h.buried_other hc wake hne with he|⟨-,hwait,-,he⟩
   · rw[he] at hb ⊢
     have hr:=h.woken w d hw hb
     have hdc:d≠c:=by
      rintro rfl
      rw[h.unrecorded d hc] at hr
      cases hr
     simpa[hdc] using hr
   · obtain rfl:c=d:=by simpa[hwait] using hw
     simp[he]
 · intro d hd
   obtain ⟨hdc,hd⟩:=h.mem_buried.1 hd
   simpa[hdc] using h.unrecorded d hd
 · intro d hd
   rw[h.mem_buried]
   by_cases hdc:d=c
   · subst hdc
     refine ⟨fun hm=>hm.1 rfl,?_⟩
     by_cases hi:d=k.initialThread
     · rw[buried_freed_initial k d hi] at hd
       exact absurd hc (h.poison d hd).1
     · rw[(buried_freed k d hi).2]
       rfl
   · rw[buried_freed_of_ne k c hdc] at hd
     refine ⟨fun hm=>(h.poison d hd).1 hm.2,?_⟩
     rw[buried_thread_of_ne k c hdc,(wokenThreads_waitingThread k c d).2]
     exact (h.poison d hd).2
 · intro t d ht
   have hne:t≠c:=by
    rintro rfl
    simp at ht
   rw[hpc t hne] at ht
   rw[h.mem_buried,buried_initialThread]
   by_cases hdc:d=c
   · subst hdc
     by_cases hi:d=k.initialThread
     · exact .inr (.inr hi)
     · exact .inr (.inl (by simp[(buried_freed k d hi).1]))
   · rcases h.looked t d ht with hm|hf|hi
     · exact .inl ⟨hdc,hm⟩
     · exact .inr (.inl ((buried_freed_of_ne k c hdc).trans hf))
     · exact .inr (.inr hi)

lemma Inv.exit (h:Inv k)(status:ℤ)(cur:k.running=some p)(at_:k.pc p=.user):
 Inv (exit k p status):=by
 have h':=h.setThread (t:=p) (v:={k.thread p with exitStatus:=status}) rfl rfl rfl id
 exact h'.setPc .exiting cur (by simp[Kernel.setThread,at_]) (by simp) (by simp)

lemma Inv.next {u:Kernel}{a:Act}(h:Inv k)(hs:next k a=some u):Inv u:=by
 cases next_move h.nodup hs with
 | dispatch p idle ready=>exact h.schedule idle ready
 | preempt p cur on=>exact h.preempt cur
 | refused p pid cur at_ bad=>exact h.exit (-1) cur at_
 | exit p status cur at_=>exact h.exit status cur at_
 | missing _ p c call cur at_ dead=>
  exact h.setPc _ cur (by simp[at_]) (by simp) (by simp)
 | lookup _ p c call cur at_ live=>
  exact h.setPc _ cur (by simp[at_]) (by simp) (by simp[live])
 | threadExit p cur at_=>
  exact h.setPc _ cur (by simp[at_]) (by simp) (by simp)
 | denied p c cur at_ called=>exact h.setPc _ cur (by simp[at_]) (by simp) (by simp)
 | check p c cur at_ called=>exact h.setPc _ cur (by simp[at_]) (by simp) (by simp)
 | claim p c cur at_=>
  have h':=h.setThread (t:=c) (v:={k.thread c with waitCalled:=true}) rfl rfl rfl (fun _=>rfl)
  exact h'.setPc _ cur (by simp[Kernel.setThread,at_]) (by simp) (by simp)
 | announce p c cur at_=>exact h.announce cur at_
 | block p c cur at_=>exact h.block cur at_
 | wakeup p c cur at_=>exact h.setPc _ cur (by simp[at_]) (by simp) (by simp)
 | bury p cur at_ wake=>exact h.bury cur at_ wake

/-- The threads exist, none has waited yet, and one of them runs or the CPU is idle. -/
structure Started (k:Kernel):Prop where
 nodup:k.allList.Nodup
 nonzero:0∉k.allList
 listed:∀t,t∉k.allList → (k.thread t).status=.dying ∧ k.pc t=.gone
 awake:∀t∈k.allList,k.pc t=.user ∧ (k.thread t).status≠.blocked
 current:∀t,k.running=some t ↔ (k.thread t).status=.running
 fresh:∀t∈k.allList,(k.thread t).waitCalled=false ∧ (k.thread t).waitingThread=0
 unrecorded:∀t,k.recorded t=none
 unfreed:∀t,k.freed t=false
 quiet:k.returns=[]

lemma Started.pc (h:Started k)(t:ℕ):k.pc t=.user ∨ k.pc t=.gone:=by
 by_cases ht:t∈k.allList
 · exact .inl (h.awake t ht).1
 · exact .inr (h.listed t ht).2

lemma Started.inv (h:Started k):Inv k:=by
 refine ⟨h.nodup,h.nonzero,?_,h.current,?_,?_,?_,fun d _=>h.unrecorded d,?_,?_⟩
 · intro t ht
   by_contra hm
   exact ht (h.listed t hm).1
 · intro t ht
   by_cases hm:t∈k.allList
   · exact absurd ht (h.awake t hm).2
   · rw[(h.listed t hm).1] at ht
     cases ht
 · intro d hd hz
   exact absurd (h.fresh d hd).2 hz
 · intro w d hw
   rcases h.pc w with he|he<;>rw[he] at hw<;>cases hw
 · intro d hd
   rw[h.unfreed d] at hd
   cases hd
 · intro t d ht
   rcases h.pc t with he|he<;>rw[he] at ht<;>cases ht

lemma Runs.inv {guard:Kernel→Act→Prop}{u:Kernel}{as:List Act}
 (h:ExecRuns.Runs WaitExit.next guard k as u)(start:Started k):Inv u:=
 h.invariant (fun _ _ _ hi _ hs=>hi.next hs) start.inv

def parentAndChild:Kernel where
 thread t:=⟨if t=3 then .running else if t=4 then .ready else .dying,false,0,0,0⟩
 pc t:=if t=3 ∨ t=4 then .user else .gone
 allList:=[3,4]
 running:=some 3
 freed _:=false
 initialThread:=1
 mapped _ _:=false
 recorded _:=none
 returns:=[]

lemma parentAndChild_started:Started parentAndChild where
 nodup:=by decide
 nonzero:=by decide
 listed t ht:=by
  obtain ⟨h3,h4⟩:t≠3 ∧ t≠4:=by simpa[parentAndChild] using ht
  simp[parentAndChild,h3,h4]
 awake:=by decide
 current t:=by
  by_cases h3:t=3
  · simp[parentAndChild,h3]
  · by_cases h4:t=4<;>simp[parentAndChild,h3,h4,Ne.symm h3]
 fresh:=by decide
 unrecorded _:=rfl
 unfreed _:=rfl
 quiet:=rfl

end Pintos.WaitExit
