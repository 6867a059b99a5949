import Pintos.WaitExitInvariant

namespace Pintos.WaitExit
open ExecRuns Kernel
open Function (update update_self update_of_ne)

/-- `x` has passed the test of `process_wait` on `d` and can still be preempted. -/
def InWindow (k:Kernel)(x d:ℕ):Prop:=k.pc x=.checked d ∨ k.pc x=.claimed d ∨ k.pc x=.announced d

/-- Nobody leaves `all_list` while a `process_wait` on it is in its window. The
page of `initial_thread` is not poisoned when it exits, so for that thread the
window opens with `get_thread`. -/
def ExitsClear (k:Kernel)(a:Act):Prop:=
 ∀d,a=.step → k.running=some d → k.pc d=.exiting →
  ∀x,¬InWindow k x d ∧ (d=k.initialThread → k.pc x≠.found d)

/-- Only `p` calls `process_wait` on `c`; other threads wait for other threads. -/
def SoleWaiter (p c:ℕ)(k:Kernel)(a:Act):Prop:=a=.wait c ∨ a=.processWait c → k.running=some p

/-- The next statement stores into a `struct thread` whose page was freed. -/
def WritesFreed (k:Kernel)(a:Act):Prop:=
 a=.step ∧ ∃p c,k.running=some p ∧ (k.pc p=.checked c ∨ k.pc p=.claimed c) ∧ k.freed c=true

/-- `p` sleeps in `process_wait` for a thread that can no longer wake it. -/
def LostWakeup (k:Kernel)(p c:ℕ):Prop:=
 k.pc p=.waiting c ∧ (k.thread p).status=.blocked ∧ c∉k.allList

def WindowsLive (k:Kernel):Prop:=
 ∀x d,InWindow k x d ∨ (k.pc x=.found d ∧ d=k.initialThread) → d∈k.allList

/-- A place at which `process_wait` on `c` has begun. -/
def Engaged (c:ℕ)(pc:Pc):Prop:=
 pc=.found c ∨ pc=.checked c ∨ pc=.claimed c ∨ pc=.announced c ∨ pc=.waiting c

structure Attended (p c:ℕ)(k:Kernel):Prop where
 alone:∀x,x≠p → ¬Engaged c (k.pc x)
 announced:k.pc p=.announced c → (k.thread c).waitingThread=p
 asleep:k.pc p=.waiting c → (k.thread p).status=.blocked →
  c∈k.allList ∧ (k.thread c).waitingThread=p

variable {k:Kernel}

lemma WindowsLive.setPc {k':Kernel}(h:WindowsLive k)(hpc:k'.pc=k.pc)
 (hl:k'.allList=k.allList)(hini:k'.initialThread=k.initialThread)(p:ℕ)(pc:Pc)
 (hin:∀d,(pc=.checked d ∨ pc=.claimed d ∨ pc=.announced d ∨ pc=.found d) →
  d∈k.allList):WindowsLive (k'.setPc p pc):=by
 intro x d hx
 change d∈k'.allList
 rw[hl]
 by_cases hxp:x=p
 · subst hxp
   apply hin
   simp only[InWindow,Kernel.setPc,update_self] at hx
   tauto
 · apply h x d
   simpa only[InWindow,Kernel.setPc,update_of_ne hxp,hpc,hini] using hx

variable {u:Kernel}{a:Act}

lemma WindowsLive.next (hi:Inv k)(h:WindowsLive k)(clear:ExitsClear k a)
 (hs:next k a=some u):WindowsLive u:=by
 cases next_move hi.nodup hs with
 | dispatch p idle ready | preempt p cur on=>exact h
 | refused p pid cur at_ bad | exit p status cur at_=>exact h.setPc rfl rfl rfl p .exiting (by simp)
 | missing _ p c call cur at_ dead=>exact h.setPc rfl rfl rfl p .user (by simp)
 | lookup _ p c call cur at_ live=>exact h.setPc rfl rfl rfl p (.found c) (by simp[live])
 | threadExit p cur at_=>exact h.setPc rfl rfl rfl p .exiting (by simp)
 | denied p c cur at_ called=>exact h.setPc rfl rfl rfl p .user (by simp)
 | check p c cur at_ called=>
  have hc:c∈k.allList:=by
   rcases hi.looked p c at_ with hm|hf|hini
   · exact hm
   · rw[(hi.poison c hf).2] at called
     cases called
   · exact h p c (.inr ⟨at_,hini⟩)
  exact h.setPc rfl rfl rfl p (.checked c) (by simp[hc])
 | claim p c cur at_=>
  have hc:c∈k.allList:=h p c (.inl (.inl at_))
  exact h.setPc rfl rfl rfl p (.claimed c) (by simp[hc])
 | announce p c cur at_=>
  have hc:c∈k.allList:=h p c (.inl (.inr (.inl at_)))
  exact h.setPc rfl rfl rfl p (.announced c) (by simp[hc])
 | block p c cur at_=>exact h.setPc rfl rfl rfl p (.waiting c) (by simp)
 | wakeup p c cur at_=>exact h.setPc rfl rfl rfl p .user (by simp)
 | bury p cur at_ wake=>
  intro x d hx
  have hne:x≠p:=by
   rintro rfl
   simp[InWindow] at hx
  have hx':InWindow k x d ∨ (k.pc x=.found d ∧ d=k.initialThread):=by
   simpa[InWindow,hne] using hx
  have hd:d≠p:=by
   rintro rfl
   obtain ⟨hwin,hini⟩:=clear d rfl cur at_ x
   rcases hx' with hw|⟨hf,he⟩
   · exact hwin hw
   · exact hini he hf
  rw[buried_allList]
  exact (List.mem_erase_of_ne hd).2 (h x d hx')

variable {p c q:ℕ}

lemma Attended.moved (h:Attended p c k){pc:Pc}(hpc:u.pc=update k.pc q pc)
 (hlist:u.allList=k.allList)(hstatus:∀t,(u.thread t).status=(k.thread t).status)
 (hwaiter:q≠p → (u.thread c).waitingThread=(k.thread c).waitingThread)
 (hother:q≠p → ¬Engaged c pc)(hawake:pc≠.waiting c)
 (hself:q=p → pc=.announced c → (u.thread c).waitingThread=p):Attended p c u:=by
 refine ⟨?_,?_,?_⟩
 · intro x hx
   rw[hpc]
   by_cases hq:x=q
   · subst hq
     simpa using hother hx
   · rw[update_of_ne hq]
     exact h.alone x hx
 · intro hp
   rw[hpc] at hp
   by_cases hq:q=p
   · subst hq
     exact hself rfl (by simpa using hp)
   · rw[update_of_ne (Ne.symm hq)] at hp
     rw[hwaiter hq]
     exact h.announced hp
 · intro hp hb
   rw[hpc] at hp
   by_cases hq:q=p
   · subst hq
     exact absurd (by simpa using hp) hawake
   · rw[update_of_ne (Ne.symm hq)] at hp
     rw[hwaiter hq,hlist]
     exact h.asleep hp (by rwa[hstatus] at hb)

lemma setThread_status {t:ℕ}{v:Thread}(h:v.status=(k.thread t).status)(u:ℕ):
 ((k.setThread t v).thread u).status=(k.thread u).status:=by
 by_cases hu:u=t
 · subst hu;simpa[setThread] using h
 · simp[setThread,hu]

lemma setThread_waitingThread {t:ℕ}{v:Thread}(h:v.waitingThread=(k.thread t).waitingThread)(u:ℕ):
 ((k.setThread t v).thread u).waitingThread=(k.thread u).waitingThread:=by
 by_cases hu:u=t
 · subst hu;simpa[setThread] using h
 · simp[setThread,hu]

lemma exit_frame (k:Kernel)(q:ℕ)(status:ℤ)(t:ℕ):
 ((exit k q status).thread t).status=(k.thread t).status ∧
  ((exit k q status).thread t).waitingThread=(k.thread t).waitingThread:=
 ⟨setThread_status (k:=k) (v:={k.thread q with exitStatus:=status}) rfl t,
  setThread_waitingThread (k:=k) (v:={k.thread q with exitStatus:=status}) rfl t⟩

lemma Attended.blocked (h:Attended p c k)(hl:WindowsLive k){d:ℕ}
 (at_:k.pc q=.announced d):Attended p c ((threadBlock k q).setPc q (.waiting d)):=by
 have hpc:((threadBlock k q).setPc q (.waiting d)).pc=update k.pc q (.waiting d):=rfl
 have hwaiter:∀t,((threadBlock k q).thread t).waitingThread=(k.thread t).waitingThread:=
  setThread_waitingThread rfl
 refine ⟨?_,?_,?_⟩
 · intro x hx
   rw[hpc]
   by_cases hq:x=q
   · subst hq
     have hd:d≠c:=fun he=>h.alone x hx (by simp[Engaged,at_,he])
     simp[Engaged,hd]
   · rw[update_of_ne hq]
     exact h.alone x hx
 · intro hp
   rw[hpc] at hp
   have hq:p≠q:=by
    rintro rfl
    simp at hp
   rw[update_of_ne hq] at hp
   exact (hwaiter c).trans (h.announced hp)
 · intro hp hb
   rw[hpc] at hp
   by_cases hq:p=q
   · subst hq
     obtain rfl:d=c:=by simpa using hp
     exact ⟨hl p d (.inl (.inr (.inr at_))),(hwaiter d).trans (h.announced at_)⟩
   · rw[update_of_ne hq] at hp
     have hs:(k.thread p).status=.blocked:=by
      simpa[threadBlock,setThread,Kernel.setPc,hq] using hb
     exact ⟨(h.asleep hp hs).1,(hwaiter c).trans (h.asleep hp hs).2⟩

lemma Attended.rescheduled (h:Attended p c k){status:ThreadStatus}{running:Option ℕ}
 (to_:status≠.blocked):
 Attended p c
  { k.setThread q {k.thread q with status:=status} with running:=running}:=by
 have hwaiter:∀t,((k.setThread q {k.thread q with status:=status}).thread t).waitingThread
   = (k.thread t).waitingThread:=setThread_waitingThread rfl
 refine ⟨h.alone,fun hp=>(hwaiter c).trans (h.announced hp),?_⟩
 intro hp hb
 have hs:(k.thread p).status=.blocked:=by
  by_cases hq:p=q
  · subst hq
    exact absurd (by simpa[setThread] using hb) to_
  · simpa[setThread,hq] using hb
 exact ⟨(h.asleep hp hs).1,(hwaiter c).trans (h.asleep hp hs).2⟩

lemma Attended.buried (h:Attended p c k)(hi:Inv k)(cur:k.running=some q)
 (wake:Wakeable k q)(clear:∀x,¬InWindow k x q):Attended p c (buried k q):=by
 have hq:=hi.running_listed cur
 refine ⟨?_,?_,?_⟩
 · intro x hx
   rw[buried_pc]
   by_cases he:x=q
   · subst he
     simp[Engaged]
   · rw[update_of_ne he]
     exact h.alone x hx
 · intro hp
   have hpq:p≠q:=by
    rintro rfl
    simp at hp
   rw[buried_pc,update_of_ne hpq] at hp
   have hcq:c≠q:=fun he=>clear p (.inr (.inr (he▸hp)))
   rw[buried_thread_of_ne k q hcq]
   exact (wokenThreads_waitingThread k q c).1.trans (h.announced hp)
 · intro hp hb
   have hpq:p≠q:=by
    rintro rfl
    simp at hp
   rw[buried_pc,update_of_ne hpq] at hp
   rcases hi.buried_other hq wake hpq with he|⟨-,-,-,he⟩
   · rw[he] at hb
     obtain ⟨hc,hw⟩:=h.asleep hp hb
     have hp0:p≠0:=fun h0=>hi.nonzero (h0▸hi.listed p (by rw[hb];simp))
     have hcq:c≠q:=by
      rintro rfl
      have:=wokenThreads_waiter k c (by rw[hw];exact hp0)
      rw[buried_thread_of_ne k c hpq] at he
      rw[hw,he] at this
      rw[this] at hb
      cases hb
     rw[buried_allList,buried_thread_of_ne k q hcq]
     exact ⟨(List.mem_erase_of_ne hcq).2 hc,(wokenThreads_waitingThread k q c).1.trans hw⟩
   · rw[he] at hb
     cases hb

lemma Attended.next (h:Attended p c k)(hi:Inv k)(hl:WindowsLive k)
 (clear:ExitsClear k a)(sole:SoleWaiter p c k a)(hs:next k a=some u):
 Attended p c u:=by
 cases next_move hi.nodup hs with
 | dispatch q idle ready | preempt q cur on=>exact h.rescheduled (by simp)
 | refused q pid cur at_ bad=>
  exact h.moved (q:=q) rfl rfl (fun t=>(exit_frame k q _ t).1)
   (fun _=>(exit_frame k q _ c).2) (by simp[Engaged]) (by simp) (by simp)
 | exit q status cur at_=>
  exact h.moved (q:=q) rfl rfl (fun t=>(exit_frame k q _ t).1)
   (fun _=>(exit_frame k q _ c).2) (by simp[Engaged]) (by simp) (by simp)
 | missing _ q d call cur at_ dead=>
  exact h.moved (q:=q) rfl rfl (fun _=>rfl) (fun _=>rfl) (by simp[Engaged]) (by simp) (by simp)
 | lookup _ q d call cur at_ live=>
  refine h.moved (q:=q) rfl rfl (fun _=>rfl) (fun _=>rfl) ?_ (by simp) (by simp)
  intro hq
  have hd:d≠c:=by
   rintro rfl
   rw[sole (call.imp_left And.left)] at cur
   exact hq (Option.some.inj cur).symm
  simp[Engaged,hd]
 | threadExit q cur at_=>
  exact h.moved (q:=q) rfl rfl (fun _=>rfl) (fun _=>rfl) (by simp[Engaged]) (by simp) (by simp)
 | denied q d cur at_ called=>
  exact h.moved (q:=q) rfl rfl (fun _=>rfl) (fun _=>rfl) (by simp[Engaged]) (by simp) (by simp)
 | check q d cur at_ called=>
  refine h.moved (q:=q) rfl rfl (fun _=>rfl) (fun _=>rfl) ?_ (by simp) (by simp)
  intro hq
  have hd:=h.alone q hq
  simpa[Engaged,at_] using hd
 | claim q d cur at_=>
  have hwaiter:=setThread_waitingThread (k:=k) (t:=d) (v:={k.thread d with waitCalled:=true}) rfl c
  refine h.moved (q:=q) rfl rfl (setThread_status rfl) (fun _=>hwaiter) ?_ (by simp) (by simp)
  intro hq
  have hd:=h.alone q hq
  simpa[Engaged,at_] using hd
 | announce q d cur at_=>
  have hd:q≠p → d≠c:=by
   intro hq he
   exact h.alone q hq (by simp[Engaged,at_,he])
  refine h.moved (q:=q) rfl rfl (setThread_status rfl) ?_ ?_ (by simp) ?_
  · intro hq
    simp[setThread,Kernel.setPc,Ne.symm (hd hq)]
  · intro hq
    simpa[Engaged] using hd hq
  · rintro rfl hc
    obtain rfl:d=c:=by simpa using hc
    simp[setThread,Kernel.setPc]
 | block q d cur at_=>exact h.blocked hl at_
 | wakeup q d cur at_=>
  exact h.moved (q:=q) rfl rfl (fun _=>rfl) (fun _=>rfl) (by simp[Engaged]) (by simp) (by simp)
 | bury q cur at_ wake=>
  exact h.buried hi cur wake (fun x=>(clear q rfl cur at_ x).1)

lemma perform_no_panic (hi:Inv k)(clear:ExitsClear k a)(e:Assertion):perform k a≠.panic e:=by
 intro hp
 unfold perform at hp
 cases cur:k.running with
 | none=>
  rw[cur] at hp
  cases a with
  | dispatch p=>
   simp only[act] at hp
   split at hp<;>cases hp
  | _=>simp[act] at hp
 | some p=>
  rw[cur] at hp
  cases a with
  | dispatch q=>simp[act] at hp
  | preempt | wait pid | processWait tid | exit status | threadExit=>
   simp only[act] at hp
   split at hp<;>cases hp
  | step=>
   simp only[act,statement] at hp
   cases at_:k.pc p with
   | found c=>
    simp only[at_] at hp
    split at hp<;>cases hp
   | user | gone | checked | claimed | announced | waiting=>simp[at_] at hp
   | exiting=>
    have wake:Wakeable k p:=by
     by_cases hz:(k.thread p).waitingThread=0
     · exact .inl hz
     obtain ⟨hm,hw⟩:=hi.registered p (hi.running_listed cur) hz
     right
     rcases hw with hw|⟨hw,hb⟩
     · exact absurd (.inr (.inr hw)) (clear p rfl cur at_ _).1
     · have hne:(k.thread p).waitingThread≠p:=by
        intro he
        rw[he,at_] at hw
        cases hw
       exact ⟨(List.mem_erase_of_ne hne).2 hm,hb⟩
    simp[at_,threadExit_ok hi.nodup wake] at hp

/-- In every run in which nobody exits while a `process_wait` on it is in its
window, no `ASSERT` of `thread_unblock` fails, no freed page is written, and
the sole waiter of a thread never sleeps past that thread's exit. -/
theorem waitExit_safe {p c:ℕ}{k u:Kernel}{as:List Act}(start:Started k)
 (h:Runs next (fun k a=>ExitsClear k a ∧ SoleWaiter p c k a) k as u):
 (∀a e,ExitsClear u a → perform u a≠.panic e) ∧ (∀a,¬WritesFreed u a) ∧ ¬LostWakeup u p c:=by
 have hall:Inv u ∧ WindowsLive u ∧ Attended p c u:=by
  refine h.invariant (I:=fun k=>Inv k ∧ WindowsLive k ∧ Attended p c k) ?_ ?_
  · rintro k a v ⟨hi,hl,ha⟩ ⟨clear,sole⟩ hs
    exact ⟨hi.next hs,hl.next hi clear hs,ha.next hi hl clear sole hs⟩
  · have hpc:∀t,k.pc t=.user ∨ k.pc t=.gone:=by
     intro t
     by_cases ht:t∈k.allList
     · exact .inl (start.awake t ht).1
     · exact .inr (start.listed t ht).2
    refine ⟨start.inv,?_,?_,?_,?_⟩
    · intro x d hx
      rcases hpc x with he|he<;>simp[InWindow,he] at hx
    · intro x _ hx
      rcases hpc x with he|he<;>simp[Engaged,he] at hx
    · intro hp
      rcases hpc p with he|he<;>simp[he] at hp
    · intro hp
      rcases hpc p with he|he<;>simp[he] at hp
 obtain ⟨hi,hl,ha⟩:=hall
 refine ⟨fun a e clear=>perform_no_panic hi clear e,?_,?_⟩
 · rintro a ⟨-,q,d,-,hpc,hf⟩
   have hd:d∈u.allList:=hl q d (.inl (hpc.elim .inl (fun hc=>.inr (.inl hc))))
   exact (hi.poison d hf).1 hd
 · rintro ⟨hw,hb,hm⟩
   exact hm (ha.asleep hw hb).1

lemma clear_of_pc (cur:k.running=some q)(h:k.pc q≠.exiting):
 ExitsClear k .step ∧ SoleWaiter p c k .step:=by
 refine ⟨?_,fun h=>by simp at h⟩
 intro d _ hd he
 rw[cur] at hd
 exact absurd (Option.some.inj hd▸he) h

lemma clear_of_ne (h:a≠.step)(hw:a≠.wait c)(hp:a≠.processWait c):
 ExitsClear k a ∧ SoleWaiter p c k a:=
 ⟨fun _ ha=>absurd ha h,fun ha=>ha.elim (absurd · hw) (absurd · hp)⟩

theorem waitExit_safe_handshake:∃as u,Started parentAndChild ∧
 Runs next (fun k a=>ExitsClear k a ∧ SoleWaiter 3 4 k a) parentAndChild as u ∧
 u.returns=[(3,4,57)] ∧ (∀a,¬WritesFreed u a) ∧ ¬LostWakeup u 3 4:=by
 have run:∃u,Runs next (fun k a=>ExitsClear k a ∧ SoleWaiter 3 4 k a) parentAndChild
   [.wait 4,.step,.step,.step,.step,.dispatch 4,.exit 57,.step,.dispatch 3,.step] u ∧
   u.returns=[(3,4,57)]:=
  ⟨_,.cons ⟨fun _ h=>by simp at h,fun _=>rfl⟩ rfl <|
   .cons (clear_of_pc (q:=3) rfl (by decide)) rfl <|
   .cons (clear_of_pc (q:=3) rfl (by decide)) rfl <|
   .cons (clear_of_pc (q:=3) rfl (by decide)) rfl <|
   .cons (clear_of_pc (q:=3) rfl (by decide)) rfl <|
   .cons (clear_of_ne (by decide) (by decide) (by decide)) rfl <|
   .cons (clear_of_ne (by decide) (by decide) (by decide)) rfl <|
   .cons ⟨fun d _ hd _ x=>by
     obtain rfl:4=d:=Option.some.inj hd
     by_cases h3:x=3<;>by_cases h4:x=4 <;>
      simp[InWindow,h3,h4,exit,schedule,threadBlock,Kernel.setPc,setThread,
       wait,Refused,processWait,getThread,physBase,parentAndChild],
    fun h=>by simp at h⟩ rfl <|
   .cons (clear_of_ne (by decide) (by decide) (by decide)) rfl <|
   .cons (clear_of_pc (q:=3) rfl (by decide)) rfl (.nil _),rfl⟩
 obtain ⟨u,h,hr⟩:=run
 exact ⟨_,u,parentAndChild_started,h,hr,(waitExit_safe parentAndChild_started h).2⟩

/-- Preempted after it has announced itself, the parent is ready, not blocked,
when the child's exit wants to unblock it. -/
theorem preempted_waiter_panics:∃as u,Started parentAndChild ∧
 Runs next (SoleWaiter 3 4) parentAndChild as u ∧ perform u .step=.panic .statusBlocked:=
 ⟨[.wait 4,.step,.step,.step,.preempt,.dispatch 4,.exit 0],_,parentAndChild_started,
  .cons (fun _=>rfl) rfl <| .cons (fun h=>by simp at h) rfl <|
   .cons (fun h=>by simp at h) rfl <| .cons (fun h=>by simp at h) rfl <|
   .cons (fun h=>by simp at h) rfl <| .cons (fun h=>by simp at h) rfl <|
   .cons (fun h=>by simp at h) rfl (.nil _),rfl⟩

end Pintos.WaitExit
