import Mathlib.Data.List.Count
import Pintos.ThreadsRuns

/-!
# Semaphores

What every action of the scheduler is to the semaphores, and from it how `value`, `waiters` and
the threads inside `sema_down` go together in every run.
-/
namespace Pintos.Threads
open ExecRuns Function List

/-- `down` is a completed one; in `sleep` the running thread goes on `waiters`. -/
inductive Event where
 | quiet
 | up (s:ℕ)
 | down (s:ℕ)
 | sleep (s:ℕ)
 deriving DecidableEq,Repr

section
variable (k:Kernel)

def turn (s:ℕ):Event:=if (k.sema s).value=0 then .sleep s else .down s

def event:Act→Event
 | .semaUp s=>.up s
 | .semaDown s=>turn k s
 | .semaTryDown s=>if (k.sema s).value=0 then .quiet else .down s
 | .step=>
  match (k.thread k.current).waiting,(k.thread k.current).stage with
  | some s,_=>turn k s
  | none,.allocating _=>turn k tidLock
  | none,.starting=>turn k idleStarted
  | none,.releasing _=>.up tidLock
  | none,.idleUp=>.up idleStarted
  | none,_=>.quiet
 | _=>.quiet

def Event.semas:Event→ℕ→Semaphore
 | .quiet=>k.sema
 | .up s=>update k.sema s ⟨((k.sema s).value+1)%2^32,(k.sema s).waiters.tail⟩
 | .down s=>update k.sema s {k.sema s with value:=(k.sema s).value-1}
 | .sleep s=>update k.sema s {k.sema s with waiters:=(k.sema s).waiters++[k.current]}

/-- The semaphore in whose `sema_down` the running thread is after an event. -/
def Event.waits:Event→Option ℕ→Option ℕ
 | .down _,_=>none
 | .sleep s,_=>some s
 | _,w=>w

def wants (s:ℕ):ℕ:=k.allList.countP (fun t=>(k.thread t).waiting=some s)

/-- Those of them that `sema_up` has unblocked. -/
def woken (s:ℕ):List ℕ:=
 k.allList.filter (fun t=>(k.thread t).waiting=some s ∧ t∉(k.sema s).waiters)

def occurs (e:Event):Kernel→List Act→ℕ
 | _,[]=>0
 | k,a::as=>
  (if event k a=e then 1 else 0)+((next k a).map (fun k'=>occurs e k' as)).getD 0

end

section
variable {k k':Kernel}{e:Event}{a:Act}{s t:ℕ}

/-- `e` is all that happens to the semaphores and to where threads wait. -/
structure Affects (k k':Kernel)(e:Event):Prop where
 sema:k'.sema=e.semas k
 current:(k'.thread k.current).waiting=e.waits (k.thread k.current).waiting
 others:∀t∈k.allList,t≠k.current → (k'.thread t).waiting=(k.thread t).waiting
 fresh:∀t∈k'.allList,t∉k.allList → (k'.thread t).waiting=none
 leaves:k.current∉k'.allList → (k'.thread k.current).waiting=none ∧
  (k.thread k.current).waiting=none

lemma turn_eq_down (h:turn k s=.down t):s=t ∧ 0<(k.sema s).value:=by
 unfold turn at h
 split at h
 · cases h
 · cases h
   exact ⟨rfl,by omega⟩

lemma turn_eq_sleep (h:turn k s=.sleep t):s=t ∧ (k.sema s).value=0:=by
 unfold turn at h
 split at h
 · cases h
   exact ⟨rfl,by assumption⟩
 · cases h

lemma turn_of_step (h:event k .step=.down s ∨ event k .step=.sleep s):turn k s=event k .step ∧
  ((k.thread k.current).waiting=none ∨ (k.thread k.current).waiting=some s):=by
 have own:∀u,event k .step=turn k u → u=s:=by
  intro u hu
  rw[hu] at h
  rcases h with h|h
  · exact (turn_eq_down h).1
  · exact (turn_eq_sleep h).1
 cases hw:(k.thread k.current).waiting with
 | some u=>
  have hu:event k .step=turn k u:=by simp[event,hw]
  obtain rfl:=own u hu
  exact ⟨hu.symm,.inr rfl⟩
 | none=>
  refine ⟨?_,.inl rfl⟩
  cases hs:(k.thread k.current).stage
  case allocating _=>
   have hu:event k .step=turn k tidLock:=by simp[event,hw,hs]
   obtain rfl:=own _ hu
   exact hu.symm
  case starting=>
   have hu:event k .step=turn k idleStarted:=by simp[event,hw,hs]
   obtain rfl:=own _ hu
   exact hu.symm
  all_goals
   have hq:event k .step≠.down s ∧ event k .step≠.sleep s:=by simp[event,hw,hs]
   exact absurd h (by simp[hq])

lemma event_down (enabled:Enabled k a)(h:event k a=.down s):0<(k.sema s).value ∧
 ((k.thread k.current).waiting=none ∨ (k.thread k.current).waiting=some s):=by
 cases a with
 | semaDown u=>
  obtain ⟨rfl,pos⟩:=turn_eq_down h
  exact ⟨pos,.inl enabled.1⟩
 | semaTryDown u=>
  change (if (k.sema u).value=0 then Event.quiet else .down u)=.down s at h
  split at h
  · cases h
  · cases h
    exact ⟨by omega,.inl enabled.1⟩
 | step=>
  obtain ⟨ht,hw⟩:=turn_of_step (.inl h)
  exact ⟨(turn_eq_down (ht.trans h)).2,hw⟩
 | _=>cases h

lemma event_sleep (enabled:Enabled k a)(h:event k a=.sleep s):(k.sema s).value=0 ∧
  ((k.thread k.current).waiting=none ∨ (k.thread k.current).waiting=some s):=by
 cases a with
 | semaDown u=>
  obtain ⟨rfl,zero⟩:=turn_eq_sleep h
  exact ⟨zero,.inl enabled.1⟩
 | semaTryDown u=>
  change (if (k.sema u).value=0 then Event.quiet else .down u)=.sleep s at h
  split at h<;>cases h
 | step=>
  obtain ⟨ht,hw⟩:=turn_of_step (.inr h)
  exact ⟨(turn_eq_sleep (ht.trans h)).2,hw⟩
 | _=>cases h

end

section
variable {k k' mid:Kernel}{a:Act}{s t:ℕ}

structure Still (k k':Kernel):Prop where
 sema:k'.sema=k.sema
 all:k'.allList=k.allList
 waiting:∀t,(k'.thread t).waiting=(k.thread t).waiting

lemma Still.refl (k:Kernel):Still k k:=⟨rfl,rfl,fun _=>rfl⟩
lemma Still.trans (h:Still k mid)(h':Still mid k'):Still k k':=
 ⟨h'.sema.trans h.sema,h'.all.trans h.all,fun t=>(h'.waiting t).trans (h.waiting t)⟩

lemma still_setThread {v:Thread}(h:v.waiting=(k.thread t).waiting):Still k (k.setThread t v):=by
 refine ⟨rfl,rfl,fun u=>?_⟩
 change (update k.thread t v u).waiting=_
 by_cases hu:u=t
 · rw[hu,update_self,h]
 · rw[update_of_ne hu]

lemma still_setStage (b:Stage)(p:ℕ):Still k (k.setStage p b):=still_setThread rfl

lemma Affects.still {e:Event}(h:Affects k mid e)(h':Still mid k'):Affects k k' e:=by
 refine ⟨h'.sema.trans h.sema,(h'.waiting _).trans h.current,
  fun t ht hc=>(h'.waiting t).trans (h.others t ht hc),fun t ht hn=>?_,fun hn=>?_⟩
 · rw[h'.waiting]
   exact h.fresh t (h'.all▸ht) hn
 · rw[h'.waiting]
   exact h.leaves (h'.all▸hn)

lemma Still.affects (h:Still k k')(inv:Inv (some k.current) k):Affects k k' .quiet:=by
 refine ⟨h.sema,h.waiting _,fun t _ _=>h.waiting t,fun t ht hn=>?_,fun hn=>?_⟩
 · exact absurd (h.all▸ht) hn
 · exact absurd (h.all.symm▸inv.busy _ rfl) hn

/-- `schedule` may in addition destroy the thread that it switches away from. -/
structure Rests (k k':Kernel):Prop where
 sema:k'.sema=k.sema
 all:k'.allList=k.allList
 waiting:∀t,(k'.thread t).waiting=(k.thread t).waiting ∨
  ((k.thread t).status=.dying ∧ (k'.thread t).waiting=none)

lemma Still.rests (h:Still k k'):Rests k k':=⟨h.sema,h.all,fun t=>.inl (h.waiting t)⟩

lemma threadScheduleTail_rests {prev:Option ℕ}(h:threadScheduleTail k prev=.ok k'):Rests k k':=by
 have run:Still k (k.setStatus k.current .running):=still_setThread rfl
 have resumed:Still k (resumed k):=⟨rfl,rfl,run.waiting⟩
 unfold threadScheduleTail at h
 cases prev with
 | none=>
  cases h
  exact resumed.rests
 | some p=>
  dsimp only at h
  split at h
  · rename_i dies
    split at h
    · cases h
    · rename_i apart
      cases h
      refine ⟨rfl,rfl,fun u=>?_⟩
      change (update (Threads.resumed k).thread p poisoned u).waiting=_ ∨ _ ∧
       (update (Threads.resumed k).thread p poisoned u).waiting=none
      by_cases hu:u=p
      · subst hu
        rw[update_self]
        refine .inr ⟨?_,rfl⟩
        have same:(Threads.resumed k).thread u=k.thread u:=update_of_ne apart _ _
        exact same▸dies.1
      · rw[update_of_ne hu]
        exact resumed.rests.waiting u
  · cases h
    exact resumed.rests

lemma schedule_rests (h:schedule k=.ok k'):Rests k k':=by
 unfold schedule at h
 rw[nextThreadToRun_eq] at h
 dsimp only at h
 split at h
 · cases h
 · cases ht:chosen k with
   | none=>simp[ht] at h
   | some t=>
    rw[ht] at h
    dsimp only at h
    split at h
    · cases h
    · have rests:=threadScheduleTail_rests h
      exact ⟨rests.sema,rests.all,rests.waiting⟩

section
variable (inv:Inv (some k.current) k)
include inv

lemma schedule_moves {v:Thread}(thread:mid.thread=update k.thread k.current v)
 (own:v.status≠.dying ∨ v.waiting=none)(h:schedule mid=.ok k'):
 k'.sema=mid.sema ∧ k'.allList=mid.allList ∧ (k'.thread k.current).waiting=v.waiting ∧
  ∀t∈k.allList,t≠k.current → (k'.thread t).waiting=(k.thread t).waiting:=by
 have rests:=schedule_rests h
 refine ⟨rests.sema,rests.all,?_,fun t ht hc=>?_⟩
 · have:=rests.waiting k.current
   rw[thread,update_self] at this
   rcases this with same|⟨dying,none⟩
   · exact same
   · rw[none,own.resolve_left (not_not.2 dying)]
 · have:=rests.waiting t
   rw[thread,update_of_ne hc] at this
   exact this.resolve_right fun dying=>inv.alive t ht dying.1

lemma schedule_affects {v:Thread}{e:Event}
 (h:schedule mid=.ok k')(thread:mid.thread=update k.thread k.current v)
 (alive:v.status≠.dying)(sema:mid.sema=e.semas k)(all:mid.allList=k.allList)
 (waits:v.waiting=e.waits (k.thread k.current).waiting):Affects k k' e:=by
 obtain ⟨hs,ha,own,others⟩:=schedule_moves inv thread (.inl alive) h
 refine ⟨hs.trans sema,own.trans waits,others,fun t ht hn=>?_,fun hn=>?_⟩
 · rw[ha,all] at ht
   exact absurd ht hn
 · rw[ha,all] at hn
   exact absurd (inv.busy _ rfl) hn

lemma threadBlock_affects (h:threadBlock k=.ok k'):Affects k k' .quiet:=by
 unfold threadBlock at h
 rw[threadCurrent_eq inv] at h
 exact schedule_affects (v:={k.thread k.current with status:=.blocked}) inv h rfl (by simp)
  rfl rfl rfl

lemma threadYield_affects (h:threadYield k=.ok k'):Affects k k' .quiet:=by
 unfold threadYield at h
 rw[threadCurrent_eq inv] at h
 let pushed:=if k.idleThread=some k.current then k else k.pushReady k.current
 have same:pushed.thread=k.thread ∧ pushed.sema=k.sema ∧ pushed.allList=k.allList:=by
  unfold pushed
  split<;>exact ⟨rfl,rfl,rfl⟩
 exact schedule_affects (v:={k.thread k.current with status:=.ready}) inv h
  (by rw[←same.1];rfl) (by simp) same.2.1 same.2.2 rfl

lemma threadExit_affects (awake:(k.thread k.current).waiting=none)(h:threadExit k=.ok k'):
 Affects k k' .quiet:=by
 unfold threadExit at h
 rw[threadCurrent_eq inv] at h
 obtain ⟨sema,all,own,others⟩:=
  schedule_moves (v:={k.thread k.current with status:=.dying}) inv rfl (.inr awake) h
 refine ⟨sema,own,others,fun t ht hn=>?_,fun _=>⟨own.trans awake,awake⟩⟩
 rw[all] at ht
 exact absurd (mem_of_mem_erase ht) hn

lemma timerInterrupt_affects (h:timerInterrupt k=.ok k'):Affects k k' .quiet:=by
 rw[timerInterrupt_eq inv] at h
 split at h
 · have yields:=threadYield_affects (k:=ticked k) inv.ticked h
   exact ⟨yields.sema,yields.current,yields.others,yields.fresh,yields.leaves⟩
 · cases h
   exact Still.affects ⟨rfl,rfl,fun _=>rfl⟩ inv

end

lemma threadUnblock_still (h:threadUnblock k t=.ok k'):Still k k':=by
 unfold threadUnblock at h
 split at h
 · cases h
 · split at h
   · cases h
   · cases h
     have ready:Still k (k.setStatus t .ready):=still_setThread rfl
     exact ⟨rfl,rfl,ready.waiting⟩

lemma semaUp_affects (inv:Inv (some k.current) k)(h:semaUp k s=.ok k'):Affects k k' (.up s):=by
 have listed:=inv.busy _ rfl
 unfold semaUp at h
 cases hw:(k.sema s).waiters with
 | nil=>
  rw[hw] at h
  cases h
  refine ⟨?_,rfl,fun _ _ _=>rfl,fun t ht hn=>absurd ht hn,fun hn=>absurd listed hn⟩
  change update k.sema s ⟨_,(k.sema s).waiters⟩=update k.sema s ⟨_,(k.sema s).waiters.tail⟩
  rw[hw]
  rfl
 | cons t rest=>
  rw[hw] at h
  replace h:(threadUnblock (k.setSema s {k.sema s with waiters:=rest}) t >>= fun k=>
   pure (k.setSema s {k.sema s with value:=((k.sema s).value+1)%2^32}))=.ok k':=h
  cases hu:threadUnblock (k.setSema s {k.sema s with waiters:=rest}) t with
  | error=>
   rw[hu] at h
   cases h
  | ok mid=>
   rw[hu] at h
   cases h
   have still:=threadUnblock_still hu
   refine ⟨?_,still.waiting _,fun u _ _=>still.waiting u,fun u hm hn=>?_,fun hn=>?_⟩
   · have sema:mid.sema=update k.sema s ⟨(k.sema s).value,rest⟩:=still.sema
     change update mid.sema s ⟨((mid.sema s).value+1)%2^32,
      (mid.sema s).waiters⟩=update k.sema s ⟨_,(k.sema s).waiters.tail⟩
     rw[sema,hw,update_idem,update_self]
     rfl
   · exact absurd (still.all▸hm) hn
   · exact absurd (still.all.symm▸listed) hn

lemma semaDown_affects (inv:Inv (some k.current) k)(h:semaDown k s=.ok k'):
 Affects k k' (turn k s):=by
 have listed:=inv.busy _ rfl
 unfold semaDown at h
 unfold turn
 split
 · rename_i zero
   rw[if_pos zero,threadCurrent_eq inv] at h
   let waits:=(k.setSema s
    {k.sema s with waiters:=(k.sema s).waiters++[k.current]}).setWaiting k.current (some s)
   have own:waits.thread k.current={k.thread k.current with waiting:=some s}:=update_self ..
   have current:threadCurrent waits=.ok k.current:=by
    refine threadCurrent_ok (k:=waits) ?_ ?_
    · exact (congrArg Thread.magic own).trans (inv.page _ listed).1
    · exact (congrArg Thread.status own).trans inv.status
   replace h:threadBlock waits=.ok k':=h
   unfold threadBlock at h
   rw[current] at h
   refine schedule_affects (e:=.sleep s)
    (v:={k.thread k.current with status:=.blocked,waiting:=some s}) inv h ?_ (by simp)
    rfl rfl rfl
   change update (update k.thread k.current _) k.current
    {waits.thread k.current with status:=.blocked}=_
   rw[update_idem,own]
 · rename_i pos
   rw[if_neg pos] at h
   cases h
   have own:∀v:Thread,update k.thread k.current v k.current=v:=fun v=>
    update_self ..
   refine ⟨rfl,congrArg Thread.waiting (own _),fun t _ hc=>?_,fun t ht hn=>absurd ht hn,
    fun hn=>absurd listed hn⟩
   exact congrArg Thread.waiting (update_of_ne hc _ _)

lemma initThread_affects (inv:Inv (some k.current) k)(free:k.free t=true):
 Affects k (initThread k t) .quiet:=by
 have listed:=inv.busy _ rfl
 have apart:∀u∈k.allList,u≠t:=by
  rintro u hu rfl
  rw[(inv.page u hu).2] at free
  cases free
 have others:∀u∈k.allList,((initThread k t).thread u).waiting=(k.thread u).waiting:=
  fun u hu=>congrArg Thread.waiting (update_of_ne (apart u hu) _ _)
 have own:(initThread k t).thread t=⟨0,.blocked,threadMagic,.fresh,none⟩:=update_self ..
 have grown:(initThread k t).allList=k.allList++[t]:=rfl
 refine ⟨rfl,others _ listed,fun u hu _=>others u hu,fun u hu hn=>?_,fun hn=>?_⟩
 · rw[grown,mem_append,mem_singleton] at hu
   rw[hu.resolve_left hn,own]
 · exact absurd (mem_append_left _ listed) hn

lemma still_allocateTid:Still k (allocateTid k t):=
 ⟨rfl,rfl,(still_setThread (v:={k.thread t with tid:=k.nextTid}) rfl).waiting⟩

section
variable (inv:Inv (some k.current) k)
include inv

lemma semaUp_setStage_affects {b:Stage}{p:ℕ}
 (h:(semaUp k s >>= fun k=>pure (k.setStage p b))=.ok k'):Affects k k' (.up s):=by
 cases hu:semaUp k s with
 | error=>
  rw[hu] at h
  cases h
 | ok mid=>
  rw[hu] at h
  cases h
  exact (semaUp_affects inv hu).still (still_setStage b p)

lemma statement_affects (h:statement k=.ok k'):Affects k k' (event k .step):=by
 cases hw:(k.thread k.current).waiting with
 | some s=>
  simp only[statement,hw] at h
  simp only[event,hw]
  exact semaDown_affects inv h
 | none=>
  cases hs:(k.thread k.current).stage<;>simp only[statement,hw,hs] at h <;>
   simp only[event,hw,hs]
  case allocating t=>exact semaDown_affects inv h
  case starting=>exact semaDown_affects inv h
  case releasing t=>exact semaUp_setStage_affects inv h
  case idleUp=>exact semaUp_setStage_affects inv h
  case idleLoop=>exact threadBlock_affects inv h
  case unblocking t=>
   have staged:Still k ((k.setStage k.current .body).setStage t .body):=
    (still_setStage .body k.current).trans (still_setStage .body t)
   exact (staged.trans (threadUnblock_still h)).affects inv
  case numbering t=>
   cases h
   exact (still_allocateTid.trans (still_setStage _ _)).affects inv
  case idleInit=>
   cases h
   have stored:Still k {k with idleThread:=some k.current}:=⟨rfl,rfl,fun _=>rfl⟩
   exact (stored.trans (still_setStage _ _)).affects inv
  all_goals
   cases h
   exact (Still.refl k).affects inv

lemma threadStart_affects (free:k.free t=true)(h:threadStart k t=.ok k'):Affects k k' .quiet:=by
 have started:Still (initThread k t)
   (((allocateTid (initThread k t) t).setStage t .idleInit).setStage k.current .starting):=
  (still_allocateTid.trans (still_setStage _ _)).trans (still_setStage _ _)
 exact (initThread_affects inv free).still (started.trans (threadUnblock_still h))

lemma next_affects (enabled:Enabled k a)(h:next k a=some k'):Affects k k' (event k a):=by
 have ran:run k a=.ok k':=by
  unfold next at h
  cases hr:run k a with
  | error=>
   rw[hr] at h
   cases h
  | ok u=>
   rw[hr] at h
   cases h
   rfl
 cases a with
 | threadStart t=>exact threadStart_affects inv enabled.2 ran
 | threadCreate page=>
  cases ran
  cases page with
  | none=>exact (Still.refl k).affects inv
  | some t=>exact (initThread_affects inv (enabled.2 t rfl)).still (still_setStage _ _)
 | threadYield=>exact threadYield_affects inv ran
 | threadBlock=>exact threadBlock_affects inv ran
 | threadUnblock t=>exact (threadUnblock_still ran).affects inv
 | threadExit=>exact threadExit_affects inv enabled.1 ran
 | semaDown s=>exact semaDown_affects inv ran
 | semaTryDown s=>
  cases ran
  change Affects k (semaTryDown k s) (if (k.sema s).value=0 then .quiet else .down s)
  unfold semaTryDown
  by_cases zero:(k.sema s).value=0
  · rw[if_pos zero,if_neg (by omega)]
    exact (Still.refl k).affects inv
  · rw[if_neg zero,if_pos (by omega)]
    exact ⟨rfl,enabled.1,fun _ _ _=>rfl,fun t ht hn=>absurd ht hn,
     fun hn=>absurd (inv.busy _ rfl) hn⟩
 | semaUp s=>exact semaUp_affects inv ran
 | timer=>exact timerInterrupt_affects inv ran
 | step=>exact statement_affects inv ran

end

variable {α:Type}[DecidableEq α]{l:List α}{p q:α→Bool}{c:α}

lemma countP_of_agree (nodup:l.Nodup)(hc:c∈l)(agree:∀x∈l,x≠c → p x=q x):
 l.countP p+(q c).toNat=l.countP q+(p c).toNat:=by
 have rest:(l.erase c).countP p=(l.erase c).countP q:=by
  refine countP_congr fun x hx=>?_
  rw[nodup.mem_erase_iff] at hx
  rw[agree x hx.2 hx.1]
 have split:∀r:α→Bool,l.countP r=(l.erase c).countP r+(r c).toNat:=by
  intro r
  rw[(perm_cons_erase hc).countP_eq,countP_cons]
  cases r c<;>rfl
 rw[split p,split q,rest]
 omega

end

section
variable {k k':Kernel}{e:Event}{a:Act}{s:ℕ}

lemma wants_next (inv:Inv (some k.current) k)(inv':Inv (some k'.current) k')
 (population:Population k k')(h:Affects k k' e)(s:ℕ):
 wants k' s+(decide ((k.thread k.current).waiting=some s)).toNat=
  wants k s+(decide (e.waits (k.thread k.current).waiting=some s)).toNat:=by
 have listed:=inv.busy _ rfl
 have kept:k.allList.countP (fun t=>(k'.thread t).waiting=some s) +
   (decide ((k.thread k.current).waiting=some s)).toNat=
   wants k s+(decide ((k'.thread k.current).waiting=some s)).toNat:=
  countP_of_agree (p:=fun t=>(k'.thread t).waiting=some s)
   (q:=fun t=>(k.thread t).waiting=some s) inv.nodup listed
   (fun t ht hc=>by rw[h.others t ht hc])
 rw[←h.current,←kept]
 unfold wants
 cases population with
 | grow made all _ _ _=>
  have nodup:=inv'.nodup
  rw[all,nodup_append] at nodup
  have none:made.countP (fun t=>(k'.thread t).waiting=some s)=0:=by
   refine countP_eq_zero.2 fun t ht=>?_
   have new:t∉k.allList:=fun hk=>nodup.2.2 t hk t ht rfl
   have fresh:=h.fresh t (by rw[all];exact mem_append_right _ ht) new
   simp[fresh]
  rw[all,countP_append,none,Nat.add_zero]
 | exit all _ _ _ _=>
  have gone:k.current∉k'.allList:=by
   rw[all]
   exact inv.nodup.not_mem_erase
  rw[all,(perm_cons_erase listed).countP_eq,countP_cons,(h.leaves gone).1]
  simp

lemma waiters_le_wants {r:Option ℕ}(inv:Inv r k):(k.sema s).waiters.length≤wants k s:=by
 unfold wants
 rw[countP_eq_length_filter]
 refine (subperm_of_subset (inv.waitersNodup s) fun t ht=>?_).length_le
 obtain ⟨hm,-,hw⟩:=(inv.waiters s t).1 ht
 rw[mem_filter,decide_eq_true_eq]
 exact ⟨hm,hw⟩

/-- While threads sleep on a semaphore, each unit of its value has a thread that is awake. -/
def Prompt (k:Kernel):Prop:=
 ∀s,(k.sema s).waiters≠[] → (k.sema s).value+(k.sema s).waiters.length≤wants k s

lemma Prompt.next (h:Prompt k)(inv:Inv (some k.current) k)(enabled:Enabled k a)
 (step:next k a=some k'):Prompt k':=by
 intro s
 have reaches:=next_reaches inv enabled step
 have affects:=next_affects inv enabled step
 have count:=wants_next inv reaches.inv reaches.population affects s
 have most:=waiters_le_wants (s:=s) reaches.inv
 have before:=h s
 have sema:k'.sema=(event k a).semas k:=affects.sema
 rw[sema] at most ⊢
 cases he:event k a with
 | quiet=>
  rw[he] at count
  have count:=Nat.add_right_cancel count
  rw[count]
  exact before
 | up u=>
  rw[he] at count
  have count:=Nat.add_right_cancel count
  rw[count]
  by_cases hu:u=s
  · subst hu
    simp only[Event.semas,update_self]
    intro rest
    have some_:(k.sema u).waiters≠[]:=by
     intro hn
     rw[hn] at rest
     exact rest rfl
    have short:=length_tail (l:=(k.sema u).waiters)
    have pos:=length_pos_iff.2 some_
    have:=before some_
    omega
  · simp only[Event.semas,update_of_ne (Ne.symm hu)]
    exact before
 | down u=>
  obtain ⟨pos,own⟩:=event_down enabled he
  rw[he] at count
  simp only[Event.waits] at count
  by_cases hu:u=s
  · subst hu
    simp only[Event.semas,update_self]
    intro hn
    have:=before hn
    have le:=Bool.toNat_le (decide ((k.thread k.current).waiting=some u))
    simp only[reduceCtorEq,decide_false] at count
    omega
  · have away:(k.thread k.current).waiting≠some s:=by
     rcases own with hw|hw<;>rw[hw]<;>simp[hu]
    simp only[away,decide_false,Bool.toNat_false,Nat.add_zero] at count
    simp only[Event.semas,update_of_ne (Ne.symm hu),count]
    exact before
 | sleep u=>
  obtain ⟨zero,own⟩:=event_sleep enabled he
  rw[he] at count most
  simp only[Event.waits] at count
  by_cases hu:u=s
  · subst hu
    simp only[Event.semas,update_self] at most ⊢
    omega
  · have away:(k.thread k.current).waiting≠some s:=by
     rcases own with hw|hw<;>rw[hw]<;>simp[hu]
    simp only[away,Option.some.injEq,hu,decide_false,Bool.toNat_false,Nat.add_zero] at count
    simp only[Event.semas,update_of_ne (Ne.symm hu),count]
    exact before

lemma Prompt.value_le_woken {r:Option ℕ}(h:Prompt k)(inv:Inv r k)
 (sleeping:(k.sema s).waiters≠[]):(k.sema s).value≤(woken k s).length:=by
 have enough:=h s sleeping
 let inside:=k.allList.filter (fun t=>(k.thread t).waiting=some s)
 have total:wants k s=inside.length:=countP_eq_length_filter
 have asleep:(inside.filter (fun t=>t∈(k.sema s).waiters)).length≤(k.sema s).waiters.length:=by
  refine (subperm_of_subset ((inv.nodup.filter _).filter _) fun t ht=>?_).length_le
  simpa using (mem_filter.1 ht).2
 have awake:inside.filter (fun t=>!decide (t∈(k.sema s).waiters))=woken k s:=by
  unfold woken inside
  simp[Bool.and_comm]
 have split:=length_eq_length_filter_add (l:=inside) (fun t=>t∈(k.sema s).waiters)
 rw[awake] at split
 omega

variable {as:List Act}

lemma value_next (inv:Inv (some k.current) k)(enabled:Enabled k a)(step:next k a=some k')(s:ℕ):
 (k'.sema s).value=if event k a=.up s then ((k.sema s).value+1)%2^32
  else (k.sema s).value-if event k a=.down s then 1 else 0:=by
 rw[(next_affects inv enabled step).sema]
 cases he:event k a with
 | quiet=>simp[Event.semas]
 | up u=>
  by_cases hu:u=s
  · simp[Event.semas,hu]
  · simp[Event.semas,hu,update_of_ne (Ne.symm hu)]
 | down u=>
  by_cases hu:u=s
  · simp[Event.semas,hu]
  · simp[Event.semas,hu,update_of_ne (Ne.symm hu)]
 | sleep u=>
  by_cases hu:u=s
  · simp[Event.semas,hu]
  · simp[Event.semas,update_of_ne (Ne.symm hu)]

lemma occurs_cons {e:Event}(step:next k a=some k'):
 occurs e k (a::as)=(if event k a=e then 1 else 0)+occurs e k' as:=by
 simp[occurs,step]

lemma runs_value (run:Runs next Enabled k as k')(inv:Inv (some k.current) k):
 ((k'.sema s).value+occurs (.down s) k as)%2^32=((k.sema s).value+occurs (.up s) k as)%2^32 ∧
  ((k.sema s).value+occurs (.up s) k as<2^32 →
   (k'.sema s).value+occurs (.down s) k as=(k.sema s).value+occurs (.up s) k as):=by
 induction run with
 | nil k=>exact ⟨rfl,fun _=>rfl⟩
 | @cons k mid k' a as enabled step _ ih=>
  obtain ⟨modulo,exactly⟩:=ih (next_reaches inv enabled step).inv
  have value:=value_next inv enabled step s
  rw[occurs_cons step,occurs_cons step]
  by_cases up:event k a=.up s
  · have down:event k a≠.down s:=by simp[up]
    rw[if_pos up] at value
    rw[if_pos up,if_neg down]
    exact ⟨by omega,fun bound=>by omega⟩
  · rw[if_neg up] at value
    rw[if_neg up]
    by_cases down:event k a=.down s
    · have pos:=(event_down enabled down).1
      rw[if_pos down] at value ⊢
      exact ⟨by omega,fun bound=>by omega⟩
    · rw[if_neg down] at value ⊢
      exact ⟨by omega,fun bound=>by omega⟩

end
variable {memory:ℕ→Thread}{free:ℕ→Bool}{values:ℕ→ℕ}{main:ℕ}{as:List Act}{k:Kernel}

lemma threadInit_prompt:Prompt (threadInit memory free values main):=fun _ h=>
 absurd rfl h

lemma runs_prompt (run:Runs next Enabled (threadInit memory free values main) as k):
 Inv (some k.current) k ∧ Prompt k:=
 run.invariant (I:=fun k=>Inv (some k.current) k ∧ Prompt k)
  (fun _ _ _ ⟨inv,prompt⟩ enabled step=>
   ⟨(next_reaches inv enabled step).inv,prompt.next inv enabled step⟩)
  ⟨threadInit_inv ..,threadInit_prompt⟩

theorem semaphore_wakes (run:Runs next Enabled (threadInit memory free values main) as k)(s:ℕ):
 (((threadInit memory free values main).sema s).value +
   occurs (.up s) (threadInit memory free values main) as<2^32 →
  (k.sema s).value+occurs (.down s) (threadInit memory free values main) as=
   ((threadInit memory free values main).sema s).value +
    occurs (.up s) (threadInit memory free values main) as) ∧
 (∀t∈k.allList,(k.thread t).status=.blocked → (k.thread t).waiting=some s →
  (k.sema s).waiters.count t=1) ∧
 ((k.sema s).waiters≠[] → (k.sema s).value≤(woken k s).length) ∧
 (0<(k.sema s).value → (∃t∈k.allList,(k.thread t).waiting=some s) →
  ∃t∈k.allList,(k.thread t).waiting=some s ∧ t∉(k.sema s).waiters):=by
 obtain ⟨inv,prompt⟩:=runs_prompt run
 refine ⟨(runs_value run (threadInit_inv ..)).2,fun t ht blocked waiting=>?_,
  prompt.value_le_woken inv,fun pos ⟨t,ht,hw⟩=>?_⟩
 · exact count_eq_one_of_mem (inv.waitersNodup s) ((inv.waiters s t).2 ⟨ht,blocked,waiting⟩)
 · by_cases sleeping:(k.sema s).waiters=[]
   · exact ⟨t,ht,hw,by simp[sleeping]⟩
   · have some_:0<(woken k s).length:=
     Nat.lt_of_lt_of_le pos (prompt.value_le_woken inv sleeping)
     obtain ⟨u,hu⟩:=length_pos_iff_exists_mem.1 some_
     obtain ⟨hm,hv⟩:=mem_filter.1 hu
     exact ⟨u,hm,of_decide_eq_true hv⟩

def handlerWakes:List Act:=[.threadStart 1,.step,.step,.step,.step,.step,.semaDown 2,.semaUp 2]

theorem semaphore_wakes_handler:∃k,Runs next Enabled bootedKernel handlerWakes k ∧
 woken k 2=[0] ∧ (k.sema 2).value+occurs (.down 2) bootedKernel handlerWakes=
  (bootedKernel.sema 2).value+occurs (.up 2) bootedKernel handlerWakes:=by
 have found:(exec next Enabled bootedKernel handlerWakes).any (fun k=>woken k 2=[0])=true:=by
  decide +kernel
 obtain ⟨k,run,awake⟩:=exec_any found
 exact ⟨k,run,of_decide_eq_true awake,(semaphore_wakes run 2).1 (by decide +kernel)⟩

def fullKernel:Kernel:=threadInit (fun _=>poisoned) (fun _=>true) (fun _=>2^32-1) 0

theorem semaphore_overflows:∃k,Runs next Enabled fullKernel [.threadStart 1,.semaUp 2] k ∧
 (fullKernel.sema 2).value=2^32-1 ∧ (k.sema 2).value=0 ∧
 occurs (.up 2) fullKernel [.threadStart 1,.semaUp 2]=1 ∧
 occurs (.down 2) fullKernel [.threadStart 1,.semaUp 2]=0:=by
 have found:(exec next Enabled fullKernel [.threadStart 1,.semaUp 2]).any (fun k=>
   (k.sema 2).value=0)=true:=by decide +kernel
 obtain ⟨k,run,zero⟩:=exec_any found
 exact ⟨k,run,rfl,of_decide_eq_true zero,by decide +kernel,by decide +kernel⟩

end Pintos.Threads
