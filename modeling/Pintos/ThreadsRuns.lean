import Mathlib.Data.List.Perm.Basic
import Pintos.ThreadsSafety

/-! Whole runs of the scheduler: consistency of its lists, round-robin order and
the time slice. -/
namespace Pintos.Threads
open ExecRuns List

section
variable {k k':Kernel}{n:ℕ}

/-- What the observer has noted agrees with the lists of the kernel. -/
structure Logs (k:Kernel):Prop where
 population:(k.exited++k.allList).Perm k.created
 freed:k.freed=k.exited.filter (· ≠ k.initialThread)
 order:k.queued=k.selected++k.readyList
 slice:k.ticks=k.since+k.threadTicks
 short:k.threadTicks<timeSlice

lemma Logs.freed_next (h:Logs k)(reaches:Reaches k k' n):
 k'.freed=k'.exited.filter (· ≠ k'.initialThread):=by
 rw[reaches.initial]
 cases reaches.population with
 | grow made all created exited freed=>rw[freed,exited,h.freed]
 | exit all created exited freed=>
  rw[freed,exited,h.freed,filter_append]
  by_cases hi:k.current=k.initialThread
  · simp[hi]
  · simp[hi]

lemma Logs.population_next (h:Logs k)(inv:Inv (some k.current) k)
 (reaches:Reaches k k' n):(k'.exited++k'.allList).Perm k'.created:=by
 cases reaches.population with
 | grow made all created exited freed=>
  rw[all,created,exited,←append_assoc]
  exact h.population.append_right made
 | exit all created exited freed=>
  rw[all,created,exited,append_assoc,singleton_append]
  have hm:k.current∈k.allList:=inv.busy _ rfl
  exact ((perm_cons_erase hm).symm.append_left _).trans h.population

lemma Logs.order_next (h:Logs k)(reaches:Reaches k k' n):k'.queued=k'.selected++k'.readyList:=by
 cases reaches.queue with
 | stay pushed queued ready current selected=>
  rw[queued,selected,ready,h.order,append_assoc]
 | switch pushed queued ready rest selected=>
  rw[queued,selected,rest,h.order,append_assoc,append_assoc]
  cases k.readyList++pushed<;>rfl

lemma Logs.next (h:Logs k)(inv:Inv (some k.current) k)(reaches:Reaches k k' n):Logs k':=by
 refine ⟨h.population_next inv reaches,h.freed_next reaches,h.order_next reaches,?_,?_⟩
 · have slice:=h.slice
   have ticks:=reaches.ticks
   cases reaches.queue with
   | stay _ _ _ _ _ _ since ticked | switch _ _ _ _ _ _ since ticked=>omega
 · have short:=h.short
   cases reaches.queue with
   | stay _ _ _ _ _ _ _ ticked bound=>
    rw[ticked]
    rcases bound with hn|hn
    · omega
    · exact hn
   | switch _ _ _ _ _ _ _ ticked=>
    rw[ticked]
    decide

variable (memory:ℕ→Thread)(free:ℕ→Bool)(values:ℕ→ℕ)(main:ℕ)

lemma threadInit_inv:Inv (some main) (threadInit memory free values main):=by
 have own:(threadInit memory free values main).thread main=
   ⟨1,.running,threadMagic,.booting,none⟩:=Function.update_self ..
 have kept:(threadInit memory free values main).free main=false:=Function.update_self ..
 have all:(threadInit memory free values main).allList=[main]:=rfl
 refine ⟨by simp[all],?_,kept,by simp[all],?_,?_,?_,nodup_nil,?_,
  fun _=>nodup_nil,?_,fun i hi=>(by cases hi),?_,?_,fun _=>⟨main,?_⟩,
  fun hn=>absurd rfl hn,?_⟩
 all_goals simp only[all,mem_singleton,forall_eq,own,isThread]
 · trivial
 · simp
 · intro t
   refine ⟨fun ht=>(by cases ht),?_⟩
   rintro ⟨rfl,hr,-⟩
   rw[own] at hr
   cases hr
 · intro s t
   refine ⟨fun ht=>(by cases ht),?_⟩
   rintro ⟨rfl,hb,-⟩
   rw[own] at hb
   cases hb
 · simp
 · simp[Stage.creates]
 · simp[Stage.creates]
 · simp[Stage.starts]
 · simp

lemma threadInit_logs:Logs (threadInit memory free values main):=
 ⟨.refl _,rfl,rfl,rfl,show 0<4 by decide⟩

end
variable {k k' u v:Kernel}{as bs:List Act}{memory:ℕ→Thread}{free:ℕ→Bool}{values:ℕ→ℕ}{main:ℕ}

lemma next_reaches (inv:Inv (some k.current) k){a:Act}(enabled:Enabled k a)
 (step:next k a=some k'):Reaches k k' (if a=.timer then 1 else 0):=by
 obtain ⟨u,hu,reaches⟩:=run_returns inv enabled
 unfold next at step
 rw[hu] at step
 obtain rfl:u=k':=Option.some.inj step
 exact reaches

lemma runs_inv (h:Runs next Enabled k as k')(inv:Inv (some k.current) k):Inv (some k'.current) k':=
 h.invariant (I:=fun k=>Inv (some k.current) k)
  (fun _ _ _ inv enabled step=>(next_reaches inv enabled step).inv) inv

lemma reachable (h:Runs next Enabled (threadInit memory free values main) as k):
 Inv (some k.current) k ∧ Logs k:=
 h.invariant (I:=fun k=>Inv (some k.current) k ∧ Logs k)
  (fun _ _ _ ⟨inv,logs⟩ enabled step=>
   ⟨(next_reaches inv enabled step).inv,logs.next inv (next_reaches inv enabled step)⟩)
  ⟨threadInit_inv ..,threadInit_logs ..⟩

/-- The lists and statuses agree, and `all_list` and the freed pages agree with
the calls of `thread_create` and `thread_exit` so far. -/
structure Consistent (k:Kernel):Prop where
 running:∃! t,t∈k.allList ∧ (k.thread t).status=.running
 ready:∀t,k.readyList.count t=
  if t∈k.allList ∧ (k.thread t).status=.ready ∧ k.idleThread≠some t then 1 else 0
 waiters:∀s,∀t∈(k.sema s).waiters,(k.thread t).status=.blocked ∧
  (k.sema s).waiters.count t=1 ∧ t∉k.readyList ∧ ∀s',s'≠s → t∉(k.sema s').waiters
 all:k.allList.Nodup ∧ (k.exited++k.allList).Perm k.created
 idle:∀i,k.idleThread=some i → i∉k.readyList
 freed:k.freed=k.exited.filter (· ≠ k.initialThread)

def OnList (k:Kernel)(t:ℕ):Prop:=t∈k.allList ∨ t∈k.readyList ∨ ∃s,t∈(k.sema s).waiters

/-- Either no thread exits and no page is freed, or the running thread exits and
the `schedule` that switches away from it frees its page, when it is on no list. -/
def Buries (k k':Kernel):Prop:=
 (k'.exited=k.exited ∧ k'.freed=k.freed) ∨
 (k'.exited=k.exited++[k.current] ∧ k'.schedules=k.schedules+1 ∧
  k'.freed=k.freed++(if k.current=k.initialThread then [] else [k.current]) ∧
  ¬OnList k' k.current)

lemma Inv.consistent (inv:Inv (some k.current) k)(logs:Logs k):Consistent k where
 running:=by
  refine ⟨k.current,⟨inv.busy _ rfl,inv.status⟩,?_⟩
  rintro t ⟨ht,hs⟩
  exact (Option.some.inj ((inv.running t ht).1 hs)).symm
 ready t:=by
  simp only[inv.readyNodup.count,inv.ready]
 waiters s t ht:=by
  obtain ⟨-,blocked,waiting⟩:=(inv.waiters s t).1 ht
  refine ⟨blocked,count_eq_one_of_mem (inv.waitersNodup s) ht,fun hr=>?_,fun s' hs ht'=>?_⟩
  · rw[((inv.ready t).1 hr).2.1] at blocked
    cases blocked
  · have:=((inv.waiters s' t).1 ht').2.2
    rw[waiting] at this
    exact hs (Option.some.inj this).symm
 all:=⟨inv.nodup,logs.population⟩
 idle i hi hr:=((inv.ready i).1 hr).2.2 hi
 freed:=logs.freed

lemma Reaches.buries {n:ℕ}(h:Reaches k k' n)(inv:Inv (some k.current) k):Buries k k':=by
 cases h.population with
 | grow made all created exited freed=>exact .inl ⟨exited,freed⟩
 | exit all created exited freed schedules=>
  have off:k.current∉k'.allList:=by
   rw[all]
   exact inv.nodup.not_mem_erase
  refine .inr ⟨exited,schedules,freed,?_⟩
  rintro (hm|hm|⟨s,hm⟩)
  · exact off hm
  · exact off ((h.inv.ready _).1 hm).1
  · exact off ((h.inv.waiters s _).1 hm).1

/-- In every run the scheduler stays consistent, and no `ASSERT` fails in whatever
is done next. -/
theorem scheduler_consistent (h:Runs next Enabled (threadInit memory free values main) as k):
 Consistent k ∧ ∀a,Enabled k a → ∃k',run k a=.ok k' ∧ Buries k k':=by
 obtain ⟨inv,logs⟩:=reachable h
 refine ⟨inv.consistent logs,fun a enabled=>?_⟩
 obtain ⟨k',hk',reaches⟩:=run_returns inv enabled
 exact ⟨k',hk',reaches.buries inv⟩

def threadLife:List Act:=
 [.threadStart 1,.step,.step,.step,.step,.step,.threadCreate (some 2),.step,.step,.step,
  .step,.timer,.timer,.timer,.timer,.threadExit]
def bootedKernel:Kernel:=threadInit (fun _=>poisoned) (fun _=>true) (fun _=>0) 0

theorem scheduler_consistent_threadLife:
 ∃k,Runs next Enabled bootedKernel threadLife k ∧ k.freed=[2] ∧ Consistent k ∧
  ∀a,Enabled k a → ∃k',run k a=.ok k' ∧ Buries k k':=by
 have found:(exec next Enabled bootedKernel threadLife).any (fun k=>k.freed=[2])=true:=by
  decide +kernel
 obtain ⟨k,hr,hf⟩:=exec_any found
 exact ⟨k,hr,by simpa using hf,scheduler_consistent hr⟩

/-- `d` calls of `schedule` after `k`, none of which found `ready_list` empty. -/
structure Served (k k':Kernel)(d:ℕ):Prop where
 selected:k'.selected=k.selected++k.readyList.take d
 rest:k.readyList.drop d <+: k'.readyList
 current:∀i,d=i+1 → k.readyList[i]?=some k'.current

lemma Served.next {d n:ℕ}(h:Served k u d)(q:Queue u v n):(v.schedules=u.schedules ∧ Served k v d) ∨
  (v.schedules=u.schedules+1 ∧ (d<k.readyList.length → Served k v (d+1))):=by
 cases q with
 | stay pushed queued ready current selected schedules=>
  refine .inl ⟨schedules,selected.trans h.selected,?_,fun i hi=>current▸h.current i hi⟩
  rw[ready]
  exact h.rest.trans (prefix_append _ _)
 | switch pushed queued ready rest selected schedules=>
  refine .inr ⟨schedules,fun hd=>?_⟩
  obtain ⟨more,hmore⟩:=h.rest
  have split:k.readyList.drop d=k.readyList[d]::k.readyList.drop (d+1):=drop_eq_getElem_cons hd
  have front:u.readyList++pushed=k.readyList[d]::(k.readyList.drop (d+1)++(more++pushed)):=by
   rw[←hmore,split,cons_append,cons_append,append_assoc]
  rw[front] at ready rest selected
  refine ⟨?_,?_,fun i hi=>?_⟩
  · rw[selected,h.selected,append_assoc,take_succ_eq_append_getElem hd]
    rfl
  · rw[rest]
    exact prefix_append _ _
  · obtain rfl:d=i:=by omega
    rw[getElem?_eq_getElem hd]
    exact ready

lemma runs_served (h:Runs next Enabled k as k')(inv:Inv (some k.current) k):
 ∃d,k'.schedules=k.schedules+d ∧ (d≤k.readyList.length → Served k k' d):=by
 refine h.snoc_induction (motive:=fun _ k'=>∃d,k'.schedules=k.schedules+d ∧
  (d≤k.readyList.length → Served k k' d)) ⟨0,rfl,fun _=>⟨by simp,by simp,by simp⟩⟩ ?_
 rintro bs u a v before enabled step ⟨d,hd,served⟩
 have q:=(next_reaches (runs_inv before inv) enabled step).queue
 have grows:v.schedules=u.schedules ∨ v.schedules=u.schedules+1:=by
  cases q with
  | stay _ _ _ _ _ schedules=>exact .inl schedules
  | switch _ _ _ _ _ schedules=>exact .inr schedules
 rcases grows with same|more
 · refine ⟨d,same.trans hd,fun hle=>?_⟩
   rcases (served hle).next q with ⟨-,hs⟩|⟨hs,-⟩
   · exact hs
   · omega
 · refine ⟨d+1,by omega,fun hle=>?_⟩
   rcases (served (by omega)).next q with ⟨hs,-⟩|⟨-,hs⟩
   · omega
   · exact hs (by omega)

lemma runs_slice (h:Runs next Enabled k as k')(inv:Inv (some k.current) k)
 (same:k'.schedules=k.schedules):k'.threadTicks=k.threadTicks+as.count .timer:=by
 have main:k.schedules≤k'.schedules ∧ (k'.schedules=k.schedules →
   k'.threadTicks=k.threadTicks+as.count .timer):=by
  refine h.snoc_induction (motive:=fun as k'=>k.schedules≤k'.schedules ∧
   (k'.schedules=k.schedules → k'.threadTicks=k.threadTicks+as.count .timer))
   ⟨Nat.le_refl _,fun _=>rfl⟩ ?_
  rintro bs u a v before enabled step ⟨le,count⟩
  cases (next_reaches (runs_inv before inv) enabled step).queue with
  | stay _ _ _ _ _ schedules _ slice=>
   refine ⟨schedules▸le,fun hs=>?_⟩
   rw[slice,count (schedules▸hs),count_append,count_singleton,Nat.add_assoc]
   simp
  | switch _ _ _ _ _ schedules=>
   exact ⟨by omega,fun hs=>by omega⟩
 exact main.2 same

lemma threadScheduleTail_counts {prev:Option ℕ}(h:threadScheduleTail k prev=.ok k'):
 k'.schedules=k.schedules ∧ k'.queued=k.queued:=by
 unfold threadScheduleTail at h
 cases prev with
 | none=>
  cases h
  exact ⟨rfl,rfl⟩
 | some p=>
  dsimp only at h
  split at h
  · split at h
    · cases h
    · cases h
      exact ⟨rfl,rfl⟩
  · cases h
    exact ⟨rfl,rfl⟩

lemma schedule_counts (h:schedule k=.ok k'):k'.schedules=k.schedules+1 ∧ k'.queued=k.queued:=by
 unfold schedule at h
 rw[nextThreadToRun_eq] at h
 dsimp only at h
 split at h
 · cases h
 · cases ht:chosen k with
   | none=>simp[ht] at h
   | some t=>
    rw[ht] at h
    dsimp only at h
    split at h
    · cases h
    · exact threadScheduleTail_counts h

lemma timer_yields (inv:Inv (some k.current) k)(enabled:Interruptible k)
 (spent:k.threadTicks+1=timeSlice):
 ∃k',run k .timer=.ok k' ∧ run k .timer=threadYield (ticked k) ∧
  k'.schedules=k.schedules+1 ∧ k'.queued=k.queued++yielded k:=by
 obtain ⟨k',hk',-⟩:=run_returns inv (a:=.timer) enabled
 have yields:run k .timer=threadYield (ticked k):=by
  change timerInterrupt k=_
  rw[timerInterrupt_eq inv,if_pos (by omega)]
 obtain ⟨mid,hy,d⟩:=threadYield_departs (k:=ticked k) inv.ticked enabled.1 enabled.2
 rw[yields,hy] at hk'
 obtain ⟨schedules,queued⟩:=schedule_counts hk'
 refine ⟨k',by rw[yields,hy,hk'],yields,?_,?_⟩
 · rw[schedules,d.schedules]
   rfl
 · rw[queued,d.queued]
   rfl

lemma timer_continues (inv:Inv (some k.current) k)(short:k.threadTicks+1<timeSlice):
 run k .timer=.ok (ticked k):=by
 change timerInterrupt k=_
 rw[timerInterrupt_eq inv,if_neg (by omega)]

/-- Threads run in the order in which they were put on `ready_list`: of a thread at
position `j`, `j + 1` calls of `schedule` make the running one, and until then only
those before it are selected. A thread that was selected by `schedule` keeps the
processor for three timer interrupts and yields at the fourth, unless it calls
`schedule` itself. -/
theorem round_robin (memory:ℕ→Thread)(free:ℕ→Bool)(values:ℕ→ℕ)(main:ℕ):
 (∀as k,Runs next Enabled (threadInit memory free values main) as k →
  k.queued=k.selected++k.readyList) ∧
 (∀as k bs k' j t d,Runs next Enabled (threadInit memory free values main) as k →
  Runs next Enabled k bs k' → k.readyList[j]?=some t → k'.schedules=k.schedules+d →
  (d≤j → k'.selected=k.selected++k.readyList.take d ∧ k'.readyList[j-d]?=some t ∧ k'.current≠t) ∧
  (d=j+1 → k'.selected=k.selected++k.readyList.take d ∧ k'.current=t)) ∧
 (∀as u a v bs k,Runs next Enabled (threadInit memory free values main) as u →
  Enabled u a → next u a=some v → v.schedules=u.schedules+1 →
  Runs next Enabled v bs k → k.schedules=v.schedules →
  bs.count .timer<timeSlice ∧ (Interruptible k →
   (bs.count .timer+1<timeSlice → run k .timer=.ok (ticked k)) ∧
   (bs.count .timer+1=timeSlice → ∃k',run k .timer=.ok k' ∧
    run k .timer=threadYield (ticked k) ∧ k'.schedules=k.schedules+1 ∧
    k'.queued=k.queued++yielded k))):=by
 refine ⟨fun as k h=>(reachable h).2.order,fun as k bs k' j t d before after ht hd=>?_,
  fun as u a v bs k before enabled step called after same=>?_⟩
 · obtain ⟨inv,-⟩:=reachable before
   obtain ⟨e,he,served⟩:=runs_served after inv
   obtain rfl:d=e:=by omega
   have hj:j<k.readyList.length:=(List.getElem?_eq_some_iff.1 ht).1
   refine ⟨fun hle=>?_,fun heq=>?_⟩
   · have served:=served (by omega)
     have place:k'.readyList[j-d]?=some t:=by
      obtain ⟨more,hmore⟩:=served.rest
      rw[←hmore,getElem?_append_left (by rw[length_drop];omega),
       getElem?_drop,Nat.add_sub_cancel' hle,ht]
     refine ⟨served.selected,place,?_⟩
     rintro rfl
     exact (runs_inv after inv).off_running.1 (mem_of_getElem? place)
   · have served:=served (by omega)
     have current:=served.current j heq
     rw[ht] at current
     exact ⟨served.selected,(Option.some.inj current).symm⟩
 · obtain ⟨inv,logs⟩:=reachable before
   have reaches:=next_reaches inv enabled step
   have selected:v.threadTicks=0:=by
    cases reaches.queue with
    | stay _ _ _ _ _ schedules=>omega
    | switch _ _ _ _ _ _ _ slice=>exact slice
   have ticks:k.threadTicks=bs.count .timer:=by
    rw[runs_slice after reaches.inv same,selected,Nat.zero_add]
   obtain ⟨inv',logs'⟩:=reachable (before.append (.cons enabled step after))
   have short:=logs'.short
   rw[ticks] at short
   refine ⟨short,fun interruptible=>⟨fun hs=>?_,fun hs=>?_⟩⟩
   · exact timer_continues inv' (by omega)
   · exact timer_yields inv' interruptible (by omega)

/-- The thread made is first in line, and runs after one call of `schedule`, which
the fourth timer interrupt makes. -/
theorem round_robin_threadLife:
 ∃k k',Runs next Enabled bootedKernel (threadLife.take 11) k ∧ k.readyList[0]?=some 2 ∧
  Runs next Enabled k (replicate 4 .timer) k' ∧ k'.current=2:=by
 have found:(exec next Enabled bootedKernel (threadLife.take 11)).any (fun k=>
   k.readyList[0]?=some 2 ∧ (exec next Enabled k (replicate 4 .timer)).any
    (fun k'=>k'.schedules=k.schedules+1)=true)=true:=by
  decide +kernel
 obtain ⟨k,before,hk⟩:=exec_any found
 obtain ⟨first,hk⟩:=of_decide_eq_true hk
 obtain ⟨k',after,called⟩:=exec_any hk
 obtain ⟨-,position,-⟩:=round_robin (fun _=>poisoned) (fun _=>true) (fun _=>0) 0
 exact ⟨k,k',before,first,after,
  ((position _ k _ k' 0 2 1 before after first (of_decide_eq_true called)).2 rfl).2⟩

end Pintos.Threads
