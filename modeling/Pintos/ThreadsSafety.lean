import Pintos.ThreadsInvariant

namespace Pintos.Threads
open ExecRuns Function List Kernel

section
variable {k:Kernel}{t p:ℕ}

def Dies (k:Kernel):Prop:=(k.thread k.current).status=.dying ∧ k.current≠k.initialThread
instance (k:Kernel):Decidable (Dies k):=inferInstanceAs (Decidable (_ ∧ _))
def popped (k:Kernel):Kernel:=
 {k with
   readyList:=k.readyList.tail
   selected:=k.selected++k.readyList.head?.toList}
def resumed (k:Kernel):Kernel:={k.setStatus k.current .running with threadTicks:=0,since:=k.ticks}

/-- The state after the switch to `t`, before the previous thread is destroyed. -/
def settled (k:Kernel)(t:ℕ):Kernel:=resumed {popped k with current:=t,schedules:=k.schedules+1}

def switched (k:Kernel)(t:ℕ):Kernel:=
 if Dies k then pallocFreePage (settled k t) k.current else settled k t
lemma nextThreadToRun_eq:nextThreadToRun k=(chosen k,popped k):=by
 obtain ⟨thread,free,current,readyList,_⟩:=k
 cases readyList with
 | nil | cons u rest=>simp[nextThreadToRun,chosen,popped]

lemma threadScheduleTail_some (hp:p≠k.current):threadScheduleTail k (some p)=
  .ok (if (k.thread p).status=.dying ∧ p≠k.initialThread
   then pallocFreePage (resumed k) p else resumed k):=by
 have other:(resumed k).thread p=k.thread p:=update_of_ne hp _ _
 change (if ((resumed k).thread p).status=.dying ∧ p≠k.initialThread then
  if p=k.current then .error .tailPrev else .ok (pallocFreePage (resumed k) p)
  else .ok (resumed k):Step)=_
 rw[other,if_neg hp]
 split<;>rfl

lemma schedule_eq (hs:(k.thread k.current).status≠.running)(ht:chosen k=some t)
 (hm:isThread k t)(hd:Dies k → k.current≠t):schedule k=.ok (switched k t):=by
 have hs':((popped k).thread k.current).status≠.running:=hs
 have hm':isThread (popped k) t:=hm
 unfold schedule
 rw[nextThreadToRun_eq,ht]
 simp only[hs',hm',if_false]
 by_cases hc:k.current=t
 · rw[if_pos hc,switched,if_neg (fun hn=>hd hn hc)]
   rfl
 · rw[if_neg hc,threadScheduleTail_some hc]
   rfl

end

section
variable {k k' mid:Kernel}{n t p:ℕ}

/-- What happens to `ready_list` and the time slice while `n` timer interrupts
come: threads are put at its back, and if `schedule` is called, it takes the one at
its front, or the idle thread when there is none. -/
inductive Queue (k k':Kernel)(n:ℕ):Prop where
 | stay (pushed:List ℕ) (queued:k'.queued=k.queued++pushed)
   (ready:k'.readyList=k.readyList++pushed) (current:k'.current=k.current)
   (selected:k'.selected=k.selected) (schedules:k'.schedules=k.schedules)
   (since:k'.since=k.since) (slice:k'.threadTicks=k.threadTicks+n)
   (short:n=0 ∨ k.threadTicks+n<timeSlice)
 | switch (pushed:List ℕ) (queued:k'.queued=k.queued++pushed)
   (ready:(k.readyList++pushed).head?.or k.idleThread=some k'.current)
   (rest:k'.readyList=(k.readyList++pushed).tail)
   (selected:k'.selected=k.selected++(k.readyList++pushed).head?.toList)
   (schedules:k'.schedules=k.schedules+1) (since:k'.since=k'.ticks)
   (slice:k'.threadTicks=0)

/-- What happens to the threads: new ones are made, or the running one exits and
its page is freed. -/
inductive Population (k k':Kernel):Prop where
 | grow (made:List ℕ) (all:k'.allList=k.allList++made)
   (created:k'.created=k.created++made) (exited:k'.exited=k.exited)
   (freed:k'.freed=k.freed)
 | exit (all:k'.allList=k.allList.erase k.current) (created:k'.created=k.created)
   (exited:k'.exited=k.exited++[k.current])
   (freed:k'.freed=k.freed++if k.current=k.initialThread then [] else [k.current])
   (schedules:k'.schedules=k.schedules+1)

/-- The state reached is in order, and this is how it was reached. -/
structure Reaches (k k':Kernel)(n:ℕ):Prop where
 inv:Inv (some k'.current) k'
 initial:k'.initialThread=k.initialThread
 ticks:k'.ticks=k.ticks+n
 queue:Queue k k' n
 population:Population k k'

def Returns (k:Kernel)(m:Step)(n:ℕ):Prop:=∃k',m=.ok k' ∧ Reaches k k' n

structure Departs (k mid:Kernel)(n:ℕ)(pushed:List ℕ):Prop where
 inv:Inv none mid
 current:mid.current=k.current
 initial:mid.initialThread=k.initialThread
 idle:mid.idleThread=k.idleThread
 ticks:mid.ticks=k.ticks+n
 ready:mid.readyList=k.readyList++pushed
 queued:mid.queued=k.queued++pushed
 selected:mid.selected=k.selected
 schedules:mid.schedules=k.schedules
 created:mid.created=k.created
 freed:mid.freed=k.freed
 gone:((mid.thread k.current).status≠.dying ∧ k.current∈mid.allList ∧
   mid.allList=k.allList ∧ mid.exited=k.exited) ∨
  ((mid.thread k.current).status=.dying ∧ mid.allList=k.allList.erase k.current ∧
   mid.exited=k.exited++[k.current])

lemma Inv.settled (h:Inv none k)(ht:chosen k=some t):Inv (some t) (settled k t):=
 h.setRunning ht rfl rfl rfl rfl rfl rfl rfl

lemma Inv.pallocFreePage {r:Option ℕ}(h:Inv r k)(hp:p∉k.allList)
 (hi:p≠k.initialThread):Inv r (pallocFreePage k p):=by
 have other:∀t∈k.allList,(Threads.pallocFreePage k p).thread t=k.thread t:=by
  intro t ht
  refine update_of_ne ?_ _ _
  rintro rfl
  exact hp ht
 refine ⟨h.nodup,?_,?_,h.busy,?_,?_,?_,h.readyNodup,?_,h.waitersNodup,?_,?_,?_,?_,?_,?_,?_⟩
 · intro t ht
   refine ⟨?_,?_⟩
   · rw[isThread,other t ht]
     exact (h.page t ht).1
   · refine (update_of_ne ?_ _ _).trans (h.page t ht).2
     rintro rfl
     exact hp ht
 · exact (update_of_ne (Ne.symm hi) _ _).trans h.initial
 · intro t ht
   rw[other t ht]
   exact h.running t ht
 · intro t ht
   rw[other t ht]
   exact h.alive t ht
 · intro t
   by_cases ht:t∈k.allList
   · rw[other t ht]
     exact h.ready t
   · exact ⟨fun hr=>absurd ((h.ready t).1 hr).1 ht,fun hr=>absurd hr.1 ht⟩
 · intro s t
   by_cases ht:t∈k.allList
   · rw[other t ht]
     exact h.waiters s t
   · exact ⟨fun hr=>absurd ((h.waiters s t).1 hr).1 ht,fun hr=>absurd hr.1 ht⟩
 · intro t ht
   rw[other t ht]
   exact h.sleeps t ht
 · intro i hi
   rw[other i (h.idle i hi).1]
   exact h.idle i hi
 · intro q hq t ht
   rw[other q hq] at ht
   have made:=h.making q hq t ht
   rw[other t made.1]
   exact made
 · intro x hx y hy t hxt hyt
   rw[other x hx] at hxt
   rw[other y hy] at hyt
   exact h.alone x hx y hy t hxt hyt
 · intro hn
   obtain ⟨i,him,hs,hb,one⟩:=h.boot hn
   refine ⟨i,him,?_,?_,fun t ht hts=>one t ht ?_⟩
   · rw[other i him]
     exact hs
   · rw[other i him]
     exact hb
   · rw[other t ht] at hts
     exact hts
 · intro hn t ht
   rw[other t ht]
   exact h.booted hn t ht
 · intro t ht hs
   rw[other t ht] at hs ⊢
   exact h.booting t ht hs

lemma schedule_returns (pushed:List ℕ)(d:Departs k mid n pushed):Returns k (schedule mid) n:=by
 obtain ⟨t,ht⟩:=d.inv.exists_chosen
 have hm:=(d.inv.chosen_mem ht).1
 have idle:(mid.thread mid.current).status≠.running:=by
  rw[d.current]
  rcases d.gone with ⟨-,hc,-,-⟩|⟨hd,-,-⟩
  · rw[ne_eq,d.inv.running _ hc]
    simp
  · simp[hd]
 have off:Dies mid → mid.current∉mid.allList:=fun hd hc=>d.inv.alive _ hc hd.1
 have apart:Dies mid → mid.current≠t:=by
  rintro hd rfl
  exact off hd hm
 refine ⟨switched mid t,schedule_eq idle ht (d.inv.page t hm).1 apart,?_⟩
 have settled:=d.inv.settled ht
 have ready:mid.readyList=k.readyList++pushed:=d.ready
 have tail:mid.readyList.tail=(k.readyList++pushed).tail:=congrArg List.tail ready
 have selected:mid.selected++mid.readyList.head?.toList=
   k.selected++(k.readyList++pushed).head?.toList:=by
  rw[d.selected,ready]
 have schedules:mid.schedules+1=k.schedules+1:=congrArg (· + 1) d.schedules
 unfold chosen at ht
 rw[ready,d.idle] at ht
 unfold switched
 split
 · rename_i hd
   refine ⟨settled.pallocFreePage (off hd) hd.2,d.initial,d.ticks,
    .switch pushed d.queued ht tail selected schedules rfl rfl,?_⟩
   have hd':=hd.1
   rw[d.current] at hd'
   obtain ⟨-,all,exited⟩:=d.gone.resolve_left fun hn=>hn.1 hd'
   refine .exit all d.created exited ?_ schedules
   change mid.freed++[mid.current]=_
   have hi:=hd.2
   rw[d.current,d.initial] at hi
   rw[d.freed,d.current,if_neg hi]
 · rename_i hd
   refine ⟨settled,d.initial,d.ticks,.switch pushed d.queued ht tail selected schedules rfl rfl,?_⟩
   rcases d.gone with ⟨-,-,all,exited⟩|⟨dying,all,exited⟩
   · exact .grow [] (all.trans (append_nil _).symm)
      (d.created.trans (append_nil _).symm) exited d.freed
   · refine .exit all d.created exited ?_ schedules
     change mid.freed=_
     have hi:k.current=k.initialThread:=by
      by_contra hn
      refine hd ⟨?_,?_⟩
      · rw[d.current]
        exact dying
      · rw[d.current,d.initial]
        exact hn
     rw[d.freed,if_pos hi,append_nil]

/-- The records of the threads do not matter to what else a step does. -/
lemma Reaches.threads (h:Reaches k k' n){f f':ℕ→Thread}
 (inv:Inv (some k'.current) {k' with thread:=f'}):
 Reaches {k with thread:=f} {k' with thread:=f'} n:=by
 refine ⟨inv,h.initial,h.ticks,?_,?_⟩
 · cases h.queue with
   | stay pushed a b c d e f g i=>exact .stay pushed a b c d e f g i
   | switch pushed a b c d e f g=>exact .switch pushed a b c d e f g
 · cases h.population with
   | grow made a b c d=>exact .grow made a b c d
   | exit a b c d e=>exact .exit a b c d e
lemma Reaches.setThread (h:Reaches k k' n){v:Thread}
 (inv:Inv (some k'.current) (k'.setThread p v)):Reaches k (k'.setThread p v) n:=h.threads inv
lemma Reaches.of_setThread {v:Thread}(h:Reaches (k.setThread p v) k' n):Reaches k k' n:=
 h.threads (f:=k.thread) h.inv

lemma Reaches.quiet (inv:Inv (some k'.current) k')(current:k'.current=k.current)
 (ready:k'.readyList=k.readyList)(all:k'.allList=k.allList)
 (rest:k'.initialThread=k.initialThread ∧ k'.ticks=k.ticks ∧ k'.queued=k.queued ∧
  k'.selected=k.selected ∧ k'.schedules=k.schedules ∧ k'.since=k.since ∧
  k'.threadTicks=k.threadTicks ∧ k'.created=k.created ∧ k'.exited=k.exited ∧
  k'.freed=k.freed):Reaches k k' 0:=by
 obtain ⟨initial,ticks,queued,selected,schedules,since,slice,created,exited,freed⟩:=rest
 refine ⟨inv,initial,ticks,.stay [] ?_ ?_ current selected schedules since slice
  (.inl rfl),.grow [] ?_ ?_ exited freed⟩
 · rw[queued,append_nil]
 · rw[ready,append_nil]
 · rw[all,append_nil]
 · rw[created,append_nil]

end
variable {k:Kernel}{p s t:ℕ}

lemma threadCurrent_ok (hm:isThread k k.current)
 (hs:(k.thread k.current).status=.running):threadCurrent k=.ok k.current:=by
 unfold threadCurrent
 rw[if_neg (not_not.2 hm),if_neg (not_not.2 hs)]
lemma threadCurrent_eq (h:Inv (some k.current) k):threadCurrent k=.ok k.current:=
 threadCurrent_ok (h.page _ (h.busy _ rfl)).1 h.status

lemma threadBlock_returns (h:Inv (some k.current) k)(awake:(k.thread k.current).waiting=none)
 (started:(k.thread k.current).stage.starts=false):Returns k (threadBlock k) 0:=by
 unfold threadBlock
 rw[threadCurrent_eq h]
 refine schedule_returns [] ⟨h.setBlocked awake started,rfl,rfl,rfl,rfl,
  (append_nil _).symm,(append_nil _).symm,rfl,rfl,rfl,rfl,.inl ⟨?_,?_⟩⟩
 · simp[setStatus,setThread]
 · exact ⟨h.busy _ rfl,rfl,rfl⟩

def yielded (k:Kernel):List ℕ:=if k.idleThread=some k.current then [] else [k.current]

lemma threadYield_departs (h:Inv (some k.current) k)(awake:(k.thread k.current).waiting=none)
 (booted:(k.thread k.current).stage≠.booting):
 ∃mid,threadYield k=schedule mid ∧ Departs k mid 0 (yielded k):=by
 refine ⟨_,by unfold threadYield;rw[threadCurrent_eq h];rfl,?_⟩
 have inv:=h.setReady awake booted
 unfold yielded
 split at inv
 · rename_i hi
   rw[if_pos hi,if_pos hi]
   refine ⟨inv,rfl,rfl,rfl,rfl,(append_nil _).symm,(append_nil _).symm,rfl,rfl,rfl,rfl,.inl ⟨?_,?_⟩⟩
   · simp[setStatus,setThread]
   · exact ⟨h.busy _ rfl,rfl,rfl⟩
 · rename_i hi
   rw[if_neg hi,if_neg hi]
   refine ⟨inv,rfl,rfl,rfl,rfl,rfl,rfl,rfl,rfl,rfl,rfl,.inl ⟨?_,?_⟩⟩
   · simp[setStatus,setThread]
   · exact ⟨h.busy _ rfl,rfl,rfl⟩

lemma threadExit_returns (h:Inv (some k.current) k)
 (body:(k.thread k.current).stage=.body):Returns k (threadExit k) 0:=by
 unfold threadExit
 rw[threadCurrent_eq h]
 refine schedule_returns [] ⟨h.setDying body rfl ?_ rfl rfl rfl rfl rfl,rfl,rfl,rfl,
  rfl,(append_nil _).symm,(append_nil _).symm,rfl,rfl,rfl,rfl,
  .inr ⟨?_,rfl,rfl⟩⟩
 · exact fun t ht=>update_of_ne ht _ _
 · simp[setStatus,setThread]

def ticked (k:Kernel):Kernel:={k with ticks:=k.ticks+1,threadTicks:=k.threadTicks+1}
lemma Inv.ticked {r:Option ℕ}(h:Inv r k):Inv r (ticked k):={h with}

lemma timerInterrupt_eq (h:Inv (some k.current) k):timerInterrupt k=
  if timeSlice≤k.threadTicks+1 then threadYield (ticked k) else .ok (ticked k):=by
 change (threadCurrent k >>= fun _=>_)=_
 rw[threadCurrent_eq h]
 rfl

lemma timerInterrupt_returns (h:Inv (some k.current) k)(awake:(k.thread k.current).waiting=none)
 (booted:(k.thread k.current).stage≠.booting):Returns k (timerInterrupt k) 1:=by
 rw[timerInterrupt_eq h]
 split
 · obtain ⟨mid,hy,d⟩:=threadYield_departs (k:=ticked k) h.ticked awake booted
   rw[hy]
   exact schedule_returns _ {d with}
 · refine ⟨_,rfl,h.ticked,rfl,rfl,.stay [] ?_ ?_ rfl rfl rfl rfl rfl (.inr (by omega)),
    .grow [] ?_ ?_ rfl rfl⟩
   all_goals exact (append_nil _).symm

lemma Inv.setValue {r:Option ℕ}(h:Inv r k)(value:ℕ):
 Inv r (k.setSema s {k.sema s with value:=value}):=by
 have same:∀u,((k.setSema s {k.sema s with value:=value}).sema u).waiters=(k.sema u).waiters:=by
  intro u
  by_cases hu:u=s
  · simp[setSema,hu]
  · simp[setSema,hu]
 exact {h with
  waiters:=fun u t=>by rw[same];exact h.waiters u t
  waitersNodup:=fun u=>by rw[same];exact h.waitersNodup u}

lemma threadUnblock_eq (hm:isThread k t)(hb:(k.thread t).status=.blocked):
 threadUnblock k t=.ok ((k.pushReady t).setStatus t .ready):=by
 unfold threadUnblock
 rw[if_neg (not_not.2 hm),if_neg (not_not.2 hb)]

/-- `thread_unblock` does to the statuses what it does in `WaitExit`. -/
theorem threadUnblock_agrees {k':Kernel}{w:WaitExit.Kernel}(h:threadUnblock k t=.ok k')
 (same:∀u,(w.thread u).status=(k.thread u).status):
 ∃w',WaitExit.threadUnblock w (some t)=.ok w' ∧ ∀u,(w'.thread u).status=(k'.thread u).status:=by
 unfold threadUnblock at h
 split_ifs at h with live blocked
 cases h
 refine ⟨_,if_pos ((same t).trans (not_not.1 blocked)),fun u=>?_⟩
 by_cases hu:u=t<;>simp[WaitExit.Kernel.setThread,setStatus,setThread,
  pushReady,hu,same]

lemma threadUnblock_returns (h:Inv (some k.current) k)(hm:t∈k.allList)
 (blocked:(k.thread t).status=.blocked)(awake:(k.thread t).waiting=none)
 (idle:k.idleThread≠some t)
 (made:∀q∈k.allList,(k.thread q).stage.creates≠some t):
 Returns k (threadUnblock k t) 0:=by
 have off:=h.off (p:=t) (.inl (by simp[blocked])) (.inr awake)
 refine ⟨_,threadUnblock_eq (h.page t hm).1 blocked,?_,rfl,rfl,
  .stay [t] rfl rfl rfl rfl rfl rfl rfl (.inl rfl),.grow [] ?_ ?_ rfl rfl⟩
 · refine h.wake hm blocked idle made ⟨rfl,rfl,rfl,rfl,rfl⟩ rfl (fun s u=>?_) h.waitersNodup
   refine ⟨fun hu=>⟨?_,hu⟩,fun hu=>hu.2⟩
   rintro rfl
   exact off.2 s hu
 all_goals exact (append_nil _).symm

lemma semaUp_returns (h:Inv (some k.current) k)(s:ℕ):
 ∃k',semaUp k s=.ok k' ∧ Reaches k k' 0 ∧ k'.current=k.current ∧
  k'.idleThread=k.idleThread ∧ k'.allList=k.allList ∧
  ∀u,(k'.thread u).stage=(k.thread u).stage ∧ (k'.thread u).waiting=(k.thread u).waiting:=by
 unfold semaUp
 cases hw:(k.sema s).waiters with
 | nil=>
  exact ⟨_,rfl,.quiet (h.setValue _) rfl rfl rfl ⟨rfl,rfl,rfl,rfl,rfl,rfl,rfl,rfl,rfl,rfl⟩,
   rfl,rfl,rfl,fun _=>⟨rfl,rfl⟩⟩
 | cons t rest=>
  obtain ⟨hm,blocked,waiting⟩:=(h.waiters s t).1 (by simp[hw])
  have nodup:=h.waitersNodup s
  rw[hw,nodup_cons] at nodup
  have sleeps:=h.sleeps t hm (by simp[waiting])
  have idle:k.idleThread≠some t:=fun hi=>by
   obtain ⟨-,hs|hs⟩:=h.idle t hi<;>rw[hs] at sleeps<;>cases sleeps
  have made:∀q∈k.allList,(k.thread q).stage.creates≠some t:=fun q hq hc=>by
   rw[(h.making q hq t hc).2.1] at sleeps
   cases sleeps
  let k₁:=((k.setSema s {k.sema s with waiters:=rest}).pushReady t).setStatus t .ready
  have woken:threadUnblock (k.setSema s {k.sema s with waiters:=rest}) t=.ok k₁:=
   threadUnblock_eq (h.page t hm).1 blocked
  have inv:Inv (some k.current) k₁:=by
   refine h.wake hm blocked idle made ⟨rfl,rfl,rfl,rfl,rfl⟩ rfl (fun u x=>?_) (fun u=>?_)
   · by_cases hu:u=s
     · subst hu
       change x∈(update k.sema u _ u).waiters ↔ _
       rw[update_self,hw,mem_cons]
       constructor
       · intro hx
         refine ⟨?_,.inr hx⟩
         rintro rfl
         exact nodup.1 hx
       · exact fun hx=>hx.2.resolve_left hx.1
     · change x∈(update k.sema s _ u).waiters ↔ _
       rw[update_of_ne hu]
       refine ⟨fun hx=>⟨?_,hx⟩,fun hx=>hx.2⟩
       rintro rfl
       have:=((h.waiters u x).1 hx).2.2
       rw[waiting,Option.some.injEq] at this
       exact hu this.symm
   · by_cases hu:u=s
     · subst hu
       change (update k.sema u _ u).waiters.Nodup
       rw[update_self]
       exact nodup.2
     · change (update k.sema s _ u).waiters.Nodup
       rw[update_of_ne hu]
       exact h.waitersNodup u
  refine ⟨k₁.setSema s {k₁.sema s with value:=((k₁.sema s).value+1)%2^32},?_,
   ⟨inv.setValue _,rfl,rfl,.stay [t] rfl rfl rfl rfl rfl rfl rfl (.inl rfl),
    .grow [] (append_nil _).symm (append_nil _).symm rfl rfl⟩,rfl,rfl,rfl,
   fun u=>?_⟩
  · change (threadUnblock (k.setSema s {k.sema s with waiters:=rest}) t >>= _)=_
    rw[woken]
    rfl
  change (update k.thread t _ u).stage=_ ∧ (update k.thread t _ u).waiting=_
  by_cases hu:u=t
  · subst hu
    rw[update_self]
    exact ⟨rfl,rfl⟩
  · rw[update_of_ne hu]
    exact ⟨rfl,rfl⟩

lemma Inv.advance (h:Inv (some p) k){b:Stage}(creates:∀t,b.creates=some t → Reserved k p t)
 (idle:k.idleThread=some p → b=.idleUp ∨ b=.idleLoop)
 (sleeps:(k.thread p).waiting=none ∨ b.sleeps=true)
 (starts:(k.thread p).stage.starts=false ∧ b.starts=false):
 Inv (some p) (k.setStage p b):=
 h.setStage (h.busy _ rfl) (h.unmade (by simp[h.status])) creates idle sleeps starts

lemma Stage.starts_of_sleeps {b:Stage}(h:b.sleeps=true):b.starts=false:=by
 cases b<;>simp_all[Stage.sleeps,Stage.starts]
lemma Stage.afterDown_creates (b:Stage):b.afterDown.creates=b.creates:=by
 cases b<;>rfl
lemma Stage.afterDown_starts (b:Stage):b.afterDown.starts=b.starts:=by
 cases b<;>rfl

lemma Inv.clearWaiting (h:Inv (some p) k):Inv (some p) (k.setWaiting p none):=
 h.change (v:={k.thread p with waiting:=none}) (h.busy _ rfl) ⟨rfl,rfl,rfl,rfl,rfl⟩
  (.stay h h.off_running (.inl (by simp[h.status])) (.inr rfl) rfl (fun _=>rfl))
  (h.page _ (h.busy _ rfl)).1 (by simp[h.status]) (by simp[h.status]) (fun _ _=>Iff.rfl) rfl
  (fun hw=>absurd rfl hw) (.inr (h.unmade (by simp[h.status])))
  (fun _=>⟨by simp[h.status],fun _=>h.status⟩)

lemma semaDown_returns (h:Inv (some k.current) k)(s:ℕ)
 (sleeps:(k.thread k.current).stage.sleeps=true):Returns k (semaDown k s) 0:=by
 unfold semaDown
 split
 · let waits:=
    (k.setSema s {k.sema s with waiters:=(k.sema s).waiters++[k.current]}).setWaiting
    k.current (some s)
   have hs:(waits.thread waits.current).status=.running:=by
    simp[waits,setWaiting,setThread,setSema,h.status]
   have hm:isThread waits waits.current:=by
    have:=(h.page _ (h.busy _ rfl)).1
    simpa[waits,isThread,setWaiting,setThread,setSema] using this
   rw[threadCurrent_eq h]
   change Returns k (threadCurrent waits >>= fun cur=>schedule (waits.setStatus cur .blocked)) 0
   rw[threadCurrent_ok hm hs]
   refine schedule_returns [] ⟨h.setWaiting sleeps,rfl,rfl,rfl,rfl,
    (append_nil _).symm,(append_nil _).symm,rfl,rfl,rfl,rfl,.inl ⟨?_,?_⟩⟩
   · simp[setStatus,setThread,waits,setWaiting,setSema]
   · exact ⟨h.busy _ rfl,rfl,rfl⟩
 · let k₁:=k.setSema s {k.sema s with value:=(k.sema s).value-1}
   let t:=k.thread k.current
   have inv₁:Inv (some k₁.current) k₁:=h.setValue _
   have inv₂:Inv (some k₁.current) (k₁.setWaiting k.current none):=inv₁.clearWaiting
   have own:(k₁.setWaiting k.current none).thread k.current={t with waiting:=none}:=update_self ..
   have same:k₁.setThread k.current {t with stage:=t.stage.afterDown,waiting:=none}=
     (k₁.setWaiting k.current none).setStage k.current t.stage.afterDown:=by
    unfold setStage
    rw[own]
    simp[setWaiting,setThread]
   refine ⟨_,rfl,.quiet ?_ rfl rfl rfl ⟨rfl,rfl,rfl,rfl,rfl,rfl,rfl,rfl,rfl,rfl⟩⟩
   rw[same]
   have starts:=Stage.starts_of_sleeps sleeps
   refine inv₂.advance (p:=k.current) (fun u hu=>?_) (fun hi=>?_) (.inl (by rw[own]))
    ⟨by rw[own];exact starts,by rw[Stage.afterDown_starts];exact starts⟩
   · refine inv₂.reserved (p:=k.current) (inv₂.busy _ rfl) ?_
     rw[own,←Stage.afterDown_creates]
     exact hu
   · obtain ⟨-,hs|hs⟩:=h.idle _ hi<;>rw[hs] at sleeps<;>cases sleeps

lemma threadCreate_reaches (h:Inv (some k.current) k)
 (body:(k.thread k.current).stage=.body){page:Option ℕ}
 (free:∀t∈page,k.free t=true):Reaches k (threadCreate k page) 0:=by
 cases page with
 | none=>exact .quiet h rfl rfl rfl ⟨rfl,rfl,rfl,rfl,rfl,rfl,rfl,rfl,rfl,rfl⟩
 | some t=>
  have hc:=h.busy _ rfl
  have ht:=free t rfl
  have apart:∀u∈k.allList,u≠t:=by
   rintro u hu rfl
   rw[(h.page u hu).2] at ht
   cases ht
  have inv:Inv (some k.current) (initThread k t):=by
   refine h.initThread ht fun u hu hb=>?_
   have one:=(h.booting u hu hb).1
   rw[one,mem_singleton] at hc
   rw[hc,hb] at body
   cases body
  have other:∀u∈k.allList,(initThread k t).thread u=k.thread u:=fun u hu=>
   update_of_ne (apart u hu) _ _
  have own:(initThread k t).thread t=⟨0,.blocked,threadMagic,.fresh,none⟩:=update_self ..
  refine ⟨?_,rfl,rfl,.stay [] (append_nil _).symm (append_nil _).symm rfl rfl rfl rfl
   rfl (.inl rfl),.grow [t] rfl rfl rfl rfl⟩
  refine inv.advance (p:=k.current) (fun u hu=>?_) (fun hi=>?_) (.inr rfl) ⟨?_,rfl⟩
  · obtain rfl:t=u:=by simpa[Stage.creates] using hu
    refine ⟨by simp[initThread],Ne.symm (apart _ hc),by rw[own],by rw[own],fun q hq hqt=>?_⟩
    have hq':q∈k.allList ∨ q=t:=by simpa[initThread] using hq
    rcases hq' with hq|rfl
    · rw[other q hq] at hqt
      exact absurd rfl (apart t (h.making q hq t hqt).1)
    · rw[own] at hqt
      cases hqt
  · obtain ⟨-,hs|hs⟩:=h.idle _ hi<;>rw[hs] at body<;>cases body
  · rw[other _ hc,body]
    rfl

lemma Inv.setIdle (h:Inv (some p) k)(init:(k.thread p).stage=.idleInit):
 Inv (some p) ({k with idleThread:=some p}.setStage p .idleUp):=by
 have hp:=h.busy p rfl
 have running:=h.status
 have none_:k.idleThread=none:=by
  by_contra hn
  have:=h.booted hn p hp
  rw[init] at this
  cases this
 obtain ⟨i,-,-,-,one⟩:=h.boot none_
 have only:∀t∈k.allList,(k.thread t).stage.starts=true → t=p:=fun t ht hs=>
  (one t ht hs).trans (one p hp (by rw[init];rfl)).symm
 have quietly:∀t∈k.allList,t≠p → (k.thread t).stage.starts=false:=fun t ht htp=>by
  rw[←Bool.not_eq_true]
  exact fun hs=>htp (only t ht hs)
 let idle:={k with idleThread:=some p}.setStage p .idleUp
 have own:idle.thread p={k.thread p with stage:=.idleUp}:=update_self ..
 have other:∀t,t≠p → idle.thread t=k.thread t:=fun t ht=>update_of_ne ht _ _
 have same:∀t,(idle.thread t).status=(k.thread t).status ∧
   (idle.thread t).waiting=(k.thread t).waiting ∧
   (idle.thread t).magic=(k.thread t).magic:=fun t=>by
  by_cases ht:t=p
  · rw[ht,own]
    exact ⟨rfl,rfl,rfl⟩
  · rw[other t ht]
    exact ⟨rfl,rfl,rfl⟩
 have creates:∀t,(idle.thread t).stage.creates=(k.thread t).stage.creates:=fun t=>by
  by_cases ht:t=p
  · rw[ht,own,init]
    rfl
  · rw[other t ht]
 refine ⟨h.nodup,fun t ht=>?_,h.initial,h.busy,fun t ht=>?_,fun t ht=>?_,fun t=>?_,
  h.readyNodup,fun s t=>?_,h.waitersNodup,fun t ht hw=>?_,fun i hi=>?_,
  fun q hq t ht=>?_,fun q hq q' hq' t ht ht'=>?_,fun hn=>(by cases hn),fun _ t ht=>?_,
  fun t ht hb=>?_⟩
 · rw[isThread,(same t).2.2]
   exact h.page t ht
 · rw[(same t).1]
   exact h.running t ht
 · rw[(same t).1]
   exact h.alive t ht
 · rw[(same t).1]
   change t∈k.readyList ↔ t∈k.allList ∧ _ ∧ some p≠some t
   rw[h.ready,none_]
   refine ⟨fun was=>⟨was.1,was.2.1,?_⟩,fun is=>⟨is.1,is.2.1,by simp⟩⟩
   rintro ⟨⟩
   have hr:=was.2.1
   rw[running] at hr
   cases hr
 · rw[(same t).1,(same t).2.1]
   exact h.waiters s t
 · rw[(same t).2.1] at hw
   have:=h.sleeps t ht hw
   by_cases htp:t=p
   · rw[htp,init] at this
     cases this
   · rw[other t htp]
     exact this
 · obtain rfl:p=i:=Option.some.inj hi
   exact ⟨hp,.inl (by rw[own])⟩
 · rw[creates] at ht
   obtain ⟨htm,hts,htb⟩:=h.making q hq t ht
   refine ⟨htm,?_,(same t).1.trans htb⟩
   rw[other t ?_]
   · exact hts
   · rintro rfl
     rw[init] at hts
     cases hts
 · rw[creates] at ht ht'
   exact h.alone q hq q' hq' t ht ht'
 · by_cases htp:t=p
   · rw[htp,own]
     rfl
   · rw[other t htp]
     exact quietly t ht htp
 · by_cases htp:t=p
   · rw[htp,own] at hb
     cases hb
   · rw[other t htp] at hb
     have:=quietly t ht htp
     rw[hb] at this
     cases this

lemma Inv.allocateTid {r:Option ℕ}(h:Inv r k)(ht:t∈k.allList):Inv r (allocateTid k t):=by
 refine h.change (v:={k.thread t with tid:=k.nextTid}) ht ⟨rfl,rfl,rfl,rfl,rfl⟩
  (.keep h ht rfl rfl rfl (fun _=>rfl)) (h.page t ht).1 (h.alive t ht) (h.running t ht)
  (fun _ _=>Iff.rfl) rfl (h.sleeps t ht) ?_ (fun hs=>⟨?_,fun hb=>(h.booting t ht hb).2⟩)
 · by_cases hb:(k.thread t).status=.blocked
   · exact .inl hb
   · exact .inr (h.unmade hb)
 · cases hi:k.idleThread with
   | none=>
    obtain ⟨i,-,-,hb,one⟩:=h.boot hi
    rw[one t ht hs]
    exact hb
   | some i=>
    have:=h.booted (by simp[hi]) t ht
    rw[this] at hs
    cases hs

variable (h:Inv (some k.current) k)
include h

lemma statement_returns (enabled:Enabled k .step):Returns k (statement k) 0:=by
 have hc:=h.busy _ rfl
 cases hw:(k.thread k.current).waiting with
 | some s=>
  simp only[statement,hw]
  exact semaDown_returns h s (h.sleeps _ hc (by simp[hw]))
 | none=>
  have enabled:(k.thread k.current).stage≠.body ∧ (k.thread k.current).stage≠.booting:=
   enabled.resolve_left fun hn=>hn hw
  cases hs:(k.thread k.current).stage<;>simp only[statement,hw,hs]
  case body=>exact absurd hs enabled.1
  case booting=>exact absurd hs enabled.2
  case fresh=>
   exact ⟨k,rfl,.quiet h rfl rfl rfl ⟨rfl,rfl,rfl,rfl,rfl,rfl,rfl,rfl,rfl,rfl⟩⟩
  case allocating t=>exact semaDown_returns h _ (by rw[hs];rfl)
  case starting=>exact semaDown_returns h _ (by rw[hs];rfl)
  case idleLoop=>exact threadBlock_returns h hw (by rw[hs];rfl)
  case idleInit=>
   exact ⟨_,rfl,.quiet (h.setIdle hs) rfl rfl rfl ⟨rfl,rfl,rfl,rfl,rfl,rfl,rfl,rfl,rfl,rfl⟩⟩
  case numbering t=>
   have made:(k.thread k.current).stage.creates=some t:=by rw[hs];rfl
   obtain ⟨htm,htc,-⟩:=h.reserved hc made
   have inv:Inv (some k.current) (allocateTid k t):=h.allocateTid htm
   have own:(allocateTid k t).thread k.current=k.thread k.current:=update_of_ne (Ne.symm htc) _ _
   refine ⟨_,rfl,.quiet ?_ rfl rfl rfl ⟨rfl,rfl,rfl,rfl,rfl,rfl,rfl,rfl,rfl,rfl⟩⟩
   refine inv.advance (p:=k.current) (fun u hu=>?_) (fun hi=>?_) (.inl ?_) ⟨?_,rfl⟩
   · refine inv.reserved (p:=k.current) (inv.busy _ rfl) ?_
     rw[own,hs]
     exact hu
   · obtain ⟨-,hi|hi⟩:=h.idle _ hi<;>rw[hs] at hi<;>cases hi
   · rw[own,hw]
   · rw[own,hs]
     rfl
  case releasing t=>
   obtain ⟨k',hup,reaches,current,idle,-,threads⟩:=semaUp_returns h tidLock
   rw[hup]
   have inv:Inv (some k.current) k':=current▸reaches.inv
   refine ⟨_,rfl,reaches.setThread ?_⟩
   rw[current]
   refine inv.advance (p:=k.current) (fun u hu=>?_) (fun hi=>?_) (.inl ?_) ⟨?_,rfl⟩
   · refine inv.reserved (p:=k.current) (inv.busy _ rfl) ?_
     rw[(threads _).1,hs]
     exact hu
   · obtain ⟨-,hi|hi⟩:=h.idle _ (idle▸hi)<;>rw[hs] at hi<;>cases hi
   · rw[(threads _).2,hw]
   · rw[(threads _).1,hs]
     rfl
  case idleUp=>
   obtain ⟨k',hup,reaches,current,-,-,threads⟩:=semaUp_returns h idleStarted
   rw[hup]
   have inv:Inv (some k.current) k':=current▸reaches.inv
   refine ⟨_,rfl,reaches.setThread ?_⟩
   rw[current]
   refine inv.advance (p:=k.current) (fun u hu=>(by cases hu)) (fun _=>.inr rfl) (.inl ?_) ⟨?_,rfl⟩
   · rw[(threads _).2,hw]
   · rw[(threads _).1,hs]
     rfl
  case unblocking t=>
   have made:(k.thread k.current).stage.creates=some t:=by rw[hs];rfl
   obtain ⟨htm,htc,hts,htb,only⟩:=h.reserved hc made
   have awake:(k.thread t).waiting=none:=by
    by_contra hn
    have:=h.sleeps t htm hn
    rw[hts] at this
    cases this
   have active:∀u,(k.thread u).stage≠.idleUp → (k.thread u).stage≠.idleLoop →
     k.idleThread≠some u:=fun u hup hloop hi=>(h.idle u hi).2.elim hup hloop
   let k₁:=k.setStage k.current .body
   have inv₁:Inv (some k.current) k₁:=
    h.advance (fun u hu=>(by cases hu))
     (fun hi=>absurd hi (active _ (by simp[hs]) (by simp[hs]))) (.inl hw)
     ⟨by rw[hs];rfl,rfl⟩
   have own:k₁.thread k.current={k.thread k.current with stage:=.body}:=update_self ..
   have other:∀u,u≠k.current → k₁.thread u=k.thread u:=fun u hu=>
    update_of_ne hu _ _
   have unmade:∀q∈k₁.allList,(k₁.thread q).stage.creates≠some t:=fun q hq hqt=>by
    by_cases hqc:q=k.current
    · rw[hqc,own] at hqt
      cases hqt
    · rw[other q hqc] at hqt
      exact hqc (only q hq hqt)
   have idle:k.idleThread≠some t:=active t (by simp[hts]) (by simp[hts])
   let k₂:=k₁.setStage t .body
   have inv₂:Inv (some k.current) k₂:=by
    refine inv₁.setStage htm unmade (fun u hu=>(by cases hu)) (fun hi=>absurd hi idle)
     (.inr rfl) ⟨?_,rfl⟩
    rw[other t htc,hts]
    rfl
   have new:k₂.thread t={k.thread t with stage:=.body}:=by
    change update k₁.thread t {k₁.thread t with stage:=.body} t=_
    rw[update_self,other t htc]
   have kept:∀q,(k₂.thread q).stage.creates=some t → (k₁.thread q).stage.creates=some t:=by
    intro q hqt
    by_cases hqn:q=t
    · rw[hqn,new] at hqt
      cases hqt
    · exact (congrArg (Stage.creates ∘ Thread.stage) (update_of_ne hqn _ _)).symm.trans hqt
   obtain ⟨k',hk',reaches⟩:=threadUnblock_returns (k:=k₂) (t:=t) inv₂ htm
    (by rw[new];exact htb) (by rw[new];exact awake) idle
    (fun q hq hqt=>unmade q hq (kept q hqt))
   exact ⟨k',hk',reaches.of_setThread.of_setThread⟩

lemma threadStart_returns (booting:(k.thread k.current).stage=.booting)(free:k.free t=true):
 Returns k (threadStart k t) 0:=by
 have hc:=h.busy _ rfl
 have one:=(h.booting _ hc booting).1
 have htc:t≠k.current:=by
  rintro rfl
  rw[(h.page _ hc).2] at free
  cases free
 have off:=h.off_running
 have noReady:k.readyList=[]:=by
  refine eq_nil_iff_forall_not_mem.2 fun u hu=>?_
  have hm:=((h.ready u).1 hu).1
  rw[one,mem_singleton] at hm
  exact off.1 (hm▸hu)
 have noWaiters:∀s,(k.sema s).waiters=[]:=fun s=>by
  refine eq_nil_iff_forall_not_mem.2 fun u hu=>?_
  have hm:=((h.waiters s u).1 hu).1
  rw[one,mem_singleton] at hm
  exact off.2 s (hm▸hu)
 have noIdle:k.idleThread=none:=by
  by_contra hn
  have:=h.booted hn _ hc
  rw[booting] at this
  cases this
 have awake:(k.thread k.current).waiting=none:=by
  by_contra hn
  have:=h.sleeps _ hc hn
  rw[booting] at this
  cases this
 let new:=((allocateTid (initThread k t) t).setStage t .idleInit).setStage k.current .starting
 have own:new.thread t=⟨k.nextTid,.blocked,threadMagic,.idleInit,none⟩:=by
  simp[new,allocateTid,initThread,setStage,setThread,htc]
 have main:new.thread k.current={k.thread k.current with stage:=.starting}:=by
  simp[new,allocateTid,initThread,setStage,setThread,Ne.symm htc]
 let k':=(new.pushReady t).setStatus t .ready
 have own':k'.thread t=⟨k.nextTid,.ready,threadMagic,.idleInit,none⟩:=by
  change update new.thread t {new.thread t with status:=.ready} t=_
  rw[update_self,own]
 have main':k'.thread k.current={k.thread k.current with stage:=.starting}:=
  (update_of_ne (Ne.symm htc) _ _).trans main
 have all:k'.allList=[k.current,t]:=congrArg (· ++ [t]) one
 have ready:k'.readyList=[t]:=congrArg (· ++ [t]) noReady
 have idle:k'.idleThread=none:=noIdle
 have waiters:∀s,(k'.sema s).waiters=[]:=noWaiters
 refine ⟨k',threadUnblock_eq (by rw[isThread,own]) (by rw[own]),?_,rfl,rfl,
  .stay [t] rfl rfl rfl rfl rfl rfl rfl (.inl rfl),.grow [t] rfl rfl rfl rfl⟩
 have magic:=(h.page _ hc).1
 have status:=h.status
 have kept:k'.free t=false ∧ k'.free k.current=false ∧ k'.free k.initialThread=false:=by
  refine ⟨update_self ..,(update_of_ne (Ne.symm htc) _ _).trans (h.page _ hc).2,?_⟩
  change update k.free t false k.initialThread=false
  by_cases hi:k.initialThread=t
  · rw[hi,update_self]
  · rw[update_of_ne hi]
    exact h.initial
 change Inv (some k.current) k'
 refine ⟨by simp[all,Ne.symm htc],?_,kept.2.2,by simp[all],?_,?_,?_,by simp[ready],
  by simp[waiters,all,main',own',awake],by simp[waiters],?_,by simp[idle],?_,?_,?_,
  by simp[idle],?_⟩
 all_goals simp only[all,mem_cons,not_mem_nil,or_false,forall_eq_or_imp,forall_eq,
  main',own',isThread,kept.1,kept.2.1]
 · exact ⟨⟨magic,trivial⟩,by simp⟩
 · simp[status,Ne.symm htc]
 · simp[status]
 · intro u
   rw[ready,idle]
   by_cases hu:u=k.current
   · simp[hu,main',status,Ne.symm htc]
   · by_cases hut:u=t
     · simp[hut,own']
     · simp[hu,hut]
 · simp[awake]
 · simp[Stage.creates]
 · simp[Stage.creates]
 · exact fun _=>⟨t,.inr rfl,by rw[own'];rfl,by rw[own'];simp,by simp[Stage.starts]⟩
 · simp

lemma run_returns {a:Act}(enabled:Enabled k a):Returns k (run k a) (if a=.timer then 1 else 0):=by
 cases a with
 | threadStart t=>exact threadStart_returns h enabled.1 enabled.2
 | threadCreate page=>exact ⟨_,rfl,threadCreate_reaches h enabled.1.2 enabled.2⟩
 | threadYield=>
  obtain ⟨mid,hy,d⟩:=threadYield_departs h enabled.1 (by simp[enabled.2])
  change Returns k (threadYield k) 0
  rw[hy]
  exact schedule_returns _ d
 | threadBlock=>exact threadBlock_returns h enabled.1 (by rw[enabled.2];rfl)
 | threadUnblock t=>
  obtain ⟨-,ht,blocked,awake,body⟩:=enabled
  refine threadUnblock_returns h ht blocked awake (fun hi=>?_) (fun q hq hqt=>?_)
  · obtain ⟨-,hs|hs⟩:=h.idle t hi<;>rw[hs] at body<;>cases body
  · rw[(h.making q hq t hqt).2.1] at body
    cases body
 | threadExit=>exact threadExit_returns h enabled.2
 | semaDown s=>exact semaDown_returns h s (by rw[enabled.2];rfl)
 | semaTryDown s=>
  refine ⟨_,rfl,?_⟩
  unfold semaTryDown
  split
  · exact .quiet (h.setValue _) rfl rfl rfl ⟨rfl,rfl,rfl,rfl,rfl,rfl,rfl,rfl,rfl,rfl⟩
  · exact .quiet h rfl rfl rfl ⟨rfl,rfl,rfl,rfl,rfl,rfl,rfl,rfl,rfl,rfl⟩
 | semaUp s=>
  obtain ⟨k',hk',reaches,-⟩:=semaUp_returns h s
  exact ⟨k',hk',reaches⟩
 | timer=>exact timerInterrupt_returns h enabled.1 enabled.2
 | step=>exact statement_returns h enabled

end Pintos.Threads
