import Pintos.Semaphores

/-!
# Locks

`lock_acquire`, `lock_try_acquire` and `lock_release` over the scheduler. Every statement is a
step of its own, so the timer can come between any two of them. A lock is named by the number
of its semaphore.
-/
namespace Pintos.Locks
open ExecRuns Threads Function Option

inductive Phase where
 | out
 | acquiring
 | trying
 | acquired
 | entered
 | inside
 | leaving
 | releasing
 deriving DecidableEq,Repr

namespace Phase

def busy:Phase→Bool
 | .out | .inside=>false
 | _=>true
def owns:Phase→Bool
 | .acquired | .entered | .inside | .leaving | .releasing=>true
 | _=>false

/-- Inside the lock: from the store of `holder`, which is the last thing an acquire does before
it returns, to the store that clears it, the first that `lock_release` does after its assertions. -/
def within:Phase→Bool
 | .entered | .inside | .leaving=>true
 | _=>false

end Phase

/-- `op` is the lock in whose function a thread is. -/
structure State where
 kernel:Kernel
 holder:ℕ→Option ℕ
 phase:ℕ→ℕ→Phase
 op:ℕ→Option ℕ

inductive Act where
 | kernel (a:Threads.Act)
 | lockAcquire (l:ℕ)
 | lockTryAcquire (l:ℕ)
 | lockRelease (l:ℕ)
 | step
 deriving DecidableEq,Repr

section
variable (s:State)

def State.setPhase (t l:ℕ)(p:Phase):State:=
 {s with
   phase:=update s.phase t (update (s.phase t) l p)
   op:=update s.op t (if p.busy then some l else none)}
def State.setHolder (l:ℕ)(t:Option ℕ):State:={s with holder:=update s.holder l t}
def lockHeldByCurrentThread (l:ℕ):Prop:=s.holder l=some s.kernel.current
instance (l:ℕ):Decidable (lockHeldByCurrentThread s l):=inferInstanceAs (Decidable (_=_))

/-- What the scheduler does in the next turn of the loop of `sema_down`. -/
def downAct (k:Kernel)(l:ℕ):Threads.Act:=
 if (k.thread k.current).waiting=none then .semaDown l else .step

def statement (l:ℕ):Phase→Option State
 | .acquiring=>
  (Threads.next s.kernel (downAct s.kernel l)).map (fun k=>
   if (s.kernel.sema l).value=0 then {s with kernel:=k}
   else {s with kernel:=k}.setPhase s.kernel.current l .acquired)
 | .trying=>
  (Threads.next s.kernel (.semaTryDown l)).map (fun k=>
   {s with kernel:=k}.setPhase s.kernel.current l
     (if (s.kernel.sema l).value=0 then .out else .acquired))
 | .acquired=>some ((s.setHolder l (some s.kernel.current)).setPhase s.kernel.current l .entered)
 | .entered=>some (s.setPhase s.kernel.current l .inside)
 | .leaving=>
  if lockHeldByCurrentThread s l then
   some ((s.setHolder l none).setPhase s.kernel.current l .releasing)
  else none
 | .releasing=>
  (Threads.next s.kernel (.semaUp l)).map (fun k=>
   {s with kernel:=k}.setPhase s.kernel.current l .out)
 | .out | .inside=>none

def next:Act→Option State
 | .kernel a=>(Threads.next s.kernel a).map (fun k=>{s with kernel:=k})
 | .lockAcquire l=>
  if lockHeldByCurrentThread s l then none
  else some (s.setPhase s.kernel.current l .acquiring)
 | .lockTryAcquire l=>
  if lockHeldByCurrentThread s l then none
  else some (s.setPhase s.kernel.current l .trying)
 | .lockRelease l=>some (s.setPhase s.kernel.current l .leaving)
 | .step=>
  match s.op s.kernel.current with
  | some l=>statement s l (s.phase s.kernel.current l)
  | none=>none

end

/-- The lock that an action is about. -/
def target (s:State):Act→Option ℕ
 | .kernel _=>none
 | .lockAcquire l | .lockTryAcquire l | .lockRelease l=>some l
 | .step=>s.op s.kernel.current

/-- What an interrupt handler may do, whatever the running thread is at. -/
def fromHandler:Threads.Act→Bool
 | .timer | .semaUp _ | .semaTryDown _ | .threadUnblock _=>true
 | _=>false

/-- The semaphore that an event is about. -/
def Event.sema:Event→Option ℕ
 | .quiet=>none
 | .up s | .down s | .sleep s=>some s

section
variable (isLock:ℕ→Bool)(s:State)

def Idle:Prop:=InBody s.kernel ∧ s.op s.kernel.current=none

/-- The scheduler runs as before, but leaves the semaphores of locks alone, and no thread exits
with a lock. Threads call the functions with their preconditions. -/
def Respects:Act→Prop
 | .kernel a=>Enabled s.kernel a ∧ (∀l∈Event.sema (event s.kernel a),isLock l=false) ∧
   (s.op s.kernel.current≠none → fromHandler a=true) ∧
   (a=.threadExit → ∀l,s.phase s.kernel.current l=.out)
 | .lockAcquire l | .lockTryAcquire l=>
  isLock l=true ∧ Idle s ∧ ¬lockHeldByCurrentThread s l
 | .lockRelease l=>isLock l=true ∧ Idle s ∧ lockHeldByCurrentThread s l
 | .step=>∀l∈s.op s.kernel.current,
   if s.phase s.kernel.current l=.acquiring then Enabled s.kernel (downAct s.kernel l)
   else InBody s.kernel

variable {v t:ℕ}{col col':ℕ→Phase}{p:Phase}

def Owned (v:ℕ)(col:ℕ→Phase):Prop:=
 (v=1 ∧ ∀t,(col t).owns=false) ∨ (v=0 ∧ ∃t,(col t).owns=true ∧ ∀u,(col u).owns=true → u=t)

variable (h:Owned v col)
include h

lemma Owned.same (same:∀t,(col' t).owns=(col t).owns):Owned v col':=by
 unfold Owned
 simp only[same]
 exact h

lemma Owned.unique {u:ℕ}(ht:(col t).owns=true)(hu:(col u).owns=true):t=u:=by
 rcases h with ⟨-,none⟩|⟨-,w,-,only⟩
 · rw[none t] at ht
   cases ht
 · exact (only t ht).trans (only u hu).symm

lemma Owned.update (same:p.owns=(col t).owns):Owned v (update col t p):=by
 refine h.same fun u=>?_
 by_cases hu:u=t
 · rw[hu,update_self,same]
 · rw[update_of_ne hu]

lemma Owned.take (pos:v≠0)(own:p.owns=true):Owned (v-1) (Function.update col t p):=by
 obtain ⟨rfl,none⟩:=h.resolve_right fun hn=>pos hn.1
 refine .inr ⟨rfl,t,by rw[update_self,own],fun u hu=>?_⟩
 by_contra apart
 rw[update_of_ne apart,none u] at hu
 cases hu

lemma Owned.give (own:(col t).owns=true)(free:p.owns=false):
 Owned ((v+1)%2^32) (Function.update col t p):=by
 rcases h with ⟨-,none⟩|⟨rfl,w,-,only⟩
 · rw[none t] at own
   cases own
 · refine .inl ⟨rfl,fun u=>?_⟩
   by_cases hu:u=t
   · rw[hu,update_self,free]
   · rw[update_of_ne hu,←Bool.not_eq_true]
     exact fun hn=>hu ((only u hn).trans (only t own).symm)

end

/-- Every lock has at most one owner, and `holder` names it while it is inside. -/
structure Inv (isLock:ℕ→Bool)(s:State):Prop where
 kernel:Threads.Inv (some s.kernel.current) s.kernel
 busy:∀t l,(s.phase t l).busy=true → s.op t=some l
 locks:∀t l,s.op t=some l → isLock l=true
 waiting:∀t∈s.kernel.allList,∀l,s.phase t l=.acquiring →
  (s.kernel.thread t).waiting=none ∨ (s.kernel.thread t).waiting=some l
 value:∀l,isLock l=true → Owned (s.kernel.sema l).value (fun t=>s.phase t l)
 holder:∀l t,s.holder l=some t ↔ (s.phase t l).within=true

section
variable {isLock:ℕ→Bool}{s s':State}{k':Kernel}{e:Event}{a:Act}{l t:ℕ}{p:Phase}{holder:ℕ→Option ℕ}

section
variable (h:Inv isLock s)
include h

lemma Inv.waiting_other (affects:Affects s.kernel k' e):
 ∀t∈k'.allList,t≠s.kernel.current → ∀l,s.phase t l=.acquiring →
  (k'.thread t).waiting=none ∨ (k'.thread t).waiting=some l:=by
 intro t ht hc l hp
 by_cases old:t∈s.kernel.allList
 · rw[affects.others t old hc]
   exact h.waiting t old l hp
 · exact .inl (affects.fresh t ht old)

section
variable (own:s.op s.kernel.current=none ∨ s.op s.kernel.current=some l)(lock:isLock l=true)
include own lock

lemma Inv.move (inv:Threads.Inv (some k'.current) k')
 (others:∀t∈k'.allList,t≠s.kernel.current → ∀m,s.phase t m=.acquiring →
  (k'.thread t).waiting=none ∨ (k'.thread t).waiting=some m)
 (waits:p=.acquiring → (k'.thread s.kernel.current).waiting=none)
 (values:∀m,m≠l → (k'.sema m).value=(s.kernel.sema m).value)
 (value:Owned (k'.sema l).value (update (fun t=>s.phase t l) s.kernel.current p))
 (holders:∀m,m≠l → holder m=s.holder m)(holds:∀t,holder l=some t ↔
  (update (fun t=>s.phase t l) s.kernel.current p t).within=true):
 Inv isLock ({s with kernel:=k',holder:=holder}.setPhase s.kernel.current l p):=by
 let s':={s with kernel:=k',holder:=holder}.setPhase s.kernel.current l p
 have column:(fun t=>s'.phase t l)=update (fun t=>s.phase t l) s.kernel.current p:=by
  funext t
  change update s.phase s.kernel.current _ t l=_
  by_cases ht:t=s.kernel.current
  · rw[ht,update_self,update_self,update_self]
  · rw[update_of_ne ht,update_of_ne ht]
 have elsewhere:∀t m,m≠l → s'.phase t m=s.phase t m:=by
  intro t m hm
  change update s.phase s.kernel.current _ t m=_
  by_cases ht:t=s.kernel.current
  · rw[ht,update_self,update_of_ne hm]
  · rw[update_of_ne ht]
 have others_phase:∀t m,t≠s.kernel.current → s'.phase t m=s.phase t m:=fun t m ht=>
  congrFun (update_of_ne ht _ _) m
 have own_phase:s'.phase s.kernel.current l=p:=
  (congrFun column s.kernel.current).trans (update_self ..)
 have own_op:s'.op s.kernel.current=if p.busy then some l else none:=update_self ..
 have others_op:∀t,t≠s.kernel.current → s'.op t=s.op t:=fun t ht=>
  update_of_ne ht _ _
 have one:∀m,m≠l → (s.phase s.kernel.current m).busy≠true:=by
  intro m hm hb
  have:=h.busy _ _ hb
  rcases own with hn|hs
  · rw[hn] at this
    cases this
  · rw[hs] at this
    exact hm (some.inj this).symm
 refine ⟨inv,fun t m hb=>?_,fun t m ho=>?_,fun t ht m hp=>?_,fun m hm=>?_,fun m t=>?_⟩
 · by_cases ht:t=s.kernel.current
   · subst ht
     by_cases hm:m=l
     · subst hm
       rw[own_phase] at hb
       rw[own_op,if_pos hb]
     · rw[elsewhere _ m hm] at hb
       exact absurd hb (one m hm)
   · rw[others_phase t m ht] at hb
     rw[others_op t ht]
     exact h.busy t m hb
 · by_cases ht:t=s.kernel.current
   · subst ht
     rw[own_op] at ho
     split at ho
     · exact some.inj ho▸lock
     · cases ho
   · exact h.locks t m (others_op t ht▸ho)
 · by_cases hc:t=s.kernel.current
   · subst hc
     by_cases hm:m=l
     · subst hm
       exact .inl (waits (own_phase▸hp))
     · rw[elsewhere _ m hm] at hp
       exact absurd (by rw[hp];rfl) (one m hm)
   · rw[others_phase t m hc] at hp
     exact others t ht hc m hp
 · by_cases hl:m=l
   · subst hl
     rw[column]
     exact value
   · have same:(fun t=>s'.phase t m)=fun t=>s.phase t m:=funext fun t=>elsewhere t m hl
     rw[same]
     change Owned (k'.sema m).value _
     rw[values m hl]
     exact h.value m hm
 · by_cases hl:m=l
   · subst hl
     have own:s'.phase t m=_:=congrFun column t
     rw[own]
     exact holds t
   · rw[elsewhere t m hl]
     change holder m=some t ↔ _
     rw[holders m hl]
     exact h.holder m t

lemma Inv.stay (body:InBody s.kernel)(same:p.owns=(s.phase s.kernel.current l).owns)
 (holders:∀m,m≠l → holder m=s.holder m)(holds:∀t,holder l=some t ↔
  (update (fun t=>s.phase t l) s.kernel.current p t).within=true):
 Inv isLock ({s with holder:=holder}.setPhase s.kernel.current l p):=
 h.move own lock h.kernel (fun t ht _=>h.waiting t ht) (fun _=>body.1) (fun _ _=>rfl)
  ((h.value l lock).update same) holders holds

end

lemma Inv.holds_same (same:p.within=(s.phase s.kernel.current l).within)(t:ℕ):
 s.holder l=some t ↔ (update (fun t=>s.phase t l) s.kernel.current p t).within=true:=by
 rw[h.holder]
 by_cases ht:t=s.kernel.current
 · rw[ht,update_self,same]
 · rw[update_of_ne ht]

lemma Inv.kernelStep (inv:Threads.Inv (some k'.current) k')(affects:Affects s.kernel k' e)
 (values:∀l,isLock l=true → (k'.sema l).value=(s.kernel.sema l).value)
 (own:∀l,s.phase s.kernel.current l=.acquiring → (k'.thread s.kernel.current).waiting=none ∨
   (k'.thread s.kernel.current).waiting=some l):
 Inv isLock {s with kernel:=k'}:=by
 refine ⟨inv,h.busy,h.locks,fun t ht l hp=>?_,fun l hl=>?_,h.holder⟩
 · by_cases hc:t=s.kernel.current
   · exact hc▸own l (hc▸hp)
   · exact h.waiting_other affects t ht hc l hp
 · rw[values l hl]
   exact h.value l hl

end

lemma event_downAct {k:Kernel}
 (h:(k.thread k.current).waiting=none ∨ (k.thread k.current).waiting=some l):
 event k (downAct k l)=turn k l:=by
 unfold downAct
 rcases h with hw|hw
 · rw[if_pos hw]
   rfl
 · simp[event,hw]

lemma owns_of_within (h:p.within=true):p.owns=true:=by
 cases p<;>first | rfl | cases h

section
variable (h:Inv isLock s)
include h

lemma Inv.alone (lock:isLock l=true)
 (own:(s.phase s.kernel.current l).owns=true)(ht:t≠s.kernel.current):
 (s.phase t l).within=false:=by
 rw[←Bool.not_eq_true]
 exact fun hw=>ht ((h.value l lock).unique (owns_of_within hw) own)

variable (op:s.op s.kernel.current=some l)
include op

lemma Inv.take (within:(s.phase s.kernel.current l).within=false){a:Threads.Act}
 (enabled:Enabled s.kernel a)(step:Threads.next s.kernel a=some k')
 (down:event s.kernel a=.down l)(pos:(s.kernel.sema l).value≠0):
 Inv isLock ({s with kernel:=k'}.setPhase s.kernel.current l .acquired):=by
 have lock:=h.locks _ _ op
 have affects:=next_affects h.kernel enabled step
 have value:=value_next h.kernel enabled step
 rw[down] at affects value
 refine h.move (.inr op) lock (next_reaches h.kernel enabled step).inv (h.waiting_other affects)
  (fun hn=>(by cases hn)) (fun m hm=>?_) ?_ (fun _ _=>rfl) (h.holds_same within.symm)
 · simp[value m,Ne.symm hm]
 · have taken:(k'.sema l).value=(s.kernel.sema l).value-1:=by simp[value l]
   rw[taken]
   exact (h.value l lock).take pos rfl

lemma acquiring_inv (phase:s.phase s.kernel.current l=.acquiring)
 (enabled:Enabled s.kernel (downAct s.kernel l))
 (step:Threads.next s.kernel (downAct s.kernel l)=some k'):
 Inv isLock (if (s.kernel.sema l).value=0 then {s with kernel:=k'}
  else {s with kernel:=k'}.setPhase s.kernel.current l .acquired):=by
 have tested:=event_downAct (h.waiting _ (h.kernel.busy _ rfl) l phase)
 unfold turn at tested
 split
 · rename_i zero
   have affects:=next_affects h.kernel enabled step
   have value:=value_next h.kernel enabled step
   rw[tested,if_pos zero] at affects value
   refine h.kernelStep (next_reaches h.kernel enabled step).inv affects
    (fun m _=>by simp[value m]) (fun m hm=>.inr ?_)
   have busy:=h.busy _ m (by rw[hm];rfl)
   rw[op,some.injEq] at busy
   exact busy▸affects.current
 · rename_i pos
   exact h.take op (by rw[phase];rfl) enabled step (tested.trans (if_neg pos)) pos

lemma trying_inv (phase:s.phase s.kernel.current l=.trying)(body:InBody s.kernel)
 (step:Threads.next s.kernel (.semaTryDown l)=some k'):
 Inv isLock ({s with kernel:=k'}.setPhase s.kernel.current l
  (if (s.kernel.sema l).value=0 then .out else .acquired)):=by
 have lock:=h.locks _ _ op
 have enabled:Enabled s.kernel (.semaTryDown l):=⟨body.1,by simp[body.2]⟩
 have tested:event s.kernel (.semaTryDown l)=
   if (s.kernel.sema l).value=0 then .quiet else .down l:=rfl
 split
 · rename_i zero
   have affects:=next_affects h.kernel enabled step
   have value:=value_next h.kernel enabled step
   rw[tested,if_pos zero] at affects value
   refine h.move (.inr op) lock (next_reaches h.kernel enabled step).inv
    (h.waiting_other affects) (fun hn=>(by cases hn)) (fun m _=>by simp[value m]) ?_
    (fun _ _=>rfl) (h.holds_same (by rw[phase];rfl))
   have same:(k'.sema l).value=(s.kernel.sema l).value:=by simp[value l]
   rw[same]
   exact (h.value l lock).update (by rw[phase];rfl)
 · rename_i pos
   exact h.take op (by rw[phase];rfl) enabled step (tested.trans (if_neg pos)) pos

lemma releasing_inv (phase:s.phase s.kernel.current l=.releasing)(body:InBody s.kernel)
 (step:Threads.next s.kernel (.semaUp l)=some k'):
 Inv isLock ({s with kernel:=k'}.setPhase s.kernel.current l .out):=by
 have lock:=h.locks _ _ op
 have enabled:Enabled s.kernel (.semaUp l):=⟨body.1,by simp[body.2]⟩
 have inv:=(next_reaches h.kernel enabled step).inv
 have affects:=next_affects h.kernel enabled step
 have value:=value_next h.kernel enabled step
 have raised:event s.kernel (.semaUp l)=.up l:=rfl
 rw[raised] at affects value
 refine h.move (.inr op) lock inv (h.waiting_other affects) (fun hn=>(by cases hn))
  (fun m hm=>?_) ?_ (fun _ _=>rfl) (h.holds_same (by rw[phase];rfl))
 · simp[value m,Ne.symm hm]
 · have given:(k'.sema l).value=((s.kernel.sema l).value+1)%2^32:=by simp[value l]
   rw[given]
   exact (h.value l lock).give (by rw[phase];rfl) rfl

end

inductive Does (s:State)(l:ℕ):Phase→State→Prop where
 | down {k':Kernel} (ran:Threads.next s.kernel (downAct s.kernel l)=some k'):
   Does s l .acquiring (if (s.kernel.sema l).value=0 then {s with kernel:=k'}
    else {s with kernel:=k'}.setPhase s.kernel.current l .acquired)
 | tryDown {k':Kernel} (ran:Threads.next s.kernel (.semaTryDown l)=some k'):
   Does s l .trying ({s with kernel:=k'}.setPhase s.kernel.current l
    (if (s.kernel.sema l).value=0 then .out else .acquired))
 | hold:Does s l .acquired
   ((s.setHolder l (some s.kernel.current)).setPhase s.kernel.current l .entered)
 | enter:Does s l .entered (s.setPhase s.kernel.current l .inside)
 | clear:Does s l .leaving ((s.setHolder l none).setPhase s.kernel.current l .releasing)
 | up {k':Kernel} (ran:Threads.next s.kernel (.semaUp l)=some k'):
   Does s l .releasing ({s with kernel:=k'}.setPhase s.kernel.current l .out)

lemma statement_does (step:statement s l p=some s'):Does s l p s':=by
 cases p with
 | out | inside=>cases step
 | acquiring=>
  obtain ⟨k',ran,rfl⟩:=map_eq_some_iff.1 step
  exact .down ran
 | trying=>
  rw[statement] at step
  obtain ⟨k',ran,rfl⟩:=map_eq_some_iff.1 step
  exact .tryDown ran
 | acquired=>
  cases step
  exact .hold
 | entered=>
  cases step
  exact .enter
 | leaving=>
  change (if lockHeldByCurrentThread s l then _ else none)=some s' at step
  split at step
  · cases step
    exact .clear
  · cases step
 | releasing=>
  obtain ⟨k',ran,rfl⟩:=map_eq_some_iff.1 step
  exact .up ran

lemma statement_inv (h:Inv isLock s)(op:s.op s.kernel.current=some l)
 (guard:if s.phase s.kernel.current l=.acquiring then Enabled s.kernel (downAct s.kernel l)
  else InBody s.kernel)
 (step:statement s l (s.phase s.kernel.current l)=some s'):Inv isLock s':=by
 have lock:=h.locks _ _ op
 have does:=statement_does step
 generalize phase:s.phase s.kernel.current l=p at guard does
 -- Between phases that own the semaphore alike the scheduler does nothing.
 have stay:∀ {q:Phase} {holder:ℕ→Option ℕ},p≠.acquiring → q.owns=p.owns →
   (∀m,m≠l → holder m=s.holder m) →
   (∀t,holder l=some t ↔ (update (fun t=>s.phase t l) s.kernel.current q t).within=true) →
   Inv isLock ({s with holder:=holder}.setPhase s.kernel.current l q):=by
  intro q holder other same holders holds
  rw[if_neg other] at guard
  exact h.stay (.inr op) lock guard (by rw[phase,same]) holders holds
 cases does with
 | down ran=>exact acquiring_inv h op phase (by rwa[if_pos rfl] at guard) ran
 | tryDown ran=>exact trying_inv h op phase (by rwa[if_neg nofun] at guard) ran
 | up ran=>exact releasing_inv h op phase (by rwa[if_neg nofun] at guard) ran
 | enter=>exact stay nofun rfl (fun _ _=>rfl) (h.holds_same (by rw[phase];rfl))
 | hold | clear=>
  refine stay nofun rfl (fun m hm=>update_of_ne hm _ _) (fun t=>?_)
  by_cases ht:t=s.kernel.current
  · subst ht
    simp[Phase.within]
  · rw[update_of_ne ht,h.alone lock (by rw[phase];rfl) ht]
    simp[Ne.symm ht]

lemma Inv.phase_idle (h:Inv isLock s)(idle:s.op t=none):
 s.phase t l=if s.holder l=some t then .inside else .out:=by
 have quiet:(s.phase t l).busy=false:=by
  rw[←Bool.not_eq_true]
  intro hb
  rw[h.busy t l hb] at idle
  cases idle
 simp only[h.holder]
 cases hp:s.phase t l<;>rw[hp] at quiet<;>first | rfl | cases quiet

lemma handler_awake {k:Kernel}{a:Threads.Act}(enabled:Enabled k a)
 (handler:fromHandler a=true)(affects:Affects k k' (event k a)):
 (k'.thread k.current).waiting=none:=by
 have current:=affects.current
 cases a with
 | timer | semaUp u=>exact current.trans enabled.1
 | threadUnblock u=>exact current.trans enabled.1.1
 | semaTryDown u=>
  change _=Event.waits (if (k.sema u).value=0 then .quiet else .down u) _ at current
  rw[current]
  split
  · exact enabled.1
  · rfl
 | _=>cases handler

lemma next_inv (h:Inv isLock s)(respects:Respects isLock s a)
 (step:next s a=some s'):Inv isLock s':=by
 cases a with
 | kernel a=>
  obtain ⟨enabled,apart,handler,-⟩:=respects
  obtain ⟨k',hk,rfl⟩:=map_eq_some_iff.1 step
  have affects:=next_affects h.kernel enabled hk
  refine h.kernelStep (next_reaches h.kernel enabled hk).inv affects (fun l hl=>?_) (fun l hp=>?_)
  · have value:=value_next h.kernel enabled hk l
    have other:∀e,Event.sema e=some l → event s.kernel a≠e:=by
     rintro e he rfl
     rw[apart l he] at hl
     cases hl
    rw[value,if_neg (other _ rfl),if_neg (other _ rfl),Nat.sub_zero]
  · -- a thread in `lock_acquire` is interrupted
    have busy:s.op s.kernel.current≠none:=by
     rw[h.busy _ l (by rw[hp];rfl)]
     simp
    exact .inl (handler_awake enabled (handler busy) affects)
 | lockAcquire l | lockTryAcquire l=>
  obtain ⟨lock,⟨body,idle⟩,free⟩:=respects
  change (if lockHeldByCurrentThread s l then none else _)=some s' at step
  rw[if_neg free] at step
  cases step
  have phase:s.phase s.kernel.current l=.out:=by rw[h.phase_idle idle];exact if_neg free
  exact h.stay (.inl idle) lock body (by rw[phase];rfl) (fun _ _=>rfl)
   (h.holds_same (by rw[phase];rfl))
 | lockRelease l=>
  obtain ⟨lock,⟨body,idle⟩,held⟩:=respects
  cases step
  have phase:s.phase s.kernel.current l=.inside:=by
   rw[h.phase_idle idle]
   exact if_pos held
  exact h.stay (.inl idle) lock body (by rw[phase];rfl) (fun _ _=>rfl)
   (h.holds_same (by rw[phase];rfl))
 | step=>
  cases op:s.op s.kernel.current with
  | none=>
   simp only[next,op] at step
   cases step
  | some l=>
   simp only[next,op] at step
   exact statement_inv h op (respects l op) step

lemma setPhase_self:(s.setPhase t l p).phase t l=p:=by
 change update s.phase t _ t l=p
 rw[update_self,update_self]
lemma setPhase_op:(s.setPhase t l p).op t=if p.busy then some l else none:=update_self ..
lemma setPhase_other {u:ℕ}(h:u≠t):
 (s.setPhase t l p).phase u=s.phase u ∧ (s.setPhase t l p).op u=s.op u:=
 ⟨update_of_ne h _ _,update_of_ne h _ _⟩

lemma statement_kernel (h:Inv isLock s)
 (guard:if s.phase s.kernel.current l=.acquiring then Enabled s.kernel (downAct s.kernel l)
  else InBody s.kernel)
 (step:statement s l (s.phase s.kernel.current l)=some s'):
 s'.kernel=s.kernel ∨ ∃a,Enabled s.kernel a ∧ Threads.next s.kernel a=some s'.kernel ∧
  ∀m∈Event.sema (event s.kernel a),m=l:=by
 have does:=statement_does step
 generalize phase:s.phase s.kernel.current l=p at guard does
 have body:p≠.acquiring → Interruptible s.kernel:=fun hn=>by
  rw[if_neg hn] at guard
  exact ⟨guard.1,by simp[guard.2]⟩
 cases does with
 | hold | enter | clear=>exact .inl rfl
 | down ran=>
  refine .inr ⟨_,guard,?_,fun m hm=>?_⟩
  · rw[ran]
    split<;>rfl
  · rw[event_downAct (h.waiting _ (h.kernel.busy _ rfl) l phase)] at hm
    unfold turn at hm
    split at hm<;>exact (some.inj hm).symm
 | tryDown ran=>
  refine .inr ⟨.semaTryDown l,body nofun,ran,fun m hm=>?_⟩
  change m∈Event.sema (if (s.kernel.sema l).value=0 then .quiet else .down l) at hm
  split at hm
  · cases hm
  · exact (some.inj hm).symm
 | up ran=>exact .inr ⟨.semaUp l,body nofun,ran,fun m hm=>(some.inj hm).symm⟩

lemma next_kernel (h:Inv isLock s)(respects:Respects isLock s a)(step:next s a=some s'):
 s'.kernel=s.kernel ∨ ∃b,Enabled s.kernel b ∧ Threads.next s.kernel b=some s'.kernel ∧
  (a=.kernel b ∨ ∀m∈Event.sema (event s.kernel b),isLock m=true):=by
 cases a with
 | kernel b=>
  obtain ⟨k',hk,rfl⟩:=map_eq_some_iff.1 step
  exact .inr ⟨b,respects.1,hk,.inl rfl⟩
 | lockAcquire l | lockTryAcquire l=>
  simp only[next] at step
  split at step
  · cases step
  · cases step
    exact .inl rfl
 | lockRelease l=>
  cases step
  exact .inl rfl
 | step=>
  cases op:s.op s.kernel.current with
  | none=>
   simp only[next,op] at step
   cases step
  | some l=>
   simp only[next,op] at step
   refine (statement_kernel h (respects l op) step).imp_right ?_
   rintro ⟨b,enabled,ran,own⟩
   exact ⟨b,enabled,ran,.inr fun m hm=>own m hm▸h.locks _ _ op⟩

lemma next_shape (step:next s a=some s'):∃k' holder,s'={s with kernel:=k',holder:=holder} ∨
  ∃l p,target s a=some l ∧ s'={s with kernel:=k',holder:=holder}.setPhase s.kernel.current l p:=by
 cases a with
 | kernel b=>
  obtain ⟨k',-,rfl⟩:=map_eq_some_iff.1 step
  exact ⟨k',_,.inl rfl⟩
 | lockAcquire l | lockTryAcquire l=>
  simp only[next] at step
  split at step
  · cases step
  · cases step
    exact ⟨_,_,.inr ⟨l,_,rfl,rfl⟩⟩
 | lockRelease l=>
  cases step
  exact ⟨_,_,.inr ⟨l,_,rfl,rfl⟩⟩
 | step=>
  simp only[next] at step
  split at step
  · rename_i l op
    have does:=statement_does step
    generalize s.phase s.kernel.current l=p at does
    cases does with
    | @down k' ran=>
     split
     · exact ⟨k',_,.inl rfl⟩
     · exact ⟨k',_,.inr ⟨l,_,op,rfl⟩⟩
    | tryDown _ | up _ | hold | enter | clear=>exact ⟨_,_,.inr ⟨l,_,op,rfl⟩⟩
  · cases step

lemma next_others (step:next s a=some s')(ht:t≠s.kernel.current):
 s'.phase t=s.phase t ∧ s'.op t=s.op t:=by
 obtain ⟨k',holder,rfl|⟨l,p,-,rfl⟩⟩:=next_shape step
 · exact ⟨rfl,rfl⟩
 · exact setPhase_other ht

lemma next_apart (step:next s a=some s')(apart:target s a≠some l)(t:ℕ):s'.phase t l=s.phase t l:=by
 obtain ⟨k',holder,rfl|⟨m,p,about,rfl⟩⟩:=next_shape step
 · rfl
 · have ne:l≠m:=fun same=>apart (same▸about)
   change update s.phase s.kernel.current _ t l=_
   by_cases ht:t=s.kernel.current
   · rw[ht,update_self,update_of_ne ne]
   · rw[update_of_ne ht]

def Phase.Enters (p:Phase):Prop:=p=.acquiring ∨ p=.acquired ∨ p=.entered
def Phase.Leaves (p:Phase):Prop:=p=.leaving ∨ p=.releasing

variable (step:next s .step=some s')(op:s.op s.kernel.current=some l)
include step op

/-- A thread in `lock_acquire` stays there, or it comes out of it inside the lock. -/
lemma acquire_step (phase:(s.phase s.kernel.current l).Enters):
 (s'.op s.kernel.current=some l ∧ (s'.phase s.kernel.current l).Enters) ∨
 (s.phase s.kernel.current l=.entered ∧ s'=s.setPhase s.kernel.current l .inside):=by
 simp only[next,op] at step
 have does:=statement_does step
 rcases phase with phase|phase|phase<;>rw[phase] at does<;>cases does
 · refine .inl ?_
   split
   · exact ⟨op,.inl phase⟩
   · exact ⟨setPhase_op,.inr (.inl setPhase_self)⟩
 · exact .inl ⟨setPhase_op,.inr (.inr setPhase_self)⟩
 · exact .inr ⟨phase,rfl⟩

lemma release_step (phase:(s.phase s.kernel.current l).Leaves):
 (s'.op s.kernel.current=some l ∧ s'.phase s.kernel.current l=.releasing) ∨
 ∃k',Threads.next s.kernel (.semaUp l)=some k' ∧
  s'={s with kernel:=k'}.setPhase s.kernel.current l .out:=by
 simp only[next,op] at step
 have does:=statement_does step
 rcases phase with phase|phase<;>rw[phase] at does<;>cases does
 · exact .inl ⟨setPhase_op,setPhase_self⟩
 · exact .inr ⟨_,by assumption,rfl⟩

end

variable {isLock:ℕ→Bool}{memory:ℕ→Thread}{free:ℕ→Bool}{values:ℕ→ℕ}{main:ℕ}
 {as:List Act}{s:State}{l:ℕ}

def unlocked (k:Kernel):State:=⟨k,fun _=>none,fun _ _=>.out,fun _=>none⟩

lemma unlocked_inv (init:∀l,isLock l=true → 2≤l ∧ values l=1):
 Inv isLock (unlocked (threadInit memory free values main)):=by
 refine ⟨threadInit_inv ..,fun _ _ hb=>(by cases hb),fun _ _ ho=>(by cases ho),
  fun _ _ _ hp=>(by cases hp),fun l hl=>.inl ⟨?_,fun _=>rfl⟩,fun _ _=>?_⟩
 · obtain ⟨two,one⟩:=init l hl
   have tid:l≠tidLock:=by unfold tidLock;omega
   have idle:l≠idleStarted:=by unfold idleStarted;omega
   simp only[unlocked,threadInit,if_neg tid,if_neg idle,one]
 · simp[unlocked,Phase.within]

theorem lock_exclusion (init:∀l,isLock l=true → 2≤l ∧ values l=1)
 (run:Runs next (Respects isLock) (unlocked (threadInit memory free values main)) as s)
 (lock:isLock l=true):
 (∀t u,(s.phase t l).within=true → (s.phase u l).within=true → t=u) ∧
 ((s.kernel.sema l).value=0 ∨ (s.kernel.sema l).value=1) ∧
 ((s.kernel.sema l).value=1 → s.holder l=none) ∧
 (∀t,s.holder l=some t ↔ (s.phase t l).within=true) ∧
 (lockHeldByCurrentThread s l ↔ (s.phase s.kernel.current l).within=true):=by
 have inv:Inv isLock s:=
  run.invariant (fun _ _ _ h respects step=>next_inv h respects step) (unlocked_inv init)
 have owned:=inv.value l lock
 refine ⟨fun t u ht hu=>owned.unique (owns_of_within ht) (owns_of_within hu),?_,fun one=>?_,
  inv.holder l,inv.holder l _⟩
 · exact owned.elim (fun h=>.inr h.1) (fun h=>.inl h.1)
 · rcases owned with ⟨-,none_⟩|⟨zero,-⟩
   · refine eq_none_iff_forall_ne_some.2 fun t ht=>?_
     have own:=owns_of_within ((inv.holder l t).1 ht)
     rw[none_ t] at own
     cases own
   · omega

def onlyTwo (l:ℕ):Bool:=l == 2

def Simple (s:State):Act→Prop
 | .kernel a=>a≠.threadExit ∧ Enabled s.kernel a ∧
   (∀l∈Event.sema (event s.kernel a),onlyTwo l=false) ∧
   (s.op s.kernel.current≠none → fromHandler a=true)
 | a=>Respects onlyTwo s a

instance (s:State):(a:Act) → Decidable (Simple s a)
 | .kernel a=>inferInstanceAs (Decidable (a≠.threadExit ∧ Enabled s.kernel a ∧
   (∀l∈Event.sema (event s.kernel a),onlyTwo l=false) ∧
   (s.op s.kernel.current≠none → fromHandler a=true)))
 | .lockAcquire _ | .lockTryAcquire _ | .lockRelease _=>
  inferInstanceAs (Decidable (_ ∧ (_ ∧ _) ∧ _))
 | .step=>inferInstanceAs (Decidable (∀l∈s.op s.kernel.current,
   if s.phase s.kernel.current l=.acquiring then Enabled s.kernel (downAct s.kernel l)
   else InBody s.kernel))

lemma respects_of_simple (s:State)(a:Act)(h:Simple s a):Respects onlyTwo s a:=by
 cases a with
 | kernel a=>
  obtain ⟨stays,enabled,apart,handler⟩:=h
  exact ⟨enabled,apart,handler,fun hn=>absurd hn stays⟩
 | _=>exact h

lemma onlyTwo_init (l:ℕ)(hl:onlyTwo l=true):2≤l ∧ (fun _:ℕ=>1) l=1:=by
 rw[onlyTwo,beq_iff_eq] at hl
 exact ⟨by omega,rfl⟩
def lockKernel:Kernel:=threadInit (fun _=>poisoned) (fun _=>true) (fun _=>1) 0

def handOver:List Act:=
 [.kernel (.threadStart 1),.kernel .step,.kernel .step,.kernel .step,.kernel .step,
  .kernel .step,.lockAcquire 2,.step,.step,.step,.kernel (.threadCreate (some 2)),
  .kernel .step,.kernel .step,.kernel .step,.kernel .step,.kernel .timer,.kernel .timer,
  .kernel .timer,.kernel .timer,.lockAcquire 2,.step,.lockRelease 2,.step,.step,
  .kernel .threadYield,.step]

theorem lock_exclusion_handOver:∃s,Runs next (Respects onlyTwo) (unlocked lockKernel) handOver s ∧
 s.phase 2 2=.acquired ∧ (s.kernel.sema 2).value=0 ∧ s.holder 2=none ∧
 ∀t u,(s.phase t 2).within=true → (s.phase u 2).within=true → t=u:=by
 have found:(exec next Simple (unlocked lockKernel) handOver).any (fun s=>
   s.phase 2 2=.acquired ∧ (s.kernel.sema 2).value=0 ∧ s.holder 2=none)=true:=by
  decide +kernel
 obtain ⟨s,run,facts⟩:=exec_any found
 obtain ⟨phase,value,holder⟩:=of_decide_eq_true facts
 have run:=run.mono respects_of_simple
 exact ⟨s,run,phase,value,holder,(lock_exclusion onlyTwo_init run rfl).1⟩

end Pintos.Locks
