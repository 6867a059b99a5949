import Pintos.Conditions

namespace Pintos.Conditions
open ExecRuns Threads Locks Function List Option

/-- What concerns one thread: `queued` says that it is on `waiters`, or has been taken from
there and its semaphore not been raised yet. -/
structure Stat where
 place:Place
 phase:Phase
 op:Option ℕ
 value:ℕ
 queued:Bool
 released:ℕ
 returned:ℕ

namespace Stat
variable (x:Stat)

def Free:Prop:=x.queued=false ∧ x.released=x.returned
def Freed:Prop:=x.queued=false ∧ x.released=x.returned+1

/-- Waiting: released or not, and the semaphore says which. -/
def Waits:Prop:=(x.queued=true ∧ x.released=x.returned ∧ x.value=0) ∨ (x.Freed ∧ x.value=1)

def Inside:Prop:=x.phase=.inside ∧ x.op=none

def Ok:Prop:=
 match x.place with
 | .outside=>x.Free
 | .initing=>x.Free ∧ x.Inside
 | .pushing=>(x.Free ∧ x.value=0) ∧ x.Inside
 | .queued=>x.Waits ∧ x.Inside
 | .releasing=>x.Waits ∧ (x.phase=.leaving ∨ x.phase=.releasing) ∧ x.op=some theLock
 | .sleeping=>x.Waits ∧ x.phase=.out ∧ x.op=none
 | .awake=>x.Freed ∧ x.phase=.out ∧ x.op=none
 | .acquiring=>x.Freed ∧ (x.phase=.acquiring ∨ x.phase=.acquired ∨ x.phase=.entered) ∧
   x.op=some theLock
 | .signalling _ _ _ | .raising _ _ _ _=>x.Free ∧ x.Inside

end Stat

def Place.holds:Place→Bool
 | .initing | .pushing | .queued | .signalling _ _ _ | .raising _ _ _ _=>true
 | _=>false
def Place.calls:Place→Bool
 | .signalling _ _ _ | .raising _ _ _ _=>true
 | _=>false
def Place.raises:Place→List ℕ
 | .raising _ _ _ t=>[t]
 | _=>[]

/-- A signal or broadcast in progress: the queue of its call is what it has released, the thread
that it is at, and what is left. -/
def CallOk (waiters before:List ℕ)(released:List ℕ):Place→Prop
 | .signalling all queue sofar=>
  queue=sofar++waiters ∧ released=before++sofar ∧ (all=false → sofar=[])
 | .raising all queue sofar t=>
  queue=sofar++t::waiters ∧ released=before++sofar ∧ (all=false → sofar=[])
 | _=>True

def Entry.Ok:Entry→Prop
 | .signals all queue released=>released=if all then queue else queue.take 1
 | .returns t holder=>holder=some t
 | _=>True

def stat (s:State)(queue:List ℕ)(t:ℕ):Stat where
 place:=s.place t
 phase:=s.locks.phase t theLock
 op:=s.locks.op t
 value:=(s.locks.kernel.sema (waiterSema t)).value
 queued:=decide (t∈queue)
 released:=(released s.log).count t
 returned:=(returned s.log).count t

/-- A thread is in the `sema_down` of no wait but its own. -/
def WaitsAt (waiting:Option ℕ)(place:Place)(t:ℕ):Prop:=
 (∀u,waiting=some (waiterSema u) → u=t ∧ place=.sleeping) ∧
  (place=.sleeping → waiting=none ∨ waiting=some (waiterSema t))

/-- `taken` is the thread that has been taken from `waiters` and whose semaphore has not been
raised, if there is one. -/
structure Inv (s:State)(taken:List ℕ):Prop where
 locks:Locks.Inv isLock s.locks
 prompt:Prompt s.locks.kernel
 waits:∀t∈s.locks.kernel.allList,WaitsAt (s.locks.kernel.thread t).waiting (s.place t) t
 stands:∀t,(stat s (taken++s.waiters) t).Ok
 nodup:(taken++s.waiters).Nodup
 fifo:waited s.log=released s.log++taken++s.waiters
 raised:∀t all queue sofar u,s.place t=.raising all queue sofar u → taken=[u]
 lowered:(∀t all queue sofar u,s.place t≠.raising all queue sofar u) → taken=[]
 calls:∀t,CallOk s.waiters (signalled s.log) (released s.log) (s.place t)
 settled:(∀t,(s.place t).calls=false) → released s.log=signalled s.log
 entries:∀e∈s.log,e.Ok

section
variable {s:State}{taken:List ℕ}{t u:ℕ}{e:Event}{p:Place}

lemma Inv.inside (h:Inv s taken)(hp:(s.place t).holds=true):
 s.locks.phase t theLock=.inside ∧ s.locks.op t=none:=by
 have ok:=h.stands t
 have place:(stat s (taken++s.waiters) t).place=s.place t:=rfl
 unfold Stat.Ok at ok
 rw[place] at ok
 cases hs:s.place t<;>rw[hs] at ok hp<;>first | exact ok.2 | cases hp

lemma Inv.call_ok (h:Inv s taken)(hp:s.place s.current=p):
 CallOk s.waiters (signalled s.log) (released s.log) p:=hp▸h.calls _

lemma Inv.stands_at (h:Inv s taken)(hp:s.place t=p):
 ({stat s (taken++s.waiters) t with place:=p}:Stat).Ok:=by
 rw[←hp]
 exact h.stands t

lemma Inv.only (h:Inv s taken)(ht:s.locks.phase t theLock=.inside)
 (hu:(s.place u).holds=true):u=t:=by
 refine (h.locks.value theLock rfl).unique (t:=u) (u:=t) ?_ ?_
 · rw[(h.inside hu).1]
   rfl
 · rw[ht]
   rfl

lemma Inv.quiet_others (h:Inv s taken)(ht:s.locks.phase t theLock=.inside)
 (hu:u≠t):(s.place u).holds=false:=by
 rw[←Bool.not_eq_true]
 exact fun hn=>hu (h.only ht hn)
lemma calls_holds (h:p.holds=false):p.calls=false:=by
 cases p<;>first | rfl | cases h
lemma callOk_of_quiet (h:p.calls=false){waiters before released:List ℕ}:
 CallOk waiters before released p:=by
 cases p<;>trivial
lemma waiterSema_inj (h:waiterSema t=waiterSema u):t=u:=by
 unfold waiterSema at h
 omega
lemma isWaiterSema_waiterSema:isWaiterSema (waiterSema t)=true:=by
 unfold isWaiterSema waiterSema
 rw[decide_eq_true_eq]
 omega
lemma isLock_waiterSema:isLock (waiterSema t)=false:=by
 unfold isLock waiterSema theLock
 rw[beq_eq_false_iff_ne]
 omega
lemma semas_of_ne {k:Kernel}{n:ℕ}(h:Event.sema e≠some n):e.semas k n=k.sema n:=by
 cases e with
 | quiet=>rfl
 | up m | down m | sleep m=>exact update_of_ne (fun hn=>h (congrArg some hn.symm)) _ _
lemma waitsAt_none:WaitsAt none p t:=⟨fun u hu=>(by cases hu),fun _=>.inl rfl⟩
lemma waitsAt_of_apart {waiting:Option ℕ}(apart:∀u,waiting≠some (waiterSema u))
 (hp:p≠.sleeping):WaitsAt waiting p t:=
 ⟨fun u hu=>absurd hu (apart u),fun hn=>absurd hn hp⟩

end

section
variable {s s':State}{taken:List ℕ}{t u:ℕ}{l':Locks.State}{k':Kernel}
 {a:Locks.Act}{e:Event}{p:Place}

structure Framed (s:State)(l':Locks.State):Prop where
 inv:Locks.Inv isLock l'
 prompt:Prompt l'.kernel
 values:∀t,t≠s.current → (l'.kernel.sema (waiterSema t)).value=
  (s.locks.kernel.sema (waiterSema t)).value
 phase:∀t,t≠s.current → l'.phase t=s.locks.phase t ∧ l'.op t=s.locks.op t
 waiting:∀t∈l'.kernel.allList,t≠s.current → (l'.kernel.thread t).waiting=none ∨
  (t∈s.locks.kernel.allList ∧ (l'.kernel.thread t).waiting=(s.locks.kernel.thread t).waiting)

lemma Inv.still (h:Inv s taken):Framed s s.locks:=
 ⟨h.locks,h.prompt,fun _ _=>rfl,fun _ _=>⟨rfl,rfl⟩,fun _ ht _=>.inr ⟨ht,rfl⟩⟩

lemma waiting_affects {k:Kernel}(affects:Affects k k' e):
 ∀t∈k'.allList,t≠k.current → (k'.thread t).waiting=none ∨
  (t∈k.allList ∧ (k'.thread t).waiting=(k.thread t).waiting):=by
 intro t ht hc
 by_cases old:t∈k.allList
 · exact .inr ⟨old,affects.others t old hc⟩
 · exact .inl (affects.fresh t ht old)

lemma waiting_affects_apart {k:Kernel}{n:ℕ}(affects:Affects k k' e)
 (apart:Event.sema e≠some n)(before:(k.thread k.current).waiting≠some n):
 (k'.thread k.current).waiting≠some n:=by
 rw[affects.current]
 cases e with
 | quiet | up _=>exact before
 | down _=>exact nofun
 | sleep _=>exact apart

lemma Inv.framed (h:Inv s taken){b:Threads.Act}(respects:Locks.Respects isLock s.locks (.kernel b))
 (step:Threads.next s.locks.kernel b=some k')
 (own:∀t,t≠s.current → Event.sema (event s.locks.kernel b)≠some (waiterSema t)):
 Framed s {s.locks with kernel:=k'}:=by
 have affects:=Threads.next_affects h.locks.kernel respects.1 step
 have inv:Locks.Inv isLock {s.locks with kernel:=k'}:=by
  refine Locks.next_inv h.locks respects ?_
  simp only[Locks.next,step,map_some]
 refine ⟨inv,h.prompt.next h.locks.kernel respects.1 step,fun t ht=>?_,
  fun _ _=>⟨rfl,rfl⟩,waiting_affects affects⟩
 rw[affects.sema,semas_of_ne (own t ht)]

lemma Inv.lockStep (h:Inv s taken)(step:Locks.next s.locks a=some l')
 (respects:Locks.Respects isLock s.locks a)(outer:∀b,a≠.kernel b):
 Framed s l' ∧ (∀t,l'.kernel.sema (waiterSema t)=s.locks.kernel.sema (waiterSema t)) ∧
  ((∀u,(s.locks.kernel.thread s.current).waiting≠some (waiterSema u)) →
   ∀u,(l'.kernel.thread s.current).waiting≠some (waiterSema u)):=by
 have inv:=Locks.next_inv h.locks respects step
 have phase:∀t,t≠s.current → _:=fun t ht=>Locks.next_others step ht
 rcases Locks.next_kernel h.locks respects step with same|⟨b,enabled,ran,own⟩
 · refine ⟨⟨inv,same▸h.prompt,fun t _=>by rw[same],phase,fun t ht _=>?_⟩,
    fun t=>by rw[same],fun hn=>by rw[same];exact hn⟩
   rw[same] at ht ⊢
   exact .inr ⟨ht,rfl⟩
 · have affects:=Threads.next_affects h.locks.kernel enabled ran
   have apart:∀t,Event.sema (event s.locks.kernel b)≠some (waiterSema t):=by
    intro t ht
    have:=own.resolve_left (outer b) _ ht
    cases this
   have semas:∀t,l'.kernel.sema (waiterSema t)=s.locks.kernel.sema (waiterSema t):=
    fun t=>by rw[affects.sema,semas_of_ne (apart t)]
   refine ⟨⟨inv,h.prompt.next h.locks.kernel enabled ran,fun t _=>by rw[semas t],phase,
    waiting_affects affects⟩,semas,fun before u=>?_⟩
   exact waiting_affects_apart affects (apart u) (before u)

lemma stat_eq {queue queue':List ℕ}(place:s'.place t=s.place t)
 (phase:s'.locks.phase t=s.locks.phase t ∧ s'.locks.op t=s.locks.op t)
 (value:(s'.locks.kernel.sema (waiterSema t)).value=(s.locks.kernel.sema (waiterSema t)).value)
 (queued:t∈queue' ↔ t∈queue)
 (counts:(released s'.log).count t=(released s.log).count t ∧
  (returned s'.log).count t=(returned s.log).count t):
 stat s' queue' t=stat s queue t:=by
 unfold stat
 rw[place,phase.1,phase.2,value,counts.1,counts.2]
 simp only[queued]

section
variable (h:Inv s taken)
include h

lemma Framed.waits (framed:Framed s l'){place:ℕ→Place}(others:∀t,t≠s.current → place t=s.place t)
 (own:WaitsAt (l'.kernel.thread s.current).waiting (place s.current) s.current):
 ∀t∈l'.kernel.allList,WaitsAt (l'.kernel.thread t).waiting (place t) t:=by
 intro t ht
 by_cases hc:t=s.current
 · exact hc▸own
 · rw[others t hc]
   rcases framed.waiting t ht hc with none|⟨old,same⟩
   · rw[none]
     exact waitsAt_none
   · rw[same]
     exact h.waits t old

lemma Inv.advance (framed:Framed s l'){log:List Entry}
 (quiet:(s.place s.current).calls=false)(quiet':p.calls=false)
 (own:Stat.Ok ⟨p,l'.phase s.current theLock,l'.op s.current,
  (l'.kernel.sema (waiterSema s.current)).value,decide (s.current∈taken++s.waiters),
  (released log).count s.current,(returned log).count s.current⟩)
 (waits:WaitsAt (l'.kernel.thread s.current).waiting p s.current)
 (logs:waited log=waited s.log ∧ released log=released s.log ∧ signalled log=signalled s.log)
 (returns:∀t,t≠s.current → (returned log).count t=(returned s.log).count t)
 (entries:∀e∈log,e.Ok):
 Inv ⟨l',s.waiters,update s.place s.current p,log⟩ taken:=by
 have self:update s.place s.current p s.current=p:=update_self ..
 have others:∀t,t≠s.current → update s.place s.current p t=s.place t:=
  fun t ht=>update_of_ne ht _ _
 have calls:∀t,((update s.place s.current p t).calls=false ↔ (s.place t).calls=false):=by
  intro t
  by_cases ht:t=s.current
  · rw[ht,self,quiet,quiet']
  · rw[others t ht]
 obtain ⟨logWaited,logReleased,logSignalled⟩:=logs
 have waits:=framed.waits h others (self.symm▸waits)
 refine ⟨framed.inv,framed.prompt,waits,fun t=>?_,h.nodup,?_,
  fun t all queue sofar u hp=>?_,fun none=>?_,fun t=>?_,fun none=>?_,entries⟩
 · by_cases ht:t=s.current
   · subst ht
     unfold stat
     dsimp only
     rw[self]
     exact own
   · have same:stat ⟨l',s.waiters,update s.place s.current p,log⟩
       (taken++s.waiters) t=stat s (taken++s.waiters) t:=
      stat_eq (others t ht) (framed.phase t ht) (framed.values t ht) Iff.rfl
       ⟨by rw[logReleased],returns t ht⟩
     exact same▸h.stands t
 · rw[logWaited,logReleased]
   exact h.fifo
 · replace hp:update s.place s.current p t=.raising all queue sofar u:=hp
   have busy:(s.place t).calls≠false:=by
    rw[ne_eq,←calls,hp]
    simp[Place.calls]
   have ht:t≠s.current:=by
    rintro rfl
    exact busy quiet
   exact h.raised t all queue sofar u ((others t ht).symm.trans hp)
 · refine h.lowered fun t all queue sofar u hp=>?_
   have ht:t≠s.current:=by
    rintro rfl
    rw[hp] at quiet
    cases quiet
   exact none t all queue sofar u ((others t ht).trans hp)
 · change CallOk s.waiters (signalled log) (released log) (update s.place s.current p t)
   rw[logReleased,logSignalled]
   by_cases ht:t=s.current
   · rw[ht,self]
     exact callOk_of_quiet quiet'
   · rw[others t ht]
     exact h.calls t
 · rw[logReleased,logSignalled]
   exact h.settled fun t=>(calls t).1 (none t)

lemma Inv.relock (framed:Framed s l')
 (own:(stat {s with locks:=l'} (taken++s.waiters) s.current).Ok)
 (waits:WaitsAt (l'.kernel.thread s.current).waiting (s.place s.current) s.current):
 Inv {s with locks:=l'} taken:=by
 refine ⟨framed.inv,framed.prompt,framed.waits h (fun _ _=>rfl) waits,fun t=>?_,h.nodup,
  h.fifo,h.raised,h.lowered,h.calls,h.settled,h.entries⟩
 by_cases ht:t=s.current
 · exact ht▸own
 · have same:stat {s with locks:=l'} (taken++s.waiters) t=stat s (taken++s.waiters) t:=
    stat_eq rfl (framed.phase t ht) (framed.values t ht) Iff.rfl ⟨rfl,rfl⟩
   exact same▸h.stands t

lemma Inv.waits_current:
 WaitsAt (s.locks.kernel.thread s.current).waiting (s.place s.current) s.current:=
 h.waits _ (h.locks.kernel.busy _ rfl)
lemma Inv.waiting_apart (hp:s.place s.current≠.sleeping)(u:ℕ):
 (s.locks.kernel.thread s.current).waiting≠some (waiterSema u):=fun hu=>
 hp (h.waits_current.1 u hu).2

lemma locks_inv (respects:Respects s (.locks a))
 (step:Locks.next s.locks a=some l'):Inv {s with locks:=l'} taken:=by
 obtain ⟨respects,apart,handler⟩:=respects
 by_cases kernel:∃b,a=.kernel b
 · obtain ⟨b,rfl⟩:=kernel
   obtain ⟨k',ran,rfl⟩:=map_eq_some_iff.1 step
   have affects:=Threads.next_affects h.locks.kernel respects.1 ran
   have away:∀t,Event.sema (event s.locks.kernel b)≠some (waiterSema t):=by
    intro t ht
    have:=apart _ ht
    rw[isWaiterSema_waiterSema] at this
    cases this
   refine h.relock (h.framed respects ran fun t _=>away t) ?_ ?_
   · have same:stat {s with locks.kernel:=k'} (taken++s.waiters) s.current=
       stat s (taken++s.waiters) s.current:=by
      refine stat_eq rfl ⟨rfl,rfl⟩ ?_ Iff.rfl ⟨rfl,rfl⟩
      rw[affects.sema,semas_of_ne (away _)]
     exact same▸h.stands _
   · by_cases outside:s.place s.current=.outside
     · refine waitsAt_of_apart (fun u=>?_) (by simp[outside])
       exact waiting_affects_apart affects (away u) (h.waiting_apart (by simp[outside]) u)
     · have none:(k'.thread s.current).waiting=none:=
        handler_awake respects.1 (handler outside) affects
       rw[none]
       exact waitsAt_none
 · have outside:s.place s.current=.outside:=by
    by_contra hn
    have:=handler hn
    cases a with
    | kernel b=>exact kernel ⟨b,rfl⟩
    | _=>cases this
   obtain ⟨framed,-,away⟩:=h.lockStep step respects (fun b hb=>kernel ⟨b,hb⟩)
   refine h.relock framed ?_
    (waitsAt_of_apart (away (h.waiting_apart (by simp[outside]))) (by simp[outside]))
   obtain ⟨queued,counts⟩:=h.stands_at outside
   simp only[stat,outside]
   exact ⟨queued,counts⟩

lemma Inv.held_inside (idle:s.locks.op s.current=none)
 (held:lockHeldByCurrentThread s.locks theLock):
 s.locks.phase s.current theLock=.inside:=by
 rw[h.locks.phase_idle idle]
 exact if_pos held

lemma condWait_inv (respects:Respects s .condWait):Inv (s.put s.current .initing) taken:=by
 obtain ⟨idle,outside,held⟩:=respects
 refine h.advance h.still (by rw[outside];rfl) rfl ?_ ?_ ⟨rfl,rfl,rfl⟩ (fun _ _=>rfl) h.entries
 · exact And.intro (h.stands_at outside) ⟨h.held_inside idle.2 held,idle.2⟩
 · exact waitsAt_of_apart (h.waiting_apart (by simp[outside])) (by simp)

lemma queued_inv (hp:s.place s.current=.queued)
 (body:InBody s.locks.kernel)(step:Locks.next s.locks (.lockRelease theLock)=some l'):
 Inv ({s with locks:=l'}.put s.current .releasing) taken:=by
 obtain ⟨waits,phase,idle⟩:=h.stands_at hp
 have held:lockHeldByCurrentThread s.locks theLock:=(h.locks.holder _ _).2 (by
  change (s.locks.phase s.current theLock).within=true
  rw[show s.locks.phase s.current theLock=.inside from phase]
  rfl)
 obtain ⟨framed,semas,away⟩:=h.lockStep step ⟨rfl,⟨body,idle⟩,held⟩ (by simp)
 cases step
 refine h.advance framed (by rw[hp];rfl) rfl ?_ ?_ ⟨rfl,rfl,rfl⟩ (fun _ _=>rfl) h.entries
 · exact And.intro waits ⟨.inl setPhase_self,setPhase_op⟩
 · exact waitsAt_of_apart (away (h.waiting_apart (by simp[hp]))) (by simp)

lemma awake_inv (hp:s.place s.current=.awake)
 (body:InBody s.locks.kernel)(step:Locks.next s.locks (.lockAcquire theLock)=some l'):
 Inv ({s with locks:=l'}.put s.current .acquiring) taken:=by
 obtain ⟨freed,phase,idle⟩:=h.stands_at hp
 have free:¬lockHeldByCurrentThread s.locks theLock:=by
  intro held
  have inside:=h.held_inside idle held
  rw[show s.locks.phase s.current theLock=.out from phase] at inside
  cases inside
 obtain ⟨framed,semas,away⟩:=h.lockStep step ⟨rfl,⟨body,idle⟩,free⟩ (by simp)
 simp only[Locks.next,if_neg free] at step
 cases step
 refine h.advance framed (by rw[hp];rfl) rfl ?_ ?_ ⟨rfl,rfl,rfl⟩ (fun _ _=>rfl) h.entries
 · exact And.intro freed ⟨.inl setPhase_self,setPhase_op⟩
 · exact waitsAt_of_apart (away (h.waiting_apart (by simp[hp]))) (by simp)

lemma releasing_inv (hp:s.place s.current=.releasing)(respects:Locks.Respects isLock s.locks .step)
 (step:Locks.next s.locks .step=some l'):
 Inv ({s with locks:=l'}.put s.current
  (if l'.op s.current=none then .sleeping else .releasing)) taken:=by
 obtain ⟨waits,phase,op⟩:=h.stands_at hp
 obtain ⟨framed,semas,away⟩:=h.lockStep step respects (by simp)
 unfold Stat.Waits Stat.Freed stat at waits
 rw[←semas] at waits
 rcases release_step step op phase with ⟨busy,left⟩|⟨k',ran,rfl⟩
 · rw[if_neg (show l'.op s.current≠none from ne_none_iff_exists'.2 ⟨_,busy⟩)]
   refine h.advance framed (by rw[hp];rfl) rfl ?_ ?_ ⟨rfl,rfl,rfl⟩ (fun _ _=>rfl) h.entries
   · exact And.intro waits ⟨.inr left,busy⟩
   · exact waitsAt_of_apart (away (h.waiting_apart (by simp[hp]))) (by simp)
 · have done:({s.locks with kernel:=k'}.setPhase s.locks.kernel.current theLock
     .out).op s.current=none:=setPhase_op
   rw[if_pos done]
   refine h.advance framed (by rw[hp];rfl) rfl ?_ ?_ ⟨rfl,rfl,rfl⟩ (fun _ _=>rfl) h.entries
   · exact And.intro waits ⟨setPhase_self,done⟩
   · have body:InBody s.locks.kernel:=by
      have guard:=respects theLock op
      rwa[if_neg (by rintro hn;rcases phase with hl|hl<;>cases hl.symm.trans hn)] at guard
     have affects:=Threads.next_affects h.locks.kernel (a:=.semaUp theLock)
      ⟨body.1,by simp[body.2]⟩ ran
     have awake:(k'.thread s.current).waiting=none:=affects.current.trans body.1
     change WaitsAt (k'.thread s.current).waiting _ _
     rw[awake]
     exact waitsAt_none

lemma acquiring_inv (hp:s.place s.current=.acquiring)(respects:Locks.Respects isLock s.locks .step)
 (step:Locks.next s.locks .step=some l'):
 Inv (if l'.op s.current=none then
   ({s with locks:=l'}.put s.current .outside).note (.returns s.current (l'.holder theLock))
  else {s with locks:=l'}) taken:=by
 obtain ⟨freed,phase,op⟩:=h.stands_at hp
 obtain ⟨framed,semas,away⟩:=h.lockStep step respects (by simp)
 have apart:=away (h.waiting_apart (by simp[hp]))
 rcases acquire_step step op phase with ⟨busy,enters⟩|⟨entered,rfl⟩
 · rw[if_neg (show l'.op s.current≠none from ne_none_iff_exists'.2 ⟨_,busy⟩)]
   refine h.relock framed ?_ (waitsAt_of_apart apart (by simp[hp]))
   unfold stat
   rw[hp]
   exact And.intro freed ⟨enters,busy⟩
 · have done:(s.locks.setPhase s.locks.kernel.current theLock .inside).op s.current=none:=
    setPhase_op
   have holder:s.locks.holder theLock=some s.current:=
    (h.locks.holder _ _).2 (by rw[State.current,entered];rfl)
   rw[if_pos done]
   change Inv ⟨_,_,_,s.log++[.returns s.current (s.locks.holder theLock)]⟩ taken
   rw[holder]
   refine h.advance framed (by rw[hp];rfl) rfl ?_ (waitsAt_of_apart apart (by simp)) ?_
    (fun t ht=>?_) (fun e he=>?_)
   · refine And.intro freed.1 ?_
     have counts:(released s.log).count s.current=(returned s.log).count s.current+1:=freed.2
     simp[released,returned] at counts ⊢
     exact counts
   · simp[waited,released,signalled]
   · simp[returned,Ne.symm ht]
   · rcases mem_append.1 he with old|new
     · exact h.entries e old
     · obtain rfl:=mem_singleton.1 new
       exact rfl

lemma sleeping_inv (hp:s.place s.current=.sleeping)
 (enabled:Enabled s.locks.kernel (downAct s.locks.kernel (waiterSema s.current)))
 (ran:Threads.next s.locks.kernel (downAct s.locks.kernel (waiterSema s.current))=some k'):
 Inv ({s with locks.kernel:=k'}.put s.current
  (if (s.locks.kernel.sema (waiterSema s.current)).value=0 then .sleeping else .awake))
  taken:=by
 obtain ⟨waits,phase,idle⟩:=h.stands_at hp
 have tested:event s.locks.kernel (downAct s.locks.kernel (waiterSema s.current))=
   turn s.locks.kernel (waiterSema s.current):=event_downAct (h.waits_current.2 hp)
 have about:Event.sema (turn s.locks.kernel (waiterSema s.current))=some (waiterSema s.current):=by
  unfold turn
  split<;>rfl
 have respects:Locks.Respects isLock s.locks
   (.kernel (downAct s.locks.kernel (waiterSema s.current))):=by
  refine ⟨enabled,fun l hl=>?_,fun busy=>absurd idle busy,fun exits=>?_⟩
  · rw[tested,about] at hl
    exact some.inj hl▸isLock_waiterSema
  · unfold downAct at exits
    split at exits<;>cases exits
 have framed:=h.framed respects ran (fun t ht hn=>by
  rw[tested,about] at hn
  exact ht (waiterSema_inj (some.inj hn)).symm)
 have affects:=Threads.next_affects h.locks.kernel enabled ran
 rw[tested] at affects
 unfold turn at affects
 split
 · rename_i zero
   rw[if_pos zero] at affects
   refine h.advance framed (by rw[hp];rfl) rfl ?_ ?_ ⟨rfl,rfl,rfl⟩ (fun _ _=>rfl) h.entries
   · refine And.intro ?_ ⟨phase,idle⟩
     have value:(k'.sema (waiterSema s.current)).value=
       (s.locks.kernel.sema (waiterSema s.current)).value:=by
      rw[affects.sema]
      simp[Event.semas]
     rw[value]
     exact waits
   · refine ⟨fun u hu=>?_,fun _=>.inr affects.current⟩
     have own:(k'.thread s.current).waiting=some (waiterSema s.current):=affects.current
     rw[own,some.injEq] at hu
     exact ⟨(waiterSema_inj hu).symm,rfl⟩
 · rename_i pos
   rw[if_neg pos] at affects
   have freed:=(waits.resolve_left fun hn=>pos hn.2.2).1
   refine h.advance framed (by rw[hp];rfl) rfl ?_ ?_ ⟨rfl,rfl,rfl⟩ (fun _ _=>rfl) h.entries
   · exact And.intro freed ⟨phase,idle⟩
   · have own:(k'.thread s.current).waiting=none:=affects.current
     rw[own]
     exact waitsAt_none

end

lemma semaInit_self {k:Kernel}{n value:ℕ}:(semaInit k n value).sema n=⟨value,[]⟩:=update_self ..

lemma semaInit_framed (h:Inv s taken)(hp:s.place s.current≠.sleeping):
 Framed s {s.locks with kernel:=semaInit s.locks.kernel (waiterSema s.current) 0}:=by
 have empty:(s.locks.kernel.sema (waiterSema s.current)).waiters=[]:=by
  refine eq_nil_iff_forall_not_mem.2 fun t ht=>?_
  obtain ⟨listed,-,waiting⟩:=(h.locks.kernel.waiters _ t).1 ht
  obtain ⟨rfl,sleeping⟩:=(h.waits t listed).1 _ waiting
  exact hp sleeping
 have init:semaInit s.locks.kernel (waiterSema s.current) 0=
   s.locks.kernel.setSema (waiterSema s.current)
    {s.locks.kernel.sema (waiterSema s.current) with value:=0}:=by
  change s.locks.kernel.setSema (waiterSema s.current) ⟨0,[]⟩=
   s.locks.kernel.setSema (waiterSema s.current)
    ⟨0,(s.locks.kernel.sema (waiterSema s.current)).waiters⟩
  rw[empty]
 have other:∀n,n≠waiterSema s.current →
   (semaInit s.locks.kernel (waiterSema s.current) 0).sema n=s.locks.kernel.sema n:=
  fun n hn=>update_of_ne hn _ _
 refine ⟨⟨?_,h.locks.busy,h.locks.locks,h.locks.waiting,fun l hl=>?_,h.locks.holder⟩,
  fun n hn=>?_,fun t ht=>?_,fun _ _=>⟨rfl,rfl⟩,fun t ht _=>.inr ⟨ht,rfl⟩⟩
 · rw[init]
   exact h.locks.kernel.setValue 0
 · have apart:l≠waiterSema s.current:=by
    rintro rfl
    cases hl
   rw[other l apart]
   exact h.locks.value l hl
 · have apart:n≠waiterSema s.current:=by
    rintro rfl
    exact hn (congrArg Semaphore.waiters semaInit_self)
   rw[other n apart] at hn ⊢
   exact h.prompt n hn
 · exact congrArg Semaphore.value (other _ fun hn=>ht (waiterSema_inj hn))

lemma initing_inv (h:Inv s taken)(hp:s.place s.current=.initing):
 Inv ({s with locks.kernel:=semaInit s.locks.kernel (waiterSema s.current) 0}.put
  s.current .pushing) taken:=by
 obtain ⟨free,inside⟩:=h.stands_at hp
 refine h.advance (semaInit_framed h (by simp[hp])) (by rw[hp];rfl) rfl ?_ ?_ ⟨rfl,rfl,rfl⟩
  (fun _ _=>rfl) h.entries
 · refine And.intro ⟨free,?_⟩ inside
   exact congrArg Semaphore.value semaInit_self
 · exact waitsAt_of_apart (h.waiting_apart (by simp[hp])) (by simp)

variable {log:List Entry}{queue sofar:List ℕ}

section
variable (h:Inv s taken)(inside:s.locks.phase s.current theLock=.inside)
include h inside

lemma Inv.inner {l':Locks.State}{waiters taken':List ℕ}(inv:Locks.Inv isLock l')
 (prompt:Prompt l'.kernel)(waits:∀t∈l'.kernel.allList,
  WaitsAt (l'.kernel.thread t).waiting (update s.place s.current p t) t)
 (own:Stat.Ok ⟨p,l'.phase s.current theLock,l'.op s.current,
  (l'.kernel.sema (waiterSema s.current)).value,decide (s.current∈taken'++waiters),
  (released log).count s.current,(returned log).count s.current⟩)
 (others:∀t,t≠s.current → (stat ⟨l',waiters,update s.place s.current p,log⟩ (taken'++waiters) t).Ok)
 (nodup:(taken'++waiters).Nodup)(fifo:waited log=released log++taken'++waiters)
 (raised:taken'=p.raises)(call:CallOk waiters (signalled log) (released log) p)
 (settled:p.calls=false → released log=signalled log)(entries:∀e∈log,e.Ok):
 Inv ⟨l',waiters,update s.place s.current p,log⟩ taken':=by
 have self:update s.place s.current p s.current=p:=update_self ..
 have quiet:∀t,t≠s.current → (update s.place s.current p t).calls=false:=by
  intro t ht
  rw[update_of_ne ht]
  exact calls_holds (h.quiet_others inside ht)
 refine ⟨inv,prompt,waits,fun t=>?_,nodup,fifo,fun t all queue sofar u hp=>?_,
  fun none=>?_,fun t=>?_,fun none=>settled ?_,entries⟩
 · by_cases ht:t=s.current
   · subst ht
     unfold stat
     dsimp only
     rw[self]
     exact own
   · exact others t ht
 · have ht:t=s.current:=by
    by_contra hn
    have:=quiet t hn
    rw[show update s.place s.current p t=_ from hp] at this
    cases this
   replace hp:update s.place s.current p t=.raising all queue sofar u:=hp
   rw[ht,self] at hp
   rw[raised,hp]
   rfl
 · rw[raised]
   cases hp:p with
   | raising all queue sofar u=>
    exact absurd (hp▸self) (none s.current all queue sofar u)
   | _=>rfl
 · by_cases ht:t=s.current
   · subst ht
     change CallOk waiters _ _ (update s.place s.current p s.current)
     rw[self]
     exact call
   · exact callOk_of_quiet (quiet t ht)
 · have own:=none s.current
   change (update s.place s.current p s.current).calls=false at own
   rwa[self] at own

lemma Inv.taken_nil (own:∀all queue sofar u,s.place s.current≠.raising all queue sofar u):taken=[]:=by
 refine h.lowered fun t all queue sofar u hp=>?_
 by_cases ht:t=s.current
 · subst ht
   exact own _ _ _ _ hp
 · have:=h.quiet_others inside ht
   rw[hp] at this
   cases this

lemma Inv.released_eq (own:(s.place s.current).calls=false):released s.log=signalled s.log:=by
 refine h.settled fun t=>?_
 by_cases ht:t=s.current
 · exact ht▸own
 · exact calls_holds (h.quiet_others inside ht)

end

lemma Inv.others (h:Inv s taken){waiters taken':List ℕ}
 (queue:∀t,t≠s.current → (t∈taken'++waiters ↔ t∈taken++s.waiters))
 (counts:released log=released s.log ∧ returned log=returned s.log)(t:ℕ)
 (ht:t≠s.current):
 (stat ⟨s.locks,waiters,update s.place s.current p,log⟩ (taken'++waiters) t).Ok:=by
 have same:stat ⟨s.locks,waiters,update s.place s.current p,log⟩
   (taken'++waiters) t=stat s (taken++s.waiters) t:=
  stat_eq (update_of_ne ht _ _) ⟨rfl,rfl⟩ rfl (queue t ht)
   ⟨congrArg (count t) counts.1,congrArg (count t) counts.2⟩
 exact same▸h.stands t

lemma Inv.waits_put (h:Inv s taken)(hp:s.place s.current≠.sleeping)(hp':p≠.sleeping):
 ∀t∈s.locks.kernel.allList,
  WaitsAt (s.locks.kernel.thread t).waiting (update s.place s.current p t) t:=
 h.still.waits h (fun _ ht=>update_of_ne ht _ _) (by
  rw[update_self]
  exact waitsAt_of_apart (h.waiting_apart hp) hp')

lemma entries_snoc {e:Entry}(h:∀e∈log,e.Ok)(he:e.Ok):∀x∈log++[e],x.Ok:=by
 intro x hx
 rcases mem_append.1 hx with old|new
 · exact h x old
 · exact mem_singleton.1 new▸he

lemma pushing_inv (h:Inv s taken)(hp:s.place s.current=.pushing):
 Inv (({s with waiters:=s.waiters++[s.current]}.put s.current .queued).note
  (.waits s.current)) taken:=by
 obtain ⟨⟨free,value⟩,inside⟩:=h.stands_at hp
 obtain rfl:=h.taken_nil inside.1 (by simp[hp])
 have new:s.current∉[]++s.waiters:=of_decide_eq_false free.1
 have logs:released (s.log++[.waits s.current])=released s.log ∧
   returned (s.log++[.waits s.current])=returned s.log:=by simp[released,returned]
 refine h.inner (p:=.queued) inside.1 h.locks h.prompt (h.waits_put (by simp[hp]) (by simp)) ?_
  (h.others (fun t ht=>?_) logs) ?_ ?_ rfl trivial (fun _=>?_)
  (entries_snoc h.entries trivial)
 · refine And.intro (.inl ⟨?_,?_,value⟩) inside
   · change decide (s.current∈[]++(s.waiters++[s.current]))=true
     simp
   · change (released (s.log++[.waits s.current])).count _=
      (returned (s.log++[.waits s.current])).count _
     rw[logs.1,logs.2]
     exact free.2
 · change t∈[]++(s.waiters++[s.current]) ↔ _
   simp[ht]
 · rw[nil_append]
   refine nodup_append.2 ⟨by simpa using h.nodup,nodup_singleton _,?_⟩
   rintro a ha b hb rfl
   exact new (mem_singleton.1 hb▸ha)
 · have fifo:=h.fifo
   change waited (s.log++[.waits s.current])=
    released (s.log++[.waits s.current])++[]++(s.waiters++[s.current])
   rw[logs.1]
   rw[←append_assoc,←fifo]
   simp[waited]
 · change released (s.log++[.waits s.current])=signalled (s.log++[.waits s.current])
   rw[logs.1,h.released_eq inside.1 (by rw[hp];rfl)]
   simp[signalled]

lemma condSignal_inv (h:Inv s taken)(respects:Respects s .condSignal)(all:Bool):
 Inv (s.put s.current (.signalling all s.waiters [])) taken:=by
 obtain ⟨idle,outside,held⟩:=respects
 have inside:=h.held_inside idle.2 held
 obtain rfl:=h.taken_nil inside (by simp[outside])
 refine h.inner (p:=.signalling all s.waiters []) inside h.locks h.prompt
  (h.waits_put (by simp[outside]) (by simp)) ?_ (h.others (fun _ _=>Iff.rfl) ⟨rfl,rfl⟩)
  h.nodup h.fifo rfl ⟨rfl,?_,fun _=>rfl⟩ (fun hn=>(by cases hn)) h.entries
 · exact And.intro (h.stands_at outside) ⟨inside,idle.2⟩
 · rw[append_nil]
   exact h.released_eq inside (by rw[outside];rfl)

lemma signalled_inv (h:Inv s taken){all:Bool}
 (hp:s.place s.current=.signalling all queue sofar)(empty:s.waiters=[]):
 Inv ((s.put s.current .outside).note (.signals all queue sofar)) taken:=by
 obtain ⟨free,inside⟩:=h.stands_at hp
 obtain ⟨split,sum,single⟩:=h.call_ok hp
 obtain rfl:=h.taken_nil inside.1 (by simp[hp])
 have logs:released (s.log++[.signals all queue sofar])=released s.log ∧
   returned (s.log++[.signals all queue sofar])=returned s.log:=by
  simp[released,returned]
 rw[empty,append_nil] at split
 refine h.inner (p:=.outside) inside.1 h.locks h.prompt (h.waits_put (by simp[hp]) (by simp)) ?_
  (h.others (fun _ _=>Iff.rfl) logs) h.nodup ?_ rfl trivial (fun _=>?_)
  (entries_snoc h.entries ?_)
 · refine And.intro free.1 ?_
   change (released (s.log++[.signals all queue sofar])).count _=
    (returned (s.log++[.signals all queue sofar])).count _
   rw[logs.1,logs.2]
   exact free.2
 · change waited (s.log++[.signals all queue sofar])=
    released (s.log++[.signals all queue sofar])++[]++s.waiters
   rw[logs.1,←h.fifo]
   simp[waited]
 · change released (s.log++[.signals all queue sofar])=signalled (s.log++[.signals all queue sofar])
   rw[logs.1,sum]
   simp[signalled]
 · cases all with
   | true=>exact split.symm
   | false=>
    rw[split,single rfl]
    rfl

lemma popped_inv (h:Inv s taken){all:Bool}{rest:List ℕ}
 (hp:s.place s.current=.signalling all queue sofar)(first:s.waiters=t::rest):
 Inv ({s with waiters:=rest}.put s.current (.raising all queue sofar t)) [t]:=by
 obtain ⟨free,inside⟩:=h.stands_at hp
 obtain ⟨split,sum,single⟩:=h.call_ok hp
 obtain rfl:=h.taken_nil inside.1 (by simp[hp])
 have same:[t]++rest=[]++s.waiters:=by rw[first];rfl
 refine h.inner (p:=.raising all queue sofar t) inside.1 h.locks h.prompt
  (h.waits_put (by simp[hp]) (by simp)) ?_ (h.others (fun u _=>by rw[same]) ⟨rfl,rfl⟩)
  (same▸h.nodup) ?_ rfl ⟨?_,sum,single⟩ (fun hn=>(by cases hn)) h.entries
 · rw[same]
   exact And.intro free inside
 · rw[append_assoc,same,←append_assoc]
   exact h.fifo
 · rw[split,first]

lemma Stat.Ok.waiting {x:Stat}(ok:x.Ok)(queued:x.queued=true):x.Waits ∧ ∀value queued released,
  Stat.Waits ⟨x.place,x.phase,x.op,value,queued,released,x.returned⟩ →
  Stat.Ok ⟨x.place,x.phase,x.op,value,queued,released,x.returned⟩:=by
 obtain ⟨place,phase,op,value,_,released,returned⟩:=x
 subst queued
 cases place with
 | queued | releasing | sleeping=>exact ⟨ok.1,fun _ _ _ waits=>⟨waits,ok.2⟩⟩
 | outside=>cases ok.1
 | pushing=>cases ok.1.1.1
 | _=>cases ok.1.1

lemma Stat.Ok.unreleased {x:Stat}(ok:x.Ok)(queued:x.queued=true):
 x.released=x.returned ∧ x.value=0:=by
 rcases (ok.waiting queued).1 with ⟨-,unreleased⟩|⟨⟨gone,-⟩,-⟩
 · exact unreleased
 · rw[queued] at gone
   cases gone

structure Raises (s:State)(u:ℕ)(k':Kernel):Prop where
 inv:Locks.Inv isLock {s.locks with kernel:=k'}
 prompt:Prompt k'
 waits:∀p,∀t∈k'.allList,WaitsAt (k'.thread t).waiting (update s.place s.current p t) t
 value:(k'.sema (waiterSema u)).value=((s.locks.kernel.sema (waiterSema u)).value+1)%2^32
 values:∀t,t≠u → (k'.sema (waiterSema t)).value=(s.locks.kernel.sema (waiterSema t)).value

lemma Inv.raises (h:Inv s taken)(idle:s.locks.op s.current=none)(body:InBody s.locks.kernel)
 (ran:Threads.next s.locks.kernel (.semaUp (waiterSema u))=some k'):Raises s u k':=by
 have enabled:Enabled s.locks.kernel (.semaUp (waiterSema u)):=⟨body.1,by simp[body.2]⟩
 have affects:Affects s.locks.kernel k' (.up (waiterSema u)):=
  Threads.next_affects h.locks.kernel enabled ran
 have respects:Locks.Respects isLock s.locks (.kernel (.semaUp (waiterSema u))):=by
  refine ⟨enabled,fun l hl=>?_,fun busy=>absurd idle busy,fun exits=>by cases exits⟩
  exact some.inj hl▸isLock_waiterSema
 refine ⟨?_,h.prompt.next h.locks.kernel enabled ran,fun p t ht=>?_,?_,fun t ht=>?_⟩
 · refine Locks.next_inv h.locks respects ?_
   simp only[Locks.next,ran,map_some]
 · by_cases hc:t=s.current
   · have own:(k'.thread s.current).waiting=none:=affects.current.trans body.1
     rw[hc,own]
     exact waitsAt_none
   · rw[update_of_ne hc]
     rcases waiting_affects affects t ht hc with none|⟨old,same⟩
     · rw[none]
       exact waitsAt_none
     · rw[same]
       exact h.waits t old
 · rw[affects.sema]
   simp[Event.semas]
 · have other:Event.sema (.up (waiterSema u))≠some (waiterSema t):=fun same=>
    ht (waiterSema_inj (some.inj same)).symm
   rw[affects.sema,semas_of_ne other]

lemma Stat.Ok.release {x:Stat}(ok:x.Ok)(queued:x.queued=true):
 ({x with queued:=false,released:=x.released+1,value:=1}:Stat).Ok:=
 (ok.waiting queued).2 _ _ _ (.inr ⟨⟨rfl,congrArg (· + 1) (ok.unreleased queued).1⟩,rfl⟩)

lemma raised_inv (h:Inv s taken){all:Bool}
 (hp:s.place s.current=.raising all queue sofar u)(body:InBody s.locks.kernel)
 (ran:Threads.next s.locks.kernel (.semaUp (waiterSema u))=some k')
 (hlog:log=if all then s.log++[.releases u]
  else s.log++[.releases u]++[.signals all queue (sofar++[u])]):
 Inv ⟨{s.locks with kernel:=k'},s.waiters,update s.place s.current
  (if all then .signalling all queue (sofar++[u]) else .outside),log⟩ []:=by
 obtain ⟨free,inside⟩:=h.stands_at hp
 obtain ⟨split,sum,single⟩:=h.call_ok hp
 obtain rfl:=h.raised _ _ _ _ _ hp
 have raised:=h.raises inside.2 body ran
 have apart:u≠s.current:=by
  rintro rfl
  have:=of_decide_eq_false free.1
  exact this (mem_append_left _ (mem_singleton_self _))
 have nodup:=h.nodup
 rw[singleton_append,nodup_cons] at nodup
 have logs:released log=released s.log++[u] ∧ returned log=returned s.log ∧
   waited log=waited s.log:=by
  rw[hlog]
  split<;>simp[released,returned,waited]
 have counts:∀t,t≠u → (released log).count t=(released s.log).count t:=by
  intro t ht
  simp[logs.1,Ne.symm ht]
 have queued:∀t,t≠u → (t∈[]++s.waiters ↔ t∈[u]++s.waiters):=by
  intro t ht
  simp[ht]
 let p:Place:=if all then .signalling all queue (sofar++[u]) else .outside
 refine h.inner (p:=p) inside.1 raised.inv raised.prompt (raised.waits p) ?_ (fun t ht=>?_)
  nodup.2 ?_ ?_ ?_ (fun _=>?_) ?_
 · have own:Stat.Free ⟨p,.inside,none,(k'.sema (waiterSema s.current)).value,
     decide (s.current∈[]++s.waiters),(released log).count s.current,
     (returned log).count s.current⟩:=by
    refine ⟨?_,?_⟩
    · have:=of_decide_eq_false free.1
      rw[decide_eq_false_iff_not,queued _ (Ne.symm apart)]
      exact this
    · rw[counts _ (Ne.symm apart),logs.2.1]
      exact free.2
   cases all with
   | true=>exact And.intro own inside
   | false=>exact own
 · have ok:=h.stands t
   by_cases htu:t=u
   · subst htu
     have mem:decide (t∈[t]++s.waiters)=true:=by simp
     have zero:(s.locks.kernel.sema (waiterSema t)).value=0:=(ok.unreleased mem).2
     have out:decide (t∈[]++s.waiters)=false:=by simpa using nodup.1
     have one:(released log).count t=(released s.log).count t+1:=by simp[logs.1]
     have done:=ok.release mem
     unfold stat at done ⊢
     dsimp only at done ⊢
     rw[update_of_ne ht,raised.value,zero,out,one,logs.2.1]
     exact done
   · have same:stat ⟨{s.locks with kernel:=k'},s.waiters,
       update s.place s.current p,log⟩ ([]++s.waiters) t=
       stat s ([u]++s.waiters) t:=
      stat_eq (update_of_ne ht _ _) ⟨rfl,rfl⟩ (raised.values t htu)
       (queued t htu) ⟨counts t htu,by rw[logs.2.1]⟩
     exact same▸ok
 · rw[logs.1,logs.2.2,h.fifo]
   simp
 · unfold p
   split<;>rfl
 · cases all with
   | true=>
    refine ⟨?_,?_,fun hn=>by cases hn⟩
    · rw[split]
      simp
    · rw[logs.1,sum,hlog]
      simp[signalled]
   | false=>trivial
 · cases all with
   | true=>
    rename_i hn
    cases hn
   | false=>
    rw[logs.1,sum,hlog]
    simp[signalled]
 · rw[hlog]
   have noted:=entries_snoc (e:=.releases u) h.entries trivial
   cases all with
   | true=>exact noted
   | false=>
    refine entries_snoc noted ?_
    rw[split,single rfl]
    rfl

end

variable {s s':State}{taken:List ℕ}{a:Act}{as:List Act}

lemma next_inv (h:Inv s taken)(respects:Respects s a)(step:next s a=some s'):
 ∃taken',Inv s' taken':=by
 cases a with
 | locks a=>
  obtain ⟨l',hl,rfl⟩:=map_eq_some_iff.1 step
  exact ⟨taken,locks_inv h respects hl⟩
 | condWait=>
  cases step
  exact ⟨taken,condWait_inv h respects⟩
 | condSignal=>
  cases step
  exact ⟨taken,condSignal_inv h respects false⟩
 | condBroadcast=>
  cases step
  exact ⟨taken,condSignal_inv h respects true⟩
 | step=>
  change statement s (s.place s.current)=some s' at step
  unfold Respects at respects
  cases hp:s.place s.current with
  | outside=>
   rw[hp] at step
   cases step
  | initing=>
   rw[hp] at step
   simp only[statement] at step
   split at step
   · cases step
     exact ⟨taken,initing_inv h hp⟩
   · cases step
  | pushing=>
   rw[hp] at step
   cases step
   exact ⟨taken,pushing_inv h hp⟩
  | queued=>
   rw[hp] at step respects
   simp only[statement] at step
   obtain ⟨l',hl,rfl⟩:=map_eq_some_iff.1 step
   exact ⟨taken,queued_inv h hp respects hl⟩
  | releasing=>
   rw[hp] at step respects
   obtain ⟨l',hl,rfl⟩:=map_eq_some_iff.1 step
   exact ⟨taken,releasing_inv h hp respects hl⟩
  | sleeping=>
   rw[hp] at step respects
   obtain ⟨l',hl,rfl⟩:=map_eq_some_iff.1 step
   obtain ⟨k',hk,rfl⟩:=map_eq_some_iff.1 hl
   exact ⟨taken,sleeping_inv h hp respects hk⟩
  | awake=>
   rw[hp] at step respects
   obtain ⟨l',hl,rfl⟩:=map_eq_some_iff.1 step
   exact ⟨taken,awake_inv h hp respects hl⟩
  | acquiring=>
   rw[hp] at step respects
   obtain ⟨l',hl,rfl⟩:=map_eq_some_iff.1 step
   exact ⟨taken,acquiring_inv h hp respects hl⟩
  | signalling all queue sofar=>
   rw[hp] at step
   simp only[statement] at step
   split at step
   · rename_i done
     cases step
     exact ⟨taken,signalled_inv h hp done.2⟩
   · split at step
     · cases hw:s.waiters with
       | nil=>
        rw[hw] at step
        cases step
        exact ⟨taken,signalled_inv h hp hw⟩
       | cons t rest=>
        rw[hw] at step
        cases step
        exact ⟨[t],popped_inv h hp hw⟩
     · cases step
  | raising all queue sofar t=>
   rw[hp] at step respects
   obtain ⟨l',hl,rfl⟩:=map_eq_some_iff.1 step
   obtain ⟨k',hk,rfl⟩:=map_eq_some_iff.1 hl
   refine ⟨[],?_⟩
   cases all with
   | true | false=>exact raised_inv h hp respects hk rfl

def Place.waits:Place→Bool
 | .queued | .releasing | .sleeping=>true
 | _=>false

/-- Signals are neither lost nor invented. -/
structure Matched (s:State):Prop where
 /-- Threads are released in the order in which they went on `waiters`, each once; one may
  have been taken from there by a thread that will now raise its semaphore. -/
 fifo:∃taken,waited s.log=released s.log++taken++s.waiters ∧
  (taken=[] ∨ ∃t all queue sofar u,s.place t=.raising all queue sofar u ∧ taken=[u])
 /-- A signal has released the first thread of the queue that it found, a broadcast the whole
  queue. -/
 signals:∀all queue r,.signals all queue r∈s.log → r=if all then queue else queue.take 1
 only:(∀t,(s.place t).calls=false) → released s.log=signalled s.log
 /-- The n-th return of a thread comes after its n-th release, this after its n-th wait, and
  the next wait after that. -/
 returns:∀t,(returned s.log).count t≤(released s.log).count t ∧
  (released s.log).count t≤(waited s.log).count t ∧
  (waited s.log).count t≤(returned s.log).count t+1
 locked:∀t holder,.returns t holder∈s.log → holder=some t
 /-- A thread that is released finds its semaphore raised and does not sleep on it; one that is
  not finds it down. -/
 awake:∀t,(s.place t).waits=true → ((released s.log).count t=(returned s.log).count t+1 →
   s.locks.kernel.sema (waiterSema t)=⟨1,[]⟩) ∧
  ((released s.log).count t=(returned s.log).count t → (s.locks.kernel.sema (waiterSema t)).value=0)

lemma Inv.waits_of_place (h:Inv s taken){t:ℕ}(hp:(s.place t).waits=true):
 (stat s (taken++s.waiters) t).Waits:=by
 cases hs:s.place t with
 | queued | releasing | sleeping=>exact (h.stands_at hs).1
 | _=>
  rw[hs] at hp
  cases hp

lemma Inv.balance (h:Inv s taken)(t:ℕ):
 (t∉taken++s.waiters ∧ (released s.log).count t=(returned s.log).count t) ∨
 (t∉taken++s.waiters ∧ (released s.log).count t=(returned s.log).count t+1) ∨
 (t∈taken++s.waiters ∧ (released s.log).count t=(returned s.log).count t):=by
 have free:(stat s (taken++s.waiters) t).Free → t∉taken++s.waiters ∧
   (released s.log).count t=(returned s.log).count t:=fun hf=>
  ⟨of_decide_eq_false hf.1,hf.2⟩
 have freed:(stat s (taken++s.waiters) t).Freed → t∉taken++s.waiters ∧
   (released s.log).count t=(returned s.log).count t+1:=fun hf=>
  ⟨of_decide_eq_false hf.1,hf.2⟩
 cases hp:s.place t with
 | outside=>exact .inl (free (h.stands_at hp))
 | initing=>exact .inl (free (h.stands_at hp).1)
 | pushing=>exact .inl (free (h.stands_at hp).1.1)
 | signalling _ _ _ | raising _ _ _ _=>exact .inl (free (h.stands_at hp).1)
 | awake | acquiring=>exact .inr (.inl (freed (h.stands_at hp).1))
 | _=>
  rcases h.waits_of_place (t:=t) (by rw[hp];rfl) with ⟨queued,counts,-⟩|⟨hf,-⟩
  · exact .inr (.inr ⟨of_decide_eq_true queued,counts⟩)
  · exact .inr (.inl (freed hf))

lemma Inv.not_asleep (h:Inv s taken){t:ℕ}(one:(s.locks.kernel.sema (waiterSema t)).value=1):
 s.locks.kernel.sema (waiterSema t)=⟨1,[]⟩:=by
 have few:wants s.locks.kernel (waiterSema t)≤1:=by
  have alone:s.locks.kernel.allList.filter
    (fun u=>(s.locks.kernel.thread u).waiting=some (waiterSema t)) ⊆ [t]:=by
   intro u hu
   obtain ⟨listed,waiting⟩:=mem_filter.1 hu
   exact mem_singleton.2 ((h.waits u listed).1 t (of_decide_eq_true waiting)).1.symm
  unfold wants
  rw[countP_eq_length_filter]
  exact (subperm_of_subset (h.locks.kernel.nodup.filter _) alone).length_le
 have empty:(s.locks.kernel.sema (waiterSema t)).waiters=[]:=by
  by_contra sleeping
  have enough:=h.prompt _ sleeping
  have pos:=length_pos_iff.2 sleeping
  omega
 rw[←one,←empty]

lemma Inv.matched (h:Inv s taken):Matched s:=by
 refine ⟨⟨taken,h.fifo,?_⟩,fun all queue r hm=>h.entries _ hm,h.settled,fun t=>?_,
  fun t holder hm=>h.entries _ hm,fun t hp=>?_⟩
 · by_cases none:∀t all queue sofar u,s.place t≠.raising all queue sofar u
   · exact .inl (h.lowered none)
   · push Not at none
     obtain ⟨t,all,queue,sofar,u,hp⟩:=none
     exact .inr ⟨t,all,queue,sofar,u,hp,h.raised t all queue sofar u hp⟩
 · have sum:(waited s.log).count t=(released s.log).count t+(taken++s.waiters).count t:=by
    rw[h.fifo,append_assoc,count_append]
   have once:t∈taken++s.waiters → (taken++s.waiters).count t=1:=count_eq_one_of_mem h.nodup
   have never:=count_eq_zero (l:=taken++s.waiters) (a:=t)
   rcases h.balance t with ⟨out,counts⟩|⟨out,counts⟩|⟨mem,counts⟩
   · have:=never.2 out
     omega
   · have:=never.2 out
     omega
   · have:=once mem
     omega
 · rcases h.waits_of_place hp with ⟨-,counts,zero⟩|⟨⟨-,counts⟩,one⟩
   · refine ⟨fun hn=>?_,fun _=>zero⟩
     change (released s.log).count t=(returned s.log).count t at counts
     omega
   · refine ⟨fun _=>h.not_asleep one,fun hn=>?_⟩
     change (released s.log).count t=(returned s.log).count t+1 at counts
     omega

def quietAt (k:Kernel):State:=⟨unlocked k,[],fun _=>.outside,[]⟩

lemma quietAt_inv {memory:ℕ→Thread}{free:ℕ→Bool}{values:ℕ→ℕ}{main:ℕ}
 (init:values theLock=1):Inv (quietAt (threadInit memory free values main)) []:=by
 refine ⟨unlocked_inv fun l hl=>?_,threadInit_prompt,fun t ht=>?_,fun t=>⟨rfl,rfl⟩,
  nodup_nil,rfl,fun t _ _ _ _ hp=>(by cases hp),fun _=>rfl,fun _=>trivial,
  fun _=>rfl,fun e he=>(by cases he)⟩
 · rw[isLock,beq_iff_eq] at hl
   rw[hl]
   exact ⟨Nat.le_refl _,init⟩
 · obtain rfl:t=main:=mem_singleton.1 ht
   have own:(threadInit memory free values t).thread t=⟨1,.running,threadMagic,.booting,none⟩:=
    update_self ..
   change WaitsAt ((threadInit memory free values t).thread t).waiting .outside t
   rw[own]
   exact waitsAt_none

theorem condition_signals {memory:ℕ→Thread}{free:ℕ→Bool}{values:ℕ→ℕ}{main:ℕ}(init:values theLock=1)
 (run:Runs next Respects (quietAt (threadInit memory free values main)) as s):
 Matched s:=by
 have inv:∃taken,Inv s taken:=
  run.invariant (I:=fun s=>∃taken,Inv s taken)
   (fun _ _ _ ⟨_,h⟩ respects step=>next_inv h respects step) ⟨[],quietAt_inv init⟩
 obtain ⟨taken,h⟩:=inv
 exact h.matched

def Plain (s:State):Act→Prop
 | .locks a=>Simple s.locks a ∧ Apart s a ∧ (s.place s.current≠.outside → isHandler a=true)
 | a=>Respects s a
instance (s:State):(a:Locks.Act) → Decidable (Apart s a)
 | .kernel a=>
  inferInstanceAs (Decidable (∀n∈Event.sema (event s.locks.kernel a),isWaiterSema n=false))
 | .lockAcquire _ | .lockTryAcquire _ | .lockRelease _ | .step=>.isTrue trivial

instance (s:State):(a:Act) → Decidable (Plain s a)
 | .locks a=>inferInstanceAs (Decidable (Simple s.locks a ∧ Apart s a ∧ _))
 | .condWait | .condSignal | .condBroadcast=>inferInstanceAs (Decidable ((_ ∧ _) ∧ _ ∧ _))
 | .step=>
  match h:s.place s.current with
  | .sleeping=>decidable_of_iff
    (Enabled s.locks.kernel (downAct s.locks.kernel (waiterSema s.current)))
    (by simp[Plain,Respects,h])
  | .releasing | .acquiring=>decidable_of_iff (Simple s.locks .step)
    (by simp[Plain,Respects,h];rfl)
  | .outside | .initing | .pushing | .queued | .awake | .signalling _ _ _ | .raising _ _ _ _=>
   decidable_of_iff (InBody s.locks.kernel) (by simp[Plain,Respects,h])

lemma respects_of_plain (s:State)(a:Act)(h:Plain s a):Respects s a:=by
 cases a with
 | locks a=>exact ⟨respects_of_simple _ _ h.1,h.2⟩
 | _=>exact h

def earlySignal:List Act:=
 [.locks (.kernel (.threadStart 1)),.locks (.kernel .step),.locks (.kernel .step),
  .locks (.kernel .step),.locks (.kernel .step),.locks (.kernel .step),
  .locks (.kernel (.threadCreate (some 2))),.locks (.kernel .step),.locks (.kernel .step),
  .locks (.kernel .step),.locks (.kernel .step),
  .locks (.lockAcquire 2),.locks .step,.locks .step,.locks .step,
  .condWait,.step,.step,.step,.step,.step,
  .locks (.kernel .timer),.locks (.kernel .timer),.locks (.kernel .timer),
  .locks (.kernel .timer),
  .locks (.lockAcquire 2),.locks .step,.locks .step,.locks .step,
  .condSignal,.step,.step,.locks (.lockRelease 2),.locks .step,.locks .step,
  .locks (.kernel .threadYield),.step,.step,.step,.step,.step]

theorem condition_signals_early:∃s,Runs next Respects (quietAt lockKernel) earlySignal s ∧
 s.log=[.waits 0,.releases 0,.signals false [0] [0],.returns 0 (some 0)] ∧ Matched s:=by
 have found:(exec next Plain (quietAt lockKernel) earlySignal).any (fun s=>
   s.log=[.waits 0,.releases 0,.signals false [0] [0],.returns 0 (some 0)])=true:=by
  decide +kernel
 obtain ⟨s,run,log⟩:=exec_any found
 have run:=run.mono respects_of_plain
 exact ⟨s,run,of_decide_eq_true log,condition_signals rfl run⟩

end Pintos.Conditions
