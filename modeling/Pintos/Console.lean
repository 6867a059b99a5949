import Pintos.Locks

/-!
# The console lock

`acquire_console` and `release_console` of `lib/kernel/console.c` over the locks, while
`use_console_lock` is true. A test and what is done because of it are two steps, so the timer can
come between them. In an interrupt handler neither of the two does anything.
-/
namespace Pintos.Console
open ExecRuns Threads Locks Function Option

/-- The number of its semaphore. -/
def consoleLock:ℕ:=2

/-- Where a thread stands in the two functions: behind the test for the holder, in `lock_acquire`,
behind the test of the depth, in `lock_release`. -/
inductive Place where
 | out
 | deepening
 | locking
 | acquiring
 | lowering
 | unlocking
 | releasing
 deriving DecidableEq,Repr

/-- `nest` is kept by an observer: the acquires of a thread that have not been released, the
outermost one from the call of `lock_acquire` to the return of `lock_release`. -/
structure State where
 locks:Locks.State
 consoleLockDepth:ℤ
 place:ℕ→Place
 nest:ℕ→ℕ
 written:List (Option ℕ×UInt8)

/-- `interrupt` is the output of a character by an interrupt handler. -/
inductive Act where
 | locks (a:Locks.Act)
 | acquireConsole
 | releaseConsole
 | putcharHaveLock (c:UInt8)
 | interrupt (c:UInt8)
 | step
 deriving DecidableEq,Repr

section
variable (s:State)

def State.current:ℕ:=s.locks.kernel.current
def State.put (t:ℕ)(p:Place)(n:ℕ):State:={s with place:=update s.place t p,nest:=update s.nest t n}

def statement:Place→Option State
 | .out=>none
 | .deepening=>
  some ({s with consoleLockDepth:=s.consoleLockDepth+1}.put s.current .out (s.nest s.current+1))
 | .locking=>(Locks.next s.locks (.lockAcquire consoleLock)).map fun l=>
  {s with locks:=l}.put s.current .acquiring 1
 | .acquiring=>(Locks.next s.locks .step).map fun l=>
  {s with locks:=l}.put s.current (if l.op s.current=none then .out else .acquiring) 1
 | .lowering=>
  some ({s with consoleLockDepth:=s.consoleLockDepth-1}.put s.current .out (s.nest s.current-1))
 | .unlocking=>(Locks.next s.locks (.lockRelease consoleLock)).map fun l=>
  {s with locks:=l}.put s.current .releasing 1
 | .releasing=>(Locks.next s.locks .step).map fun l=>
  if l.op s.current=none then {s with locks:=l}.put s.current .out 0
  else {s with locks:=l}.put s.current .releasing 1

def next:Act→Option State
 | .locks a=>(Locks.next s.locks a).map fun l=>{s with locks:=l}
 | .acquireConsole=>some (s.put s.current
   (if lockHeldByCurrentThread s.locks consoleLock then .deepening else .locking) (s.nest s.current))
 | .releaseConsole=>some (s.put s.current
   (if 0<s.consoleLockDepth then .lowering else .unlocking) (s.nest s.current))
 | .putcharHaveLock c=>
  if lockHeldByCurrentThread s.locks consoleLock then
   some {s with written:=s.written++[(some s.current,c)]}
  else none
 | .interrupt c=>some {s with written:=s.written++[(none,c)]}
 | .step=>statement s (s.place s.current)

def Place.calls:Place→Bool
 | .acquiring | .releasing=>true
 | _=>false

/-- The locks are used as before, the console lock by the two functions alone. A thread in one of
them can be interrupted; else it calls them in nested pairs, and writes inside a pair. -/
def Proper (isLock:ℕ→Bool):Act→Prop
 | .locks a=>Respects isLock s.locks a ∧ (a≠.step → target s.locks a≠some consoleLock) ∧
   (s.place s.current≠.out → ∃b,a=.kernel b ∧ fromHandler b=true)
 | .acquireConsole=>Idle s.locks ∧ s.place s.current=.out
 | .releaseConsole | .putcharHaveLock _=>
  Idle s.locks ∧ s.place s.current=.out ∧ 0<s.nest s.current
 | .interrupt _=>True
 | .step=>if (s.place s.current).calls then Respects isLock s.locks .step else InBody s.locks.kernel

end

/-- Between the return of its outermost acquire and the call of the matching `lock_release`. -/
def Between (s:State)(t:ℕ):Prop:=0<s.nest t ∧ (s.place t).calls=false

def Stands (place:Place)(nest:ℕ)(phase:Phase)(op:Option ℕ):Prop:=
 match place with
 | .out=>nest=0 ∧ phase=.out ∨ 0<nest ∧ phase=.inside
 | .deepening=>0<nest ∧ phase=.inside ∧ op=none
 | .locking=>nest=0 ∧ phase=.out ∧ op=none
 | .acquiring=>nest=1 ∧ phase.Enters
 | .lowering=>1<nest ∧ phase=.inside ∧ op=none
 | .unlocking=>nest=1 ∧ phase=.inside ∧ op=none
 | .releasing=>nest=1 ∧ phase.Leaves

/-- At most one thread is in more than one pair, and the counter is that of this thread. -/
def Deep (nest:ℕ→ℕ)(depth:ℤ):Prop:=
 (∀t,nest t≤1) ∧ depth=0 ∨ ∃t,1<nest t ∧ depth=nest t-1 ∧ ∀u,u≠t → nest u≤1

structure Inv (isLock:ℕ→Bool)(s:State):Prop where
 locks:Locks.Inv isLock s.locks
 stands:∀t,Stands (s.place t) (s.nest t) (s.locks.phase t consoleLock) (s.locks.op t)
 deep:Deep s.nest s.consoleLockDepth

variable {isLock:ℕ→Bool}{s s':State}{l:Locks.State}{a:Locks.Act}{t u:ℕ}{p:Place}{n:ℕ}

section
variable (h:Inv isLock s)
include h

lemma Inv.held_iff:lockHeldByCurrentThread s.locks consoleLock ↔
  (s.locks.phase s.current consoleLock).within=true:=h.locks.holder ..

lemma Inv.between (ht:Between s t):s.locks.phase t consoleLock=.inside:=by
 have stands:=h.stands t
 obtain ⟨pos,calls⟩:=ht
 cases hp:s.place t<;>rw[hp] at stands calls
 case out=>exact (stands.resolve_left fun zero=>by omega).2
 case locking=>exact absurd stands.1 (by omega)
 case acquiring | releasing=>cases calls
 all_goals exact stands.2.1

lemma Inv.nest_pos (ht:(s.locks.phase t consoleLock).owns=true):0<s.nest t:=by
 have stands:=h.stands t
 cases hp:s.place t<;>rw[hp] at stands
 case out=>
  rcases stands with ⟨-,out⟩|⟨pos,-⟩
  · rw[out] at ht
    cases ht
  · exact pos
 case locking=>
  rw[stands.2.1] at ht
  cases ht
 all_goals
  have:=stands.1
  omega

lemma Inv.inside_of_deep (ht:1<s.nest t):s.locks.phase t consoleLock=.inside:=by
 refine h.between ⟨by omega,?_⟩
 have stands:=h.stands t
 cases hp:s.place t<;>rw[hp] at stands<;>first | rfl | exact absurd stands.1 (by omega)

section
variable (lock:isLock consoleLock=true)(ht:(s.locks.phase t consoleLock).owns=true)
include lock ht

lemma Inv.unique (hu:(s.locks.phase u consoleLock).owns=true):t=u:=
 (h.locks.value _ lock).unique ht hu

lemma Inv.depth_eq:s.consoleLockDepth=s.nest t-1:=by
 have pos:=h.nest_pos ht
 rcases h.deep with ⟨flat,zero⟩|⟨u,deep,depth,-⟩
 · have:=flat t
   omega
 · obtain rfl:=h.unique lock ht (by rw[h.inside_of_deep deep];rfl)
   exact depth

end

lemma Inv.depth_zero (free:s.locks.holder consoleLock=none):s.consoleLockDepth=0:=by
 rcases h.deep with ⟨-,zero⟩|⟨u,deep,-⟩
 · exact zero
 · have held:=(h.locks.holder _ _).2 (by rw[h.inside_of_deep deep];rfl)
   rw[free] at held
   cases held

end

lemma Deep.update {nest:ℕ→ℕ}{depth:ℤ}(h:Deep nest depth)(before:nest t≤1)(after:n≤1):
 Deep (update nest t n) depth:=by
 rcases h with ⟨flat,zero⟩|⟨u,deep,eq,flat⟩
 · refine .inl ⟨fun v=>?_,zero⟩
   rw[update_apply]
   split_ifs<;>[exact after;exact flat v]
 · have apart:u≠t:=by
    rintro rfl
    omega
   refine .inr ⟨u,?_⟩
   rw[update_of_ne apart]
   refine ⟨deep,eq,fun v hv=>?_⟩
   rw[update_apply]
   split_ifs<;>[exact after;exact flat v hv]

section
variable (h:Inv isLock s)
include h

/-- A step of the running thread that leaves the other threads where they stand. -/
lemma Inv.move {depth:ℤ}{written:List (Option ℕ×UInt8)}(locks:Locks.Inv isLock l)
 (others:∀u,u≠s.current → l.phase u=s.locks.phase u ∧ l.op u=s.locks.op u)
 (deep:Deep (update s.nest s.current n) depth)
 (stands:Stands p n (l.phase s.current consoleLock) (l.op s.current)):
 Inv isLock (State.put ⟨l,depth,s.place,s.nest,written⟩ s.current p n):=by
 refine ⟨locks,fun u=>?_,deep⟩
 by_cases same:u=s.current
 · subst same
   simpa[State.put] using stands
 · obtain ⟨phase,op⟩:=others u same
   simpa[State.put,same,phase,op] using h.stands u

lemma locks_inv (proper:Proper s isLock (.locks a))
 (step:Locks.next s.locks a=some l):Inv isLock {s with locks:=l}:=by
 obtain ⟨respects,apart,handler⟩:=proper
 refine ⟨Locks.next_inv h.locks respects step,fun t=>?_,h.deep⟩
 have stands:=h.stands t
 by_cases same:t=s.current
 · subst same
   by_cases out:s.place s.current=.out
   · have idle:target s.locks a≠some consoleLock:=by
      by_cases own:a=.step
      · subst own
        intro op
        -- a thread that stands outside has nothing to do for the console lock
        have stuck:Locks.statement s.locks consoleLock (s.locks.phase s.current consoleLock)=none:=by
         rw[out] at stands
         rcases stands with ⟨-,phase⟩|⟨-,phase⟩<;>rw[phase]<;>rfl
        simp only[target] at op
        simp only[Locks.next,op] at step
        rw[State.current] at stuck
        rw[stuck] at step
        cases step
      · exact apart own
     rw[out] at stands ⊢
     rw[next_apart step idle]
     exact stands
   · obtain ⟨b,rfl,-⟩:=handler out
     obtain ⟨k,-,rfl⟩:=map_eq_some_iff.1 step
     exact stands
 · obtain ⟨phase,op⟩:=next_others step same
   simpa only[phase,op] using stands

lemma Inv.flat (lock:isLock consoleLock=true)
 (ht:(s.locks.phase t consoleLock).owns=true)(hu:u≠t):s.nest u≤1:=by
 by_contra deep
 exact hu (h.unique lock (by rw[h.inside_of_deep (by omega)];rfl) ht)

/-- The depth counts for the holder, so it can change with the number of its pairs. -/
lemma Inv.deepen (lock:isLock consoleLock=true)(pos:0<n){depth:ℤ}
 (phase:s.locks.phase s.current consoleLock=.inside)(eq:depth=n-1):
 Inv isLock (State.put ⟨s.locks,depth,s.place,s.nest,s.written⟩ s.current .out n):=by
 have own:(s.locks.phase s.current consoleLock).owns=true:=by rw[phase];rfl
 refine h.move h.locks (fun _ _=>⟨rfl,rfl⟩) ?_ (.inr ⟨pos,phase⟩)
 by_cases one:n=1
 · refine .inl ⟨fun u=>?_,by omega⟩
   rw[update_apply]
   split_ifs with same<;>[exact Nat.le_of_eq one;exact h.flat lock own same]
 · refine .inr ⟨s.current,?_⟩
   rw[update_self]
   refine ⟨by omega,eq,fun u hu=>?_⟩
   rw[update_of_ne hu]
   exact h.flat lock own hu

lemma Inv.lockMove (ran:Locks.next s.locks a=some l)
 (respects:Respects isLock s.locks a)(before:s.nest s.current≤1)(after:n≤1)
 (stands:Stands p n (l.phase s.current consoleLock) (l.op s.current)):
 Inv isLock ({s with locks:=l}.put s.current p n):=
 h.move (Locks.next_inv h.locks respects ran) (fun _ hu=>next_others ran hu)
  (h.deep.update before after) stands

lemma statement_inv (lock:isLock consoleLock=true)(proper:Proper s isLock .step)
 (step:statement s (s.place s.current)=some s'):Inv isLock s':=by
 have stands:=h.stands s.current
 simp only[Proper] at proper
 cases hp:s.place s.current<;>rw[hp] at stands proper step
 case out=>cases step
 case deepening | lowering=>
  obtain ⟨pos,phase,-⟩:=stands
  have depth:=h.depth_eq (t:=s.current) lock (by rw[phase];rfl)
  cases step
  exact h.deepen lock (by omega) phase (by omega)
 case locking=>
  obtain ⟨zero,phase,idle⟩:=stands
  have free:¬lockHeldByCurrentThread s.locks consoleLock:=by
   rw[h.held_iff,phase]
   decide
  obtain ⟨l,ran,rfl⟩:=map_eq_some_iff.1 step
  refine h.lockMove ran ⟨lock,⟨proper,idle⟩,free⟩ (by omega) (Nat.le_refl 1) ⟨rfl,.inl ?_⟩
  simp only[Locks.next,if_neg free] at ran
  cases ran
  exact setPhase_self
 case acquiring=>
  obtain ⟨one,phase⟩:=stands
  obtain ⟨l,ran,rfl⟩:=map_eq_some_iff.1 step
  have op:=h.locks.busy s.current consoleLock (by rcases phase with hp|hp|hp<;>rw[hp]<;>rfl)
  refine h.lockMove ran proper (Nat.le_of_eq one) (Nat.le_refl 1) ?_
  rcases acquire_step ran op phase with ⟨busy,enters⟩|⟨-,rfl⟩
  · rw[if_neg (show l.op s.current≠none from ne_none_iff_exists'.2 ⟨_,busy⟩)]
    exact ⟨rfl,enters⟩
  · rw[if_pos (show _=none from setPhase_op)]
    exact .inr ⟨Nat.one_pos,setPhase_self⟩
 case unlocking=>
  obtain ⟨one,phase,idle⟩:=stands
  have held:=h.held_iff.2 (by rw[phase];rfl)
  rw[statement] at step
  obtain ⟨l,ran,rfl⟩:=map_eq_some_iff.1 step
  refine h.lockMove ran ⟨lock,⟨proper,idle⟩,held⟩ (by omega) (Nat.le_refl 1) ⟨rfl,.inl ?_⟩
  cases ran
  exact setPhase_self
 case releasing=>
  obtain ⟨one,phase⟩:=stands
  obtain ⟨l,ran,rfl⟩:=map_eq_some_iff.1 step
  have op:=h.locks.busy s.current consoleLock (by rcases phase with hp|hp<;>rw[hp]<;>rfl)
  rcases release_step ran op phase with ⟨busy,left⟩|⟨k',-,rfl⟩
  · rw[if_neg (show l.op s.current≠none from ne_none_iff_exists'.2 ⟨_,busy⟩)]
    exact h.lockMove ran proper (Nat.le_of_eq one) (Nat.le_refl 1) ⟨rfl,.inr left⟩
  · rw[if_pos (show _=none from setPhase_op)]
    exact h.lockMove ran proper (Nat.le_of_eq one) (Nat.zero_le 1) (.inl ⟨rfl,setPhase_self⟩)

lemma next_inv {a:Act}(lock:isLock consoleLock=true)(proper:Proper s isLock a)
 (step:next s a=some s'):Inv isLock s':=by
 have stands:=h.stands s.current
 cases a with
 | locks a=>
  obtain ⟨l,ran,rfl⟩:=map_eq_some_iff.1 step
  exact locks_inv h proper ran
 | acquireConsole=>
  obtain ⟨⟨-,idle⟩,out⟩:=proper
  rw[out] at stands
  cases step
  refine h.move h.locks (fun _ _=>⟨rfl,rfl⟩) (by rw[update_eq_self];exact h.deep) ?_
  rcases stands with ⟨zero,phase⟩|⟨pos,phase⟩
  · rw[if_neg (by rw[h.held_iff,phase];decide)]
    exact ⟨zero,phase,idle⟩
  · rw[if_pos (h.held_iff.2 (by rw[phase];rfl))]
    exact ⟨pos,phase,idle⟩
 | releaseConsole=>
  obtain ⟨⟨-,idle⟩,out,pos⟩:=proper
  have phase:=h.between (t:=s.current) ⟨pos,by rw[out];rfl⟩
  have depth:=h.depth_eq (t:=s.current) lock (by rw[phase];rfl)
  cases step
  refine h.move h.locks (fun _ _=>⟨rfl,rfl⟩) (by rw[update_eq_self];exact h.deep) ?_
  split_ifs
  · exact ⟨by omega,phase,idle⟩
  · exact ⟨by omega,phase,idle⟩
 | putcharHaveLock c=>
  simp only[next] at step
  split_ifs at step
  cases step
  exact ⟨h.locks,h.stands,h.deep⟩
 | interrupt c=>
  cases step
  exact ⟨h.locks,h.stands,h.deep⟩
 | step=>exact statement_inv h lock proper step

end

def start (k:Kernel):State:=⟨unlocked k,0,fun _=>.out,fun _=>0,[]⟩

/-- In every schedule the functions of the lock are called as they assert, the depth is that of the
holder, and a thread inside its outermost pair is the only one that writes. -/
theorem console_lock_recursive {memory:ℕ→Thread}{free:ℕ→Bool}{values:ℕ→ℕ}{main:ℕ}{as:List Act}
 (init:∀l,isLock l=true → 2≤l ∧ values l=1)
 (lock:isLock consoleLock=true)
 (run:Runs next (fun s=>Proper s isLock) (start (threadInit memory free values main)) as s):
 (∀t,s.place t=.locking → s.locks.holder consoleLock≠some t) ∧
 (∀t,s.place t=.unlocking → s.locks.holder consoleLock=some t) ∧
 (s.locks.holder consoleLock=none → s.consoleLockDepth=0) ∧
 (∀t,s.locks.holder consoleLock=some t → s.consoleLockDepth=s.nest t-1) ∧
 ∀c,Proper s isLock (.putcharHaveLock c) → (next s (.putcharHaveLock c)).isSome ∧
  ∀t,Between s t → t=s.current:=by
 have inv:Inv isLock s:=run.invariant (fun _ _ _ h proper step=>next_inv h lock proper step)
  ⟨unlocked_inv init,fun _=>.inl ⟨rfl,rfl⟩,.inl ⟨fun _=>Nat.zero_le 1,rfl⟩⟩
 refine ⟨fun t hp held=>?_,fun t hp=>(inv.locks.holder _ _).2 ?_,inv.depth_zero,fun t held=>?_,fun c proper=>?_⟩
 · have stands:=inv.stands t
   have within:=(inv.locks.holder _ _).1 held
   rw[hp] at stands
   rw[stands.2.1] at within
   cases within
 · have stands:=inv.stands t
   rw[hp] at stands
   rw[stands.2.1]
   rfl
 · exact inv.depth_eq lock (owns_of_within ((inv.locks.holder _ _).1 held))
 · obtain ⟨-,out,pos⟩:=proper
   have phase:=inv.between (t:=s.current) ⟨pos,by rw[out];rfl⟩
   have held:=inv.held_iff.2 (by rw[phase];rfl)
   refine ⟨by simp[next,held],fun t between=>?_⟩
   exact inv.unique lock (by rw[inv.between between];rfl) (by rw[phase];rfl)

/-- The guard of a run that can be computed. -/
def Easy (s:State):Act→Prop
 | .locks a=>Simple s.locks a ∧ (a≠.step → target s.locks a≠some consoleLock) ∧ s.place s.current=.out
 | a=>Proper s onlyTwo a

instance (s:State):(a:Act) → Decidable (Easy s a)
 | .locks _=>inferInstanceAs (Decidable (_ ∧ _ ∧ _))
 | .acquireConsole | .releaseConsole | .putcharHaveLock _=>inferInstanceAs (Decidable ((_ ∧ _) ∧ _))
 | .interrupt _=>.isTrue trivial
 | .step=>inferInstanceAs (Decidable (if (s.place s.current).calls then Simple s.locks .step else _))

lemma proper_of_easy (s:State)(a:Act)(h:Easy s a):Proper s onlyTwo a:=by
 cases a with
 | locks a=>exact ⟨respects_of_simple _ _ h.1,h.2.1,fun busy=>absurd h.2.2 busy⟩
 | _=>exact h
def nestedOutput:List Act:=
 [.locks (.kernel (.threadStart 1)),.locks (.kernel .step),.locks (.kernel .step),
  .locks (.kernel .step),.locks (.kernel .step),.locks (.kernel .step),.acquireConsole,.step,.step,
  .step,.step,.acquireConsole,.step,.interrupt 46,.putcharHaveLock 33]

theorem console_lock_recursive_nested:∃s,
 Runs next (fun s=>Proper s onlyTwo) (start lockKernel) nestedOutput s ∧
 s.written=[(none,46),(some 0,33)] ∧ s.nest 0=2 ∧
 ∀t,s.locks.holder consoleLock=some t → s.consoleLockDepth=s.nest t-1:=by
 have found:(exec next Easy (start lockKernel) nestedOutput).any (fun s=>
   s.written=[(none,46),(some 0,33)] ∧ s.nest 0=2)=true:=by
  decide +kernel
 obtain ⟨s,run,facts⟩:=exec_any found
 obtain ⟨written,nest⟩:=of_decide_eq_true facts
 have run:=run.mono proper_of_easy
 exact ⟨s,run,written,nest,(console_lock_recursive onlyTwo_init rfl run).2.2.2.1⟩

end Pintos.Console
