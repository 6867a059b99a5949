import Pintos.WaitExitInvariant

namespace Pintos.WaitExit
open ExecRuns Kernel
open Function (update_self update_of_ne)

def waitReturns (k:Kernel)(p c:ℕ):List ℤ:=
 k.returns.filterMap (fun r=>if r.1=p ∧ r.2.1=c then some r.2.2 else none)

/-- The first result is the recorded status, every later one is -1. -/
def Agrees (k:Kernel)(p c:ℕ):Prop:=
 ∃v rest,waitReturns k p c=v::rest ∧ k.recorded c=some v ∧ ∀w∈rest,w=-1

/-- `a` is the step in which a `process_wait` by `p` learns whether it will wait
for `c`: a lookup that finds no thread, or the test of `wait_called`. -/
def Tests (k:Kernel)(a:Act)(p c:ℕ):Prop:=
 k.running=some p ∧ ((k.pc p=.user ∧ Calls k a p c ∧ c∉k.allList) ∨ (a=.step ∧ k.pc p=.found c))

def Waitable (k:Kernel)(c:ℕ):Prop:=c∈k.allList ∧ (k.thread c).waitCalled=false

/-- No `process_wait` can pass its test for `c` any more. -/
def Settled (k:Kernel)(c:ℕ):Prop:=c∈k.allList → (k.thread c).waitCalled=true

def Passed (pc:Pc)(c:ℕ):Prop:=pc=.checked c ∨ pc=.claimed c ∨ pc=.announced c ∨ pc=.waiting c

section
variable (k:Kernel)(p c t:ℕ)

@[simp] lemma waitReturns_buried:waitReturns (buried k t) p c=waitReturns k p c:=by
 unfold waitReturns
 rw[buried_returns]
lemma waitReturns_waitReturn_self (v:ℤ):
 waitReturns (waitReturn k p c v) p c=waitReturns k p c++[v]:=by
 simp[waitReturns,waitReturn]
lemma waitReturns_waitReturn_of_ne {d:ℕ}(v:ℤ)(h:¬(t=p ∧ d=c)):
 waitReturns (waitReturn k t d v) p c=waitReturns k p c:=by
 simp[waitReturns,waitReturn,h]

end

section
variable {k u:Kernel}{a:Act}

lemma Move.frame (m:Move k a u){p:ℕ}(other:k.running≠some p):
 u.pc p=k.pc p ∧ ∀c,waitReturns u p c=waitReturns k p c:=by
 have ne:∀ {q:ℕ},k.running=some q → p≠q:=by
  intro q cur he
  rw[he] at other
  exact other cur
 cases m with
 | dispatch | preempt=>exact ⟨rfl,fun _=>rfl⟩
 | missing _ q d _ cur | denied q d cur | wakeup q d cur=>
  refine ⟨update_of_ne (ne cur) _ _,fun c=>?_⟩
  exact waitReturns_waitReturn_of_ne k p c q _ (fun h=>ne cur h.1.symm)
 | bury q cur=>
  rw[buried_pc]
  exact ⟨update_of_ne (ne cur) _ _,fun c=>waitReturns_buried k p c q⟩
 | refused q _ cur | lookup _ q _ _ cur | exit q _ cur | threadExit q cur | check q _ cur
 | claim q _ cur | announce q _ cur | block q _ cur=>
  exact ⟨update_of_ne (ne cur) _ _,fun _=>rfl⟩

lemma Move.initialThread (m:Move k a u):u.initialThread=k.initialThread:=by
 cases m with
 | bury q=>exact buried_initialThread k q
 | _=>rfl

lemma Move.recorded (m:Move k a u)(inv:Inv k){d:ℕ}{v:ℤ}
 (h:k.recorded d=some v):u.recorded d=some v:=by
 cases m with
 | bury q cur=>
  have hne:d≠q:=by
   rintro rfl
   rw[inv.unrecorded d (inv.running_listed cur)] at h
   cases h
  rw[buried_recorded,update_of_ne hne]
  exact h
 | _=>exact h

lemma settled_setThread {c t:ℕ}{v:Thread}(h:Settled k c)
 (keep:(k.thread t).waitCalled=true → v.waitCalled=true):
 Settled (k.setThread t v) c:=by
 intro hm
 by_cases he:c=t
 · subst he
   simpa[setThread] using keep (h hm)
 · simpa[setThread,he] using h hm

lemma Move.settled (m:Move k a u)(inv:Inv k){c:ℕ}(h:Settled k c):Settled u c:=by
 cases m with
 | dispatch q | preempt q | refused q | exit q | block q=>
  exact settled_setThread h id
 | announce q d=>exact settled_setThread (t:=d) h id
 | claim q d=>exact settled_setThread (t:=d) h (fun _=>rfl)
 | missing | lookup | threadExit | denied | check | wakeup=>exact h
 | bury q=>
  intro hm
  rw[buried_allList] at hm
  have hne:c≠q:=by
   rintro rfl
   exact inv.nodup.not_mem_erase hm
  rw[buried_thread_of_ne k q hne,(wokenThreads_waitingThread k q c).2]
  exact h (List.mem_of_mem_erase hm)

end

/-- In the run `as` from `k₀`, `p` first tests whether it may wait for `c` in the state `k₁`. -/
def FirstTest (k₀:Kernel)(as:List Act)(p c:ℕ)(k₁:Kernel):Prop:=
 ∃before a after,as=before++a::after ∧ Runs next Always k₀ before k₁ ∧
  Tests k₁ a p c ∧ waitReturns k₁ p c=[]

lemma FirstTest.snoc {k₀ k₁:Kernel}{as:List Act}{p c:ℕ}(h:FirstTest k₀ as p c k₁)
 (b:Act):FirstTest k₀ (as++[b]) p c k₁:=by
 obtain ⟨before,a,after,rfl,rest⟩:=h
 exact ⟨before,a,after++[b],by simp,rest⟩

/-- How far the first `wait` of `p` for `c` has come. -/
inductive Progress (k₀:Kernel)(p c:ℕ)(as:List Act)(k:Kernel):Prop where
 | before (fresh:waitReturns k p c=[]) (out:¬Passed (k.pc p) c)
 | during (k₁:Kernel) (fresh:waitReturns k p c=[]) (inside:Passed (k.pc p) c)
   (test:FirstTest k₀ as p c k₁) (may:Waitable k₁ c)
 | after (k₁:Kernel) (v:ℤ) (rest:List ℤ) (returned:waitReturns k p c=v::rest)
   (later:∀w∈rest,w=-1) (out:¬Passed (k.pc p) c) (settled:Settled k c)
   (test:FirstTest k₀ as p c k₁)
   (verdict:(Waitable k₁ c ∧ k.recorded c=some v) ∨ (¬Waitable k₁ c ∧ v=-1))

section
variable {k₀ k u:Kernel}{p c:ℕ}{as:List Act}{a:Act}

variable (h:Progress k₀ p c as k)
include h

lemma Progress.quiet (inv:Inv k)(m:Move k a u)(place:Passed (u.pc p) c ↔ Passed (k.pc p) c)
 (same:waitReturns u p c=waitReturns k p c):Progress k₀ p c (as++[a]) u:=by
 cases h with
 | before fresh out=>exact .before (same.trans fresh) (out ∘ place.1)
 | during k₁ fresh inside test may=>
  exact .during k₁ (same.trans fresh) (place.2 inside) (test.snoc a) may
 | after k₁ v rest returned later out settled test verdict=>
  refine .after k₁ v rest (same.trans returned) later (out ∘ place.1) (m.settled inv settled)
   (test.snoc a) (verdict.imp_left ?_)
  exact fun hv=>⟨hv.1,m.recorded inv hv.2⟩

lemma Progress.reject (run:Runs next Always k₀ as k)
 (inv:Inv k)(m:Move k a u)(test:Tests k a p c)(outside:¬Passed (k.pc p) c)
 (refuse:Settled k c)(left:¬Passed (u.pc p) c)
 (returns:waitReturns u p c=waitReturns k p c++[-1]):
 Progress k₀ p c (as++[a]) u:=by
 have settled':=m.settled inv refuse
 cases h with
 | before fresh out=>
  have no:¬Waitable k c:=fun hw=>by simpa[hw.2] using refuse hw.1
  exact .after k (-1) [] (by rw[returns,fresh];rfl) (by simp) left settled'
   ⟨as,a,[],rfl,run,test,fresh⟩ (.inr ⟨no,rfl⟩)
 | during k₁ fresh inside=>exact absurd inside outside
 | after k₁ v rest returned later out settled test' verdict=>
  refine .after k₁ v (rest++[-1]) (by rw[returns,returned];rfl) ?_ left settled'
   (test'.snoc a) (verdict.imp_left fun hv=>⟨hv.1,m.recorded inv hv.2⟩)
  intro w hw
  rcases List.mem_append.1 hw with hw|hw
  · exact later w hw
  · exact List.mem_singleton.1 hw

lemma Progress.pass (run:Runs next Always k₀ as k)
 (inv:Inv k)(child:c≠k.initialThread)(cur:k.running=some p)
 (found:k.pc p=.found c)(called:(k.thread c).waitCalled=false):
 Progress k₀ p c (as++[.step]) (k.setPc p (.checked c)):=by
 have live:c∈k.allList:=by
  rcases inv.looked p c found with hm|hf|hi
  · exact hm
  · rw[(inv.poison c hf).2] at called
    cases called
  · exact absurd hi child
 cases h with
 | before fresh out=>
  exact .during k fresh (.inl (update_self _ _ _))
   ⟨as,.step,[],rfl,run,⟨cur,.inr ⟨rfl,found⟩⟩,fresh⟩ ⟨live,called⟩
 | during k₁ fresh inside=>simp[Passed,found] at inside
 | after k₁ v rest returned later out settled=>
  rw[settled live] at called
  cases called

lemma Progress.wake (inv:Inv k)(cur:k.running=some p)(asleep:k.pc p=.waiting c):
 Progress k₀ p c (as++[.step]) (waitReturn k p c (k.thread p).childExitStatus):=by
 have recorded:k.recorded c=some (k.thread p).childExitStatus:=by
  apply inv.woken p c asleep
  rw[(inv.current p).1 cur]
  simp
 have passed:Passed (k.pc p) c:=.inr (.inr (.inr asleep))
 cases h with
 | before fresh out=>exact absurd passed out
 | during k₁ fresh inside test may=>
  refine .after k₁ (k.thread p).childExitStatus [] ?_ (by simp) ?_ ?_ (test.snoc .step)
   (.inl ⟨may,recorded⟩)
  · rw[waitReturns_waitReturn_self,fresh]
    rfl
  · simp[Passed,waitReturn,setPc]
  · intro hm
    rw[inv.unrecorded c hm] at recorded
    cases recorded
 | after k₁ v rest returned later out=>exact absurd passed out

lemma Progress.next (run:Runs next Always k₀ as k)
 (inv:Inv k)(child:c≠k.initialThread)(m:Move k a u):
 Progress k₀ p c (as++[a]) u:=by
 by_cases turn:k.running=some p
 swap
 · obtain ⟨hpc,hret⟩:=m.frame turn
   exact h.quiet inv m (by rw[hpc]) (hret c)
 have me:∀ {q:ℕ},k.running=some q → q=p:=fun cur=>
  Option.some.inj (cur.symm.trans turn)
 cases m with
 | dispatch q idle=>
  rw[idle] at turn
  cases turn
 | preempt q cur on=>exact h.quiet inv (.preempt q cur on) Iff.rfl rfl
 | refused q pid cur at_ bad=>
  obtain rfl:=me cur
  exact h.quiet inv (.refused q pid cur at_ bad) (by simp[Passed,exit,setPc,at_]) rfl
 | missing _ q d call cur at_ dead=>
  obtain rfl:=me cur
  by_cases he:d=c
  · subst he
    exact h.reject run inv (.missing a q d call cur at_ dead)
     ⟨cur,.inl ⟨at_,call,dead⟩⟩ (by simp[Passed,at_]) (fun hm=>absurd hm dead)
     (by simp[Passed,waitReturn,setPc]) (waitReturns_waitReturn_self k q d (-1))
  · exact h.quiet inv (.missing a q d call cur at_ dead)
     (by simp[waitReturn,setPc,at_])
     (waitReturns_waitReturn_of_ne k q c q _ (fun hq=>he hq.2))
 | lookup _ q d call cur at_ live=>
  obtain rfl:=me cur
  exact h.quiet inv (.lookup a q d call cur at_ live) (by simp[Passed,setPc,at_]) rfl
 | exit q status cur at_=>
  obtain rfl:=me cur
  exact h.quiet inv (.exit q status cur at_) (by simp[Passed,exit,setPc,at_]) rfl
 | threadExit q cur at_=>
  obtain rfl:=me cur
  exact h.quiet inv (.threadExit q cur at_) (by simp[Passed,setPc,at_]) rfl
 | denied q d cur at_ called=>
  obtain rfl:=me cur
  by_cases he:d=c
  · subst he
    exact h.reject run inv (.denied q d cur at_ called) ⟨cur,.inr ⟨rfl,at_⟩⟩
     (by simp[Passed,at_]) (fun _=>called) (by simp[Passed,waitReturn,setPc])
     (waitReturns_waitReturn_self k q d (-1))
  · exact h.quiet inv (.denied q d cur at_ called) (by simp[Passed,waitReturn,setPc,at_])
     (waitReturns_waitReturn_of_ne k q c q _ (fun hq=>he hq.2))
 | check q d cur at_ called=>
  obtain rfl:=me cur
  by_cases he:d=c
  · subst he
    exact h.pass run inv child cur at_ called
  · exact h.quiet inv (.check q d cur at_ called) (by simp[Passed,setPc,at_,he]) rfl
 | claim q d cur at_=>
  obtain rfl:=me cur
  exact h.quiet inv (.claim q d cur at_) (by simp[Passed,setPc,at_]) rfl
 | announce q d cur at_=>
  obtain rfl:=me cur
  exact h.quiet inv (.announce q d cur at_) (by simp[Passed,setPc,at_]) rfl
 | block q d cur at_=>
  obtain rfl:=me cur
  exact h.quiet inv (.block q d cur at_) (by simp[Passed,setPc,at_]) rfl
 | wakeup q d cur at_=>
  obtain rfl:=me cur
  by_cases he:d=c
  · subst he
    exact h.wake inv cur at_
  · exact h.quiet inv (.wakeup q d cur at_) (by simp[Passed,waitReturn,setPc,at_,he])
     (waitReturns_waitReturn_of_ne k q c q _ (fun hq=>he hq.2))
 | bury q cur at_ wake=>
  obtain rfl:=me cur
  exact h.quiet inv (.bury q cur at_ wake) (by simp[Passed,at_]) (waitReturns_buried k q c q)

end

lemma Runs.progress {k u:Kernel}{as:List Act}{p c:ℕ}(start:Started k)
 (child:c≠k.initialThread)(run:Runs next Always k as u):
 Progress k p c as u ∧ c≠u.initialThread:=by
 refine run.snoc_induction (motive:=fun as u=>Progress k p c as u ∧ c≠u.initialThread) ?_ ?_
 · refine ⟨.before ?_ ?_,child⟩
   · simp[waitReturns,start.quiet]
   · rcases start.pc p with he|he<;>simp[Passed,he]
 · intro bs t a v before _ last h
   have inv:=Runs.inv before start
   have m:=next_move inv.nodup last
   exact ⟨h.1.next before inv h.2 m,by rw[m.initialThread];exact h.2⟩

/-- The verdict of the first test decides: the results agree with the recorded
status exactly when `c` was then still in `all_list` and unclaimed, or the
status happens to be -1. -/
theorem wait_agrees_iff {k u:Kernel}{as:List Act}{p c:ℕ}(start:Started k)
 (child:c≠k.initialThread)(run:Runs next Always k as u)
 (returned:waitReturns u p c≠[]):
 ∃k₁,FirstTest k as p c k₁ ∧ (Agrees u p c ↔ Waitable k₁ c ∨ u.recorded c=some (-1)):=by
 cases (Runs.progress start child run).1 with
 | before fresh | during _ fresh=>exact absurd fresh returned
 | after k₁ v rest first later out settled test verdict=>
  refine ⟨k₁,test,?_⟩
  have agrees:Agrees u p c ↔ u.recorded c=some v:=by
   constructor
   · rintro ⟨w,rest',hw,hr,-⟩
     rw[first] at hw
     obtain ⟨rfl,-⟩:=List.cons.inj hw
     exact hr
   · exact fun hr=>⟨v,rest,first,hr,later⟩
  rw[agrees]
  rcases verdict with ⟨may,hr⟩|⟨no,rfl⟩
  · exact ⟨fun _=>.inl may,fun _=>hr⟩
  · exact ⟨.inr,fun hw=>hw.resolve_left no⟩

theorem wait_agrees_handshake:∃as u,Started parentAndChild ∧
 Runs next Always parentAndChild as u ∧ waitReturns u 3 4=[57,-1] ∧
 ∃k₁,FirstTest parentAndChild as 3 4 k₁ ∧
  (Agrees u 3 4 ↔ Waitable k₁ 4 ∨ u.recorded 4=some (-1)):=by
 have run:∃u,exec next Always parentAndChild [.wait 4,.step,.step,.step,.step,.dispatch 4,
   .exit 57,.step,.dispatch 3,.step,.wait 4]=some u ∧ waitReturns u 3 4=[57,-1]:=
  ⟨_,rfl,rfl⟩
 obtain ⟨u,hu,hr⟩:=run
 exact ⟨_,u,parentAndChild_started,exec_runs hu,hr,
  wait_agrees_iff parentAndChild_started (by decide) (exec_runs hu) (by rw[hr];simp)⟩

/-- A child that exits before its parent looks for it is no longer found, and
its status is lost. -/
theorem early_exit_loses_status:∃as u,Started parentAndChild ∧
 Runs next Always parentAndChild as u ∧ u.recorded 4=some 57 ∧
 waitReturns u 3 4=[-1]:=by
 have run:∃u,exec next Always parentAndChild
   [.preempt,.dispatch 4,.exit 57,.step,.dispatch 3,.wait 4]=some u ∧
   u.recorded 4=some 57 ∧ waitReturns u 3 4=[-1]:=
  ⟨_,rfl,rfl,rfl⟩
 obtain ⟨u,hu,hr⟩:=run
 exact ⟨_,u,parentAndChild_started,exec_runs hu,hr⟩

end Pintos.WaitExit
