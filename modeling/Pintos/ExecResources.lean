import Pintos.FileCalls
import Pintos.FilesysOwnership
import Pintos.PageDiscipline
import Pintos.Spawning

/-!
# What `exec` costs

The page of `exec` that holds the copy of the command line is one that nobody remembers, so
it is never freed.
-/
namespace Pintos.Spawning
open ExecHoare ExecRuns Interaction Paging PagePools Process Syscall AskKinds PageDiscipline
open Cache (Fault)

inductive Stage where
 | untouched
 | refused
 | holding (held:Set ℕ)

def Stage.allowed:Stage→Ask→Prop
 | .untouched,.byte _ | .untouched,.isMapped _ | .untouched,.exit _=>True
 | .untouched,.palloc user=>user=false
 | .untouched,_ | .refused,_=>False
 | .holding held,q=>PageDiscipline.allowed held q

def Stage.after:Stage → (q:Ask) → q.Answer → Stage
 | .untouched,.palloc _,none=>.refused
 | .untouched,.palloc _,some _=>.holding ∅
 | .untouched,_,_=>.untouched
 | .refused,_,_=>.refused
 | .holding held,q,r=>.holding (PageDiscipline.after held q r)

/-- `exec` does not return before it has asked for a page. -/
def Staged (p:Proc ℤ)(stage:Stage):Prop:=
 Obeys Stage.allowed Stage.after p (fun _ stage=>stage≠.untouched) stage

lemma staged_of_frugal {held:Set ℕ}{p:Proc ℤ}(h:Frugal held p):Staged p (.holding held):=by
 induction p generalizing held with
 | ret a=>exact nofun
 | ask q k ih=>exact ⟨h.1,fun r=>ih r (h.2 r)⟩

lemma staged_exec (a:Addr):Staged (exec a) .untouched:=by
 refine obeys_bind.2 (Avoids.obeys (only_badPointer a) (fun q hq=>?_) fun bad=>?_)
 · have hk:kind q∈[Kind.isMapped]:=by simpa using hq
   cases q with
   | isMapped a=>exact ⟨trivial,fun _=>rfl⟩
   | _=>simp[kind] at hk
 cases bad with
 | true=>exact obeys_stop.2 trivial
 | false=>
  refine ⟨trivial,fun first=>?_⟩
  change Staged (if first=0 then _ else _) .untouched
  split
  · exact obeys_stop.2 trivial
  · refine ⟨rfl,fun page=>?_⟩
    cases page with
    | none=>exact nofun
    | some page=>exact staged_of_frugal (frugal_executing a)

section
variable {φ:Type}{env:Env φ}{s₀ s u:State φ}{sys sys':Sys φ}{held:Set ℕ}{p:ℕ}

lemma used_mark {pools:Pools}{q:ℕ}(b:Bool)(h:pools.used p=true)(ne:q≠p):
 (pools.mark q b).used p=true:=by
 rw[Pools.mark_used_ne b (Ne.symm ne)]
 exact h

lemma ne_getPage {pools:Pools}{user:Bool}{q:ℕ}(h:pools.used p=true)
 (got:pools.getPage user=some q):q≠p:=by
 rintro rfl
 rw[Pools.getPage_unused got] at h
 cases h

lemma pallocPage_used (user:Bool)(h:sys.pools.used p=true)(free:p∉held):
 Holds (pallocPage user) sys (fun x sys'=>
  sys'.pools.used p=true ∧ p∉after held (.palloc user) x ∧
   ∃pools,sys'={sys with pools}) AnyFault:=by
 refine holds_pallocPage.2 ⟨fun _=>⟨h,free,sys.pools,rfl⟩,fun page got=>?_⟩
 have ne:=ne_getPage h got
 refine ⟨used_mark true h ne,?_,_,rfl⟩
 rintro (he|he)
 · exact ne he.symm
 · exact free he

/-- The page `p` is used, and the new process has it neither as the page of its
`struct thread` nor in its page directory. -/
structure Lost (p:ℕ)(sys:Sys φ):Prop where
 used:sys.pools.used p=true
 page:sys.page≠p
 pd:∀pd,sys.pd=some pd → p∉userPages pd

lemma handleChild_lost (lost:Lost p sys)(free:p∉held)(r:ℤ){q:Ask}(ok:allowed held q):
 Holds (handleChild env r q) sys (fun x sys'=>Lost p sys' ∧ p∉after held q x) AnyFault:=by
 have files:∀ {α:Type} (m:Exec Fault φ α),Holds (onFiles m) sys
   (fun _ sys'=>Lost p sys' ∧ p∉held) AnyFault:=fun m=>
  holds_onFiles.2 ((holds_trivial m _).imp fun _ _ _=>⟨⟨lost.used,lost.page,lost.pd⟩,free⟩)
 cases q with
 | filesys c | seek f pos | tell f=>exact files _
 | palloc user=>
  refine (pallocPage_used user lost.used free).imp ?_
  rintro x _ ⟨used,free',pools,rfl⟩
  exact ⟨⟨used,lost.page,lost.pd⟩,free'⟩
 | pallocFree page=>
  have ne:page≠p:=fun he=>free (he▸ok)
  exact ⟨⟨used_mark false lost.used ne,lost.page,lost.pd⟩,free⟩
 | pagedir=>
  refine ⟨lost,?_⟩
  cases hd:sys.pd with
  | none=>exact free
  | some pd=>exact fun h=>h.elim free (lost.pd pd hd)
 | setPagedir pd=>
  refine ⟨⟨lost.used,lost.page,?_⟩,free⟩
  rintro pd' ⟨⟩
  exact fun hp=>free (ok p hp)
 | store a bytes=>
  refine holds_bind.2 (holds_get.2 ?_)
  split
  · exact ⟨lost,free⟩
  · trivial
 | setFd i file=>exact ⟨⟨lost.used,lost.page,lost.pd⟩,free⟩
 | word a | byte a | isMapped a | fd i | spawn page name input | processWait pid=>exact ⟨lost,free⟩
 | putbuf buffer size | fill page bytes | lockAcquire | lockRelease=>exact ⟨lost,free⟩
 | _=>trivial

def Spares (p:ℕ){α:Type}(q:Proc α):Prop:=∃held:Set ℕ,p∉held ∧ Frugal held q
lemma spares_of_frugal {α:Type}{q:Proc α}(h:Frugal ∅ q):Spares p q:=⟨∅,Set.notMem_empty p,h⟩
lemma frugal_handler (esp:Addr):Frugal held (handler esp):=
 frugal_bind (frugal_syscallHandler esp) fun _=>frugal_pure _

def Kept (p:ℕ)(sys:Sys φ):Prop:=
 match sys.child with
 | .absent | .gone=>sys.pools.used p=true
 | .user=>Lost p sys
 | .starting q | .calling q | .exiting q=>Lost p sys ∧ Spares p q

lemma Kept.used (h:Kept p sys):sys.pools.used p=true:=by
 unfold Kept at h
 split at h
 · exact h
 · exact h
 · exact h.used
 · exact h.1.used
 · exact h.1.used
 · exact h.1.used

lemma stepChild_kept {α:Type}{r:ℤ}{more:Proc α→Child}{done exits:Sys φ→Sys φ}
 {q:Proc α}(lost:Lost p sys)(spares:Spares p q)
 (goes:∀ (sys':Sys φ) q',Lost p sys' → Spares p q' → Kept p {sys' with child:=more q'})
 (ends:Kept p (done sys))(leaves:Kept p (exits sys))
 (h:stepChild env r sys more done exits q=some sys'):Kept p sys':=by
 rcases stepChild_cases h with ⟨x,rfl,rfl⟩|⟨q,k,rfl,answered⟩
 · exact ends
 obtain ⟨held,free,ok,rest⟩:=spares
 rcases answered with ⟨x,after,answer,rfl⟩|⟨status,-,rfl⟩
 · have step:Holds (handleChild env r q) sys _ AnyFault:=handleChild_lost lost free r ok
   rw[holds_of_ok answer] at step
   exact goes _ _ step.1 ⟨_,step.2,rest _⟩
 · exact leaves

lemma Lost.exits (lost:Lost p sys):Kept p sys.exits:=
 ⟨⟨lost.used,lost.page,lost.pd⟩,spares_of_frugal frugal_processExit⟩

lemma nextChild_kept {r:ℤ}(h:Kept p sys)(step:nextChild env r sys=some sys'):Kept p sys':=by
 unfold Kept at h
 unfold nextChild at step
 cases hc:sys.child with
 | starting q=>
  rw[hc] at h
  simp only[hc] at step
  refine stepChild_kept h.1 h.2 (fun sys' q' lost spares=>?_) ?_ ?_ step
  · exact ⟨⟨lost.used,lost.page,lost.pd⟩,spares⟩
  · exact ⟨h.1.used,h.1.page,h.1.pd⟩
  · exact ⟨⟨h.1.used,h.1.page,h.1.pd⟩,spares_of_frugal frugal_processExit⟩
 | calling q=>
  rw[hc] at h
  simp only[hc] at step
  refine stepChild_kept h.1 h.2 (fun sys' q' lost spares=>?_) ?_ h.1.exits step
  · exact ⟨⟨lost.used,lost.page,lost.pd⟩,spares⟩
  · exact ⟨h.1.used,h.1.page,h.1.pd⟩
 | exiting q=>
  rw[hc] at h
  simp only[hc] at step
  refine stepChild_kept h.1 h.2 (fun sys' q' lost spares=>?_) ?_ ?_ step
  · exact ⟨⟨lost.used,lost.page,lost.pd⟩,spares⟩
  · exact used_mark false h.1.used h.1.page
  · unfold Kept
    simp only[id,hc]
    exact h
 | absent | user | gone=>simp only[hc] at step;cases step

lemma Kept.change (h:Kept p sys)(used:sys'.pools.used p=true)
 (child:sys'.child=sys.child)(page:sys'.page=sys.page)(pd:sys'.pd=sys.pd):
 Kept p sys':=by
 have lost:Lost p sys → Lost p sys':=fun lost=>
  ⟨used,page▸lost.page,fun d hd=>lost.pd d (pd▸hd)⟩
 unfold Kept at h ⊢
 rw[child]
 cases hc:sys.child<;>rw[hc] at h
 · exact used
 · exact ⟨lost h.1,h.2⟩
 · exact lost h
 · exact ⟨lost h.1,h.2⟩
 · exact ⟨lost h.1,h.2⟩
 · exact used

lemma handleCaller_kept (kernelOnly:KernelOnly env.init)(h:Kept p sys)(free:p∉held)
 {q:Ask}(ok:allowed held q):
 Holds (handleCaller env q) sys (fun x sys'=>Kept p sys' ∧ p∉after held q x) AnyFault:=by
 cases q with
 | palloc user=>
  refine (pallocPage_used user h.used free).imp ?_
  rintro x _ ⟨used,free',pools,rfl⟩
  exact ⟨h.change used rfl rfl rfl,free'⟩
 | pallocFree page=>
  have ne:page≠p:=fun he=>free (he▸ok)
  exact ⟨h.change (used_mark false h.used ne) rfl rfl rfl,free⟩
 | filesys c=>
  exact holds_onFiles.2 ((holds_trivial _ _).imp fun _ _ _=>
   ⟨h.change h.used rfl rfl rfl,free⟩)
 | spawn page name input=>
  have ne:page≠p:=fun he=>free (he▸ok)
  exact ⟨⟨⟨h.used,ne,nofun⟩,spares_of_frugal (frugal_startProcess kernelOnly input)⟩,free⟩
 | byte a | isMapped a | lockAcquire | lockRelease=>exact ⟨h,free⟩
 | _=>trivial

def StageInv (start:Sys φ)(sys:Sys φ):Stage→Prop
 | .untouched=>sys=start
 | .refused=>sys=start ∧ start.pools.getPage false=none
 | .holding held=>∃p,start.pools.getPage false=some p ∧ p∉held ∧ Kept p sys

lemma handleCaller_stage (kernelOnly:KernelOnly env.init){start:Sys φ}
 (absent:start.child=.absent){stage:Stage}{q:Ask}(ok:stage.allowed q)
 (h:StageInv start sys stage):
 Holds (handleCaller env q) sys (fun x sys'=>StageInv start sys' (stage.after q x)) AnyFault:=by
 cases stage with
 | holding held=>
  obtain ⟨p,got,free,kept⟩:=h
  exact (handleCaller_kept kernelOnly kept free ok).imp fun x sys' ⟨kept',free'⟩=>
   ⟨p,got,free',kept'⟩
 | refused=>exact ok.elim
 | untouched=>
  obtain rfl:sys=start:=h
  cases q with
  | palloc user=>
   obtain rfl:user=false:=ok
   refine holds_pallocPage.2 ⟨fun none=>⟨rfl,none⟩,fun page got=>?_⟩
   refine ⟨page,got,Set.notMem_empty page,?_⟩
   simp only[absent]
   exact Pools.mark_used true
  | byte a | isMapped a=>exact rfl
  | exit status=>trivial
  | _=>exact ok.elim

def Inv (s₀ s:State φ):Prop:=∃stage,Staged s.caller stage ∧ StageInv s₀.sys s.sys stage

lemma StageInv.kept {start:Sys φ}{stage:Stage}(absent:start.child=.absent)
 (h:StageInv start sys stage)(there:sys.child≠.absent):
 ∃p,start.pools.getPage false=some p ∧ Kept p sys ∧
  ∀sys',Kept p sys' → StageInv start sys' stage:=by
 cases stage with
 | untouched=>
  obtain rfl:sys=start:=h
  exact absurd absent there
 | refused=>
  obtain rfl:sys=start:=h.1
  exact absurd absent there
 | holding held=>
  obtain ⟨p,got,free,kept⟩:=h
  exact ⟨p,got,kept,fun sys' kept'=>⟨p,got,free,kept'⟩⟩

lemma next_inv (kernelOnly:KernelOnly env.init)(absent:s₀.sys.child=.absent)
 (h:Inv s₀ s){a:Act}(step:next env s a=some u):Inv s₀ u:=by
 obtain ⟨stage,staged,inv⟩:=h
 -- A step of the new process: it goes from `sys` to `sys'`, and the caller does not move.
 have moves:∀sys',s.sys.child≠.absent → (∀p,Kept p s.sys → Kept p sys') →
   Inv s₀ {s with sys:=sys'}:=fun sys' there kept=>by
  obtain ⟨p,-,held,inv'⟩:=inv.kept absent there
  exact ⟨stage,staged,inv' sys' (kept p held)⟩
 rcases next_cases step with ⟨q,k,x,sys,at_,answer,rfl⟩|⟨r,sys',moved,rfl⟩ |
  ⟨user,bytes,child,enters,rfl⟩
 · rw[at_] at staged
   have answered:Holds (handleCaller env q) s.sys _ AnyFault:=
    handleCaller_stage kernelOnly absent staged.1 inv
   rw[holds_of_ok answer] at answered
   exact ⟨_,staged.2 x,answered⟩
 · refine moves sys' (fun absent=>?_) fun p kept=>nextChild_kept kept moved
   unfold nextChild at moved
   simp only[absent] at moved
   cases moved
 · refine moves _ (by rw[user];nofun) fun p kept=>?_
   unfold Kept at kept
   rw[user] at kept
   have lost:Lost p {s.sys with bytes,child}:=⟨kept.used,kept.page,kept.pd⟩
   cases enters with
   | call esp=>exact ⟨lost,spares_of_frugal (frugal_handler esp)⟩
   | fault a notPresent write=>exact ⟨lost,spares_of_frugal (frugal_pageFault a _ _)⟩
   | kill=>exact ⟨lost,spares_of_frugal frugal_processExit⟩

def Complete (s:State φ):Prop:=(∃r,s.caller=.ret r) ∧ (s.sys.child=.absent ∨ s.sys.child=.gone)

lemma complete_cases (kernelOnly:KernelOnly env.init){a:Addr}(start:Started a s₀)
 {acts:List Act}(run:Runs (next env) (fun _ _=>True) s₀ acts s)(complete:Complete s):
 (s.sys=s₀.sys ∧ s₀.sys.pools.getPage false=none) ∨
  ∃p,s₀.sys.pools.getPage false=some p ∧ s.sys.pools.used p=true:=by
 have inv:Inv s₀ s:=by
  refine run.invariant (fun s a u inv _ step=>next_inv kernelOnly start.child inv step) ?_
  exact ⟨.untouched,start.caller▸staged_exec a,rfl⟩
 obtain ⟨stage,staged,inv⟩:=inv
 obtain ⟨⟨r,hr⟩,-⟩:=complete
 rw[hr] at staged
 cases stage with
 | untouched=>exact absurd rfl staged
 | refused=>exact .inl inv
 | holding held=>
  obtain ⟨p,got,-,kept⟩:=inv
  exact .inr ⟨p,got,kept.used⟩

end
open Directory InodeTable InodeData Filesys

def fileSystem (io: SectorIO)(stack:DirEntry):Files Fs where
 call:=FileCalls.fsCall io stack
 seek:=FileCalls.fileSeek
 tell:=FileCalls.fileTell
def openCnt (fs:Fs)(sector:ℕ):ℤ:=((openedAt fs.inodes sector).map (·.openCnt)).getD 0
def Conserved (s₀ s:State Fs):Prop:=
 s.sys.pools.used=s₀.sys.pools.used ∧ ∀sector,openCnt s.sys.files sector=openCnt s₀.sys.files sector

/-- Every outcome costs at least a page, unless there was none when `exec` was called. -/
theorem exec_conserves_iff {io: SectorIO}{stack:DirEntry}{init:PageDir}{memory:Memory}
 {tid:ℕ}(kernelOnly:KernelOnly init){a:Addr}{s₀ s:State Fs}(start:Started a s₀)
 {acts:List Act}
 (run:Runs (next ⟨fileSystem io stack,init,memory,tid⟩) (fun _ _=>True) s₀ acts s)
 (complete:Complete s):Conserved s₀ s ↔ s₀.sys.pools.free false=[]:=by
 rw[←Pools.getPage_eq_none]
 rcases complete_cases kernelOnly start run complete with ⟨same,none⟩|⟨p,got,used⟩
 · refine ⟨fun _=>none,fun _=>?_⟩
   unfold Conserved
   rw[same]
   exact ⟨rfl,fun _=>rfl⟩
 · refine ⟨fun conserved=>?_,fun none=>?_⟩
   · rw[conserved.1,Pools.getPage_unused got] at used
     cases used
   · rw[got] at none
     cases none

def calledWith (pools:Pools)(fs:Fs):State Fs where
 caller:=exec 0xbffffff0
 sys:=⟨pools,fs,.absent,none,0,none,fun _=>none,fun _=>0⟩
lemma started_calledWith (pools:Pools)(fs:Fs):Started 0xbffffff0 (calledWith pools fs):=
 ⟨rfl,rfl,rfl⟩
def commandEnv:Env Fs:=⟨fileSystem direct fun _=>0,⟨0,fun _=>none⟩,commandLine,4⟩
def completed (s:State Fs):Bool:=
 match s.caller,s.sys.child with
 | .ret _,.absent | .ret _,.gone=>true
 | _,_=>false

lemma complete_of_completed {s:State Fs}(h:completed s=true):Complete s:=by
 unfold completed at h
 split at h
 · rename_i hc hs
   exact ⟨⟨_,hc⟩,.inl hs⟩
 · rename_i hc hs
   exact ⟨⟨_,hc⟩,.inr hs⟩
 · cases h

/-- The file `a` is not an executable. When the process that was started for it is gone, three
pages are still used, and the inode of `a` is open. -/
theorem exec_leaks:∃fs acts s,
 Runs (next commandEnv) (fun _ _=>True) (calledWith (pools false) fs) acts s ∧ Complete s ∧
 ¬Conserved (calledWith (pools false) fs) s ∧ s.sys.outcome=some false ∧
 (List.range 14).filter s.sys.pools.used=[0,1,2] ∧
 openCnt fs 4=0 ∧ openCnt s.sys.files 4=1:=by
 have found:(result (filesysInit direct true) (boot smallDevice)).any (fun r=>
   (result (filesysCreate direct nameA 512 (fun _=>0)) r.2).any (fun r=>
    (ExecRuns.exec (next commandEnv) (fun _ _=>True) (calledWith (pools false) r.2)
     (List.replicate 19 .caller++List.replicate 264 (.child 0))).any (fun s=>
      completed s ∧ s.sys.outcome=some false ∧
      (List.range 14).filter s.sys.pools.used=[0,1,2] ∧
      openCnt r.2 4=0 ∧ openCnt s.sys.files 4=1)))=true:=by
  decide +kernel
 obtain ⟨formatted,_,found⟩:=(Option.any_eq_true _ _).1 found
 obtain ⟨created,_,found⟩:=(Option.any_eq_true _ _).1 found
 obtain ⟨s,run,facts⟩:=exec_any found
 obtain ⟨completed,facts⟩:=of_decide_eq_true facts
 refine ⟨created.2,_,s,run,complete_of_completed completed,fun conserved=>?_,facts⟩
 have used:=facts.2.1
 rw[conserved.1] at used
 exact absurd (show (List.range 14).filter (pools false).used=[0,1,2] from used) (by decide)

theorem exec_conserves_full:∃acts s,
 Runs (next commandEnv) (fun _ _=>True) (calledWith (pools true) (boot smallDevice)) acts s ∧
 Complete s ∧ Conserved (calledWith (pools true) (boot smallDevice)) s:=by
 have found:(ExecRuns.exec (next commandEnv) (fun _ _=>True)
   (calledWith (pools true) (boot smallDevice)) (List.replicate 3 .caller)).any
   (fun s=>completed s)=true:=by
  decide +kernel
 obtain ⟨s,run,done⟩:=exec_any found
 have complete:=complete_of_completed done
 have kernelOnly:KernelOnly commandEnv.init:=fun _ _=>rfl
 have none:(calledWith (pools true) (boot smallDevice)).sys.pools.free false=[]:=by decide
 exact ⟨_,s,run,complete,
  (exec_conserves_iff kernelOnly (started_calledWith _ _) run complete).2 none⟩

end Pintos.Spawning
