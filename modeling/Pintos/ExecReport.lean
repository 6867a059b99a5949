import Pintos.LoadedImage

/-!
# What `exec` reports

`exec` returns as soon as there is a thread, and never learns what becomes of `load`.
-/
namespace Pintos.Spawning
open ExecHoare ExecRuns Interaction Paging PagePools PageMaps Process Syscall ElfImage AskKinds List Option Pools
open UserStrings
open FileCalls (string)

section
variable {env:Env Shelf}{sys sys':Sys Shelf}{a:Addr}{n:ℕ}{F:Stop→Prop}

def commandCopy (env:Env Shelf)(a:Addr):List UInt8:=(string env.memory a).val.take (pgSize-1)
lemma commandCopy_take:(commandCopy env a).take (pgSize-1)=commandCopy env a:=by
 rw[commandCopy,take_take,Nat.min_self]
abbrev Calls (env:Env Shelf){α:Type}(p:Proc α)(sys:Sys Shelf)
 (Q:α→Sys Shelf→Prop)(F:Stop→Prop):Prop:=Holds (run (handleCaller env) p) sys Q F

lemma calls_palloc {Q:Option ℕ→Sys Shelf→Prop}:Calls env (pallocGetPage false) sys Q F ↔
  (sys.pools.getPage false=none → Q none sys) ∧
  ∀page,sys.pools.getPage false=some page →
   Q (some page) {sys with pools:=sys.pools.mark page true}:=by
 unfold Calls pallocGetPage
 rw[holds_run_ask]
 exact holds_pallocPage

lemma calls_copy (line:StringAt env.memory n a)(ha:a≠0){Q:List UInt8→Sys Shelf→Prop}:
 Calls env (strlcpy a pgSize) sys Q F ↔ Q (commandCopy env a) sys:=
 holds_strlcpy (fun _=>rfl) line ha

lemma startable_congr {taken:ℕ}{name input:List UInt8}(pools:sys'.pools=sys.pools)
 (files:sys'.files=sys.files):
 Startable taken sys' name input ↔ Startable taken sys name input:=by
 unfold Startable
 rw[pools,files]

/-- The new process has been created; what it takes to load it is known by what there was
`taken` kernel pages before. -/
structure Spawned (env:Env Shelf)(taken:ℕ)(name input:List UInt8)(sys sys':Sys Shelf):
  Prop where
 child:sys'.child=.starting (startProcess env.init input)
 outcome:sys'.outcome=sys.outcome
 startable:Startable 2 sys' name input ↔ Startable (2+taken) sys name input

lemma Spawned.taken {taken page:ℕ}{name input:List UInt8}(got:sys.pools.getPage false=some page)
 (h:Spawned env taken name input {sys with pools:=sys.pools.mark page true} sys'):
 Spawned env (taken+1) name input sys sys':=
 ⟨h.child,h.outcome,h.startable.trans (startable_taken got)⟩

lemma threadCreate_spec (name input:List UInt8):
 Calls env (threadCreate (some name) input) sys (fun tid sys'=>
  (tid=none ∧ sys.pools.free false=[] ∧ sys'=sys) ∨
  (tid=some env.tid ∧ sys.pools.free false≠[] ∧ Spawned env 1 name input sys sys'))
  NoFault:=by
 unfold Calls threadCreate
 rw[holds_run_bind]
 refine calls_palloc.2 ⟨fun none=>?_,fun page got=>?_⟩
 · exact .inl ⟨rfl,getPage_eq_none.1 none,rfl⟩
 · have left:sys.pools.free false≠[]:=ne_nil_of_mem (getPage_mem got)
   refine .inr ⟨rfl,left,Spawned.taken got ⟨rfl,rfl,?_⟩⟩
   exact startable_congr rfl rfl

lemma processExecute_spec (line:StringAt env.memory n a)(ha:a≠0){name:List UInt8}
 (first:strtok (commandCopy env a)=some name):
 Calls env (processExecute a) sys (fun tid sys'=>
  (tid=none ∧ (sys.pools.free false).length<3 ∧ sys'.child=sys.child) ∨
  (tid=some env.tid ∧ 3≤(sys.pools.free false).length ∧
   Spawned env 3 name (commandCopy env a) sys sys')) NoFault:=by
 unfold Calls processExecute
 rw[holds_run_bind]
 refine calls_palloc.2 ⟨fun none=>?_,fun one got₁=>?_⟩
 · rw[getPage_eq_none] at none
   exact .inl ⟨rfl,by rw[none];decide,rfl⟩
 have left₁:=free_taken got₁
 dsimp only
 rw[holds_run_bind]
 refine calls_palloc.2 ⟨fun none=>?_,fun two got₂=>?_⟩
 · rw[getPage_eq_none] at none
   dsimp only at none
   rw[none,length_nil] at left₁
   exact .inl ⟨rfl,by omega,rfl⟩
 have left₂:=free_taken got₂
 dsimp only at left₂ ⊢
 rw[holds_run_bind]
 refine (calls_copy line ha).2 ?_
 rw[holds_run_bind]
 refine (calls_copy line ha).2 ?_
 rw[first,holds_run_bind]
 refine (threadCreate_spec name (commandCopy env a)).imp ?_
 rintro tid after (⟨rfl,none,rfl⟩|⟨rfl,left₃,spawned⟩)
 · rw[holds_run_bind]
   refine holds_run_ask.2 (.inl ⟨rfl,?_,rfl⟩)
   dsimp only at none
   rw[none,length_nil] at left₂
   omega
 · refine .inr ⟨rfl,?_,(spawned.taken got₂).taken got₁⟩
   have left:=length_pos_iff.2 left₃
   dsimp only at left
   omega

def Refused (env:Env Shelf)(a:Addr)(sys:Sys Shelf):Prop:=
 a=0 ∨ (string env.memory a).val=[] ∨ (sys.pools.free false).length<4 ∨
  ∀name,strtok (commandCopy env a)=some name → sys.files.lookup sys.files.opens name=none

/-- The file that the name stands for when it is looked up a second time can be loaded. -/
def Served (env:Env Shelf)(a:Addr)(sys:Sys Shelf):Prop:=
 ∃name c,strtok (commandCopy env a)=some name ∧
  sys.files.lookup (sys.files.opens+1) name=some c ∧ 6≤(sys.pools.free false).length ∧
  Loadable c ((sys.pools.free false).length-6) (sys.pools.free true).length (commandCopy env a)

structure Created (env:Env Shelf)(a:Addr)(sys sys':Sys Shelf):Prop where
 child:sys'.child=.starting (startProcess env.init (commandCopy env a))
 outcome:sys'.outcome=sys.outcome
 startable:∃name,strtok (commandCopy env a)=some name ∧
  (Startable 2 sys' name (commandCopy env a) ↔ Served env a sys)

lemma Created.loads (shelved:env.files=shelf)(kernelOnly:KernelOnly env.init){r:ℤ}
 (made:Created env a sys sys'):
 Loads env r (startProcess env.init (commandCopy env a)) sys' (fun _ _=>Served env a sys)
  (fun _=>¬Served env a sys):=by
 obtain ⟨name,first,startable⟩:=made.startable
 rw[←startable]
 exact startProcess_spec shelved kernelOnly (by rw[commandCopy_take];exact first)

lemma served_iff {name:List UInt8}(first:strtok (commandCopy env a)=some name){page:ℕ}
 (got:sys.pools.getPage false=some page){files:Shelf}
 (lookup:files.lookup=sys.files.lookup)(opens:files.opens=sys.files.opens+1):
 Startable 5 {sys with pools:=sys.pools.mark page true,files} name (commandCopy env a) ↔
  Served env a sys:=by
 have kernels:=free_taken got
 have users:=free_other got true (by decide)
 have pages:((sys.pools.mark page true).free false).length-5=
   (sys.pools.free false).length-6:=by omega
 unfold Startable Served
 dsimp only
 rw[lookup,opens,users,commandCopy_take,pages]
 constructor
 · rintro ⟨enough,c,found,loadable⟩
   exact ⟨name,c,first,found,by omega,loadable⟩
 · rintro ⟨name',c,first',found,enough,loadable⟩
   rw[first] at first'
   obtain rfl:=some.inj first'
   exact ⟨by omega,c,found,loadable⟩

lemma calls_badPointer (line:StringAt env.memory n a){Q:Bool→Sys Shelf→Prop}:
 Calls env (badPointer a) sys Q F ↔ Q (decide (a=0)) sys:=by
 unfold Calls
 have paging:∀b,handleCaller env (.isMapped b)=pure (pagedirIsMapped env.memory.pd b):=
  fun _=>rfl
 rw[holds_badPointer paging]
 by_cases ha:a=0
 · rw[decide_eq_true ha]
   exact ⟨fun h=>h.1 (.inl ha),fun h=>⟨fun _=>h,fun fine=>absurd (.inl ha) fine⟩⟩
 · rw[decide_eq_false ha]
   have fine:=not_rejected ha line.first
   exact ⟨fun h=>h.2 fine,fun h=>⟨fun bad=>absurd bad fine,fun _=>h⟩⟩

lemma exec_spec (shelved:env.files=shelf)(line:StringAt env.memory n a):
 Calls env (Syscall.exec a) sys (fun v sys'=>
  (v=-1 ∧ Refused env a sys ∧ sys'.child=sys.child) ∨
  (v≠-1 ∧ ¬Refused env a sys ∧ Created env a sys sys')) (fun _=>Refused env a sys):=by
 unfold Calls Syscall.exec
 rw[holds_run_bind]
 refine (calls_badPointer line).2 ?_
 by_cases ha:a=0
 · rw[decide_eq_true ha]
   exact holds_run_stop.2 (.inl ha)
 rw[decide_eq_false ha]
 change Holds (run (handleCaller env) (ask (Ask.byte a) >>= _)) _ _ _
 rw[holds_run_bind]
 refine (holds_byte (m:=env.memory) (fun _=>rfl)).2 ?_
 by_cases empty:env.memory.byte a=0
 · rw[if_pos empty]
   exact holds_run_stop.2 (.inr (.inl ((string_eq_nil line).2 empty)))
 rw[if_neg empty,holds_run_bind]
 refine calls_palloc.2 ⟨fun none=>?_,fun page got=>?_⟩
 · rw[getPage_eq_none] at none
   exact .inl ⟨rfl,.inr (.inr (.inl (by rw[none];decide))),rfl⟩
 have left:=free_taken got
 rw[holds_run_bind]
 refine (calls_copy line ha).2 ?_
 rw[holds_run_bind]
 unfold filesysOpen
 rw[holds_run_ask,handleCaller,holds_onFiles,shelved]
 cases first:strtok (commandCopy env a) with
 | none=>exact .inr (.inr (.inr (by rw[first];nofun)))
 | some name=>
  refine holds_shelfOpen.2 ⟨fun missing=>?_,fun c found=>?_⟩
  · refine .inl ⟨rfl,.inr (.inr (.inr ?_)),rfl⟩
    intro name' first'
    rw[first] at first'
    obtain rfl:=some.inj first'
    exact missing
  · rw[holds_run_bind]
    refine (holds_run_locked rfl rfl).2 (Holds.mono (processExecute_spec line ha first) ?_ nofun)
    rintro tid after (⟨rfl,few,child⟩|⟨rfl,enough,spawned⟩)
    · refine .inl ⟨rfl,.inr (.inr (.inl ?_)),child⟩
      dsimp only at few
      omega
    · refine .inr ⟨?_,?_,spawned.child,spawned.outcome,name,first,?_⟩
      · simp[pidOf]
      · dsimp only at enough found
        rintro (zero|nothing|few|missing)
        · exact ha zero
        · exact empty ((string_eq_nil line).1 nothing)
        · omega
        · rw[missing name first] at found
          cases found
      · rw[spawned.startable]
        exact served_iff first got rfl rfl

def lockAsks:List Kind:=[.lockAcquire,.lockRelease]
def Settling {α:Type}(p:Proc α)(Q:α→Bool→Prop)(spawned:Bool):Prop:=
 Obeys (fun spawned q=>spawned=true → kind q∈lockAsks)
  (fun spawned q _=>spawned || decide (kind q=.spawn)) p Q spawned

variable {α:Type}{p:Proc α}{Q:α→Bool→Prop}{ks:List Kind}

lemma settling_only (h:Only ks p)(without:Kind.spawn∉ks)(post:∀x,Q x false):Settling p Q false:=by
 refine Avoids.obeys h (fun q hq=>⟨nofun,fun _=>?_⟩) post
 have mem:kind q∈ks:=by simpa using hq
 have other:kind q≠.spawn:=fun same=>without (same▸mem)
 simp[other]

lemma settling_threadCreate (name:Option (List UInt8))(input:List UInt8):
 Settling (threadCreate name input) (fun tid spawned=>spawned=tid.isSome) false:=by
 refine ⟨nofun,fun page=>?_⟩
 rcases page with _|page
 · exact rfl
 · cases name with
   | none=>exact obeys_stop.2 nofun
   | some name=>exact ⟨nofun,fun tid=>rfl⟩

lemma settling_processExecute (a:Addr):Settling (processExecute a) (fun _ _=>True) false:=by
 have copied:∀ {f:List UInt8→Proc (Option ℕ)} {Q:Option ℕ→Bool→Prop},
   (∀l,Settling (f l) Q false) → Settling (strlcpy a pgSize >>= f) Q false:=by
  intro f Q rest
  exact obeys_bind.2 (settling_only (only_strlcpy a _) (by decide) rest)
 refine ⟨nofun,fun one=>?_⟩
 rcases one with _|one
 · trivial
 refine ⟨nofun,fun two=>?_⟩
 rcases two with _|two
 · trivial
 refine copied fun copy=>copied fun copy2=>?_
 refine obeys_bind.2 ((settling_threadCreate _ _).mono ?_)
 intro tid spawned same
 cases tid with
 | none=>
  obtain rfl:spawned=false:=same
  exact ⟨nofun,fun _=>trivial⟩
 | some tid=>trivial

lemma settling_locked (a:Addr):Settling (locked (processExecute a)) (fun _ _=>True) false:=by
 refine ⟨nofun,fun _=>?_⟩
 refine (obeys_bind (p:=processExecute a)).2
  ((settling_processExecute a).mono fun tid spawned _=>?_)
 exact ⟨fun _=>by decide,fun _=>trivial⟩

lemma settling_exec (a:Addr):Settling (Syscall.exec a) (fun _ _=>True) false:=by
 refine obeys_bind.2 (settling_only (only_badPointer a) (by decide) fun bad=>?_)
 cases bad with
 | true=>exact obeys_stop.2 nofun
 | false=>
  refine ⟨nofun,fun first=>?_⟩
  change Settling (if first=0 then _ else _) _ false
  split
  · exact obeys_stop.2 nofun
  · refine ⟨nofun,fun page=>?_⟩
    rcases page with _|page
    · trivial
    refine (obeys_bind (p:=strlcpy a pgSize)).2
     (settling_only (only_strlcpy a _) (by decide) fun copy=>?_)
    refine ⟨nofun,fun file=>?_⟩
    rcases file with _|file
    · trivial
    exact (obeys_bind (p:=locked (processExecute a))).2 (settling_locked a)

end

section
variable {env:Env Shelf}{r:ℤ}{sys:Sys Shelf}{α:Type}{p:Proc α}

/-- What the loader asks for: only the answers to other asks depend on `r`. -/
def loaderAsks:List Kind:=.exit::loading

lemma handleChild_eq {q:Ask}(loads:kind q∈loaderAsks):handleChild env r q=handleChild env 0 q:=by
 cases q with
 | spawn page name input=>exact absurd loads (by change Kind.spawn∉_;decide)
 | processWait pid=>exact absurd loads (by change Kind.processWait∉_;decide)
 | _=>rfl

lemma holds_handleChild {q:Ask}{child:Child}{Q:q.Answer → Sys Shelf → Prop}{F:Stop→Prop}:
 Holds (handleChild env r q) {sys with child} Q F ↔
  Holds (handleChild env r q) sys (fun x t=>Q x {t with child}) F:=by
 cases q with
 | palloc user=>rw[handleChild,holds_pallocPage,holds_pallocPage]
 | filesys c=>
  rw[handleChild,holds_bind,holds_get,holds_bind,holds_get,holds_onFiles,holds_onFiles]
 | seek f pos | tell f=>rw[handleChild,holds_onFiles,holds_onFiles]
 | store a bytes=>
  rw[handleChild,holds_bind,holds_get,holds_bind,holds_get]
  split_ifs<;>rfl
 | _=>rfl

lemma loads_child {child:Child}{Q:α→Sys Shelf→Prop}{F:Stop→Prop}:
 Loads env r p {sys with child} Q F ↔ Loads env r p sys (fun x t=>Q x {t with child}) F:=by
 induction p generalizing sys with
 | ret x=>rfl
 | ask q k ih=>
  change Holds (handleChild env r q >>= _) _ _ _ ↔ Holds (handleChild env r q >>= _) _ _ _
  rw[holds_bind,holds_bind,holds_handleChild]
  exact ⟨fun h=>h.imp fun x t=>(ih x).1,fun h=>h.imp fun x t=>(ih x).2⟩

lemma handleChild_outcome (q:Ask):
 Holds (handleChild env r q) sys (fun _ t=>t.outcome=sys.outcome) AnyFault:=by
 have files:∀ {β:Type} (m:Exec Cache.Fault Shelf β),Holds (onFiles m) sys
   (fun _ t=>t.outcome=sys.outcome) AnyFault:=fun m=>
  holds_onFiles.2 ((holds_trivial m _).imp fun _ _ _=>rfl)
 cases q with
 | palloc user=>exact holds_pallocPage.2 ⟨fun _=>rfl,fun _ _=>rfl⟩
 | filesys c | seek f pos | tell f=>exact files _
 | store a bytes=>
  refine holds_bind.2 (holds_get.2 ?_)
  split
  · exact rfl
  · trivial
 | exit | powerOff | assertion | nullPointer | overflow | hang=>trivial
 | _=>exact rfl

end
variable {env:Env Shelf}{s u:State Shelf}{p:Proc (ℕ×Addr)}{sys:Sys Shelf}
 {Q:ℤ→Sys Shelf→Prop}{a:Addr}{r:ℤ}{q:Ask}

def Stuck (env:Env Shelf)(s:State Shelf):Prop:=
 (∃p,s.sys.child=.starting p) ∧ ∀r,nextChild env r s.sys=none

/-- If `exec` has returned a process, `load` has not failed. -/
def Reports (env:Env Shelf)(s:State Shelf):Prop:=
 ∀v,s.caller=.ret v → v≠-1 → s.sys.outcome≠some false ∧ ¬Stuck env s

lemma nextChild_starting (r:ℤ)(at_:sys.child=.starting p):
 nextChild env r sys=stepChild env r sys .starting (fun s=>{s with child:=.user,outcome:=some true})
  (fun s=>{s.exits with outcome:=some false}) p:=by
 rw[nextChild,at_]

lemma child_fails (only:Only loaderAsks p)(at_:s.sys.child=.starting p)
 (fails:Loads env 0 p s.sys (fun _ _=>False) AnyFault):
 ∃acts u,Runs (next env) (fun _ _=>True) s acts u ∧ u.caller=s.caller ∧
  (u.sys.outcome=some false ∨ Stuck env u):=by
 induction p generalizing s with
 | ret x=>exact fails.elim
 | ask q k ih=>
  have loads:kind q∈loaderAsks:=by simpa using only.1
  change Holds (handleChild env 0 q >>= _) _ _ _ at fails
  rw[holds_bind] at fails
  cases answer:(handleChild env 0 q).run s.sys with
  | ok x=>
   rw[holds_of_ok answer] at fails
   have step:next env s (.child 0)=some {s with sys:={x.2 with child:=.starting (k x.1)}}:=by
    simp only[next,nextChild_starting 0 at_,stepChild,answer,map_some]
   have rest:Loads env 0 (k x.1) {x.2 with child:=.starting (k x.1)}
     (fun _ _=>False) AnyFault:=loads_child.2 fails
   obtain ⟨acts,u,run,caller,bad⟩:=
    ih x.1 (s:={s with sys:={x.2 with child:=.starting (k x.1)}}) (only.2 x.1) rfl rest
   exact ⟨_,u,.cons trivial step run,caller,bad⟩
  | error e=>
   cases e with
   | exited status=>
    have step:next env s (.child 0)=some {s with sys:={s.sys.exits with outcome:=some false}}:=by
     simp only[next,nextChild_starting 0 at_,stepChild,answer,map_some]
    exact ⟨_,_,.cons trivial step (.nil _),rfl,.inl rfl⟩
   | panic=>
    refine ⟨[],s,.nil s,rfl,.inr ⟨⟨_,at_⟩,fun r=>?_⟩⟩
    rw[nextChild_starting r at_,stepChild,handleChild_eq loads,answer]

lemma caller_returns {p:Proc ℤ}(h:Calls env p sys Q NoFault):
 ∃acts v sys',Runs (next env) (fun _ _=>True) ⟨p,sys⟩ acts ⟨.ret v,sys'⟩ ∧ Q v sys':=by
 induction p generalizing sys with
 | ret v=>exact ⟨[],v,sys,.nil _,h⟩
 | ask q k ih=>
  change Holds (handleCaller env q >>= _) _ _ _ at h
  rw[holds_bind] at h
  obtain ⟨x,after,answer,rest⟩:=h.returns
  obtain ⟨acts,v,sys',run,post⟩:=ih x rest
  have step:next env ⟨.ask q k,sys⟩ .caller=some ⟨k x,after⟩:=by
   simp only[next,answer]
  exact ⟨_,v,sys',.cons trivial step run,post⟩

lemma unreported (shelved:env.files=shelf)(kernelOnly:KernelOnly env.init){n:ℕ}
 (line:StringAt env.memory n a)(start:s.caller=Syscall.exec a)
 (created:¬Refused env a s.sys)(unserved:¬Served env a s.sys):
 ∃acts u,Runs (next env) (fun _ _=>True) s acts u ∧ ¬Reports env u:=by
 have returns:Calls env (Syscall.exec a) s.sys
   (fun v sys'=>v≠-1 ∧ Created env a s.sys sys') NoFault:=by
  refine (exec_spec shelved line).mono ?_ fun _ refused=>created refused
  rintro v sys' (⟨-,refused,-⟩|⟨process,-,made⟩)
  · exact absurd refused created
  · exact ⟨process,made⟩
 obtain ⟨acts,v,sys',run,process,made⟩:=caller_returns returns
 rw[←start] at run
 have fails:Loads env 0 (startProcess env.init (commandCopy env a)) sys' (fun _ _=>False) AnyFault:=
  (made.loads shelved kernelOnly).mono (fun _ _=>unserved) fun _ _=>trivial
 obtain ⟨more,u,run',caller,bad⟩:=
  child_fails (s:=⟨.ret v,sys'⟩) (only_startProcess _ _) made.child fails
 refine ⟨acts++more,u,run.append run',fun reports=>?_⟩
 obtain ⟨fine,going⟩:=reports v caller process
 exact bad.elim fine going

structure Sound (env:Env Shelf)(sys:Sys Shelf):Prop where
 outcome:sys.outcome≠some false
 loads:∀p,sys.child=.starting p → Only loaderAsks p ∧ Loads env 0 p sys (fun _ _=>True) NoFault

lemma Sound.goes_on (h:Sound env s.sys):¬Stuck env s:=by
 rintro ⟨⟨p,at_⟩,none⟩
 obtain ⟨-,loads⟩:=h.loads p at_
 have none:=none 0
 rw[nextChild_starting 0 at_] at none
 cases p with
 | ret x=>cases none
 | ask q k=>
  change Holds (handleChild env 0 q >>= _) _ _ _ at loads
  rw[holds_bind] at loads
  obtain ⟨x,after,answer,-⟩:=loads.returns
  rw[stepChild,answer] at none
  cases none

lemma outcome_of_answer {after:Sys Shelf}{x:q.Answer}
 (answer:(handleChild env r q).run sys=.ok (x,after)):after.outcome=sys.outcome:=by
 have same:Holds (handleChild env r q) sys _ AnyFault:=handleChild_outcome q
 rwa[holds_of_ok answer] at same

lemma stepChild_sound {α:Type}{p:Proc α}{more:Proc α→Child}
 {done exits:Sys Shelf→Sys Shelf}{sys':Sys Shelf}(h:Sound env sys)
 (loaded:∀q p,more q≠.starting p)(ends:Sound env (done sys))
 (leaves:Sound env (exits sys))(step:stepChild env r sys more done exits p=some sys'):
 Sound env sys':=by
 rcases stepChild_cases step with
  ⟨x,rfl,rfl⟩ | ⟨q,k,rfl,⟨x,after,answer,rfl⟩ | ⟨_,-,rfl⟩⟩
 · exact ends
 · refine ⟨?_,fun p at_=>absurd at_ (loaded _ p)⟩
   rw[outcome_of_answer answer]
   exact h.outcome
 · exact leaves

lemma nextChild_sound {sys':Sys Shelf}(h:Sound env sys)
 (step:nextChild env r sys=some sys'):Sound env sys':=by
 cases at_:sys.child with
 | starting p=>
  obtain ⟨only,loads⟩:=h.loads p at_
  rw[nextChild_starting r at_] at step
  rcases stepChild_cases step with ⟨x,rfl,rfl⟩|⟨q,k,rfl,found⟩
  · exact ⟨nofun,nofun⟩
  change Holds (handleChild env 0 q >>= _) _ _ _ at loads
  rw[holds_bind,←handleChild_eq (r:=r) (by simpa using only.1)] at loads
  rcases found with ⟨x,after,answer,rfl⟩|⟨status,answer,rfl⟩
  · rw[holds_of_ok answer] at loads
    refine ⟨(outcome_of_answer answer).symm▸h.outcome,?_⟩
    rintro _ ⟨⟩
    exact ⟨only.2 x,loads_child.2 loads⟩
  · obtain ⟨x,after,other,-⟩:=loads.returns
    rw[answer] at other
    cases other
 | calling p=>
  simp only[nextChild,at_] at step
  refine stepChild_sound h (fun _ _=>?_) ?_ ?_ step
  · nofun
  · exact ⟨h.outcome,nofun⟩
  · exact ⟨h.outcome,nofun⟩
 | exiting p=>
  simp only[nextChild,at_] at step
  refine stepChild_sound h (fun _ _=>?_) ?_ h step
  · nofun
  · exact ⟨h.outcome,nofun⟩
 | absent | user | gone=>
  simp only[nextChild,at_] at step
  cases step

lemma handleCaller_lock (env:Env Shelf)(lock:kind q∈lockAsks):∃x,handleCaller env q=pure x:=by
 cases q with
 | lockAcquire | lockRelease=>exact ⟨(),rfl⟩
 | _=>exact absurd lock (by simp[kind,lockAsks])

lemma settled {p:Proc ℤ}{F:Stop→Prop}(h:Settling p (fun _ _=>True) true)
 (calls:Calls env p sys Q F):∃v,Q v sys:=by
 induction p with
 | ret v=>exact ⟨v,calls⟩
 | ask q k ih=>
  obtain ⟨x,answer⟩:=handleCaller_lock env (h.1 rfl)
  change Holds (handleCaller env q >>= _) _ _ _ at calls
  rw[holds_bind,answer,holds_pure] at calls
  exact ih x (h.2 x) calls

lemma handleCaller_child (other:kind q≠.spawn):
 Holds (handleCaller env q) sys (fun _ t=>t.child=sys.child) AnyFault:=by
 cases q with
 | palloc user=>exact holds_pallocPage.2 ⟨fun _=>rfl,fun _ _=>rfl⟩
 | filesys c=>exact holds_onFiles.2 ((holds_trivial _ _).imp fun _ _ _=>rfl)
 | spawn page name input=>exact absurd rfl other
 | byte a | isMapped a | pallocFree p | lockAcquire | lockRelease=>exact rfl
 | _=>trivial

lemma handleCaller_spawn (spawn:kind q=.spawn):
 Holds (handleCaller env q) sys (fun _ t=>t.child≠.absent) AnyFault:=by
 cases q with
 | spawn page name input=>exact nofun
 | _=>exact absurd spawn (by simp[kind])

structure Waiting (env:Env Shelf)(a:Addr)(start:Sys Shelf)(s:State Shelf):Prop where
 child:s.sys.child=.absent
 settling:Settling s.caller (fun _ _=>True) false
 calls:Calls env s.caller s.sys (fun v sys'=>
   (v=-1 ∧ Refused env a start ∧ sys'.child=start.child) ∨
   (v≠-1 ∧ ¬Refused env a start ∧ Created env a start sys')) (fun _=>Refused env a start)

structure Launched (env:Env Shelf)(s:State Shelf):Prop where
 settling:Settling s.caller (fun _ _=>True) true
 sound:Sound env s.sys

section
variable (shelved:env.files=shelf)(kernelOnly:KernelOnly env.init)
include shelved kernelOnly

lemma Created.sound {start:Sys Shelf}(made:Created env a start sys)(fresh:start.outcome=none)
 (served:Served env a start):Sound env sys:=by
 refine ⟨by rw[made.outcome,fresh];nofun,fun p at_=>?_⟩
 rw[made.child] at at_
 cases at_
 refine ⟨only_startProcess _ _,(made.loads shelved kernelOnly).mono ?_ ?_⟩
 · exact fun _ _ _=>trivial
 · exact fun _ unserved=>unserved served

lemma Waiting.caller {start:Sys Shelf}(absent:start.child=.absent)(fresh:start.outcome=none)
 (fine:Refused env a start ∨ Served env a start)(h:Waiting env a start s)
 {k:q.Answer → Proc ℤ}{x:q.Answer}(at_:s.caller=.ask q k)
 (answer:(handleCaller env q).run s.sys=.ok (x,sys)):
 Waiting env a start ⟨k x,sys⟩ ∨ Launched env ⟨k x,sys⟩:=by
 have settling:=h.settling
 have calls:=h.calls
 rw[at_] at settling calls
 have settling:=settling.2 x
 change Holds (handleCaller env q >>= _) _ _ _ at calls
 rw[holds_bind,holds_of_ok answer] at calls
 by_cases spawn:kind q=.spawn
 · simp only[spawn,decide_true] at settling
   refine .inr ⟨settling,?_⟩
   obtain ⟨v,⟨-,-,same⟩|⟨-,created,made⟩⟩:=settled settling calls
   · have started:Holds (handleCaller env q) s.sys _ AnyFault:=handleCaller_spawn spawn
     rw[holds_of_ok answer] at started
     exact absurd (same.trans absent) started
   · exact made.sound shelved kernelOnly fresh (fine.resolve_left created)
 · simp only[spawn,decide_false] at settling
   have same:Holds (handleCaller env q) s.sys _ AnyFault:=handleCaller_child spawn
   rw[holds_of_ok answer] at same
   exact .inl ⟨same.trans h.child,settling,calls⟩

lemma next_underway {start:Sys Shelf}(absent:start.child=.absent)(fresh:start.outcome=none)
 (fine:Refused env a start ∨ Served env a start){act:Act}
 (h:Waiting env a start s ∨ Launched env s)(step:next env s act=some u):
 Waiting env a start u ∨ Launched env u:=by
 rcases h with waiting|launched
 · rcases next_cases step with ⟨q,k,x,sys,at_,answer,rfl⟩|⟨r,sys,moved,rfl⟩|⟨at_,-⟩
   · exact waiting.caller shelved kernelOnly absent fresh fine at_ answer
   · simp only[nextChild,waiting.child] at moved
     cases moved
   · rw[waiting.child] at at_
     cases at_
 · refine .inr ?_
   rcases next_cases step with ⟨q,k,x,sys,at_,answer,rfl⟩|⟨r,sys,moved,rfl⟩ |
    ⟨-,bytes,child,enters,rfl⟩
   · have settling:=launched.settling
     rw[at_] at settling
     obtain ⟨y,lock⟩:=handleCaller_lock env (settling.1 rfl)
     rw[lock] at answer
     cases answer
     exact ⟨settling.2 x,launched.sound⟩
   · exact ⟨launched.settling,nextChild_sound launched.sound moved⟩
   · refine ⟨launched.settling,launched.sound.outcome,?_⟩
     cases enters<;>nofun

end

/-- `exec` reports what becomes of `load` just when it creates no process, or one that can be
loaded. -/
theorem exec_reports_iff (shelved:env.files=shelf)(kernelOnly:KernelOnly env.init){a:Addr}
 {n:ℕ}(line:StringAt env.memory n a){s₀:State Shelf}(start:Started a s₀):
 (∀acts s,Runs (next env) (fun _ _=>True) s₀ acts s → Reports env s) ↔
  Refused env a s₀.sys ∨ Served env a s₀.sys:=by
 constructor
 · intro reports
   by_contra neither
   obtain ⟨created,unserved⟩:=not_or.1 neither
   obtain ⟨acts,u,run,bad⟩:=unreported shelved kernelOnly line start.caller created unserved
   exact bad (reports acts u run)
 · intro fine acts s run
   have underway:Waiting env a s₀.sys s ∨ Launched env s:=by
    refine run.invariant (fun s act u h _ step=>
     next_underway shelved kernelOnly start.child start.outcome fine h step) (.inl ?_)
    exact ⟨start.child,start.caller▸settling_exec a,start.caller▸exec_spec shelved line⟩
   rintro v returned process
   rcases underway with waiting|launched
   · have calls:=waiting.calls
     rw[returned] at calls
     rcases calls with ⟨refused,-⟩|⟨-,-,made⟩
     · exact absurd refused process
     · have child:=made.child
       rw[waiting.child] at child
       cases child
   · exact ⟨launched.sound.outcome,launched.sound.goes_on⟩

def shelfEnv:Env Shelf:=⟨shelf,⟨0,fun _=>none⟩,commandLine,4⟩
def calledFor (c:Content):State Shelf where
 caller:=Syscall.exec 0xbffffff0
 sys:=⟨pools false,⟨fun _ _=>some c,0,fun _=>c,fun _=>0⟩,.absent,none,0,none,fun _=>none,fun _=>0⟩
def smallest:Content where
 bytes:=[0x7f,0x45,0x4c,0x46,1,1,1]++replicate 9 0++[2,0,3,0,1,0,0,0] ++
  replicate 18 0++[32,0]++replicate 8 0
 short:=by decide

lemma loadable_smallest:Loadable smallest 4 4 [97]:=by
 have segments:segments smallest=[]:=by decide
 have pushed:argBytes [97]=22:=by decide
 refine ⟨⟨by decide,by unfold Ehdr.Valid;decide,.inl (by decide),?_⟩,?_,.inr ?_⟩
 · have none:smallest.phdrs=[]:=by decide
   rw[none]
   nofun
 · exact room_nil 4 4
 · rw[segments]
   refine ⟨(room_nil 3 4).snoc_iff.2 ⟨by decide,nofun,.inr (by decide)⟩,by decide,?_⟩
   intro n inside low
   unfold userLimit pgSize at low
   unfold userLimit at inside
   obtain rfl:n=786431:=by omega
   exact mem_singleton.2 rfl

theorem exec_reports_smallest:Served shelfEnv 0xbffffff0 (calledFor smallest).sys ∧
 ∀acts s,Runs (next shelfEnv) (fun _ _=>True) (calledFor smallest) acts s → Reports shelfEnv s:=by
 have line:StringAt commandLine 1 0xbffffff0:=⟨by decide,by decide,by decide,by decide⟩
 have copy:commandCopy shelfEnv 0xbffffff0=[97]:=by decide +kernel
 have served:Served shelfEnv 0xbffffff0 (calledFor smallest).sys:=by
  refine ⟨[97],smallest,by rw[copy];decide,rfl,by decide,?_⟩
  rw[copy]
  exact loadable_smallest
 exact ⟨served,(exec_reports_iff rfl (fun _ _=>rfl) line ⟨rfl,rfl,rfl⟩).2 (.inr served)⟩

def returned (s:State Shelf):Option ℤ:=
 match s.caller with
 | .ret v=>some v
 | .ask ..=>none

/-- The file is empty. `exec` returns the new process, and then it is not loaded. -/
theorem load_failure_unreported:∃acts s,
 Runs (next shelfEnv) (fun _ _=>True) (calledFor ⟨[],by decide⟩) acts s ∧
 s.caller=.ret 4 ∧ s.sys.outcome=some false ∧ ¬Reports shelfEnv s:=by
 have found:(ExecRuns.exec (next shelfEnv) (fun _ _=>True) (calledFor ⟨[],by decide⟩)
   (replicate 19 .caller++replicate 20 (.child 0))).any (fun s=>
    returned s=some 4 ∧ s.sys.outcome=some false)=true:=by
  decide +kernel
 obtain ⟨s,run,facts⟩:=exec_any found
 obtain ⟨back,failed⟩:=of_decide_eq_true facts
 have at_:s.caller=.ret 4:=by
  unfold returned at back
  split at back
  · rename_i v at_
    rw[at_,some.inj back]
  · cases back
 exact ⟨_,s,run,at_,failed,fun reports=>(reports 4 at_ (by decide)).1 failed⟩

end Pintos.Spawning
