import Pintos.Cache
import Pintos.ExecRuns
import Pintos.PagePools
import Pintos.Syscall

/-!
# A process that calls `exec`, and the process that it starts

The two are interleaved at everything they ask for. The page pools are as in `palloc.c`,
and `Files` stands for the file system. Locks are left out: they only keep some of the
interleavings from happening.
-/
namespace Pintos.Spawning
open ExecHoare ExecRuns Interaction Paging PagePools Process Syscall ByteWords Option
open Cache (Fault)

/-- A file system with states in `φ`. The memory is that of the process that calls. -/
structure Files (φ:Type) where
 call:Memory → (c:FsCall) → Exec Fault φ c.Answer
 seek:ℕ→ℤ→Exec Fault φ Unit
 tell:ℕ→Exec Fault φ ℤ

/-- What the new process does: it is not there yet, is being loaded, runs user code, is in
a system call or a page fault, exits, or has been freed. -/
inductive Child where
 | absent
 | starting (p:Proc (ℕ×Addr))
 | user
 | calling (p:Proc Unit)
 | exiting (p:Proc Unit)
 | gone

/-- All but the `page` of the `struct thread` and the pools is that of the new process;
`outcome` is the result of `load`. -/
structure Sys (φ:Type) where
 pools:Pools
 files:φ
 child:Child
 outcome:Option Bool
 page:ℕ
 pd:Option PageDir
 fds:ℕ→Option ℕ
 bytes:Addr→UInt8

/-- Why code does not get an answer: its process exits, or the kernel panics. -/
inductive Stop where
 | exited (status:Option ℤ)
 | panic
 deriving DecidableEq,Repr

structure Env (φ:Type) where
 files:Files φ
 init:PageDir
 /-- The memory of the caller. -/
 memory:Memory
 tid:ℕ

section
variable {φ:Type}{α:Type}

abbrev Kernel (φ:Type):=Exec Stop (Sys φ)
def onFiles (m:Exec Fault φ α):Kernel φ α:=fun s=>
 match m.run s.files with
 | .ok (a,files)=>.ok (a,{s with files})
 | .error _=>.error .panic

def pallocPage (user:Bool):Kernel φ (Option ℕ):=do
 let s←get
 match s.pools.getPage user with
 | none=>return none
 | some p=>
  set {s with pools:=s.pools.mark p true}
  return some p

def freePage (p:ℕ):Kernel φ Unit:=modify fun s=>{s with pools:=s.pools.mark p false}

variable (env:Env φ)

def handleCaller:(q:Ask) → Kernel φ q.Answer
 | .byte a=>pure (env.memory.byte a)
 | .isMapped a=>pure (pagedirIsMapped env.memory.pd a)
 | .palloc user=>pallocPage user
 | .pallocFree p=>freePage p
 | .filesys c=>onFiles (env.files.call env.memory c)
 | .spawn page _ input=>do
  modify fun s=>{s with
   child:=.starting (startProcess env.init input)
   page:=page
   pd:=none
   fds:=fun _=>none}
  return env.tid
 | .lockAcquire | .lockRelease=>pure ()
 | .exit status=>throw (.exited status)
 | _=>throw .panic

def wordOf (bytes:Addr→UInt8)(a:Addr):UInt32:=
 UInt32.ofNat (word (bytes a) (bytes (a+1)) (bytes (a+2)) (bytes (a+3)))

/-- The bytes are stored with the rights that the page directory gives. -/
def storable (pd:Option PageDir)(a:Addr)(n:ℕ):Prop:=
 ∃d,pd=some d ∧ ∀i<n,Writable d (a+UInt32.ofNat i)

instance (pd:Option PageDir)(a:Addr)(n:ℕ):Decidable (storable pd a n):=
 match pd with
 | none=>.isFalse fun ⟨_,h,_⟩=>nomatch h
 | some d=>decidable_of_iff (∀i<n,Writable d (a+UInt32.ofNat i))
   ⟨fun h=>⟨d,rfl,h⟩,fun ⟨_,hd,h⟩=>some.inj hd▸h⟩

/-- The new process; `r` is what `wait` returns to it, and the number of a process that it
starts in its turn and that is not followed. -/
def handleChild (r:ℤ):(q:Ask) → Kernel φ q.Answer
 | .word a=>do return wordOf (← get).bytes a
 | .byte a=>do return (← get).bytes a
 | .store a bytes=>do
  let s←get
  if storable s.pd a bytes.length then return () else throw .panic
 | .isMapped a=>do
  let s←get
  return s.pd.any (fun pd=>pagedirIsMapped pd a)
 | .fd i=>do
  let s←get
  return s.fds i
 | .setFd i file=>modify fun s=>{s with fds:=Function.update s.fds i file}
 | .filesys c=>do
  let s←get
  onFiles (env.files.call ⟨s.pd.getD env.init,s.bytes⟩ c)
 | .seek f pos=>onFiles (env.files.seek f pos)
 | .tell f=>onFiles (env.files.tell f)
 | .palloc user=>pallocPage user
 | .pallocFree p=>freePage p
 | .pagedir=>do
  let s←get
  return s.pd
 | .setPagedir pd=>modify fun s=>{s with pd}
 | .spawn ..=>pure r.toNat
 | .processWait _=>pure r
 | .putbuf .. | .fill .. | .lockAcquire | .lockRelease=>pure ()
 | .exit status=>throw (.exited status)
 | _=>throw .panic

structure State (φ:Type) where
 caller:Proc ℤ
 sys:Sys φ

inductive Act where
 | caller
 | child (r:ℤ)
 | call (bytes:Addr→UInt8) (esp:Addr)
 | fault (faultAddr:Addr) (notPresent write:Bool)
 | kill

def handler (esp:Addr):Proc Unit:=do
 let _←syscallHandler esp
 return ()

def stepChild (r:ℤ)(s:Sys φ)(more:Proc α→Child)(done exits:Sys φ→Sys φ):Proc α→Option (Sys φ)
 | .ret _=>some (done s)
 | .ask q k=>
  match (handleChild env r q).run s with
  | .ok (x,s)=>some {s with child:=more (k x)}
  | .error (.exited _)=>some (exits s)
  | .error .panic=>none

def Sys.exits (s:Sys φ):Sys φ:={s with child:=.exiting processExit}

def nextChild (r:ℤ)(s:Sys φ):Option (Sys φ):=
 match s.child with
 | .starting p=>
  stepChild env r s .starting (fun s=>{s with child:=.user,outcome:=some true})
   (fun s=>{s.exits with outcome:=some false}) p
 | .calling p=>stepChild env r s .calling (fun s=>{s with child:=.user}) Sys.exits p
 | .exiting p=>
  stepChild env r s .exiting (fun s=>{s with child:=.gone,pools:=s.pools.mark s.page false}) id p
 | _=>none

def next (s:State φ):Act→Option (State φ)
 | .caller=>
  match s.caller with
  | .ret _=>none
  | .ask q k=>
   match (handleCaller env q).run s.sys with
   | .ok (x,sys)=>some ⟨k x,sys⟩
   | .error _=>none
 | .child r=>(nextChild env r s.sys).map fun sys=>{s with sys}
 | .call bytes esp=>
  match s.sys.child with
  | .user=>some {s with sys:={s.sys with bytes,child:=.calling (handler esp)}}
  | _=>none
 | .fault a notPresent write=>
  match s.sys.child with
  | .user=>
   some {s with sys:={s.sys with child:=.calling (pageFault a notPresent write)}}
  | _=>none
 | .kill=>
  match s.sys.child with
  | .user=>some {s with sys:=s.sys.exits}
  | _=>none

structure Started (a:Addr)(s:State φ):Prop where
 caller:s.caller=exec a
 child:s.sys.child=.absent
 outcome:s.sys.outcome=none

end

variable {φ:Type}{sys:Sys φ}

lemma holds_pallocPage {user:Bool}{Q:Option ℕ→Sys φ→Prop}{F:Stop→Prop}:
 Holds (pallocPage user) sys Q F ↔ (sys.pools.getPage user=none → Q none sys) ∧
  ∀page,sys.pools.getPage user=some page →
   Q (some page) {sys with pools:=sys.pools.mark page true}:=by
 unfold pallocPage
 rw[holds_bind,holds_get]
 cases sys.pools.getPage user with
 | none=>simp
 | some page=>
  constructor
  · intro h
    exact ⟨nofun,by rintro _ ⟨⟩;exact h⟩
  · exact fun h=>h.2 page rfl

lemma holds_onFiles {α:Type}{m:Exec Fault φ α}{Q:α→Sys φ→Prop}{F:Stop→Prop}:
 Holds (onFiles m) sys Q F ↔
  Holds m sys.files (fun a files=>Q a {sys with files}) (fun _=>F .panic):=by
 unfold Holds onFiles StateT.run
 cases h:m sys.files<;>simp only[h]

variable {env:Env φ}{s u:State φ}

lemma stepChild_cases {α:Type}{r:ℤ}{more:Proc α→Child}{done exits:Sys φ→Sys φ}
 {p:Proc α}{sys':Sys φ}(step:stepChild env r sys more done exits p=some sys'):
 (∃x,p=.ret x ∧ sys'=done sys) ∨
 ∃q k,p=.ask q k ∧ ((∃x after,(handleChild env r q).run sys=.ok (x,after) ∧
    sys'={after with child:=more (k x)}) ∨
   ∃status,(handleChild env r q).run sys=.error (.exited status) ∧ sys'=exits sys):=by
 cases p with
 | ret x=>exact .inl ⟨x,rfl,(some.inj step).symm⟩
 | ask q k=>
  refine .inr ⟨q,k,rfl,?_⟩
  rw[stepChild] at step
  cases answer:(handleChild env r q).run sys with
  | ok x=>
   rw[answer] at step
   exact .inl ⟨x.1,x.2,rfl,(some.inj step).symm⟩
  | error e=>
   rw[answer] at step
   cases e with
   | exited status=>exact .inr ⟨status,rfl,(some.inj step).symm⟩
   | panic=>cases step

inductive Enters:Child→Prop where
 | call (esp:Addr):Enters (.calling (handler esp))
 | fault (a:Addr) (notPresent write:Bool):Enters (.calling (pageFault a notPresent write))
 | kill:Enters (.exiting processExit)

/-- A step is one of the caller, one of the new process in the kernel, or brings the new
process back into the kernel. -/
lemma next_cases {act:Act}(step:next env s act=some u):
 (∃q k x sys,s.caller=.ask q k ∧ (handleCaller env q).run s.sys=.ok (x,sys) ∧ u=⟨k x,sys⟩) ∨
 (∃r sys,nextChild env r s.sys=some sys ∧ u={s with sys}) ∨
 (s.sys.child=.user ∧ ∃bytes child,Enters child ∧ u={s with sys:={s.sys with bytes,child}}):=by
 unfold next at step
 cases act with
 | caller=>
  refine .inl ?_
  cases at_:s.caller with
  | ret v=>simp only[at_] at step;cases step
  | ask q k=>
   simp only[at_] at step
   cases answer:(handleCaller env q).run s.sys with
   | ok x=>
    rw[answer] at step
    exact ⟨q,k,x.1,x.2,rfl,answer,(some.inj step).symm⟩
   | error e=>rw[answer] at step;cases step
 | child r=>
  obtain ⟨sys,there,rfl⟩:=map_eq_some_iff.1 step
  exact .inr (.inl ⟨r,sys,there,rfl⟩)
 | call bytes esp=>
  cases at_:s.sys.child<;>simp only[at_] at step<;>cases step
  exact .inr (.inr ⟨rfl,bytes,_,.call esp,rfl⟩)
 | fault a notPresent write=>
  cases at_:s.sys.child<;>simp only[at_] at step<;>cases step
  exact .inr (.inr ⟨rfl,s.sys.bytes,_,.fault a notPresent write,rfl⟩)
 | kill=>
  cases at_:s.sys.child<;>simp only[at_] at step<;>cases step
  exact .inr (.inr ⟨rfl,s.sys.bytes,_,.kill,rfl⟩)

def pools (used:Bool):Pools where
 kernel:=List.range 10
 user:=List.range' 10 4
 used _:=used
 distinct:=by decide

def commandLine:Memory:=⟨stackPage,fun a=>if a=0xbffffff0 then 97 else 0⟩

end Pintos.Spawning
