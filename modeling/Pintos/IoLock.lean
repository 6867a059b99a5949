import Pintos.AskKinds
import Pintos.ExecRuns

/-!
# `io_lock`

The processes as threads that are interleaved at everything they ask for. A call to
the file system takes two steps, one into it and one out of it, and between them the
other threads may run.
-/
namespace Pintos.IoLock
open ExecRuns Interaction Paging Process Syscall AskKinds Function List Option

/-- What a thread is in the kernel for: a system call with its number, the start of a
process, or its end. -/
inductive Origin where
 | call (number:ℕ)
 | start
 | exit
 deriving DecidableEq,Repr

inductive Task where
 | absent
 | user
 | running (o:Origin) (p:Proc Unit)
 | inside (o:Origin) (c:FsCall) (k:c.Answer → Proc Unit)
 | dead

structure Kernel where
 tasks:ℕ→Task
 holder:Option ℕ
 nextTid:ℕ
 time:ℕ

/-- What the rest of the kernel answers at a time; none is a panic. -/
structure Env where
 init:PageDir
 answer:ℕ → (q:Ask) → Option q.Answer

inductive Act where
 | call (p:ℕ) (esp:Addr) (number:ℕ)
 | kill (p:ℕ)
 | step (p:ℕ)
 deriving DecidableEq,Repr

section
variable (env:Env)

def Kernel.put (s:Kernel)(p:ℕ)(task:Task):Kernel:=
 {s with tasks:=update s.tasks p task,time:=s.time+1}

/-- `syscall_handler`, where `number` is what it finds on the stack. -/
def handler (esp:Addr)(number:ℕ):Proc Unit:=do
 if←badPointer esp then Syscall.exit (-1)
 else
  let _←loadWord esp
  let _←dispatch esp number
  return ()

def starting (input:List UInt8):Proc Unit:=do
 let _←startProcess env.init input
 return ()
def Origin.finished:Origin→Task
 | .exit=>.dead
 | _=>.user

def carryOut (s:Kernel)(p:ℕ)(o:Origin):(q:Ask) → (q.Answer → Proc Unit) → Option Kernel
 | .filesys c,k=>some (s.put p (.inside o c k))
 | .lockAcquire,k=>
  if s.holder=none then some {s.put p (.running o (k ())) with holder:=some p} else none
 | .lockRelease,k=>
  if s.holder=some p then some {s.put p (.running o (k ())) with holder:=none} else none
 | .exit _,_=>some (s.put p (.running .exit processExit))
 | .spawn _ _ input,k=>
  some { (s.put p (.running o (k s.nextTid))).put s.nextTid (.running .start (starting env input))
   with nextTid:=s.nextTid+1}
 | q,k=>(env.answer s.time q).map fun r=>s.put p (.running o (k r))

def next (s:Kernel):Act→Option Kernel
 | .call p esp number=>
  match s.tasks p with
  | .user=>some (s.put p (.running (.call number) (handler esp number)))
  | _=>none
 | .kill p=>
  match s.tasks p with
  | .user=>some (s.put p (.running .exit processExit))
  | _=>none
 | .step p=>
  match s.tasks p with
  | .running o (.ret _)=>some (s.put p o.finished)
  | .running o (.ask q k)=>carryOut env s p o q k
  | .inside o c k=>
   (env.answer s.time (.filesys c)).map fun r=>s.put p (.running o (k r))
  | _=>none

/-- The lock is free, and every process is about to be started or runs user code. -/
structure Quiescent (s:Kernel):Prop where
 free:s.holder=none
 tasks:∀p,s.tasks p=.absent ∨ s.tasks p=.user ∨
  ∃input,s.tasks p=.running .start (starting env input)
 unused:∀p,s.nextTid≤p → s.tasks p=.absent

end

def Task.isInside:Task→Bool
 | .inside ..=>true
 | _=>false
def Exclusive (s:Kernel):Prop:=
 (∀p,(s.tasks p).isInside=true → s.holder=some p) ∧
  ∀p q,(s.tasks p).isInside=true → (s.tasks q).isInside=true → p=q

/-- `halt`, `exec`, `filesize`, the loader and `process_exit` call the file system without
taking the lock. -/
def underLock:Origin→Bool
 | .call 0 | .call 2 | .call 7=>false
 | .call _=>true
 | .start | .exit=>false

/-- The thread is about to call the file system from one of these. -/
def Task.entersUnlocked:Task→Bool
 | .running o (.ask (.filesys _) _)=>!underLock o
 | _=>false

/-- The step does not take a thread into the file system like that. -/
def Orderly (s:Kernel):Act→Prop
 | .step p=>(s.tasks p).entersUnlocked=false
 | _=>True

instance (s:Kernel)(a:Act):Decidable (Orderly s a):=
 match a with
 | .call .. | .kill _=>.isTrue trivial
 | .step _=>inferInstanceAs (Decidable (_=false))

section
variable {o:Origin}{α:Type}{ks:List Kind}{ph:Bool}{p:Proc α}{Q:α→Bool→Prop}{f:Option ℕ→Proc α}

/-- What code may ask for, where `ph` tells whether it holds the lock. -/
def allowed (o:Origin)(ph:Bool):Ask→Prop
 | .filesys _=>ph=underLock o
 | .lockAcquire=>ph=false
 | .lockRelease=>ph=true
 | .exit _=>ph=false
 | _=>True

def after (ph:Bool):(q:Ask) → q.Answer → Bool
 | .lockAcquire,_=>true
 | .lockRelease,_=>false
 | _,_=>ph

/-- The code keeps to the discipline, and returns without the lock. -/
def Tidy (o:Origin)(p:Proc α)(ph:Bool):Prop:=Obeys (allowed o) after p (fun _ ph=>ph=false) ph

lemma obeys_only (h:Only ks p)(locks:Kind.lockAcquire∉ks ∧ Kind.lockRelease∉ks)
 (exits:Kind.exit∈ks → ph=false)(files:Kind.filesys∈ks → ph=underLock o)
 (post:∀a,Q a ph):Obeys (allowed o) after p Q ph:=by
 refine Avoids.obeys h (fun q hq=>?_) post
 have hk:kind q∈ks:=by simpa using hq
 cases q with
 | filesys c=>exact ⟨files hk,fun _=>rfl⟩
 | lockAcquire=>exact absurd hk locks.1
 | lockRelease=>exact absurd hk locks.2
 | exit status=>exact ⟨exits hk,fun _=>rfl⟩
 | _=>exact ⟨trivial,fun _=>rfl⟩

lemma obeys_quiet (h:Only ks p)
 (quiet:Kind.lockAcquire∉ks ∧ Kind.lockRelease∉ks ∧ Kind.exit∉ks ∧ Kind.filesys∉ks)
 (post:∀a,Q a ph):Obeys (allowed o) after p Q ph:=
 obeys_only h ⟨quiet.1,quiet.2.1⟩ (fun hk=>absurd hk quiet.2.2.1)
  (fun hk=>absurd hk quiet.2.2.2) post

lemma tidy_pure (a:α):Tidy o (pure a:Proc α) false:=rfl
lemma tidy_exit (status:ℤ):Tidy o (Syscall.exit status:Proc α) false:=obeys_stop.2 rfl
lemma tidy_ask {q:Ask}{f:q.Answer → Proc α}(ok:allowed o ph q)
 (h:∀r,Tidy o (f r) (after ph q r)):Tidy o (ask q >>= f) ph:=⟨ok,h⟩

lemma tidy_ite {c:Prop}[Decidable c]{p':Proc α}(h:Tidy o p ph)(h':Tidy o p' ph):
 Tidy o (if c then p else p') ph:=by
 split
 · exact h
 · exact h'

lemma tidy_locked {body:Proc α}(h:Obeys (allowed o) after body (fun _ ph=>ph=true) true):
 Tidy o (locked body) false:=by
 refine obeys_bind.2 ⟨rfl,fun _=>obeys_bind.2 (h.mono fun a ph hph=>?_)⟩
 subst hph
 exact obeys_bind.2 ⟨rfl,fun _=>rfl⟩

lemma tidy_guarded {a:Addr}(h:Tidy o p false):
 Tidy o (do if←badPointer a then Syscall.exit (-1) else p) false:=by
 refine obeys_bind.2 (obeys_quiet (only_badPointer a) (by decide) fun bad=>?_)
 cases bad with
 | true=>exact tidy_exit _
 | false=>exact h

lemma tidy_exec (a:Addr):Tidy (.call 2) (Syscall.exec a) false:=by
 refine tidy_guarded (tidy_ask trivial fun first=>?_)
 split
 · exact tidy_exit _
 refine tidy_ask trivial fun page=>?_
 rcases page with _|page
 · exact tidy_pure _
 refine obeys_bind.2 (obeys_quiet (only_strlcpy a _) (by decide) fun copy=>?_)
 refine tidy_ask rfl fun file=>?_
 rcases file with _|file
 · exact tidy_pure _
 refine obeys_bind.2 ((tidy_locked ?_).mono fun _ _ h=>h)
 exact obeys_quiet (only_processExecute a) (by decide) fun _=>rfl

lemma tidy_locked_only {body:Proc α}(h:Only ks body)
 (no:Kind.lockAcquire∉ks ∧ Kind.lockRelease∉ks ∧ Kind.exit∉ks)
 (lock:underLock o=true):Tidy o (locked body) false:=
 tidy_locked (obeys_only h ⟨no.1,no.2.1⟩ (fun hk=>absurd hk no.2.2) (fun _=>lock.symm)
  fun _=>rfl)

lemma tidy_wait (pid:Addr):Tidy o (wait pid) false:=by
 unfold wait
 split
 · exact tidy_exit _
 refine tidy_ask trivial fun mapped=>?_
 cases mapped with
 | true=>exact tidy_exit _
 | false=>exact ⟨trivial,fun _=>rfl⟩

section
variable (lock:underLock o=true)(a:Addr)
include lock a

lemma tidy_create (size:ℕ):Tidy o (create a size) false:=by
 refine tidy_guarded (tidy_ask trivial fun first=>?_)
 split
 · exact tidy_pure _
 refine obeys_bind.2 (obeys_quiet (only_strlen a) (by decide) fun length=>?_)
 split
 · exact tidy_pure _
 · have files:Only [.filesys] (ask (Ask.filesys (.filesysCreate (.user a) (toInt size)))):=
    only_ask rfl
   exact tidy_locked_only files (by decide) lock

lemma tidy_remove:Tidy o (remove a) false:=by
 have files:Only [.filesys] (ask (Ask.filesys (.filesysRemove (.user a)))):=only_ask rfl
 exact tidy_locked_only files (by decide) lock

lemma tidy_openFrom (slots:List ℕ):Tidy o (openFrom a slots) false:=by
 induction slots with
 | nil=>exact tidy_pure _
 | cons i rest ih=>
  refine tidy_ask trivial fun slot=>tidy_ite ?_ ih
  exact tidy_ask rfl fun _=>tidy_ask lock.symm fun _=>tidy_ask trivial fun _=>
   tidy_ask rfl fun _=>tidy_ask trivial fun _=>tidy_pure _

lemma tidy_openFile:Tidy o (openFile a) false:=by
 unfold openFile
 split
 · exact tidy_pure _
 refine tidy_guarded (tidy_ask trivial fun first=>?_)
 split
 · exact tidy_pure _
 · exact tidy_openFrom lock a _

end

lemma tidy_filesize (fd:ℤ):Tidy (.call 7) (filesize fd) false:=by
 unfold filesize withFd
 split
 · exact tidy_exit _
 · exact tidy_ask trivial fun file=>
    obeys_only (only_fileLength file) (by decide) (fun _=>rfl) (fun _=>rfl) fun _=>rfl

section
variable (lock:underLock o=true)(fd:ℤ)
include lock fd

lemma tidy_onFd (h:∀file,Only (.fd::.setFd::fileAsks) (f file)):
 Tidy o (locked (theFd fd >>= f)) false:=
 tidy_locked_only (only_bind (only_ask rfl) h) (by decide) lock

lemma tidy_lockedFd (h:∀file,Only (.fd::.setFd::fileAsks) (f file)):Tidy o (lockedFd fd f) false:=by
 unfold lockedFd
 split
 · exact tidy_exit _
 · exact tidy_onFd lock fd h

lemma tidy_read (a:Addr)(size:ℕ):Tidy o (Syscall.read fd a size) false:=by
 unfold Syscall.read
 split
 · exact tidy_exit _
 · exact tidy_guarded (tidy_onFd lock fd fun file=>
    only_bind ((only_fileRead file _ _).mono (by decide)) fun _=>only_pure _)

lemma tidy_write (a:Addr)(size:ℕ):Tidy o (write fd a size) false:=by
 unfold write
 split
 · exact tidy_exit _
 refine tidy_guarded ?_
 split
 · exact tidy_ask trivial fun _=>tidy_pure _
 · exact tidy_onFd lock fd fun file=>(only_fileWrite file _ _).mono (by decide)

lemma tidy_close:Tidy o (close fd) false:=
 tidy_lockedFd lock fd fun file=>
  only_bind ((only_fileClose file).mono (by decide)) fun _=>only_ask rfl

end

lemma tidy_returns {f:α→ℤ}{c:Proc α}(h:Tidy o c false):Tidy o (returns f c) false:=
 obeys_bind.2 (h.mono fun _ _ free=>free)
lemma tidy_returnsNothing {c:Proc Unit}(h:Tidy o c false):Tidy o (returnsNothing c) false:=
 obeys_bind.2 (h.mono fun _ _ free=>free)
lemma tidy_arg {a:Addr}{f:UInt32→Proc α}(h:∀x,Tidy o (f x) false):Tidy o (loadWord a >>= f) false:=
 tidy_ask trivial h

lemma tidy_dispatch (esp:Addr)(number:ℕ):Tidy (.call number) (dispatch esp number) false:=by
 obtain _|_|_|_|_|_|_|_|_|_|_|_|_|_|n:=number
 · exact tidy_returns (tidy_ask rfl fun _=>obeys_stop.2 trivial)
 · exact tidy_ite (tidy_arg fun _=>tidy_exit _) (tidy_exit _)
 · exact tidy_ite (tidy_arg fun _=>tidy_returns (tidy_exec _)) (tidy_exit _)
 · exact tidy_arg fun _=>tidy_returns (tidy_wait _)
 · exact tidy_arg fun _=>tidy_arg fun _=>tidy_returns (tidy_create rfl _ _)
 · exact tidy_arg fun _=>tidy_returns (tidy_remove rfl _)
 · exact tidy_arg fun _=>tidy_returns (tidy_openFile rfl _)
 · exact tidy_arg fun _=>tidy_returns (tidy_filesize _)
 · exact tidy_arg fun _=>tidy_arg fun _=>tidy_arg fun _=>tidy_returns (tidy_read rfl _ _ _)
 · exact tidy_ite (tidy_arg fun _=>tidy_arg fun _=>tidy_arg fun _=>
    tidy_returns (tidy_write rfl _ _ _)) (tidy_returns (tidy_write rfl _ _ _))
 · exact tidy_arg fun _=>tidy_arg fun _=>tidy_returnsNothing
    (tidy_lockedFd rfl _ fun file=>(only_fileSeek file _).mono (by decide))
 · exact tidy_arg fun _=>tidy_returns
    (tidy_lockedFd rfl _ fun file=>(only_fileTell file).mono (by decide))
 · exact tidy_arg fun _=>tidy_returnsNothing (tidy_close rfl _)
 · exact tidy_arg fun _=>tidy_arg fun _=>tidy_returns (tidy_pure _)
 · exact tidy_pure _

lemma tidy_handler (esp:Addr)(number:ℕ):Tidy (.call number) (handler esp number) false:=
 tidy_guarded (tidy_arg fun _=>
  obeys_bind.2 ((tidy_dispatch esp number).mono fun _ _ free=>free))
lemma tidy_starting (env:Env)(input:List UInt8):Tidy .start (starting env input) false:=
 obeys_bind.2 (obeys_only (only_startProcess env.init input) (by decide) (fun _=>rfl)
  (fun _=>rfl) fun _=>rfl)
lemma tidy_processExit:Tidy .exit processExit false:=
 obeys_only only_processExit (by decide) (fun _=>rfl) (fun _=>rfl) fun _=>rfl

end

def TaskOk (holds:Bool):Task→Prop
 | .absent | .user | .dead=>holds=false
 | .running o p=>Tidy o p holds
 | .inside o _ k=>holds=underLock o ∧ ∀r,Tidy o (k r) holds

structure Inv (s:Kernel):Prop where
 tasks:∀p,TaskOk (decide (s.holder=some p)) (s.tasks p)
 unused:∀p,s.nextTid≤p → s.tasks p=.absent
variable {env:Env}{s u:Kernel}{p:ℕ}{task:Task}{o:Origin}{a:Act}

lemma Quiescent.inv (h:Quiescent env s):Inv s:=by
 refine ⟨fun p=>?_,h.unused⟩
 have free:decide (s.holder=some p)=false:=by
  rw[h.free]
  rfl
 rw[free]
 rcases h.tasks p with ht|ht|⟨input,ht⟩
 · rw[ht]
   rfl
 · rw[ht]
   rfl
 · rw[ht]
   exact tidy_starting env input

lemma Inv.present (h:Inv s)(hp:s.tasks p≠.absent):p<s.nextTid:=by
 by_contra hn
 exact hp (h.unused p (Nat.le_of_not_lt hn))

lemma Inv.move (h:Inv s)(hp:p<s.nextTid){holder:Option ℕ}
 (others:∀q,q≠p → (holder=some q ↔ s.holder=some q))
 (ok:TaskOk (decide (holder=some p)) task):Inv {s.put p task with holder}:=by
 constructor
 · intro q
   change TaskOk (decide (holder=some q)) (update s.tasks p task q)
   by_cases hq:q=p
   · subst hq
     rw[update_self]
     exact ok
   · rw[update_of_ne hq,decide_eq_decide.2 (others q hq)]
     exact h.tasks q
 · intro q hq
   change update s.tasks p task q=.absent
   rw[update_of_ne (by change s.nextTid≤q at hq;omega)]
   exact h.unused q hq

lemma Inv.put (h:Inv s)(hp:p<s.nextTid)
 (ok:TaskOk (decide (s.holder=some p)) task):Inv (s.put p task):=
 h.move hp (fun _ _=>Iff.rfl) ok

lemma Inv.spawn (h:Inv s)(input:List UInt8):
 Inv {s.put s.nextTid (.running .start (starting env input)) with
  nextTid:=s.nextTid+1}:=by
 have new:=h.tasks s.nextTid
 rw[h.unused _ (Nat.le_refl _)] at new
 constructor
 · intro q
   change TaskOk (decide (s.holder=some q)) (update s.tasks s.nextTid _ q)
   by_cases hq:q=s.nextTid
   · subst hq
     rw[update_self,show decide (s.holder=some s.nextTid)=false from new]
     exact tidy_starting env input
   · rw[update_of_ne hq]
     exact h.tasks q
 · intro q hq
   change s.nextTid+1≤q at hq
   change update s.tasks s.nextTid _ q=.absent
   rw[update_of_ne (by omega)]
   exact h.unused q (by omega)

inductive Moves (env:Env)(s:Kernel):Act→Kernel→Prop where
 | call {p:ℕ} {esp:Addr} {number:ℕ} (user:s.tasks p=.user):
   Moves env s (.call p esp number) (s.put p (.running (.call number) (handler esp number)))
 | kill {p:ℕ} (user:s.tasks p=.user):Moves env s (.kill p) (s.put p (.running .exit processExit))
 | ret {p:ℕ} {o:Origin} {x:Unit} (at_:s.tasks p=.running o (.ret x)):
   Moves env s (.step p) (s.put p o.finished)
 | enter {p:ℕ} {o:Origin} {c:FsCall} {k:c.Answer → Proc Unit}
   (at_:s.tasks p=.running o (.ask (.filesys c) k)):
   Moves env s (.step p) (s.put p (.inside o c k))
 | leave {p:ℕ} {o:Origin} {c:FsCall} {k:c.Answer → Proc Unit}
   (at_:s.tasks p=.inside o c k) (r:c.Answer):
   Moves env s (.step p) (s.put p (.running o (k r)))
 | acquire {p:ℕ} {o:Origin} {k:Unit→Proc Unit}
   (at_:s.tasks p=.running o (.ask .lockAcquire k)) (free:s.holder=none):
   Moves env s (.step p) {s.put p (.running o (k ())) with holder:=some p}
 | release {p:ℕ} {o:Origin} {k:Unit→Proc Unit}
   (at_:s.tasks p=.running o (.ask .lockRelease k)) (held:s.holder=some p):
   Moves env s (.step p) {s.put p (.running o (k ())) with holder:=none}
 | exit {p:ℕ} {o:Origin} {status:Option ℤ} {k:Empty→Proc Unit}
   (at_:s.tasks p=.running o (.ask (.exit status) k)):
   Moves env s (.step p) (s.put p (.running .exit processExit))
 | spawn {p:ℕ} {o:Origin} {page:ℕ} {name input:List UInt8} {k:ℕ→Proc Unit}
   (at_:s.tasks p=.running o (.ask (.spawn page name input) k)):
   Moves env s (.step p) { (s.put p (.running o (k s.nextTid))).put s.nextTid
    (.running .start (starting env input)) with nextTid:=s.nextTid+1}
 | answer {p:ℕ} {o:Origin} {q:Ask} {k:q.Answer → Proc Unit}
   (at_:s.tasks p=.running o (.ask q k)) (r:q.Answer)
   (same:∀ph,after ph q r=ph):Moves env s (.step p) (s.put p (.running o (k r)))

lemma moves_carryOut {q:Ask}{k:q.Answer → Proc Unit}
 (at_:s.tasks p=.running o (.ask q k))(step:carryOut env s p o q k=some u):
 Moves env s (.step p) u:=by
 cases q with
 | filesys c=>
  obtain rfl:=some.inj step
  exact .enter at_
 | lockAcquire=>
  dsimp only[carryOut] at step
  split at step
  · rename_i free
    obtain rfl:=some.inj step
    exact .acquire at_ free
  · cases step
 | lockRelease=>
  dsimp only[carryOut] at step
  split at step
  · rename_i held
    obtain rfl:=some.inj step
    exact .release at_ held
  · cases step
 | exit status=>
  obtain rfl:=some.inj step
  exact .exit at_
 | spawn page name input=>
  obtain rfl:=some.inj step
  exact .spawn at_
 | _=>
  obtain ⟨r,-,rfl⟩:=map_eq_some_iff.1 step
  exact .answer at_ r fun _=>rfl

lemma next_moves (step:next env s a=some u):Moves env s a u:=by
 cases a with
 | call p esp number=>
  dsimp only[next] at step
  split at step
  · rename_i user
    obtain rfl:=some.inj step
    exact .call user
  · cases step
 | kill p=>
  dsimp only[next] at step
  split at step
  · rename_i user
    obtain rfl:=some.inj step
    exact .kill user
  · cases step
 | step p=>
  dsimp only[next] at step
  split at step
  · rename_i at_
    obtain rfl:=some.inj step
    exact .ret at_
  · rename_i at_
    exact moves_carryOut at_ step
  · rename_i at_
    obtain ⟨r,-,rfl⟩:=map_eq_some_iff.1 step
    exact .leave at_ r
  · cases step

lemma Inv.enter (h:Inv s)(present:s.tasks p≠.absent)
 (free:TaskOk (decide (s.holder=some p)) (s.tasks p) → decide (s.holder=some p)=false)
 (ok:TaskOk false task):Inv (s.put p task):=by
 refine h.put (h.present present) ?_
 rw[free (h.tasks p)]
 exact ok

lemma next_inv (h:Inv s)(step:next env s a=some u):Inv u:=by
 -- What the thread that moves asks for is allowed.
 have tidy:∀ {p o q} {k:q.Answer → Proc Unit},s.tasks p=.running o (.ask q k) →
   p<s.nextTid ∧ allowed o (decide (s.holder=some p)) q ∧
    ∀r,Tidy o (k r) (after (decide (s.holder=some p)) q r):=by
  intro p o q k at_
  have ok:=h.tasks p
  rw[at_] at ok
  exact ⟨h.present (by rw[at_];exact nofun),ok⟩
 cases next_moves step with
 | call user=>
  exact h.enter (by rw[user];exact nofun) (by rw[user];exact id) (tidy_handler _ _)
 | kill user=>exact h.enter (by rw[user];exact nofun) (by rw[user];exact id) tidy_processExit
 | @ret p o x at_=>
  have finished:TaskOk false o.finished:=by cases o<;>rfl
  exact h.enter (by rw[at_];exact nofun) (by rw[at_];exact id) finished
 | enter at_=>
  obtain ⟨present,ok,rest⟩:=tidy at_
  exact h.put present ⟨ok,rest⟩
 | @leave p o c k at_ r=>
  have ok:=h.tasks p
  rw[at_] at ok
  exact h.put (h.present (by rw[at_];exact nofun)) (ok.2 r)
 | acquire at_ free=>
  obtain ⟨present,-,rest⟩:=tidy at_
  refine h.move present (fun q hq=>?_) ?_
  · rw[free]
    exact ⟨fun hs=>absurd (some.inj hs).symm hq,nofun⟩
  · rw[decide_eq_true rfl]
    exact rest ()
 | release at_ held=>
  obtain ⟨present,-,rest⟩:=tidy at_
  refine h.move present (fun q hq=>?_) ?_
  · rw[held]
    exact ⟨nofun,fun hs=>absurd (some.inj hs).symm hq⟩
  · exact rest ()
 | @exit p _ _ _ at_=>
  obtain ⟨present,ok,-⟩:=tidy at_
  have free:decide (s.holder=some p)=false:=ok
  refine h.put present ?_
  rw[free]
  exact tidy_processExit
 | @spawn p o _ _ input k at_=>
  obtain ⟨present,-,rest⟩:=tidy at_
  have moved:Inv (s.put p (.running o (k s.nextTid))):=h.put present (rest s.nextTid)
  exact moved.spawn input
 | answer at_ r same=>
  obtain ⟨present,-,rest⟩:=tidy at_
  have after:=rest r
  rw[same] at after
  exact h.put present after

def EnteredLocked (s:Kernel):Prop:=∀p o c k,s.tasks p=.inside o c k → underLock o=true

lemma Inv.exclusive_iff (h:Inv s):Exclusive s ↔ EnteredLocked s:=by
 have held:∀p o c k,s.tasks p=.inside o c k → decide (s.holder=some p)=underLock o:=by
  intro p o c k ht
  have ok:=h.tasks p
  rw[ht] at ok
  exact ok.1
 constructor
 · intro he p o c k ht
   rw[←held p o c k ht]
   exact decide_eq_true (he.1 p (by rw[ht];rfl))
 · intro he
   have holds:∀p,(s.tasks p).isInside=true → s.holder=some p:=by
    intro p hp
    cases ht:s.tasks p with
    | inside o c k=>exact of_decide_eq_true ((held p o c k ht).trans (he p o c k ht))
    | _=>
     rw[ht] at hp
     cases hp
   exact ⟨holds,fun p q hp hq=>some.inj ((holds p hp).symm.trans (holds q hq))⟩

lemma put_inside {q:ℕ}{c:FsCall}{k:c.Answer → Proc Unit}(h:update s.tasks q task p=.inside o c k):
 s.tasks p=.inside o c k ∨ (p=q ∧ task=.inside o c k):=by
 by_cases hp:p=q
 · subst hp
   rw[update_self] at h
   exact .inr ⟨rfl,h⟩
 · rw[update_of_ne hp] at h
   exact .inl h

/-- A thread that is in the file system after a step was there before, or the step
has taken it there. -/
lemma inside_next {c:FsCall}{k:c.Answer → Proc Unit}(step:next env s a=some u)
 (hu:u.tasks p=.inside o c k):
 s.tasks p=.inside o c k ∨ (a=.step p ∧ s.tasks p=.running o (.ask (.filesys c) k)):=by
 cases next_moves step with
 | @ret q o' x at_=>
  refine .inl ((put_inside hu).resolve_right fun h=>?_)
  cases o'<;>exact nomatch h.2
 | enter at_=>
  rcases put_inside hu with h|⟨rfl,h⟩
  · exact .inl h
  · cases h
    exact .inr ⟨rfl,at_⟩
 | spawn at_=>
  have h:=(put_inside hu).resolve_right nofun
  exact .inl ((put_inside h).resolve_right nofun)
 | _=>exact .inl ((put_inside hu).resolve_right nofun)

lemma orderly_iff (before:EnteredLocked s)(step:next env s a=some u):
 EnteredLocked u ↔ Orderly s a:=by
 constructor
 · intro locked
   cases a with
   | step p=>
    change (s.tasks p).entersUnlocked=false
    unfold Task.entersUnlocked
    split
    · rename_i o c k ht
      have entered:u=s.put p (.inside o c k):=by
       dsimp only[next] at step
       rw[ht] at step
       exact (some.inj step).symm
      rw[locked p o c k (by rw[entered];exact update_self ..)]
      rfl
    · rfl
   | _=>trivial
 · intro orderly p o c k hu
   rcases inside_next step hu with hs|⟨rfl,hs⟩
   · exact before p o c k hs
   · have enters:(s.tasks p).entersUnlocked=false:=orderly
     rw[hs] at enters
     simpa[Task.entersUnlocked] using enters

/-- In every run in which no step takes a thread into the file system from `exec`,
`filesize`, the loader or `process_exit`, only the holder of the lock is ever in it;
and a step that does so breaks this. -/
theorem file_system_exclusive {s₀:Kernel}{acts:List Act}(start:Quiescent env s₀)
 (run:Runs (next env) Orderly s₀ acts s):
 Exclusive s ∧ ∀a u,next env s a=some u → (Exclusive u ↔ Orderly s a):=by
 have kept:Inv s ∧ EnteredLocked s:=by
  refine run.invariant (I:=fun s=>Inv s ∧ EnteredLocked s) ?_ ⟨start.inv,?_⟩
  · exact fun s a u h orderly step=>⟨next_inv h.1 step,(orderly_iff h.2 step).2 orderly⟩
  · intro p o c k ht
    rcases start.tasks p with hs|hs|⟨input,hs⟩<;>rw[hs] at ht<;>cases ht
 refine ⟨kept.1.exclusive_iff.2 kept.2,fun a u step=>?_⟩
 exact (next_inv kept.1 step).exclusive_iff.trans (orderly_iff kept.2 step)

def emptyElf:List UInt8:=
 [0x7f,0x45,0x4c,0x46,1,1,1]++replicate 9 0++[2,0,3,0,1,0,0,0] ++
  replicate 18 0++[32,0]++replicate 8 0

def plentiful:Env where
 init:=⟨0,fun _=>none⟩
 answer _ q:=
  match q with
  | .word _=>some 0x9000
  | .byte a=>some (if a=0x9000 then 97 else 0)
  | .isMapped _=>some true
  | .fd _=>some none
  | .filesys (.filesysOpen _)=>some (some 3)
  | .filesys (.filesysCreate ..)=>some true
  | .filesys (.inodeReadAt ..)=>some emptyElf
  | .filesys (.inodeClose _)=>some ()
  | .palloc _=>some (some 5)
  | .pagedir=>some (some ⟨0,fun _=>none⟩)
  | .pallocFree _ | .fill .. | .setPagedir _ | .store .. | .setFd ..=>some ()
  | _=>none

def alone (task:Task):Kernel:=⟨update (fun _=>.absent) 1 task,none,2,0⟩

lemma quiescent_alone (h:task=.user ∨ ∃input,task=.running .start (starting env input)):
 Quiescent env (alone task):=by
 refine ⟨rfl,fun p=>?_,fun p hp=>?_⟩
 · change update (fun _=>Task.absent) 1 task p=_ ∨ _ ∨ ∃input,_
   by_cases hp:p=1
   · subst hp
     exact .inr h
   · rw[update_of_ne hp]
     exact .inl rfl
 · have far:p≠1:=by
    change 2≤p at hp
    omega
   change update (fun _=>Task.absent) 1 task p=.absent
   rw[update_of_ne far]

/-- Process 1 is started and executes a second program. While it makes a file, the new
process loads its executable. -/
def race:List Act:=
 replicate 22 (.step 1)++[.call 1 0x8000 2]++replicate 24 (.step 1) ++
  [.call 1 0x8000 4]++replicate 10 (.step 1)++replicate 4 (.step 2)

theorem two_in_file_system:∃s₀ s,Quiescent plentiful s₀ ∧
 Runs (next plentiful) Always s₀ race s ∧ (s.tasks 1).isInside=true ∧
 (s.tasks 2).isInside=true ∧ s.holder=some 1 ∧ ¬Exclusive s:=by
 have found:(exec (next plentiful) Always
   (alone (.running .start (starting plentiful [97]))) race).any (fun s=>
    (s.tasks 1).isInside && (s.tasks 2).isInside && s.holder=some 1)=true:=by
  decide +kernel
 obtain ⟨s,run,both⟩:=exec_any found
 simp only[Bool.and_eq_true,decide_eq_true_eq] at both
 obtain ⟨⟨one,two⟩,holder⟩:=both
 refine ⟨_,s,quiescent_alone (.inr ⟨_,rfl⟩),run,one,two,holder,fun h=>?_⟩
 exact absurd (h.2 1 2 one two) (by decide)

theorem file_system_exclusive_create:∃s,Runs (next plentiful) Orderly (alone .user)
  (.call 1 0x8000 4::replicate 10 (.step 1)) s ∧
 (s.tasks 1).isInside=true ∧ s.holder=some 1 ∧ Exclusive s:=by
 have found:(exec (next plentiful) Orderly (alone .user)
   (.call 1 0x8000 4::replicate 10 (.step 1))).any (fun s=>
    (s.tasks 1).isInside && s.holder=some 1)=true:=by
  decide +kernel
 obtain ⟨s,run,inside⟩:=exec_any found
 simp only[Bool.and_eq_true,decide_eq_true_eq] at inside
 exact ⟨s,run,inside.1,inside.2,(file_system_exclusive (quiescent_alone (.inl rfl)) run).1⟩

end Pintos.IoLock
