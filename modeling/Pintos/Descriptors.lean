import Pintos.DescriptorTables
import Pintos.FileCalls
import Pintos.Syscall

/-!
# File descriptors

The system calls on descriptors, over the tables of all processes and the file
system that they share.
-/
namespace Pintos.Descriptors
open ExecHoare ExecRuns Interaction Paging Process Syscall Cache Directory InodeData Filesys
open FileCalls DescriptorTables

structure State where
 fs:Fs
 fds:ℕ→ℕ→Option ℕ
 opened:ℕ→List ℕ
 closed:ℕ→List ℕ

/-- Why a call does not return: an index outside of the table, a null `struct file`,
the exit of the process, a fault in the file system, or something else. -/
inductive Stop where
 | badIndex (i:ℕ)
 | nullFile
 | exited (status:Option ℤ)
 | fault (e:Fault)
 | other
 deriving DecidableEq,Repr

abbrev Kernel:=Exec Stop State
def onFiles {α:Type}(m:FsCmd α):Kernel α:=fun s=>
 match m.run s.fs with
 | .ok (a,fs)=>.ok (a,{s with fs})
 | .error e=>.error (.fault e)

section
variable (io: SectorIO)(stack:DirEntry)(p:ℕ)(m:Memory)

/-- A call to the file system. It is recorded which files it opens and closes. -/
def callFiles:(c:FsCall) → Kernel c.Answer
 | .filesysOpen name=>do
  let file←onFiles (fsCall io stack m (.filesysOpen name))
  modify fun s=>{s with
   opened:=Function.update s.opened p (file.toList++s.opened p)}
  return file
 | .inodeClose f=>do
  onFiles (fsCall io stack m (.inodeClose f))
  modify fun s=>{s with closed:=Function.update s.closed p (f::s.closed p)}
 | c=>onFiles (fsCall io stack m c)

def handle:(q:Ask) → Kernel q.Answer
 | .byte a=>pure (m.byte a)
 | .isMapped a=>pure (pagedirIsMapped m.pd a)
 | .fd i=>do
  let s←get
  if i∈slots then return s.fds p i else throw (.badIndex i)
 | .setFd i file=>
  if i∈slots then modify fun s=>{s with fds:=setSlot s.fds p i file}
  else throw (.badIndex i)
 | .filesys c=>callFiles io stack p m c
 | .seek f pos=>onFiles (FileCalls.fileSeek f pos)
 | .tell f=>onFiles (FileCalls.fileTell f)
 | .pagedir=>pure (some m.pd)
 | .putbuf _ _ | .lockAcquire | .lockRelease | .setPagedir _ | .pallocFree _=>pure ()
 | .exit status=>throw (.exited status)
 | .nullPointer | .assertion .fileNotNull=>throw .nullFile
 | _=>throw .other

end

section
variable {io: SectorIO}{stack:DirEntry}{p:ℕ}{m:Memory}{s:State}{F:Stop→Prop}
 {α:Type}{Q:α→State→Prop}

lemma holds_onFiles {c:FsCmd α}:Holds (onFiles c) s Q F ↔
  Holds c s.fs (fun a fs=>Q a {s with fs}) (fun e=>F (.fault e)):=by
 unfold Holds onFiles StateT.run
 cases h:c s.fs<;>simp only[h]

lemma holds_fd {i:ℕ}{Q:Option ℕ→State→Prop}(hi:i∈slots):
 Holds (run (handle io stack p m) (ask (Ask.fd i))) s Q F ↔ Q (s.fds p i) s:=by
 rw[holds_run_ask]
 change Holds (if i∈slots then _ else _) s Q F ↔ _
 rw[if_pos hi]
 rfl

lemma holds_setFd {i:ℕ}{file:Option ℕ}{Q:Unit→State→Prop}(hi:i∈slots):
 Holds (run (handle io stack p m) (ask (Ask.setFd i file))) s Q F ↔
  Q () {s with fds:=setSlot s.fds p i file}:=by
 rw[holds_run_ask]
 change Holds (if i∈slots then _ else _) s Q F ↔ _
 rw[if_pos hi]
 rfl

lemma holds_leave {status:ℤ}:
 Holds (run (handle io stack p m) (Syscall.exit status)) s Q F ↔ F (.exited (some status)):=
 holds_run_stop
lemma holds_locked {body:Proc α}:Holds (run (handle io stack p m) (locked body)) s Q F ↔
  Holds (run (handle io stack p m) body) s Q F:=
 holds_run_locked rfl rfl
lemma holds_pointer {a:Addr}{Q:Bool→State→Prop}:
 Holds (run (handle io stack p m) (badPointer a)) s Q F ↔
  (Rejected m.pd a → Q true s) ∧ (¬Rejected m.pd a → Q false s):=
 holds_badPointer fun _=>rfl

end

inductive FdCall where
 | filesize (fd:ℤ)
 | read (fd:ℤ) (buffer:Addr) (size:UInt32)
 | write (fd:ℤ) (buffer:Addr) (size:UInt32)
 | seek (fd:ℤ) (position:UInt32)
 | tell (fd:ℤ)
 | close (fd:ℤ)
 deriving DecidableEq,Repr

def perform:FdCall→Proc (Option ℤ)
 | .filesize fd=>returns id (filesize fd)
 | .read fd buffer size=>returns id (Syscall.read fd buffer size.toNat)
 | .write fd buffer size=>returns id (write fd buffer size.toNat)
 | .seek fd position=>returnsNothing (seek fd position.toNat)
 | .tell fd=>returns id (tell fd)
 | .close fd=>returnsNothing (close fd)

def FdStop:Stop→Prop
 | .badIndex _ | .nullFile=>False
 | .exited status=>status=some (-1)
 | .fault _ | .other=>True

section
variable (io: SectorIO)(stack:DirEntry)(p:ℕ)(m:Memory)(s:State)

/-- The call stays within the table and uses no null pointer for a file, and if it
exits, the status is -1. -/
def Checked (c:FdCall):Prop:=Holds (run (handle io stack p m) (perform c)) s (fun _ _=>True) FdStop

def Denotes (fd:ℤ):Prop:=2≤fd ∧ fd<fdsLength ∧ s.fds p fd.toNat≠none
instance (fd:ℤ):Decidable (Denotes p s fd):=inferInstanceAs (Decidable (_ ∧ _ ∧ _))

/-- The arguments fail the tests of the call, or it is good for the descriptor. -/
def Proper:FdCall→Prop
 | .filesize fd | .seek fd _ | .tell fd=>badFd fd ∨ Denotes p s fd
 | .read fd a _=>badFd fd ∨ Rejected m.pd a ∨ Denotes p s fd
 | .write fd a _=>fd=1 ∨ badFd fd ∨ Rejected m.pd a ∨ Denotes p s fd
 | .close fd=>fd≠fdsLength

instance (c:FdCall):Decidable (Proper p m s c):=
 match c with
 | .filesize _ | .seek _ _ | .tell _=>inferInstanceAs (Decidable (_ ∨ _))
 | .read _ _ _=>inferInstanceAs (Decidable (_ ∨ _ ∨ _))
 | .write _ _ _=>inferInstanceAs (Decidable (_ ∨ _ ∨ _ ∨ _))
 | .close _=>inferInstanceAs (Decidable (_≠_))

end
variable {io: SectorIO}{stack:DirEntry}{p:ℕ}{m:Memory}{s:State}{α:Type}{fd:ℤ}{f:Option ℕ→Proc α}

lemma toNat_slots (h:¬badFd fd):fd.toNat∈slots ↔ fd<fdsLength:=by
 unfold badFd fdsLength at h
 rw[mem_slots,fdsLength]
 omega

lemma holds_theFd (h:¬badFd fd){Q:Option ℕ→State→Prop}:
 Holds (run (handle io stack p m) (theFd fd)) s Q FdStop ↔ fd<fdsLength ∧ Q (s.fds p fd.toNat) s:=by
 by_cases hi:fd.toNat∈slots
 · rw[theFd,holds_fd hi,←toNat_slots h,and_iff_right hi]
 · rw[←toNat_slots h,theFd,holds_run_ask]
   change Holds (if fd.toNat∈slots then _ else _) s Q FdStop ↔ _
   rw[if_neg hi]
   exact ⟨False.elim,fun hq=>hi hq.1⟩

lemma denotes_iff (h:¬badFd fd):
 (fd<fdsLength ∧ s.fds p fd.toNat≠none) ↔ badFd fd ∨ Denotes p s fd:=by
 have low:2≤fd:=by
  unfold badFd at h
  omega
 simp only[h,false_or,Denotes,low,true_and]

/-- A function of the file layer that fails on a null pointer, and on nothing else
that matters here. -/
def NeedsFile (io: SectorIO)(stack:DirEntry)(p:ℕ)(m:Memory)(f:Option ℕ→Proc α):Prop:=
 ∀file s,Holds (run (handle io stack p m) (f file)) s (fun _ _=>True) FdStop ↔ file≠none

lemma holds_call (c:FsCall):Holds (handle io stack p m (.filesys c)) s (fun _ _=>True) FdStop:=by
 have files:∀ {α:Type} (c:FsCmd α) (s:State),
   Holds (onFiles c) s (fun _ _=>True) FdStop:=fun c s=>
  holds_onFiles.2 ((holds_trivial c s.fs).mono (fun _ _ h=>h) fun _ _=>trivial)
 cases c with
 | filesysOpen name | inodeClose f=>exact (files _ s).seq fun _ _ _=>trivial
 | _=>exact files _ s

lemma needsFile_of (null:∀s,¬Holds (run (handle io stack p m) (f none)) s (fun _ _=>True) FdStop)
 (file:∀n s,Holds (run (handle io stack p m) (f (some n))) s (fun _ _=>True) FdStop):
 NeedsFile io stack p m f:=by
 intro slot s
 cases slot with
 | none=>exact ⟨fun h=>absurd h (null s),fun h=>absurd rfl h⟩
 | some n=>exact ⟨fun _=>nofun,fun _=>file n s⟩

lemma needsFile_fileLength:NeedsFile io stack p m fileLength:=
 needsFile_of (fun _ h=>holds_run_stop.1 h) fun _ _=>holds_run_ask.2 (holds_call _)
lemma needsFile_fileTell:NeedsFile io stack p m fileTell:=
 needsFile_of (fun _ h=>holds_run_stop.1 h) fun n s=>holds_run_ask.2
  (holds_onFiles.2 ((holds_trivial (FileCalls.fileTell n) s.fs).mono (fun _ _ h=>h)
   fun _ _=>trivial))

lemma needsFile_fileSeek (pos:ℤ):NeedsFile io stack p m (fun file=>Process.fileSeek file pos):=by
 refine needsFile_of (fun _ h=>holds_run_stop.1 h) fun n s=>?_
 unfold Process.fileSeek
 dsimp only
 split
 · exact holds_run_stop.2 trivial
 · exact holds_run_ask.2 (holds_onFiles.2 ((holds_trivial (FileCalls.fileSeek n pos) s.fs).mono
    (fun _ _ h=>h) fun _ _=>trivial))

lemma needsFile_fileRead (a:Addr)(size:ℤ):NeedsFile io stack p m (fun file=>do
 let bytes←Process.fileRead file (.user a) size
 return (bytes.length:ℤ)):=
 needsFile_of (fun _ h=>holds_run_stop.1 (holds_run_bind.1 h)) fun _ _=>
  holds_run_bind.2 (holds_run_ask.2 (holds_call _))

lemma needsFile_fileWrite (a:Addr)(size:ℤ):
 NeedsFile io stack p m (fun file=>Process.fileWrite file a size):=
 needsFile_of (fun _ h=>holds_run_stop.1 h) fun _ _=>holds_run_ask.2 (holds_call _)
lemma holds_onFd (h:NeedsFile io stack p m f)(good:¬badFd fd):
 Holds (run (handle io stack p m) (theFd fd >>= f)) s (fun _ _=>True) FdStop ↔ Denotes p s fd:=by
 rw[holds_run_bind,holds_theFd good,h,denotes_iff good,or_iff_right good]

lemma holds_pastFd {body:Proc α}{P:Prop}
 (past:¬badFd fd → (Holds (run (handle io stack p m) body) s (fun _ _=>True) FdStop ↔ P)):
 Holds (run (handle io stack p m) (if badFd fd then Syscall.exit (-1) else body)) s
  (fun _ _=>True) FdStop ↔ badFd fd ∨ P:=by
 split
 · rename_i bad
   exact ⟨fun _=>.inl bad,fun _=>holds_leave.2 rfl⟩
 · rename_i good
   rw[or_iff_right good]
   exact past good

lemma holds_withFd (h:NeedsFile io stack p m f):
 Holds (run (handle io stack p m) (withFd fd f)) s (fun _ _=>True) FdStop ↔
  badFd fd ∨ Denotes p s fd:=
 holds_pastFd (holds_onFd h)
lemma holds_lockedFd (h:NeedsFile io stack p m f):
 Holds (run (handle io stack p m) (lockedFd fd f)) s (fun _ _=>True) FdStop ↔
  badFd fd ∨ Denotes p s fd:=
 holds_pastFd fun good=>holds_locked.trans (holds_onFd h good)

lemma holds_close:
 Holds (run (handle io stack p m) (close fd)) s (fun _ _=>True) FdStop ↔ fd≠fdsLength:=by
 unfold close lockedFd
 split
 · rename_i bad
   refine ⟨fun _=>?_,fun _=>holds_leave.2 rfl⟩
   rintro rfl
   exact absurd bad (by decide)
 rename_i good
 rw[holds_locked,holds_run_bind,holds_theFd good]
 have set:∀s,fd<fdsLength → Holds (run (handle io stack p m)
   (ask (Ask.setFd fd.toNat none))) s (fun _ _=>True) FdStop:=fun s hl=>
  (holds_setFd ((toNat_slots good).2 hl)).2 trivial
 constructor
 · intro h he
   exact absurd h.1 (by omega)
 · intro hne
   have hl:fd<fdsLength:=by
    unfold badFd at good
    omega
   refine ⟨hl,holds_run_bind.2 ?_⟩
   cases s.fds p fd.toNat with
   | none=>exact set s hl
   | some f=>exact holds_run_ask.2 ((holds_call (.inodeClose f)).imp fun _ t _=>set t hl)

lemma holds_returns {β:Type}{f:α→β}{c:Proc α}{F:Stop→Prop}:
 Holds (run (handle io stack p m) (do return f (← c))) s (fun _ _=>True) F ↔
  Holds (run (handle io stack p m) c) s (fun _ _=>True) F:=by
 rw[holds_run_bind]
 rfl

/-- A call is checked exactly when its arguments fail the tests that it makes or are
proper: the tests let descriptor 128 pass, and slots that are empty. -/
theorem checked_iff (io: SectorIO)(stack:DirEntry)(p:ℕ)(m:Memory)(s:State)
 (c:FdCall):Checked io stack p m s c ↔ Proper p m s c:=by
 unfold Checked
 cases c with
 | filesize fd=>exact holds_returns.trans (holds_withFd needsFile_fileLength)
 | seek fd position=>exact holds_returns.trans (holds_lockedFd (needsFile_fileSeek _))
 | tell fd=>exact holds_returns.trans (holds_lockedFd needsFile_fileTell)
 | close fd=>exact holds_returns.trans holds_close
 | read fd a size=>
  refine holds_returns.trans ?_
  unfold Syscall.read
  have test:(fd≤0 ∨ fd=1 ∨ fdsLength<fd) ↔ badFd fd:=by
   unfold badFd
   omega
  simp only[test]
  dsimp only[Proper]
  split
  · rename_i bad
    exact ⟨fun _=>.inl bad,fun _=>holds_leave.2 rfl⟩
  rename_i good
  rw[or_iff_right good,holds_run_bind,holds_pointer]
  by_cases hr:Rejected m.pd a
  · simp only[hr,true_or,iff_true,forall_const,not_true,false_imp_iff,and_true]
    exact holds_leave.2 rfl
  · simp only[hr,false_or,not_false_iff,forall_const,false_imp_iff,true_and]
    exact holds_locked.trans (holds_onFd (needsFile_fileRead a _) good)
 | write fd a size=>
  refine holds_returns.trans ?_
  unfold write
  dsimp only[Proper]
  split
  · rename_i bad
    refine ⟨fun _=>.inr (.inl ?_),fun _=>holds_leave.2 rfl⟩
    unfold badFd
    omega
  rename_i hfd
  rw[holds_run_bind,holds_pointer]
  by_cases hr:Rejected m.pd a
  · simp only[hr,true_or,or_true,iff_true,forall_const,not_true,false_imp_iff,and_true]
    exact holds_leave.2 rfl
  simp only[hr,false_or,not_false_iff,forall_const,false_imp_iff,true_and]
  by_cases console:fd=1
  · simp only[console,if_true,true_or,iff_true]
    exact holds_run_bind.2 (holds_run_ask.2 trivial)
  · have good:¬badFd fd:=by
     unfold badFd
     omega
    rw[or_iff_right console,or_iff_right good]
    simp only[console,if_false]
    exact holds_locked.trans (holds_onFd (needsFile_fileWrite a _) good)

def unopened:State:=⟨boot (blankDevice id),fun _ _=>none,fun _=>[],fun _=>[]⟩

/-- `filesize` of 128 reads what is behind the table, and of a descriptor that is not
open hands over a null pointer. -/
theorem filesize_unchecked:
 ¬Checked direct (fun _=>0) 0 ⟨stackPage,fun _=>0⟩ unopened (.filesize 128) ∧
 ¬Checked direct (fun _=>0) 0 ⟨stackPage,fun _=>0⟩ unopened (.filesize 2):=by
 have checked:∀fd,Checked direct (fun _=>0) 0 ⟨stackPage,fun _=>0⟩ unopened (.filesize fd) →
   badFd fd ∨ Denotes 0 unopened fd:=fun fd h=>
  (holds_returns.trans (holds_withFd needsFile_fileLength)).1 h
 exact ⟨fun h=>absurd (checked 128 h) (by decide),fun h=>absurd (checked 2 h) (by decide)⟩

theorem checked_close:Checked direct (fun _=>0) 0 ⟨stackPage,fun _=>0⟩ unopened (.close 127):=
 (checked_iff _ _ _ _ _ _).2 (by decide)

end Pintos.Descriptors
