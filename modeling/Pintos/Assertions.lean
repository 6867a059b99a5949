import Pintos.FilesysOwnership
import Pintos.UserStrings

/-!
# Assertions behind the system calls

One process makes a call, on a file system that is in order: only the arguments decide
whether an assertion of the kernel may fail.
-/
namespace Pintos.Assertions
open ExecHoare Interaction Paging Process Syscall
open Bitmap Cache Directory InodeTable InodeData Filesys FileCalls UserStrings

structure State where
 fs:Fs
 fds:ℕ→Option ℕ
 pallocs:ℕ

/-- Why a call does not return: the process exits, an assertion fails, the kernel faults on
a read-only page, or something goes wrong in the file system or elsewhere. -/
inductive Stop where
 | exited (status:Option ℤ)
 | assertion (what:Assertion)
 | readOnly
 | fault (e:Fault)
 | other
 deriving DecidableEq,Repr

/-- What uninitialised entries hold, the answers of `palloc_get_page`, and the number of
the next thread. -/
structure Env where
 stack:DirEntry
 pages:ℕ→Option ℕ
 tid:ℕ

abbrev Kernel:=Exec Stop State
def onFiles {α:Type}(m:FsCmd α):Kernel α:=fun s=>
 match m.run s.fs with
 | .ok (a,fs)=>.ok (a,{s with fs})
 | .error e=>.error (.fault e)

section
variable (io: SectorIO)(env:Env)(m:Memory)

def handle:(q:Ask) → Kernel q.Answer
 | .byte a=>pure (m.byte a)
 | .isMapped a=>pure (pagedirIsMapped m.pd a)
 | .fd i=>do
  let s←get
  return s.fds i
 | .setFd i file=>modify fun s=>{s with fds:=Function.update s.fds i file}
 | .filesys (.inodeReadAt f (.user a) size)=>do
  let bytes←onFiles (FileCalls.fileRead io f size)
  if ∀i<bytes.length,Writable m.pd (a+UInt32.ofNat i) then return bytes
  else throw .readOnly
 | .filesys c=>onFiles (fsCall io env.stack m c)
 | .seek f pos=>onFiles (FileCalls.fileSeek f pos)
 | .palloc _=>do
  let s←get
  set {s with pallocs:=s.pallocs+1}
  return env.pages s.pallocs
 | .spawn ..=>pure env.tid
 | .putbuf _ _ | .lockAcquire | .lockRelease | .pallocFree _=>pure ()
 | .exit status=>throw (.exited status)
 | .assertion what=>throw (.assertion what)
 | _=>throw .other

end

inductive ArgCall where
 | exec (cmdLine:Addr)
 | create (file:Addr) (size:UInt32)
 | openFile (file:Addr)
 | seek (fd:ℤ) (position:UInt32)
 | read (fd:ℤ) (buffer:Addr) (size:UInt32)
 | write (fd:ℤ) (buffer:Addr) (size:UInt32)
 deriving DecidableEq,Repr

def perform:ArgCall→Proc (Option ℤ)
 | .exec cmdLine=>returns id (exec cmdLine)
 | .create file size=>returns ofBool (create file size.toNat)
 | .openFile file=>returns id (openFile file)
 | .seek fd position=>returnsNothing (seek fd position.toNat)
 | .read fd buffer size=>returns id (Syscall.read fd buffer size.toNat)
 | .write fd buffer size=>returns id (write fd buffer size.toNat)

def InOrder (M:Medium)(fs:Fs):Prop:=
 ∃L content X named,Mounted M L content X named fs ∧ Filesys.Plain M X ∧
  (∀name,Known content name (named++condemned fs.inodes)) ∧
  ∀size e,planned fs.freeMap size=some e → NotDirty (M.cell fs.dev e.1)

/-- Strings and buffers are mapped user memory, and descriptors are in the table. -/
def ArgCall.Mapped (m:Memory):ArgCall→Prop
 | .exec a | .create a _ | .openFile a=>∃n,StringAt m n a
 | .seek fd _=>2≤fd ∧ fd<fdsLength
 | .read fd a size=>(2≤fd ∧ fd<fdsLength) ∧ UserRange m.pd a size.toNat
 | .write fd a size=>(1≤fd ∧ fd<fdsLength) ∧ UserRange m.pd a size.toNat

def OpenFd (s:State)(fd:ℤ):Prop:=∃f,s.fds fd.toNat=some f ∧ LiveHandle s.fs f

/-- The descriptor, where there is one, denotes an open file or the console. -/
def ArgCall.Denotes (s:State):ArgCall→Prop
 | .seek fd _ | .read fd _ _=>OpenFd s fd
 | .write fd _ _=>fd=1 ∨ OpenFd s fd
 | .exec _ | .create _ _ | .openFile _=>True

/-- What no assertion objects to: a command line that is refused or has a word on its first
page, a position that is not negative as an `off_t`, and such a size or a name that is
refused before. -/
def ArgCall.Harmless (m:Memory):ArgCall→Prop
 | .exec a=>(a=0 ∨ (string m a).val=[]) ∨ ∃b∈(string m a).val.take (pgSize-1),b≠blank
 | .create a size=>size.toNat<2^31 ∨ (a=0 ∨ (string m a).val=[]) ∨ 14<(string m a).val.length
 | .seek _ position=>position.toNat<2^31
 | .openFile _ | .read .. | .write ..=>True

/-- The kernel may store into a buffer that is read to. -/
def ArgCall.Storable (m:Memory):ArgCall→Prop
 | .read _ a size=>a=0 ∨ 2^31 ≤ size.toNat ∨ ∀i<size.toNat,Writable m.pd (a+UInt32.ofNat i)
 | .exec _ | .create .. | .openFile _ | .seek .. | .write ..=>True

def Exited:Stop→Prop
 | .exited _=>True
 | .assertion _ | .readOnly | .fault _ | .other=>False

def NotAsserted:Stop→Prop
 | .assertion _=>False
 | .fault e=>e≠.assertion
 | .exited _ | .readOnly | .other=>True
variable {io: SectorIO}{env:Env}{m:Memory}{s:State}{F:Stop→Prop}{α:Type}{Q:α→State→Prop}

lemma holds_onFiles {c:FsCmd α}:Holds (onFiles c) s Q F ↔
  Holds c s.fs (fun a fs=>Q a {s with fs}) (fun e=>F (.fault e)):=by
 unfold Holds onFiles StateT.run
 cases h:c s.fs<;>simp only[h]
lemma holds_leave {status:ℤ}:
 Holds (run (handle io env m) (Syscall.exit status)) s Q F ↔ F (.exited (some status)):=
 holds_run_stop
lemma holds_locked {body:Proc α}:Holds (run (handle io env m) (locked body)) s Q F ↔
  Holds (run (handle io env m) body) s Q F:=
 holds_run_locked rfl rfl

lemma holds_returns {f:α→ℤ}{c:Proc α}:
 Holds (run (handle io env m) (returns f c)) s (fun _ _=>True) F ↔
  Holds (run (handle io env m) c) s (fun _ _=>True) F:=by
 unfold returns
 rw[holds_run_bind]
 rfl

lemma holds_guarded {a:Addr}{p:Proc α}:
 Holds (run (handle io env m) (do if←badPointer a then Syscall.exit (-1) else p)) s Q F ↔
  (Rejected m.pd a → F (.exited (some (-1)))) ∧
  (¬Rejected m.pd a → Holds (run (handle io env m) p) s Q F):=by
 have paging:∀a,handle io env m (.isMapped a)=pure (pagedirIsMapped m.pd a):=fun _=>rfl
 rw[holds_run_bind,holds_badPointer paging]
 exact and_congr_left' (imp_congr_right fun _=>holds_leave)

lemma reads (a:Addr):handle io env m (.byte a)=pure (m.byte a):=rfl
lemma holds_palloc {user:Bool}{Q:Option ℕ→State→Prop}:
 Holds (run (handle io env m) (pallocGetPage user)) s Q F ↔
  Q (env.pages s.pallocs) {s with pallocs:=s.pallocs+1}:=holds_run_ask

variable {M:Medium}{fs:Fs}{f:ℕ}

section
variable (h:InOrder M fs)
include h

lemma InOrder.opens (name:CString)(stack:DirEntry):
 Holds (Filesys.filesysOpen M.toSectorIO name stack) fs (fun _ _=>True) M.E:=by
 obtain ⟨L,content,X,named,mounted,plain,known,-⟩:=h
 exact (filesysOpen_mounted mounted (plain.quiet L) (known name)).imp fun _ _ _=>trivial
lemma InOrder.creates (name:CString){size:ℤ}(stack:DirEntry)(hl:0 ≤ size)(hl':size<2^31):
 Holds (Filesys.filesysCreate M.toSectorIO name size stack) fs (fun _ _=>True) M.E:=by
 obtain ⟨L,content,X,named,mounted,plain,-,clean⟩:=h
 exact (filesysCreate_mounted mounted plain hl hl' (clean size)).imp fun _ _ _=>trivial

lemma InOrder.reads (hf:LiveHandle fs f)(size:ℤ):
 Holds (FileCalls.fileRead M.toSectorIO f size) fs (fun bytes _=>bytes.length ≤ size.toNat) M.E:=by
 obtain ⟨L,content,X,named,⟨hs,handles,core⟩,-,-,-⟩:=h
 obtain ⟨x,hx,rfl,-,-⟩:=handles.live hf
 obtain ⟨e,he,hes⟩:=core.referent (held_mem hx)
 unfold FileCalls.fileRead
 rw[holds_bind,holds_theFile (handles.find hx)]
 refine (inodeReadAt_core core (held_mem hx) he hes size _).seq ?_
 rintro bytes fs' ⟨-,rfl⟩
 change (List.map _ _).length≤_
 rw[List.length_map,List.length_range]
 exact Nat.min_le_left ..

lemma InOrder.writes (hf:LiveHandle fs f)(buffer:ℕ→UInt8)(size:ℤ):
 Holds (FileCalls.fileWrite M.toSectorIO f buffer size) fs (fun _ _=>True) M.E:=by
 obtain ⟨L,content,X,named,mounted,plain,-,-⟩:=h
 have written:=fileWriteAt_mounted mounted plain hf buffer size
 obtain ⟨hs,handles,core⟩:=mounted
 obtain ⟨x,hx,rfl,-,-⟩:=handles.live hf
 unfold FileCalls.fileWrite
 rw[holds_bind,holds_theFile (handles.find hx)]
 have there:=written x.2.pos.toNat
 unfold fileWriteAt at there
 rw[holds_bind,holds_theFile (handles.find hx)] at there
 exact there.seq fun _ _ _=>trivial

lemma InOrder.seeks (hf:LiveHandle fs f)(pos:ℤ):
 Holds (FileCalls.fileSeek f pos) fs (fun _ _=>True) M.E:=by
 obtain ⟨L,content,X,named,⟨hs,handles,core⟩,-,-,-⟩:=h
 obtain ⟨x,hx,rfl,-,-⟩:=handles.live hf
 unfold FileCalls.fileSeek
 rw[holds_bind,holds_theFile (handles.find hx)]
 trivial

end

variable {a:Addr}{n:ℕ}{fd:ℤ}

lemma toInt_nonneg {k:ℕ}(h:k<2^31):toInt k=k:=if_pos h
lemma toInt_neg {k:ℕ}(h:2^31≤k)(h':k<2^32):toInt k<0:=by
 unfold toInt
 omega

lemma holds_call {c:FsCall}{Q:c.Answer → State → Prop}
 (same:handle M.toSectorIO env m (.filesys c)=onFiles (fsCall M.toSectorIO env.stack m c))
 (medium:∀e,M.E e → F (.fault e))
 (spec:Holds (fsCall M.toSectorIO env.stack m c) s.fs (fun _ _=>True) M.E)
 (after:∀r t,Q r t):
 Holds (run (handle M.toSectorIO env m) (ask (Ask.filesys c))) s Q F:=by
 rw[holds_run_ask,same,holds_onFiles]
 exact spec.mono (fun r fs _=>after r _) medium

lemma threadCreate_safe {io: SectorIO}(name input:List UInt8):
 Holds (run (handle io env m) (threadCreate (some name) input)) s (fun _ _=>True) F:=by
 refine holds_run_bind.2 (holds_palloc.2 ?_)
 cases env.pages s.pallocs<;>trivial

lemma processExecute_safe {io: SectorIO}(h:StringAt m n a)(ha:a≠0){w:List UInt8}
 (word:strtok ((string m a).val.take (pgSize-1))=some w):
 Holds (run (handle io env m) (processExecute a)) s (fun _ _=>True) F:=by
 refine holds_run_bind.2 (holds_palloc.2 ?_)
 cases env.pages s.pallocs with
 | none=>trivial
 | some page=>
  refine holds_run_bind.2 (holds_palloc.2 ?_)
  cases env.pages (s.pallocs+1) with
  | none=>trivial
  | some page'=>
   refine holds_run_bind.2 ((holds_strlcpy reads h ha).2 ?_)
   refine holds_run_bind.2 ((holds_strlcpy reads h ha).2 ?_)
   rw[word]
   refine holds_run_bind.2 ((threadCreate_safe w _).imp ?_)
   intro tid t _
   cases tid<;>trivial

section
variable (order:InOrder M s.fs)
include order

section
variable (h:StringAt m n a)(exits:∀status,F (.exited status))(medium:∀e,M.E e → F (.fault e))
include h exits medium

lemma exec_safe (harmless:(ArgCall.exec a).Harmless m):
 Holds (run (handle M.toSectorIO env m) (exec a)) s (fun _ _=>True) F:=by
 refine holds_guarded.2 ⟨fun _=>exits _,fun fine=>?_⟩
 have ha:a≠0:=fun h=>fine (.inl h)
 refine holds_run_bind.2 ((holds_byte reads).2 ?_)
 split
 · exact holds_leave.2 (exits _)
 · rename_i first
   refine holds_run_bind.2 (holds_palloc.2 ?_)
   cases env.pages s.pallocs with
   | none=>trivial
   | some page=>
    refine holds_run_bind.2 ((holds_strlcpy reads h ha).2 (holds_run_bind.2 ?_))
    obtain ⟨w,word⟩:∃w,strtok ((string m a).val.take (pgSize-1))=some w:=by
     rcases harmless with refused|⟨b,hb,visible⟩
     · rw[string_eq_nil h] at refused
       exact absurd refused (not_or.2 ⟨ha,first⟩)
     · refine Option.ne_none_iff_exists'.1 fun none=>visible ?_
       exact (strtok_eq_none _).1 none b hb
    rw[word]
    refine holds_call rfl medium (order.opens _ _) fun file t=>?_
    cases file with
    | none=>trivial
    | some file=>
     refine holds_run_bind.2 (holds_locked.2 ?_)
     exact (processExecute_safe h ha word).imp fun _ _ _=>trivial

lemma create_safe {size:ℕ}
 (harmless:size<2^31 ∨ (a=0 ∨ (string m a).val=[]) ∨ 14<(string m a).val.length):
 Holds (run (handle M.toSectorIO env m) (create a size)) s (fun _ _=>True) F:=by
 refine holds_guarded.2 ⟨fun _=>exits _,fun fine=>?_⟩
 have ha:a≠0:=fun h=>fine (.inl h)
 refine holds_run_bind.2 ((holds_byte reads).2 ?_)
 split
 · trivial
 · rename_i first
   refine holds_run_bind.2 ((holds_strlen reads h ha).2 ?_)
   split
   · trivial
   · rename_i short
     have small:size<2^31:=by
      rw[string_eq_nil h,string_length h] at harmless
      rcases harmless with small|(hz|hb) | long
      · exact small
      · exact absurd hz ha
      · exact absurd hb first
      · exact absurd long short
     refine holds_locked.2 (holds_call rfl medium ?_ fun _ _=>trivial)
     have signed:=toInt_nonneg small
     exact order.creates _ _ (by omega) (by omega)

end

lemma openFrom_safe (medium:∀e,M.E e → F (.fault e))(l:List ℕ):
 Holds (run (handle M.toSectorIO env m) (openFrom a l)) s (fun _ _=>True) F:=by
 induction l with
 | nil=>trivial
 | cons i rest ih=>
  change Holds (run _ (if s.fds i=none then _ else _)) s _ F
  split
  · refine holds_run_bind.2 (holds_run_ask.2 (holds_run_bind.2 ?_))
    exact holds_call rfl medium (order.opens _ _) fun _ _=>trivial
  · exact ih

lemma openFile_safe (exits:∀status,F (.exited status))(medium:∀e,M.E e → F (.fault e)):
 Holds (run (handle M.toSectorIO env m) (openFile a)) s (fun _ _=>True) F:=by
 unfold openFile
 split
 · trivial
 · refine holds_guarded.2 ⟨fun _=>exits _,fun _=>?_⟩
   refine holds_run_bind.2 ((holds_byte reads).2 ?_)
   split
   · trivial
   · exact openFrom_safe order medium _

section
variable (fds:OpenFd s fd)(exits:∀status,F (.exited status))(medium:∀e,M.E e → F (.fault e))
include fds exits medium

lemma seek_safe {position:ℕ}
 (harmless:position<2^31):
 Holds (run (handle M.toSectorIO env m) (seek fd position)) s (fun _ _=>True) F:=by
 unfold seek lockedFd
 split
 · exact holds_leave.2 (exits _)
 · obtain ⟨f,hf,live⟩:=fds
   refine holds_locked.2 (holds_run_bind.2 (holds_run_ask.2 ?_))
   change Holds (run _ (Process.fileSeek (s.fds fd.toNat) _)) s _ F
   have signed:=toInt_nonneg harmless
   rw[hf,Process.fileSeek,if_neg (by omega),holds_run_ask]
   exact holds_onFiles.2 ((order.seeks live _).mono (fun _ _ _=>trivial) medium)

lemma read_safe {size:ℕ}
 (stores:F .readOnly ∨ a=0 ∨ 2^31 ≤ size ∨ ∀i<size,Writable m.pd (a+UInt32.ofNat i))
 (bound:size<2^32):
 Holds (run (handle M.toSectorIO env m) (Syscall.read fd a size)) s (fun _ _=>True) F:=by
 unfold Syscall.read
 split
 · exact holds_leave.2 (exits _)
 · refine holds_guarded.2 ⟨fun _=>exits _,fun fine=>?_⟩
   obtain ⟨f,hf,live⟩:=fds
   refine holds_locked.2 (holds_run_bind.2 (holds_run_ask.2 ?_))
   change Holds (run _ (Process.fileRead (s.fds fd.toNat) _ _ >>= _)) s _ F
   rw[hf]
   refine holds_run_bind.2 (holds_run_ask.2 (holds_bind.2 (holds_onFiles.2 ?_)))
   refine (order.reads live _).mono (fun bytes fs length=>?_) medium
   split
   · trivial
   · rename_i blocked
     rcases stores with allowed|rfl|negative|writable
     · exact allowed
     · exact absurd (.inl rfl) fine
     · have signed:=toInt_neg negative bound
       exact absurd (fun i hi=>absurd hi (by omega)) blocked
     · refine absurd (fun i hi=>writable i ?_) blocked
       unfold toInt at length
       split at length<;>omega

end

lemma write_safe {size:ℕ}(fds:fd=1 ∨ OpenFd s fd)
 (exits:∀status,F (.exited status))(medium:∀e,M.E e → F (.fault e)):
 Holds (run (handle M.toSectorIO env m) (write fd a size)) s (fun _ _=>True) F:=by
 unfold write
 split
 · exact holds_leave.2 (exits _)
 · refine holds_guarded.2 ⟨fun _=>exits _,fun _=>?_⟩
   split
   · trivial
   · rename_i console
     obtain ⟨f,hf,live⟩:=fds.resolve_left console
     refine holds_locked.2 (holds_run_bind.2 (holds_run_ask.2 ?_))
     change Holds (run _ (Process.fileWrite (s.fds fd.toNat) _ _)) s _ F
     rw[hf]
     exact holds_call rfl medium (order.writes live _ _) fun _ _=>trivial

end

lemma perform_safe (M:Medium)(F:Stop→Prop){c:ArgCall}(order:InOrder M s.fs)
 (mapped:c.Mapped m)(denotes:c.Denotes s)(exits:∀status,F (.exited status))
 (medium:∀e,M.E e → F (.fault e))(harmless:c.Harmless m)
 (stores:F .readOnly ∨ c.Storable m):
 Holds (run (handle M.toSectorIO env m) (perform c)) s (fun _ _=>True) F:=by
 cases c with
 | exec a=>
  obtain ⟨n,h⟩:=mapped
  exact holds_returns.2 (exec_safe order h exits medium harmless)
 | create a size=>
  obtain ⟨n,h⟩:=mapped
  exact holds_returns.2 (create_safe order h exits medium harmless)
 | openFile a=>exact holds_returns.2 (openFile_safe order exits medium)
 | seek fd position=>
  exact holds_run_bind.2 ((seek_safe order denotes exits medium harmless).imp
   fun _ _ _=>trivial)
 | read fd a size=>
  exact holds_returns.2 (read_safe order denotes exits medium stores size.toNat_lt)
 | write fd a size=>exact holds_returns.2 (write_safe order denotes exits medium)

end Pintos.Assertions
