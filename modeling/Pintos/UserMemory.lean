import Pintos.AskKinds

/-! What the kernel reads of user memory. A run of a system call is watched: it is
stopped when it is about to touch a byte that is not mapped user memory. -/
namespace Pintos.UserMemory
open ExecHoare Interaction Paging Process Syscall AskKinds

inductive Stop where
 | badWord (a:Addr)
 | badByte (a:Addr)
 | exited (status:Option ℤ)
 | other
 deriving DecidableEq,Repr

/-- The memory of the process, and what everything else answers: `answer n` to the
`n`-th question, where none stands for a panic. `entries n` are the names of the
directory that the `n`-th one searches, in order, if it comes to that. -/
structure World extends Memory where
 answer:ℕ → (q:Ask) → Option q.Answer
 entries:ℕ→Option (List (List UInt8))

abbrev Watch:=Exec Stop ℕ

section
variable (w:World)

def wordAt (a:Addr):UInt32:=
 UInt32.ofNat (ByteWords.word (w.byte a) (w.byte (a+1)) (w.byte (a+2)) (w.byte (a+3)))
def touch (a:Addr):Watch UInt8:=
 if UserByte w.pd a then return w.byte a else throw (.badByte a)

def touchRange:ℕ→Addr→Watch Unit
 | 0,_=>return ()
 | n+1,a=>do
  let _←touch w a
  touchRange n (a+1)

def strcmp:List UInt8→Addr→Watch Bool
 | [],a=>do
  let b←touch w a
  return b=0
 | e::es,a=>do
  let b←touch w a
  if b≠0 ∧ b=e then strcmp es (a+1) else return b=e

def lookup:List (List UInt8) → Addr → Watch Unit
 | [],_=>return ()
 | e::es,a=>do
  if←strcmp w e a then return () else lookup es a

def touchString:ℕ→Addr→Watch Unit
 | 0,_=>throw .other
 | turns+1,a=>do
  let b←touch w a
  if b=0 then return () else touchString turns (a+1)

def answered (q:Ask):Watch q.Answer:=do
 let n←get
 set (n+1)
 match w.answer n q with
 | some r=>return r
 | none=>throw .other

def touched:(c:FsCall) → c.Answer → Option (List (List UInt8)) → Watch Unit
 | .filesysCreate (.user a) _,_,some es=>do
  touchString w (2^32) a
  lookup w es a
 | .filesysRemove (.user a),_,some es | .filesysOpen (.user a),_,some es=>lookup w es a
 | .inodeReadAt _ (.user a) size,bytes,_=>
  touchRange w (min (List.length (α:=UInt8) bytes) size.toNat) a
 | .inodeWriteAt _ a size,n,_=>touchRange w (min (Int.toNat n) size.toNat) a
 | _,_,_=>return ()

def handle:(q:Ask) → Watch q.Answer
 | .word a=>if UserRange w.pd a 4 then pure (wordAt w a) else throw (.badWord a)
 | .byte a=>touch w a
 | .isMapped a=>pure (pagedirIsMapped w.pd a)
 | .putbuf buffer size=>touchRange w size buffer
 | .filesys c=>do
  let n←get
  let r←answered w (.filesys c)
  touched w c r (w.entries n)
  return r
 | .exit status=>throw (.exited status)
 | .powerOff | .assertion _ | .nullPointer | .overflow | .hang=>throw .other
 | q=>answered w q

end
variable {w:World}{n:ℕ}{α:Type}

def stopOf (m:Watch α)(n:ℕ):Option Stop:=
 match m.run n with
 | .error s=>some s
 | .ok _=>none

lemma not_holds_of_stop {m:Watch α}{s:Stop}{Q:α→ℕ→Prop}{F:Stop→Prop}
 (h:stopOf m n=some s)(hs:¬F s):¬Holds m n Q F:=by
 unfold stopOf at h
 unfold Holds
 split at h
 · rename_i hr
   rw[hr]
   exact Option.some.inj h▸hs
 · cases h

/-- The run was stopped at a byte, or something else stopped it that is not an exit. -/
def Slip:Stop→Prop
 | .badByte _ | .other=>True
 | .badWord _ | .exited _=>False

def Slips (m:Watch α):Prop:=∀n,Holds m n (fun _ _=>True) Slip
lemma slips_bind {β:Type}{m:Watch α}{f:α→Watch β}(hm:Slips m)(hf:∀a,Slips (f a)):Slips (m >>= f):=
 fun n=>(hm n).seq fun a t _=>hf a t
lemma slips_touch (a:Addr):Slips (touch w a):=fun n=>by
 unfold touch
 split<;>trivial
lemma slips_touchRange (size:ℕ)(a:Addr):Slips (touchRange w size a):=by
 induction size generalizing a with
 | zero=>exact fun _=>trivial
 | succ size ih=>exact slips_bind (slips_touch a) fun _=>ih _

lemma slips_strcmp (entry:List UInt8)(a:Addr):Slips (strcmp w entry a):=by
 induction entry generalizing a with
 | nil=>exact slips_bind (slips_touch a) fun _ _=>trivial
 | cons e es ih=>
  refine slips_bind (slips_touch a) fun b=>?_
  split
  · exact ih _
  · exact fun _=>trivial

lemma slips_lookup (entries:List (List UInt8))(a:Addr):Slips (lookup w entries a):=by
 induction entries with
 | nil=>exact fun _=>trivial
 | cons e es ih=>
  refine slips_bind (slips_strcmp e a) fun found=>?_
  cases found with
  | true=>exact fun _=>trivial
  | false=>exact ih

lemma slips_touchString (turns:ℕ)(a:Addr):Slips (touchString w turns a):=by
 induction turns generalizing a with
 | zero=>exact fun _=>trivial
 | succ turns ih=>
  refine slips_bind (slips_touch a) fun b=>?_
  split
  · exact fun _=>trivial
  · exact ih _

lemma slips_answered (q:Ask):Slips (answered w q):=fun n=>by
 unfold answered
 simp only[holds_bind,holds_get]
 cases w.answer n q<;>trivial

lemma slips_touched (c:FsCall)(r:c.Answer)(es:Option (List (List UInt8))):
 Slips (touched w c r es):=by
 unfold touched
 split
 · exact slips_bind (slips_touchString _ _) fun _=>slips_lookup _ _
 · exact slips_lookup _ _
 · exact slips_lookup _ _
 · exact slips_touchRange _ _
 · exact slips_touchRange _ _
 · exact fun _=>trivial

variable {p:Proc α}

def isWord:Ask→Bool
 | .word _=>true
 | _=>false
def isExit:Ask→Bool
 | .exit _=>true
 | _=>false

/-- The code asks for no word of user memory. -/
def Wordless (p:Proc α):Prop:=Avoids (fun q=>isWord q=true) p

/-- Nor does it exit. -/
def Plain (p:Proc α):Prop:=Avoids (fun q=>(isWord q || isExit q)=true) p

lemma Plain.wordless (h:Plain p):Wordless p:=h.mono fun q hq=>by rw[hq,Bool.true_or]

lemma plain_of_only {ks:List Kind}(h:Only ks p)(no:Kind.word∉ks ∧ Kind.exit∉ks):Plain p:=by
 refine h.avoids fun q hk bad=>?_
 cases q with
 | word a=>exact no.1 hk
 | exit status=>exact no.2 hk
 | _=>cases bad

lemma plain_strlen (a:Addr):Plain (strlen a):=plain_of_only (only_strlen a) (by decide)
lemma plain_strlcpy (a:Addr)(size:ℕ):Plain (strlcpy a size):=
 plain_of_only (only_strlcpy a size) (by decide)
lemma plain_processExecute (a:Addr):Plain (processExecute a):=
 plain_of_only (only_processExecute a) (by decide)
lemma plain_locked (h:Plain p):Plain (locked p):=
 avoids_bind (avoids_ask nofun) fun _=>avoids_bind h fun _=>
  avoids_bind (avoids_ask nofun) fun _=>avoids_pure _

lemma plain_openFrom (file:Addr)(is:List ℕ):Plain (openFrom file is):=by
 induction is with
 | nil=>exact avoids_pure _
 | cons i rest ih=>
  refine avoids_bind (avoids_ask nofun) fun slot=>?_
  split
  · exact avoids_bind (avoids_ask nofun) fun _=>avoids_bind (avoids_ask nofun) fun _=>
     avoids_bind (avoids_ask nofun) fun _=>avoids_bind (avoids_ask nofun) fun _=>
     avoids_bind (avoids_ask nofun) fun _=>avoids_pure _
  · exact ih

section
variable (file:Option ℕ)
include file

lemma plain_fileRead (buffer:Buffer)(size:ℤ):Plain (fileRead file buffer size):=
 plain_of_only (only_fileRead file buffer size) (by decide)
lemma plain_fileWrite (buffer:Addr)(size:ℤ):Plain (fileWrite file buffer size):=
 plain_of_only (only_fileWrite file buffer size) (by decide)
lemma plain_fileSeek (pos:ℤ):Plain (fileSeek file pos):=
 plain_of_only (only_fileSeek file pos) (by decide)
lemma plain_fileLength:Plain (fileLength file):= plain_of_only (only_fileLength file) (by decide)
lemma plain_fileTell:Plain (fileTell file):= plain_of_only (only_fileTell file) (by decide)
lemma plain_fileClose:Plain (fileClose file):= plain_of_only (only_fileClose file) (by decide)

end

lemma plain_badPointer (a:Addr):Plain (badPointer a):=plain_of_only (only_badPointer a) (by decide)

lemma slips_handle {w:World}{q:Ask}(h:¬(isWord q || isExit q)=true):Slips (handle w q):=by
 cases q with
 | word a | exit status=>exact absurd rfl h
 | byte a=>exact slips_touch a
 | isMapped a=>exact fun _=>trivial
 | putbuf a size=>exact slips_touchRange size a
 | filesys c=>
  refine slips_bind (fun _=>trivial) fun n=>slips_bind (slips_answered _) fun r=>?_
  exact slips_bind (slips_touched c r _) fun _ _=>trivial
 | powerOff | assertion | nullPointer | overflow | hang=>exact fun _=>trivial
 | _=>exact slips_answered _

lemma wordless_guarded {a:Addr}(h:Wordless p):
 Wordless (do if←badPointer a then exit (-1) else p):=by
 refine avoids_bind (plain_badPointer a).wordless fun bad=>?_
 cases bad with
 | true=>exact avoids_stop nofun
 | false=>exact h

variable {f:Option ℕ→Proc α}

lemma plain_exec_rest (a:Addr):Plain (do
 match←pallocGetPage false with
 | none=>return -1
 | some _=>
  let cmdCopy←strlcpy a pgSize
  match←filesysOpen (.copy (strtok cmdCopy)) with
  | none=>return -1
  | some _=>
   let pid←locked (processExecute a)
   return pidOf pid:Proc ℤ):=by
 refine avoids_bind (avoids_ask nofun) fun page=>?_
 rcases page with _|page
 · exact avoids_pure _
 refine avoids_bind (plain_strlcpy a _) fun copy=>avoids_bind (avoids_ask nofun) fun file=>?_
 rcases file with _|file
 · exact avoids_pure _
 · exact avoids_bind (plain_locked (plain_processExecute a)) fun _=>avoids_pure _

lemma wordless_exec (a:Addr):Wordless (exec a):=by
 refine wordless_guarded (avoids_bind (avoids_ask nofun) fun first=>?_)
 split
 · exact avoids_stop nofun
 · exact (plain_exec_rest a).wordless

lemma wordless_wait (pid:Addr):Wordless (wait pid):=by
 unfold wait
 split
 · exact avoids_stop nofun
 refine avoids_bind (avoids_ask nofun) fun mapped=>?_
 cases mapped with
 | true=>exact avoids_stop nofun
 | false=>exact avoids_ask nofun

lemma plain_create_rest (a:Addr)(size:ℕ):Plain (do
 let first:UInt8←ask (Ask.byte a)
 if first=0 then return false
 else
  let length←strlen a
  if 14<length then return false
  else locked (ask (Ask.filesys (.filesysCreate (.user a) (toInt size)))):Proc Bool):=by
 refine avoids_bind (avoids_ask nofun) fun first=>?_
 split
 · exact avoids_pure _
 refine avoids_bind (plain_strlen a) fun length=>?_
 split
 · exact avoids_pure _
 · exact plain_locked (avoids_ask nofun)

lemma wordless_create (a:Addr)(size:ℕ):Wordless (create a size):=
 wordless_guarded (plain_create_rest a size).wordless
lemma plain_remove (a:Addr):Plain (remove a):=plain_locked (avoids_ask nofun)

lemma plain_open_rest (a:Addr):Plain (do
 let first:UInt8←ask (Ask.byte a)
 if first=0 then return -1
 else openFrom a (List.range' 2 126):Proc ℤ):=by
 refine avoids_bind (avoids_ask nofun) fun first=>?_
 split
 · exact avoids_pure _
 · exact plain_openFrom a _

lemma wordless_openFile (a:Addr):Wordless (openFile a):=by
 unfold openFile
 split
 · exact avoids_pure _
 · exact wordless_guarded (plain_open_rest a).wordless

lemma wordless_withFd (h:∀file,Plain (f file))(fd:ℤ):Wordless (withFd fd f):=by
 unfold withFd
 split
 · exact avoids_stop nofun
 · exact avoids_bind (avoids_ask nofun) fun file=>(h file).wordless

lemma wordless_lockedFd (h:∀file,Plain (f file))(fd:ℤ):Wordless (lockedFd fd f):=by
 unfold lockedFd
 split
 · exact avoids_stop nofun
 · have body:Plain (theFd fd >>= f):=avoids_bind (avoids_ask nofun) h
   exact (plain_locked body).wordless

section
variable (fd:ℤ)(a:Addr)(size:ℕ)
include fd a size

lemma plain_read_rest:Plain (locked do
 let file←theFd fd
 let bytes←fileRead file (.user a) (toInt size)
 return (bytes.length:ℤ)):=
 plain_locked (avoids_bind (avoids_ask nofun) fun _=>
  avoids_bind (plain_fileRead _ _ _) fun _=>avoids_pure _)

lemma wordless_read:Wordless (Syscall.read fd a size):=by
 unfold Syscall.read
 split
 · exact avoids_stop nofun
 · exact wordless_guarded (plain_read_rest fd a size).wordless

lemma plain_write_rest:Plain (
 if fd=1 then do
  ask (Ask.putbuf a size)
  return toInt size
 else locked do
  let file←theFd fd
  fileWrite file a (toInt size):Proc ℤ):=by
 split
 · exact avoids_bind (avoids_ask nofun) fun _=>avoids_pure _
 · exact plain_locked (avoids_bind (avoids_ask nofun) fun _=>plain_fileWrite _ _ _)

lemma wordless_write:Wordless (write fd a size):=by
 unfold write
 split
 · exact avoids_stop nofun
 · exact wordless_guarded (plain_write_rest fd a size).wordless

end

lemma wordless_returns {f:α→ℤ}{p:Proc α}(h:Wordless p):Wordless (returns f p):=
 avoids_bind h fun _=>avoids_pure _
lemma wordless_returnsNothing {p:Proc Unit}(h:Wordless p):Wordless (returnsNothing p):=
 avoids_bind h fun _=>avoids_pure _

variable {a:Addr}{Q:α→ℕ→Prop}{F:Stop→Prop}

lemma watch_badPointer {Q:Bool→ℕ→Prop}:Holds (run (handle w) (badPointer a)) n Q F ↔
  (Rejected w.pd a → Q true n) ∧ (¬Rejected w.pd a → Q false n):=
 holds_badPointer fun _=>rfl
lemma holds_exit {status:ℤ}:
 Holds (run (handle w) (exit status:Proc α)) n Q F ↔ F (.exited (some status)):=
 holds_run_stop

end Pintos.UserMemory
