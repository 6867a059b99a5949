import Pintos.Process

/-!
# System calls

The functions of `userprog/syscall.c`, and the page faults of `userprog/exception.c`.
A `bool` or a pointer in `eax` is a number.
-/
namespace Pintos.Syscall
open ExecHoare Interaction Paging Process

/-- `exit`, with the message that it prints left out. -/
def exit {α:Type}(status:ℤ):Proc α:=leave (some status)

def fdsLength:ℤ:=128
def isMapped (a:Addr):Proc Bool:=ask (Ask.isMapped a)

/-- The test that most calls make of a pointer: null, kernel memory or not mapped. -/
def badPointer (a:Addr):Proc Bool:=
 if a=0 ∨ isKernelVaddr a then return true
 else do
  let mapped←isMapped a
  return !mapped

def Rejected (pd:PageDir)(a:Addr):Prop:=a=0 ∨ isKernelVaddr a ∨ pagedirIsMapped pd a=false
instance (pd:PageDir)(a:Addr):Decidable (Rejected pd a):=inferInstanceAs (Decidable (_ ∨ _ ∨ _))

lemma not_rejected {pd:PageDir}{a:Addr}(ha:a≠0)(user:UserByte pd a):¬Rejected pd a:=by
 rintro (h|h|h)
 · exact ha h
 · exact absurd (UInt32.lt_iff_toNat_lt.1 user.1) (Nat.not_lt.2 (UInt32.le_iff_toNat_le.1 h))
 · have present:=user.2
   unfold Present pagedirGetPage at present
   unfold pagedirIsMapped at h
   rw[Option.isSome_eq_false_iff,Option.isNone_iff_eq_none] at h
   rw[h] at present
   exact present rfl

lemma holds_badPointer {ε σ:Type}{handle:(q:Ask) → Exec ε σ q.Answer}{pd:PageDir}
 (paging:∀a,handle (.isMapped a)=pure (pagedirIsMapped pd a)){a:Addr}{s:σ}
 {Q:Bool→σ→Prop}{F:ε→Prop}:
 Holds (run handle (badPointer a)) s Q F ↔
  (Rejected pd a → Q true s) ∧ (¬Rejected pd a → Q false s):=by
 unfold badPointer Rejected isMapped
 by_cases h:a=0 ∨ isKernelVaddr a
 · rw[if_pos h,holds_run_pure]
   tauto
 · rw[if_neg h,holds_run_bind,holds_run_ask,paging]
   cases pagedirIsMapped pd a with
   | true=>simp[not_or.1 h]
   | false=>simp

def locked {α:Type}(body:Proc α):Proc α:=do
 ask Ask.lockAcquire
 let r←body
 ask Ask.lockRelease
 return r

lemma holds_run_locked {ε σ α:Type}{handle:(q:Ask) → Exec ε σ q.Answer}{s:σ}
 {F:ε→Prop}{body:Proc α}{Q:α→σ→Prop}(acquire:handle .lockAcquire=pure ())
 (release:handle .lockRelease=pure ()):
 Holds (run handle (locked body)) s Q F ↔ Holds (run handle body) s Q F:=by
 unfold locked
 rw[holds_run_bind,holds_run_ask,acquire,holds_pure,holds_run_bind]
 simp only[holds_run_bind,holds_run_ask,release,holds_pure,holds_run_pure]

def theFd (fd:ℤ):Proc (Option ℕ):=ask (Ask.fd fd.toNat)
def halt:Proc ℤ:=do
 ask (Ask.filesys .filesysDone)
 powerOff

def pidOf:Option ℕ→ℤ
 | some tid=>tid
 | none=>-1

def exec (cmdLine:Addr):Proc ℤ:=do
 if←badPointer cmdLine then exit (-1)
 else
  let first:UInt8←ask (Ask.byte cmdLine)
  if first=0 then exit (-1)
  else
   match←pallocGetPage false with
   | none=>return -1
   | some _=>
    let cmdCopy←strlcpy cmdLine pgSize
    match←filesysOpen (.copy (strtok cmdCopy)) with
    | none=>return -1
    | some _=>
     let pid←locked (processExecute cmdLine)
     return pidOf pid

/-- The last test is the other way round than in the other calls. -/
def wait (pid:Addr):Proc ℤ:=do
 if pid=0 ∨ isKernelVaddr pid then exit (-1)
 else if←isMapped pid then exit (-1)
 else ask (Ask.processWait pid.toNat)

def create (file:Addr)(size:ℕ):Proc Bool:=do
 if←badPointer file then exit (-1)
 else
  let first:UInt8←ask (Ask.byte file)
  if first=0 then return false
  else
   let length←strlen file
   if 14<length then return false
   else locked (ask (Ask.filesys (.filesysCreate (.user file) (toInt size))))

def remove (file:Addr):Proc Bool:=locked (ask (Ask.filesys (.filesysRemove (.user file))))

def openFrom (file:Addr):List ℕ→Proc ℤ
 | []=>return -1
 | i::rest=>do
  let slot:Option ℕ←ask (Ask.fd i)
  if slot=none then
   ask Ask.lockAcquire
   let new←filesysOpen (.user file)
   ask (Ask.setFd i new)
   ask Ask.lockRelease
   let new:Option ℕ←ask (Ask.fd i)
   return if new=none then -1 else i
  else openFrom file rest

def openFile (file:Addr):Proc ℤ:=
 if file=0 then return -1
 else do
  if←badPointer file then exit (-1)
  else
   let first:UInt8←ask (Ask.byte file)
   if first=0 then return -1
   else openFrom file (List.range' 2 126)

/-- The range test of the calls that need an open file. -/
def badFd (fd:ℤ):Prop:=fd<2 ∨ fdsLength<fd

instance (fd:ℤ):Decidable (badFd fd):=inferInstanceAs (Decidable (_ ∨ _))

def withFd {α:Type}(fd:ℤ)(f:Option ℕ→Proc α):Proc α:=
 if badFd fd then exit (-1)
 else do
  let file←theFd fd
  f file

def lockedFd {α:Type}(fd:ℤ)(f:Option ℕ→Proc α):Proc α:=
 if badFd fd then exit (-1)
 else locked do
  let file←theFd fd
  f file

def filesize (fd:ℤ):Proc ℤ:=withFd fd fileLength

/-- `fd` 0 does not get past the first test, so the branch for it is left out. -/
def read (fd:ℤ)(buffer:Addr)(size:ℕ):Proc ℤ:=do
 if fd≤0 ∨ fd=1 ∨ fdsLength<fd then exit (-1)
 else if←badPointer buffer then exit (-1)
 else locked do
  let file←theFd fd
  let bytes←fileRead file (.user buffer) (toInt size)
  return bytes.length

def write (fd:ℤ)(buffer:Addr)(size:ℕ):Proc ℤ:=do
 if fd<1 ∨ fdsLength<fd then exit (-1)
 else if←badPointer buffer then exit (-1)
 else if fd=1 then
  ask (Ask.putbuf buffer size)
  return toInt size
 else locked do
  let file←theFd fd
  fileWrite file buffer (toInt size)

def seek (fd:ℤ)(position:ℕ):Proc Unit:=lockedFd fd (fun file=>fileSeek file (toInt position))
def tell (fd:ℤ):Proc ℤ:=lockedFd fd fileTell
def close (fd:ℤ):Proc Unit:=
 lockedFd fd (fun file=>do
  fileClose file
  ask (Ask.setFd fd.toNat none))
def mmap (_fd:ℤ)(_addr:Addr):Proc ℤ:=return 0
def loadWord (a:Addr):Proc UInt32:=ask (Ask.word a)
def ofBool (b:Bool):ℤ:=if b then 1 else 0
def int (w:UInt32):ℤ:=toInt w.toNat

/-- What is stored in `eax`, if anything is. -/
def returns {r:Type}(f:r → ℤ)(call:Proc r):Proc (Option ℤ):=do
 let x←call
 return some (f x)

def returnsNothing (call:Proc Unit):Proc (Option ℤ):=do
 call
 return none

/-- The `switch` of `syscall_handler`. The argument words follow the number of the
call on the stack. -/
def dispatch (esp:Addr)(call:ℕ):Proc (Option ℤ):=do
 let arg (i:UInt32):Proc UInt32:=loadWord (esp+4*i)
 let moreargs:=¬isKernelVaddr (esp+4)
 match call with
 | 0=>returns id halt
 | 1=>
  if moreargs then
   let status←arg 1
   exit (int status)
  else exit (-1)
 | 2=>
  if moreargs then
   let cmd←arg 1
   returns id (exec cmd)
  else exit (-1)
 | 3=>
  let pid←arg 1
  returns id (wait pid)
 | 4=>
  let file←arg 1
  let size←arg 2
  returns ofBool (create file size.toNat)
 | 5=>
  let file←arg 1
  returns ofBool (remove file)
 | 6=>
  let file←arg 1
  returns id (openFile file)
 | 7=>
  let fd←arg 1
  returns id (filesize (int fd))
 | 8=>
  let fd←arg 1
  let buffer←arg 2
  let size←arg 3
  returns id (read (int fd) buffer size.toNat)
 | 9=>
  if moreargs then
   let fd←arg 1
   let buffer←arg 2
   let size←arg 3
   returns id (write (int fd) buffer size.toNat)
  else returns id (write 1 0 0)
 | 10=>
  let fd←arg 1
  let position←arg 2
  returnsNothing (seek (int fd) position.toNat)
 | 11=>
  let fd←arg 1
  returns id (tell (int fd))
 | 12=>
  let fd←arg 1
  returnsNothing (close (int fd))
 | 13=>
  let fd←arg 1
  let addr←arg 2
  returns id (mmap (int fd) addr)
 | _=>return none

def syscallHandler (esp:Addr):Proc (Option ℤ):=do
 if←badPointer esp then exit (-1)
 else
  let call←loadWord esp
  dispatch esp call.toNat

def kill:Proc Unit:=Syscall.exit (-1)

/-- The page that `page_fault` maps: it subtracts a remainder of signed numbers. -/
def faultPage (faultAddr:Addr):Addr:=faultAddr-UInt32.ofInt ((int faultAddr).tmod pgSize)

def pageFault (faultAddr:Addr)(notPresent write:Bool):Proc Unit:=
 if notPresent && write then do
  match←pallocGetPage true with
  | none=>return ()
  | some page=>
   let pd:Option PageDir←ask Ask.pagedir
   match pd with
   | none=>assertion .pagedirNotNull
   | some pd=>
    match←pagedirSetPage pd (faultPage faultAddr) page true with
    | some pd=>ask (Ask.setPagedir (some pd))
    | none=>
     pallocFreePage page
     kill
 else kill

end Pintos.Syscall
