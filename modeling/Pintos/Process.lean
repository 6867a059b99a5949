import Pintos.ByteWords
import Pintos.Interaction
import Pintos.Paging

/-!
# Processes

The functions of `userprog/process.c`, with those of `file.c`, `string.c` and
`pagedir.c` that they call, as programs: what belongs to the rest of the kernel or
to the machine is asked for. The contents of kernel pages are values of the
program; user memory is not.
-/
namespace Pintos.Process
open Interaction Paging ByteWords

def toInt (n:ℕ):ℤ:=if n<2^31 then n else n-2^32

/-- A string in user memory, or one in a kernel page; `strtok_r` may return null. -/
inductive Name where
 | user (a:Addr)
 | copy (s:Option (List UInt8))
 deriving DecidableEq,Repr

inductive Buffer where
 | user (a:Addr)
 | kernel
 deriving DecidableEq,Repr

/-- The calls that reach `filesys.c`, `directory.c`, `inode.c` or `free-map.c`. -/
inductive FsCall where
 | filesysCreate (name:Name) (size:ℤ)
 | filesysRemove (name:Name)
 | filesysOpen (name:Name)
 | inodeLength (file:ℕ)
 | inodeReadAt (file:ℕ) (buffer:Buffer) (size:ℤ)
 | inodeWriteAt (file:ℕ) (buffer:Addr) (size:ℤ)
 | inodeClose (file:ℕ)
 | filesysDone
 deriving DecidableEq,Repr

@[reducible] def FsCall.Answer:FsCall→Type
 | .filesysCreate .. | .filesysRemove ..=>Bool
 | .filesysOpen ..=>Option ℕ
 | .inodeLength ..=>ℤ
 | .inodeReadAt ..=>List UInt8
 | .inodeWriteAt ..=>ℤ
 | .inodeClose .. | .filesysDone=>Unit

/-- The `ASSERT`s that the code below makes. -/
inductive Assertion where
 | stringNotNull
 | fileNotNull
 | newPos
 | threadName
 | pagedirNotNull
 | userPage
 | notPresent
 | wholePages
 deriving DecidableEq,Repr

/-- What code that runs for a process asks for. The last seven have no answer:
`hang` is a loop that does not end, `overflow` a store behind the end of an array
on the stack, and after `exit` `thread_exit` calls `process_exit`. -/
inductive Ask where
 | word (a:Addr)
 | byte (a:Addr)
 | store (a:Addr) (bytes:List UInt8)
 | isMapped (a:Addr)
 | putbuf (buffer:Addr) (size:ℕ)
 | fd (i:ℕ)
 | setFd (i:ℕ) (file:Option ℕ)
 | lockAcquire
 | lockRelease
 | filesys (c:FsCall)
 | seek (file:ℕ) (pos:ℤ)
 | tell (file:ℕ)
 | palloc (user:Bool)
 | pallocFree (page:ℕ)
 | fill (page:ℕ) (bytes:List UInt8)
 | pagedir
 | setPagedir (pd:Option PageDir)
 | spawn (page:ℕ) (name input:List UInt8)
 | processWait (pid:ℕ)
 | powerOff
 | exit (status:Option ℤ)
 | assertion (what:Assertion)
 | nullPointer
 | overflow
 | hang

@[reducible] def Ask.Answer:Ask→Type
 | .word _=>UInt32
 | .byte _=>UInt8
 | .store ..=>Unit
 | .isMapped _=>Bool
 | .putbuf ..=>Unit
 | .fd _=>Option ℕ
 | .setFd .. | .lockAcquire | .lockRelease=>Unit
 | .filesys c=>c.Answer
 | .seek ..=>Unit
 | .tell _=>ℤ
 | .palloc _=>Option ℕ
 | .pallocFree _ | .fill ..=>Unit
 | .pagedir=>Option PageDir
 | .setPagedir _=>Unit
 | .spawn ..=>ℕ
 | .processWait _=>ℤ
 | .powerOff | .exit _ | .assertion _ | .nullPointer | .overflow | .hang=>Empty

abbrev Proc (α:Type):=Prog Ask Ask.Answer α

section
variable {α:Type}

def powerOff:Proc α:=stop Ask.powerOff id
def leave (status:Option ℤ):Proc α:=stop (Ask.exit status) id
def assertion (what:Assertion):Proc α:=stop (Ask.assertion what) id
def nullPointer:Proc α:=stop Ask.nullPointer id
def overflow:Proc α:=stop Ask.overflow id
def hang:Proc α:=stop Ask.hang id

end

def strlenFrom:ℕ→Addr→Proc ℕ
 | 0,_=>hang
 | turns+1,a=>do
  let b:UInt8←ask (Ask.byte a)
  if b=0 then return 0
  else
   let n←strlenFrom turns (a+1)
   return n+1

def strlen (a:Addr):Proc ℕ:=if a=0 then assertion .stringNotNull else strlenFrom (2^32) a

def memcpy:ℕ→Addr→Proc (List UInt8)
 | 0,_=>return []
 | n+1,a=>do
  let b:UInt8←ask (Ask.byte a)
  let rest←memcpy n (a+1)
  return b::rest

def strlcpy (src:Addr)(size:ℕ):Proc (List UInt8):=do
 let len←strlen src
 memcpy (min len (size-1)) src
def blank:UInt8:=32

/-- The results of `strtok_r (s, " ", ...)` until it returns null. -/
def tokens (s:List UInt8):List (List UInt8):=(s.splitOn blank).filter (· ≠ [])

def strtok (s:List UInt8):Option (List UInt8):=(tokens s).head?
def filesysOpen (name:Name):Proc (Option ℕ):=ask (Ask.filesys (.filesysOpen name))
def fileLength:Option ℕ→Proc ℤ
 | none=>assertion .fileNotNull
 | some f=>ask (Ask.filesys (.inodeLength f))
def fileRead:Option ℕ→Buffer→ℤ→Proc (List UInt8)
 | none,_,_=>nullPointer
 | some f,buffer,size=>ask (Ask.filesys (.inodeReadAt f buffer size))
def fileWrite:Option ℕ→Addr→ℤ→Proc ℤ
 | none,_,_=>nullPointer
 | some f,buffer,size=>ask (Ask.filesys (.inodeWriteAt f buffer size))
def fileSeek (file:Option ℕ)(pos:ℤ):Proc Unit:=
 match file with
 | none=>assertion .fileNotNull
 | some f=>if pos<0 then assertion .newPos else ask (Ask.seek f pos)
def fileTell:Option ℕ→Proc ℤ
 | none=>assertion .fileNotNull
 | some f=>ask (Ask.tell f)
def fileClose:Option ℕ→Proc Unit
 | none=>return ()
 | some f=>ask (Ask.filesys (.inodeClose f))
def pallocGetPage (user:Bool):Proc (Option ℕ):=ask (Ask.palloc user)
def pallocFreePage (page:ℕ):Proc Unit:=ask (Ask.pallocFree page)

/-- `init` is `init_page_dir`. -/
def pagedirCreate (init:PageDir):Proc (Option PageDir):=do
 let page:Option ℕ←pallocGetPage false
 return page.map (fun p=>{init with page:=p})

def pagedirDestroy (pd:PageDir):Proc Unit:=(userPages pd).forM pallocFreePage

/-- A page directory with an entry for a page that is not mapped, or none if there
is no memory for a page table. -/
def pagedirSetPage (pd:PageDir)(upage:Addr)(kpage:ℕ)(writable:Bool):Proc (Option PageDir):=
 if pgOfs upage≠0 ∨ ¬isUserVaddr upage then assertion .userPage
 else
  match pd.table (pdNo upage) with
  | some pt=>
   if (pt.entry (ptNo upage)).present then assertion .notPresent
   else return some (setEntry pd upage pt (pteCreateUser kpage writable))
  | none=>do
   match←pallocGetPage false with
   | none=>return none
   | some p=>return some (setEntry pd upage ⟨p,fun _=>.zero⟩ (pteCreateUser kpage writable))

def installPage (upage:Addr)(kpage:ℕ)(writable:Bool):Proc Bool:=do
 let pd:Option PageDir←ask Ask.pagedir
 match pd with
 | none=>assertion .pagedirNotNull
 | some pd=>
  if pagedirGetPage pd upage≠none then return false
  else
   match←pagedirSetPage pd upage kpage writable with
   | none=>return false
   | some pd=>
    ask (Ask.setPagedir (some pd))
    return true

def half (bytes:List UInt8)(i:ℕ):ℕ:=(bytes.getD i 0).toNat+256*(bytes.getD (i+1) 0).toNat
def wordAt (bytes:List UInt8)(i:ℕ):ℕ:=
 word (bytes.getD i 0) (bytes.getD (i+1) 0) (bytes.getD (i+2) 0) (bytes.getD (i+3) 0)

/-- The fields of `struct Elf32_Ehdr` that `load` reads. -/
structure Ehdr where
 ident:List UInt8
 type:ℕ
 machine:ℕ
 version:ℕ
 entry:ℕ
 phoff:ℕ
 phentsize:ℕ
 phnum:ℕ

def readEhdr (bytes:List UInt8):Ehdr where
 ident:=bytes.take 7
 type:=half bytes 16
 machine:=half bytes 18
 version:=wordAt bytes 20
 entry:=wordAt bytes 24
 phoff:=wordAt bytes 28
 phentsize:=half bytes 42
 phnum:=half bytes 44

/-- The fields of `struct Elf32_Phdr` that `load` reads. -/
structure Phdr where
 type:ℕ
 offset:ℕ
 vaddr:ℕ
 filesz:ℕ
 memsz:ℕ
 flags:ℕ

def readPhdr (bytes:List UInt8):Phdr where
 type:=wordAt bytes 0
 offset:=wordAt bytes 4
 vaddr:=wordAt bytes 8
 filesz:=wordAt bytes 16
 memsz:=wordAt bytes 20
 flags:=wordAt bytes 24

def Ehdr.Valid (h:Ehdr):Prop:=
 h.ident=[0x7f,0x45,0x4c,0x46,1,1,1] ∧ h.type=2 ∧ h.machine=3 ∧ h.version=1 ∧
  h.phentsize=32 ∧ h.phnum≤1024
instance (h:Ehdr):Decidable h.Valid:=inferInstanceAs (Decidable (_ ∧ _ ∧ _ ∧ _ ∧ _ ∧ _))
def roundUp (n:ℕ):ℕ:=(n+pgSize-1)%2^32/pgSize*pgSize

/-- Sums are those of 32-bit words; `length` is that of the file. -/
def validateSegment (h:Phdr)(length:ℤ):Bool:=
 let last:=(h.vaddr+h.memsz)%2^32
 h.offset%pgSize=h.vaddr%pgSize ∧ h.offset≤(length%2^32).toNat ∧
  h.filesz≤h.memsz ∧ h.memsz≠0 ∧ h.vaddr<physBase.toNat ∧ last<physBase.toNat ∧
  h.vaddr≤last ∧ pgSize≤h.vaddr

def Phdr.amounts (h:Phdr):ℕ×ℕ:=
 let ofs:=h.vaddr%pgSize
 let total:=roundUp ((ofs+h.memsz)%2^32)
 if 0<h.filesz then
  let readBytes:=(ofs+h.filesz)%2^32
  (readBytes,(total+2^32-readBytes)%2^32)
 else (0,total)

variable (init:PageDir)

def loadPage (file:Option ℕ)(upage:Addr)(readBytes:ℕ)(writable:Bool):Proc Bool:=do
 match←pallocGetPage true with
 | none=>return false
 | some kpage=>
  let bytes←fileRead file .kernel readBytes
  if bytes.length≠readBytes then
   pallocFreePage kpage
   return false
  else
   ask (Ask.fill kpage (bytes++List.replicate (pgSize-readBytes) 0))
   if←installPage upage kpage writable then return true
   else
    pallocFreePage kpage
    return false

def loadPages (file:Option ℕ)(writable:Bool):ℕ→Addr→ℕ→ℕ→Proc Bool
 | 0,_,_,_=>hang
 | turns+1,upage,readBytes,zeroBytes=>
  if readBytes=0 ∧ zeroBytes=0 then return true
  else do
   let pageReadBytes:=min readBytes pgSize
   let pageZeroBytes:=pgSize-pageReadBytes
   if←loadPage file upage pageReadBytes writable then
    loadPages file writable turns (upage+UInt32.ofNat pgSize) (readBytes-pageReadBytes)
     ((zeroBytes+2^32-pageZeroBytes)%2^32)
   else return false

def loadSegment (file:Option ℕ)(ofs:ℤ)(upage:Addr)(readBytes zeroBytes:ℕ)
 (writable:Bool):Proc Bool:=
 if (readBytes+zeroBytes)%2^32%pgSize≠0 ∨ pgOfs upage≠0 ∨ ofs%pgSize≠0 then
  assertion .wholePages
 else do
  fileSeek file ofs
  loadPages file writable (2^20+1) upage readBytes zeroBytes

def loadHeader (file:Option ℕ)(h:Phdr):Proc Bool:=
 if h.type=2 ∨ h.type=3 ∨ h.type=5 then return false
 else if h.type=1 then do
  let length←fileLength file
  if validateSegment h length then
   let (readBytes,zeroBytes):=h.amounts
   loadSegment file (toInt (h.offset/pgSize*pgSize))
    (UInt32.ofNat (h.vaddr/pgSize*pgSize)) readBytes zeroBytes (h.flags/2%2=1)
  else return false
 else return true

def loadHeaders (file:Option ℕ):ℕ→ℤ→Proc Bool
 | 0,_=>return true
 | n+1,fileOfs=>do
  if fileOfs<0 then return false
  else
   let length←fileLength file
   if length<fileOfs then return false
   else
    fileSeek file fileOfs
    let bytes←fileRead file .kernel 32
    if bytes.length≠32 then return false
    else if←loadHeader file (readPhdr bytes) then loadHeaders file n (fileOfs+32)
    else return false

def wordBytes (n:ℕ):List UInt8:=[wordByte n 0,wordByte n 1,wordByte n 2,wordByte n 3]

/-- The strings, from the top of user memory down, and their addresses. -/
def pushStrings:List (List UInt8) → Addr → List Addr → Proc (Addr×List Addr)
 | [],kp,pointers=>return (kp,pointers)
 | token::rest,kp,pointers=>
  let kp:=kp-UInt32.ofNat (token.length+1)
  if pointers.length=128 then overflow
  else do
   ask (Ask.store kp (token.take (pgSize-1)++[0]))
   pushStrings rest kp (pointers++[kp])

def pushWords:List ℕ→Addr→Proc Addr
 | [],kp=>return kp
 | n::rest,kp=>do
  ask (Ask.store (kp-4) (wordBytes n))
  pushWords rest (kp-4)

/-- `argv`, `argc` and a return address below the strings. -/
def pushArguments (input:List UInt8):Proc Addr:=do
 let (kp,pointers)←pushStrings (tokens input) physBase []
 let argv←pushWords (0::pointers.reverse.map UInt32.toNat) kp
 pushWords [argv.toNat,pointers.length,0] argv

/-- Whether it succeeds, and `*esp`. `TID_ERROR` is true as a `bool`. -/
def setupStack (input:List UInt8):Proc (Bool×Addr):=do
 match←pallocGetPage false with
 | none=>return (true,0)
 | some _=>
  let success←match←pallocGetPage true with
   | none=>pure false
   | some kpage=>do
    if←installPage (physBase-UInt32.ofNat pgSize) kpage true then pure true
    else
     pallocFreePage kpage
     pure false
  let esp←pushArguments (input.take (pgSize-1))
  return (success,esp)

/-- From the header on, with the file open: the entry point and the stack pointer. -/
def loadFile (file:Option ℕ)(input:List UInt8):Proc (Option (ℕ×Addr)):=do
 let bytes←fileRead file .kernel 52
 let ehdr:=readEhdr bytes
 if bytes.length≠52 ∨ ¬ehdr.Valid then return none
 else if←loadHeaders file ehdr.phnum (toInt ehdr.phoff) then
  let (success,esp)←setupStack input
  return if success then some (ehdr.entry,esp) else none
 else return none

def load (fileName:Option (List UInt8))(input:List UInt8):Proc (Option (ℕ×Addr)):=do
 match←pagedirCreate init with
 | none=>return none
 | some pd=>
  ask (Ask.setPagedir (some pd))
  match←filesysOpen (.copy fileName) with
  | none=>return none
  | some file=>
   let image←loadFile (some file) input
   fileClose (some file)
   return image

/-- It ends in user mode, or the thread exits. `input` is what is on the page that
`process_execute` has copied the command line to. -/
def startProcess (input:List UInt8):Proc (ℕ×Addr):=do
 match←pallocGetPage false with
 | none=>leave none
 | some copy=>
  let image←load init (strtok (input.take (pgSize-1))) input
  pallocFreePage copy
  match image with
  | none=>leave none
  | some entry=>return entry

def threadCreate (name:Option (List UInt8))(input:List UInt8):Proc (Option ℕ):=do
 match←pallocGetPage false,name with
 | none,_=>return none
 | some _,none=>assertion .threadName
 | some page,some name=>
  let tid:ℕ←ask (Ask.spawn page name input)
  return some tid

def processExecute (input:Addr):Proc (Option ℕ):=do
 match←pallocGetPage false with
 | none=>return none
 | some inputCpy=>
  match←pallocGetPage false with
  | none=>return none
  | some _=>
   let copy←strlcpy input pgSize
   let copy2←strlcpy input pgSize
   match←threadCreate (strtok copy) copy2 with
   | none=>
    pallocFreePage inputCpy
    return none
   | some tid=>return some tid

def closeAll:List ℕ→Proc Unit
 | []=>return ()
 | i::rest=>do
  let file:Option ℕ←ask (Ask.fd i)
  fileClose file
  ask (Ask.setFd i none)
  closeAll rest

def processExit:Proc Unit:=do
 closeAll (List.range' 2 126)
 let pd:Option PageDir←ask Ask.pagedir
 match pd with
 | none=>return ()
 | some pd=>
  ask (Ask.setPagedir none)
  pagedirDestroy pd

end Pintos.Process
