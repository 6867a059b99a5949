import Pintos.Ustar

/-!
# Archives on the scratch device

`fsutil_append` and `fsutil_extract` of `filesys/fsutil.c`. The file system is seen through the
calls that they make: files are byte arrays, and reads and writes end at the length of the file.
The two functions keep their positions on the device in static variables of their own.
-/
namespace Pintos.Fsutil
open ExecHoare Printf Ustar
open Directory (CString nameMax)
open Cache (Sector)

/-- The panics of the two functions and of `block.c`. `endless` cuts a loop off. -/
inductive Panic where
 | sectorRange
 | openFailed (fileName:CString)
 | nameTooLong (fileName:CString)
 | outOfSpace (fileName:CString)
 | readFailed (fileName:CString) (unread:ℕ)
 | badHeader (sector:ℕ) (error:String)
 | createFailed (fileName:CString)
 | writeFailed (fileName:CString) (unwritten:ℕ)
 | endless
 deriving DecidableEq

structure Disk where
 size:ℕ
 data:ℕ→Sector

structure FileSystem where
 files:List (CString×List UInt8)
 slots:ℕ
 sectors:ℕ

/-- The two positions are the static variables of `fsutil_append` and `fsutil_extract`. -/
structure World where
 fs:FileSystem
 scratch:Disk
 appendSector:ℕ
 extractSector:ℕ

def boot (fs:FileSystem)(scratch:Disk):World:=⟨fs,scratch,0,0⟩
abbrev Cmd:=Exec Panic World
def blockRead (sector:ℕ):Cmd Sector:=do
 let s←get
 if s.scratch.size ≤ sector then throw .sectorRange
 else return s.scratch.data sector

def blockWrite (sector:ℕ)(buffer:Sector):Cmd Unit:=do
 let s←get
 if s.scratch.size ≤ sector then throw .sectorRange
 else set {s with scratch:={s.scratch with
  data:=Function.update s.scratch.data sector buffer}}

def sectorOf (bytes:List UInt8):Sector:=fun i=>bytes.getD i.val 0
def bytesOf (buffer:Sector):List UInt8:=(List.finRange 512).map buffer
def zeroSector:Sector:=fun _=>0
def FileSystem.find (fs:FileSystem)(name:CString):Option (List UInt8):=
 (fs.files.find? fun file=>file.1=name).map Prod.snd
def sectorsFor (size:ℕ):ℕ:=(size+511)/512

structure Handle where
 name:CString
 pos:ℕ

/-- A file takes a directory entry, a sector for its inode, and those of its data. -/
def filesysCreate (name:CString)(size:ℕ):Cmd Bool:=do
 let s←get
 if name.val=[] ∨ nameMax<name.val.length ∨ (s.fs.find name).isSome ∨ s.fs.slots=0 ∨
   s.fs.sectors<1+sectorsFor size then return false
 else
  set {s with fs:=
   {files:=s.fs.files++[(name,List.replicate size 0)]
    slots:=s.fs.slots-1
    sectors:=s.fs.sectors-(1+sectorsFor size)}}
  return true

def filesysOpen (name:CString):Cmd (Option Handle):=do
 let s←get
 return (s.fs.find name).map fun _=>⟨name,0⟩
def fileContent (file:Handle):Cmd (List UInt8):=do
 let s←get
 return (s.fs.find file.name).getD []
def fileLength (file:Handle):Cmd ℕ:=do
 return (← fileContent file).length
def fileRead (file:Handle)(size:ℕ):Cmd (List UInt8×Handle):=do
 let content←fileContent file
 let bytes:=(content.drop file.pos).take size
 return (bytes,{file with pos:=file.pos+bytes.length})
def overwrite (content:List UInt8)(pos:ℕ)(bytes:List UInt8):List UInt8:=
 content.take pos++bytes.take (content.length-pos)++content.drop (pos+bytes.length)

def fileWrite (file:Handle)(bytes:List UInt8):Cmd (ℕ×Handle):=do
 let content←fileContent file
 let n:=min bytes.length (content.length-file.pos)
 modify fun s=>{s with fs:={s.fs with
  files:=s.fs.files.map fun f=>
   if f.1=file.name then (f.1,overwrite content file.pos bytes) else f}}
 return (n,{file with pos:=file.pos+n})

/-- `block_write (dst, sector++, buffer)`. -/
def writeNext (buffer:Sector):Cmd Unit:=do
 let s←get
 blockWrite s.appendSector buffer
 modify fun s=>{s with appendSector:=s.appendSector+1}

lemma chunk_shrinks {size:ℕ}(h:0<size):size-min 512 size<size:=by
 omega

def appendCopy (fileName:CString)(src:Handle)(size:ℕ):Cmd Unit:=
 if 0<size then do
  let chunkSize:=min 512 size
  let s←get
  if s.scratch.size ≤ s.appendSector then throw (.outOfSpace fileName)
  else
   let (bytes,src)←fileRead src chunkSize
   if bytes.length≠chunkSize then throw (.readFailed fileName size)
   else
    writeNext (sectorOf bytes)
    appendCopy fileName src (size-chunkSize)
 else return ()
 termination_by size
 decreasing_by exact chunk_shrinks ‹0<size›

/-- What `malloc` gives: the content of the buffer, and the byte behind it. -/
structure Buffer where
 content:Sector
 behind:UInt8

/-- The sector at `buffer + 1`, when the buffer is all zeros. -/
def shifted (behind:UInt8):Sector:=fun i=>if i.val<511 then 0 else behind

/-- The second sector of the end marker is written in the place of the first and one byte
further on in memory. -/
def markEnd (behind:UInt8):Cmd Unit:=do
 let s←get
 blockWrite s.appendSector zeroSector
 blockWrite s.appendSector (shifted behind)

def append (fileName:CString)(buffer:Buffer):Cmd Unit:=do
 match←filesysOpen fileName with
 | none=>throw (.openFailed fileName)
 | some src=>
  let size←fileLength src
  match makeHeader fileName .regular size buffer.content with
  | none=>throw .endless
  | some (false,_)=>throw (.nameTooLong fileName)
  | some (true,header)=>
   writeNext header
   appendCopy fileName src size
   markEnd buffer.behind

def appendAll:List (CString×Buffer) → Cmd Unit
 | []=>return ()
 | call::calls=>do
   append call.1 call.2
   appendAll calls

def readNext:Cmd Sector:=do
 let s←get
 let buffer←blockRead s.extractSector
 modify fun s=>{s with extractSector:=s.extractSector+1}
 return buffer

def extractCopy (fileName:CString)(dst:Handle)(size:ℕ):Cmd Unit:=
 if 0<size then do
  let chunkSize:=min 512 size
  let data←readNext
  let (n,dst)←fileWrite dst ((bytesOf data).take chunkSize)
  if n≠chunkSize then throw (.writeFailed fileName size)
  else extractCopy fileName dst (size-chunkSize)
 else return ()
 termination_by size
 decreasing_by exact chunk_shrinks ‹0<size›

def extractFile (fileName:CString)(size:ℕ):Cmd Unit:=do
 if←filesysCreate fileName size then
  match←filesysOpen fileName with
  | none=>throw (.openFailed fileName)
  | some dst=>extractCopy fileName dst size
 else throw (.createFailed fileName)

/-- What follows a header; `next` is the next turn of the loop. -/
def extractEntry (next:Cmd Unit):Except String Entry→Cmd Unit
 | .error error=>do
   let s←get
   throw (.badHeader (s.extractSector-1) error)
 | .ok .eof=>return ()
 | .ok (.file _ .directory _)=>next
 | .ok (.file fileName .regular size)=>do
   extractFile fileName size.toNat
   next

def extractLoop:ℕ→Cmd Unit
 | 0=>throw .endless
 | turns+1=>do
   let header←readNext
   extractEntry (extractLoop turns) (parseHeader header)

def extract (turns:ℕ):Cmd Unit:=do
 extractLoop turns
 blockWrite 0 zeroSector
 blockWrite 1 zeroSector

end Pintos.Fsutil
