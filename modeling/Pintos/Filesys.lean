import Pintos.Bitmap
import Pintos.Directory
import Pintos.InodeData

/-!
# The file system

The functions of `filesys.c`, `free-map.c`, `inode.c` and `file.c`. A
`struct file *` is the number of the object it points to.
-/
namespace Pintos.Filesys
open ExecHoare Bitmap Cache Directory InodeTable InodeData

structure File where
 id:ℕ
 inode:ℕ
 pos:ℤ
 denyWrite:Bool
 deriving DecidableEq,Repr

/-- `free_map_file` is a null pointer at first, and is not reset when the file
is closed. -/
structure Fs where
 dev:Device
 freeMap:Bits
 freeMapFile:Option ℕ
 inodes:Table
 files:List File
 nextFile:ℕ

abbrev FsCmd:=Exec Fault Fs
def onDevice {α:Type}(m:Cmd α):FsCmd α:=fun s=>
 match m.run s.dev with
 | .ok (a,d)=>.ok (a,{s with dev:=d})
 | .error e=>.error e
def orFault {α:Type}(fault:Fault):Option α→FsCmd α
 | some a=>return a
 | none=>throw fault
def theInode (p:ℕ):FsCmd Inode:=do
 let s←get
 orFault .danglingPointer (s.inodes.find p)
def theFile (f:ℕ):FsCmd File:=do
 let s←get
 orFault .danglingPointer (KeyedList.find File.id f s.files)

variable (io: SectorIO)

def inodeReadAt (p:ℕ)(size:ℤ)(offset:ℕ):FsCmd (List UInt8):=do
 let inode←theInode p
 onDevice (readLoop io inode.data (size.toNat+1) size.toNat offset)
def inodeWriteAt (p:ℕ)(buffer:ℕ→UInt8)(size:ℤ)(offset:ℕ):FsCmd ℕ:=do
 let inode←theInode p
 if inode.denyWriteCnt≠0 then return 0
 else onDevice (writeLoop io inode.data buffer (size.toNat+1) size.toNat offset 0 false)
def fileReadAt (f:ℕ)(size:ℤ)(offset:ℕ):FsCmd (List UInt8):=do
 let file←theFile f
 inodeReadAt io file.inode size offset
def fileWriteAt (f:ℕ)(buffer:ℕ→UInt8)(size:ℤ)(offset:ℕ):FsCmd ℕ:=do
 let file←theFile f
 inodeWriteAt io file.inode buffer size offset
def bitmapWrite (f:ℕ):FsCmd Bool:=do
 let s←get
 let n←fileWriteAt io f (image s.freeMap) (bitmapFileSize s.freeMap) 0
 return n=bitmapFileSize s.freeMap

def bitmapRead (f:ℕ):FsCmd Bool:=do
 let s←get
 let bytes←fileReadAt io f (bitmapFileSize s.freeMap) 0
 modify fun s=>{s with freeMap:=ofImage s.freeMap.length bytes}
 return bytes.length=bitmapFileSize s.freeMap

def setBits (start cnt:ℕ)(value:Bool):FsCmd Unit:=do
 let s←get
 let bits←orFault .assertion (bitmapSetMultiple s.freeMap start cnt value)
 set {s with freeMap:=bits}

def freeMapAllocate (cnt:ℕ):FsCmd (Option ℕ):=do
 let s←get
 match bitmapScan s.freeMap cnt with
 | none=>return none
 | some sector=>
  setBits sector cnt true
  match s.freeMapFile with
  | none=>return some sector
  | some f=>
   if←bitmapWrite io f then return some sector
   else
    setBits sector cnt false
    return none

def freeMapRelease (sector cnt:ℕ):FsCmd Unit:=do
 let s←get
 let all←orFault .assertion (bitmapAll s.freeMap sector cnt)
 if all then
  setBits sector cnt false
  let f←orFault .nullPointer s.freeMapFile
  let _←bitmapWrite io f
 else throw .assertion

def zeroSectors:ℕ→ℕ→Cmd Unit
 | _,0=>return ()
 | start,n+1=>do
  blockWrite start (fun _=>0)
  zeroSectors (start+1) n

def inodeCreate (sector:ℕ)(length:ℤ):FsCmd Bool:=
 if length<0 then throw .assertion
 else do
  if←onDevice malloc then
   match←freeMapAllocate io (bytesToSectors length) with
   | none=>return false
   | some start=>
    onDevice (blockWrite sector (encodeInode ⟨start,length,inodeMagic⟩))
    onDevice (zeroSectors start (bytesToSectors length))
    return true
  else return false

/-- The table decides what is open; an inode that is not is read from the disk. -/
def inodeOpen (sector:ℕ):FsCmd (Option ℕ):=do
 let s←get
 match openedAt s.inodes sector with
 | some i=>
  let (p,t):=InodeTable.inodeOpen s.inodes sector true i.data
  set {s with inodes:=t}
  return p
 | none=>
  if←onDevice malloc then
   let header←onDevice (blockRead sector)
   let s←get
   let (p,t):=InodeTable.inodeOpen s.inodes sector true (decodeInode header)
   set {s with inodes:=t}
   return p
  else return none

def inodeReopen (inode:Option ℕ):FsCmd (Option ℕ):=do
 let s←get
 let (p,t)←orFault .danglingPointer (InodeTable.inodeReopen s.inodes inode)
 set {s with inodes:=t}
 return p

def inodeRemove (p:ℕ):FsCmd Unit:=do
 let s←get
 let t←orFault .danglingPointer (InodeTable.inodeRemove s.inodes p)
 set {s with inodes:=t}

def releaseAll:List (ℕ×ℕ) → FsCmd Unit
 | []=>return ()
 | (sector,cnt)::rest=>do
  freeMapRelease io sector cnt
  releaseAll rest

def inodeClose (inode:Option ℕ):FsCmd Unit:=do
 let s←get
 let (ranges,t)←orFault .danglingPointer (InodeTable.inodeClose s.inodes inode)
 set {s with inodes:=t}
 releaseAll io ranges

/-- The count is raised before it is compared. -/
def inodeDenyWrite (p:ℕ):FsCmd Unit:=do
 let inode←theInode p
 modify fun s=>{s with
  inodes:=s.inodes.set p (fun i=>{i with denyWriteCnt:=i.denyWriteCnt+1})}
 if inode.denyWriteCnt+1 ≤ inode.openCnt then return () else throw .assertion

def inodeAllowWrite (p:ℕ):FsCmd Unit:=do
 let inode←theInode p
 if 0 < inode.denyWriteCnt ∧ inode.denyWriteCnt ≤ inode.openCnt then
  modify fun s=>{s with
   inodes:=s.inodes.set p (fun i=>{i with denyWriteCnt:=i.denyWriteCnt-1})}
 else throw .assertion

def newFile (p:ℕ):FsCmd ℕ:=do
 let s←get
 set {s with files:=⟨s.nextFile,p,0,false⟩::s.files,nextFile:=s.nextFile+1}
 return s.nextFile

def fileOpen (inode:Option ℕ):FsCmd (Option ℕ):=do
 match inode,←onDevice malloc with
 | some p,true=>
  let f←newFile p
  return some f
 | inode,_=>
  inodeClose io inode
  return none

def fileReopen (f:ℕ):FsCmd (Option ℕ):=do
 let file←theFile f
 let inode←inodeReopen (some file.inode)
 fileOpen io inode

def fileDenyWrite (f:ℕ):FsCmd Unit:=do
 let file←theFile f
 if file.denyWrite then return ()
 else
  modify fun s=>{s with
   files:=KeyedList.set File.id f (fun file=>{file with denyWrite:=true}) s.files}
  inodeDenyWrite file.inode

def fileAllowWrite (f:ℕ):FsCmd Unit:=do
 let file←theFile f
 if file.denyWrite then
  modify fun s=>{s with
   files:=KeyedList.set File.id f (fun file=>{file with denyWrite:=false}) s.files}
  inodeAllowWrite file.inode
 else return ()

def fileClose:Option ℕ→FsCmd Unit
 | none=>return ()
 | some f=>do
  fileAllowWrite f
  let file←theFile f
  inodeClose io (some file.inode)
  modify fun s=>{s with files:=KeyedList.erase File.id f s.files}

/-- A directory is known by its inode; `dir_open` needs memory for it. -/
def dirOpenRoot:FsCmd (Option ℕ):=do
 let inode←inodeOpen 1
 match inode,←onDevice malloc with
 | some p,true=>return some p
 | inode,_=>
  inodeClose io inode
  return none

def dirClose:Option ℕ→FsCmd Unit
 | none=>return ()
 | some p=>inodeClose io (some p)
def entryBytes (e:DirEntry)(k:ℕ):UInt8:=if h:k<20 then e ⟨k,h⟩ else 0

def dirFile (p:ℕ)(length:ℤ)(stack:DirEntry):DirFile Fs where
 readAt e ofs:=do
  let bytes←inodeReadAt io p 20 ofs
  return (bytes.length,fun k=>bytes.getD k.val (e k))
 writeAt e ofs:=inodeWriteAt io p (entryBytes e) 20 ofs
 inodeOpen:=inodeOpen
 inodeRemove:=inodeRemove
 inodeClose:=inodeClose io
 stack:=stack
 turns:=length.toNat/20+1

/-- The conjunction in `filesys_create`: whether it holds, and `inode_sector`. -/
def createIn (dir:Option ℕ)(name:CString)(size:ℤ)(stack:DirEntry):
 FsCmd (Bool×ℕ):=do
 match dir with
 | none=>return (false,0)
 | some p=>
  match←freeMapAllocate io 1 with
  | none=>return (false,0)
  | some sector=>
   if←inodeCreate io sector size then
    let inode←theInode p
    let success←dirAdd (dirFile io p inode.data.length stack) name sector
    return (success,sector)
   else return (false,sector)

def filesysCreate (name:CString)(size:ℤ)(stack:DirEntry):FsCmd Bool:=do
 let dir←dirOpenRoot io
 let (success,sector)←createIn io dir name size stack
 if success=false ∧ sector≠0 then freeMapRelease io sector 1
 dirClose io dir
 return success

def filesysOpen (name:CString)(stack:DirEntry):FsCmd (Option ℕ):=do
 let dir←dirOpenRoot io
 let inode←match dir with
  | none=>pure none
  | some p=>do
   let root←theInode p
   dirLookup (dirFile io p root.data.length stack) name
 dirClose io dir
 fileOpen io inode

def filesysRemove (name:CString)(stack:DirEntry):FsCmd Bool:=do
 let dir←dirOpenRoot io
 let success←match dir with
  | none=>pure false
  | some p=>do
   let root←theInode p
   dirRemove (dirFile io p root.data.length stack) name
 dirClose io dir
 return success

/-- The bitmap and its bits are allocated, and all bits but two are clear. -/
def freeMapInit:FsCmd Unit:=do
 let s←get
 if (← onDevice malloc) && (← onDevice malloc) then
  if 2 ≤ s.dev.size then
   modify fun s=>{s with freeMap:=true::true::List.replicate (s.dev.size-2) false}
  else throw .assertion
 else throw .panic

def openFreeMapFile:FsCmd ℕ:=do
 let inode←inodeOpen 0
 let file←fileOpen io inode
 modify fun s=>{s with freeMapFile:=file}
 orFault .panic file

def freeMapOpen:FsCmd Unit:=do
 let f←openFreeMapFile io
 if←bitmapRead io f then return () else throw .panic
def freeMapClose:FsCmd Unit:=do
 let s←get
 fileClose io s.freeMapFile

def freeMapCreate:FsCmd Unit:=do
 let s←get
 if←inodeCreate io 0 (bitmapFileSize s.freeMap) then
  let f←openFreeMapFile io
  if←bitmapWrite io f then return () else throw .panic
 else throw .panic

def doFormat:FsCmd Unit:=do
 freeMapCreate io
 if←inodeCreate io 1 (16*20) then freeMapClose io else throw .panic

def filesysInit (format:Bool):FsCmd Unit:=do
 modify fun s=>{s with inodes:=⟨[],0⟩}
 freeMapInit
 if format then doFormat io
 freeMapOpen io

def filesysDone:FsCmd Unit:=freeMapClose io

def boot (dev:Device):Fs:=⟨dev,[],none,⟨[],0⟩,[],0⟩

end Pintos.Filesys
