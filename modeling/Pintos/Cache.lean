import Pintos.ExecHoare
import Pintos.HashTable

/-! The block cache of `filesys/cache.c` in front of the file system device. The
uninitialised `struct sector_block` pointers of the source are read as freshly
allocated records. -/
namespace Pintos.Cache
open ExecHoare HashTable

abbrev Sector:=Fin 512 → UInt8

structure SectorBlock where
 sector:ℕ
 buffer:Sector
 dirty:Bool
 lastAccess:ℕ

/-- Why the kernel stops: a pointer used before it is set, a null pointer or one
to freed memory, a sector past the end of the device, a failed `ASSERT`, or a
`PANIC`. `endless` cuts a loop off that does not end. -/
inductive Fault where
 | uninitialized
 | nullPointer
 | danglingPointer
 | sectorRange
 | assertion
 | panic
 | endless
 deriving DecidableEq,Repr

/-- The device with the cache. The answers of `rtc_get_time` and of `malloc` are
given in advance; `ticks` and `mallocs` count the ones used up. -/
structure Device where
 size:ℕ
 disk:ℕ→Sector
 cache:Hash SectorBlock
 clock:ℕ→ℕ
 ticks:ℕ
 mallocOk:ℕ→Bool
 mallocs:ℕ

abbrev Cmd:=Exec Fault Device

/-- The Fowler-Noll-Vo hash of `lib/kernel/hash.c`, on 32-bit words. -/
def hashBytes (buf:List ℕ):ℕ:=buf.foldl (fun hash b=>(hash*16777619%2^32) ^^^ b) 2166136261

def blockHash (b:SectorBlock):ℕ:=
 hashBytes [b.sector%256,b.sector/2^8%256,b.sector/2^16%256,b.sector/2^24%256]
def blockHashLess (a b:SectorBlock):Bool:=a.sector<b.sector
def blockOps:Ops SectorBlock:=⟨blockHash,blockHashLess⟩
def key (s:ℕ):SectorBlock:=⟨s,fun _=>0,false,0⟩
def rtcGetTime:Cmd ℕ:=do
 let d←get
 set {d with ticks:=d.ticks+1}
 return d.clock d.ticks
def malloc:Cmd Bool:=do
 let d←get
 set {d with mallocs:=d.mallocs+1}
 return d.mallocOk d.mallocs
def checkSector (s:ℕ):Cmd Unit:=do
 let d←get
 if s<d.size then pure () else throw .sectorRange
def blockRead (s:ℕ):Cmd Sector:=do
 checkSector s
 let d←get
 return d.disk s
def blockWrite (s:ℕ)(buffer:Sector):Cmd Unit:=do
 checkSector s
 modify fun d=>{d with disk:=Function.update d.disk s buffer}
def chooseEvict (candidate:Option SectorBlock)(s:SectorBlock):Option SectorBlock:=
 let c:=candidate.getD s
 if s.lastAccess<c.lastAccess then some s else some c
def evictCandidate (h:Hash SectorBlock):Option SectorBlock:=
 (visited h.elems.length (hashFirst h)).foldl chooseEvict none
def writeBack (b:SectorBlock):Cmd Unit:=
 if b.dirty then blockWrite b.sector b.buffer else pure ()

/-- On an empty cache the candidate is never set. The table may ask for memory
when it is changed; an answer it does not ask for is skipped. -/
def blockEvict:Cmd Unit:=do
 let d←get
 match evictCandidate d.cache with
 | none=>throw .uninitialized
 | some candidate=>
  writeBack candidate
  let alloc←malloc
  modify fun d=>{d with cache:=(hashDelete blockOps alloc d.cache candidate).2}

def setBlock (s:ℕ)(f:SectorBlock→SectorBlock):Cmd Unit:=
 modify fun d=>{d with cache:=assign blockOps d.cache (key s) f}

def getBlockFromCache (s:ℕ):Cmd (Option SectorBlock):=do
 let d←get
 match hashFind blockOps d.cache (key s) with
 | none=>return none
 | some b=>
  let now←rtcGetTime
  setBlock s (fun b=>{b with lastAccess:=now})
  return some {b with lastAccess:=now}

def evictAtLimit:Cmd Unit:=do
 let d←get
 if 64≤hashSize d.cache then blockEvict else pure ()

/-- The result of `malloc` is not checked: `block_read` stores through it. -/
def readInto (buffer:Bool)(s:ℕ):Cmd Sector:=do
 let data←blockRead s
 if buffer then return data else throw .nullPointer

def cacheBlockFromSector (s:ℕ):Cmd SectorBlock:=do
 evictAtLimit
 let now←rtcGetTime
 let buffer←malloc
 let data←readInto buffer s
 let b:SectorBlock:=⟨s,data,false,now⟩
 let alloc←malloc
 modify fun d=>{d with cache:=(hashInsert blockOps alloc d.cache b).2}
 return b

/-- `memcpy` of `sizeof sec_block->buffer` bytes: the size of a pointer. -/
def copyPointerSize (old new:Sector):Sector:=fun i=>if i.val<4 then new i else old i

def blockFor (s:ℕ):Cmd SectorBlock:=do
 match←getBlockFromCache s with
 | some b=>return b
 | none=>cacheBlockFromSector s

def cacheAndWriteBlock (s:ℕ)(buffer:Sector):Cmd Unit:=do
 let b←blockFor s
 let now←rtcGetTime
 setBlock b.sector (fun b=>
  {b with buffer:=copyPointerSize b.buffer buffer,dirty:=true,lastAccess:=now})

end Pintos.Cache
