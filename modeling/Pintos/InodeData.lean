import Pintos.ByteWords
import Pintos.Cache
import Pintos.InodeTable

/-! The headers of inodes on disk, and the loops of `inode_read_at` and
`inode_write_at`. -/
namespace Pintos.InodeData
open ExecHoare ByteWords Cache InodeTable

def inodeMagic:ℕ:=0x494e4f44
def signed (n:ℕ):ℤ:=if n<2^31 then n else n-2^32

/-- The sector that `inode_create` writes; its `unused` words are zero. -/
def encodeInode (h:InodeDisk):Sector:=fun k=>
 if k.val<4 then wordByte h.start k.val
 else if k.val<8 then wordByte (h.length%2^32).toNat (k.val-4)
 else if k.val<12 then wordByte h.magic (k.val-8)
 else 0

def decodeInode (s:Sector):InodeDisk where
 start:=word (s 0) (s 1) (s 2) (s 3)
 length:=signed (word (s 4) (s 5) (s 6) (s 7))
 magic:=word (s 8) (s 9) (s 10) (s 11)

/-- How the loops get at the sectors with data. -/
structure SectorIO where
 load:ℕ→Cmd Sector
 store:ℕ→Sector→Cmd Unit

/-- As the source does. On a miss `inode_read_at` has the sector cached, and then
reads through `sec_block`, which is still null. -/
def cached: SectorIO where
 load s:=do
  match←getBlockFromCache s with
  | some b=>return b.buffer
  | none=>
   let _←cacheBlockFromSector s
   throw .nullPointer
 store:=cacheAndWriteBlock

/-- As the code that is commented out in the source did, without a cache. -/
def direct: SectorIO where
 load:=blockRead
 store:=blockWrite

def byteToSector (data:InodeDisk)(pos:ℕ):ℕ:=
 if pos<data.length then (data.start+pos/512)%2^32 else 2^32-1

/-- `chunk_size`, or 0 where the loop ends: the rest of the request, of the inode
or of the sector, whichever is least. -/
def chunkSize (data:InodeDisk)(size offset:ℕ):ℕ:=
 min size (min (data.length-offset).toNat (512-offset%512))

def sectorByte (s:Sector)(k:ℕ):UInt8:=if h:k<512 then s ⟨k,h⟩ else 0

def overlay (s:Sector)(ofs n:ℕ)(bytes:ℕ→UInt8):Sector:=fun k=>
 if ofs≤k.val ∧ k.val<ofs+n then bytes (k.val-ofs) else s k
variable (io: SectorIO)(data:InodeDisk)

def readLoop:ℕ→ℕ→ℕ→Cmd (List UInt8)
 | 0,_,_=>throw .endless
 | turns+1,size,offset=>
  let chunk:=chunkSize data size offset
  if chunk=0 then return []
  else do
   let buffer←io.load (byteToSector data offset)
   let rest←readLoop turns (size-chunk) (offset+chunk)
   return (List.range chunk).map (fun k=>sectorByte buffer (offset%512+k))++rest

/-- What is written at once: a whole sector, or a bounce buffer around the chunk.
The bounce buffer is read from the disk, not from the cache. -/
def writeChunk (sector ofs chunk:ℕ)(bytes:ℕ→UInt8):Cmd Unit:=
 if ofs=0 ∧ chunk=512 then io.store sector (fun k=>bytes k.val)
 else do
  let bounce←if 0<ofs ∨ chunk<512-ofs then blockRead sector else pure (fun _=>0)
  io.store sector (overlay bounce ofs chunk bytes)

/-- `bounce` tells whether the bounce buffer is there already; the loop ends when
there is no memory for it. -/
def writeLoop (buffer:ℕ→UInt8):ℕ→ℕ→ℕ→ℕ→Bool→Cmd ℕ
 | 0,_,_,_,_=>throw .endless
 | turns+1,size,offset,written,bounce=>
  let chunk:=chunkSize data size offset
  let whole:=offset%512=0 ∧ chunk=512
  if chunk=0 then return written
  else do
   let ready←if whole ∨ bounce then pure true else malloc
   if ready then
    writeChunk io (byteToSector data offset) (offset%512) chunk (fun k=>buffer (written+k))
    writeLoop buffer turns (size-chunk) (offset+chunk) (written+chunk) (bounce || !decide whole)
   else return written

end Pintos.InodeData
