import Pintos.CheckedWords
import Pintos.FileCalls
import Pintos.InodeAccess

/-!
# The chunks of `inode_read_at` and `inode_write_at`

The loops with the 32-bit integers of the source, where an overflow is an error.
-/
namespace Pintos.InodeChunks
open ExecHoare Cache InodeTable InodeData Filesys FileCalls CheckedWords List

structure Chunk where
 sector:ℕ
 ofs:ℤ
 size:ℤ
 deriving DecidableEq,Repr

/-- `byte_to_sector` of an `off_t`: the quotient is converted to unsigned for the sum. -/
def sectorAt (data:InodeDisk)(pos:ℤ):ℕ:=
 if pos<data.length then ((data.start+pos.tdiv 512)%2^32).toNat else 2^32-1

def nextChunk (data:InodeDisk)(size offset:ℤ):Except Trap (Option Chunk):=do
 let sectorIdx:=sectorAt data offset
 let sectorOfs:=offset.tmod 512
 let inodeLeft←int32 (data.length-offset)
 let sectorLeft←int32 (512-sectorOfs)
 let minLeft:=if inodeLeft<sectorLeft then inodeLeft else sectorLeft
 let chunkSize:=if size < minLeft then size else minLeft
 return if chunkSize≤0 then none else some ⟨sectorIdx,sectorOfs,chunkSize⟩

/-- The chunks that the loops process, and the number of bytes that they count. -/
def chunksFrom (data:InodeDisk):ℕ→ℤ→ℤ→ℤ→Except Trap (List Chunk×ℤ)
 | 0,_,_,_=>.error .endless
 | turns+1,size,offset,done=>
  if 0<size then do
   match←nextChunk data size offset with
   | none=>return ([],done)
   | some c=>
    let size←int32 (size-c.size)
    let offset←int32 (offset+c.size)
    let done←int32 (done+c.size)
    let (cs,n)←chunksFrom data turns size offset done
    return (c::cs,n)
  else return ([],done)

def inodeChunks (data:InodeDisk)(size offset:ℤ):Except Trap (List Chunk×ℤ):=
 chunksFrom data (size.toNat+1) size offset 0

section
variable {data:InodeDisk}

def chunkList (data:InodeDisk):ℕ→ℕ→ℕ→List Chunk
 | 0,_,_=>[]
 | turns+1,size,offset=>
  let n:=chunkSize data size offset
  if n=0 then []
  else ⟨byteToSector data offset,(offset%512:ℕ),n⟩::chunkList data turns (size-n) (offset+n)

lemma sectorAt_natCast (pos:ℕ):sectorAt data pos=byteToSector data pos:=by
 unfold sectorAt byteToSector
 split
 · rw[Int.tdiv_eq_ediv_of_nonneg (Int.natCast_nonneg pos)]
   omega
 · rfl

lemma nextChunk_natCast (nonneg:0≤data.length)(lt:data.length<2^31){size:ℕ}
 (positive:0<size){offset:ℕ}(small:offset<2^31):
 nextChunk data size offset=.ok (if chunkSize data size offset=0 then none
  else some ⟨byteToSector data offset,(offset%512:ℕ),chunkSize data size offset⟩):=by
 have ofs:(offset:ℤ).tmod 512=(offset%512:ℕ):=by
  rw[Int.tmod_eq_emod_of_nonneg (Int.natCast_nonneg offset)]
  omega
 have left:int32 (data.length-offset)=.ok (data.length-offset):=by
  unfold int32
  rw[if_pos (by omega)]
 have rest:int32 (512-(offset%512:ℕ))=.ok (512-(offset%512:ℕ)):=by
  unfold int32
  rw[if_pos (by omega)]
 have least:(if (size:ℤ)<(if data.length-offset<512-(offset%512:ℕ) then
   data.length-offset else 512-(offset%512:ℕ)) then (size:ℤ) else
   if data.length-offset<512-(offset%512:ℕ) then data.length-offset
   else 512-(offset%512:ℕ))=
   if chunkSize data size offset=0 then min (data.length-offset) 0
   else chunkSize data size offset:=by
  unfold chunkSize
  split<;>split<;>split<;>omega
 unfold nextChunk
 rw[sectorAt_natCast,ofs,left,ok_bind,rest,ok_bind]
 change Except.ok _=Except.ok _
 rw[least]
 by_cases none:chunkSize data size offset=0
 · rw[if_pos none,if_pos none,if_pos (by omega)]
 · rw[if_neg none,if_neg none,if_neg (by omega)]

lemma chunksFrom_natCast (nonneg:0≤data.length)(lt:data.length<2^31)
 {turns size offset done:ℕ}(enough:size<turns)(small:offset<2^31)
 (counts:done+size<2^31):
 chunksFrom data turns size offset done=
  .ok (chunkList data turns size offset,(done+readable data size offset:ℕ)):=by
 induction turns generalizing size offset done with
 | zero=>omega
 | succ turns ih=>
  unfold chunksFrom chunkList
  by_cases positive:0<size
  · rw[if_pos (by omega),nextChunk_natCast nonneg lt positive small]
    have short:=chunkSize_le data size offset
    by_cases none:chunkSize data size offset=0
    · rw[if_pos none,if_pos none,readable_of_chunk_zero none]
      rfl
    · rw[if_neg none,if_neg none]
      have inside:((offset+chunkSize data size offset:ℕ):ℤ)≤data.length:=by
       unfold chunkSize
       unfold chunkSize at none
       omega
      change (int32 (size-chunkSize data size offset) >>= fun size=>_)=_
      rw[←Int.natCast_sub short,int32_of_lt (by omega),ok_bind,←Int.natCast_add,
       int32_of_lt (by omega),ok_bind,←Int.natCast_add,int32_of_lt (by omega),ok_bind,
       ih (by omega) (by omega) (by omega),readable_chunk size offset,Nat.add_assoc]
      rfl
  · obtain rfl:size=0:=by omega
    rfl

end
variable (io: SectorIO){data:InodeDisk}

def readChunks:List Chunk→Cmd (List UInt8)
 | []=>return []
 | c::cs=>do
  let buffer←io.load c.sector
  let rest←readChunks cs
  return (List.range c.size.toNat).map (fun k=>sectorByte buffer (c.ofs.toNat+k))++rest

def writeChunks (buffer:ℕ→UInt8):List Chunk→ℕ→Bool→Cmd ℕ
 | [],written,_=>return written
 | c::cs,written,bounce=>do
  let whole:=c.ofs.toNat=0 ∧ c.size.toNat=512
  let ready←if whole ∨ bounce then pure true else malloc
  if ready then
   writeChunk io c.sector c.ofs.toNat c.size.toNat (fun k=>buffer (written+k))
   writeChunks buffer cs (written+c.size.toNat) (bounce || !decide whole)
  else return written

lemma readLoop_chunks {turns size offset:ℕ}(enough:size<turns):
 readLoop io data turns size offset=readChunks io (chunkList data turns size offset):=by
 induction turns generalizing size offset with
 | zero=>omega
 | succ turns ih=>
  unfold readLoop chunkList
  have short:=chunkSize_le data size offset
  dsimp only
  split
  · rfl
  · rw[ih (by omega)]
    rfl

lemma writeLoop_chunks (buffer:ℕ→UInt8){turns size offset written:ℕ}{bounce:Bool}
 (enough:size<turns):
 writeLoop io data buffer turns size offset written bounce=
  writeChunks io buffer (chunkList data turns size offset) written bounce:=by
 induction turns generalizing size offset written bounce with
 | zero=>omega
 | succ turns ih=>
  unfold writeLoop chunkList
  have short:=chunkSize_le data size offset
  dsimp only
  split
  · rfl
  · rw[ih (by omega)]
    rfl

def Chunk.bytes (c:Chunk):List (ℕ×ℕ):=(List.range c.size.toNat).map fun k=>(c.sector,c.ofs.toNat+k)

structure Chunk.Inside (data:InodeDisk)(c:Chunk):Prop where
 positive:0<c.size
 low:0≤c.ofs
 high:c.ofs+c.size≤512
 first:data.start≤c.sector
 last:c.sector<data.start+bytesToSectors data.length

structure Covers (data:InodeDisk)(offset n:ℕ)(cs:List Chunk):Prop where
 bytes:cs.flatMap Chunk.bytes=(List.range n).map fun k=>(data.start+(offset+k)/512,(offset+k)%512)
 inside:∀c∈cs,c.Inside data

structure Fits (data:InodeDisk)(devSize:ℕ):Prop where
 nonneg:0≤data.length
 bound:data.length≤2^31-1-511
 device:data.start+bytesToSectors data.length≤devSize
 sectors:devSize<2^32

variable {devSize:ℕ}

lemma Fits.last (fits:Fits data devSize){pos:ℕ}(inside:pos<data.length):
 data.start+pos/512<data.start+bytesToSectors data.length:=by
 rw[bytesToSectors_eq fits.nonneg (by have:=fits.bound;omega)]
 omega

lemma Fits.sector (fits:Fits data devSize){pos:ℕ}(inside:pos<data.length):
 byteToSector data pos=data.start+pos/512:=by
 have last:=fits.last inside
 have device:=fits.device
 have sectors:=fits.sectors
 rw[byteToSector,if_pos inside,Nat.mod_eq_of_lt (by omega)]

lemma chunkList_covers (fits:Fits data devSize){turns size offset:ℕ}(enough:size<turns):
 Covers data offset (readable data size offset) (chunkList data turns size offset):=by
 induction turns generalizing size offset with
 | zero=>omega
 | succ turns ih=>
  unfold chunkList
  have short:=chunkSize_le data size offset
  by_cases none:chunkSize data size offset=0
  · rw[if_pos none,readable_of_chunk_zero none]
    exact ⟨rfl,fun c mem=>absurd mem not_mem_nil⟩
  · rw[if_neg none]
    have inside:=lt_length_of_chunk (Nat.pos_of_ne_zero none)
    have sector:=fits.sector inside
    have ends:offset%512+chunkSize data size offset≤512:=by
     unfold chunkSize
     omega
    have later:Covers data (offset+chunkSize data size offset) _
      (chunkList data turns (size-chunkSize data size offset) _):=ih (by omega)
    constructor
    · rw[flatMap_cons,later.bytes,readable_chunk size offset,range_add,map_append,List.map_map]
      refine congrArg₂ (· ++ ·) ?_ ?_
      · apply map_congr_left
        intro k bound
        have small:k<chunkSize data size offset:=mem_range.1 bound
        dsimp only
        exact Prod.ext (by omega) (by omega)
      · apply map_congr_left
        intro k _
        simp only[Function.comp,Nat.add_assoc]
    · intro c mem
      rcases mem_cons.1 mem with rfl|mem
      · have last:=fits.last inside
        refine ⟨?_,?_,?_,?_,?_⟩
        · dsimp only
          omega
        · exact Int.natCast_nonneg _
        · dsimp only
          omega
        · dsimp only
          omega
        · dsimp only
          omega
      · exact later.inside c mem

variable {d:Device}{fs:Fs}{p:ℕ}{inode:Inode}

def moved (data:InodeDisk)(size offset:ℤ):ℤ:=min (max size 0) (max 0 (data.length-offset))
lemma readable_moved (size:ℤ)(offset:ℕ):
 (readable data size.toNat offset:ℤ)=moved data size offset:=by
 unfold readable moved
 omega
def posOf (fs:Fs)(f:ℕ):Option ℤ:=(KeyedList.find File.id f fs.files).map File.pos

structure Exact (fs:Fs)(p:ℕ)(data:InodeDisk)(size:ℤ)(offset:ℕ):Prop where
 chunks:∃cs,inodeChunks data size offset=.ok (cs,moved data size offset) ∧
  Covers data offset (moved data size offset).toNat cs ∧
  (∀io,readLoop io data (size.toNat+1) size.toNat offset=readChunks io cs) ∧
  ∀io buffer,writeLoop io data buffer (size.toNat+1) size.toNat offset 0 false=
   writeChunks io buffer cs 0 false
 range:offset+moved data size offset<2^31
 reads:Holds (inodeReadAt cached p size offset) fs
  (fun bytes _=>bytes.length=moved data size offset) NoFault
 writes:∀buffer,Holds (inodeWriteAt cached p buffer size offset) fs
  (fun n _=>n=moved data size offset) NoFault
 fileReads:∀f file,KeyedList.find File.id f fs.files=some file → file.inode=p →
  file.pos=offset → Holds (fileRead cached f size) fs (fun bytes fs'=>
   bytes.length=moved data size offset ∧ posOf fs' f=some (offset+moved data size offset)) NoFault
 fileWrites:∀f file buffer,KeyedList.find File.id f fs.files=some file → file.inode=p →
  file.pos=offset → Holds (fileWrite cached f buffer size) fs (fun n fs'=>
   n=moved data size offset ∧ posOf fs' f=some (offset+moved data size offset)) NoFault

lemma writeChunk_cached (inv:Inv d)(memory:∀n,d.mallocOk n=true){sector:ℕ}
 (range:sector<d.size)(ofs n:ℕ)(bytes:ℕ→UInt8):
 Holds (writeChunk cached sector ofs n bytes) d (fun _ d'=>Inv d' ∧ SameDevice d d') NoFault:=by
 have store (b:Sector):Holds (cached.store sector b) d
   (fun _ d'=>Inv d' ∧ SameDevice d d') NoFault:=by
  refine (cacheAndWriteBlock_spec inv sector b).mono ?_ ?_
  · rintro - d' ⟨inv',d₂,b',writes⟩
    exact ⟨inv',writes.same⟩
  · rintro e (⟨-,outside⟩|⟨-,k,none⟩)
    · omega
    · rw[memory] at none
      cases none
 unfold writeChunk
 split
 · exact store _
 · split
   · rw[holds_bind,holds_blockRead,if_pos range]
     exact store _
   · exact store _

lemma writeLoop_counts (inv:Inv d)(memory:∀n,d.mallocOk n=true)
 (fits:Fits data d.size)(buffer:ℕ→UInt8)(size offset:ℕ):
 Holds (writeLoop cached data buffer (size+1) size offset 0 false) d
  (fun n _=>n=readable data size offset) NoFault:=by
 -- What is left to write is what the inode has from the next byte on.
 refine (writeLoop_rest (J:=fun w d'=>(Inv d' ∧ SameDevice d d') ∧
  readable data size offset=w+readable data (size-w) (offset+w)) ?_ ?_ (size+1) 0
  false ⟨⟨inv,.refl d⟩,by simp⟩ (Nat.lt_succ_self _)).imp ?_
 · rintro w d₁ ⟨⟨inv₁,same⟩,rest⟩
   exact ⟨⟨⟨inv₁.wf,inv₁.limit,inv₁.range⟩,same.size,same.clock,same.mallocOk⟩,rest⟩
 · rintro w d₁ n ⟨⟨inv₁,same⟩,rest⟩ hn positive
   have inside:=lt_length_of_chunk (hn▸positive)
   have range:byteToSector data (offset+w)<d₁.size:=by
    have last:=fits.last inside
    have device:=fits.device
    rw[fits.sector inside,same.size]
    omega
   refine (writeChunk_cached inv₁ (by rwa[same.mallocOk]) range _ _ _).imp ?_
   rintro - d₂ ⟨inv₂,same₂⟩
   refine ⟨⟨inv₂,same.trans same₂⟩,?_⟩
   have split:readable data (size-w) (offset+w)=_:=readable_chunk _ _
   rw[←hn,Nat.sub_sub,Nat.add_assoc] at split
   omega
 · rintro n d' ⟨⟨-,rest⟩,done|⟨d₁,⟨⟨-,same⟩,-⟩,none⟩⟩
   · rw[rest,readable_of_chunk_zero done]
     rfl
   · rw[same.mallocOk,memory] at none
     cases none

lemma inodeWriteAt_counts (inv:Inv fs.dev)(memory:∀n,fs.dev.mallocOk n=true)
 (found:fs.inodes.find p=some inode)(allowed:inode.denyWriteCnt=0)
 (fits:Fits inode.data fs.dev.size)(buffer:ℕ→UInt8)(size:ℤ)(offset:ℕ):
 Holds (inodeWriteAt cached p buffer size offset) fs
  (fun n _=>n=moved inode.data size offset) NoFault:=by
 unfold inodeWriteAt
 rw[holds_bind,holds_theInode found,if_neg (by simpa using allowed),holds_onDevice]
 refine (writeLoop_counts inv memory fits buffer size.toNat offset).imp ?_
 rintro n d' rfl
 exact readable_moved size offset

lemma holds_setPos {f:ℕ}{file:File}{pos:ℤ}
 (found:KeyedList.find File.id f fs.files=some file){E:Fault→Prop}:
 Holds (setPos f pos) fs (fun _ fs'=>posOf fs' f=some pos) E:=by
 change (KeyedList.find File.id f (KeyedList.set File.id f _ fs.files)).map File.pos=some pos
 rw[KeyedList.find_set,found]
 · rfl
 · intro file
   rfl

lemma inodeReadAt_counts (inv:Inv fs.dev)(found:fs.inodes.find p=some inode)
 (fits:Fits inode.data fs.dev.size)(size:ℤ)(offset:ℕ):
 Holds (inodeReadAt cached p size offset) fs
  (fun bytes _=>bytes.length=moved inode.data size offset) NoFault ↔
 ∀k:ℕ,k < moved inode.data size offset →
  (fs.dev.cached (inode.data.start+(offset+k)/512)).isSome:=by
 have spec:=inodeReadAt_hits inv found size offset
 have sector:∀k<readable inode.data size.toNat offset,
   byteToSector inode.data (offset+k)=inode.data.start+(offset+k)/512:=by
  intro k bound
  refine fits.sector ?_
  unfold readable at bound
  omega
 have count:(readable inode.data size.toNat offset:ℤ)=_:=readable_moved size offset
 constructor
 · intro returns k bound
   obtain ⟨bytes,fs',run,-⟩:=returns.returns
   have small:k<readable inode.data size.toNat offset:=by omega
   rw[←sector k small]
   exact (spec.ok run).1 k small
 · intro hits
   refine spec.mono ?_ ?_
   · rintro bytes fs' ⟨-,rfl,-⟩
     rw[length_map,length_range,count]
   · rintro e ⟨k,bound,miss⟩
     have hit:=hits k (by omega)
     rw[←sector k bound,miss] at hit
     cases hit

lemma files_of_tables {fs fs':Fs}(h:tables fs'=tables fs):fs'.files=fs.files:=
 congrArg (fun t=>t.2.1) h

lemma chunks_exact (fits:Fits data d.size){size:ℤ}(word:size<2^31){offset:ℕ}(small:offset<2^31):
 ∃cs,inodeChunks data size offset=.ok (cs,moved data size offset) ∧
  Covers data offset (moved data size offset).toNat cs ∧
  (∀io,readLoop io data (size.toNat+1) size.toNat offset=readChunks io cs) ∧
  ∀io buffer,writeLoop io data buffer (size.toNat+1) size.toNat offset 0 false=
   writeChunks io buffer cs 0 false:=by
 have enough:size.toNat<size.toNat+1:=Nat.lt_succ_self _
 have bound:=fits.bound
 have count:(readable data size.toNat offset:ℤ)=_:=readable_moved size offset
 refine ⟨chunkList data (size.toNat+1) size.toNat offset,?_,?_,?_,?_⟩
 · have steps:chunksFrom data (size.toNat+1) size.toNat offset (0:ℕ)=_:=
    chunksFrom_natCast fits.nonneg (by omega) enough small (by omega)
   rw[Nat.zero_add,count] at steps
   rw[inodeChunks,←steps]
   by_cases positive:0 ≤ size
   · rw[Int.toNat_of_nonneg positive]
     rfl
   · have none:size.toNat=0:=by omega
     rw[none]
     unfold chunksFrom
     rw[if_neg (by omega),if_neg (by decide)]
     rfl
 · rw[←count,Int.toNat_natCast]
   exact chunkList_covers fits enough
 · intro io
   exact readLoop_chunks io enough
 · intro io buffer
   exact writeLoop_chunks io buffer enough

/-- The arithmetic of the loops is exact for every request. The calls return exactly if no sector
is missing in the cache, where `inode_read_at` uses a null pointer. -/
theorem chunking_exact_iff (inv:Inv fs.dev)(memory:∀n,fs.dev.mallocOk n=true)
 (found:fs.inodes.find p=some inode)(allowed:inode.denyWriteCnt=0)
 (fits:Fits inode.data fs.dev.size){size:ℤ}(word:-2^31 ≤ size ∧ size<2^31)
 {offset:ℕ}(small:offset<2^31):
 Exact fs p inode.data size offset ↔ ∀k:ℕ,k < moved inode.data size offset →
   (fs.dev.cached (inode.data.start+(offset+k)/512)).isSome:=by
 have reading:=inodeReadAt_counts inv found fits size offset
 constructor
 · intro exact
   exact reading.1 exact.reads
 · intro hits
   have reads:=reading.2 hits
   have writes:=fun buffer=>inodeWriteAt_counts inv memory found allowed fits buffer size offset
   refine ⟨chunks_exact fits word.2 small,?_,reads,writes,?_,?_⟩
   · have bound:=fits.bound
     unfold moved
     omega
   · rintro f file opened rfl there
     unfold fileRead
     rw[holds_bind,holds_theFile opened,there,Int.toNat_natCast]
     refine (reads.and (keeps_inodeReadAt (v:=tables) _ size offset fs)).seq ?_
     rintro bytes fs₁ ⟨count,kept⟩
     refine (holds_setPos (by rwa[files_of_tables kept])).seq ?_
     intro _ fs₂ moves
     exact ⟨count,by rw[←count];exact moves⟩
   · rintro f file buffer opened rfl there
     unfold fileWrite
     rw[holds_bind,holds_theFile opened,there,Int.toNat_natCast]
     refine ((writes buffer).and (keeps_inodeWriteAt (v:=tables) _ buffer size offset fs)).seq ?_
     rintro n fs₁ ⟨count,kept⟩
     refine (holds_setPos (by rwa[files_of_tables kept])).seq ?_
     intro _ fs₂ moves
     exact ⟨count,by rw[←count];exact moves⟩

lemma oneInode_fits {dev:Device}(size:dev.size=100):Fits ⟨5,512,inodeMagic⟩ dev.size:=by
 rw[size]
 exact ⟨by decide,by decide,by decide,by decide⟩

/-- With an empty cache the first byte of a file cannot be read. -/
theorem chunking_misses:¬Exact (oneInode (blankDevice id) 512) 0 ⟨5,512,inodeMagic⟩ 1 0:=by
 intro all
 have reading:=@inodeReadAt_counts (oneInode (blankDevice id) 512) 0
  ⟨0,4,1,false,0,⟨5,512,inodeMagic⟩⟩ (blankDevice_inv id) rfl (oneInode_fits rfl) 1 0
 have hit:=reading.1 all.reads 0 (by decide)
 exact absurd hit (by decide)

theorem chunking_exact_cached:∃dev,Exact (oneInode dev 512) 0 ⟨5,512,inodeMagic⟩ (2^31-1) 10:=by
 have empty:=coherent_of_empty (d:=blankDevice id) rfl
 obtain ⟨b,dev,run,-,-,hit⟩:=empty.fill (fun _=>rfl) (s:=5) (by decide) (by decide)
 obtain ⟨inv,d₁,fills⟩:=(cacheBlockFromSector_spec empty.toInv (s:=5) (by decide)).ok run
 refine ⟨dev,(@chunking_exact_iff (oneInode dev 512) 0
  ⟨0,4,1,false,0,⟨5,512,inodeMagic⟩⟩ inv ?_ rfl rfl (oneInode_fits fills.same.size)
  (2^31-1) (by decide) 10 (by decide)).2 ?_⟩
 · intro n
   exact congrFun fills.same.mallocOk n
 · intro k bound
   have small:k<502:=by
    have:(k:ℤ)<502:=bound
    omega
   have sector:5+(10+k)/512=5:=by omega
   change (dev.cached (5+(10+k)/512)).isSome=true
   rw[sector,hit]
   rfl

end Pintos.InodeChunks
