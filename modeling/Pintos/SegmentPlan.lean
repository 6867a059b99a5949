import Pintos.CheckedWords
import Pintos.ElfImage

/-!
# The arithmetic of load and load_segment

What `load` computes for a program header, with the 32-bit integers of the source, where an
overflow is an error.
-/
namespace Pintos.SegmentPlan
open ExecHoare Interaction Paging PageMaps Process ElfImage CheckedWords

/-- `ROUND_UP (x, PGSIZE)`. -/
def roundUpWord (x:ℤ):Except Trap ℤ:=do
 let sum←uint32 (x+pgSize)
 let last←uint32 (sum-1)
 uint32 (last/pgSize*pgSize)

structure Args where
 ofs:ℤ
 upage:ℤ
 readBytes:ℤ
 zeroBytes:ℤ
 deriving DecidableEq,Repr

/-- `file_page` is passed as an `off_t`. -/
def segmentArgs (h:Phdr):Except Trap Args:=do
 let filePage←uint32 (h.offset/pgSize*pgSize:ℕ)
 let memPage←uint32 (h.vaddr/pgSize*pgSize:ℕ)
 let pageOffset:=h.vaddr%pgSize
 if 0<h.filesz then
  let readBytes←uint32 (pageOffset+h.filesz:ℕ)
  let memory←uint32 (pageOffset+h.memsz:ℕ)
  let zeroBytes←uint32 ((← roundUpWord memory)-readBytes)
  return ⟨← int32 filePage,memPage,readBytes,zeroBytes⟩
 else
  let memory←uint32 (pageOffset+h.memsz:ℕ)
  let zeroBytes←roundUpWord memory
  return ⟨← int32 filePage,memPage,0,zeroBytes⟩

def Asserted (args:Args):Prop:=
 (args.readBytes+args.zeroBytes)%pgSize=0 ∧ args.upage%pgSize=0 ∧ args.ofs%pgSize=0

/-- A page of `load_segment`, and how much of it is read from the file. -/
structure Turn where
 upage:ℤ
 readBytes:ℤ
 deriving DecidableEq,Repr

def turnsFrom:ℕ→ℤ→ℤ→ℤ→Except Trap (List Turn)
 | 0,_,_,_=>.error .endless
 | turns+1,upage,readBytes,zeroBytes=>
  if 0<readBytes ∨ 0<zeroBytes then do
   let pageReadBytes:=if readBytes<pgSize then readBytes else pgSize
   let pageZeroBytes←uint32 (pgSize-pageReadBytes)
   let readBytes←uint32 (readBytes-pageReadBytes)
   let zeroBytes←uint32 (zeroBytes-pageZeroBytes)
   let next←uint32 (upage+pgSize)
   let rest←turnsFrom turns next readBytes zeroBytes
   return ⟨upage,pageReadBytes⟩::rest
  else return []

/-- The turns of the loop, after the sum of the first `ASSERT`. -/
def segmentTurns (args:Args):Except Trap (List Turn):=do
 let _←uint32 (args.readBytes+args.zeroBytes)
 turnsFrom (2^20+1) args.upage args.readBytes args.zeroBytes

def loadTurns (file:Option ℕ)(writable:Bool):List Turn→Proc Bool
 | []=>return true
 | t::rest=>do
  if←loadPage file (UInt32.ofNat t.upage.toNat) t.readBytes.toNat writable then
   loadTurns file writable rest
  else return false
variable {h:Phdr}{c:Content}

lemma roundUpWord_natCast {x:ℕ}(small:x+pgSize<2^32):roundUpWord x=.ok (roundUp x:ℕ):=by
 have sum:uint32 ((x:ℤ)+pgSize)=.ok (x+pgSize:ℕ):=uint32_of_lt small
 have positive:1≤x+pgSize:=by
  unfold pgSize
  omega
 have last:((x+pgSize:ℕ):ℤ)-1=(x+pgSize-1:ℕ):=by omega
 have whole:((x+pgSize-1:ℕ):ℤ)/pgSize*pgSize=((x+pgSize-1)/pgSize*pgSize:ℕ):=by
  rw[Int.natCast_mul,Int.natCast_ediv]
 have below:=Nat.div_mul_le_self (x+pgSize-1) pgSize
 have same:roundUp x=(x+pgSize-1)/pgSize*pgSize:=by
  rw[roundUp,Nat.mod_eq_of_lt (by omega)]
 unfold roundUpWord
 rw[sum,ok_bind,last,uint32_of_lt (by omega),ok_bind,whole,uint32_of_lt (by omega),same]

lemma filePage_lt (memsz:h.memsz<2^32)(valid:validateSegment h c.length=true):
 h.offset/pgSize*pgSize<2^31:=by
 obtain ⟨-,offset,-⟩:=validated memsz valid
 exact (Nat.div_mul_le_self ..).trans_lt (offset.trans_lt c.short)

lemma segmentArgs_valid (memsz:h.memsz<2^32)(valid:validateSegment h c.length=true):
 segmentArgs h=.ok ⟨(h.offset/pgSize*pgSize:ℕ),(firstPage h*pgSize:ℕ),h.amounts.1,h.amounts.2⟩:=by
 obtain ⟨-,-,filesz,-,vaddr,-⟩:=validated memsz valid
 have file:=filePage_lt memsz valid
 have top:h.vaddr+h.memsz<3221225472:=vaddr
 have page:h.vaddr/pgSize*pgSize<2^32:=by
  have:=Nat.div_mul_le_self h.vaddr pgSize
  omega
 have memory:h.vaddr%pgSize+h.memsz+pgSize<2^32:=by
  unfold pgSize
  omega
 have total:h.vaddr%pgSize+h.memsz≤roundUp (h.vaddr%pgSize+h.memsz) ∧
   roundUp (h.vaddr%pgSize+h.memsz)<2^32:=by
  unfold roundUp pgSize at *
  omega
 have sum:(h.vaddr%pgSize+h.memsz)%2^32=h.vaddr%pgSize+h.memsz:=Nat.mod_eq_of_lt (by omega)
 have read:(h.vaddr%pgSize+h.filesz)%2^32=h.vaddr%pgSize+h.filesz:=Nat.mod_eq_of_lt (by omega)
 unfold segmentArgs Phdr.amounts
 dsimp only
 rw[uint32_of_lt (by omega),ok_bind,uint32_of_lt page,ok_bind,sum]
 by_cases some_:0<h.filesz
 · rw[if_pos some_,if_pos some_,uint32_of_lt (by omega),ok_bind,uint32_of_lt (by omega),
    ok_bind,roundUpWord_natCast memory,ok_bind,read]
   have left:((roundUp (h.vaddr%pgSize+h.memsz):ℕ):ℤ)-(h.vaddr%pgSize+h.filesz:ℕ)=
     ((roundUp (h.vaddr%pgSize+h.memsz)+2^32-(h.vaddr%pgSize+h.filesz))%2^32:ℕ):=by
    omega
   rw[left,uint32_of_lt (Nat.mod_lt _ (by decide)),ok_bind,int32_of_lt file]
   rfl
 · rw[if_neg some_,if_neg some_,uint32_of_lt (by omega),ok_bind,roundUpWord_natCast memory,
    ok_bind,int32_of_lt file]
   rfl

variable {n k readBytes zeroBytes:ℕ}

def turnList:ℕ→ℕ→ℕ→List Turn
 | _,0,_=>[]
 | n,k+1,readBytes=>
  ⟨(n*pgSize:ℕ),(min readBytes pgSize:ℕ)⟩::turnList (n+1) k (readBytes-min readBytes pgSize)

lemma turnsFrom_pages {turns:ℕ}(inside:n+k≤userLimit)
 (sum:readBytes+zeroBytes=pgSize*k)(enough:k<turns):
 turnsFrom turns (n*pgSize:ℕ) readBytes zeroBytes=.ok (turnList n k readBytes):=by
 induction turns generalizing n k readBytes zeroBytes with
 | zero=>omega
 | succ turns ih=>
  unfold turnsFrom
  cases k with
  | zero=>rw[if_neg (by omega)];rfl
  | succ k=>
   have some_:0<(readBytes:ℤ) ∨ 0<(zeroBytes:ℤ):=by
    unfold pgSize at sum
    omega
   have page:(if (readBytes:ℤ)<pgSize then (readBytes:ℤ) else pgSize)=(min readBytes pgSize:ℕ):=by
    split<;>omega
   have zeros:(pgSize:ℤ)-(min readBytes pgSize:ℕ)=(pgSize-min readBytes pgSize:ℕ):=by
    omega
   have fits:pgSize-min readBytes pgSize≤zeroBytes:=by
    unfold pgSize at *
    omega
   have next:(n*pgSize:ℕ)+(pgSize:ℤ)=((n+1)*pgSize:ℕ):=by
    rw[Nat.succ_mul]
    rfl
   have low:(n+1)*pgSize<2^32 ∧ readBytes<2^32 ∧ zeroBytes<2^32:=by
    unfold userLimit at inside
    unfold pgSize at *
    omega
   rw[if_pos some_]
   dsimp only
   rw[page,zeros,uint32_of_lt (by omega),ok_bind,
    ← Int.natCast_sub (Nat.min_le_left ..),uint32_of_lt (by omega),ok_bind,
    ← Int.natCast_sub fits,uint32_of_lt (by omega),ok_bind,next,uint32_of_lt low.1,ok_bind,
    ih (k:=k) (by omega) ?_ (by omega)]
   · rfl
   · unfold pgSize at *
     omega

lemma mem_turnList {t:Turn}(mem:t∈turnList n k readBytes):∃i<k,t.upage=((n+i)*pgSize:ℕ):=by
 induction k generalizing n readBytes with
 | zero=>cases mem
 | succ k ih=>
  rcases List.mem_cons.1 mem with rfl|mem
  · exact ⟨0,Nat.succ_pos k,rfl⟩
  · obtain ⟨i,inside,place⟩:=ih mem
    refine ⟨i+1,Nat.succ_lt_succ inside,?_⟩
    rw[place,Nat.add_right_comm,Nat.add_assoc]

lemma pageAddr_succ (n:ℕ):pageAddr n+UInt32.ofNat pgSize=pageAddr (n+1):=by
 rw[pageAddr,pageAddr,←UInt32.ofNat_add,Nat.succ_mul]

lemma amounts_left (inside:k+1≤userLimit)(sum:readBytes+zeroBytes=pgSize*(k+1)):
 readBytes-min readBytes pgSize+(zeroBytes+2^32-(pgSize-min readBytes pgSize))%2^32=pgSize*k:=by
 unfold userLimit at inside
 unfold pgSize at *
 omega

lemma loadPages_turns (file:Option ℕ)(w:Bool){turns:ℕ}(inside:n+k≤userLimit)
 (sum:readBytes+zeroBytes=pgSize*k)(enough:k<turns):
 loadPages file w turns (pageAddr n) readBytes zeroBytes=
  loadTurns file w (turnList n k readBytes):=by
 induction turns generalizing n k readBytes zeroBytes with
 | zero=>omega
 | succ turns ih=>
  unfold loadPages
  cases k with
  | zero=>rw[if_pos (by omega)];rfl
  | succ k=>
   have some_:¬(readBytes=0 ∧ zeroBytes=0):=by
    unfold pgSize at sum
    omega
   rw[if_neg some_,turnList,loadTurns,Int.toNat_natCast,Int.toNat_natCast]
   dsimp only
   rw[pageAddr_succ,ih (by omega) (amounts_left (by omega) sum) (by omega)]
   rfl

lemma loadSegment_turns (memsz:h.memsz<2^32)(valid:validateSegment h c.length=true)
 (file:Option ℕ)(w:Bool):
 loadSegment file (toInt (h.offset/pgSize*pgSize))
   (UInt32.ofNat (h.vaddr/pgSize*pgSize)) h.amounts.1 h.amounts.2 w=(do
  fileSeek file (h.offset/pgSize*pgSize:ℕ)
  loadTurns file w (turnList (firstPage h) (pageCount h) h.amounts.1)):=by
 obtain ⟨sum,top⟩:=amounts_sum memsz valid
 obtain ⟨-,-,-,-,vaddr,-⟩:=validated memsz valid
 have first:firstPage h<userLimit:=Nat.div_lt_of_lt_mul (by rw[Nat.mul_comm];omega)
 have start:toInt (h.offset/pgSize*pgSize)=(h.offset/pgSize*pgSize:ℕ):=by
  rw[toInt,if_pos (filePage_lt memsz valid)]
 have page:UInt32.ofNat (h.vaddr/pgSize*pgSize)=pageAddr (firstPage h):=rfl
 have whole:¬((h.amounts.1+h.amounts.2)%2^32%pgSize≠0 ∨ pgOfs (pageAddr (firstPage h))≠0 ∨
   ((h.offset/pgSize*pgSize:ℕ):ℤ)%pgSize≠0):=by
  rw[pgOfs_pageAddr first,sum]
  unfold userLimit pgSize at *
  omega
 unfold loadSegment
 rw[start,page,if_neg whole,loadPages_turns file w top sum (by unfold userLimit at top;omega)]

/-- For this header nothing overflows in `load` and `load_segment`, the `ASSERT`s hold, and
`load_segment` installs pages between `PGSIZE` and `PHYS_BASE` only. -/
def Planned (h:Phdr):Prop:=
 ∃args turns,segmentArgs h=.ok args ∧ Asserted args ∧ segmentTurns args=.ok turns ∧
  (∀t∈turns,pgSize≤t.upage ∧ t.upage+pgSize≤physBase.toNat) ∧
  ∀file w,loadSegment file (toInt (h.offset/pgSize*pgSize))
    (UInt32.ofNat (h.vaddr/pgSize*pgSize)) h.amounts.1 h.amounts.2 w=(do
   fileSeek file args.ofs
   loadTurns file w turns)

lemma planned (memsz:h.memsz<2^32)(valid:validateSegment h c.length=true):Planned h:=by
 obtain ⟨sum,top⟩:=amounts_sum memsz valid
 obtain ⟨-,-,-,-,-,low⟩:=validated memsz valid
 have first:1≤firstPage h:=(Nat.one_le_div_iff (by decide)).2 low
 have total:uint32 ((h.amounts.1:ℤ)+h.amounts.2)=.ok (h.amounts.1+h.amounts.2:ℕ):=by
  refine uint32_of_lt ?_
  unfold userLimit pgSize at *
  omega
 refine ⟨_,turnList (firstPage h) (pageCount h) h.amounts.1,segmentArgs_valid memsz valid,?_,
  ?_,?_,loadSegment_turns memsz valid⟩
 · unfold Asserted
   dsimp only
   rw[←Int.natCast_add,sum]
   unfold pgSize
   omega
 · unfold segmentTurns
   rw[total,ok_bind,turnsFrom_pages top sum (by unfold userLimit at top;omega)]
 · intro t mem
   obtain ⟨i,inside,place⟩:=mem_turnList mem
   have base:physBase.toNat=3221225472:=rfl
   rw[place,base]
   unfold userLimit at top
   unfold pgSize
   omega

end Pintos.SegmentPlan
