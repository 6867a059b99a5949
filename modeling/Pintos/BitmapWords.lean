import Mathlib.Data.List.Range
import Pintos.ByteWords

/-! The bitmap of `lib/kernel/bitmap.c` as an array of words. -/
namespace Pintos.BitmapWords
open ByteWords List

def elemIdx (i:ℕ):ℕ:=i/32
def bitMask (i:ℕ):BitVec 32:=1#32 <<< (i%32)

/-- `DIV_ROUND_UP` in a `size_t`. -/
def elemCnt (n:ℕ):ℕ:=(n+31)%2^32/32

def byteCnt (n:ℕ):ℕ:=4*elemCnt n%2^32

/-- `struct bitmap`, with memory for all of its bits. -/
structure Words where
 bitCnt:ℕ
 bits:List (BitVec 32)
 stored:bits.length=elemCnt bitCnt
 room:bitCnt≤32*bits.length
 deriving DecidableEq

def Words.modify (b:Words)(i:ℕ)(f:BitVec 32 → BitVec 32):Words where
 bitCnt:=b.bitCnt
 bits:=b.bits.modify i f
 stored:=(length_modify ..).trans b.stored
 room:=b.room.trans (Nat.mul_le_mul_left 32 (length_modify ..).ge)

def lastMask (b:Words):BitVec 32:=
 if b.bitCnt%32≠0 then (1#32 <<< (b.bitCnt%32))-1#32 else BitVec.allOnes 32
def bitmapMark (b:Words)(i:ℕ):Words:=b.modify (elemIdx i) (· ||| bitMask i)
def bitmapReset (b:Words)(i:ℕ):Words:=b.modify (elemIdx i) (· &&& ~~~bitMask i)
def bitmapSet (b:Words)(i:ℕ)(value:Bool):Option Words:=do
 guard (i<b.bitCnt)
 return if value then bitmapMark b i else bitmapReset b i
def bitmapTest (b:Words)(i:ℕ):Option Bool:=do
 guard (i<b.bitCnt)
 return b.bits.getD (elemIdx i) 0 &&& bitMask i != 0
def inRange (b:Words)(start cnt:ℕ):Option Unit:=do
 guard (start≤b.bitCnt)
 guard ((start+cnt)%2^32≤b.bitCnt)
def bitmapSetMultiple (b:Words)(start cnt:ℕ)(value:Bool):Option Words:=do
 inRange b start cnt
 (List.range cnt).foldlM (fun b i=>bitmapSet b (start+i) value) b
def bitmapCount (b:Words)(start cnt:ℕ)(value:Bool):Option ℕ:=do
 inRange b start cnt
 (List.range cnt).foldlM (fun n i=>do
  return if (← bitmapTest b (start+i))=value then n+1 else n) 0

def containsFrom (b:Words)(value:Bool):ℕ→ℕ→Option Bool
 | 0,_=>some false
 | turns+1,i=>do
  if (← bitmapTest b i)=value then return true
  containsFrom b value turns (i+1)

def bitmapContains (b:Words)(start cnt:ℕ)(value:Bool):Option Bool:=do
 inRange b start cnt
 containsFrom b value cnt start
def bitmapError:ℕ:=2^32-1

def scanFrom (b:Words)(cnt:ℕ)(value:Bool):ℕ→ℕ→Option ℕ
 | 0,_=>some bitmapError
 | turns+1,i=>do
  if !(← bitmapContains b i cnt (!value)) then return i
  scanFrom b cnt value turns (i+1)

def bitmapScan (b:Words)(start cnt:ℕ)(value:Bool):Option ℕ:=do
 guard (start≤b.bitCnt)
 if cnt≤b.bitCnt then
  let last:=b.bitCnt-cnt
  scanFrom b cnt value (last+1-start) start
 else
  return bitmapError

def bitmapScanAndFlip (b:Words)(start cnt:ℕ)(value:Bool):Option (ℕ×Words):=do
 let idx←bitmapScan b start cnt value
 if idx≠bitmapError then
  return (idx,←bitmapSetMultiple b idx cnt (!value))
 else
  return (idx,b)

section

variable {b b':Words}{i j start cnt:ℕ}{value:Bool}

def Words.bit (b:Words)(i:ℕ):Bool:=(b.bits.getD (elemIdx i) 0).getLsbD (i%32)

lemma Words.bitCnt_lt (b:Words):b.bitCnt<bitmapError:=by
 have stored:=b.stored
 have room:=b.room
 unfold elemCnt at stored
 unfold bitmapError
 omega

lemma Words.idx_lt (b:Words)(hi:i<b.bitCnt):elemIdx i<b.bits.length:=by
 have room:=b.room
 unfold elemIdx
 omega
lemma getLsbD_bitMask (i k:ℕ):(bitMask i).getLsbD k=decide (i%32=k):=by
 have small:i%32<32:=Nat.mod_lt i (by decide)
 rw[bitMask,←BitVec.twoPow_eq,BitVec.getLsbD_twoPow,decide_eq_true small,Bool.true_and]

lemma bit_modify {k:ℕ}(hk:k<b.bits.length)(f:BitVec 32 → BitVec 32)(j:ℕ):(b.modify k f).bit j=
  if elemIdx j=k then (f (b.bits.getD k 0)).getLsbD (j%32) else b.bit j:=by
 unfold Words.bit Words.modify
 simp only[getD_eq_getElem?_getD,getElem?_modify]
 by_cases same:elemIdx j=k
 · subst same
   simp[hk]
 · simp[same,Ne.symm same]

lemma bitmapTest_eq (hi:i<b.bitCnt):bitmapTest b i=some (b.bit i):=by
 have masked:b.bits.getD (elemIdx i) 0 &&& bitMask i=if b.bit i then bitMask i else 0:=by
  rw[bitMask,←BitVec.twoPow_eq,BitVec.and_twoPow]
  rfl
 have nonzero:bitMask i≠0#32:=by
  intro zero
  have top:=getLsbD_bitMask i (i%32)
  simp[zero] at top
 unfold bitmapTest
 rw[masked]
 cases b.bit i<;>simp[hi,guard,nonzero]

lemma bitmapSet_spec (hi:i<b.bitCnt)(value:Bool):
 ∃b',bitmapSet b i value=some b' ∧ b'.bitCnt=b.bitCnt ∧
  ∀j,b'.bit j=if j=i then value else b.bit j:=by
 refine ⟨if value then bitmapMark b i else bitmapReset b i,by simp[bitmapSet,hi,guard],
  by cases value<;>rfl,fun j=>?_⟩
 have small:j%32<32:=Nat.mod_lt j (by decide)
 have place:j=i ↔ elemIdx j=elemIdx i ∧ i%32=j%32:=by
  unfold elemIdx
  omega
 have here:elemIdx j=elemIdx i →
   (b.bits.getD (elemIdx i) 0).getLsbD (j%32)=b.bit j:=fun same=>same▸rfl
 cases value with
 | true=>
  rw[if_pos rfl,bitmapMark,bit_modify (b.idx_lt hi),BitVec.getLsbD_or,getLsbD_bitMask]
  by_cases same:elemIdx j=elemIdx i<;>by_cases bit:i%32=j%32<;>simp_all
 | false=>
  rw[if_neg Bool.false_ne_true,bitmapReset,bit_modify (b.idx_lt hi),BitVec.getLsbD_and,
   BitVec.getLsbD_not,getLsbD_bitMask]
  by_cases same:elemIdx j=elemIdx i<;>by_cases bit:i%32=j%32<;>simp_all

section
variable (range:start+cnt≤b.bitCnt)
include range

lemma inRange_eq:inRange b start cnt=some ():=by
 have start_le:start≤b.bitCnt:=by omega
 have sum:(start+cnt)%2^32≤b.bitCnt:=by omega
 simp only[inRange,guard,start_le,sum,if_true]
 rfl

lemma setMultiple_spec (value:Bool):
 ∃b',bitmapSetMultiple b start cnt value=some b' ∧ b'.bitCnt=b.bitCnt ∧
  ∀j,b'.bit j=if start≤j ∧ j<start+cnt then value else b.bit j:=by
 have loop:∃b',(List.range cnt).foldlM (fun b i=>bitmapSet b (start+i) value) b=
   some b' ∧ b'.bitCnt=b.bitCnt ∧
   ∀j,b'.bit j=if start≤j ∧ j<start+cnt then value else b.bit j:=by
  induction cnt with
  | zero=>exact ⟨b,rfl,rfl,fun j=>(if_neg (by omega)).symm⟩
  | succ cnt ih=>
   obtain ⟨b₁,run,size,bits⟩:=ih (by omega)
   obtain ⟨b₂,run₂,size₂,bits₂⟩:=bitmapSet_spec (b:=b₁) (i:=start+cnt) (by omega) value
   refine ⟨b₂,?_,size₂.trans size,fun j=>?_⟩
   · rw[range_succ,foldlM_append,run]
     simp[run₂]
   · rw[bits₂,bits]
     split<;>split<;>first | rfl | omega | skip
     all_goals grind
 obtain ⟨b',run,size,bits⟩:=loop
 exact ⟨b',by simp[bitmapSetMultiple,inRange_eq range,run],size,bits⟩

lemma count_spec (value:Bool):bitmapCount b start cnt value=
  some ((List.range cnt).countP fun i=>b.bit (start+i)=value):=by
 have loop:(List.range cnt).foldlM (fun n i=>do
   return if (← bitmapTest b (start+i))=value then n+1 else n) 0=
   some ((List.range cnt).countP fun i=>b.bit (start+i)=value):=by
  induction cnt with
  | zero=>rfl
  | succ cnt ih=>
   rw[range_succ,foldlM_append,ih (by omega),countP_append]
   simp[bitmapTest_eq (b:=b) (i:=start+cnt) (by omega)]
   split<;>rfl
 simp only[bitmapCount,inRange_eq range]
 exact loop

lemma containsFrom_spec (value:Bool):∃r,containsFrom b value cnt start=some r ∧
  (r=true ↔ ∃i,start ≤ i ∧ i<start+cnt ∧ b.bit i=value):=by
 induction cnt generalizing start with
 | zero=>exact ⟨false,rfl,by simp;omega⟩
 | succ cnt ih=>
  have test:=bitmapTest_eq (b:=b) (i:=start) (by omega)
  by_cases here:b.bit start=value
  · refine ⟨true,by simp[containsFrom,test,here],iff_of_true rfl ?_⟩
    exact ⟨start,Nat.le_refl _,by omega,here⟩
  · have range':start+1+cnt≤b.bitCnt:=by omega
    obtain ⟨r,run,iff⟩:=ih range'
    refine ⟨r,by simp[containsFrom,test,here,run],iff.trans (exists_congr fun i=>?_)⟩
    by_cases first:i=start
    · simp[first,here]
    · rw[show start+1 ≤ i ↔ start ≤ i by omega,Nat.add_right_comm,Nat.add_assoc]

lemma contains_spec (value:Bool):∃r,bitmapContains b start cnt value=some r ∧
  (r=true ↔ ∃i,start ≤ i ∧ i<start+cnt ∧ b.bit i=value):=by
 simp only[bitmapContains,inRange_eq range]
 exact containsFrom_spec range value

end

/-- The `cnt` bits from `i` on are there, and all equal `value`. -/
def Group (b:Words)(cnt:ℕ)(value:Bool)(i:ℕ):Prop:=
 i+cnt≤b.bitCnt ∧ ∀j,i≤j → j < i+cnt → b.bit j=value

/-- `r` is the first group from `start` on, or `BITMAP_ERROR` if there is none. -/
def Finds (b:Words)(start cnt:ℕ)(value:Bool)(r:ℕ):Prop:=
 (r=bitmapError ∧ ∀i,start ≤ i → ¬Group b cnt value i) ∨
  (r≠bitmapError ∧ start≤r ∧ Group b cnt value r ∧ ∀i,start ≤ i → i<r → ¬Group b cnt value i)

lemma not_contains_iff (range:start+cnt≤b.bitCnt){r:Bool}
 (iff:r=true ↔ ∃i,start ≤ i ∧ i<start+cnt ∧ b.bit i = !value):
 r=false ↔ Group b cnt value start:=by
 rw[←Bool.not_eq_true,iff]
 unfold Group
 simp only[range,true_and,not_exists,not_and,Bool.not_eq_not]

lemma Finds.later {r:ℕ}(h:Finds b (start+1) cnt value r)
 (none:¬Group b cnt value start):Finds b start cnt value r:=by
 have cover:∀ {i},start ≤ i → (start+1 ≤ i → ¬Group b cnt value i) → ¬Group b cnt value i:=by
  intro i le rest
  by_cases first:i=start
  · rwa[first]
  · exact rest (by omega)
 rcases h with ⟨error,all⟩|⟨ok,le,group,least⟩
 · exact .inl ⟨error,fun i hi=>cover hi (all i)⟩
 · exact .inr ⟨ok,by omega,group,fun i hi lt=>cover hi fun more=>least i more lt⟩

lemma scanFrom_spec (fits:cnt≤b.bitCnt)(value:Bool){turns:ℕ}(all:turns=b.bitCnt-cnt+1-start):
 ∃r,scanFrom b cnt value turns start=some r ∧ Finds b start cnt value r:=by
 induction turns generalizing start with
 | zero=>
  refine ⟨bitmapError,rfl,.inl ⟨rfl,fun i le group=>?_⟩⟩
  have:=group.1
  omega
 | succ turns ih=>
  have range:start+cnt≤b.bitCnt:=by omega
  have rest:turns=b.bitCnt-cnt+1-(start+1):=by omega
  obtain ⟨r,run,iff⟩:=contains_spec range (!value)
  have clear:=not_contains_iff range iff
  cases r with
  | false=>
   have small:=b.bitCnt_lt
   refine ⟨start,by simp[scanFrom,run],.inr ⟨by omega,Nat.le_refl _,clear.1 rfl,?_⟩⟩
   omega
  | true=>
   obtain ⟨r,run',found⟩:=ih rest
   exact ⟨r,by simp[scanFrom,run,run'],found.later fun group=>by cases clear.2 group⟩

lemma scan_spec (hs:start≤b.bitCnt)(cnt:ℕ)(value:Bool):
 ∃r,bitmapScan b start cnt value=some r ∧ Finds b start cnt value r:=by
 by_cases fits:cnt≤b.bitCnt
 · obtain ⟨r,run,found⟩:=scanFrom_spec fits value (Eq.refl (b.bitCnt-cnt+1-start))
   exact ⟨r,by simp[bitmapScan,guard,hs,fits,run],found⟩
 · refine ⟨bitmapError,by simp[bitmapScan,guard,hs,fits],.inl ⟨rfl,fun i _ group=>?_⟩⟩
   have:=group.1
   omega

/-- What the functions on groups of bits do, seen on the bits. -/
structure FirstFit (b:Words):Prop where
 scan:∀start cnt value,start≤b.bitCnt →
  ∃r,bitmapScan b start cnt value=some r ∧ Finds b start cnt value r
 scanAndFlip:∀start cnt value,start≤b.bitCnt →
  ∃r b',bitmapScanAndFlip b start cnt value=some (r,b') ∧
   bitmapScan b start cnt value=some r ∧ b'.bitCnt=b.bitCnt ∧
   ∀j,b'.bit j=if r≠bitmapError ∧ r≤j ∧ j<r+cnt then !value else b.bit j
 setMultiple:∀start cnt value,start+cnt≤b.bitCnt →
  ∃b',bitmapSetMultiple b start cnt value=some b' ∧ b'.bitCnt=b.bitCnt ∧
   ∀j,b'.bit j=if start≤j ∧ j<start+cnt then value else b.bit j
 count:∀start cnt value,start+cnt≤b.bitCnt → bitmapCount b start cnt value=
   some ((List.range cnt).countP fun i=>b.bit (start+i)=value)
 contains:∀start cnt value,start+cnt≤b.bitCnt → ∃r,bitmapContains b start cnt value=some r ∧
   (r=true ↔ ∃i,start ≤ i ∧ i<start+cnt ∧ b.bit i=value)

theorem bitmap_first_fit (b:Words):FirstFit b where
 scan start cnt value hs:=scan_spec hs cnt value
 scanAndFlip start cnt value hs:=by
  obtain ⟨r,run,found⟩:=scan_spec hs cnt value
  rcases found with ⟨rfl,-⟩|⟨ok,-,group,-⟩
  · exact ⟨_,b,by simp[bitmapScanAndFlip,run],run,rfl,by simp⟩
  · obtain ⟨b',set,size,bits⟩:=setMultiple_spec group.1 (!value)
    refine ⟨r,b',by simp[bitmapScanAndFlip,run,ok,set],run,size,fun j=>?_⟩
    rw[bits]
    simp[ok]
 setMultiple start cnt value range:=setMultiple_spec range value
 count start cnt value range:=count_spec range value
 contains start cnt value range:=contains_spec range value

end
def encode (ws:List (BitVec 32)):List UInt8:=
 ws.flatMap fun w=>
  [wordByte w.toNat 0,wordByte w.toNat 1,wordByte w.toNat 2,wordByte w.toNat 3]

def decode:List UInt8→List (BitVec 32)
 | x::y::z::w::rest=>BitVec.ofNat 32 (word x y z w)::decode rest
 | _=>[]

lemma length_encode (ws:List (BitVec 32)):(encode ws).length=4*ws.length:=by
 induction ws with
 | nil=>rfl
 | cons w ws ih=>
  rw[encode,flatMap_cons,length_append]
  change 4+(encode ws).length=_
  rw[ih,length_cons]
  omega

lemma decode_encode (ws:List (BitVec 32)):decode (encode ws)=ws:=by
 induction ws with
 | nil=>rfl
 | cons w ws ih=>
  change BitVec.ofNat 32 (word _ _ _ _)::decode (encode ws)=_
  rw[ih,word_wordByte w.isLt,BitVec.ofNat_toNat,BitVec.setWidth_eq]

lemma length_decode {k:ℕ}:∀ {l:List UInt8},l.length=4*k → (decode l).length=k:=by
 induction k with
 | zero=>
  intro l hl
  rw[length_eq_zero_iff.1 hl]
  rfl
 | succ k ih=>
  intro l hl
  match l,hl with
  | x::y::z::w::rest,hl=>
   rw[decode,length_cons,ih (by simpa[Nat.mul_succ] using hl)]

def fileWriteAt (file data:List UInt8):ℕ×List UInt8:=
 let n:=min data.length file.length
 (n,data.take n++file.drop n)
def fileReadAt (file buffer:List UInt8):ℕ×List UInt8:=
 let n:=min buffer.length file.length
 (n,file.take n++buffer.drop n)
lemma length_fileReadAt (file buffer:List UInt8):
 (fileReadAt file buffer).2.length=buffer.length:=by
 simp only[fileReadAt,length_append,List.length_take,length_drop]
 omega

def Words.fill (b:Words)(file:List UInt8):Words where
 bitCnt:=b.bitCnt
 bits:=decode (fileReadAt file (encode b.bits)).2
 stored:=(length_decode ((length_fileReadAt ..).trans (length_encode _))).trans b.stored
 room:=b.room.trans (Nat.mul_le_mul_left 32
  (length_decode ((length_fileReadAt ..).trans (length_encode _))).ge)

def bitmapFileSize (b:Words):ℕ:=byteCnt b.bitCnt

def bitmapRead (b:Words)(file:List UInt8):Bool×Words:=
 if 0<b.bitCnt then
  let success:=decide ((fileReadAt file (encode b.bits)).1=byteCnt b.bitCnt)
  (success,(b.fill file).modify (elemCnt b.bitCnt-1) (· &&& lastMask b))
 else
  (true,b)

def bitmapWrite (b:Words)(file:List UInt8):Bool×List UInt8:=
 let (n,file):=fileWriteAt file (encode b.bits)
 (n=byteCnt b.bitCnt,file)

variable {a b:Words}

lemma byteCnt_eq (b:Words):byteCnt b.bitCnt=(encode b.bits).length:=by
 have small:=b.bitCnt_lt
 rw[length_encode,b.stored,byteCnt]
 unfold elemCnt bitmapError at *
 omega

lemma getLsbD_lastMask (b:Words){k:ℕ}(hk:k<32):
 (lastMask b).getLsbD k=decide (b.bitCnt%32=0 ∨ k<b.bitCnt%32):=by
 unfold lastMask
 split
 · rename_i some
   have mask:(1#32 <<< (b.bitCnt%32))-1#32=BitVec.ofNat 32 (2^(b.bitCnt%32)-1):=by
    have pos:0<2^(b.bitCnt%32):=Nat.two_pow_pos _
    rw[←BitVec.twoPow_eq]
    apply BitVec.eq_of_toNat_eq
    rw[BitVec.toNat_sub,BitVec.toNat_twoPow,BitVec.toNat_ofNat,BitVec.toNat_ofNat]
    omega
   rw[mask,BitVec.getLsbD_ofNat,Nat.testBit_two_pow_sub_one]
   simp[hk,some]
 · rename_i none
   rw[BitVec.getLsbD_allOnes,not_not.1 none]
   simp[hk]

lemma bit_masked (pos:0<b.bitCnt){j:ℕ}(hj:j<32*elemCnt b.bitCnt):
 (b.modify (elemCnt b.bitCnt-1) (· &&& lastMask b)).bit j=(b.bit j && decide (j<b.bitCnt)):=by
 have small:=b.bitCnt_lt
 have stored:=b.stored
 have whole:elemCnt b.bitCnt=(b.bitCnt+31)/32:=by
  unfold elemCnt bitmapError at *
  omega
 rw[bit_modify (by omega)]
 split
 · rename_i last
   have used:(b.bitCnt%32=0 ∨ j%32<b.bitCnt%32) ↔ j<b.bitCnt:=by
    unfold elemIdx at last
    omega
   rw[BitVec.getLsbD_and,getLsbD_lastMask b (Nat.mod_lt _ (by decide)),←last]
   simp only[used]
   rfl
 · rename_i before
   have used:j<b.bitCnt:=by
    unfold elemIdx at before
    omega
   rw[decide_eq_true used,Bool.and_true]

theorem bitmap_round_trip (same:a.bitCnt=b.bitCnt){file:List UInt8}
 (size:file.length=bitmapFileSize a):
 (bitmapWrite a file).1=true ∧ (bitmapRead b (bitmapWrite a file).2).1=true ∧
  (bitmapRead b (bitmapWrite a file).2).2.bitCnt=b.bitCnt ∧
  (∀i<b.bitCnt,(bitmapRead b (bitmapWrite a file).2).2.bit i=a.bit i) ∧
  ∀i,b.bitCnt ≤ i → i<32*elemCnt b.bitCnt → (bitmapRead b (bitmapWrite a file).2).2.bit i=false:=by
 rw[bitmapFileSize,byteCnt_eq] at size
 have lengths:(encode b.bits).length=(encode a.bits).length:=by
  rw[←byteCnt_eq,←byteCnt_eq,same]
 have written:bitmapWrite a file=(true,encode a.bits):=by
  simp[bitmapWrite,fileWriteAt,size,byteCnt_eq]
 have loaded:fileReadAt (encode a.bits) (encode b.bits)=((encode b.bits).length,encode a.bits):=by
  simp[fileReadAt,lengths]
 have filled:(b.fill (encode a.bits)).bits=a.bits:=
  (congrArg (fun r:ℕ×List UInt8=>decode r.2) loaded).trans (decode_encode _)
 have bit:∀i,(b.fill (encode a.bits)).bit i=a.bit i:=fun i=>by
  rw[Words.bit,filled,Words.bit]
 rw[written]
 unfold bitmapRead
 by_cases pos:0<b.bitCnt
 · have masked:∀i,i<32*elemCnt b.bitCnt →
     ((b.fill (encode a.bits)).modify (elemCnt b.bitCnt-1) (· &&& lastMask b)).bit i=
      (a.bit i && decide (i<b.bitCnt)):=fun i hi=>by
    rw[←bit]
    exact bit_masked (b:=b.fill (encode a.bits)) pos hi
   have room:=b.room
   rw[b.stored] at room
   rw[if_pos pos]
   refine ⟨rfl,?_,rfl,fun i hi=>?_,fun i hi unused=>?_⟩
   · rw[loaded,byteCnt_eq]
     exact decide_eq_true rfl
   · rw[masked i (by omega),decide_eq_true hi,Bool.and_true]
   · rw[masked i unused,decide_eq_false (by omega),Bool.and_false]
 · rw[if_neg pos]
   have zero:b.bitCnt=0:=by omega
   refine ⟨rfl,rfl,rfl,by omega,fun i _ unused=>?_⟩
   rw[zero] at unused
   exact absurd unused (Nat.not_lt_zero i)

def forty:Words:=⟨40,[0xdeadbeef,0xcafebabe],rfl,Nat.le_of_ble_eq_true rfl⟩

theorem bitmap_round_trip_forty:
 (bitmapRead forty (bitmapWrite forty (replicate 8 0)).2).2.bit 3=true ∧
  (bitmapRead forty (bitmapWrite forty (replicate 8 0)).2).2.bit 41=false:=by
 have size:(replicate 8 (0:UInt8)).length=bitmapFileSize forty:=by decide
 obtain ⟨-,-,-,used,unused⟩:=bitmap_round_trip (b:=forty) rfl size
 exact ⟨used 3 (by decide),unused 41 (by decide) (by decide)⟩

end Pintos.BitmapWords
