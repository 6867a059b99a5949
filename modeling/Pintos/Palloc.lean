import Pintos.Bitmap
import Pintos.ExecRuns

/-!
# The page allocator

`threads/palloc.c` with its two pools, whose bitmaps are at the start of the memory of the pool.
Addresses are numbers: below 1 GB of memory none of the sums wraps.
-/
namespace Pintos.Palloc
open Bitmap ExecRuns List

def pgSize:ℕ:=4096
def physBase:ℕ:=0xc0000000

/-- Why the kernel panics: a pool has no room for its bitmap, `PAL_ASSERT` finds no pages, an
`ASSERT` fails or `NOT_REACHED` is reached. -/
inductive Fault where
 | noRoom
 | outOfPages
 | assertion
 | notReached
 deriving DecidableEq,Repr

/-- `usedMap` has the bits of the bitmap that is at the address `map`. -/
structure Pool where
 map:ℕ
 usedMap:Bits
 base:ℕ
 deriving DecidableEq,Repr

structure Pools where
 kernelPool:Pool
 userPool:Pool
 deriving DecidableEq,Repr

def divRoundUp (x step:ℕ):ℕ:=(x+step-1)/step
def byteCnt (bitCnt:ℕ):ℕ:=4*divRoundUp bitCnt 32
def bitmapBufSize (bitCnt:ℕ):ℕ:=8+byteCnt bitCnt
def bitmapCreateInBuf (bitCnt blockSize:ℕ):Except Fault Bits:=
 if bitmapBufSize bitCnt≤blockSize then .ok (replicate bitCnt false)
 else .error .assertion

def initPool (base pageCnt:ℕ):Except Fault Pool:=
 let bmPages:=divRoundUp (bitmapBufSize pageCnt) pgSize
 if pageCnt<bmPages then .error .noRoom
 else do
  let usedMap←bitmapCreateInBuf (pageCnt-bmPages) (bmPages*pgSize)
  return ⟨base,usedMap,base+bmPages*pgSize⟩

def ptov (paddr:ℕ):Except Fault ℕ:=
 if paddr<physBase then .ok (paddr+physBase) else .error .assertion

def pallocInit (ramPages userPageLimit:ℕ):Except Fault Pools:=do
 let freeStart←ptov (1024*1024)
 let freeEnd←ptov (ramPages*pgSize)
 let freePages:=(freeEnd-freeStart)/pgSize
 let userPages:=if userPageLimit<freePages/2 then userPageLimit else freePages/2
 let kernelPages:=freePages-userPages
 let kernelPool←initPool freeStart kernelPages
 let userPool←initPool (freeStart+kernelPages*pgSize) userPages
 return ⟨kernelPool,userPool⟩

section

structure Flags where
 user:Bool
 assert:Bool
 deriving DecidableEq,Repr

variable (p:Pools)

def Pools.pool (user:Bool):Pool:=if user then p.userPool else p.kernelPool
def Pools.setUsed (user:Bool)(usedMap:Bits):Pools:=
 if user then {p with userPool:={p.userPool with usedMap}}
 else {p with kernelPool:={p.kernelPool with usedMap}}

def pallocGetMultiple (flags:Flags)(pageCnt:ℕ):Except Fault (Option ℕ×Pools):=
 let pool:=p.pool flags.user
 if pageCnt=0 then .ok (none,p)
 else
  match bitmapScan pool.usedMap pageCnt with
  | none=>if flags.assert then .error .outOfPages else .ok (none,p)
  | some pageIdx=>
   match bitmapSetMultiple pool.usedMap pageIdx pageCnt true with
   | none=>.error .assertion
   | some usedMap=>.ok (some (pool.base+pgSize*pageIdx),p.setUsed flags.user usedMap)

def pageFromPool (pool:Pool)(page:ℕ):Bool:=
 pool.base/pgSize≤page/pgSize ∧ page/pgSize<pool.base/pgSize+pool.usedMap.length

/-- The rest of `palloc_free_multiple` with the pool that it has found. -/
def freeInPool (user:Bool)(pages pageCnt:ℕ):Except Fault Pools:=
 let pool:=p.pool user
 let pageIdx:=pages/pgSize-pool.base/pgSize
 if bitmapAll pool.usedMap pageIdx pageCnt=some true then
  match bitmapSetMultiple pool.usedMap pageIdx pageCnt false with
  | none=>.error .assertion
  | some usedMap=>.ok (p.setUsed user usedMap)
 else .error .assertion

def pallocFreeMultiple (pages pageCnt:ℕ):Except Fault Pools:=
 if pages%pgSize≠0 then .error .assertion
 else if pages=0 ∨ pageCnt=0 then .ok p
 else if pageFromPool p.kernelPool pages then freeInPool p false pages pageCnt
 else if pageFromPool p.userPool pages then freeInPool p true pages pageCnt
 else .error .notReached

end

structure Range where
 user:Bool
 pages:ℕ
 pageCnt:ℕ
 deriving DecidableEq,Repr

/-- `live` has the ranges that have been handed out and not yet been freed. -/
structure State where
 pools:Pools
 live:List Range
 deriving DecidableEq,Repr

inductive Act where
 | get (flags:Flags) (pageCnt:ℕ)
 | free (r:Range)
 deriving DecidableEq,Repr

def next (s:State):Act→Option State
 | .get flags pageCnt=>
  match pallocGetMultiple s.pools flags pageCnt with
  | .ok (none,pools)=>some {s with pools}
  | .ok (some pages,pools)=>some ⟨pools,⟨flags.user,pages,pageCnt⟩::s.live⟩
  | .error _=>none
 | .free r=>
  match pallocFreeMultiple s.pools r.pages r.pageCnt with
  | .ok pools=>some ⟨pools,s.live.erase r⟩
  | .error _=>none

def Named (s:State):Act→Prop
 | .get _ _=>True
 | .free r=>r∈s.live
instance (s:State):(a:Act) → Decidable (Named s a)
 | .get _ _=>.isTrue trivial
 | .free r=>inferInstanceAs (Decidable (r∈s.live))
abbrev Area:=ℕ×ℕ
def Apart (a b:Area):Prop:=a.1+a.2≤b.1 ∨ b.1+b.2≤a.1
def Pool.mapArea (pool:Pool):Area:=(pool.map,bitmapBufSize pool.usedMap.length)
def Pool.area (pool:Pool):Area:=(pool.base,pgSize*pool.usedMap.length)
def Range.area (r:Range):Area:=(r.pages,pgSize*r.pageCnt)
def Pools.areas (p:Pools):List Area:=
 [p.kernelPool.mapArea,p.kernelPool.area,p.userPool.mapArea,p.userPool.area]

structure Layout (start finish:ℕ)(p:Pools):Prop where
 first:p.kernelPool.map=start
 fits:∀user,(p.pool user).map+bitmapBufSize (p.pool user).usedMap.length≤(p.pool user).base
 aligned:∀user,(p.pool user).base%pgSize=0
 middle:p.kernelPool.base+pgSize*p.kernelPool.usedMap.length=p.userPool.map
 last:p.userPool.base+pgSize*p.userPool.usedMap.length=finish

section
variable {start finish:ℕ}{p:Pools}{α β:Type}{f:α→Except Fault β}{ramPages:ℕ}

lemma initPool_spec {base pageCnt:ℕ}{pool:Pool}(h:initPool base pageCnt=.ok pool):
 pool.map=base ∧ pool.map+bitmapBufSize pool.usedMap.length≤pool.base ∧
  pool.base+pgSize*pool.usedMap.length=base+pageCnt*pgSize ∧
  pool.usedMap=replicate pool.usedMap.length false ∧
  ∃bmPages,pool.base=base+bmPages*pgSize:=by
 unfold initPool at h
 dsimp only at h
 split at h
 · cases h
 unfold bitmapCreateInBuf at h
 split at h
 · obtain rfl:=Except.ok.inj h
   simp only[length_replicate]
   refine ⟨trivial,?_,?_,trivial,_,rfl⟩
   · omega
   · rename_i room _
     generalize divRoundUp (bitmapBufSize pageCnt) pgSize=bmPages at room ⊢
     unfold pgSize
     omega
 · cases h

lemma bind_eq_ok {m:Except Fault α}{b:β}:m >>= f=.ok b ↔ ∃a,m=.ok a ∧ f a=.ok b:=by
 cases m<;>simp[bind,Except.bind]
lemma ok_bind (a:α)(f:α→Except Fault β):Except.ok a >>= f=f a:=rfl
lemma ptov_ok {paddr:ℕ}(h:paddr<physBase):ptov paddr=.ok (physBase+paddr):=by
 rw[Nat.add_comm]
 exact if_pos h

lemma pallocInit_eq (userPageLimit:ℕ)(low:256≤ramPages)(high:ramPages<262144):
 ∃userPages,userPages≤ramPages-256 ∧ pallocInit ramPages userPageLimit=do
  let kernelPool←initPool (physBase+1048576) (ramPages-256-userPages)
  let userPool←initPool (physBase+1048576+(ramPages-256-userPages)*pgSize) userPages
  return ⟨kernelPool,userPool⟩:=by
 obtain ⟨start,hs⟩:∃start,start=physBase+1048576:=⟨_,rfl⟩
 have first:ptov (1024*1024)=.ok start:=by
  rw[hs]
  exact ptov_ok (by decide)
 have last:ptov (ramPages*pgSize)=.ok (physBase+ramPages*pgSize):=by
  apply ptov_ok
  unfold pgSize physBase
  omega
 have freePages:(physBase+ramPages*pgSize-start)/pgSize=ramPages-256:=by
  unfold pgSize
  omega
 refine ⟨if userPageLimit<(ramPages-256)/2 then userPageLimit else (ramPages-256)/2,?_,?_⟩
 · split<;>omega
 · unfold pallocInit
   rw[←hs,first,last]
   simp only[ok_bind,freePages]

lemma pallocInit_layout {userPageLimit:ℕ}(low:256≤ramPages)(high:ramPages<262144)
 (h:pallocInit ramPages userPageLimit=.ok p):
 Layout (physBase+1048576) (physBase+ramPages*pgSize) p ∧
  ∀user,(p.pool user).usedMap=replicate (p.pool user).usedMap.length false:=by
 obtain ⟨userPages,few,eq⟩:=pallocInit_eq userPageLimit low high
 rw[eq] at h
 obtain ⟨kernelPool,hk,h⟩:=bind_eq_ok.1 h
 obtain ⟨userPool,hu,h⟩:=bind_eq_ok.1 h
 obtain rfl:=Except.ok.inj h
 obtain ⟨map,fits,all,clear,bm,base⟩:=initPool_spec hk
 obtain ⟨map',fits',all',clear',bm',base'⟩:=initPool_spec hu
 refine ⟨⟨map,fun user=>?_,fun user=>?_,all.trans map'.symm,?_⟩,fun user=>?_⟩
 · cases user with
   | false=>exact fits
   | true=>exact fits'
 · cases user with
   | false=>
    change kernelPool.base%pgSize=0
    rw[base]
    unfold pgSize physBase
    omega
   | true=>
    change userPool.base%pgSize=0
    rw[base']
    unfold pgSize physBase
    omega
 · rw[all']
   unfold pgSize
   omega
 · cases user with
   | false=>exact clear
   | true=>exact clear'

lemma Layout.ordered (h:Layout start finish p):
 p.kernelPool.map+bitmapBufSize p.kernelPool.usedMap.length≤p.kernelPool.base ∧
  p.kernelPool.base+pgSize*p.kernelPool.usedMap.length=p.userPool.map ∧
  p.userPool.map+bitmapBufSize p.userPool.usedMap.length≤p.userPool.base:=
 ⟨h.fits false,h.middle,h.fits true⟩

lemma Layout.apart (h:Layout start finish p):p.areas.Pairwise Apart:=by
 obtain ⟨fits,middle,fits'⟩:=h.ordered
 have below:p.kernelPool.base≤p.userPool.map:=by omega
 simp only[Pools.areas,pairwise_cons,mem_cons,not_mem_nil,or_false,
  forall_eq_or_imp,forall_eq,Pool.mapArea,Pool.area]
 refine ⟨⟨.inl fits,.inl ?_,.inl ?_⟩,⟨.inl ?_,.inl ?_⟩,.inl fits',?_⟩
 · exact Nat.le_trans fits below
 · omega
 · omega
 · omega
 · simp

lemma Layout.inside (h:Layout start finish p):∀a∈p.areas,start≤a.1 ∧ a.1+a.2≤finish:=by
 obtain ⟨fits,middle,fits'⟩:=h.ordered
 have first:=h.first
 have last:=h.last
 simp only[Pools.areas,mem_cons,not_mem_nil,or_false,forall_eq_or_imp,forall_eq,
  Pool.mapArea,Pool.area]
 refine ⟨⟨?_,?_⟩,⟨?_,?_⟩,⟨?_,?_⟩,?_,?_⟩<;>omega

end

section
variable (p:Pools)

def Range.idx (r:Range):ℕ:=(r.pages-(p.pool r.user).base)/pgSize
def Range.marks (r:Range):List (Bool×ℕ):=(range' (r.idx p) r.pageCnt).map (fun i=>(r.user,i))

variable {p}

lemma Range.mem_marks {r:Range}{user:Bool}{i:ℕ}:
 (user,i)∈r.marks p ↔ r.user=user ∧ r.idx p ≤ i ∧ i<r.idx p+r.pageCnt:=by
 simp only[Range.marks,List.mem_map,Prod.mk.injEq,mem_range'_1]
 constructor
 · rintro ⟨j,range,same,rfl⟩
   exact ⟨same,range⟩
 · rintro ⟨same,range⟩
   exact ⟨i,range,same,rfl⟩

lemma Range.marks_nodup (r:Range):(r.marks p).Nodup:=
 Nodup.map (fun _ _ same=>(Prod.mk.inj same).2) nodup_range'

section
variable {user:Bool}{usedMap:Bits}

lemma pool_setUsed (other:Bool):(p.setUsed user usedMap).pool other=
  if other=user then {p.pool user with usedMap} else p.pool other:=by
 cases user<;>cases other<;>rfl
lemma base_setUsed (other:Bool):((p.setUsed user usedMap).pool other).base=(p.pool other).base:=by
 cases user<;>cases other<;>rfl
lemma Range.marks_setUsed (r:Range):r.marks (p.setUsed user usedMap)=r.marks p:=by
 unfold Range.marks Range.idx
 rw[base_setUsed]

lemma length_setUsed (same:usedMap.length=(p.pool user).usedMap.length)(other:Bool):
 ((p.setUsed user usedMap).pool other).usedMap.length=(p.pool other).usedMap.length:=by
 rw[pool_setUsed]
 split
 · rename_i ho
   rw[ho]
   exact same
 · rfl

lemma Layout.setUsed {start finish:ℕ}(h:Layout start finish p)
 (same:usedMap.length=(p.pool user).usedMap.length):
 Layout start finish (p.setUsed user usedMap):=by
 cases user with
 | false=>
  refine ⟨h.first,fun other=>?_,fun other=>?_,?_,h.last⟩
  · cases other with
    | false=>exact (congrArg (fun n=>_+bitmapBufSize n≤_) same).mpr (h.fits false)
    | true=>exact h.fits true
  · rw[base_setUsed]
    exact h.aligned other
  · exact (congrArg (fun n=>_+pgSize*n) same).trans h.middle
 | true=>
  refine ⟨h.first,fun other=>?_,fun other=>?_,h.middle,?_⟩
  · cases other with
    | false=>exact h.fits false
    | true=>exact (congrArg (fun n=>_+bitmapBufSize n≤_) same).mpr (h.fits true)
  · rw[base_setUsed]
    exact h.aligned other
  · exact (congrArg (fun n=>_+pgSize*n) same).trans h.last

end

end

structure Placed (p:Pools)(r:Range):Prop where
 pos:0<r.pageCnt
 start:r.pages=(p.pool r.user).base+pgSize*r.idx p
 bound:r.idx p+r.pageCnt≤(p.pool r.user).usedMap.length

/-- The bits that are set are those of the live ranges, each of one range only. -/
structure Inv (start finish:ℕ)(s:State):Prop where
 layout:Layout start finish s.pools
 placed:∀r∈s.live,Placed s.pools r
 nodup:(s.live.flatMap (Range.marks s.pools)).Nodup
 bits:∀user i,(s.pools.pool user).usedMap[i]?=some true ↔
  (user,i)∈s.live.flatMap (Range.marks s.pools)

section
variable {start finish:ℕ}{s s':State}{p:Pools}{user:Bool}{usedMap:Bits}{r:Range}

lemma Layout.length_lt (h:Layout start finish p)(small:finish≤4294967296)(user:Bool):
 (p.pool user).usedMap.length<2^32:=by
 obtain ⟨-,middle,base⟩:=h.ordered
 have last:=h.last
 unfold pgSize at middle last
 cases user with
 | false=>
  change p.kernelPool.usedMap.length<2^32
  omega
 | true=>
  change p.userPool.usedMap.length<2^32
  omega

lemma placed_setUsed (h:Placed p r)(same:usedMap.length=(p.pool user).usedMap.length):
 Placed (p.setUsed user usedMap) r:=by
 have number:r.idx (p.setUsed user usedMap)=r.idx p:=by
  unfold Range.idx
  rw[base_setUsed]
 refine ⟨h.pos,?_,?_⟩
 · rw[number,base_setUsed]
   exact h.start
 · rw[number,length_setUsed same]
   exact h.bound

lemma flatMap_marks_setUsed (live:List Range):
 live.flatMap (Range.marks (p.setUsed user usedMap))=live.flatMap (Range.marks p):=
 flatMap_congr fun r _=>r.marks_setUsed

lemma Inv.take (h:Inv start finish s){pageCnt pageIdx:ℕ}(pos:0<pageCnt)
 (scan:bitmapScan (s.pools.pool user).usedMap pageCnt=some pageIdx)
 (set:bitmapSetMultiple (s.pools.pool user).usedMap pageIdx pageCnt true=some usedMap):
 Inv start finish ⟨s.pools.setUsed user usedMap,
  ⟨user,(s.pools.pool user).base+pgSize*pageIdx,pageCnt⟩::s.live⟩:=by
 obtain ⟨range,clear⟩:=bitmapScan_spec scan
 have length:=bitmapSetMultiple_length set
 have number:Range.idx s.pools ⟨user,(s.pools.pool user).base+pgSize*pageIdx,pageCnt⟩=pageIdx:=by
  simp[Range.idx,pgSize]
 have placed:Placed s.pools ⟨user,(s.pools.pool user).base+pgSize*pageIdx,pageCnt⟩:=by
  refine ⟨pos,?_,?_⟩
  · rw[number]
  · rw[number]
    exact range
 have new:∀other i,(other,i)∈Range.marks s.pools
   ⟨user,(s.pools.pool user).base+pgSize*pageIdx,pageCnt⟩ ↔
   user=other ∧ pageIdx ≤ i ∧ i<pageIdx+pageCnt:=by
  intro other i
  rw[Range.mem_marks,number]
 refine ⟨h.layout.setUsed length,fun r hr=>?_,?_,fun other i=>?_⟩
 · rcases mem_cons.1 hr with rfl|hr
   · exact placed_setUsed placed length
   · exact placed_setUsed (h.placed r hr) length
 · rw[flatMap_marks_setUsed,flatMap_cons]
   refine nodup_append'.2 ⟨Range.marks_nodup _,h.nodup,?_⟩
   rintro ⟨other,i⟩ hn ho
   obtain ⟨rfl,lo,hi⟩:=(new other i).1 hn
   have marked:=(h.bits user i).2 ho
   rw[clear i lo hi] at marked
   cases marked
 · rw[flatMap_marks_setUsed,flatMap_cons,mem_append,new,←h.bits,pool_setUsed]
   by_cases same:other=user
   · subst same
     simp only[if_pos,bitmapSetMultiple_bit set]
     by_cases hi:pageIdx ≤ i ∧ i<pageIdx+pageCnt
     · simp[hi]
     · simp[hi]
   · rw[if_neg same]
     simp[Ne.symm same]

lemma Inv.release (h:Inv start finish s)(small:finish≤4294967296)(hr:r∈s.live):
 bitmapAll (s.pools.pool r.user).usedMap (r.idx s.pools) r.pageCnt=some true ∧
  ∃usedMap,bitmapSetMultiple (s.pools.pool r.user).usedMap (r.idx s.pools) r.pageCnt false=
   some usedMap ∧ Inv start finish ⟨s.pools.setUsed r.user usedMap,s.live.erase r⟩:=by
 have placed:=h.placed r hr
 have set:bitmapSetMultiple (s.pools.pool r.user).usedMap (r.idx s.pools) r.pageCnt false=
   some _:=if_pos placed.bound
 have length:=bitmapSetMultiple_length set
 have own:∀i,r.idx s.pools ≤ i → i<r.idx s.pools+r.pageCnt →
   (s.pools.pool r.user).usedMap[i]?=some true:=by
  intro i lo hi
  refine (h.bits r.user i).2 (mem_flatMap.2 ⟨r,hr,?_⟩)
  exact Range.mem_marks.2 ⟨rfl,lo,hi⟩
 -- the marks of the range and those of the rest
 have split:(s.live.flatMap (Range.marks s.pools)).Perm
   (r.marks s.pools++(s.live.erase r).flatMap (Range.marks s.pools)):=
  (perm_cons_erase hr).flatMap_right _
 obtain ⟨-,rest,apart⟩:=nodup_append'.1 (split.nodup_iff.1 h.nodup)
 refine ⟨bitmapAll_of_marked (h.layout.length_lt small _) placed.bound own,_,set,
  h.layout.setUsed length,fun q hq=>?_,?_,fun other i=>?_⟩
 · exact placed_setUsed (h.placed q (mem_of_mem_erase hq)) length
 · rw[flatMap_marks_setUsed]
   exact rest
 · rw[flatMap_marks_setUsed,pool_setUsed]
   have before:=h.bits other i
   rw[split.mem_iff,mem_append,Range.mem_marks] at before
   by_cases same:other=r.user
   · subst same
     simp only[if_pos,bitmapSetMultiple_bit set]
     by_cases hi:r.idx s.pools ≤ i ∧ i<r.idx s.pools+r.pageCnt
     · rw[if_pos hi]
       constructor
       · intro hn
         cases hn
       · intro hm
         exact absurd hm (apart (Range.mem_marks.2 ⟨rfl,hi⟩))
     · rw[if_neg hi,before]
       simp[hi]
   · rw[if_neg same,before]
     simp[Ne.symm same]

lemma pageFromPool_iff {pool:Pool}{page:ℕ}(aligned:pool.base%pgSize=0)
 (whole:page%pgSize=0):pageFromPool pool page=true ↔
  pool.base≤page ∧ page<pool.base+pgSize*pool.usedMap.length:=by
 unfold pageFromPool
 rw[decide_eq_true_iff]
 unfold pgSize at *
 omega

lemma Inv.freeMultiple (h:Inv start finish s)(small:finish≤4294967296)(hr:r∈s.live):
 ∃pools,pallocFreeMultiple s.pools r.pages r.pageCnt=.ok pools ∧
  Inv start finish ⟨pools,s.live.erase r⟩:=by
 have placed:=h.placed r hr
 have pos:=placed.pos
 have bound:=placed.bound
 have aligned:=h.layout.aligned r.user
 have begins:=placed.start
 obtain ⟨all,usedMap,set,inv⟩:=h.release small hr
 have whole:r.pages%pgSize=0:=by
  unfold pgSize at *
  omega
 have own:pageFromPool (s.pools.pool r.user) r.pages=true:=by
  rw[pageFromPool_iff aligned whole]
  unfold pgSize at *
  omega
 have number:r.pages/pgSize-(s.pools.pool r.user).base/pgSize=r.idx s.pools:=by
  unfold pgSize at *
  omega
 have freed:freeInPool s.pools r.user r.pages r.pageCnt=.ok (s.pools.setUsed r.user usedMap):=by
  simp only[freeInPool,number,all,set,if_pos]
 have notNull:¬(r.pages=0 ∨ r.pageCnt=0):=by
  have fits:=h.layout.fits r.user
  have size:8≤bitmapBufSize (s.pools.pool r.user).usedMap.length:=by
   unfold bitmapBufSize
   omega
  omega
 refine ⟨_,?_,inv⟩
 unfold pallocFreeMultiple
 rw[if_neg (fun hn=>hn whole),if_neg notNull]
 cases hu:r.user with
 | false=>
  rw[hu] at own freed
  rw[if_pos (show pageFromPool s.pools.kernelPool r.pages=true from own),freed]
 | true=>
  rw[hu] at own freed begins
  have kernel:pageFromPool s.pools.kernelPool r.pages=false:=by
   have aligned':s.pools.kernelPool.base%pgSize=0:=h.layout.aligned false
   rw[←Bool.not_eq_true,pageFromPool_iff aligned' whole]
   obtain ⟨-,middle,fits⟩:=h.layout.ordered
   have begins:r.pages=s.pools.userPool.base+_:=begins
   omega
  rw[kernel,if_neg Bool.false_ne_true,
   if_pos (show pageFromPool s.pools.userPool r.pages=true from own),freed]

lemma bitmapScan_none {b:Bits}{cnt:ℕ}(small:b.length<2^32)
 (h:bitmapScan b cnt=none){i:ℕ}(hi:i+cnt≤b.length):
 ∃j,i≤j ∧ j < i+cnt ∧ b[j]?=some true:=by
 unfold bitmapScan at h
 rw[if_pos (by omega),find?_eq_none] at h
 have busy:=h i (mem_range.2 (by omega))
 rw[←mem_slice]
 by_contra clear
 apply busy
 unfold bitmapContains
 rw[if_pos ⟨by omega,by omega⟩,if_neg clear,if_pos hi]
 rfl

/-- Every run of pages of the pool has a page that is live. -/
def Full (s:State)(user:Bool)(pageCnt:ℕ):Prop:=
 ∀i,i+pageCnt≤(s.pools.pool user).usedMap.length → ∃r∈s.live,r.user=user ∧
  ¬Apart r.area ((s.pools.pool user).base+pgSize*i,pgSize*pageCnt)

variable (h:Inv start finish s)
include h

lemma Inv.full (small:finish≤4294967296){pageCnt:ℕ}
 (none:bitmapScan (s.pools.pool user).usedMap pageCnt=none):Full s user pageCnt:=by
 intro i hi
 obtain ⟨j,lo,hj,marked⟩:=bitmapScan_none (h.layout.length_lt small user) none hi
 obtain ⟨r,hr,mark⟩:=mem_flatMap.1 ((h.bits user j).1 marked)
 obtain ⟨rfl,lo',hj'⟩:=Range.mem_marks.1 mark
 have begins:=(h.placed r hr).start
 refine ⟨r,hr,rfl,?_⟩
 unfold Apart Range.area
 unfold pgSize at *
 omega

lemma Inv.getMultiple (small:finish≤4294967296)(flags:Flags)(pageCnt:ℕ):
 ((pallocGetMultiple s.pools flags pageCnt=.ok (none,s.pools) ∨
   flags.assert ∧ pallocGetMultiple s.pools flags pageCnt=.error .outOfPages) ∧
  (0<pageCnt → Full s flags.user pageCnt)) ∨
 ∃pages pools,pallocGetMultiple s.pools flags pageCnt=.ok (some pages,pools) ∧
  Inv start finish ⟨pools,⟨flags.user,pages,pageCnt⟩::s.live⟩:=by
 unfold pallocGetMultiple
 by_cases zero:pageCnt=0
 · rw[if_pos zero]
   exact .inl ⟨.inl rfl,by omega⟩
 rw[if_neg zero]
 cases scan:bitmapScan (s.pools.pool flags.user).usedMap pageCnt with
 | none=>
  refine .inl ⟨?_,fun _=>h.full small scan⟩
  dsimp only
  split
  · exact .inr ⟨‹_›,rfl⟩
  · exact .inl rfl
 | some pageIdx=>
  have set:bitmapSetMultiple (s.pools.pool flags.user).usedMap pageIdx pageCnt true=some _:=
   if_pos (bitmapScan_spec scan).1
  dsimp only
  rw[set]
  exact .inr ⟨_,_,rfl,h.take (by omega) scan set⟩

lemma next_inv (small:finish≤4294967296){a:Act}
 (named:Named s a)(step:next s a=some s'):Inv start finish s':=by
 cases a with
 | get flags pageCnt=>
  rcases h.getMultiple small flags pageCnt with ⟨none|⟨-,error⟩,-⟩|⟨pages,pools,some,inv⟩
  · simp only[next,none,Option.some.injEq] at step
    exact step▸h
  · simp only[next,error] at step
    cases step
  · simp only[next,some,Option.some.injEq] at step
    exact step▸inv
 | free r=>
  obtain ⟨pools,freed,inv⟩:=h.freeMultiple small named
  simp only[next,freed,Option.some.injEq] at step
  exact step▸inv

lemma Inv.placed_area (hr:r∈s.live):
 r.pages%pgSize=0 ∧ (s.pools.pool r.user).base≤r.pages ∧ r.pages+pgSize*r.pageCnt ≤
   (s.pools.pool r.user).base+pgSize*(s.pools.pool r.user).usedMap.length ∧
  ∀user,Apart r.area (s.pools.pool user).mapArea:=by
 have placed:=h.placed r hr
 have begins:=placed.start
 have bound:=placed.bound
 have aligned:=h.layout.aligned r.user
 have low:(s.pools.pool r.user).base≤r.pages:=by omega
 have high:r.pages+pgSize*r.pageCnt ≤
   (s.pools.pool r.user).base+pgSize*(s.pools.pool r.user).usedMap.length:=by
  unfold pgSize at *
  omega
 refine ⟨?_,low,high,fun user=>?_⟩
 · unfold pgSize at *
   omega
 · obtain ⟨kernel,middle,user'⟩:=h.layout.ordered
   unfold Apart Range.area Pool.mapArea
   cases hu:r.user<;>rw[hu] at low high<;>cases user <;>
    simp only[Pools.pool,if_true,Bool.false_eq_true,if_false] at low high ⊢<;>omega

lemma Inv.apart:s.live.Pairwise (fun a b=>Apart a.area b.area):=by
 obtain ⟨-,disjoint⟩:=nodup_flatMap.1 h.nodup
 refine disjoint.imp_of_mem fun {a b} ha hb apart=>?_
 have begins:=(h.placed a ha).start
 have begins':=(h.placed b hb).start
 have pos:=(h.placed a ha).pos
 have pos':=(h.placed b hb).pos
 by_cases same:a.user=b.user
 · rw[same] at begins
   by_contra overlap
   unfold Apart Range.area at overlap
   unfold pgSize at *
   -- the larger of the two first pages is in both
   have mark:(b.user,max (a.idx s.pools) (b.idx s.pools))∈a.marks s.pools:=
    Range.mem_marks.2 ⟨same,by omega,by omega⟩
   have mark':(b.user,max (a.idx s.pools) (b.idx s.pools))∈b.marks s.pools:=
    Range.mem_marks.2 ⟨rfl,by omega,by omega⟩
   exact apart mark mark'
 · obtain ⟨-,low,high,-⟩:=h.placed_area ha
   obtain ⟨-,low',high',-⟩:=h.placed_area hb
   obtain ⟨-,middle,user'⟩:=h.layout.ordered
   unfold Apart Range.area
   cases hu:a.user<;>cases hu':b.user<;>rw[hu,hu'] at same <;>
    rw[hu] at low high<;>rw[hu'] at low' high' <;>
    simp only[Pools.pool,if_true,Bool.false_eq_true,if_false,not_true] at *<;>omega

end
variable {ramPages userPageLimit:ℕ}{p:Pools}{s:State}{as:List Act}

lemma run_inv (low:256≤ramPages)(high:ramPages<262144)
 (init:pallocInit ramPages userPageLimit=.ok p)(run:Runs next Named ⟨p,[]⟩ as s):
 physBase+ramPages*pgSize≤4294967296 ∧
 Inv (physBase+1048576) (physBase+ramPages*pgSize) s:=by
 have small:physBase+ramPages*pgSize≤4294967296:=by
  unfold physBase pgSize
  omega
 obtain ⟨layout,clear⟩:=pallocInit_layout low high init
 refine ⟨small,run.invariant (fun _ _ _ h=>next_inv h small) ⟨layout,nofun,nodup_nil,?_⟩⟩
 intro user i
 rw[clear user,getElem?_replicate]
 simp

theorem palloc_safe (low:256≤ramPages)(high:ramPages<262144)
 (init:pallocInit ramPages userPageLimit=.ok p)(run:Runs next Named ⟨p,[]⟩ as s):
 s.pools.areas.Pairwise Apart ∧
 (∀a∈s.pools.areas,physBase+1048576≤a.1 ∧ a.1+a.2≤physBase+ramPages*pgSize) ∧
 (∀user,(s.pools.pool user).map+bitmapBufSize (s.pools.pool user).usedMap.length ≤
  (s.pools.pool user).base) ∧
 s.live.Pairwise (fun a b=>Apart a.area b.area) ∧
 (∀r∈s.live,r.pages%pgSize=0 ∧ (s.pools.pool r.user).base≤r.pages ∧ r.pages+pgSize*r.pageCnt ≤
   (s.pools.pool r.user).base+pgSize*(s.pools.pool r.user).usedMap.length ∧
  ∀user,Apart r.area (s.pools.pool user).mapArea) ∧
 (∀flags pageCnt,((pallocGetMultiple s.pools flags pageCnt=.ok (none,s.pools) ∨
    pallocGetMultiple s.pools flags pageCnt=.error .outOfPages) ∧
   (0<pageCnt → Full s flags.user pageCnt)) ∨
  ∃pages pools,pallocGetMultiple s.pools flags pageCnt=.ok (some pages,pools)) ∧
 ∀r∈s.live,∃pools,pallocFreeMultiple s.pools r.pages r.pageCnt=.ok pools:=by
 obtain ⟨small,inv⟩:=run_inv low high init run
 refine ⟨inv.layout.apart,inv.layout.inside,inv.layout.fits,inv.apart,
  fun r hr=>inv.placed_area hr,fun flags pageCnt=>?_,fun r hr=>?_⟩
 · rcases inv.getMultiple small flags pageCnt with none|⟨pages,pools,some,-⟩
   · exact .inl (none.imp_left (.imp_right And.right))
   · exact .inr ⟨pages,pools,some⟩
 · obtain ⟨pools,freed,-⟩:=inv.freeMultiple small hr
   exact ⟨pools,freed⟩

def sixPages:Pools:=⟨⟨0xc0100000,[false,false],0xc0101000⟩,⟨0xc0103000,[false,false],0xc0104000⟩⟩

theorem palloc_safe_six:pallocInit 262 100=.ok sixPages ∧ ∃s,Runs next Named ⟨sixPages,[]⟩
   [.get ⟨false,false⟩ 2,.get ⟨true,false⟩ 1,.free ⟨false,0xc0101000,2⟩,.get ⟨false,true⟩ 1] s ∧
  s.live=[⟨false,0xc0101000,1⟩,⟨true,0xc0104000,1⟩] ∧
  s.live.Pairwise (fun a b=>Apart a.area b.area):=by
 have init:pallocInit 262 100=.ok sixPages:=by decide +kernel
 have found:(exec next Named ⟨sixPages,[]⟩
   [.get ⟨false,false⟩ 2,.get ⟨true,false⟩ 1,.free ⟨false,0xc0101000,2⟩,.get ⟨false,true⟩ 1]).any
   (fun s=>s.live=[⟨false,0xc0101000,1⟩,⟨true,0xc0104000,1⟩])=true:=by
  decide +kernel
 obtain ⟨s,run,live⟩:=exec_any found
 exact ⟨init,s,run,of_decide_eq_true live,(palloc_safe (by decide) (by decide) init run).2.2.2.1⟩

end Pintos.Palloc
