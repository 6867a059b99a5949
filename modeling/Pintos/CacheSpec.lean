import Pintos.Cache

/-! What each function of the cache does to the blocks and to the disk, with the
table and its buckets out of sight. -/
namespace Pintos.Cache
open ExecHoare HashTable Function List

lemma blockOps_equal {a b:SectorBlock}:blockOps.equal a b=true ↔ a.sector=b.sector:=by
 simp only[Ops.equal,blockOps,blockHashLess,Bool.and_eq_true,Bool.not_eq_true',
  decide_eq_false_iff_not]
 omega

lemma blockOps_lawful:blockOps.Lawful where
 refl a:=blockOps_equal.2 rfl
 trans a b c hab hbc:=blockOps_equal.2 ((blockOps_equal.1 hab).trans (blockOps_equal.1 hbc))
 hash a b hab:=by
  change blockHash a=blockHash b
  unfold blockHash
  rw[blockOps_equal.1 hab]

def Device.cached (d:Device)(s:ℕ):Option SectorBlock:=hashFind blockOps d.cache (key s)

/-- The table is well formed, and its blocks are sectors of the device, at most
64 of them. -/
structure Inv (d:Device):Prop where
 wf:WF blockOps d.cache
 limit:hashSize d.cache≤64
 range:∀b∈d.cache.elems,b.sector<d.size

section
variable {d:Device}{b:SectorBlock}{h:Hash SectorBlock}

section
variable (wf:WF blockOps d.cache)
include wf

lemma cached_eq_some {s:ℕ}:d.cached s=some b ↔ b∈d.cache.elems ∧ b.sector=s:=by
 unfold Device.cached
 rw[wf.hashFind_eq_some blockOps_lawful,blockOps_equal]
 rfl
lemma cached_self (hb:b∈d.cache.elems):d.cached b.sector=some b:= (cached_eq_some wf).2 ⟨hb,rfl⟩

lemma cached_eq_of_mem {blocks:ℕ→Option SectorBlock}
 (h:∀s b,b∈d.cache.elems ∧ b.sector=s ↔ blocks s=some b):d.cached=blocks:=by
 funext s
 apply Option.ext
 intro b
 rw[cached_eq_some wf,h]

lemma cached_insert (alloc:Bool)(fresh:d.cached b.sector=none)
 (heq:h=(hashInsert blockOps alloc d.cache b).2):
 WF blockOps h ∧ h.elems.Perm (b::d.cache.elems) ∧
  ({d with cache:=h}).cached=update d.cached b.sector (some b):=by
 have hb:hashFind blockOps d.cache b=none:=
  (wf.hashFind_eq_none blockOps_lawful).2 ((wf.hashFind_eq_none blockOps_lawful).1 fresh)
 obtain ⟨wf',perm⟩:=wf.hashInsert_fresh blockOps_lawful alloc hb
 rw[←heq] at wf' perm
 refine ⟨wf',perm,cached_eq_of_mem wf' (fun s c=>?_)⟩
 rw[perm.mem_iff,mem_cons]
 by_cases hs:s=b.sector
 · subst hs
   rw[update_self,Option.some.injEq]
   constructor
   · rintro ⟨hc|hc,he⟩
     · exact hc.symm
     · rw[←he,cached_self wf hc] at fresh
       cases fresh
   · rintro rfl
     exact ⟨.inl rfl,rfl⟩
 · rw[update_of_ne hs,cached_eq_some wf]
   constructor
   · rintro ⟨rfl|hc,he⟩
     · exact absurd he.symm hs
     · exact ⟨hc,he⟩
   · exact fun hc=>⟨.inr hc.1,hc.2⟩

lemma cached_delete (alloc:Bool)(hb:b∈d.cache.elems)
 (heq:h=(hashDelete blockOps alloc d.cache b).2):
 WF blockOps h ∧ d.cache.elems.Perm (b::h.elems) ∧
  ({d with cache:=h}).cached=update d.cached b.sector none:=by
 have found:hashFind blockOps d.cache b=some b:=
  (wf.hashFind_eq_some blockOps_lawful).2 ⟨hb,blockOps_lawful.refl b⟩
 obtain ⟨wf',perm⟩:=wf.hashDelete_found alloc found
 rw[←heq] at wf' perm
 have hne:∀c∈h.elems,c.sector≠b.sector:=by
  intro c hc he
  have hd:=(distinct_perm perm).1 wf.distinct
  have hf:=(pairwise_cons.1 hd).1 c hc
  rw[blockOps_equal.2 he.symm] at hf
  cases hf
 refine ⟨wf',perm,cached_eq_of_mem wf' (fun s c=>?_)⟩
 by_cases hs:s=b.sector
 · subst hs
   rw[update_self]
   exact ⟨fun hc=>absurd hc.2 (hne c hc.1),fun hc=>by cases hc⟩
 · rw[update_of_ne hs,cached_eq_some wf,perm.mem_iff,mem_cons]
   constructor
   · exact fun hc=>⟨.inr hc.1,hc.2⟩
   · rintro ⟨rfl|hc,he⟩
     · exact absurd he.symm hs
     · exact ⟨hc,he⟩

lemma cached_assign {s:ℕ}{f:SectorBlock→SectorBlock}
 (keep:∀b,(f b).sector=b.sector)(heq:h=assign blockOps d.cache (key s) f):
 WF blockOps h ∧ h.elems=d.cache.elems.map (fun b=>if blockOps.equal b (key s) then f b else b) ∧
  ({d with cache:=h}).cached=update d.cached s ((d.cached s).map f):=by
 have wf':=wf.assign blockOps_lawful (key s) (fun b _=>blockOps_equal.2 (keep b))
 have elems:=wf.assign_elems blockOps_lawful (key s) f
 rw[←heq] at wf' elems
 refine ⟨wf',elems,cached_eq_of_mem wf' (fun t c=>?_)⟩
 have store:∀b,(if blockOps.equal b (key s) then f b else b)=if b.sector=s then f b else b:=by
  intro b
  simp only[blockOps_equal]
  rfl
 rw[elems,List.mem_map]
 simp only[store]
 by_cases hs:t=s
 · subst hs
   rw[update_self,Option.map_eq_some_iff]
   constructor
   · rintro ⟨⟨b,hb,rfl⟩,he⟩
     by_cases hbs:b.sector=t
     · exact ⟨b,(cached_eq_some wf).2 ⟨hb,hbs⟩,by rw[if_pos hbs]⟩
     · rw[if_neg hbs] at he
       exact absurd he hbs
   · rintro ⟨b,hb,rfl⟩
     obtain ⟨hm,hbs⟩:=(cached_eq_some wf).1 hb
     exact ⟨⟨b,hm,by rw[if_pos hbs]⟩,(keep b).trans hbs⟩
 · rw[update_of_ne hs,cached_eq_some wf]
   constructor
   · rintro ⟨⟨b,hb,rfl⟩,he⟩
     by_cases hbs:b.sector=s
     · rw[if_pos hbs,keep,hbs] at he
       exact absurd he.symm hs
     · rw[if_neg hbs] at he ⊢
       exact ⟨hb,he⟩
   · rintro ⟨hc,rfl⟩
     exact ⟨⟨c,hc,by rw[if_neg hs]⟩,rfl⟩

end

lemma foldl_chooseEvict (l:List SectorBlock)(c:SectorBlock):
 ∃r before after,l.foldl chooseEvict (some c)=some r ∧ c::l=before++r::after ∧
  (∀b∈before,r.lastAccess<b.lastAccess) ∧ ∀b∈after,r.lastAccess≤b.lastAccess:=by
 induction l generalizing c with
 | nil=>exact ⟨c,[],[],rfl,rfl,by simp,by simp⟩
 | cons x l ih=>
  by_cases hx:x.lastAccess<c.lastAccess
  · obtain ⟨r,before,after,hr,hl,hb,ha⟩:=ih x
    refine ⟨r,c::before,after,?_,by rw[hl];rfl,?_,ha⟩
    · rw[foldl_cons,←hr]
      simp[chooseEvict,hx]
    · have hrx:r.lastAccess≤x.lastAccess:=by
       have hm:x∈before++r::after:=by
        rw[←hl]
        exact mem_cons_self
       rcases mem_append.1 hm with hm|hm
       · exact (hb x hm).le
       · rcases mem_cons.1 hm with rfl|hm
         · exact le_refl _
         · exact ha x hm
      intro b hm
      rcases mem_cons.1 hm with rfl|hm
      · omega
      · exact hb b hm
  · obtain ⟨r,before,after,hr,hl,hb,ha⟩:=ih c
    have hstep:(x::l).foldl chooseEvict (some c)=some r:=by
     rw[foldl_cons,←hr]
     simp[chooseEvict,hx]
    cases before with
    | nil=>
     obtain ⟨rfl,rfl⟩:=List.cons.inj hl
     refine ⟨c,[],x::l,hstep,rfl,by simp,?_⟩
     intro b hm
     rcases mem_cons.1 hm with rfl|hm
     · omega
     · exact ha b hm
    | cons y before=>
     obtain ⟨rfl,rfl⟩:=List.cons.inj hl
     refine ⟨r,c::x::before,after,hstep,rfl,?_,ha⟩
     have hc:=hb c mem_cons_self
     intro b hm
     rcases mem_cons.1 hm with rfl|hm
     · exact hc
     rcases mem_cons.1 hm with rfl|hm
     · omega
     · exact hb b (mem_cons_of_mem c hm)

lemma evictCandidate_eq_none:evictCandidate h=none ↔ h.elems=[]:=by
 unfold evictCandidate
 rw[visited_hashFirst (le_refl _)]
 cases h.elems with
 | nil=>simp
 | cons c l=>
  obtain ⟨r,_,_,hr,_⟩:=foldl_chooseEvict l c
  have hc:chooseEvict none c=some c:=by simp[chooseEvict]
  rw[foldl_cons,hc,hr]
  simp

lemma evictCandidate_eq_some {r:SectorBlock}(hr:evictCandidate h=some r):
 ∃before after,h.elems=before++r::after ∧
  (∀b∈before,r.lastAccess<b.lastAccess) ∧ ∀b∈after,r.lastAccess≤b.lastAccess:=by
 unfold evictCandidate at hr
 rw[visited_hashFirst (le_refl _)] at hr
 cases hl:h.elems with
 | nil=>simp[hl] at hr
 | cons c l=>
  obtain ⟨r',before,after,hr',split⟩:=foldl_chooseEvict l c
  have hc:chooseEvict none c=some c:=by simp[chooseEvict]
  rw[hl,foldl_cons,hc,hr'] at hr
  obtain rfl:=Option.some.inj hr
  exact ⟨before,after,split⟩

lemma evictCandidate_mem {r:SectorBlock}(hr:evictCandidate h=some r):r∈h.elems:=by
 obtain ⟨before,after,hl,-⟩:=evictCandidate_eq_some hr
 rw[hl]
 simp

end

structure SameDevice (d d':Device):Prop where
 size:d'.size=d.size
 clock:d'.clock=d.clock
 mallocOk:d'.mallocOk=d.mallocOk

lemma SameDevice.refl (d:Device):SameDevice d d:=⟨rfl,rfl,rfl⟩
lemma SameDevice.trans {d e f:Device}(h:SameDevice d e)(h':SameDevice e f):SameDevice d f:=
 ⟨h'.size.trans h.size,h'.clock.trans h.clock,h'.mallocOk.trans h.mallocOk⟩

/-- `d'` is `d` after its candidate `v` was written back if dirty, and dropped. -/
structure Evicts (d d':Device)(v:SectorBlock):Prop extends SameDevice d d' where
 candidate:evictCandidate d.cache=some v
 blocks:d'.cached=update d.cached v.sector none
 disk:d'.disk=if v.dirty then update d.disk v.sector v.buffer else d.disk
 ticks:d'.ticks=d.ticks
 count:hashSize d'.cache+1=hashSize d.cache
variable {d:Device}{E:Fault→Prop}{Q:Unit→Device→Prop}{s:ℕ}
 {f:SectorBlock→SectorBlock}{b:SectorBlock}

@[simp] lemma holds_rtcGetTime {Q:ℕ→Device→Prop}:
 Holds rtcGetTime d Q E ↔ Q (d.clock d.ticks) {d with ticks:=d.ticks+1}:=Iff.rfl
@[simp] lemma holds_malloc {Q:Bool→Device→Prop}:
 Holds malloc d Q E ↔ Q (d.mallocOk d.mallocs) {d with mallocs:=d.mallocs+1}:=Iff.rfl
@[simp] lemma holds_checkSector:
 Holds (checkSector s) d Q E ↔ if s<d.size then Q () d else E .sectorRange:=by
 simp only[checkSector,holds_bind,holds_get]
 split<;>simp
@[simp] lemma holds_blockRead {Q:Sector→Device→Prop}:
 Holds (blockRead s) d Q E ↔ if s<d.size then Q (d.disk s) d else E .sectorRange:=by
 simp only[blockRead,holds_bind,holds_checkSector,holds_get,holds_pure]
@[simp] lemma holds_blockWrite {b:Sector}:Holds (blockWrite s b) d Q E ↔
  if s<d.size then Q () {d with disk:=update d.disk s b}
  else E .sectorRange:=by
 simp[blockWrite]
@[simp] lemma holds_setBlock:
 Holds (setBlock s f) d Q E ↔ Q () {d with cache:=assign blockOps d.cache (key s) f}:=
 Iff.rfl

lemma holds_writeBack (hb:b.sector<d.size):Holds (writeBack b) d Q E ↔
  Q () {d with
   disk:=if b.dirty then update d.disk b.sector b.buffer else d.disk}:=by
 unfold writeBack
 cases b.dirty<;>simp[hb]

lemma blockEvict_spec (inv:Inv d):Holds blockEvict d (fun _ d'=>Inv d' ∧ ∃v,Evicts d d' v)
  (fun e=>e=.uninitialized ∧ d.cache.elems=[]):=by
 unfold blockEvict
 simp only[holds_bind,holds_get]
 cases hc:evictCandidate d.cache with
 | none=>exact ⟨rfl,evictCandidate_eq_none.1 hc⟩
 | some v=>
  have hv:=evictCandidate_mem hc
  simp only[holds_bind,holds_writeBack (inv.range v hv),holds_malloc]
  obtain ⟨wf,perm,blocks⟩:=cached_delete inv.wf (d.mallocOk d.mallocs) hv rfl
  have count:(hashDelete blockOps (d.mallocOk d.mallocs) d.cache v).2.elemCnt+1=d.cache.elemCnt:=by
   rw[wf.count,inv.wf.count,perm.length_eq,length_cons]
  have hlimit:d.cache.elemCnt≤64:=inv.limit
  refine ⟨⟨wf,?_,?_⟩,v,⟨rfl,rfl,rfl⟩,hc,blocks,rfl,rfl,count⟩
  · change (hashDelete blockOps (d.mallocOk d.mallocs) d.cache v).2.elemCnt≤64
    omega
  · intro b hb
    exact inv.range b (perm.mem_iff.2 (mem_cons_of_mem v hb))

lemma holds_getBlockFromCache_miss (miss:d.cached s=none)
 {Q:Option SectorBlock→Device→Prop}:Holds (getBlockFromCache s) d Q E ↔ Q none d:=by
 unfold Device.cached at miss
 simp only[getBlockFromCache,holds_bind,holds_get,miss,holds_pure]

lemma holds_getBlockFromCache_hit (hit:d.cached s=some b){Q:Option SectorBlock→Device→Prop}:
 Holds (getBlockFromCache s) d Q E ↔ Q (some {b with lastAccess:=d.clock d.ticks})
   {d with
     ticks:=d.ticks+1
     cache:=assign blockOps d.cache (key s)
      (fun b=>{b with lastAccess:=d.clock d.ticks})}:=by
 unfold Device.cached at hit
 simp only[getBlockFromCache,holds_bind,holds_get,hit,holds_rtcGetTime,holds_setBlock,holds_pure]

lemma Inv.assign (inv:Inv d){n:ℕ}(keep:∀b,(f b).sector=b.sector):
 Inv {d with ticks:=n,cache:=assign blockOps d.cache (key s) f}:=by
 obtain ⟨wf,elems,-⟩:=cached_assign (d:=d) (s:=s) inv.wf keep rfl
 refine ⟨wf,(hashSize_assign (key s) f).le.trans inv.limit,fun c hm=>?_⟩
 rw[elems,List.mem_map] at hm
 obtain ⟨b,hb,rfl⟩:=hm
 split
 · rw[keep]
   exact inv.range b hb
 · exact inv.range b hb

lemma cached_store (inv:Inv d){n:ℕ}(keep:∀b,(f b).sector=b.sector):
 ({d with ticks:=n,cache:=assign blockOps d.cache (key s) f}).cached=
  update d.cached s ((d.cached s).map f):=
 (cached_assign (d:=d) (s:=s) inv.wf keep rfl).2.2

lemma getBlockFromCache_spec (inv:Inv d)(s:ℕ):
 Holds (getBlockFromCache s) d (fun r d'=>Inv d' ∧ SameDevice d d' ∧ d'.disk=d.disk ∧
  hashSize d'.cache=hashSize d.cache ∧
  ((d.cached s=none ∧ r=none ∧ d'=d) ∨
   ∃b,d.cached s=some b ∧ r=some {b with lastAccess:=d.clock d.ticks} ∧
    d'.cached=update d.cached s r ∧ d'.ticks=d.ticks+1)) NoFault:=by
 cases hc:d.cached s with
 | none=>
  rw[holds_getBlockFromCache_miss hc]
  exact ⟨inv,.refl d,rfl,rfl,.inl ⟨rfl,rfl,rfl⟩⟩
 | some b=>
  rw[holds_getBlockFromCache_hit hc]
  refine ⟨inv.assign (fun _=>rfl),⟨rfl,rfl,rfl⟩,rfl,hashSize_assign _ _,.inr ⟨b,rfl,rfl,?_,rfl⟩⟩
  have blocks:=cached_store inv (s:=s) (n:=d.ticks+1)
   (f:=fun b=>{b with lastAccess:=d.clock d.ticks}) (fun _=>rfl)
  rw[hc] at blocks
  exact blocks

lemma evictAtLimit_spec (inv:Inv d):Holds evictAtLimit d (fun _ d'=>Inv d' ∧ hashSize d'.cache<64 ∧
  ((hashSize d.cache<64 ∧ d'=d) ∨ (64≤hashSize d.cache ∧ ∃v,Evicts d d' v)))
  NoFault:=by
 unfold evictAtLimit
 simp only[holds_bind,holds_get]
 split
 · rename_i full
   refine (blockEvict_spec inv).mono ?_ ?_
   · rintro _ d' ⟨inv',v,ev⟩
     have hc:=ev.count
     have hl:=inv.limit
     exact ⟨inv',by omega,.inr ⟨full,v,ev⟩⟩
   · rintro e ⟨-,he⟩
     have hc:=inv.wf.count
     rw[he] at hc
     change 64≤d.cache.elemCnt at full
     rw[hc] at full
     simp at full
 · exact ⟨inv,by omega,.inl ⟨by omega,rfl⟩⟩

def MadeRoom (d d₁:Device):Prop:=
 (hashSize d.cache<64 ∧ d₁=d) ∨ (64≤hashSize d.cache ∧ ∃v,Evicts d d₁ v)
lemma MadeRoom.sameDevice {d₁:Device}(h:MadeRoom d d₁):SameDevice d d₁ ∧ d₁.ticks=d.ticks:=by
 rcases h with ⟨-,rfl⟩|⟨-,v,ev⟩
 · exact ⟨.refl _,rfl⟩
 · exact ⟨ev.toSameDevice,ev.ticks⟩
lemma MadeRoom.missed {d₁:Device}(h:MadeRoom d d₁)(miss:d.cached s=none):d₁.cached s=none:=by
 rcases h with ⟨-,rfl⟩|⟨-,v,ev⟩
 · exact miss
 · rw[ev.blocks,update_apply,miss,ite_self]

structure Fills (d d':Device)(s:ℕ)(b:SectorBlock)(d₁:Device):Prop where
 room:MadeRoom d d₁
 block:b=⟨s,d₁.disk s,false,d.clock d.ticks⟩
 blocks:d'.cached=update d₁.cached s (some b)
 disk:d'.disk=d₁.disk
 ticks:d'.ticks=d.ticks+1
 same:SameDevice d d'

lemma holds_readInto {buffer:Bool}{Q:Sector→Device→Prop}:Holds (readInto buffer s) d Q E ↔
  if s<d.size then if buffer then Q (d.disk s) d else E .nullPointer
  else E .sectorRange:=by
 simp only[readInto,holds_bind,holds_blockRead]
 cases buffer<;>rfl

lemma cacheBlockFromSector_spec (inv:Inv d)(miss:d.cached s=none):
 Holds (cacheBlockFromSector s) d (fun b d'=>Inv d' ∧ ∃d₁,Fills d d' s b d₁)
  (fun e=>(e=.sectorRange ∧ d.size ≤ s) ∨ (e=.nullPointer ∧ ∃n,d.mallocOk n=false)):=by
 refine ((evictAtLimit_spec inv).mono (F:=fun e=>(e=.sectorRange ∧ d.size ≤ s) ∨
  (e=.nullPointer ∧ ∃n,d.mallocOk n=false)) (fun _ _ h=>h) (fun e h=>h.elim)).seq ?_
 rintro _ d₁ ⟨inv₁,space,room⟩
 obtain ⟨same,ticks⟩:=MadeRoom.sameDevice room
 have miss₁:=MadeRoom.missed room miss
 rw[holds_bind,holds_rtcGetTime,holds_bind,holds_malloc,holds_bind,holds_readInto]
 split
 swap
 · rename_i hs
   have hsize:=same.size
   exact .inl ⟨rfl,by dsimp only at hs;omega⟩
 rename_i hs
 split
 swap
 · rename_i hm
   refine .inr ⟨rfl,d₁.mallocs,?_⟩
   rw[←same.mallocOk]
   simpa using hm
 · obtain ⟨wf,perm,blocks⟩:=
    cached_insert (b:=⟨s,d₁.disk s,false,d₁.clock d₁.ticks⟩) inv₁.wf
    (d₁.mallocOk (d₁.mallocs+1)) miss₁ rfl
   have stamp:d₁.clock d₁.ticks=d.clock d.ticks:=by rw[same.clock,ticks]
   refine ⟨⟨wf,?_,?_⟩,d₁,room,?_,blocks,rfl,?_,⟨same.size,same.clock,same.mallocOk⟩⟩
   · change (hashInsert blockOps _ d₁.cache _).2.elemCnt≤64
     rw[wf.count,perm.length_eq,length_cons,←inv₁.wf.count]
     exact space
   · intro b hb
     rcases mem_cons.1 (perm.mem_iff.1 hb) with rfl|hb
     · exact hs
     · exact inv₁.range b hb
   · rw[stamp]
   · exact congrArg (· + 1) ticks

def Obtains (d d':Device)(s:ℕ)(b:SectorBlock):Prop:=
 (∃b₀,d.cached s=some b₀ ∧ b={b₀ with lastAccess:=d.clock d.ticks} ∧
   d'.cached=update d.cached s (some b) ∧ d'.disk=d.disk ∧
   d'.ticks=d.ticks+1 ∧ SameDevice d d') ∨
  (d.cached s=none ∧ ∃d₁,Fills d d' s b d₁)

lemma Obtains.cached {d':Device}(h:Obtains d d' s b):d'.cached s=some b:=by
 rcases h with ⟨b₀,-,-,blocks,-⟩|⟨-,d₁,fill⟩
 · rw[blocks,update_self]
 · rw[fill.blocks,update_self]
lemma Obtains.sameDevice {d':Device}(h:Obtains d d' s b):SameDevice d d' ∧ d'.ticks=d.ticks+1:=by
 rcases h with ⟨b₀,-,-,-,-,ticks,same⟩|⟨-,d₁,fill⟩
 · exact ⟨same,ticks⟩
 · exact ⟨fill.same,fill.ticks⟩

lemma blockFor_spec (inv:Inv d)(s:ℕ):
 Holds (blockFor s) d (fun b d'=>Inv d' ∧ b.sector=s ∧ Obtains d d' s b)
  (fun e=>(e=.sectorRange ∧ d.size ≤ s) ∨ (e=.nullPointer ∧ ∃n,d.mallocOk n=false)):=by
 unfold blockFor
 rw[holds_bind]
 cases hc:d.cached s with
 | none=>
  rw[holds_getBlockFromCache_miss hc]
  refine (cacheBlockFromSector_spec inv hc).imp ?_
  rintro b d' ⟨inv',d₁,fill⟩
  exact ⟨inv',by rw[fill.block],.inr ⟨hc,d₁,fill⟩⟩
 | some b=>
  refine (getBlockFromCache_spec inv s).mono ?_ (fun _ h=>h.elim)
  rintro r d' ⟨inv',same,disk,-,⟨miss,-⟩|⟨b',hb',rfl,blocks,ticks⟩⟩
  · rw[hc] at miss
    cases miss
  · refine ⟨inv',((cached_eq_some inv.wf).1 hb').2,.inl ?_⟩
    exact ⟨b',hb',rfl,blocks,disk,ticks,same⟩

structure Writes (d d':Device)(s:ℕ)(buffer:Sector)(d₂:Device)(b:SectorBlock):
  Prop where
 obtained:Obtains d d₂ s b
 blocks:d'.cached=update d₂.cached s
  (some ⟨s,copyPointerSize b.buffer buffer,true,d.clock (d.ticks+1)⟩)
 disk:d'.disk=d₂.disk
 ticks:d'.ticks=d.ticks+2
 same:SameDevice d d'

lemma cacheAndWriteBlock_spec (inv:Inv d)(s:ℕ)(buffer:Sector):
 Holds (cacheAndWriteBlock s buffer) d (fun _ d'=>Inv d' ∧ ∃d₂ b,Writes d d' s buffer d₂ b)
  (fun e=>(e=.sectorRange ∧ d.size ≤ s) ∨ (e=.nullPointer ∧ ∃n,d.mallocOk n=false)):=by
 refine (blockFor_spec inv s).seq ?_
 rintro b d₂ ⟨inv₂,rfl,obtained⟩
 obtain ⟨same,ticks⟩:=obtained.sameDevice
 let f:SectorBlock → SectorBlock:=fun c=>
  {c with
    buffer:=copyPointerSize c.buffer buffer
    dirty:=true
    lastAccess:=d₂.clock d₂.ticks}
 have blocks:=cached_store inv₂ (s:=b.sector) (n:=d₂.ticks+1) (f:=f) (fun _=>rfl)
 rw[obtained.cached] at blocks
 refine ⟨inv₂.assign (f:=f) (fun _=>rfl),d₂,b,obtained,?_,rfl,?_,
  ⟨same.size,same.clock,same.mallocOk⟩⟩
 · refine blocks.trans ?_
   rw[←ticks,←same.clock]
   rfl
 · exact congrArg (· + 1) ticks

end Pintos.Cache
