import Pintos.Malloc

namespace Pintos.Malloc
open LinkedHeap KernelLists ExecRuns Function List Option Nat
open Palloc (pgSize Area Apart)

section

structure Desc.Ok (d:Desc):Prop where
 low:16≤d.blockSize
 high:d.blockSize<pgSize/2
 count:d.blocksPerArena=(pgSize-arenaSize)/d.blockSize

def arenaBlocks (d:Desc)(a:ℕ):List ℕ:=
 (List.range d.blocksPerArena).map fun idx=>a+arenaSize+idx*d.blockSize
def freeBlocks (d:Desc)(a:ℕ)(addrs:List ℕ):List ℕ:=(arenaBlocks d a).filter (· ∉ addrs)

variable {d:Desc}{a x y idx:ℕ}

lemma Desc.Ok.fits (h:d.Ok)(hi:idx<d.blocksPerArena):
 arenaSize+idx*d.blockSize+d.blockSize≤pgSize:=by
 have turns:(idx+1)*d.blockSize≤(pgSize-arenaSize)/d.blockSize*d.blockSize:=by
  apply Nat.mul_le_mul_right
  rw[←h.count]
  exact hi
 have below:=div_mul_le_self (pgSize-arenaSize) d.blockSize
 rw[succ_mul] at turns
 unfold pgSize arenaSize at *
 omega

lemma Desc.Ok.count_pos (h:d.Ok):0<d.blocksPerArena:=by
 rw[h.count]
 have low:=h.low
 have high:=h.high
 unfold pgSize at high
 exact div_pos (by unfold pgSize arenaSize;omega) (by omega)

lemma Desc.Ok.count_le (h:d.Ok):d.blocksPerArena≤255:=by
 rw[h.count]
 calc (pgSize-arenaSize)/d.blockSize≤(pgSize-arenaSize)/16:=div_le_div_left h.low (by omega)
   _ ≤ 255:=by unfold pgSize arenaSize;omega
lemma mem_arenaBlocks:x∈arenaBlocks d a ↔ ∃idx<d.blocksPerArena,x=a+arenaSize+idx*d.blockSize:=by
 simp only[arenaBlocks,List.mem_map,mem_range]
 exact ⟨fun ⟨idx,hi,eq⟩=>⟨idx,hi,eq.symm⟩,fun ⟨idx,hi,eq⟩=>⟨idx,hi,eq.symm⟩⟩
lemma Desc.Ok.bounds (h:d.Ok)(hx:x∈arenaBlocks d a):a+arenaSize≤x ∧ x+d.blockSize≤a+pgSize:=by
 obtain ⟨idx,hi,rfl⟩:=mem_arenaBlocks.1 hx
 have fits:=h.fits hi
 omega

lemma Desc.Ok.page (h:d.Ok)(whole:a%pgSize=0)(hx:x∈arenaBlocks d a):pgRoundDown x=a:=by
 have bounds:=h.bounds hx
 have low:=h.low
 unfold pgRoundDown pgSize at *
 omega

lemma Desc.Ok.aligned (h:d.Ok)(whole:a%pgSize=0)(hx:x∈arenaBlocks d a):
 subWord (pgOfs x) arenaSize%d.blockSize=0:=by
 obtain ⟨idx,hi,rfl⟩:=mem_arenaBlocks.1 hx
 have fits:=h.fits hi
 have low:=h.low
 have offset:subWord (pgOfs (a+arenaSize+idx*d.blockSize)) arenaSize=idx*d.blockSize:=by
  unfold subWord pgOfs pgSize arenaSize at *
  omega
 rw[offset,mul_mod_left]

lemma arenaBlocks_apart (hx:x∈arenaBlocks d a)(hy:y∈arenaBlocks d a)
 (hne:x≠y):Apart (x,d.blockSize) (y,d.blockSize):=by
 obtain ⟨i,-,rfl⟩:=mem_arenaBlocks.1 hx
 obtain ⟨j,-,rfl⟩:=mem_arenaBlocks.1 hy
 unfold Apart
 rcases lt_trichotomy i j with hij|rfl|hij
 · have step:=Nat.mul_le_mul_right d.blockSize (succ_le_of_lt hij)
   rw[succ_mul] at step
   omega
 · exact absurd rfl hne
 · have step:=Nat.mul_le_mul_right d.blockSize (succ_le_of_lt hij)
   rw[succ_mul] at step
   omega

lemma Desc.Ok.nodup (h:d.Ok):(arenaBlocks d a).Nodup:=by
 refine Nodup.map ?_ nodup_range
 intro i j eq
 have pos:0<d.blockSize:=by
  have:=h.low
  omega
 exact eq_of_mul_eq_mul_right pos (by simpa using eq)

lemma mem_freeBlocks {addrs:List ℕ}:x∈freeBlocks d a addrs ↔ x∈arenaBlocks d a ∧ x∉addrs:=by
 simp[freeBlocks]

lemma Desc.Ok.length_take (h:d.Ok){addrs addrs':List ℕ}(hx:x∈arenaBlocks d a)
 (free:x∉addrs)(taken:∀y,y∈addrs' ↔ y=x ∨ y∈addrs):
 (freeBlocks d a addrs).length=(freeBlocks d a addrs').length+1:=by
 have mem:x∈freeBlocks d a addrs:=mem_freeBlocks.2 ⟨hx,free⟩
 have nodup:(freeBlocks d a addrs).Nodup:=h.nodup.filter _
 have erased:freeBlocks d a addrs'=(freeBlocks d a addrs).erase x:=by
  rw[nodup.erase_eq_filter]
  unfold freeBlocks
  rw[List.filter_filter]
  apply filter_congr
  intro y _
  rw[Bool.eq_iff_iff]
  simp[taken]
 rw[erased,length_erase_of_mem mem]
 have:=length_pos_of_mem mem
 omega

lemma Desc.Ok.length_le (h:d.Ok)(addrs:List ℕ):(freeBlocks d a addrs).length≤255:=
 le_trans (length_filter_le _ _) (by simpa[arenaBlocks] using h.count_le)
lemma freeBlocks_congr {addrs addrs':List ℕ}(same:∀y∈arenaBlocks d a,y∈addrs' ↔ y∈addrs):
 freeBlocks d a addrs'=freeBlocks d a addrs:=by
 apply filter_congr
 intro y hy
 simp[same y hy]

variable {descs:List Desc}{m:Memory}{i:ℕ}

lemma index_lt (found:descs[i]?=some d):i<descs.length:=(List.getElem?_eq_some_iff.1 found).1
lemma Desc.Ok.of_found (ok:∀d∈descs,d.Ok)(found:descs[i]?=some d):d.Ok:=ok d (mem_of_getElem? found)
lemma guard_true {p:Prop}[Decidable p](h:p):(guard p:Option Unit)=some ():=if_pos h

lemma blockToArena_small (hd:d.Ok)(whole:a%pgSize=0)(pos:0<a)
 (magic:(m.arena a).magic=arenaMagic)(desc:(m.arena a).desc=some i)
 (found:descs[i]?=some d)(hx:x∈arenaBlocks d a):
 blockToArena descs m x=some a:=by
 have page:=hd.page whole hx
 subst page
 unfold blockToArena
 dsimp only
 rw[guard_true (ne_of_gt pos),guard_true magic,desc]
 dsimp only
 rw[found,bind_eq_bind,bind_some,bind_eq_bind,bind_some,
  bind_some]
 simp only[guard_true (hd.aligned whole hx)]
 rfl

lemma blockToArena_big (whole:a%pgSize=0)(pos:0<a)
 (magic:(m.arena a).magic=arenaMagic)(desc:(m.arena a).desc=none):
 blockToArena descs m (a+arenaSize)=some a:=by
 have page:pgRoundDown (a+arenaSize)=a:=by
  unfold pgRoundDown pgSize arenaSize at *
  omega
 have offset:pgOfs (a+arenaSize)=arenaSize:=by
  unfold pgOfs pgSize arenaSize at *
  omega
 unfold blockToArena
 rw[page]
 simp[desc,magic,offset,ne_of_gt pos]

lemma arenaToBlock_eq (pos:0<a)(magic:(m.arena a).magic=arenaMagic)
 (desc:(m.arena a).desc=some i)(found:descs[i]?=some d){idx:ℕ}
 (hi:idx<d.blocksPerArena):
 arenaToBlock descs m a idx=some (a+arenaSize+idx*d.blockSize):=by
 simp[arenaToBlock,desc,found,magic,ne_of_gt pos,hi]

end

section

variable (descs:List Desc)

def addrs (live:List Block):List ℕ:=live.map Block.addr

/-- The block at `x` is one of descriptor `i`, and it is not live. -/
def FreeAt (s:Store)(addrs:List ℕ)(i x:ℕ):Prop:=
 ∃r∈s.pages,∃d,(s.mem.arena r.start).desc=some i ∧ descs[i]?=some d ∧ x∈freeBlocks d r.start addrs

structure Describes (h:Arena)(r:Pages)(addrs:List ℕ):Prop where
 magic:h.magic=arenaMagic
 known:∀i,h.desc=some i → ∃d,descs[i]?=some d
 big:h.desc=none → h.freeCnt=r.cnt
 small:∀i d,h.desc=some i → descs[i]?=some d →
  r.cnt=1 ∧ h.freeCnt=(freeBlocks d r.start addrs).length

structure Holds (h:Arena)(r:Pages)(b:Block):Prop where
 big:h.desc=none → b.addr=r.start+arenaSize ∧ b.size=r.cnt*pgSize-arenaSize
 small:∀i d,h.desc=some i → descs[i]?=some d → b.addr∈arenaBlocks d r.start ∧ b.size=d.blockSize

structure WellPlaced (r:Pages):Prop where
 whole:r.start%pgSize=0
 notNull:0<r.start
 some:0<r.cnt
 bound:r.start+r.cnt*pgSize≤4294967296

def Listed (s:Store)(addrs:List ℕ)(free:Fin descs.length → List ℕ):Prop:=
 Lists s.mem.links (fun i:Fin descs.length=>freeList i.val) (fun i=>(free i).map .block) ∧
  ∀i x,x∈free i ↔ FreeAt descs s addrs i.val x

structure Core (s:State):Prop where
 placed:∀r∈s.store.pages,WellPlaced r
 apart:s.store.pages.Pairwise (fun r t=>Apart r.area t.area)
 headers:∀r∈s.store.pages,Describes descs (s.store.mem.arena r.start) r (addrs s.live)
 held:∀b∈s.live,b.asked≤b.size ∧ ∃r∈s.store.pages,Holds descs (s.store.mem.arena r.start) r b
 once:(addrs s.live).Nodup
 lists:∃free,Listed descs s.store (addrs s.live) free

def Busy (s:State)(r:Pages):Prop:=∃b∈s.live,Holds descs (s.store.mem.arena r.start) r b

structure Inv (s:State):Prop extends Core descs s where
 busy:∀r∈s.store.pages,Busy descs s r

end

section

def Within (a b:Area):Prop:=b.1≤a.1 ∧ a.1+a.2≤b.1+b.2
lemma apart_symm {a b:Area}(h:Apart a b):Apart b a:=Or.symm h
lemma Within.refl (a:Area):Within a a:=⟨Nat.le_refl _,Nat.le_refl _⟩
lemma Within.apart {a b a' b':Area}(ha:Within a' a)(hb:Within b' b)(h:Apart a b):Apart a' b':=by
 unfold Within Apart at *
 omega

variable {descs:List Desc}{s:State}{r t:Pages}{b c:Block}{i x:ℕ}

lemma Core.pages_apart (h:Core descs s)(hr:r∈s.store.pages)(ht:t∈s.store.pages)
 (hne:r≠t):Apart r.area t.area:=
 have:Std.Symm (fun r t:Pages=>Apart r.area t.area):=⟨fun _ _=>apart_symm⟩
 h.apart.forall hr ht hne

lemma Core.eq_of_start (h:Core descs s)(hr:r∈s.store.pages)(ht:t∈s.store.pages)
 (start:r.start=t.start):r=t:=by
 by_contra hne
 have apart:=h.pages_apart hr ht hne
 have hr':=(h.placed r hr).some
 have ht':=(h.placed t ht).some
 unfold Apart Pages.area pgSize at apart
 omega

lemma Describes.cases {h:Arena}{addrs:List ℕ}(hd:Describes descs h r addrs):
 h.desc=none ∨ ∃i d,h.desc=some i ∧ descs[i]?=some d:=by
 cases desc:h.desc with
 | none=>exact .inl rfl
 | some i=>
  obtain ⟨d,found⟩:=hd.known i desc
  exact .inr ⟨i,d,rfl,found⟩

@[simp]
lemma block_mem_cells {xs:List ℕ}:Cell.block x∈cells (freeList i) (xs.map .block) ↔ x∈xs:=by
 simp[freeList]

structure Leaves (m m':Memory)(area:Area):Prop where
 links:∀x,¬Apart (x,elemSize) area → SameLinks m.links m'.links (.block x)
 arena:∀a,¬Apart (a,arenaSize) area → m'.arena a=m.arena a

lemma Leaves.trans {m₁ m₂ m₃:Memory}{area:Area}(first:Leaves m₁ m₂ area)
 (second:Leaves m₂ m₃ area):Leaves m₁ m₃ area where
 links x hx:=by
  obtain ⟨prev,next⟩:=first.links x hx
  obtain ⟨prev',next'⟩:=second.links x hx
  exact ⟨prev'.trans prev,next'.trans next⟩
 arena a ha:=(second.arena a ha).trans (first.arena a ha)

lemma leaves_of_frame {m m':Memory}{area:Area}{touched:List Cell}
 (frame:∀c∉touched,SameLinks m.links m'.links c)
 (cells:∀x,.block x∈touched → Apart (x,elemSize) area)
 (arena:∀a,Apart (a,arenaSize) area ∨ m'.arena a=m.arena a):Leaves m m' area where
 links x hx:=frame _ fun touch=>hx (cells x touch)
 arena a ha:=(arena a).resolve_left ha

variable (ok:∀d∈descs,d.Ok)(h:Core descs s)
include ok h

lemma Core.page (hr:r∈s.store.pages){d:Desc}(found:descs[i]?=some d)
 (hx:x∈arenaBlocks d r.start):pgRoundDown x=r.start:=
 (Desc.Ok.of_found ok found).page (h.placed r hr).whole hx

lemma Core.holds_bounds (hr:r∈s.store.pages)
 (hb:Holds descs (s.store.mem.arena r.start) r b):
 r.start+arenaSize≤b.addr ∧ b.addr+b.size≤r.start+r.cnt*pgSize ∧
  elemSize≤b.size ∧ pgRoundDown b.addr=r.start:=by
 have placed:=h.placed r hr
 have whole:=placed.whole
 have pos:=placed.some
 rcases (h.headers r hr).cases with desc|⟨i,d,desc,found⟩
 · obtain ⟨addr,size⟩:=hb.big desc
   rw[addr,size]
   unfold pgRoundDown elemSize pgSize arenaSize at *
   omega
 · obtain ⟨mem,size⟩:=hb.small i d desc found
   obtain ⟨one,-⟩:=(h.headers r hr).small i d desc found
   have hd:=Desc.Ok.of_found ok found
   have bounds:=hd.bounds mem
   have low:=hd.low
   have page:=hd.page whole mem
   refine ⟨bounds.1,?_,?_,page⟩
   · rw[size,one,one_mul]
     exact bounds.2
   · unfold elemSize
     omega

lemma Core.holds_within (hr:r∈s.store.pages)
 (hb:Holds descs (s.store.mem.arena r.start) r b):Within b.area r.area:=by
 have bounds:=h.holds_bounds ok hr hb
 unfold Within Block.area Pages.area
 dsimp only
 omega

lemma Core.live_apart (hb:b∈s.live)(hc:c∈s.live)
 (hne:b.addr≠c.addr):Apart b.area c.area:=by
 obtain ⟨-,r,hr,hold⟩:=h.held b hb
 obtain ⟨-,t,ht,hold'⟩:=h.held c hc
 by_cases same:r=t
 · subst same
   rcases (h.headers r hr).cases with desc|⟨i,d,desc,found⟩
   · have addr:=(hold.big desc).1
     have addr':=(hold'.big desc).1
     exact absurd (addr.trans addr'.symm) hne
   · obtain ⟨mem,size⟩:=hold.small i d desc found
     obtain ⟨mem',size'⟩:=hold'.small i d desc found
     unfold Block.area
     rw[size,size']
     exact arenaBlocks_apart mem mem' hne
 · exact (h.holds_within ok hr hold).apart (h.holds_within ok ht hold') (h.pages_apart hr ht same)

lemma Core.header_apart (hb:b∈s.live)(hr:r∈s.store.pages):
 Apart (r.start,arenaSize) b.area:=by
 obtain ⟨-,t,ht,hold⟩:=h.held b hb
 by_cases same:r=t
 · subst same
   have bounds:=h.holds_bounds ok hr hold
   exact .inl bounds.1
 · refine Within.apart ?_ (h.holds_within ok ht hold) (h.pages_apart hr ht same)
   have pos:=(h.placed r hr).some
   unfold Within Pages.area pgSize arenaSize
   dsimp only
   omega

lemma Core.freeAt_bounds (hr:r∈s.store.pages){d:Desc}
 (desc:(s.store.mem.arena r.start).desc=some i)(found:descs[i]?=some d)
 (hx:x∈arenaBlocks d r.start):
 r.start+arenaSize≤x ∧ Within (x,d.blockSize) r.area:=by
 have hd:=Desc.Ok.of_found ok found
 obtain ⟨one,-⟩:=(h.headers r hr).small i d desc found
 have bounds:=hd.bounds hx
 refine ⟨bounds.1,?_⟩
 unfold Within Pages.area
 dsimp only
 rw[one]
 omega

lemma Core.free_apart (hb:b∈s.live)
 (hx:FreeAt descs s.store (addrs s.live) i x):Apart (x,elemSize) b.area:=by
 obtain ⟨r,hr,d,desc,found,mem⟩:=hx
 obtain ⟨mem,notLive⟩:=mem_freeBlocks.1 mem
 have hd:=Desc.Ok.of_found ok found
 have low:=hd.low
 have inside:Within (x,elemSize) (x,d.blockSize):=by
  unfold Within elemSize
  dsimp only
  omega
 obtain ⟨-,t,ht,hold⟩:=h.held b hb
 by_cases same:r=t
 · subst same
   obtain ⟨mem',size⟩:=hold.small i d desc found
   have hne:x≠b.addr:=fun eq=>notLive (List.mem_map.2 ⟨b,hb,eq.symm⟩)
   refine inside.apart (.refl b.area) ?_
   unfold Block.area
   rw[size]
   exact arenaBlocks_apart mem mem' hne
 · have outside:=(h.freeAt_bounds ok hr desc found mem).2
   exact inside.apart (.refl b.area)
    (outside.apart (h.holds_within ok ht hold) (h.pages_apart hr ht same))

end

section

variable {descs:List Desc}{s:State}{r:Pages}{b:Block}{d:Desc}{i x:ℕ}{u:Store}
 {as:List ℕ}{m junk:Memory}{a cnt y p:ℕ}{links:Heap Cell}{k:Fin descs.length}
 {supply:Supply}

lemma freeAt_congr {v:Store}(pages:u.pages=v.pages)
 (desc:∀r∈v.pages,(u.mem.arena r.start).desc=(v.mem.arena r.start).desc):
 FreeAt descs u as i x ↔ FreeAt descs v as i x:=by
 unfold FreeAt
 rw[pages]
 refine exists_congr fun r=>and_congr_right fun hr=>?_
 rw[desc r hr]

lemma Core.congr (h:Core descs s){mem:Memory}
 (arena:∀r∈s.store.pages,mem.arena r.start=s.store.mem.arena r.start)
 (links:∀i x,FreeAt descs s.store (addrs s.live) i x →
  SameLinks s.store.mem.links mem.links (.block x))
 (ends:∀i,SameLinks s.store.mem.links mem.links (.head i) ∧
  SameLinks s.store.mem.links mem.links (.tail i)):
 Core descs ⟨{s.store with mem},s.live⟩ where
 placed:=h.placed
 apart:=h.apart
 headers r hr:=by
  rw[arena r hr]
  exact h.headers r hr
 held b hb:=by
  obtain ⟨asked,r,hr,hold⟩:=h.held b hb
  refine ⟨asked,r,hr,?_⟩
  rw[arena r hr]
  exact hold
 once:=h.once
 lists:=by
  obtain ⟨free,lists,listed⟩:=h.lists
  refine ⟨free,lists.congr ?_,?_⟩
  · intro i c hc
    rcases mem_cells.1 hc with rfl|hc|rfl
    · exact (ends i).1
    · obtain ⟨x,hx,rfl⟩:=List.mem_map.1 hc
      exact links i x ((listed i x).1 hx)
    · exact (ends i).2
  · intro i x
    refine (listed i x).trans (Iff.symm (freeAt_congr rfl ?_))
    exact fun r hr=>congrArg Arena.desc (arena r hr)

lemma overwrite_arena {area:Area}(clear:Apart (a,arenaSize) area):
 (m.overwrite junk area).arena a=m.arena a:=
 if_pos clear
lemma overwrite_links {area:Area}{c:Cell}(clear:c.Clear area):
 SameLinks m.links (m.overwrite junk area).links c:=
 ⟨if_pos clear,if_pos clear⟩

lemma map_update {n:ℕ}(free:Fin n → List ℕ)(i:Fin n)(xs:List ℕ):
 (fun j=>(update free i xs j).map Cell.block)=
  update (fun j=>(free j).map Cell.block) i (xs.map Cell.block):=by
 funext j
 exact apply_update (fun _=>List.map Cell.block) free i xs j

lemma setArena_self (m:Memory)(a:ℕ)(h:Arena):(m.setArena a h).arena a=h:=update_self _ _ _
lemma setArena_of_ne {c:ℕ}{h:Arena}(hc:c≠a):(m.setArena a h).arena c=m.arena c:=update_of_ne hc _ _

@[simp]
lemma setFreeCnt_desc (m:Memory)(a cnt c:ℕ):
 ((m.setFreeCnt a cnt).arena c).desc=(m.arena c).desc:=by
 by_cases hc:c=a<;>simp[Memory.setFreeCnt,Memory.setArena,hc]

@[simp]
lemma setFreeCnt_magic (m:Memory)(a cnt c:ℕ):
 ((m.setFreeCnt a cnt).arena c).magic=(m.arena c).magic:=by
 by_cases hc:c=a<;>simp[Memory.setFreeCnt,Memory.setArena,hc]

lemma setFreeCnt_freeCnt (m:Memory)(a cnt c:ℕ):
 ((m.setFreeCnt a cnt).arena c).freeCnt=if c=a then cnt else (m.arena c).freeCnt:=by
 by_cases hc:c=a<;>simp[Memory.setFreeCnt,Memory.setArena,hc]
def release (m:Memory)(links:Heap Cell)(a cnt:ℕ):Memory:=(⟨links,m.arena⟩:Memory).setFreeCnt a cnt

@[simp]
lemma release_desc (m:Memory)(links:Heap Cell)(a cnt c:ℕ):
 ((release m links a cnt).arena c).desc=(m.arena c).desc:=
 setFreeCnt_desc _ _ _ _

lemma freeAt_release:
 FreeAt descs ⟨release u.mem links a cnt,u.pages⟩ as i x ↔ FreeAt descs u as i x:=
 freeAt_congr rfl fun _ _=>setFreeCnt_desc _ _ _ _
lemma Holds.congr {h h':Arena}(hb:Holds descs h r b)(desc:h'.desc=h.desc):
 Holds descs h' r b where
 big none:=hb.big (desc▸none)
 small i d some:=hb.small i d (desc▸some)

lemma freeAt_take {as':List ℕ}(taken:∀z,z∈as' ↔ z=x ∨ z∈as):
 FreeAt descs u as' i y ↔ FreeAt descs u as i y ∧ y≠x:=by
 unfold FreeAt
 simp only[mem_freeBlocks,taken,not_or]
 constructor
 · rintro ⟨r,hr,d,desc,found,mem,hne,notLive⟩
   exact ⟨⟨r,hr,d,desc,found,mem,notLive⟩,hne⟩
 · rintro ⟨⟨r,hr,d,desc,found,mem,notLive⟩,hne⟩
   exact ⟨r,hr,d,desc,found,mem,hne,notLive⟩

lemma Listed.nodup {free:Fin descs.length → List ℕ}(h:Listed descs u as free)
 (k:Fin descs.length):(free k).Nodup:=by
 have nodup:=(nodup_cons.1 (h.1.each k).nodup).2
 exact Nodup.of_map Cell.block nodup.of_append_left

def Store.taken (s:Store)(a cnt:ℕ)(junk:Memory)(header:Arena):Memory:=
 (s.mem.overwrite junk (a,cnt*pgSize)).setArena a header

lemma Core.taken_arena (h:Core descs s)(offered:Offered s a cnt)(pos:0<cnt)
 (junk:Memory)(header:Arena)(hr:r∈s.store.pages):
 (s.store.taken a cnt junk header).arena r.start=s.store.mem.arena r.start:=by
 have apart:=offered.apart r hr
 have pos':=(h.placed r hr).some
 have start:r.start≠a:=by
  unfold Apart Pages.area pgSize at apart
  omega
 rw[Store.taken,setArena_of_ne start]
 refine overwrite_arena (Within.apart ?_ (.refl _) (apart_symm apart))
 unfold Within Pages.area pgSize arenaSize
 omega

lemma Core.cons_pages (h:Core descs s)(offered:Offered s a cnt)(pos:0<cnt):
 (∀r∈(⟨a,cnt⟩:Pages)::s.store.pages,WellPlaced r) ∧
  ((⟨a,cnt⟩:Pages)::s.store.pages).Pairwise (fun r t=>Apart r.area t.area):=by
 constructor
 · intro r hr
   rcases mem_cons.1 hr with rfl|hr
   · exact ⟨offered.whole,offered.notNull,pos,offered.bound⟩
   · exact h.placed r hr
 · exact pairwise_cons.2 ⟨offered.apart,h.apart⟩

section
variable (pos:0<a)(magic:(m.arena a).magic=arenaMagic)(desc:(m.arena a).desc=some i)
 (found:descs[i]?=some d)
include pos magic desc found

/-- A loop over the blocks of an arena that changes links only. -/
lemma foldlM_blocks {step:Memory→ℕ→Option Memory}{op:Heap Cell→Cell→Option (Heap Cell)}
 (each:∀links idx b,arenaToBlock descs ⟨links,m.arena⟩ a idx=some b →
  step ⟨links,m.arena⟩ idx=(op links (.block b)).map fun links=>⟨links,m.arena⟩):
 (List.range d.blocksPerArena).foldlM step m=
  (((arenaBlocks d a).map .block).foldlM op m.links).map fun links=>⟨links,m.arena⟩:=by
 rw[arenaBlocks,List.map_map]
 have turns:∀idxs:List ℕ,(∀idx∈idxs,idx<d.blocksPerArena) → ∀links,
   idxs.foldlM step ⟨links,m.arena⟩=((idxs.map (Cell.block ∘ fun idx=>
    a+arenaSize+idx*d.blockSize)).foldlM op links).map fun links=>⟨links,m.arena⟩:=by
  intro idxs
  induction idxs with
  | nil=>exact fun _ links=>rfl
  | cons idx idxs ih=>
   intro bound links
   have rest:=ih fun idx h=>bound idx (mem_cons_of_mem _ h)
   have block:=arenaToBlock_eq (m:=⟨links,m.arena⟩) pos magic desc found (bound idx mem_cons_self)
   rw[foldlM_cons,each links idx _ block,map_cons,foldlM_cons,comp_apply]
   cases op links _ with
   | none=>rfl
   | some links=>exact rest links
 exact turns _ (fun idx=>mem_range.1) m.links

lemma pushBlocks_eq:
 (List.range d.blocksPerArena).foldlM (pushBlock descs i a) m=(((arenaBlocks d a).map .block).foldlM
   (fun links c=>listPushBack links (freeList i) c) m.links).map
    fun links=>⟨links,m.arena⟩:=by
 refine foldlM_blocks pos magic desc found fun links idx b block=>?_
 rw[pushBlock,block,map_eq_bind]
 rfl

lemma removeBlocks_eq:
 (List.range d.blocksPerArena).foldlM (removeBlock descs a) m=(((arenaBlocks d a).map .block).foldlM
   (fun links c=>(listRemove links c).map Prod.snd) m.links).map
    fun links=>⟨links,m.arena⟩:=by
 refine foldlM_blocks pos magic desc found fun links idx b block=>?_
 rw[removeBlock,block,Option.map_map,map_eq_bind]
 rfl

end

lemma Listed.nil {free:Fin descs.length → List ℕ}(h:Listed descs u as free)
 (empty:listEmpty u.mem.links (freeList k.val)=true):free k=[]:=by
 have begins:=listBegin_eq (h.1.each k)
 have ends:listBegin u.mem.links (freeList k.val)=some (listEnd (freeList k.val)):=
  of_decide_eq_true empty
 have eq:=some.inj (begins.symm.trans ends)
 cases hfree:free k with
 | nil=>rfl
 | cons x rest=>
  simp only[hfree,listEnd] at eq
  cases eq

lemma freeAt_cons (links:Heap Cell){links':Heap Cell}{arena:ℕ→Arena}{q:Pages}{pages:List Pages}:
 FreeAt descs ⟨⟨links',arena⟩,q::pages⟩ as i x ↔
  (∃e,(arena q.start).desc=some i ∧ descs[i]?=some e ∧ x∈freeBlocks e q.start as) ∨
   FreeAt descs ⟨⟨links,arena⟩,pages⟩ as i x:=by
 constructor
 · rintro ⟨r,hr,e,desc,found,mem⟩
   rcases mem_cons.1 hr with rfl|hr
   · exact .inl ⟨e,desc,found,mem⟩
   · exact .inr ⟨r,hr,e,desc,found,mem⟩
 · rintro (⟨e,desc,found,mem⟩|⟨r,hr,e,desc,found,mem⟩)
   · exact ⟨q,mem_cons_self,e,desc,found,mem⟩
   · exact ⟨r,mem_cons_of_mem _ hr,e,desc,found,mem⟩

lemma newArena_eq (found:descs[i]?=some d)(answer:supply.palloc 1=some a):
 newArena descs supply u i=((List.range d.blocksPerArena).foldlM (pushBlock descs i a)
   (u.taken a 1 supply.junk ⟨arenaMagic,some i,d.blocksPerArena⟩)).map
    (fun mem=>some ⟨mem,⟨a,1⟩::u.pages⟩):=by
 rw[newArena,answer]
 simp only[found,bind_eq_bind]
 rw[map_eq_bind]
 rfl

lemma Describes.congr {header:Arena}{as':List ℕ}(h:Describes descs header r as)
 (same:∀i d,header.desc=some i → descs[i]?=some d →
  ∀y∈arenaBlocks d r.start,y∈as' ↔ y∈as):Describes descs header r as' where
 magic:=h.magic
 known:=h.known
 big:=h.big
 small i d desc found:=by
  rw[freeBlocks_congr (same i d desc found)]
  exact h.small i d desc found

lemma mem_addrs_filter {live:List Block}:y∈addrs (live.filter (·.addr≠p)) ↔ y∈addrs live ∧ y≠p:=by
 simp only[addrs,List.mem_map,mem_filter,decide_not,Bool.not_eq_true',decide_eq_false_iff_not]
 constructor
 · rintro ⟨b,⟨hb,hne⟩,rfl⟩
   exact ⟨⟨b,hb,rfl⟩,hne⟩
 · rintro ⟨⟨b,hb,rfl⟩,hne⟩
   exact ⟨b,⟨hb,hne⟩,rfl⟩

lemma Core.drop (h:Core descs s){live:List Block}(sub:live.Sublist s.live)
 (gone:∀b∈live,¬Holds descs (s.store.mem.arena r.start) r b)
 (same:∀t∈s.store.pages,t≠r → ∀i d,(s.store.mem.arena t.start).desc=some i →
  descs[i]?=some d → ∀y∈arenaBlocks d t.start,y∈addrs live ↔ y∈addrs s.live)
 (lists:∃free,Listed descs ⟨⟨links,s.store.mem.arena⟩,s.store.pages.filter (· ≠ r)⟩
  (addrs live) free):
 Core descs ⟨⟨⟨links,s.store.mem.arena⟩,s.store.pages.filter (· ≠ r)⟩,live⟩ where
 placed t ht:=h.placed t (mem_filter.1 ht).1
 apart:=h.apart.filter _
 headers t ht:=by
  obtain ⟨ht,hne⟩:=mem_filter.1 ht
  exact (h.headers t ht).congr (same t ht (of_decide_eq_true hne))
 held b hb:=by
  obtain ⟨asked,t,ht,hold⟩:=h.held b (sub.subset hb)
  refine ⟨asked,t,mem_filter.2 ⟨ht,decide_eq_true ?_⟩,hold⟩
  rintro rfl
  exact gone b hb hold
 once:=h.once.sublist (sub.map _)
 lists:=lists

lemma dead_of_length (all:d.blocksPerArena≤(freeBlocks d a as).length):∀y∈arenaBlocks d a,y∉as:=by
 have most:(freeBlocks d a as).length≤(arenaBlocks d a).length:=length_filter_le _ _
 have whole:(arenaBlocks d a).length=d.blocksPerArena:=by simp[arenaBlocks]
 have eq:((arenaBlocks d a).filter (· ∉ as)).length=(arenaBlocks d a).length:=
  le_antisymm most (whole▸all)
 intro y hy
 exact of_decide_eq_true (length_filter_eq_length_iff.1 eq y hy)

lemma live_of_length (less:(freeBlocks d a as).length<d.blocksPerArena):∃y∈arenaBlocks d a,y∈as:=by
 by_contra dead
 have whole:(arenaBlocks d a).length=d.blocksPerArena:=by simp[arenaBlocks]
 have all:freeBlocks d a as=arenaBlocks d a:=
  filter_eq_self.2 fun y hy=>decide_eq_true fun hy'=>dead ⟨y,hy,hy'⟩
 rw[all,whole] at less
 exact lt_irrefl _ less

lemma freeBlock_eq {n:ℕ}(found:descs[i]?=some d)
 (pushed:listPushFront (u.mem.overwrite junk (p,d.blockSize)).links (freeList i)
  (.block p)=some links)
 (count:addWord ((u.mem.overwrite junk (p,d.blockSize)).arena a).freeCnt 1=n):
 freeBlock descs junk u p a i=
  if d.blocksPerArena≤n then do
   guard (n=d.blocksPerArena)
   let mem←(List.range d.blocksPerArena).foldlM (removeBlock descs a)
    (release (u.mem.overwrite junk (p,d.blockSize)) links a n)
   pallocFree {u with mem} a 1
  else some ⟨release (u.mem.overwrite junk (p,d.blockSize)) links a n,u.pages⟩:=by
 unfold freeBlock
 simp only[found,pushed,count,bind_eq_bind,bind_some]
 rfl

variable (descs) in
/-- What a call of `malloc` comes to: nothing, or a new live block. -/
def Allocates (s:State)(size:ℕ)(result:Option (ℕ×Store)):Prop:=
 result=some (0,s.store) ∨
  ∃x n store,result=some (x,store) ∧ x≠0 ∧ sizeOfBlock descs store.mem x=some n ∧
   Inv descs ⟨store,⟨x,n,size⟩::s.live⟩ ∧ ∀r∈s.store.pages,r∈store.pages

def Spares (s:State)(junk:Memory)(result:Option (ℕ×Store)):Prop:=
 ∀x store,result=some (x,store) → ∀b∈s.live,Leaves (s.store.filled store junk) store.mem b.area
lemma filter_notMem_self (rs:List Pages):rs.filter (· ∉ rs)=[]:=
 filter_eq_nil_iff.2 fun r hr=>by simp[hr]
lemma filled_eq {v:Store}(pages:v.pages=u.pages):u.filled v junk=u.mem:=by
 rw[Store.filled,pages,filter_notMem_self]
 rfl

lemma Offered.notMem (offered:Offered s a cnt)(pos:0<cnt):(⟨a,cnt⟩:Pages)∉s.store.pages:=by
 intro mem
 have apart:=offered.apart _ mem
 unfold Apart Pages.area pgSize at apart
 dsimp only at apart
 omega

lemma filled_cons {v:Store}(offered:Offered s a cnt)(pos:0<cnt)
 (pages:v.pages=⟨a,cnt⟩::s.store.pages):
 s.store.filled v junk=s.store.mem.overwrite junk (a,cnt*pgSize):=by
 have fresh:=offered.notMem pos
 rw[Store.filled,pages,filter_cons_of_pos (by simpa using fresh),filter_notMem_self]
 rfl

lemma spares_none (s:State)(junk:Memory):Spares s junk (some (0,s.store)):=by
 rintro _ _ ⟨⟩ b -
 rw[filled_eq rfl]
 exact ⟨fun _ _=>⟨rfl,rfl⟩,fun _ _=>rfl⟩

lemma sizeOfBlock_taken (offered:Offered s a cnt)(junk:Memory):
 sizeOfBlock descs (s.store.taken a cnt junk ⟨arenaMagic,none,cnt⟩) (a+arenaSize)=
  some (cnt*pgSize-arenaSize):=by
 have header:(s.store.taken a cnt junk ⟨arenaMagic,none,cnt⟩).arena a=
   ⟨arenaMagic,none,cnt⟩:=setArena_self _ _ _
 have arena:blockToArena descs (s.store.taken a cnt junk ⟨arenaMagic,none,cnt⟩)
   (a+arenaSize)=some a:=
  blockToArena_big offered.whole offered.notNull (by rw[header]) (by rw[header])
 have offset:pgOfs (a+arenaSize)=arenaSize:=by
  have whole:=offered.whole
  unfold pgOfs pgSize arenaSize at *
  omega
 simp only[sizeOfBlock,arena,header,bind_eq_bind,bind_some,offset,
  mul_comm pgSize,Option.pure_def]

lemma bigPageCnt_room {size:ℕ}(bound:size+arenaSize≤4294967296)
 (some:0<bigPageCnt size):size≤bigPageCnt size*pgSize-arenaSize:=by
 unfold bigPageCnt addWord pgSize arenaSize at *
 omega
lemma bigPageCnt_pos {size:ℕ}(bound:size+arenaSize+pgSize<4294967296):0<bigPageCnt size:=by
 unfold bigPageCnt addWord pgSize arenaSize at *
 omega

lemma next_malloc {size p n:ℕ}{store:Store}
 (took:malloc descs supply s.store size=some (p,store))(notNull:p≠0)
 (sizeOf:sizeOfBlock descs store.mem p=some n):
 next descs s (.malloc size supply)=some ⟨store,⟨p,n,size⟩::s.live⟩:=by
 simp[next,took,notNull,sizeOf]

variable (ok:∀d∈descs,d.Ok)
include ok

section
variable (h:Core descs s)
include h

lemma Core.overwrite (junk:Memory)(hb:b∈s.live):
 Core descs ⟨{s.store with mem:=s.store.mem.overwrite junk b.area},s.live⟩:=by
 refine h.congr ?_ ?_ ?_
 · intro r hr
   exact overwrite_arena (h.header_apart ok hb hr)
 · intro i x hx
   exact overwrite_links (h.free_apart ok hb hx)
 · intro i
   exact ⟨overwrite_links trivial,overwrite_links trivial⟩

lemma Core.describes_setFreeCnt (hr:r∈s.store.pages){mem:Memory}
 (arena:mem.arena=s.store.mem.arena)(desc:(s.store.mem.arena r.start).desc=some i)
 (found:descs[i]?=some d)(count:cnt=(freeBlocks d r.start as).length)
 (others:∀y,y∉arenaBlocks d r.start → (y∈as ↔ y∈addrs s.live)):
 ∀t∈s.store.pages,Describes descs ((mem.setFreeCnt r.start cnt).arena t.start) t as:=by
 intro t ht
 have header:=h.headers t ht
 by_cases same:t=r
 · subst same
   refine ⟨?_,?_,?_,?_⟩
   · simpa[arena] using header.magic
   · simpa[arena] using header.known
   · intro none
     simp[arena,desc] at none
   · intro j e desc' found'
     rw[setFreeCnt_desc,arena,desc,some.injEq] at desc'
     subst desc'
     rw[found,some.injEq] at found'
     subst found'
     refine ⟨(header.small i d desc found).1,?_⟩
     rw[setFreeCnt_freeCnt,if_pos rfl]
     exact count
 · have start:t.start≠r.start:=fun eq=>same (h.eq_of_start ht hr eq)
   refine ⟨?_,?_,?_,?_⟩
   · simpa[arena] using header.magic
   · simpa[arena] using header.known
   · rw[setFreeCnt_desc,setFreeCnt_freeCnt,if_neg start,arena]
     exact header.big
   · intro j e desc' found'
     rw[setFreeCnt_desc,arena] at desc'
     obtain ⟨one,eq⟩:=header.small j e desc' found'
     refine ⟨one,?_⟩
     rw[setFreeCnt_freeCnt,if_neg start,arena,eq]
     -- the blocks of the other arena are in other pages
     congr 1
     refine (freeBlocks_congr fun y hy=>others y fun hy'=>?_).symm
     exact start ((h.page ok ht found' hy).symm.trans (h.page ok hr found hy'))

lemma Core.arena_unique {t:Pages}{e:Desc}{j:ℕ}
 (hr:r∈s.store.pages)(desc:(s.store.mem.arena r.start).desc=some i)
 (found:descs[i]?=some d)(hx:x∈arenaBlocks d r.start)(ht:t∈s.store.pages)
 (desc':(s.store.mem.arena t.start).desc=some j)(found':descs[j]?=some e)
 (hx':x∈arenaBlocks e t.start):i=j:=by
 obtain rfl:=h.eq_of_start hr ht ((h.page ok hr found hx).symm.trans (h.page ok ht found' hx'))
 exact some.inj (desc.symm.trans desc')

lemma Core.recount (hr:r∈s.store.pages)
 (desc:(s.store.mem.arena r.start).desc=some i)(found:descs[i]?=some d)
 (live:List Block)(free:Fin descs.length → List ℕ)
 (others:∀y,y∉arenaBlocks d r.start → (y∈addrs live ↔ y∈addrs s.live))
 (held:∀b∈live,b.asked≤b.size ∧ ∃t∈s.store.pages,Holds descs (s.store.mem.arena t.start) t b)
 (once:(addrs live).Nodup)
 (lists:Lists links (fun j:Fin descs.length=>freeList j.val) (fun j=>(free j).map .block))
 (members:∀j y,y∈free j ↔ FreeAt descs s.store (addrs live) j.val y):
 Core descs ⟨⟨release s.store.mem links r.start
  (freeBlocks d r.start (addrs live)).length,s.store.pages⟩,live⟩ where
 placed:=h.placed
 apart:=h.apart
 headers:=h.describes_setFreeCnt ok hr rfl desc found rfl others
 held b hb:=by
  obtain ⟨asked,t,ht,hold⟩:=held b hb
  exact ⟨asked,t,ht,hold.congr (setFreeCnt_desc _ _ _ _)⟩
 once:=once
 lists:=⟨free,lists,fun j y=>(members j y).trans freeAt_release.symm⟩

lemma Core.leaves_release (hr:r∈s.store.pages)(hb:b∈s.live)
 {touched:List Cell}(frame:∀c∉touched,SameLinks s.store.mem.links links c)
 (free:∀x,.block x∈touched → Apart (x,elemSize) b.area):
 Leaves s.store.mem (release s.store.mem links r.start cnt) b.area:=by
 refine leaves_of_frame frame free fun a=>?_
 by_cases ha:a=r.start
 · exact .inl (ha▸h.header_apart ok hb hr)
 · exact .inr (setArena_of_ne ha)

lemma Core.takeBlock_spec {asked:ℕ}(found:descs[i]?=some d)
 (fits:asked≤d.blockSize)(filled:listEmpty s.store.mem.links (freeList i)=false):
 ∃x store,takeBlock descs s.store i=some (x,store) ∧
  FreeAt descs s.store (addrs s.live) i x ∧ store.pages=s.store.pages ∧
  sizeOfBlock descs store.mem x=some d.blockSize ∧
  Core descs ⟨store,⟨x,d.blockSize,asked⟩::s.live⟩ ∧
  ∀b∈s.live,Leaves s.store.mem store.mem b.area:=by
 obtain ⟨free,listed⟩:=h.lists
 obtain ⟨lists,members⟩:=listed
 have hi:=index_lt found
 cases hfree:free ⟨i,hi⟩ with
 | nil=>
  have begins:=listBegin_eq (lists.each ⟨i,hi⟩)
  simp only[hfree,map_nil,Ends.right_nil] at begins
  rw[listEmpty,begins] at filled
  simp[listEnd] at filled
 | cons x rest=>
  obtain ⟨links,popped,becomes⟩:=popFront_becomes lists (i:=⟨i,hi⟩)
   (e:=.block x) (q:=rest.map .block) (by simp[hfree])
  have hx:FreeAt descs s.store (addrs s.live) i x:=(members ⟨i,hi⟩ x).1 (by simp[hfree])
  obtain ⟨r,hr,d',desc,found',mem⟩:=id hx
  obtain rfl:=some.inj (found.symm.trans found')
  obtain ⟨mem,notLive⟩:=mem_freeBlocks.1 mem
  have hd:=Desc.Ok.of_found ok found
  have placed:=h.placed r hr
  have header:=h.headers r hr
  have arena:blockToArena descs ⟨links,s.store.mem.arena⟩ x=some r.start:=
   blockToArena_small hd placed.whole placed.notNull header.magic desc found mem
  have taken:∀y,y∈x::addrs s.live ↔ y=x ∨ y∈addrs s.live:=fun y=>mem_cons
  have count:=hd.length_take mem notLive taken
  have counted:=(header.small i d desc found).2
  have small:=hd.length_le (a:=r.start) (addrs s.live)
  have less:subWord (s.store.mem.arena r.start).freeCnt 1=
    (freeBlocks d r.start (x::addrs s.live)).length:=by
   unfold subWord
   omega
  refine ⟨x,⟨release s.store.mem links r.start
   (freeBlocks d r.start (x::addrs s.live)).length,s.store.pages⟩,?_,hx,rfl,?_,?_,?_⟩
  · unfold takeBlock
    simp only[popped,bind_eq_bind,bind_some,Cell.entry,arena,less]
    rfl
  · have again:blockToArena descs (release s.store.mem links r.start
      (freeBlocks d r.start (x::addrs s.live)).length) x=some r.start:=
     blockToArena_small hd placed.whole placed.notNull
      ((setFreeCnt_magic _ _ _ _).trans header.magic)
      ((setFreeCnt_desc _ _ _ _).trans desc) found mem
    simp[sizeOfBlock,again,desc,found]
  · refine h.recount ok hr desc found (⟨x,d.blockSize,asked⟩::s.live)
     (update free ⟨i,hi⟩ rest) ?_ ?_ (nodup_cons.2 ⟨notLive,h.once⟩) ?_ ?_
    · intro y hy
      refine (taken y).trans (or_iff_right ?_)
      exact fun eq=>hy (eq▸mem)
    · intro b hb
      rcases mem_cons.1 hb with rfl|hb
      · refine ⟨fits,r,hr,?_,?_⟩
        · intro none
          rw[desc] at none
          cases none
        · intro j e desc' found'
          obtain rfl:=some.inj (desc.symm.trans desc')
          obtain rfl:=some.inj (found.symm.trans found')
          exact ⟨mem,rfl⟩
      · exact h.held b hb
    · rw[map_update]
      exact becomes.lists
    · intro j y
      refine Iff.trans ?_ (Iff.symm (freeAt_take taken))
      rw[←members j y]
      by_cases hj:j=⟨i,hi⟩
      · subst hj
        rw[update_self,hfree,mem_cons]
        have notIn:x∉rest:=by
         have nodup:=Listed.nodup ⟨lists,members⟩ ⟨i,hi⟩
         rw[hfree] at nodup
         exact (nodup_cons.1 nodup).1
        constructor
        · exact fun hy=>⟨.inr hy,fun eq=>notIn (eq▸hy)⟩
        · exact fun hy=>hy.1.resolve_left hy.2
      · rw[update_of_ne hj]
        refine (and_iff_left_of_imp fun hy eq=>hj (Fin.ext ?_)).symm
        obtain ⟨t,ht,e,desc',found',mem'⟩:=(members j y).1 hy
        rw[eq] at mem'
        exact h.arena_unique ok ht desc' found' (mem_freeBlocks.1 mem').1 hr desc found mem
  · refine fun b hb=>h.leaves_release ok hr hb becomes.frame fun y hy=>?_
    refine h.free_apart ok hb ((members ⟨i,hi⟩ y).1 ?_)
    rw[hfree]
    exact mem_cons_of_mem x (block_mem_cells.1 hy)

lemma Core.free_outside (offered:Offered s a cnt)
 (hx:FreeAt descs s.store (addrs s.live) i x):Apart (x,elemSize) (a,cnt*pgSize):=by
 obtain ⟨r,hr,d,desc,found,mem⟩:=hx
 have hd:=Desc.Ok.of_found ok found
 have low:=hd.low
 have inside:=(h.freeAt_bounds ok hr desc found (mem_freeBlocks.1 mem).1).2
 refine Within.apart (a:=r.area) ?_ (.refl _) (apart_symm (offered.apart r hr))
 unfold Within elemSize at *
 dsimp only at *
 omega

lemma Core.taken (offered:Offered s a cnt)(pos:0<cnt)(junk:Memory)
 (header:Arena):Core descs ⟨⟨s.store.taken a cnt junk header,s.store.pages⟩,s.live⟩:=by
 refine h.congr ?_ ?_ ?_
 · intro r hr
   exact h.taken_arena offered pos junk header hr
 · intro i x hx
   exact overwrite_links (h.free_outside ok offered hx)
 · intro i
   exact ⟨overwrite_links trivial,overwrite_links trivial⟩

lemma Core.not_live (offered:Offered s a cnt)(low:a≤y)
 (high:y<a+cnt*pgSize):y∉addrs s.live:=by
 intro hy
 obtain ⟨b,hb,rfl⟩:=List.mem_map.1 hy
 obtain ⟨-,r,hr,hold⟩:=h.held b hb
 have apart:=offered.apart r hr
 have bounds:=h.holds_bounds ok hr hold
 unfold Apart Pages.area elemSize at *
 dsimp only at *
 omega

lemma Core.add_arena {free:Fin descs.length → List ℕ}(offered:Offered s a 1)
 (header:s.store.mem.arena a=⟨arenaMagic,some k.val,d.blocksPerArena⟩)
 (found:descs[k.val]?=some d)
 (members:∀j x,x∈free j ↔ FreeAt descs s.store (addrs s.live) j.val x)
 (empty:free k=[])(lists:Lists links (fun j:Fin descs.length=>freeList j.val)
  (update (fun j=>(free j).map .block) k ((arenaBlocks d a).map .block))):
 Core descs ⟨⟨⟨links,s.store.mem.arena⟩,⟨a,1⟩::s.store.pages⟩,s.live⟩:=by
 have hd:=Desc.Ok.of_found ok found
 have dead:∀y∈arenaBlocks d a,y∉addrs s.live:=by
  intro y hy
  have bounds:=hd.bounds hy
  have low:=hd.low
  exact h.not_live ok offered (by omega) (by omega)
 have all:freeBlocks d a (addrs s.live)=arenaBlocks d a:=
  filter_eq_self.2 fun y hy=>by simpa using dead y hy
 obtain ⟨placed,apart⟩:=h.cons_pages offered one_pos
 refine ⟨placed,apart,?_,?_,h.once,?_⟩
 · intro r hr
   rcases mem_cons.1 hr with rfl|hr
   · rw[header]
     refine ⟨rfl,?_,?_,?_⟩
     · intro j desc
       obtain rfl:=some.inj desc
       exact ⟨d,found⟩
     · intro none
       cases none
     · intro j e desc found'
       obtain rfl:=some.inj desc
       obtain rfl:=some.inj (found.symm.trans found')
       rw[all]
       simp[arenaBlocks]
   · exact h.headers r hr
 · intro b hb
   obtain ⟨asked,r,hr,hold⟩:=h.held b hb
   exact ⟨asked,r,mem_cons_of_mem _ hr,hold⟩
 · refine ⟨update free k (arenaBlocks d a),?_,?_⟩
   · rw[map_update]
     exact lists
   · intro j x
     rw[freeAt_cons s.store.mem.links,←members j x,header]
     by_cases hj:j=k
     · subst hj
       rw[update_self,empty,or_iff_left not_mem_nil]
       constructor
       · exact fun hx=>⟨d,rfl,found,all▸hx⟩
       · rintro ⟨e,-,found',hx⟩
         obtain rfl:=some.inj (found.symm.trans found')
         exact all▸hx
     · rw[update_of_ne hj]
       refine (or_iff_right ?_).symm
       rintro ⟨e,desc,-⟩
       exact hj (Fin.ext (some.inj desc).symm)

lemma Core.newArena_spec (found:descs[i]?=some d)
 (empty:listEmpty s.store.mem.links (freeList i)=true)(answer:supply.palloc 1=some a)
 (offered:Offered s a 1):
 ∃store,newArena descs supply s.store i=some (some store) ∧ store.pages=⟨a,1⟩::s.store.pages ∧
  (∀r∈s.store.pages,store.mem.arena r.start=s.store.mem.arena r.start) ∧
  Core descs ⟨store,s.live⟩ ∧ listEmpty store.mem.links (freeList i)=false ∧
  ∀b∈s.live,Leaves (s.store.taken a 1 supply.junk ⟨arenaMagic,some i,d.blocksPerArena⟩) store.mem
    b.area:=by
 have hi:=index_lt found
 have hd:=Desc.Ok.of_found ok found
 have core:=h.taken ok offered one_pos supply.junk ⟨arenaMagic,some i,d.blocksPerArena⟩
 have header:(s.store.taken a 1 supply.junk ⟨arenaMagic,some i,d.blocksPerArena⟩).arena a=
   ⟨arenaMagic,some i,d.blocksPerArena⟩:=setArena_self _ _ _
 have first:(s.store.taken a 1 supply.junk ⟨arenaMagic,some i,d.blocksPerArena⟩).links.next
   (.head i)=s.store.mem.links.next (.head i):=(overwrite_links (c:=.head i) trivial).2
 have start:=fun r hr=>h.taken_arena offered one_pos supply.junk
  ⟨arenaMagic,some i,d.blocksPerArena⟩ (r:=r) hr
 have taken:=newArena_eq (u:=s.store) found answer
 generalize s.store.taken a 1 supply.junk ⟨arenaMagic,some i,d.blocksPerArena⟩=mem at *
 obtain ⟨free,listed⟩:=core.lists
 have none:free ⟨i,hi⟩=[]:=by
  refine listed.nil (k:=⟨i,hi⟩) ?_
  rw[listEmpty,listBegin] at empty ⊢
  rwa[show mem.links.next (freeList i).head=_ from first]
 have fresh:∀c∈(arenaBlocks d a).map Cell.block,∀j:Fin descs.length,
   c∉cells (freeList j.val) ((free j).map Cell.block):=by
  intro c hc j hj
  obtain ⟨x,hx,rfl⟩:=List.mem_map.1 hc
  have bounds:=hd.bounds hx
  have low:=hd.low
  have apart:=core.free_outside ok {offered with} ((listed.2 j _).1 (block_mem_cells.1 hj))
  unfold Apart elemSize at apart
  dsimp only at apart
  omega
 obtain ⟨links,filled,becomes⟩:=pushAll_becomes listed.1 ⟨i,hi⟩
  (Nodup.map (fun _ _=>Cell.block.inj) hd.nodup) fresh
 rw[none,map_nil,nil_append] at becomes
 have core':=core.add_arena ok {offered with} header found listed.2 none becomes.lists
 refine ⟨⟨⟨links,mem.arena⟩,⟨a,1⟩::s.store.pages⟩,?_,rfl,start,core',?_,?_⟩
 · rw[taken,pushBlocks_eq offered.notNull (by rw[header]) (by rw[header]) found,filled]
   rfl
 · have begins:=listBegin_eq (becomes.lists.each ⟨i,hi⟩)
   obtain ⟨n,hn⟩:=exists_eq_succ_of_ne_zero (ne_of_gt hd.count_pos)
   rw[update_self,arenaBlocks,hn,range_succ_eq_map] at begins
   simp only[map_cons,Ends.right_cons] at begins
   rw[listEmpty,begins]
   simp[listEnd,freeList]
 · intro b hb
   refine leaves_of_frame becomes.frame (fun x hx=>?_) fun c=>.inr rfl
   rw[block_mem_cells] at hx
   have bounds:=hd.bounds hx
   have low:=hd.low
   have dead:=h.not_live ok offered (y:=x) (by omega) (by omega)
   exact core'.free_apart ok hb (i:=i) ⟨⟨a,1⟩,mem_cons_self,d,by rw[header],found,
    mem_freeBlocks.2 ⟨hx,dead⟩⟩

lemma Core.add_big {asked:ℕ}(offered:Offered s a cnt)(pos:0<cnt)
 (header:s.store.mem.arena a=⟨arenaMagic,none,cnt⟩)
 (fits:asked≤cnt*pgSize-arenaSize):
 Core descs ⟨⟨s.store.mem,⟨a,cnt⟩::s.store.pages⟩,
  ⟨a+arenaSize,cnt*pgSize-arenaSize,asked⟩::s.live⟩:=by
 have room:arenaSize<cnt*pgSize:=by
  unfold arenaSize pgSize
  omega
 have outside:∀r∈s.store.pages,∀i d,(s.store.mem.arena r.start).desc=some i →
   descs[i]?=some d → ∀y∈arenaBlocks d r.start,y≠a+arenaSize:=by
  rintro r hr i d desc found y hy rfl
  have low:=(Desc.Ok.of_found ok found).low
  have inside:=(h.freeAt_bounds ok hr desc found hy).2
  have apart:=offered.apart r hr
  unfold Within Apart at *
  dsimp only at *
  omega
 obtain ⟨placed,apart⟩:=h.cons_pages offered pos
 refine ⟨placed,apart,?_,?_,?_,?_⟩
 · intro r hr
   rcases mem_cons.1 hr with rfl|hr
   · dsimp only
     rw[header]
     refine ⟨rfl,?_,fun _=>rfl,?_⟩
     · intro i desc
       cases desc
     · intro i d desc
       cases desc
   · refine (h.headers r hr).congr fun i d desc found y hy=>?_
     exact mem_cons.trans (or_iff_right (outside r hr i d desc found y hy))
 · intro b hb
   rcases mem_cons.1 hb with rfl|hb
   · refine ⟨fits,⟨a,cnt⟩,mem_cons_self,fun _=>⟨rfl,rfl⟩,?_⟩
     intro i d desc
     rw[header] at desc
     cases desc
   · obtain ⟨asked,r,hr,hold⟩:=h.held b hb
     exact ⟨asked,r,mem_cons_of_mem _ hr,hold⟩
 · refine nodup_cons.2 ⟨h.not_live ok offered (le_add_right _ _) ?_,h.once⟩
   exact Nat.add_lt_add_left room a
 · obtain ⟨free,lists,members⟩:=h.lists
   refine ⟨free,lists,fun j x=>?_⟩
   have none:¬ ∃e,(s.store.mem.arena a).desc=some j.val ∧ descs[j.val]?=some e ∧
     x∈freeBlocks e a ((a+arenaSize)::addrs s.live):=by
    rintro ⟨e,desc,-⟩
    rw[header] at desc
    cases desc
   refine (members j x).trans (Iff.symm ((freeAt_cons s.store.mem.links).trans ?_))
   refine (or_iff_right none).trans ?_
   refine (freeAt_take fun z=>mem_cons).trans (and_iff_left_of_imp ?_)
   rintro ⟨r,hr,e,desc,found,mem⟩
   exact outside r hr j.val e desc found x (mem_freeBlocks.1 mem).1

lemma Core.release_spec (hr:r∈s.store.pages)
 (desc:(s.store.mem.arena r.start).desc=some i)(found:descs[i]?=some d)
 (hp:p∈arenaBlocks d r.start)(live:p∈addrs s.live):
 ∃links,listPushFront s.store.mem.links (freeList i) (.block p)=some links ∧
  addWord (s.store.mem.arena r.start).freeCnt 1=
   (freeBlocks d r.start (addrs (s.live.filter (·.addr≠p)))).length ∧
  Core descs ⟨⟨release s.store.mem links r.start
   (freeBlocks d r.start (addrs (s.live.filter (·.addr≠p)))).length,s.store.pages⟩,
   s.live.filter (·.addr≠p)⟩ ∧
  ∀b∈s.live.filter (·.addr≠p),∀cnt,
   Leaves s.store.mem (release s.store.mem links r.start cnt) b.area:=by
 obtain ⟨free,lists,members⟩:=h.lists
 have hi:=index_lt found
 have hd:=Desc.Ok.of_found ok found
 have gone:p∉addrs (s.live.filter (·.addr≠p)):=fun hy=>(mem_addrs_filter.1 hy).2 rfl
 have taken:∀y,y∈addrs s.live ↔ y=p ∨ y∈addrs (s.live.filter (·.addr≠p)):=by
  intro y
  rw[mem_addrs_filter]
  by_cases hy:y=p
  · simp[hy,live]
  · simp[hy]
 have unlisted:∀j:Fin descs.length,Cell.block p∉cells (freeList j.val) ((free j).map Cell.block):=by
  intro j hj
  obtain ⟨t,ht,e,desc',found',mem⟩:=(members j p).1 (block_mem_cells.1 hj)
  exact (mem_freeBlocks.1 mem).2 live
 obtain ⟨links,pushed,becomes⟩:=pushFront_becomes lists ⟨i,hi⟩ unlisted
 have count:=hd.length_take hp gone taken
 have counted:=((h.headers r hr).small i d desc found).2
 have small:=hd.length_le (a:=r.start) (addrs s.live)
 refine ⟨links,pushed,?_,?_,?_⟩
 · unfold addWord
   omega
 · refine h.recount ok hr desc found _ (update free ⟨i,hi⟩ (p::free ⟨i,hi⟩)) ?_ ?_
    (h.once.sublist (Sublist.map _ filter_sublist)) ?_ ?_
   · intro y hy
     rw[taken y,or_iff_right]
     exact fun eq=>hy (eq▸hp)
   · exact fun b hb=>h.held b (mem_filter.1 hb).1
   · rw[map_update]
     exact becomes.lists
   · intro j y
     by_cases hy:y=p
     · subst hy
       by_cases hj:j=⟨i,hi⟩
       · subst hj
         rw[update_self]
         exact iff_of_true mem_cons_self ⟨r,hr,d,desc,found,mem_freeBlocks.2 ⟨hp,gone⟩⟩
       · rw[update_of_ne hj]
         refine iff_of_false (fun hm=>unlisted j (by simp[hm])) ?_
         rintro ⟨t,ht,e,desc',found',mem⟩
         exact hj (Fin.ext (h.arena_unique ok ht desc' found' (mem_freeBlocks.1 mem).1 hr desc
          found hp))
     · have other:y∈update free ⟨i,hi⟩ (p::free ⟨i,hi⟩) j ↔ y∈free j:=by
        by_cases hj:j=⟨i,hi⟩
        · subst hj
          rw[update_self,mem_cons,or_iff_right hy]
        · rw[update_of_ne hj]
       rw[other,members j y,freeAt_take taken,and_iff_left hy]
 · intro b hb cnt
   obtain ⟨kept,other⟩:=mem_filter.1 hb
   refine h.leaves_release ok hr kept becomes.frame fun x hx=>?_
   rw[mem_cons,Cell.block.injEq,block_mem_cells] at hx
   rcases hx with rfl|hx
   · -- the element at the start of the block that is freed
     obtain ⟨c,hc,rfl⟩:=List.mem_map.1 live
     obtain ⟨-,t,ht,hold⟩:=h.held c hc
     have size:=(h.holds_bounds ok ht hold).2.2.1
     have apart:=h.live_apart ok hc kept (Ne.symm (of_decide_eq_true other))
     unfold Apart Block.area at *
     dsimp only at *
     omega
   · exact h.free_apart ok kept ((members ⟨i,hi⟩ x).1 hx)

lemma Core.drop_arena (hr:r∈s.store.pages)
 (desc:(s.store.mem.arena r.start).desc=some i)(found:descs[i]?=some d)
 (dead:∀y∈arenaBlocks d r.start,y∉addrs s.live):
 ∃links,(List.range d.blocksPerArena).foldlM (removeBlock descs r.start) s.store.mem=
   some ⟨links,s.store.mem.arena⟩ ∧
  Core descs ⟨⟨⟨links,s.store.mem.arena⟩,s.store.pages.filter (· ≠ r)⟩,s.live⟩ ∧
  ∀b∈s.live,Leaves s.store.mem ⟨links,s.store.mem.arena⟩ b.area:=by
 obtain ⟨free,lists,members⟩:=h.lists
 have hi:=index_lt found
 have hd:=Desc.Ok.of_found ok found
 have present:∀c∈(arenaBlocks d r.start).map Cell.block,c∈(free ⟨i,hi⟩).map Cell.block:=by
  intro c hc
  obtain ⟨x,hx,rfl⟩:=List.mem_map.1 hc
  refine List.mem_map_of_mem ((members ⟨i,hi⟩ x).2 ?_)
  exact ⟨r,hr,d,desc,found,mem_freeBlocks.2 ⟨hx,dead x hx⟩⟩
 obtain ⟨links,removed,becomes⟩:=removeAll_becomes lists ⟨i,hi⟩
  (Nodup.map (fun _ _=>Cell.block.inj) hd.nodup) present
 have equation:=removeBlocks_eq (h.placed r hr).notNull (h.headers r hr).magic desc found
 rw[removed] at equation
 refine ⟨links,equation,h.drop (Sublist.refl _) ?_ (fun _ _ _ _ _ _ _ _ _=>Iff.rfl) ?_,?_⟩
 · intro b hb hold
   exact dead b.addr (hold.small i d desc found).1 (List.mem_map_of_mem hb)
 · refine ⟨update free ⟨i,hi⟩ ((free ⟨i,hi⟩).filter (· ∉ arenaBlocks d r.start)),?_,?_⟩
   · have lists':=becomes.lists
     rw[List.filter_map] at lists'
     rw[map_update]
     convert lists' using 5 with y
     simp only[comp_apply,List.mem_map,Cell.block.injEq,exists_eq_right]
   · intro j x
     have kept:FreeAt descs ⟨⟨links,s.store.mem.arena⟩,s.store.pages.filter (· ≠ r)⟩
       (addrs s.live) j.val x ↔
        FreeAt descs s.store (addrs s.live) j.val x ∧ x∉arenaBlocks d r.start:=by
      constructor
      · rintro ⟨t,ht,e,desc',found',mem⟩
        obtain ⟨ht,hne⟩:=mem_filter.1 ht
        refine ⟨⟨t,ht,e,desc',found',mem⟩,fun mem'=>of_decide_eq_true hne ?_⟩
        have page:=h.page ok ht found' (mem_freeBlocks.1 mem).1
        exact h.eq_of_start ht hr (page.symm.trans (h.page ok hr found mem'))
      · rintro ⟨⟨t,ht,e,desc',found',mem⟩,notIn⟩
        refine ⟨t,mem_filter.2 ⟨ht,decide_eq_true ?_⟩,e,desc',found',mem⟩
        rintro rfl
        obtain rfl:=some.inj (desc.symm.trans desc')
        obtain rfl:=some.inj (found.symm.trans found')
        exact notIn (mem_freeBlocks.1 mem).1
     rw[kept,←members j x]
     by_cases hj:j=⟨i,hi⟩
     · subst hj
       rw[update_self,mem_filter,decide_eq_true_iff]
     · rw[update_of_ne hj]
       refine (and_iff_left_of_imp fun hx mem=>hj (Fin.ext ?_)).symm
       obtain ⟨t,ht,e,desc',found',mem'⟩:=(members j x).1 hx
       exact h.arena_unique ok ht desc' found' (mem_freeBlocks.1 mem').1 hr desc found mem
 · intro b hb
   refine leaves_of_frame becomes.frame (fun x hx=>?_) fun c=>.inr rfl
   exact h.free_apart ok hb ((members ⟨i,hi⟩ x).1 (block_mem_cells.1 hx))

lemma Core.drop_big (hr:r∈s.store.pages)
 (desc:(s.store.mem.arena r.start).desc=none):
 Core descs ⟨⟨s.store.mem,s.store.pages.filter (· ≠ r)⟩,
  s.live.filter (·.addr≠r.start+arenaSize)⟩:=by
 have away:∀t∈s.store.pages,∀j e,(s.store.mem.arena t.start).desc=some j →
   descs[j]?=some e → ∀y∈arenaBlocks e t.start,y≠r.start+arenaSize ∧ t≠r:=by
  intro t ht j e desc' found y hy
  have hne:t≠r:=by
   rintro rfl
   rw[desc] at desc'
   cases desc'
  refine ⟨?_,hne⟩
  rintro rfl
  have page:=h.page ok ht found hy
  have whole:=(h.placed r hr).whole
  refine hne (h.eq_of_start ht hr ?_)
  unfold pgRoundDown pgSize arenaSize at *
  omega
 refine h.drop filter_sublist ?_ ?_ ?_
 · intro b hb hold
   exact of_decide_eq_true (mem_filter.1 hb).2 (hold.big desc).1
 · intro t ht hne j e desc' found y hy
   rw[mem_addrs_filter,and_iff_left (away t ht j e desc' found y hy).1]
 · obtain ⟨free,lists,members⟩:=h.lists
   refine ⟨free,lists,fun j x=>(members j x).trans ?_⟩
   constructor
   · rintro ⟨t,ht,e,desc',found,mem⟩
     obtain ⟨mem,notLive⟩:=mem_freeBlocks.1 mem
     have hne:=(away t ht j.val e desc' found x mem).2
     refine ⟨t,mem_filter.2 ⟨ht,decide_eq_true hne⟩,e,desc',found,?_⟩
     exact mem_freeBlocks.2 ⟨mem,fun hx=>notLive (mem_addrs_filter.1 hx).1⟩
   · rintro ⟨t,ht,e,desc',found,mem⟩
     obtain ⟨mem,notLive⟩:=mem_freeBlocks.1 mem
     have ht:=(mem_filter.1 ht).1
     have hne:=(away t ht j.val e desc' found x mem).1
     exact ⟨t,ht,e,desc',found,mem_freeBlocks.2 ⟨mem,fun hx=>notLive (mem_addrs_filter.2 ⟨hx,hne⟩)⟩⟩

lemma Core.addr_ne_zero (hb:b∈s.live):b.addr≠0:=by
 obtain ⟨-,r,hr,hold⟩:=h.held b hb
 have low:=(h.holds_bounds ok hr hold).1
 have pos:=(h.placed r hr).notNull
 omega

lemma Core.busy_iff (hr:r∈s.store.pages):
 Busy descs s r ↔ ∃b∈s.live,pgRoundDown b.addr=r.start:=by
 constructor
 · rintro ⟨b,hb,hold⟩
   exact ⟨b,hb,(h.holds_bounds ok hr hold).2.2.2⟩
 · rintro ⟨b,hb,page⟩
   obtain ⟨-,t,ht,hold⟩:=h.held b hb
   have page':=(h.holds_bounds ok ht hold).2.2.2
   obtain rfl:=h.eq_of_start ht hr (page'.symm.trans page)
   exact ⟨b,hb,hold⟩

/-- The last part of `malloc`. Pages without a live block are those of a new arena, which has all
the free blocks. -/
lemma Core.take_inv {size:ℕ}(found:descs[i]?=some d)
 (fits:size≤d.blockSize)(filled:listEmpty s.store.mem.links (freeList i)=false)
 (busy:∀r∈s.store.pages,Busy descs s r ∨
  ∀x,FreeAt descs s.store (addrs s.live) i x → pgRoundDown x=r.start):
 ∃x store,takeBlock descs s.store i=some (x,store) ∧ x≠0 ∧
  sizeOfBlock descs store.mem x=some d.blockSize ∧
  Inv descs ⟨store,⟨x,d.blockSize,size⟩::s.live⟩ ∧ store.pages=s.store.pages ∧
  ∀b∈s.live,Leaves s.store.mem store.mem b.area:=by
 obtain ⟨x,store,took,free,pages,sizeOf,core,leaves⟩:=h.takeBlock_spec ok found fits filled
 refine ⟨x,store,took,?_,sizeOf,⟨core,?_⟩,pages,leaves⟩
 · obtain ⟨r,hr,e,desc,found',mem⟩:=free
   have low:=(h.freeAt_bounds ok hr desc found' (mem_freeBlocks.1 mem).1).1
   have pos:=(h.placed r hr).notNull
   omega
 · intro r hr
   refine (core.busy_iff ok hr).2 ?_
   have hr':r∈s.store.pages:=pages▸hr
   rcases busy r hr' with busy|all
   · obtain ⟨b,hb,page⟩:=(h.busy_iff ok hr').1 busy
     exact ⟨b,mem_cons_of_mem _ hb,page⟩
   · exact ⟨_,mem_cons_self,all x free⟩

lemma Core.leaves_taken (offered:Offered s a cnt)(pos:0<cnt)
 (junk:Memory)(header:Arena)(hb:b∈s.live):
 Leaves (s.store.mem.overwrite junk (a,cnt*pgSize)) (s.store.taken a cnt junk header) b.area:=by
 obtain ⟨-,r,hr,hold⟩:=h.held b hb
 refine ⟨fun x _=>⟨rfl,rfl⟩,fun c hc=>?_⟩
 by_cases hca:c=a
 · refine absurd (Within.apart ?_ (h.holds_within ok hr hold) (offered.apart r hr)) hc
   unfold Within pgSize arenaSize
   dsimp only
   omega
 · exact setArena_of_ne hca

end

lemma Inv.busy_other (h:Inv descs s)(hr:r∈s.store.pages)
 (hold:Holds descs (s.store.mem.arena r.start) r b){t:Pages}(ht:t∈s.store.pages)
 (hne:t≠r):∃c∈s.live.filter (·.addr≠b.addr),pgRoundDown c.addr=t.start:=by
 obtain ⟨c,hc,page⟩:=(h.busy_iff ok ht).1 (h.busy t ht)
 refine ⟨c,mem_filter.2 ⟨hc,decide_eq_true fun eq=>hne ?_⟩,page⟩
 have page':=(h.holds_bounds ok hr hold).2.2.2
 rw[eq] at page
 exact h.eq_of_start ht hr (page.symm.trans page')

lemma Inv.free_small (h:Inv descs s)(junk:Memory)(hb:b∈s.live)
 (hr:r∈s.store.pages)(hold:Holds descs (s.store.mem.arena r.start) r b)
 (desc:(s.store.mem.arena r.start).desc=some i)(found:descs[i]?=some d):
 ∃store,freeBlock descs junk s.store b.addr r.start i=some store ∧
  Inv descs ⟨store,s.live.filter (·.addr≠b.addr)⟩ ∧
  (∀t∈store.pages,t∈s.store.pages) ∧
  ∀c∈s.live.filter (·.addr≠b.addr),Leaves (s.store.mem.overwrite junk b.area) store.mem c.area:=by
 obtain ⟨mem,size⟩:=hold.small i d desc found
 have hd:=Desc.Ok.of_found ok found
 obtain ⟨one,-⟩:=(h.headers r hr).small i d desc found
 have arena:∀t∈s.store.pages,(s.store.mem.overwrite junk b.area).arena t.start=
   s.store.mem.arena t.start:=
  fun t ht=>overwrite_arena (h.header_apart ok hb ht)
 have core:=h.toCore.overwrite ok junk hb
 have area:b.area=(b.addr,d.blockSize):=by rw[Block.area,size]
 rw[area] at core arena ⊢
 obtain ⟨links,pushed,count,core₂,leaves₂⟩:=core.release_spec ok hr
  ((congrArg Arena.desc (arena r hr)).trans desc) found mem (List.mem_map_of_mem hb)
 have desc₂:((release (s.store.mem.overwrite junk (b.addr,d.blockSize)) links r.start
   (freeBlocks d r.start (addrs (s.live.filter (·.addr≠b.addr)))).length).arena
    r.start).desc=some i:=
  (setFreeCnt_desc _ _ _ _).trans ((congrArg Arena.desc (arena r hr)).trans desc)
 have equation:=freeBlock_eq found pushed count
 have others:∀t∈s.store.pages,t≠r → ∃c∈s.live.filter (·.addr≠b.addr),pgRoundDown c.addr=t.start:=
  fun t ht hne=>h.busy_other ok hr hold ht hne
 by_cases full:d.blocksPerArena ≤
   (freeBlocks d r.start (addrs (s.live.filter (·.addr≠b.addr)))).length
 · have most:(freeBlocks d r.start (addrs (s.live.filter (·.addr≠b.addr)))).length ≤
     d.blocksPerArena:=
    le_trans (length_filter_le _ _) (by simp[arenaBlocks])
   obtain ⟨links',removed,core₃,leaves₃⟩:=core₂.drop_arena ok hr desc₂ found (dead_of_length full)
   have whole:(⟨r.start,1⟩:Pages)=r:=by rw[←one]
   rw[if_pos full,guard_true (le_antisymm most full)] at equation
   refine ⟨⟨⟨links',_⟩,s.store.pages.filter (· ≠ r)⟩,?_,⟨core₃,?_⟩,?_,?_⟩
   · rw[equation]
     simp only[removed,bind_eq_bind,bind_some]
     rw[pallocFree,whole,guard_true hr]
     rfl
   · intro t ht
     obtain ⟨ht',hne⟩:=mem_filter.1 ht
     exact (core₃.busy_iff ok ht).2 (others t ht' (of_decide_eq_true hne))
   · exact fun t ht=>(mem_filter.1 ht).1
   · exact fun c hc=>(leaves₂ c hc _).trans (leaves₃ c hc)
 · rw[if_neg full] at equation
   refine ⟨_,equation,⟨core₂,?_⟩,fun t ht=>ht,fun c hc=>leaves₂ c hc _⟩
   intro t ht
   by_cases hne:t=r
   · subst hne
     obtain ⟨y,hy,live⟩:=live_of_length (Nat.lt_of_not_le full)
     obtain ⟨c,hc,rfl⟩:=List.mem_map.1 live
     exact (core₂.busy_iff ok ht).2 ⟨c,hc,core₂.page ok ht found hy⟩
   · exact (core₂.busy_iff ok ht).2 (others t ht hne)

lemma Inv.free_spec (h:Inv descs s)(junk:Memory)(hb:b∈s.live):
 ∃store,free descs junk s.store b.addr=some store ∧
  Inv descs ⟨store,s.live.filter (·.addr≠b.addr)⟩ ∧
  (∀t∈store.pages,t∈s.store.pages) ∧
  (∀area∈clearedArea descs s.store.mem b.addr,area=b.area) ∧
  ∀c∈s.live.filter (·.addr≠b.addr),
   Leaves (cleared descs junk s.store.mem b.addr) store.mem c.area:=by
 obtain ⟨-,r,hr,hold⟩:=h.held b hb
 have placed:=h.placed r hr
 have header:=h.headers r hr
 unfold free cleared clearedArea
 rw[if_neg (h.addr_ne_zero ok hb)]
 rcases header.cases with desc|⟨i,d,desc,found⟩
 · have addr:=(hold.big desc).1
   have others:=fun t ht hne=>h.busy_other ok hr hold (t:=t) ht hne
   rw[addr] at others ⊢
   have core:=h.toCore.drop_big ok hr desc
   rw[blockToArena_big placed.whole placed.notNull header.magic desc]
   simp only[bind_eq_bind,bind_some,bind_none,desc,pallocFree,
    header.big desc,guard_true hr]
   refine ⟨_,rfl,⟨core,?_⟩,fun t ht=>(mem_filter.1 ht).1,?_,?_⟩
   · intro t ht
     obtain ⟨ht',hne⟩:=mem_filter.1 ht
     exact (core.busy_iff ok ht).2 (others t ht' (of_decide_eq_true hne))
   · exact fun area harea=>absurd harea (not_mem_none area)
   · exact fun c _=>⟨fun _ _=>⟨rfl,rfl⟩,fun _ _=>rfl⟩
 · have hd:=Desc.Ok.of_found ok found
   obtain ⟨mem,size⟩:=hold.small i d desc found
   rw[blockToArena_small hd placed.whole placed.notNull header.magic desc found mem]
   simp only[bind_eq_bind,bind_some,desc,found]
   have area:b.area=(b.addr,d.blockSize):=by rw[Block.area,size]
   obtain ⟨store,freed,inv,pages,leaves⟩:=h.free_small ok junk hb hr hold desc found
   rw[area] at leaves
   refine ⟨store,freed,inv,pages,fun area' harea=>?_,leaves⟩
   rw[area]
   exact (some.inj harea).symm

lemma Inv.malloc_small (h:Inv descs s){size:ℕ}
 (offered:∀cnt a,supply.palloc cnt=some a → Offered s a cnt)(found:descs[i]?=some d)
 (fits:size≤d.blockSize){result:Option (ℕ×Store)}
 (call:result=if listEmpty s.store.mem.links (freeList i) then
   match newArena descs supply s.store i with
   | none=>none
   | some none=>some (0,s.store)
   | some (some s)=>takeBlock descs s i
  else takeBlock descs s.store i):
 Allocates descs s size result ∧ Spares s supply.junk result:=by
 have hi:=index_lt found
 cases empty:listEmpty s.store.mem.links (freeList i) with
 | false=>
  rw[empty,if_neg Bool.false_ne_true] at call
  obtain ⟨x,store,took,notNull,sizeOf,inv,pages,leaves⟩:=
   h.toCore.take_inv ok found fits empty fun r hr=>.inl (h.busy r hr)
  rw[took] at call
  refine call▸⟨.inr ⟨x,_,store,rfl,notNull,sizeOf,inv,fun r hr=>pages▸hr⟩,?_⟩
  rintro _ _ ⟨⟩
  rwa[filled_eq pages]
 | true=>
  rw[empty,if_pos rfl] at call
  cases answer:supply.palloc 1 with
  | none=>
   have failed:newArena descs supply s.store i=some none:=by rw[newArena,answer]
   rw[failed] at call
   exact call▸⟨.inl rfl,spares_none s supply.junk⟩
  | some a=>
   obtain ⟨store₁,made,pages₁,arena,core,filled,leaves₁⟩:=
    h.toCore.newArena_spec ok found empty answer (offered 1 a answer)
   rw[made] at call
   -- before the new arena no block of this size was free
   have unique:∀x,FreeAt descs store₁ (addrs s.live) i x → pgRoundDown x=a:=by
    rintro x ⟨r,hr,e,desc,found',mem⟩
    rw[pages₁] at hr
    rcases mem_cons.1 hr with rfl|hr
    · have he:=Desc.Ok.of_found ok found'
      exact he.page (offered 1 a answer).whole (mem_freeBlocks.1 mem).1
    · obtain ⟨free,listed⟩:=h.lists
      have old:=(listed.2 ⟨i,hi⟩ x).2 ⟨r,hr,e,arena r hr▸desc,found',mem⟩
      rw[listed.nil (k:=⟨i,hi⟩) empty] at old
      exact absurd old not_mem_nil
   have busy:∀r∈store₁.pages,Busy descs ⟨store₁,s.live⟩ r ∨
     ∀x,FreeAt descs store₁ (addrs s.live) i x → pgRoundDown x=r.start:=by
    intro r hr
    have hr':=hr
    rw[pages₁] at hr'
    rcases mem_cons.1 hr' with rfl|hr'
    · exact .inr unique
    · exact .inl ((core.busy_iff ok hr).2 ((h.busy_iff ok hr').1 (h.busy r hr')))
   obtain ⟨x,store,took,notNull,sizeOf,inv,pages,leaves⟩:=core.take_inv ok found fits filled busy
   dsimp only at call
   rw[took] at call
   rw[pages₁] at pages
   refine call▸⟨.inr ⟨x,_,store,rfl,notNull,sizeOf,inv,fun r hr=>?_⟩,?_⟩
   · exact pages▸mem_cons_of_mem _ hr
   · rintro _ _ ⟨⟩ b hb
     rw[filled_cons (offered 1 a answer) one_pos pages]
     exact ((h.toCore.leaves_taken ok (offered 1 a answer) one_pos _ _ hb).trans
      (leaves₁ b hb)).trans (leaves b hb)

lemma Inv.malloc_big (h:Inv descs s){size:ℕ}(offered:Offered s a cnt)(pos:0<cnt)
 (fits:size≤cnt*pgSize-arenaSize)(junk:Memory){result:Option (ℕ×Store)}
 (call:result=some (a+arenaSize,
  ⟨s.store.taken a cnt junk ⟨arenaMagic,none,cnt⟩,⟨a,cnt⟩::s.store.pages⟩)):
 Allocates descs s size result ∧ Spares s junk result:=by
 have header:(s.store.taken a cnt junk ⟨arenaMagic,none,cnt⟩).arena a=
   ⟨arenaMagic,none,cnt⟩:=setArena_self _ _ _
 have core:=(h.toCore.taken ok offered pos junk ⟨arenaMagic,none,cnt⟩).add_big ok {offered with} pos
  header fits
 have whole:=offered.whole
 refine call▸⟨.inr ⟨_,cnt*pgSize-arenaSize,_,rfl,?_,sizeOfBlock_taken offered junk,
  ⟨core,?_⟩,fun r hr=>mem_cons_of_mem _ hr⟩,?_⟩
 · unfold arenaSize
   omega
 · intro r hr
   refine (core.busy_iff ok hr).2 ?_
   rcases mem_cons.1 hr with rfl|hr'
   · refine ⟨_,mem_cons_self,?_⟩
     unfold pgRoundDown pgSize arenaSize at *
     dsimp only
     omega
   · obtain ⟨b,hb,page⟩:=(h.busy_iff ok hr').1 (h.busy r hr')
     exact ⟨b,mem_cons_of_mem _ hb,page⟩
 · rintro _ _ ⟨⟩ b hb
   rw[filled_cons offered pos rfl]
   exact h.toCore.leaves_taken ok offered pos junk _ hb

lemma Inv.malloc_spec (h:Inv descs s){size:ℕ}
 (offered:∀cnt a,supply.palloc cnt=some a → Offered s a cnt)
 (some:∀a,supply.palloc (bigPageCnt size)=some a → 0<bigPageCnt size)
 (bound:size+arenaSize≤4294967296):
 Allocates descs s size (malloc descs supply s.store size) ∧
  Spares s supply.junk (malloc descs supply s.store size):=by
 generalize call:malloc descs supply s.store size=result
 unfold malloc at call
 by_cases zero:size=0
 · rw[if_pos zero] at call
   exact call▸⟨.inl rfl,spares_none s supply.junk⟩
 rw[if_neg zero] at call
 cases search:descs.findIdx? (fun d=>size≤d.blockSize) with
 | some i=>
  rw[search] at call
  obtain ⟨hi,fits,-⟩:=findIdx?_eq_some_iff_getElem.1 search
  exact h.malloc_small ok offered (getElem?_eq_getElem hi) (of_decide_eq_true fits) call.symm
 | none=>
  rw[search] at call
  dsimp only at call
  cases answer:supply.palloc (bigPageCnt size) with
  | none=>
   rw[answer] at call
   exact call▸⟨.inl rfl,spares_none s supply.junk⟩
  | some a=>
   rw[answer] at call
   have pos:=some a answer
   exact h.malloc_big ok (offered _ a answer) pos (bigPageCnt_room bound pos) supply.junk call.symm

/-- Every step that is allowed is one without a failed assertion; pages only come or only go. -/
lemma Inv.next_spec (h:Inv descs s){act:Act}(allowed:Allowed s act):
 ∃s',next descs s act=some s' ∧ Inv descs s' ∧
  ((∀r∈s.store.pages,r∈s'.store.pages) ∨ ∀r∈s'.store.pages,r∈s.store.pages):=by
 cases act with
 | malloc size supply=>
  have pos:0<bigPageCnt size:=bigPageCnt_pos allowed.1
  have bound:size+arenaSize≤4294967296:=by
   have:=allowed.1
   omega
  rcases (h.malloc_spec ok allowed.2 (fun _ _=>pos) bound).1 with failed|⟨x,n,store,took,
   notNull,sizeOf,inv,pages⟩
  · refine ⟨s,?_,h,.inl fun r hr=>hr⟩
    simp[next,failed]
  · exact ⟨_,next_malloc took notNull sizeOf,inv,.inl pages⟩
 | free p junk=>
  rcases allowed with rfl|⟨b,hb,rfl⟩
  · have kept:s.live.filter (·.addr≠0)=s.live:=
     filter_eq_self.2 fun b hb=>decide_eq_true (h.addr_ne_zero ok hb)
    refine ⟨s,?_,h,.inl fun r hr=>hr⟩
    simp only[next,free,if_true,bind_eq_bind,bind_some,kept]
    rfl
  · obtain ⟨store,freed,inv,pages,-⟩:=h.free_spec ok junk hb
    refine ⟨_,?_,inv,.inr pages⟩
    simp only[next,freed,bind_eq_bind,bind_some]
    rfl
 | write b junk=>
  have core:=h.toCore.overwrite ok junk allowed
  refine ⟨_,rfl,⟨core,?_⟩,.inl fun r hr=>hr⟩
  intro r hr
  exact (core.busy_iff ok hr).2 ((h.busy_iff ok hr).1 (h.busy r hr))

end

structure Started (descs:List Desc)(links:Heap Cell):Prop where
 ok:∀d∈descs,d.Ok
 empty:∀i<descs.length,Represents links (freeList i) []

lemma freeList_disjoint {i j:ℕ}(hij:i≠j){c:Cell}(hc:c∈cells (freeList i) []):
 c∉cells (freeList j) []:=by
 simp only[mem_cells,not_mem_nil,false_or,freeList] at hc ⊢
 rcases hc with rfl|rfl<;>simp[hij]

lemma Started.add {descs:List Desc}{links:Heap Cell}(h:Started descs links){d:Desc}
 (hd:d.Ok):Started (descs++[d]) (listInit links (freeList descs.length)) where
 ok e he:=by
  rcases mem_append.1 he with he|he
  · exact h.ok e he
  · rw[mem_singleton.1 he]
    exact hd
 empty i hi:=by
  rw[length_append,length_singleton] at hi
  by_cases last:i=descs.length
  · subst last
    exact listInit_represents links (by simp[freeList])
  · refine (h.empty i (by omega)).congr fun c hc=>?_
    exact listInit_frame links _ (freeList_disjoint last hc)

lemma initFrom_spec {turns:ℕ}:∀ {n blockSize:ℕ} {descs:List Desc} {links:Heap Cell},
 n<turns → pgSize/2≤blockSize*2^n → descs.length+n≤10 → 16≤blockSize →
 Started descs links →
 ∃descs' links',initFrom turns blockSize descs links=some (descs',links') ∧
  Started descs' links':=by
 induction turns with
 | zero=>
  omega
 | succ turns ih=>
  intro n blockSize descs links enough reach room low started
  unfold initFrom
  by_cases more:blockSize<pgSize/2
  · cases n with
    | zero=>
     omega
    | succ n=>
     rw[if_pos more,guard_true (by omega)]
     refine ih (n:=n) (by omega) ?_ ?_ (by omega) (started.add ⟨low,more,rfl⟩)
     · rw[mul_assoc,←pow_succ']
       exact reach
     · rw[length_append,length_singleton]
       omega
  · rw[if_neg more]
    exact ⟨descs,links,rfl,started⟩

lemma Started.inv {descs:List Desc}{links:Heap Cell}(h:Started descs links)
 (arena:ℕ→Arena):Inv descs ⟨⟨⟨links,arena⟩,[]⟩,[]⟩ where
 placed r hr:=absurd hr not_mem_nil
 apart:=.nil
 headers r hr:=absurd hr not_mem_nil
 held b hb:=absurd hb not_mem_nil
 once:=.nil
 lists:=by
  refine ⟨fun _=>[],⟨fun i=>h.empty i i.isLt,?_⟩,fun i x=>?_⟩
  · intro i j hij c hc
    exact freeList_disjoint (fun eq=>hij (Fin.ext eq)) hc
  · refine iff_of_false not_mem_nil ?_
    rintro ⟨r,hr,-⟩
    exact absurd hr not_mem_nil
 busy r hr:=absurd hr not_mem_nil
variable {descs:List Desc}{s:State}

structure Sound (descs:List Desc)(s:State):Prop where
 disjoint:s.live.Pairwise (fun b c=>Apart b.area c.area)
 headers:∀b∈s.live,∀r∈s.store.pages,Apart (r.start,arenaSize) b.area
 owned:∀b∈s.live,b.asked≤b.size ∧ ∃r∈s.store.pages,Within b.area r.area
 freeLists:∃free:Fin descs.length → List ℕ,
  Lists s.store.mem.links (fun i=>freeList i.val) (fun i=>(free i).map .block) ∧
   (∀i,(free i).Nodup) ∧ ∀i x,x∈free i ↔ FreeAt descs s.store (addrs s.live) i.val x
 counts:∀r∈s.store.pages,∀i d,(s.store.mem.arena r.start).desc=some i → descs[i]?=some d →
  (s.store.mem.arena r.start).freeCnt=(freeBlocks d r.start (addrs s.live)).length
 busy:∀r∈s.store.pages,∃b∈s.live,Within b.area r.area

lemma Inv.sound (ok:∀d∈descs,d.Ok)(h:Inv descs s):Sound descs s where
 disjoint:=by
  have distinct:=pairwise_map.1 h.once
  exact distinct.imp_of_mem fun hb hc hne=>h.live_apart ok hb hc hne
 headers b hb r hr:=h.header_apart ok hb hr
 owned b hb:=by
  obtain ⟨asked,r,hr,hold⟩:=h.held b hb
  exact ⟨asked,r,hr,h.holds_within ok hr hold⟩
 freeLists:=by
  obtain ⟨free,listed⟩:=h.lists
  exact ⟨free,listed.1,listed.nodup,listed.2⟩
 counts r hr i d desc found:=((h.headers r hr).small i d desc found).2
 busy r hr:=by
  obtain ⟨b,hb,hold⟩:=h.busy r hr
  exact ⟨b,hb,h.holds_within ok hr hold⟩

lemma Inv.kept_iff {s':State}(ok:∀d∈descs,d.Ok)(h:Inv descs s)(h':Inv descs s')
 (way:(∀r∈s.store.pages,r∈s'.store.pages) ∨ ∀r∈s'.store.pages,r∈s.store.pages)
 {r:Pages}(hr:r∈s.store.pages):
 r∈s'.store.pages ↔ ∃b∈s'.live,Within b.area r.area:=by
 constructor
 · intro hr'
   obtain ⟨b,hb,hold⟩:=h'.busy r hr'
   exact ⟨b,hb,h'.holds_within ok hr' hold⟩
 · rintro ⟨b,hb,inside⟩
   rcases way with grows|shrinks
   · exact grows r hr
   · obtain ⟨-,t,ht,hold⟩:=h'.held b hb
     have inside':=h'.holds_within ok ht hold
     have size:=(h'.holds_bounds ok ht hold).2.2.1
     by_contra gone
     have apart:=h.pages_apart hr (shrinks t ht) fun eq=>gone (eq▸ht)
     have none:=Within.apart inside inside' apart
     unfold Apart Block.area elemSize at *
     omega

lemma boot_reaches {turns:ℕ}(enough:8≤turns)(mem:Memory):
 ∃descs s₀,boot turns mem=some (descs,s₀) ∧ (∀d∈descs,d.Ok) ∧
  ∀acts s,Runs (next descs) Allowed s₀ acts s → Inv descs s:=by
 have nothing:Started [] mem.links:=⟨fun d hd=>absurd hd not_mem_nil,fun i hi=>
  absurd hi (not_lt_zero i)⟩
 have reach:pgSize/2≤16*2^7:=by decide
 have room:([]:List Desc).length+7≤10:=by decide
 obtain ⟨descs,links,init,started⟩:=
  initFrom_spec (lt_of_lt_of_le (by decide) enough) reach room (le_refl 16) nothing
 refine ⟨descs,⟨⟨⟨links,mem.arena⟩,[]⟩,[]⟩,by simp[boot,mallocInit,init],started.ok,?_⟩
 intro acts s run
 refine run.invariant ?_ (started.inv mem.arena)
 intro t act u ht allowed step
 obtain ⟨u',step',inv,-⟩:=ht.next_spec started.ok allowed
 obtain rfl:=some.inj (step.symm.trans step')
 exact inv

/-- The heap of `malloc` and `free` in every run from `malloc_init` on: it is sound, no assertion
fails, and pages go back when the last of their blocks is freed. -/
theorem malloc_heap {turns:ℕ}(enough:8≤turns)(mem:Memory):
 ∃descs s₀,boot turns mem=some (descs,s₀) ∧ ∀acts s,Runs (next descs) Allowed s₀ acts s →
   Sound descs s ∧ ∀act,Allowed s act → ∃s',next descs s act=some s' ∧
     ∀r∈s.store.pages,r∈s'.store.pages ↔ ∃b∈s'.live,Within b.area r.area:=by
 obtain ⟨descs,s₀,booted,ok,reach⟩:=boot_reaches enough mem
 refine ⟨descs,s₀,booted,fun acts s run=>?_⟩
 have inv:=reach acts s run
 refine ⟨inv.sound ok,fun act allowed=>?_⟩
 obtain ⟨s',step,inv',way⟩:=inv.next_spec ok allowed
 exact ⟨s',step,fun r hr=>inv.kept_iff ok inv' way hr⟩

lemma boot_pages {turns:ℕ}{mem:Memory}(h:boot turns mem=some (descs,s)):s.store.pages=[]:=by
 obtain ⟨⟨descs',links⟩,-,eq⟩:=bind_eq_some_iff.1 h
 obtain ⟨-,rfl⟩:=Prod.mk.inj (some.inj eq)
 rfl
def blank:Memory:=⟨⟨fun _=>none,fun _=>none⟩,fun _=>⟨0,none,0⟩⟩
def onePage:Supply:=⟨fun cnt=>if cnt=1 then some 3222274048 else none,blank⟩

theorem malloc_heap_hundred:∃descs s₀ s,boot 8 blank=some (descs,s₀) ∧
  Runs (next descs) Allowed s₀ [.malloc 100 onePage] s ∧ Sound descs s:=by
 obtain ⟨descs,s₀,booted,all⟩:=malloc_heap (le_refl 8) blank
 have allowed:Allowed s₀ (.malloc 100 onePage):=by
  refine ⟨by decide,fun cnt a answer=>?_⟩
  unfold onePage at answer
  dsimp only at answer
  split at answer
  · obtain rfl:=some.inj answer
    subst cnt
    refine ⟨by decide,by decide,by decide,fun r hr=>?_⟩
    rw[boot_pages booted] at hr
    exact absurd hr not_mem_nil
  · cases answer
 obtain ⟨s,step,-⟩:=(all [] s₀ (.nil s₀)).2 _ allowed
 have run:Runs (next descs) Allowed s₀ [.malloc 100 onePage] s:=.cons allowed step (.nil s)
 exact ⟨descs,s₀,s,booted,run,(all _ s run).1⟩

end Pintos.Malloc
