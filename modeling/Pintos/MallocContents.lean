import Pintos.MallocHeap

/-! The bytes of the heap of `threads/malloc.c`, and the sizes that `malloc` and `calloc` are asked
for. A byte is as it was unless a call has filled it, has copied to it, or has stored a header or
links over it; what comes there then, and into pages from the page allocator, is `noise`. -/
namespace Pintos.Malloc
open LinkedHeap KernelLists ExecRuns List Option
open Palloc (pgSize Area Apart)

section

structure Machine where
 store:Store
 bytes:ℕ→UInt8

def Inside (x:ℕ)(area:Area):Prop:=area.1≤x ∧ x<area.1+area.2
instance (x:ℕ)(area:Area):Decidable (Inside x area):=inferInstanceAs (Decidable (_ ∧ _))

/-- A header or a list element that has the byte at `x` in it is another than before. -/
def stored (m m':Memory)(x:ℕ):Bool:=
 (List.range arenaSize).any (fun k=>decide (k≤x ∧ m'.arena (x-k)≠m.arena (x-k))) ||
  (List.range elemSize).any (fun k=>decide (k≤x ∧
   ¬(m'.links.prev (.block (x-k))=m.links.prev (.block (x-k)) ∧
    m'.links.next (.block (x-k))=m.links.next (.block (x-k)))))

def settle (bytes noise:ℕ→UInt8)(m:Memory)(store:Store):Machine:=
 ⟨store,fun x=>if stored m store.mem x then noise x else bytes x⟩
def fillBytes (bytes:ℕ→UInt8)(area:Area)(value:UInt8):ℕ→UInt8:=
 fun x=>if Inside x area then value else bytes x

def copyBytes (bytes:ℕ→UInt8)(dst src:ℕ):ℕ→ℕ→UInt8
 | 0=>bytes
 | n+1=>
  let bytes:=copyBytes bytes dst src n
  Function.update bytes (dst+n) (bytes (src+n))

/-- After the last address comes 0, where nothing is mapped. -/
def Machine.memset (w:Machine)(junk:Memory)(dst:ℕ)(value:UInt8)(size:ℕ):
 Option Machine:=do
 guard (dst+size≤4294967296)
 return ⟨{w.store with mem:=w.store.mem.overwrite junk (dst,size)},
  fillBytes w.bytes (dst,size) value⟩

def Machine.memcpy (w:Machine)(junk:Memory)(dst src size:ℕ):Machine:=
 ⟨{w.store with mem:=w.store.mem.overwrite junk (dst,size)},copyBytes w.bytes dst src size⟩

variable (descs:List Desc)(supply:Supply)(junk:Memory)(noise:ℕ→UInt8)

def Machine.malloc (w:Machine)(size:ℕ):Option (ℕ×Machine):=do
 let (p,store)←Malloc.malloc descs supply w.store size
 let fresh:=store.pages.filter (· ∉ w.store.pages)
 let bytes:=fun x=>if ∃r∈fresh,Inside x r.area then noise x else w.bytes x
 return (p,settle bytes noise (w.store.filled store supply.junk) store)

def Machine.calloc (w:Machine)(a b:ℕ):Option (ℕ×Machine):=do
 let size:=a*b%4294967296
 if size<a ∨ size<b then
  return (0,w)
 let (p,w)←w.malloc descs supply noise size
 if p≠0 then
  return (p,←w.memset junk p 0 size)
 return (p,w)

def Machine.free (w:Machine)(p:ℕ):Option Machine:=do
 let store←Malloc.free descs junk w.store p
 let bytes:=match clearedArea descs w.store.mem p with
  | none=>w.bytes
  | some area=>fillBytes w.bytes area 0xcc
 return settle bytes noise (cleared descs junk w.store.mem p) store

def Machine.realloc (w:Machine)(oldBlock newSize:ℕ):Option (ℕ×Machine):=do
 if newSize=0 then
  return (0,←w.free descs junk noise oldBlock)
 let (newBlock,w)←w.malloc descs supply noise newSize
 if oldBlock≠0 ∧ newBlock≠0 then
  let oldSize←sizeOfBlock descs w.store.mem oldBlock
  let minSize:=if newSize<oldSize then newSize else oldSize
  let w:=w.memcpy junk newBlock oldBlock minSize
  return (newBlock,←w.free descs junk noise oldBlock)
 return (newBlock,w)

end

section
variable {m m':Memory}{area:Area}{x:ℕ}{bytes noise:ℕ→UInt8}

lemma stored_of_leaves (leaves:Leaves m m' area)(inside:Inside x area):stored m m' x=false:=by
 obtain ⟨low,high⟩:=inside
 rw[stored,Bool.or_eq_false_iff,List.any_eq_false,List.any_eq_false]
 constructor
 · intro k hk
   rw[mem_range] at hk
   rw[decide_eq_true_iff,not_and_not_right]
   refine fun hkx=>leaves.arena _ ?_
   unfold Apart
   omega
 · intro k hk
   rw[mem_range] at hk
   rw[decide_eq_true_iff,not_and_not_right]
   refine fun hkx=>leaves.links _ ?_
   unfold Apart
   omega

lemma settle_bytes {store:Store}(leaves:Leaves m store.mem area)(inside:Inside x area):
 (settle bytes noise m store).bytes x=bytes x:=
 if_neg (by rw[stored_of_leaves leaves inside];exact Bool.false_ne_true)
lemma Leaves.refl (m:Memory)(area:Area):Leaves m m area:=⟨fun _ _=>⟨rfl,rfl⟩,fun _ _=>rfl⟩
lemma settle_self (store:Store):settle bytes noise store.mem store=⟨store,bytes⟩:=by
 refine congrArg (Machine.mk store) (funext fun x=>?_)
 exact settle_bytes (Leaves.refl store.mem (x,1)) ⟨Nat.le_refl x,Nat.lt_succ_self x⟩

lemma copyBytes_eq (bytes:ℕ→UInt8){dst src n:ℕ}(apart:Apart (dst,n) (src,n)):
 copyBytes bytes dst src n x=if Inside x (dst,n) then bytes (src+(x-dst)) else bytes x:=by
 induction n generalizing x with
 | zero=>exact (if_neg (by unfold Inside;omega)).symm
 | succ n ih=>
  have before:Apart (dst,n) (src,n):=by
   unfold Apart at *
   omega
  have source:¬Inside (src+n) (dst,n):=by
   unfold Apart Inside at *
   omega
  unfold copyBytes
  dsimp only
  rw[ih before,if_neg source,Function.update_apply,ih before]
  by_cases last:x=dst+n
  · subst last
    rw[if_pos rfl,if_pos (by unfold Inside;omega),Nat.add_sub_cancel_left]
  · rw[if_neg last]
    refine if_congr ?_ rfl rfl
    unfold Inside
    omega

lemma inside_add {a n k:ℕ}(hk:k<n):Inside (a+k) (a,n):=
 ⟨Nat.le_add_right a k,Nat.add_lt_add_left hk a⟩
lemma not_inside_of_apart {a b:Area}(apart:Apart a b)(inside:Inside x a):¬Inside x b:=by
 unfold Apart Inside at *
 omega

lemma overwrite_overwrite {junk:Memory}{a b:Area}(within:Within a b):
 m.overwrite (m.overwrite junk a) b=m.overwrite junk a:=by
 have arena:∀c,Apart (c,arenaSize) b → Apart (c,arenaSize) a:=fun c apart=>
  Within.apart (.refl _) within apart
 have clear:∀c:Cell,c.Clear b → c.Clear a:=by
  intro c hc
  cases c with
  | block x=>exact Within.apart (.refl _) within hc
  | head d | tail d=>exact trivial
 have pick:∀ {α:Type} (p q:Prop) [Decidable p] [Decidable q] (u v:α),(p → q) →
   (if p then u else if q then u else v)=if q then u else v:=by
  intro α p q _ _ u v hpq
  by_cases hp:p
  · rw[if_pos hp,if_pos (hpq hp)]
  · rw[if_neg hp]
 unfold Memory.overwrite
 simp only[pick _ _ _ _ (clear _),pick _ _ _ _ (arena _)]

end

section
variable {descs:List Desc}{s:State}{b:Block}{size:ℕ}{supply:Supply}
 (bytes:ℕ→UInt8)(ok:∀d∈descs,d.Ok)

include ok in
lemma Core.sizeOf_live (h:Core descs s)(hb:b∈s.live):
 sizeOfBlock descs s.store.mem b.addr=some b.size:=by
 obtain ⟨-,r,hr,hold⟩:=h.held b hb
 have placed:=h.placed r hr
 have header:=h.headers r hr
 have whole:=placed.whole
 rcases header.cases with desc|⟨i,d,desc,found⟩
 · obtain ⟨addr,size⟩:=hold.big desc
   have offset:pgOfs (r.start+arenaSize)=arenaSize:=by
    unfold pgOfs pgSize arenaSize at *
    omega
   rw[addr,size,sizeOfBlock,blockToArena_big placed.whole placed.notNull header.magic desc]
   simp[desc,offset,header.big desc,Nat.mul_comm]
 · obtain ⟨mem,size⟩:=hold.small i d desc found
   rw[size,sizeOfBlock,blockToArena_small (ok d (mem_of_getElem? found)) placed.whole
    placed.notNull header.magic desc found mem]
   simp[desc,found]

include ok in
lemma Inv.machine_malloc (h:Inv descs s)(noise:ℕ→UInt8)
 (offered:∀cnt a,supply.palloc cnt=some a → Offered s a cnt)
 (some:∀a,supply.palloc (bigPageCnt size)=some a → 0<bigPageCnt size)
 (bound:size+arenaSize≤4294967296):
 (⟨s.store,bytes⟩:Machine).malloc descs supply noise size=.some (0,⟨s.store,bytes⟩) ∨
  ∃p n w,(⟨s.store,bytes⟩:Machine).malloc descs supply noise size=.some (p,w) ∧
   p≠0 ∧ next descs s (.malloc size supply)=.some ⟨w.store,⟨p,n,size⟩::s.live⟩ ∧
   Inv descs ⟨w.store,⟨p,n,size⟩::s.live⟩ ∧
   ∀c∈s.live,∀x,Inside x c.area → w.bytes x=bytes x:=by
 obtain ⟨allocates,spares⟩:=h.malloc_spec ok offered some bound
 rcases allocates with failed|⟨p,n,store,took,notNull,sizeOf,inv,pages⟩
 · left
   simp[Machine.malloc,failed,filled_eq,settle_self]
 · right
   refine ⟨p,n,_,bind_eq_some_iff.2 ⟨_,took,rfl⟩,notNull,
    next_malloc took notNull sizeOf,inv,?_⟩
   intro c hc x inside
   rw[settle_bytes (spares p store took c hc) inside]
   refine if_neg ?_
   rintro ⟨r,hr,inside'⟩
   -- the block is in pages that were there before
   obtain ⟨-,t,ht,hold⟩:=h.held c hc
   obtain ⟨hr,fresh⟩:=mem_filter.1 hr
   have apart:=inv.pages_apart (pages t ht) hr fun eq=>of_decide_eq_true fresh (eq▸ht)
   exact not_inside_of_apart (Within.apart (h.holds_within ok ht hold)
    (.refl _) apart) inside inside'

include ok in
lemma Inv.machine_free (h:Inv descs s)(junk:Memory)(noise:ℕ→UInt8)(hb:b∈s.live):
 ∃w,(⟨s.store,bytes⟩:Machine).free descs junk noise b.addr=some w ∧
  next descs s (.free b.addr junk)=some ⟨w.store,s.live.filter (·.addr≠b.addr)⟩ ∧
  ∀c∈s.live.filter (·.addr≠b.addr),∀x,Inside x c.area → w.bytes x=bytes x:=by
 obtain ⟨store,freed,inv,-,area,leaves⟩:=h.free_spec ok junk hb
 refine ⟨_,by simp only[Machine.free,freed];rfl,?_,?_⟩
 · simp only[next,freed]
   rfl
 · intro c hc x inside
   rw[settle_bytes (leaves c hc) inside]
   cases filled:clearedArea descs s.store.mem b.addr with
   | none=>rfl
   | some cleared=>
    rw[area cleared filled]
    obtain ⟨kept,other⟩:=mem_filter.1 hc
    exact if_neg (not_inside_of_apart (h.live_apart ok kept hb (of_decide_eq_true other)) inside)

include ok in
lemma Inv.machine_memcpy (h:Inv descs s)(junk:Memory){c:Block}(hc:c∈s.live)
 (hb:b∈s.live)(other:b.addr≠c.addr)(fits:size≤c.size)(fits':size≤b.size):
 ∃junk',next descs s (.write c junk')=
   some ⟨((⟨s.store,bytes⟩:Machine).memcpy junk c.addr b.addr size).store,s.live⟩ ∧
  (∀k<size,((⟨s.store,bytes⟩:Machine).memcpy junk c.addr b.addr size).bytes
   (c.addr+k)=bytes (b.addr+k)) ∧
  ∀e∈s.live,e.addr≠c.addr → ∀x,Inside x e.area →
   ((⟨s.store,bytes⟩:Machine).memcpy junk c.addr b.addr size).bytes x=bytes x:=by
 have within:Within (c.addr,size) c.area:=⟨Nat.le_refl _,Nat.add_le_add_left fits _⟩
 have within':Within (b.addr,size) b.area:=⟨Nat.le_refl _,Nat.add_le_add_left fits' _⟩
 have copies:=fun x=>copyBytes_eq bytes (x:=x)
  (Within.apart within within' (h.live_apart ok hc hb (Ne.symm other)))
 refine ⟨s.store.mem.overwrite junk (c.addr,size),?_,?_,?_⟩
 · rw[next,overwrite_overwrite within]
   rfl
 · intro k hk
   refine (copies _).trans ((if_pos (inside_add hk)).trans ?_)
   rw[Nat.add_sub_cancel_left]
 · intro e he away x inside
   refine (copies x).trans (if_neg ?_)
   exact not_inside_of_apart (Within.apart (.refl _) within
    (h.live_apart ok he hc away)) inside

lemma Machine.calloc_iff {w w':Machine}{junk:Memory}{noise:ℕ→UInt8}{a b p:ℕ}(notNull:p≠0):
 w.calloc descs supply junk noise a b=some (p,w') ↔ ¬(a*b%4294967296<a ∨ a*b%4294967296<b) ∧
   ∃w₁,w.malloc descs supply noise (a*b%4294967296)=some (p,w₁) ∧
    w₁.memset junk p 0 (a*b%4294967296)=some w':=by
 unfold Machine.calloc
 dsimp only
 by_cases small:a*b%4294967296<a ∨ a*b%4294967296<b
 · simp[small,notNull.symm]
 · rw[if_neg small]
   constructor
   · intro call
     obtain ⟨⟨q,w₁⟩,took,call⟩:=bind_eq_some_iff.1 call
     split at call
     · obtain ⟨w₂,filled,call⟩:=bind_eq_some_iff.1 call
       obtain ⟨rfl,rfl⟩:=Prod.mk.inj (some.inj call)
       exact ⟨small,w₁,took,filled⟩
     · obtain ⟨rfl,rfl⟩:=Prod.mk.inj (some.inj call)
       contradiction
   · rintro ⟨-,w₁,took,filled⟩
     simp[took,notNull,filled]

lemma Machine.realloc_eq {w w₁ w₂:Machine}{junk:Memory}{noise:ℕ→UInt8}
 {p q n newSize:ℕ}(asked:newSize≠0)(notNull:p≠0)
 (took:w.malloc descs supply noise newSize=some (q,w₁))(given:q≠0)
 (sizeOf:sizeOfBlock descs w₁.store.mem p=some n)
 (freed:(w₁.memcpy junk q p (if newSize<n then newSize else n)).free descs junk noise p=some w₂):
 w.realloc descs supply junk noise p newSize=some (q,w₂):=by
 simp[Machine.realloc,asked,took,notNull,given,sizeOf,freed]

end

section

def physBase:ℕ:=3221225472

/-- `palloc_get_multiple` hands out pages of the kernel's part of memory that no one has, and for no
pages it answers null. -/
def Honest (s:State)(supply:Supply):Prop:=
 supply.palloc 0=none ∧ ∀cnt a,supply.palloc cnt=some a → physBase≤a ∧ Offered s a cnt

def supplyOf (cnt:ℕ):Supply:=⟨fun k=>if k=cnt then some physBase else none,blank⟩

variable {descs:List Desc}{s:State}{supply:Supply}{size cnt a:ℕ}

lemma honest_supplyOf (fresh:s.store.pages=[])(pos:0<cnt)
 (room:cnt*pgSize≤4294967296-physBase):Honest s (supplyOf cnt):=by
 refine ⟨if_neg (Nat.ne_of_lt pos),fun k a answer=>?_⟩
 unfold supplyOf at answer
 dsimp only at answer
 split at answer
 · subst k
   obtain rfl:=some.inj answer
   refine ⟨Nat.le_refl _,by decide,by decide,by unfold physBase at *;omega,fun r hr=>?_⟩
   rw[fresh] at hr
   exact absurd hr not_mem_nil
 · cases answer

lemma Honest.some_pos (honest:Honest s supply)(answer:supply.palloc cnt=some a):0<cnt:=by
 refine Nat.pos_of_ne_zero ?_
 rintro rfl
 cases honest.1.symm.trans answer

section
variable (ok:∀d∈descs,d.Ok)(large:pgSize ≤ size)
include ok large

lemma findIdx_of_large:descs.findIdx? (fun d=>size≤d.blockSize)=none:=by
 refine findIdx?_eq_none_iff.2 fun d hd=>decide_eq_false ?_
 have high:=(ok d hd).high
 omega

lemma malloc_of_answer (answer:supply.palloc (bigPageCnt size)=some a)(u:Store):
 malloc descs supply u size=some (a+arenaSize,
  ⟨u.taken a (bigPageCnt size) supply.junk ⟨arenaMagic,none,bigPageCnt size⟩,
   ⟨a,bigPageCnt size⟩::u.pages⟩):=by
 have notZero:size≠0:=by
  unfold pgSize at large
  omega
 rw[malloc,if_neg notZero,findIdx_of_large ok large]
 rw[answer]
 rfl

lemma malloc_large {u v:Store}{p:ℕ}(took:malloc descs supply u size=some (p,v))(notNull:p≠0):
 ∃a,supply.palloc (bigPageCnt size)=some a ∧ p=a+arenaSize:=by
 cases answer:supply.palloc (bigPageCnt size) with
 | some a=>
  rw[malloc_of_answer ok large answer] at took
  exact ⟨a,rfl,(congrArg Prod.fst (some.inj took)).symm⟩
 | none=>
  have notZero:size≠0:=by
   unfold pgSize at large
   omega
  rw[malloc,if_neg notZero,findIdx_of_large ok large] at took
  rw[answer] at took
  exact absurd (congrArg Prod.fst (some.inj took)).symm notNull

end

/-- Within twelve bytes of the last address the number of pages wraps around to one. -/
lemma bigPageCnt_wraps (above:4294967296<size+arenaSize)(word:size<4294967296):
 bigPageCnt size=1:=by
 unfold bigPageCnt addWord pgSize arenaSize at *
 omega

/-- `malloc` returns a block of at least the size that is asked for unless the size and the header
are more than the address space. -/
theorem malloc_fits_iff {turns:ℕ}(enough:8≤turns)(mem:Memory):
 ∃descs s₀,boot turns mem=some (descs,s₀) ∧ ∀size,0<size → size<4294967296 →
   ((∀acts s,Runs (next descs) Allowed s₀ acts s → ∀supply,Honest s supply →
     ∀p store,malloc descs supply s.store size=some (p,store) → p≠0 →
      ∃n,sizeOfBlock descs store.mem p=some n ∧ size≤n) ↔
    size+arenaSize≤4294967296):=by
 obtain ⟨descs,s₀,booted,ok,reach⟩:=boot_reaches enough mem
 refine ⟨descs,s₀,booted,fun size _ word=>⟨fun fits=>?_,?_⟩⟩
 · by_contra above
   have wraps:=bigPageCnt_wraps (Nat.lt_of_not_le above) word
   have large:pgSize ≤ size:=by
    unfold pgSize arenaSize at *
    omega
   have honest:Honest s₀ (supplyOf 1):=honest_supplyOf (boot_pages booted) Nat.one_pos (by decide)
   have answer:(supplyOf 1).palloc (bigPageCnt size)=some physBase:=by
    rw[wraps]
    rfl
   obtain ⟨n,sizeOf,enough⟩:=fits [] s₀ (.nil s₀) _ honest _ _
    (malloc_of_answer ok large answer s₀.store) (by decide)
   have taken:sizeOfBlock descs _ _=_:=sizeOfBlock_taken (honest.2 _ _ answer).2 (supplyOf 1).junk
   obtain rfl:=some.inj (taken.symm.trans sizeOf)
   rw[wraps] at enough
   unfold pgSize arenaSize at *
   omega
 · intro bound acts s run supply honest p store took notNull
   have some:∀a,supply.palloc (bigPageCnt size)=some a → 0<bigPageCnt size:=
    fun _=>honest.some_pos
   rcases ((reach acts s run).malloc_spec ok (fun cnt a h=>(honest.2 cnt a h).2) some bound).1
    with failed | ⟨q,n,store',took',-,sizeOf,inv,-⟩
   · exact absurd (congrArg Prod.fst (Option.some.inj (took.symm.trans failed))) notNull
   · obtain ⟨rfl,rfl⟩:=Prod.mk.inj (Option.some.inj (took.symm.trans took'))
     exact ⟨n,sizeOf,(inv.held _ mem_cons_self).1⟩

theorem malloc_fits_iff_page:∃descs s₀,boot 8 blank=some (descs,s₀) ∧
  ∀p store,malloc descs (supplyOf 2) s₀.store 4096=some (p,store) → p≠0 →
   ∃n,sizeOfBlock descs store.mem p=some n ∧ 4096≤n:=by
 obtain ⟨descs,s₀,booted,all⟩:=malloc_fits_iff (Nat.le_refl 8) blank
 exact ⟨descs,s₀,booted,((all 4096 (by decide) (by decide)).2 (by decide)) [] s₀ (.nil s₀) _
  (honest_supplyOf (boot_pages booted) (by decide) (by decide))⟩

/-- For the largest size `malloc` returns a block of one page. -/
theorem malloc_too_small:∃descs s₀ store,boot 8 blank=some (descs,s₀) ∧ Honest s₀ (supplyOf 1) ∧
  malloc descs (supplyOf 1) s₀.store 4294967295=some (physBase+arenaSize,store) ∧
  sizeOfBlock descs store.mem (physBase+arenaSize)=some 4084:=by
 obtain ⟨descs,s₀,booted,ok,-⟩:=boot_reaches (Nat.le_refl 8) blank
 have honest:Honest s₀ (supplyOf 1):=honest_supplyOf (boot_pages booted) Nat.one_pos (by decide)
 have answer:(supplyOf 1).palloc (bigPageCnt 4294967295)=some physBase:=by decide
 exact ⟨descs,s₀,_,booted,honest,malloc_of_answer ok (by decide) answer s₀.store,
  sizeOfBlock_taken (honest.2 _ _ answer).2 _⟩

lemma Machine.memset_iff {w w':Machine}{junk:Memory}{dst:ℕ}{value:UInt8}:
 w.memset junk dst value size=some w' ↔ dst+size≤4294967296 ∧
  w'=⟨{w.store with mem:=w.store.mem.overwrite junk (dst,size)},
   fillBytes w.bytes (dst,size) value⟩:=by
 unfold Machine.memset
 by_cases room:dst+size≤4294967296
 · simp[room,eq_comm]
 · simp[room]

lemma Machine.malloc_store {w w':Machine}{noise:ℕ→UInt8}{p:ℕ}
 (took:w.malloc descs supply noise size=some (p,w')):
 Malloc.malloc descs supply w.store size=some (p,w'.store):=by
 obtain ⟨⟨q,store⟩,took',eq⟩:=bind_eq_some_iff.1 took
 obtain ⟨rfl,rfl⟩:=Prod.mk.inj (some.inj eq)
 exact took'

/-- A product that overflows and gets through the check of `calloc` is left with a page at least. -/
lemma large_of_overflow {a b:ℕ}(overflow:4294967296≤a*b)(ha:a ≤ size)
 (hb:b ≤ size):pgSize ≤ size:=by
 by_contra small
 unfold pgSize at small
 have below:a*b<4096*4096:=Nat.mul_lt_mul'' (by omega) (by omega)
 omega

/-- `calloc` has room for what it fills: the part of memory that the kernel has ends with the
address space. -/
lemma calloc_room {w w₁ w':Machine}{junk:Memory}{noise:ℕ→UInt8}{p:ℕ}
 (ok:∀d∈descs,d.Ok)(honest:Honest s supply)(notNull:p≠0)
 (took:w.malloc descs supply noise size=some (p,w₁))
 (filled:w₁.memset junk p 0 size=some w'):size+arenaSize≤1073741824:=by
 by_cases large:pgSize ≤ size
 · obtain ⟨a,answer,rfl⟩:=malloc_large ok large (Machine.malloc_store took) notNull
   have low:=(honest.2 _ _ answer).1
   have room:=(Machine.memset_iff.1 filled).1
   unfold physBase at low
   omega
 · unfold pgSize arenaSize at *
   omega

lemma Inv.machine_memset (h:Inv descs s)(ok:∀d∈descs,d.Ok){c:Block}(hc:c∈s.live)
 (fits:size≤c.size){w w':Machine}(same:s.store=w.store){junk:Memory}
 (filled:w.memset junk c.addr 0 size=some w'):
 sizeOfBlock descs w'.store.mem c.addr=some c.size ∧ ∀k<size,w'.bytes (c.addr+k)=0:=by
 obtain ⟨-,rfl⟩:=Machine.memset_iff.1 filled
 have within:Within (c.addr,size) c.area:=⟨Nat.le_refl _,Nat.add_le_add_left fits _⟩
 have core:=h.toCore.overwrite ok (s.store.mem.overwrite junk (c.addr,size)) hc
 rw[overwrite_overwrite within] at core
 exact ⟨same▸core.sizeOf_live ok hc,fun k hk=>if_pos (inside_add hk)⟩

lemma bigPageCnt_kernel (room:size+arenaSize≤1073741824):
 0<bigPageCnt size ∧ bigPageCnt size*pgSize≤4294967296-physBase:=by
 unfold bigPageCnt addWord pgSize arenaSize physBase at *
 omega

lemma calloc_of_pages {a b:ℕ}(ok:∀d∈descs,d.Ok)(large:pgSize≤a*b%4294967296)
 (passed:¬(a*b%4294967296<a ∨ a*b%4294967296<b))
 (room:a*b%4294967296+arenaSize≤1073741824)(s:State)(bytes noise:ℕ→UInt8)
 (junk:Memory):
 ∃w,(⟨s.store,bytes⟩:Machine).calloc descs (supplyOf (bigPageCnt (a*b%4294967296)))
  junk noise a b=some (physBase+arenaSize,w):=by
 have answer:(supplyOf (bigPageCnt (a*b%4294967296))).palloc
   (bigPageCnt (a*b%4294967296))=some physBase:=if_pos rfl
 obtain ⟨w₁,took⟩:∃w₁,(⟨s.store,bytes⟩:Machine).malloc descs
   (supplyOf (bigPageCnt (a*b%4294967296))) noise (a*b%4294967296)=some (physBase+arenaSize,w₁):=
  ⟨_,bind_eq_some_iff.2 ⟨_,malloc_of_answer ok large answer s.store,rfl⟩⟩
 have fits:physBase+arenaSize+a*b%4294967296≤4294967296:=by
  unfold physBase
  omega
 exact ⟨_,(Machine.calloc_iff (by decide)).2 ⟨passed,w₁,took,Machine.memset_iff.2 ⟨fits,rfl⟩⟩⟩

/-- `calloc` returns a block of zeroes for the whole product, or null, unless the product overflows,
what is left of it is no smaller than the factors, and the kernel's memory has room for that. -/
theorem calloc_zeroed_iff {turns:ℕ}(enough:8≤turns)(mem:Memory):
 ∃descs s₀,boot turns mem=some (descs,s₀) ∧ ∀a b,a<4294967296 → b<4294967296 →
   ((∀acts s,Runs (next descs) Allowed s₀ acts s → ∀supply,Honest s supply → ∀junk noise bytes p w,
      (⟨s.store,bytes⟩:Machine).calloc descs supply junk noise a b=some (p,w) →
      p≠0 → a*b<4294967296 ∧ ∃n,sizeOfBlock descs w.store.mem p=some n ∧
       a*b≤n ∧ ∀k<a*b,w.bytes (p+k)=0) ↔
    a*b<4294967296 ∨ a*b%4294967296<a ∨ a*b%4294967296<b ∨ 1073741824<a*b%4294967296+arenaSize):=by
 obtain ⟨descs,s₀,booted,ok,reach⟩:=boot_reaches enough mem
 refine ⟨descs,s₀,booted,fun a b _ _=>⟨fun zeroed=>?_,?_⟩⟩
 · by_contra others
   obtain ⟨overflow,ha,hb,room⟩:4294967296≤a*b ∧ a≤a*b%4294967296 ∧
     b≤a*b%4294967296 ∧ a*b%4294967296+arenaSize≤1073741824:=by omega
   have kernel:=bigPageCnt_kernel room
   obtain ⟨w,call⟩:=calloc_of_pages ok (large_of_overflow overflow ha hb) (by omega) room s₀
    (fun _=>0) (fun _=>0) blank
   obtain ⟨fits,-⟩:=zeroed [] s₀ (.nil s₀) _
    (honest_supplyOf (boot_pages booted) kernel.1 kernel.2) _ _ _ _ _ call (by decide)
   exact Nat.not_lt.2 overflow fits
 · intro cases acts s run supply honest junk noise bytes p w call notNull
   obtain ⟨passed,w₁,took,filled⟩:=(Machine.calloc_iff notNull).1 call
   have room:=calloc_room ok honest notNull took filled
   have fits:a*b<4294967296:=by omega
   rw[Nat.mod_eq_of_lt fits] at took filled room
   have some:∀x,supply.palloc (bigPageCnt (a*b))=some x → 0<bigPageCnt (a*b):=
    fun _=>honest.some_pos
   rcases (reach acts s run).machine_malloc bytes ok noise (fun cnt x h=>(honest.2 cnt x h).2)
    some (by omega) with failed | ⟨q,n,w₂,took',-,-,inv,-⟩
   · exact absurd (congrArg Prod.fst (Option.some.inj (took.symm.trans failed))) notNull
   · obtain ⟨rfl,rfl⟩:=Prod.mk.inj (Option.some.inj (took.symm.trans took'))
     have held:a*b≤n:=(inv.held _ mem_cons_self).1
     obtain ⟨sizeOf,zeroes⟩:=inv.machine_memset ok mem_cons_self held rfl filled
     exact ⟨fits,n,sizeOf,held,zeroes⟩

theorem calloc_zeroed_iff_hundred:∃descs s₀,boot 8 blank=some (descs,s₀) ∧
  ∀supply,Honest s₀ supply → ∀junk noise bytes p w,
   (⟨s₀.store,bytes⟩:Machine).calloc descs supply junk noise 100 100=some (p,w) →
   p≠0 → ∀k<10000,w.bytes (p+k)=0:=by
 obtain ⟨descs,s₀,booted,all⟩:=calloc_zeroed_iff (Nat.le_refl 8) blank
 refine ⟨descs,s₀,booted,fun supply honest junk noise bytes p w call notNull=>?_⟩
 obtain ⟨-,n,-,-,zeroes⟩:=(all 100 100 (by decide) (by decide)).2 (.inl (by decide)) []
  s₀ (.nil s₀) supply honest junk noise bytes p w call notNull
 exact zeroes

/-- The product of 65537 by itself leaves 131073, and `calloc` returns a block for that. -/
theorem calloc_overflows:∃descs s₀ w,boot 8 blank=some (descs,s₀) ∧ Honest s₀ (supplyOf 33) ∧
  (⟨s₀.store,fun _=>0⟩:Machine).calloc descs (supplyOf 33) blank (fun _=>0) 65537 65537=
   some (physBase+arenaSize,w) ∧ ¬65537*65537<4294967296:=by
 obtain ⟨descs,s₀,booted,ok,-⟩:=boot_reaches (Nat.le_refl 8) blank
 have honest:Honest s₀ (supplyOf 33):=honest_supplyOf (boot_pages booted) (by decide) (by decide)
 obtain ⟨w,call⟩:=calloc_of_pages (a:=65537) (b:=65537) ok (by decide) (by decide)
  (by decide) s₀ (fun _=>0) (fun _=>0) blank
 exact ⟨descs,s₀,w,booted,honest,call,by decide⟩

end

/-- `realloc` gives the block that is asked for the contents of the old one, which is free then, or
it changes nothing. -/
theorem realloc_preserves {turns:ℕ}(enough:8≤turns)(mem:Memory):
 ∃descs s₀,boot turns mem=some (descs,s₀) ∧ ∀acts s,Runs (next descs) Allowed s₀ acts s → ∀b∈s.live,
   sizeOfBlock descs s.store.mem b.addr=some b.size ∧
   ∀newSize,0<newSize → newSize+arenaSize+pgSize<4294967296 →
   ∀supply,(∀cnt a,supply.palloc cnt=some a → Offered s a cnt) →
   ∀junk noise bytes,∃q w,
    (⟨s.store,bytes⟩:Machine).realloc descs supply junk noise b.addr newSize=some (q,w) ∧
    ((q=0 ∧ w=⟨s.store,bytes⟩) ∨ (q≠0 ∧ q≠b.addr ∧ ∃n more s',
      Runs (next descs) Allowed s₀ (acts++more) s' ∧ s'.store=w.store ∧
      s'.live=⟨q,n,newSize⟩::s.live.filter (·.addr≠b.addr) ∧
      (∀k < min b.size newSize,w.bytes (q+k)=bytes (b.addr+k)) ∧
      ∀c∈s.live,c.addr≠b.addr → ∀k<c.size,w.bytes (c.addr+k)=bytes (c.addr+k))):=by
 obtain ⟨descs,s₀,booted,ok,reach⟩:=boot_reaches enough mem
 refine ⟨descs,s₀,booted,fun acts s run b hb=>?_⟩
 have inv:=reach acts s run
 have sizeOf:=inv.toCore.sizeOf_live ok hb
 refine ⟨sizeOf,fun newSize pos bound supply offered junk noise bytes=>?_⟩
 have notNull:=inv.toCore.addr_ne_zero ok hb
 rcases inv.machine_malloc bytes ok noise offered (fun _ _=>bigPageCnt_pos bound)
  (by omega) with failed | ⟨q,n,w₁,took,given,step₁,inv₁,kept₁⟩
 · refine ⟨0,⟨s.store,bytes⟩,?_,.inl ⟨rfl,rfl⟩⟩
   simp[Machine.realloc,Nat.ne_of_gt pos,failed]
 · have distinct:q≠b.addr:=fun eq=>
    (nodup_cons.1 inv₁.once).1 (List.mem_map.2 ⟨b,hb,eq.symm⟩)
   have room:newSize≤n:=(inv₁.held _ mem_cons_self).1
   have hb₁:b∈(⟨q,n,newSize⟩:Block)::s.live:=mem_cons_of_mem _ hb
   have sizeOf₁:=inv₁.toCore.sizeOf_live ok hb₁
   generalize hm:(if newSize<b.size then newSize else b.size)=m
   have least:m≤newSize ∧ m≤b.size ∧ min b.size newSize=m:=by
    rw[←hm]
    split<;>omega
   obtain ⟨junk',step₂,copied,kept₂⟩:=inv₁.machine_memcpy w₁.bytes ok junk
    mem_cons_self hb₁ (Ne.symm distinct) (Nat.le_trans least.1 room) least.2.1
   have allowed:Allowed s (.malloc newSize supply):=⟨bound,offered⟩
   have run₂:=(run.snoc allowed step₁).snoc (a:=.write ⟨q,n,newSize⟩ junk') mem_cons_self step₂
   obtain ⟨w₃,freed,step₃,kept₃⟩:=(reach _ _ run₂).machine_free
    (w₁.memcpy junk q b.addr m).bytes ok junk noise hb₁
   have freeing:Allowed ⟨(w₁.memcpy junk q b.addr m).store,⟨q,n,newSize⟩::s.live⟩
     (.free b.addr junk):=.inr ⟨b,hb₁,rfl⟩
   have run₃:=run₂.snoc freeing step₃
   have left:((⟨q,n,newSize⟩:Block)::s.live).filter (·.addr≠b.addr)=
     ⟨q,n,newSize⟩::s.live.filter (·.addr≠b.addr):=
    filter_cons_of_pos (decide_eq_true distinct)
   dsimp only at kept₃ run₃
   rw[left] at kept₃ run₃
   rw[append_assoc,append_assoc] at run₃
   refine ⟨q,w₃,?_,.inr ⟨given,distinct,n,_,⟨w₃.store,_⟩,run₃,rfl,rfl,?_,?_⟩⟩
   · exact Machine.realloc_eq (Nat.ne_of_gt pos) notNull took given sizeOf₁ (hm▸freed)
   · intro k hk
     rw[least.2.2] at hk
     have fits:k<n:=Nat.lt_of_lt_of_le hk (Nat.le_trans least.1 room)
     have old:k<b.size:=Nat.lt_of_lt_of_le hk least.2.1
     calc w₃.bytes (q+k)
       _ = (w₁.memcpy junk q b.addr m).bytes (q+k):=
        kept₃ ⟨q,n,newSize⟩ mem_cons_self _ (inside_add fits)
       _ = w₁.bytes (b.addr+k):=copied k hk
       _ = bytes (b.addr+k):=kept₁ b hb _ (inside_add old)
   · intro c hc away k hk
     have inside:Inside (c.addr+k) c.area:=inside_add hk
     have hq:c.addr≠q:=fun eq=>
      (nodup_cons.1 inv₁.once).1 (List.mem_map.2 ⟨c,hc,eq⟩)
     rw[kept₃ c (mem_cons_of_mem _ (mem_filter.2 ⟨hc,decide_eq_true away⟩)) _ inside]
     exact (kept₂ c (mem_cons_of_mem _ hc) hq _ inside).trans (kept₁ c hc _ inside)

lemma Machine.realloc_block {descs:List Desc}{supply:Supply}{junk:Memory}{noise:ℕ→UInt8}
 {w w₁ w':Machine}{p q old size:ℕ}(took:w.malloc descs supply noise size=some (p,w₁))(pos:size≠0)
 (notNull:old≠0 ∧ p≠0)(call:w.realloc descs supply junk noise old size=some (q,w')):q=p:=by
 simp only[Machine.realloc,if_neg pos,took,bind_eq_bind,bind_some,if_pos notNull,
  bind_eq_some_iff] at call
 obtain ⟨_,-,_,-,eq⟩:=call
 exact (congrArg Prod.fst (some.inj eq)).symm

/-- Two pages behind those of `supplyOf 2`. -/
def nextSupply:Supply:=⟨fun k=>if k=2 then some (physBase+2*pgSize) else none,blank⟩

theorem realloc_preserves_large:∃descs s₀ s,boot 8 blank=some (descs,s₀) ∧
  Runs (next descs) Allowed s₀ [.malloc 5000 (supplyOf 2)] s ∧
  ∃q w,(⟨s.store,fun _=>7⟩:Machine).realloc descs nextSupply blank
    (fun _=>0) (physBase+arenaSize) 6000=some (q,w) ∧
   q≠0 ∧ ∀k<6000,w.bytes (q+k)=7:=by
 obtain ⟨descs,s₀,booted,all⟩:=realloc_preserves (Nat.le_refl 8) blank
 obtain ⟨descs',s₀',booted',ok,-⟩:=boot_reaches (Nat.le_refl 8) blank
 obtain ⟨rfl,rfl⟩:=Prod.mk.inj (some.inj (booted.symm.trans booted'))
 have none_:=boot_pages booted
 have honest:Honest s₀ (supplyOf 2):=honest_supplyOf none_ (by decide) (by decide)
 have answer:(supplyOf 2).palloc (bigPageCnt 5000)=some physBase:=by decide
 have took:=malloc_of_answer ok (by decide) answer s₀.store
 have sizeOf:sizeOfBlock descs _ _=_:=sizeOfBlock_taken (honest.2 _ _ answer).2 blank
 obtain ⟨s,step,hs,pages⟩:∃s,next descs s₀ (.malloc 5000 (supplyOf 2))=some s ∧
   ⟨physBase+arenaSize,8180,5000⟩∈s.live ∧ s.store.pages=[⟨physBase,2⟩]:=
  ⟨_,next_malloc took (by decide) sizeOf,mem_cons_self,congrArg (cons _) none_⟩
 have allowed:Allowed s₀ (.malloc 5000 (supplyOf 2)):=⟨by decide,fun cnt a h=>(honest.2 cnt a h).2⟩
 have run:=Runs.cons allowed step (.nil _)
 have offered:∀cnt a,nextSupply.palloc cnt=some a → Offered s a cnt:=by
  intro cnt a given
  unfold nextSupply at given
  dsimp only at given
  split at given
  · subst cnt
    obtain rfl:=some.inj given
    refine ⟨by decide,by decide,by decide,fun r hr=>?_⟩
    rw[pages] at hr
    obtain rfl:=mem_singleton.1 hr
    decide
  · cases given
 obtain ⟨q,w,call,result⟩:=(all _ _ run _ hs).2 6000 (by decide) (by decide) nextSupply offered
  blank (fun _=>0) (fun _=>7)
 refine ⟨descs,s₀,_,booted,run,q,w,call,?_⟩
 rcases result with ⟨null,-⟩|⟨given,-,n,more,s',-,-,-,kept,-⟩
 · obtain ⟨w₁,given⟩:∃w₁,(⟨s.store,fun _=>7⟩:Machine).malloc descs nextSupply (fun _=>0) 6000=
     some (physBase+2*pgSize+arenaSize,w₁):=
    ⟨_,bind_eq_some_iff.2 ⟨_,malloc_of_answer ok (by decide)
     (show nextSupply.palloc (bigPageCnt 6000)=some (physBase+2*pgSize) by decide) s.store,rfl⟩⟩
   exact absurd (null.symm.trans (Machine.realloc_block given (by decide) (by decide) call))
    (by decide)
 · exact ⟨given,kept⟩

/-- What `palloc_get_multiple (0,cnt)` answers. -/
def answer (p:Palloc.Pools)(cnt:ℕ):Option ℕ:=
 match Palloc.pallocGetMultiple p ⟨false,false⟩ cnt with
 | .ok (pages,_)=>pages
 | .error _=>none

def Pages.range (r:Pages):Palloc.Range:=⟨false,r.start,r.cnt⟩

/-- The page allocator keeps to what `malloc` relies on, in every run from `palloc_init` on: its
answers are honest, and it takes back every run of pages of the heap. -/
theorem palloc_honest {ramPages userPageLimit:ℕ}{p:Palloc.Pools}{t:Palloc.State}
 {acts:List Palloc.Act}{s:State}(low:256≤ramPages)(high:ramPages<262144)
 (init:Palloc.pallocInit ramPages userPageLimit=.ok p)
 (run:Runs Palloc.next Palloc.Named ⟨p,[]⟩ acts t)(held:∀r∈s.store.pages,r.range∈t.live)
 (junk:Memory):
 Honest s ⟨answer t.pools,junk⟩ ∧
 (∀cnt,∃t',Palloc.next t (.get ⟨false,false⟩ cnt)=some t' ∧
  t'.live=((answer t.pools cnt).map (Pages.range ⟨·,cnt⟩)).toList++t.live) ∧
 ∀r∈s.store.pages,∃t',Palloc.next t (.free r.range)=some t' ∧ t'.live=t.live.erase r.range:=by
 obtain ⟨small,inv⟩:=Palloc.run_inv low high init run
 have got:∀cnt,∃pools,
   Palloc.pallocGetMultiple t.pools ⟨false,false⟩ cnt=.ok (answer t.pools cnt,pools) ∧
   ∀a,answer t.pools cnt=some a → Palloc.Inv (Palloc.physBase+1048576)
    (Palloc.physBase+ramPages*pgSize) ⟨pools,Pages.range ⟨a,cnt⟩::t.live⟩:=by
  intro cnt
  unfold answer
  rcases inv.getMultiple small ⟨false,false⟩ cnt with ⟨none|⟨assert,-⟩,-⟩|⟨pages,pools,some,inv'⟩
  · rw[none]
    exact ⟨_,rfl,nofun⟩
  · cases assert
  · rw[some]
    refine ⟨pools,rfl,fun a given=>?_⟩
    cases given
    exact inv'
 refine ⟨⟨rfl,fun cnt a given=>?_⟩,fun cnt=>?_,fun r hr=>?_⟩
 · obtain ⟨pools,-,taken⟩:=got cnt
   have inv':=taken a given
   obtain ⟨whole,above,below,-⟩:=inv'.placed_area mem_cons_self
   obtain ⟨first,last⟩:=inv'.layout.inside pools.kernelPool.area (by simp[Palloc.Pools.areas])
   have base:Palloc.physBase+1048576≤a:=first.trans above
   have room:a+cnt*pgSize≤4294967296:=Nat.mul_comm pgSize cnt▸(below.trans last).trans small
   refine ⟨(Nat.le_add_right _ _).trans base,whole,by omega,room,fun r hr=>?_⟩
   have apart:=(pairwise_cons.1 inv'.apart).1 r.range (held r hr)
   simpa[Palloc.Range.area,Pages.range,Pages.area,Nat.mul_comm] using apart
 · obtain ⟨pools,got,-⟩:=got cnt
   rw[Palloc.next,got]
   cases answer t.pools cnt<;>exact ⟨_,rfl,rfl⟩
 · obtain ⟨pools,freed,-⟩:=inv.freeMultiple small (held r hr)
   exact ⟨⟨pools,_⟩,by simp only[Palloc.next,freed],rfl⟩

theorem palloc_honest_second:∃t,
 Runs Palloc.next Palloc.Named ⟨Palloc.sixPages,[]⟩ [.get ⟨false,false⟩ 1] t ∧
 answer t.pools 1=some 0xc0102000 ∧
 Honest ⟨⟨blank,[⟨0xc0101000,1⟩]⟩,[]⟩ ⟨answer t.pools,blank⟩:=by
 have init:Palloc.pallocInit 262 100=.ok Palloc.sixPages:=by decide +kernel
 have found:(exec Palloc.next Palloc.Named ⟨Palloc.sixPages,[]⟩ [.get ⟨false,false⟩ 1]).any
   (fun t=>answer t.pools 1=some 0xc0102000 ∧ t.live=[⟨false,0xc0101000,1⟩])=true:=by
  decide +kernel
 obtain ⟨t,run,facts⟩:=exec_any found
 obtain ⟨second,live⟩:=of_decide_eq_true facts
 refine ⟨t,run,second,(palloc_honest (by decide) (by decide) init run (fun r hr=>?_) blank).1⟩
 rw[live,mem_singleton.1 hr]
 exact mem_singleton_self _

end Pintos.Malloc
