import Pintos.CacheSpec
import Pintos.ExecRuns

/-! Seen from outside, the cache is one cell per sector: what the disk has, and
what the cache has on top of it. -/
namespace Pintos.Cache
open ExecHoare ExecRuns HashTable Function

structure Cell where
 disk:Sector
 block:Option (Sector×Bool)

/-- The cached buffer if there is one, and the disk sector otherwise. -/
def Cell.logical (c:Cell):Sector:=
 match c.block with
 | some (buffer,_)=>buffer
 | none=>c.disk

def Cell.evict (c:Cell):Cell:=
 match c.block with
 | some (buffer,true)=>⟨buffer,none⟩
 | some (_,false)=>⟨c.disk,none⟩
 | none=>c

def Cell.fill (c:Cell):Cell:=
 match c.block with
 | some _=>c
 | none=>⟨c.disk,some (c.disk,false)⟩
def Cell.write (c:Cell)(buffer:Sector):Cell:=⟨c.disk,some (copyPointerSize c.logical buffer,true)⟩
def Cell.Clean (c:Cell):Prop:=∀buffer,c.block=some (buffer,false) → buffer=c.disk
def Cell.Settles (c c':Cell):Prop:=c'=c ∨ c'=c.evict

namespace Cell

lemma evict_block (c:Cell):c.evict.block=none:=by
 unfold evict
 split<;>first | rfl | assumption
lemma Settles.refl (c:Cell):c.Settles c:=.inl rfl

variable {c c':Cell}

lemma Clean.evict_logical (h:c.Clean):c.evict.logical=c.logical:=by
 unfold evict logical
 rcases hb:c.block with _|⟨buffer,_|_⟩
 · simp[hb]
 · exact (h buffer hb).symm
 · rfl

lemma Settles.logical (h:c.Settles c')(clean:c.Clean):c'.logical=c.logical:=by
 rcases h with rfl|rfl
 · rfl
 · exact clean.evict_logical

lemma fill_logical (c:Cell):c.fill.logical=c.logical:=by
 unfold fill logical
 rcases hb:c.block with _|b
 · rfl
 · simp[hb]

lemma Clean.evict:c.evict.Clean:=by
 intro buffer h
 rw[c.evict_block] at h
 cases h
lemma Settles.clean (h:c.Settles c')(clean:c.Clean):c'.Clean:=by
 rcases h with rfl|rfl
 · exact clean
 · exact .evict

lemma Clean.fill (h:c.Clean):c.fill.Clean:=by
 unfold Cell.fill
 rcases hb:c.block with _|b
 · intro buffer he
   obtain rfl:c.disk=buffer:=by simpa using he
   rfl
 · exact h

lemma clean_write (c:Cell)(buffer:Sector):(c.write buffer).Clean:=by
 intro b he
 simp[write] at he

end Cell

def Device.cell (d:Device)(s:ℕ):Cell:=⟨d.disk s,(d.cached s).map (fun b=>(b.buffer,b.dirty))⟩

section
variable {d d':Device}{s:ℕ}{b:SectorBlock}

lemma cell_logical_some (h:d.cached s=some b):(d.cell s).logical=b.buffer:=by
 simp[Device.cell,Cell.logical,h]
lemma cell_logical_none (h:d.cached s=none):(d.cell s).logical=d.disk s:=by
 simp[Device.cell,Cell.logical,h]

lemma Evicts.cell (h:Evicts d d' b)(inv:Inv d):
 d'.cell=update d.cell b.sector (d.cell b.sector).evict:=by
 have hb:=cached_self inv.wf (evictCandidate_mem h.candidate)
 funext t
 unfold Device.cell
 rw[h.blocks,h.disk]
 by_cases ht:t=b.sector
 · subst ht
   cases hd:b.dirty<;>simp[Cell.evict,hb,hd]
 · cases hd:b.dirty<;>simp[ht]

lemma Evicts.settles (h:Evicts d d' b)(inv:Inv d)(t:ℕ):(d.cell t).Settles (d'.cell t):=by
 rw[h.cell inv]
 by_cases ht:t=b.sector
 · subst ht
   rw[update_self]
   exact .inr rfl
 · rw[update_of_ne ht]
   exact .refl _

lemma MadeRoom.settles (h:MadeRoom d d')(inv:Inv d)(t:ℕ):(d.cell t).Settles (d'.cell t):=by
 rcases h with ⟨-,rfl⟩|⟨-,v,ev⟩
 · exact .refl _
 · exact ev.settles inv t

lemma Cell.Settles.eq_of_none {c c':Cell}(h:c.Settles c')(hb:c.block=none):c'=c:=by
 rcases h with rfl|rfl
 · rfl
 · unfold Cell.evict
   rw[hb]

lemma MadeRoom.cell_missed (h:MadeRoom d d')(inv:Inv d)(miss:d.cached s=none):
 d'.cell s=d.cell s:=by
 apply (h.settles inv s).eq_of_none
 simp[Device.cell,miss]

lemma Obtains.cells (h:Obtains d d' s b)(inv:Inv d):
 d'.cell s=(d.cell s).fill ∧ b.buffer=(d.cell s).logical ∧
  ∀t,t≠s → (d.cell t).Settles (d'.cell t):=by
 rcases h with ⟨b₀,hit,rfl,blocks,disk,-⟩|⟨miss,d₁,fill⟩
 · refine ⟨?_,(cell_logical_some hit).symm,fun t ht=>.inl ?_⟩
   · simp[Device.cell,Cell.fill,blocks,disk,hit]
   · simp[Device.cell,blocks,disk,ht]
 · have hs:=fill.room.cell_missed inv miss
   have hdisk:d₁.disk s=d.disk s:=congrArg Cell.disk hs
   refine ⟨?_,?_,fun t ht=>?_⟩
   · simp[Device.cell,Cell.fill,fill.blocks,fill.disk,fill.block,miss,hdisk]
   · rw[cell_logical_none miss,fill.block,hdisk]
   · have ht':d'.cell t=d₁.cell t:=by
      simp[Device.cell,fill.blocks,fill.disk,ht]
     rw[ht']
     exact fill.room.settles inv t

lemma Fills.obtains {d₁:Device}(h:Fills d d' s b d₁)(miss:d.cached s=none):Obtains d d' s b:=
 .inr ⟨miss,d₁,h⟩

lemma Writes.cells {buffer:Sector}{d₂:Device}(h:Writes d d' s buffer d₂ b)(inv:Inv d):
 d'.cell s=(d.cell s).write buffer ∧ ∀t,t≠s → (d.cell t).Settles (d'.cell t):=by
 obtain ⟨hs,hb,others⟩:=h.obtained.cells inv
 have hdisk:d₂.disk s=d.disk s:=by
  have:=congrArg Cell.disk hs
  unfold Cell.fill at this
  split at this<;>exact this
 refine ⟨?_,fun t ht=>?_⟩
 · rw[Cell.write,←hb]
   simp[Device.cell,h.blocks,h.disk,hdisk]
 · have ht':d'.cell t=d₂.cell t:=by
    simp[Device.cell,h.blocks,h.disk,ht]
   rw[ht']
   exact others t ht

lemma getBlockFromCache_cell (inv:Inv d)(s:ℕ):
 Holds (getBlockFromCache s) d (fun _ d'=>Inv d' ∧ SameDevice d d' ∧ d'.cell=d.cell) NoFault:=by
 refine (getBlockFromCache_spec inv s).imp ?_
 rintro r d' ⟨inv',same,disk,-,⟨-,-,rfl⟩|⟨b,hit,rfl,blocks,-⟩⟩
 · exact ⟨inv',same,rfl⟩
 · refine ⟨inv',same,?_⟩
   funext t
   unfold Device.cell
   rw[blocks,disk]
   by_cases ht:t=s
   · subst ht
     simp[hit]
   · simp[ht]

end

inductive Op where
 | get (s:ℕ)
 | fill (s:ℕ)
 | write (s:ℕ) (buffer:Sector)
 | evict

def Op.call:Op→Cmd Unit
 | .get s=>do
  let _←getBlockFromCache s
 | .fill s=>do
  let _←cacheBlockFromSector s
 | .write s buffer=>cacheAndWriteBlock s buffer
 | .evict=>blockEvict

def next (d:Device)(op:Op):Option Device:=
 match op.call.run d with
 | .ok (_,d')=>some d'
 | .error _=>none
def OnMiss (d:Device)(op:Op):Prop:=∀s,op=.fill s → d.cached s=none

instance (d:Device):∀op,Decidable (OnMiss d op)
 | .fill s=>decidable_of_iff ((d.cached s).isNone=true)
   ⟨fun h t ht=>by cases ht;exact Option.isNone_iff_eq_none.1 h,
    fun h=>Option.isNone_iff_eq_none.2 (h s rfl)⟩
 | .get _ | .write _ _ | .evict=>.isTrue (fun _ h=>by cases h)

def Device.logical (d:Device)(s:ℕ):Sector:=
 match d.cached s with
 | some b=>b.buffer
 | none=>d.disk s

lemma cell_logical (d:Device)(s:ℕ):(d.cell s).logical=d.logical s:=by
 unfold Device.logical
 cases h:d.cached s with
 | none=>exact cell_logical_none h
 | some b=>exact cell_logical_some h

variable {d d':Device}

lemma next_of_holds {op:Op}{Q:Unit→Device→Prop}{E:Fault→Prop}
 (step:next d op=some d')(h:Holds op.call d Q E):Q () d':=by
 unfold next at step
 cases hr:op.call.run d with
 | error e=>simp[hr] at step
 | ok r=>
  obtain rfl:r.2=d':=by simpa[hr] using step
  exact h.ok hr

section
variable {d d':Device}{s:ℕ}

lemma next_get (inv:Inv d)(step:next d (.get s)=some d'):Inv d' ∧ ((d.cached s=none ∧ d'=d) ∨
  ((d.cached s).isSome ∧ ∃b,Obtains d d' s b)):=by
 have h:Holds (Op.call (.get s)) d (fun _ d'=>Inv d' ∧ ((d.cached s=none ∧ d'=d) ∨
   ((d.cached s).isSome ∧ ∃b,Obtains d d' s b))) NoFault:=by
  refine (getBlockFromCache_spec inv s).seq ?_
  rintro r d' ⟨inv',same,disk,-,⟨miss,-,rfl⟩|⟨b,hit,rfl,blocks,ticks⟩⟩
  · exact ⟨inv',.inl ⟨miss,rfl⟩⟩
  · exact ⟨inv',.inr ⟨by rw[hit];rfl,_,.inl ⟨b,hit,rfl,blocks,disk,ticks,same⟩⟩⟩
 exact next_of_holds step h

lemma next_fill (inv:Inv d)(miss:d.cached s=none)(step:next d (.fill s)=some d'):
 Inv d' ∧ ∃b d₁,Fills d d' s b d₁:=by
 have h:=(cacheBlockFromSector_spec inv miss).seq (f:=fun _=>pure ())
  (R:=fun _ d'=>Inv d' ∧ ∃b d₁,Fills d d' s b d₁) (fun b d' h=>⟨h.1,b,h.2⟩)
 exact next_of_holds step h

lemma next_write (inv:Inv d){buffer:Sector}(step:next d (.write s buffer)=some d'):
 Inv d' ∧ ∃d₂ b,Writes d d' s buffer d₂ b:=
 next_of_holds step (cacheAndWriteBlock_spec inv s buffer)
lemma next_evict (inv:Inv d)(step:next d .evict=some d'):Inv d' ∧ ∃v,Evicts d d' v:=
 next_of_holds step (blockEvict_spec inv)

lemma call_cells {op:Op}(inv:Inv d)(miss:OnMiss d op)(step:next d op=some d'):
 Inv d' ∧ SameDevice d d' ∧ ∀t,(d.cell t).Settles (d'.cell t) ∨ d'.cell t=(d.cell t).fill ∨
  ∃buffer,d'.cell t=(d.cell t).write buffer:=by
 have obtained:∀ {s b},Obtains d d' s b → ∀t,(d.cell t).Settles (d'.cell t) ∨
   d'.cell t=(d.cell t).fill ∨ ∃buffer,d'.cell t=(d.cell t).write buffer:=by
  intro s b h t
  obtain ⟨own,-,others⟩:=h.cells inv
  by_cases ht:t=s
  · subst ht
    exact .inr (.inl own)
  · exact .inl (others t ht)
 cases op with
 | get s=>
  obtain ⟨inv',⟨-,rfl⟩|⟨-,b,h⟩⟩:=next_get inv step
  · exact ⟨inv',.refl _,fun t=>.inl (.refl _)⟩
  · exact ⟨inv',h.sameDevice.1,obtained h⟩
 | fill s=>
  obtain ⟨inv',b,d₁,fill⟩:=next_fill inv (miss s rfl) step
  exact ⟨inv',fill.same,obtained (fill.obtains (miss s rfl))⟩
 | write s buffer=>
  obtain ⟨inv',d₂,b,writes⟩:=next_write inv step
  obtain ⟨own,others⟩:=writes.cells inv
  refine ⟨inv',writes.same,fun t=>?_⟩
  by_cases ht:t=s
  · subst ht
    exact .inr (.inr ⟨buffer,own⟩)
  · exact .inl (others t ht)
 | evict=>
  obtain ⟨inv',v,ev⟩:=next_evict inv step
  exact ⟨inv',ev.toSameDevice,fun t=>.inl (ev.settles inv t)⟩

end

structure Coherent (d:Device):Prop extends Inv d where
 clean:∀s,(d.cell s).Clean

lemma Coherent.next {op:Op}(h:Coherent d)(miss:OnMiss d op)
 (step:Cache.next d op=some d'):Coherent d':=by
 obtain ⟨inv',-,cells⟩:=call_cells h.toInv miss step
 refine ⟨inv',fun s=>?_⟩
 rcases cells s with settles|he|⟨buffer,he⟩
 · exact settles.clean (h.clean s)
 · rw[he]
   exact (h.clean s).fill
 · rw[he]
   exact Cell.clean_write _ _

lemma coherent_of_empty (empty:d.cache=hashInit):Coherent d:=by
 have none_cached:d.cache.elems=[]:=by
  rw[empty]
  rfl
 refine ⟨⟨by rw[empty];exact hashInit_wf,by rw[empty];decide,?_⟩,?_⟩
 · simp[none_cached]
 · intro s buffer h
   have hs:d.cached s=none:=by
    unfold Device.cached
    rw[empty]
    exact (hashInit_wf.hashFind_eq_none blockOps_lawful).2 (by simp[hashInit,Hash.elems])
   simp[Device.cell,hs] at h

section
variable (h:Coherent d)
include h

lemma Coherent.logical_eq (cells:∀t,(d.cell t).Settles (d'.cell t) ∨ d'.cell t=(d.cell t).fill):
 d'.logical=d.logical:=by
 funext t
 rw[←cell_logical,←cell_logical]
 rcases cells t with settles|he
 · exact settles.logical (h.clean t)
 · rw[he,Cell.fill_logical]

lemma Coherent.get (s:ℕ):∃r d',(getBlockFromCache s).run d=.ok (r,d') ∧ d'.logical=d.logical:=by
 obtain ⟨r,d',hr,-,-,cells⟩:=(getBlockFromCache_cell h.toInv s).returns
 exact ⟨r,d',hr,h.logical_eq (fun t=>.inl (.inl (congrFun cells t)))⟩

lemma Coherent.fill (memory:∀n,d.mallocOk n=true){s:ℕ}(range:s<d.size)(miss:d.cached s=none):
 ∃b d',(cacheBlockFromSector s).run d=.ok (b,d') ∧ d'.logical=d.logical ∧
  b.buffer=d.logical s ∧ d'.cached s=some b:=by
 have spec:=(cacheBlockFromSector_spec h.toInv miss).mono (F:=NoFault) (fun _ _ h=>h) (by
  rintro e (⟨-,hs⟩|⟨-,n,hn⟩)
  · omega
  · rw[memory n] at hn
    cases hn)
 obtain ⟨b,d',hr,-,d₁,fill⟩:=spec.returns
 obtain ⟨own,content,others⟩:=(fill.obtains miss).cells h.toInv
 refine ⟨b,d',hr,h.logical_eq (fun t=>?_),?_,(fill.obtains miss).cached⟩
 · by_cases ht:t=s
   · subst ht
     exact .inr own
   · exact .inl (others t ht)
 · rw[content,cell_logical]

lemma Coherent.evict (nonempty:d.cache.elems≠[]):
 ∃d',blockEvict.run d=.ok ((),d') ∧ d'.logical=d.logical:=by
 have spec:=(blockEvict_spec h.toInv).mono (F:=NoFault) (fun _ _ h=>h) (fun e he=>nonempty he.2)
 obtain ⟨_,d',hr,-,v,ev⟩:=spec.returns
 exact ⟨d',hr,h.logical_eq (fun t=>.inl (ev.settles h.toInv t))⟩

lemma Coherent.distinct:(d.cache.elems.map (·.sector)).Nodup:=by
 refine List.pairwise_map.2 (h.wf.distinct.imp ?_)
 intro a b hab he
 rw[blockOps_equal.2 he] at hab
 cases hab

lemma Coherent.clean_mem {b:SectorBlock}(hb:b∈d.cache.elems)
 (hd:b.dirty=false):b.buffer=d.disk b.sector:=by
 apply h.clean b.sector b.buffer
 simp[Device.cell,cached_self h.wf hb,hd]

end

/-- From an empty cache, with memory to be had, the cache keeps within its limit,
holds a sector at most once and its clean blocks are the disk's; and looking a
block up, filling one and evicting one change no logical content. -/
theorem cache_transparent {d₀ d:Device}{ops:List Op}(empty:d₀.cache=hashInit)
 (memory:∀n,d₀.mallocOk n=true)(run:Runs next OnMiss d₀ ops d):
 d.cache.elems.length≤64 ∧
 (d.cache.elems.map (·.sector)).Nodup ∧
 (∀b∈d.cache.elems,b.dirty=false → b.buffer=d.disk b.sector) ∧
 (∀s,∃r d',(getBlockFromCache s).run d=.ok (r,d') ∧ d'.logical=d.logical) ∧
 (∀s<d.size,d.cached s=none → ∃b d',(cacheBlockFromSector s).run d=.ok (b,d') ∧
  d'.logical=d.logical ∧ b.buffer=d.logical s ∧ d'.cached s=some b) ∧
 (d.cache.elems≠[] → ∃d',blockEvict.run d=.ok ((),d') ∧ d'.logical=d.logical):=by
 have keep:∀d op d',(Coherent d ∧ ∀n,d.mallocOk n=true) → OnMiss d op →
   next d op=some d' → Coherent d' ∧ ∀n,d'.mallocOk n=true:=by
  rintro d op d' ⟨h,memory⟩ miss step
  obtain ⟨-,same,-⟩:=call_cells h.toInv miss step
  exact ⟨h.next miss step,fun n=>by rw[same.mallocOk];exact memory n⟩
 obtain ⟨h,memory'⟩:=run.invariant keep ⟨coherent_of_empty empty,memory⟩
 refine ⟨?_,h.distinct,fun b hb hd=>h.clean_mem hb hd,h.get,?_,h.evict⟩
 · rw[←h.wf.count]
   exact h.limit
 · exact fun s range miss=>h.fill memory' range miss

def blankDevice (clock:ℕ→ℕ):Device where
 size:=100
 disk _ _:=0
 cache:=hashInit
 clock:=clock
 ticks:=0
 mallocOk _:=true
 mallocs:=0

theorem cache_transparent_write:∃ops d,Runs next OnMiss (blankDevice id) ops d ∧ d.cache.elems≠[] ∧
 ∃d',blockEvict.run d=.ok ((),d') ∧ d'.logical=d.logical:=by
 have run:∃d,Runs next OnMiss (blankDevice id)
   [.fill 7,.write 7 (fun _=>1),.get 7,.write 9 (fun _=>2)] d ∧ d.cache.elems≠[]:=
  ⟨_,exec_runs rfl,by decide⟩
 obtain ⟨d,h,hne⟩:=run
 exact ⟨_,d,h,hne,(@cache_transparent (blankDevice id) d _ rfl (fun _=>rfl) h).2.2.2.2.2 hne⟩

end Pintos.Cache
