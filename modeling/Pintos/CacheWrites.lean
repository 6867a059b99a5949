import Pintos.CacheTransparent

/-! A write of a whole sector through the cache: what `cache_and_write_block` leaves of it, and
the store that its comment promises. -/
namespace Pintos.Cache
open ExecHoare HashTable Function

lemma Cell.evict_logical_iff (c:Cell):c.evict.logical=c.logical ↔ c.Clean:=by
 refine ⟨fun same buffer clean=>?_,Clean.evict_logical⟩
 simpa[Cell.evict,Cell.logical,clean] using same.symm

lemma copyPointerSize_eq_iff (old new:Sector):
 copyPointerSize old new=new ↔ ∀i:Fin 512,4 ≤ i.val → old i=new i:=by
 constructor
 · intro same i tail
   rw[←same,copyPointerSize,if_neg (by omega)]
 · intro tail
   funext i
   unfold copyPointerSize
   split_ifs with first
   · rfl
   · exact tail i (by omega)

/-- The cache holds all of `buffer` for `s`, to be written when it is evicted, and every other
sector reads as before. -/
structure WroteWhole (d:Device)(s:ℕ)(buffer:Sector)(d':Device):Prop where
 block:∃b,d'.cached s=some b ∧ b.dirty=true ∧ b.buffer=buffer ∧
  ∀d'',blockEvict.run d'=.ok ((),d'') → evictCandidate d'.cache=some b → d''.disk s=buffer
 others:∀t,t≠s → d'.logical t=d.logical t

/-- If a block has to go, it is dirty or what the disk has. -/
def VictimKept (d:Device)(s:ℕ):Prop:=
 d.cached s=none → 64≤hashSize d.cache → ∀v,evictCandidate d.cache=some v →
  v.dirty=false → v.buffer=d.disk v.sector

variable {d d':Device}{s:ℕ}{buffer:Sector}{d₂:Device}{b:SectorBlock}

lemma Writes.block (h:Writes d d' s buffer d₂ b)(inv:Inv d):
 ∃now,d'.cached s=some ⟨s,copyPointerSize (d.logical s) buffer,true,now⟩:=by
 refine ⟨d.clock (d.ticks+1),?_⟩
 rw[h.blocks,update_self,(h.obtained.cells inv).2.1,cell_logical]

lemma WroteWhole.tail (whole:WroteWhole d s buffer d')(h:Writes d d' s buffer d₂ b)
 (inv:Inv d):∀i:Fin 512,4 ≤ i.val → d.logical s i=buffer i:=by
 obtain ⟨c,cached,-,content,-⟩:=whole.block
 obtain ⟨now,written⟩:=h.block inv
 rw[written,Option.some.injEq] at cached
 subst cached
 exact (copyPointerSize_eq_iff _ _).1 content

lemma Writes.others_iff (h:Writes d d' s buffer d₂ b)(inv:Inv d):
 (∀t,t≠s → d'.logical t=d.logical t) ↔ VictimKept d s:=by
 have same:∀t,t≠s → d'.logical t=d₂.logical t:=by
  intro t other
  rw[←cell_logical,←cell_logical]
  simp[Device.cell,h.blocks,h.disk,other]
 rcases h.obtained with ⟨b₀,hit,-,blocks,disk,-⟩|⟨miss,d₁,fill⟩
 · refine iff_of_true (fun t other=>?_) (fun miss=>by rw[hit] at miss;cases miss)
   rw[same t other,←cell_logical,←cell_logical]
   simp[Device.cell,blocks,disk,other]
 · have kept:∀t,t≠s → d'.logical t=d₁.logical t:=by
    intro t other
    rw[same t other,←cell_logical,←cell_logical]
    simp[Device.cell,fill.blocks,fill.disk,other]
   rcases fill.room with ⟨room,rfl⟩|⟨full,v,evicts⟩
   · exact iff_of_true kept fun _ full=>by omega
   · have victim:=cached_self inv.wf (evictCandidate_mem evicts.candidate)
     have cells:=evicts.cell inv
     have clean:(d.cell v.sector).Clean ↔ (v.dirty=false → v.buffer=d.disk v.sector):=by
      simp[Cell.Clean,Device.cell,victim]
     constructor
     · intro reads _ _ w candidate
       rw[evicts.candidate,Option.some.injEq] at candidate
       subst candidate
       have own:v.sector≠s:=by
        rintro rfl
        rw[victim] at miss
        cases miss
       have unchanged:=reads v.sector own
       rw[kept v.sector own,←cell_logical,←cell_logical,cells,update_self,
        Cell.evict_logical_iff] at unchanged
       exact clean.1 unchanged
     · intro safe t other
       rw[kept t other,←cell_logical,←cell_logical,cells]
       by_cases evicted:t=v.sector
       · subst evicted
         rw[update_self,Cell.evict_logical_iff,clean]
         exact safe miss full v evicts.candidate
       · rw[update_of_ne evicted]

lemma cacheAndWriteBlock_returns (inv:Inv d)(memory:∀n,d.mallocOk n=true)
 (range:s<d.size)(buffer:Sector):
 ∃d' d₂ b,(cacheAndWriteBlock s buffer).run d=.ok ((),d') ∧ Inv d' ∧ Writes d d' s buffer d₂ b:=by
 have spec:=(cacheAndWriteBlock_spec inv s buffer).mono (F:=NoFault) (fun _ _ h=>h) (by
  rintro e (⟨-,past⟩|⟨-,n,none⟩)
  · omega
  · rw[memory n] at none
    cases none)
 obtain ⟨_,d',run,inv',d₂,b,writes⟩:=spec.returns
 exact ⟨d',d₂,b,run,inv',writes⟩

/-- `memcpy` copies the size of a pointer: a whole sector is written exactly if the rest of the
sector reads like the buffer already, and a clean victim does not differ from the disk. -/
theorem cache_writes_whole_iff (inv:Inv d)(memory:∀n,d.mallocOk n=true)(range:s<d.size):
 (∃d',(cacheAndWriteBlock s buffer).run d=.ok ((),d') ∧ WroteWhole d s buffer d') ↔
  (∀i:Fin 512,4 ≤ i.val → d.logical s i=buffer i) ∧ VictimKept d s:=by
 obtain ⟨d',d₂,b,run,inv',writes⟩:=cacheAndWriteBlock_returns inv memory range buffer
 constructor
 · rintro ⟨d₁,run₁,whole⟩
   rw[run] at run₁
   cases run₁
   exact ⟨whole.tail writes inv,(writes.others_iff inv).1 whole.others⟩
 · rintro ⟨tail,safe⟩
   obtain ⟨now,written⟩:=writes.block inv
   rw[(copyPointerSize_eq_iff _ _).2 tail] at written
   refine ⟨d',run,⟨_,written,rfl,rfl,?_⟩,(writes.others_iff inv).2 safe⟩
   intro d'' evict candidate
   obtain ⟨-,v,evicts⟩:=(blockEvict_spec inv').ok evict
   rw[evicts.candidate,Option.some.injEq] at candidate
   rw[evicts.disk,candidate]
   simp

lemma blankDevice_inv (clock:ℕ→ℕ):Inv (blankDevice clock):=(coherent_of_empty rfl).toInv

theorem cache_writes_whole_blank:
 ∃d',(cacheAndWriteBlock 7 (fun i=>if i.val<4 then 1 else 0)).run (blankDevice id)=.ok ((),d') ∧
  WroteWhole (blankDevice id) 7 (fun i=>if i.val<4 then 1 else 0) d':=
 (cache_writes_whole_iff (blankDevice_inv id) (fun _=>rfl) (by decide)).2
  ⟨fun i tail=>(if_neg (by omega)).symm,fun _ full=>absurd full (by decide)⟩

/-- Of a sector of ones only four bytes arrive. -/
theorem cache_write_loses_bytes:
 ¬ ∃d',(cacheAndWriteBlock 7 (fun _=>1)).run (blankDevice id)=.ok ((),d') ∧
  WroteWhole (blankDevice id) 7 (fun _=>1) d':=by
 rintro ⟨d',run,whole⟩
 obtain ⟨-,d₂,b,writes⟩:=(cacheAndWriteBlock_spec (blankDevice_inv id) 7 (fun _=>1)).ok run
 have tail:=whole.tail writes (blankDevice_inv id) 4 (by decide)
 exact absurd tail (by decide)

/-- The cached content of `s` becomes `buffer`, and nothing else changes: what the comment on
`cache_and_write_block` says. -/
def storeWhole (s:ℕ)(buffer:Sector):Cmd Unit:=do
 let d←get
 match d.cached s with
 | some _=>setBlock s fun b=>{b with buffer:=buffer,dirty:=true}
 | none=>
  modify fun d=>
   {d with cache:=(hashInsert blockOps true d.cache ⟨s,buffer,true,d.clock d.ticks⟩).2}

lemma storeWhole_spec {d:Device}(wf:WF blockOps d.cache)(s:ℕ)(buffer:Sector):
 Holds (storeWhole s buffer) d (fun _ d'=>WF blockOps d'.cache ∧ SameDevice d d' ∧ d'.disk=d.disk ∧
   d'.logical=update d.logical s buffer) NoFault:=by
 have reads (d':Device) (b:SectorBlock) (content:b.buffer=buffer)
   (disk:d'.disk=d.disk) (blocks:d'.cached=update d.cached s (some b)):
   d'.logical=update d.logical s buffer:=by
  funext t
  unfold Device.logical
  rw[blocks,disk]
  by_cases same:t=s
  · subst same
    simp[content]
  · simp[same]
 simp only[storeWhole,holds_bind,holds_get]
 cases found:d.cached s with
 | some b=>
  obtain ⟨wf',-,blocks⟩:=cached_assign (s:=s)
   (f:=fun b=>{b with buffer:=buffer,dirty:=true}) wf (fun _=>rfl) rfl
  rw[found] at blocks
  exact ⟨wf',⟨rfl,rfl,rfl⟩,rfl,reads _ _ rfl rfl blocks⟩
 | none=>
  obtain ⟨wf',-,blocks⟩:=cached_insert (b:=⟨s,buffer,true,d.clock d.ticks⟩) wf true found rfl
  exact ⟨wf',⟨rfl,rfl,rfl⟩,rfl,reads _ _ rfl rfl blocks⟩

end Pintos.Cache
