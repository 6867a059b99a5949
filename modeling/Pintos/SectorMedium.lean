import Pintos.CacheTransparent
import Pintos.InodeData

/-! What the loops of `inode_read_at` and `inode_write_at` rely on when they get
at sectors, with the cache and without it. -/
namespace Pintos.InodeData
open ExecHoare ByteWords Cache InodeTable Function List

/-- The sector reads as `content`, and eviction does not change that. -/
def Shows (c:Cell)(content:Sector):Prop:=c.Clean ∧ c.logical=content

def NotDirty (c:Cell):Prop:=∀buffer,c.block≠some (buffer,true)
def IsHeader (c:Cell)(h:InodeDisk):Prop:=NotDirty c ∧ decodeInode c.disk=h

section
variable {c c':Cell}{content:Sector}{h:InodeDisk}

lemma NotDirty.evict_disk (hc:NotDirty c):c.evict.disk=c.disk:=by
 unfold Cell.evict
 rcases hb:c.block with _|⟨buffer,_|_⟩
 · rfl
 · rfl
 · exact absurd hb (hc buffer)

lemma IsHeader.evict (hc:IsHeader c h):IsHeader c.evict h:=by
 refine ⟨fun buffer hb=>?_,by rw[hc.1.evict_disk];exact hc.2⟩
 rw[c.evict_block] at hb
 cases hb
lemma Shows.evict (hc:Shows c content):Shows c.evict content:=
 ⟨.evict,hc.1.evict_logical.trans hc.2⟩

lemma IsHeader.fill (hc:IsHeader c h):IsHeader c.fill h:=by
 unfold Cell.fill
 split
 · exact hc
 · exact ⟨fun buffer hb=>(by cases hb),hc.2⟩

lemma Shows.fill (hc:Shows c content):Shows c.fill content:=⟨hc.1.fill,c.fill_logical.trans hc.2⟩
lemma settles_keeps {P:Cell→Prop}(evict:∀c,P c → P c.evict)(hs:c.Settles c')(hc:P c):P c':=by
 rcases hs with rfl|rfl
 · exact hc
 · exact evict c hc

end

/-- A way to get at sectors, with its effect on cells. `E` are the faults that
may stop it on a sector that is within `Reach`; `merge` is what a sector reads
as after a store, and `Base` what its disk may have before. -/
structure Medium extends SectorIO where
 cell:Device→ℕ→Cell
 put:Cell→Sector→Cell
 merge:Sector→Sector→Sector
 Base:Sector→Sector→Prop
 Ok:Device→Prop
 Reach:ℕ→ℕ→Prop
 E:Fault→Prop
 cell_disk:∀d s,(cell d s).disk=d.disk s
 reach:∀size s,s<size → Reach size s
 read_spec:∀d s,Reach d.size s → Holds (blockRead s) d (fun b d'=>d'=d ∧ b=d.disk s) E
 load_spec:∀d s,Ok d → Reach d.size s → Holds (load s) d
  (fun b d'=>(Ok d' ∧ SameDevice d d' ∧ cell d'=cell d) ∧ b=(cell d s).logical) E
 store_spec:∀d s b,Ok d → Reach d.size s → Holds (store s b) d
  (fun _ d'=>(Ok d' ∧ SameDevice d d') ∧ cell d' s=put (cell d s) b ∧
   ∀t,t≠s → (cell d t).Settles (cell d' t)) E
 malloc_spec:∀d n,Ok d → Ok {d with mallocs:=n} ∧ cell {d with mallocs:=n}=cell d
 write_spec:∀d s b,Ok d → Ok {d with disk:=update d.disk s b} ∧
  cell {d with disk:=update d.disk s b}=update (cell d) s {cell d s with disk:=b}
 put_shows:∀c content b,Shows c content → Shows (put c b) (merge content b)
 base:∀d s content,Shows (cell d s) content → Base content (d.disk s)

def directMedium:Medium where
 toSectorIO:=direct
 cell d s:=⟨d.disk s,none⟩
 put _ b:=⟨b,none⟩
 merge _ b:=b
 Base content disk:=disk=content
 Ok _:=True
 Reach size s:=s<size
 E:=NoFault
 cell_disk d s:=rfl
 reach size s h:=h
 read_spec d s h:=by
  rw[holds_blockRead,if_pos h]
  exact ⟨rfl,rfl⟩
 load_spec d s _ h:=by
  change Holds (blockRead s) d _ _
  rw[holds_blockRead,if_pos h]
  exact ⟨⟨trivial,.refl d,rfl⟩,rfl⟩
 store_spec d s b _ h:=by
  change Holds (blockWrite s b) d _ _
  rw[holds_blockWrite,if_pos h]
  refine ⟨⟨trivial,rfl,rfl,rfl⟩,?_,fun t ht=>.inl ?_⟩
  · simp
  · simp[ht]
 malloc_spec d n _:=⟨trivial,rfl⟩
 write_spec d s b _:=by
  refine ⟨trivial,?_⟩
  funext t
  by_cases ht:t=s
  · subst ht
    simp
  · simp[ht]
 put_shows c content b _:=⟨fun buffer h=>(by cases h),rfl⟩
 base d s content h:=h.2

lemma cell_disk_update (d:Device)(s:ℕ)(b:Sector):({d with disk:=update d.disk s b}:Device).cell=
  update d.cell s {d.cell s with disk:=b}:=by
 funext t
 by_cases ht:t=s
 · subst ht
   simp[Device.cell,Device.cached]
 · simp[Device.cell,Device.cached,ht]

lemma cached_load_cases (d:Device)(s:ℕ)(inv:Inv d):Holds (cached.load s) d
  (fun b d'=>(d.cached s).isSome ∧ (Inv d' ∧ SameDevice d d' ∧ d'.cell=d.cell) ∧
   b=(d.cell s).logical)
  (fun e=>d.cached s=none ∧ (s<d.size → e=.nullPointer)):=by
 change Holds (getBlockFromCache s >>= _) d _ _
 rw[holds_bind]
 have cells:=getBlockFromCache_cell inv s
 cases hc:d.cached s with
 | none=>
  rw[holds_getBlockFromCache_miss hc,holds_bind]
  refine (cacheBlockFromSector_spec inv hc).mono (fun _ _ _=>⟨rfl,fun _=>rfl⟩) ?_
  rintro e (⟨-,hd⟩|⟨he,-⟩)
  · exact ⟨rfl,fun hs=>by omega⟩
  · exact ⟨rfl,fun _=>he⟩
 | some b=>
  rw[holds_getBlockFromCache_hit hc] at cells ⊢
  exact ⟨rfl,cells,(cell_logical_some hc).symm⟩

def cachedMedium:Medium where
 toSectorIO:=cached
 cell:=Device.cell
 put:=Cell.write
 merge:=copyPointerSize
 Base _ _:=True
 Ok:=Inv
 Reach _ _:=True
 E:=AnyFault
 cell_disk d s:=rfl
 reach _ _ _:=trivial
 read_spec d s _:=by
  rw[holds_blockRead]
  split
  · exact ⟨rfl,rfl⟩
  · exact trivial
 load_spec d s inv _:=(cached_load_cases d s inv).mono (fun _ _ h=>h.2) (fun _ _=>trivial)
 store_spec d s b inv _:=by
  refine (cacheAndWriteBlock_spec inv s b).mono ?_ (fun _ _=>trivial)
  rintro _ d' ⟨inv',d₂,block,writes⟩
  exact ⟨⟨inv',writes.same⟩,writes.cells inv⟩
 malloc_spec d n inv:=⟨⟨inv.wf,inv.limit,inv.range⟩,rfl⟩
 write_spec d s b inv:=⟨⟨inv.wf,inv.limit,inv.range⟩,cell_disk_update d s b⟩
 put_shows c content b h:=by
  refine ⟨c.clean_write b,?_⟩
  rw[←h.2]
  rfl
 base _ _ _ _:=trivial

/-- The faults of the cache within the device: a load that misses, and memory that is
not there, end at a null pointer. -/
def MissFault (e:Fault):Prop:=e=.nullPointer

/-- The cache again, with the faults that it has on sectors of the device. -/
def missMedium:Medium where
 toSectorIO:=cached
 cell:=Device.cell
 put:=Cell.write
 merge:=copyPointerSize
 Base _ _:=True
 Ok:=Inv
 Reach size s:=s<size
 E:=MissFault
 cell_disk:=cachedMedium.cell_disk
 reach _ _ h:=h
 read_spec d s h:=by
  rw[holds_blockRead,if_pos h]
  exact ⟨rfl,rfl⟩
 load_spec d s inv h:=
  (cached_load_cases d s inv).mono (fun _ _ post=>post.2) (fun _ miss=>miss.2 h)
 store_spec d s b inv h:=by
  refine (cacheAndWriteBlock_spec inv s b).mono ?_ fun e he=>?_
  · rintro _ d' ⟨inv',d₂,block,writes⟩
    exact ⟨⟨inv',writes.same⟩,writes.cells inv⟩
  · rcases he with ⟨-,hd⟩|⟨he,-⟩
    · omega
    · exact he
 malloc_spec:=cachedMedium.malloc_spec
 write_spec:=cachedMedium.write_spec
 put_shows:=cachedMedium.put_shows
 base _ _ _ _:=trivial

section
variable {data:InodeDisk}

def readable (data:InodeDisk)(size offset:ℕ):ℕ:=min size (data.length-offset).toNat
def dataByte (view:ℕ→Sector)(data:InodeDisk)(pos:ℕ):UInt8:=
 sectorByte (view (byteToSector data pos)) (pos%512)
lemma chunkSize_le (data:InodeDisk)(size offset:ℕ):chunkSize data size offset ≤ size:=
 Nat.min_le_left _ _

lemma readable_chunk (size offset:ℕ):readable data size offset=
 chunkSize data size offset+readable data (size-chunkSize data size offset)
  (offset+chunkSize data size offset):=by
 unfold readable chunkSize
 omega

lemma readable_of_chunk_zero {size offset:ℕ}(h:chunkSize data size offset=0):
 readable data size offset=0:=by
 unfold readable
 unfold chunkSize at h
 omega

lemma lt_length_of_chunk {size offset:ℕ}(h:0<chunkSize data size offset):(offset:ℤ)<data.length:=by
 unfold chunkSize at h
 omega

lemma byteToSector_chunk {size offset k:ℕ}(hk:k<chunkSize data size offset):
 byteToSector data (offset+k)=byteToSector data offset:=by
 unfold chunkSize at hk
 unfold byteToSector
 rw[if_pos (by omega),if_pos (by omega)]
 have:(offset+k)/512=offset/512:=by omega
 rw[this]

lemma dataByte_chunk (view:ℕ→Sector){size offset k:ℕ}
 (hk:k<chunkSize data size offset):dataByte view data (offset+k)=
  sectorByte (view (byteToSector data offset)) (offset%512+k):=by
 have ofs:(offset+k)%512=offset%512+k:=by
  unfold chunkSize at hk
  omega
 rw[dataByte,byteToSector_chunk hk,ofs]

lemma readLoop_spec (M:Medium)(turns size offset:ℕ){d:Device}(ok:M.Ok d)
 (reach:∀pos:ℕ,pos<data.length → M.Reach d.size (byteToSector data pos))
 (enough:size<turns):
 Holds (readLoop M.toSectorIO data turns size offset) d (fun bytes d'=>
  (M.Ok d' ∧ SameDevice d d' ∧ M.cell d'=M.cell d) ∧
   bytes=(List.range (readable data size offset)).map
    (fun k=>dataByte (fun s=>(M.cell d s).logical) data (offset+k))) M.E:=by
 induction turns generalizing size offset d with
 | zero=>omega
 | succ turns ih=>
  unfold readLoop
  have hle:=chunkSize_le data size offset
  dsimp only
  split
  · rename_i hz
    rw[readable_of_chunk_zero hz]
    exact ⟨⟨ok,.refl d,rfl⟩,rfl⟩
  · rename_i hz
    refine (M.load_spec d _ ok (reach _ (lt_length_of_chunk (Nat.pos_of_ne_zero hz)))).seq ?_
    rintro buffer d₁ ⟨⟨ok₁,same₁,cell₁⟩,rfl⟩
    refine (ih (size-chunkSize data size offset) (offset+chunkSize data size offset) ok₁
     (fun pos hp=>by rw[same₁.size];exact reach pos hp) (by omega)).seq ?_
    rintro rest d₂ ⟨⟨ok₂,same₂,cell₂⟩,rfl⟩
    refine ⟨⟨ok₂,same₁.trans same₂,cell₂.trans cell₁⟩,?_⟩
    rw[readable_chunk size offset,range_add,map_append,cell₁,List.map_map]
    congr 1
    · apply map_congr_left
      intro k hk
      exact (dataByte_chunk (fun s=>(M.cell d s).logical) (mem_range.1 hk)).symm
    · apply map_congr_left
      intro k _
      simp only[comp,Nat.add_assoc]

lemma overlay_byte (s:Sector)(ofs n:ℕ)(bytes:ℕ→UInt8)(k:ℕ)(fits:ofs+n≤512):
 sectorByte (overlay s ofs n bytes) k=if ofs≤k ∧ k<ofs+n then bytes (k-ofs) else sectorByte s k:=by
 unfold sectorByte overlay
 by_cases hk:k<512
 · simp only[hk,dif_pos]
 · rw[dif_neg hk,if_neg (by omega),dif_neg hk]

lemma overlay_whole (s:Sector)(bytes:ℕ→UInt8):overlay s 0 512 bytes=fun k=>bytes k.val:=by
 funext k
 simp only[overlay,Nat.zero_le,true_and,k.isLt,if_true,Nat.sub_zero]

/-- Within a sector, what is stored is the disk's sector with the chunk in it: a
bounce buffer of zeros is never used. -/
lemma writeChunk_spec (M:Medium){d:Device}(ok:M.Ok d){sector ofs n:ℕ}
 (reach:M.Reach d.size sector)(fits:ofs+n≤512)(bytes:ℕ→UInt8):
 Holds (writeChunk M.toSectorIO sector ofs n bytes) d (fun _ d'=>
  (M.Ok d' ∧ SameDevice d d') ∧
  M.cell d' sector=M.put (M.cell d sector) (overlay (d.disk sector) ofs n bytes) ∧
  ∀t,t≠sector → (M.cell d t).Settles (M.cell d' t)) M.E:=by
 unfold writeChunk
 split
 · rename_i whole
   rw[whole.1,whole.2,overlay_whole]
   exact M.store_spec d sector _ ok reach
 · rw[if_pos (by omega)]
   refine (M.read_spec d sector reach).seq ?_
   rintro bounce d' ⟨rfl,rfl⟩
   exact M.store_spec d' sector _ ok reach

section
variable {io: SectorIO}{buffer:ℕ→UInt8}{E:Fault→Prop}{J:ℕ→Device→Prop}{size offset:ℕ}

lemma writeLoop_rest (memory:∀w d,J w d → J w {d with mallocs:=d.mallocs+1})
 (chunk:∀w d n,J w d → n=chunkSize data (size-w) (offset+w) → 0<n →
  Holds (writeChunk io (byteToSector data (offset+w)) ((offset+w)%512) n
   (fun k=>buffer (w+k))) d (fun _ d'=>J (w+n) d') E)
 (turns w:ℕ)(bounce:Bool){d:Device}(hd:J w d)(enough:size-w<turns):
 Holds (writeLoop io data buffer turns (size-w) (offset+w) w bounce) d
  (fun n d'=>J n d' ∧ (chunkSize data (size-n) (offset+n)=0 ∨
   ∃d₁,J n d₁ ∧ d₁.mallocOk d₁.mallocs=false)) E:=by
 induction turns generalizing w bounce d with
 | zero=>omega
 | succ turns ih=>
  unfold writeLoop
  have hle:=chunkSize_le data (size-w) (offset+w)
  dsimp only
  split
  · rename_i hz
    exact ⟨hd,.inl hz⟩
  rename_i hz
  have more:∀b d',J w d' → Holds (do
    writeChunk io (byteToSector data (offset+w)) ((offset+w)%512)
     (chunkSize data (size-w) (offset+w)) (fun k=>buffer (w+k))
    writeLoop io data buffer turns (size-w-chunkSize data (size-w) (offset+w))
     (offset+w+chunkSize data (size-w) (offset+w))
     (w+chunkSize data (size-w) (offset+w)) b) d'
    (fun n d'=>J n d' ∧ (chunkSize data (size-n) (offset+n)=0 ∨
     ∃d₁,J n d₁ ∧ d₁.mallocOk d₁.mallocs=false)) E:=by
   intro b d' hd'
   refine (chunk w d' _ hd' rfl (Nat.pos_of_ne_zero hz)).seq ?_
   intro _ d₂ hd₂
   have next:=ih (w+chunkSize data (size-w) (offset+w)) b hd₂ (by omega)
   rwa[←Nat.sub_sub,←Nat.add_assoc] at next
  split
  · exact more _ d hd
  · rw[holds_bind,holds_malloc]
    split
    · exact more _ _ (memory w d hd)
    · rename_i out
      exact ⟨memory w d hd,.inr ⟨d,hd,by simpa using out⟩⟩

/-- To prove something of `inode_write_at`, prove that writing the chunk after
the first `w` bytes keeps it. -/
lemma writeLoop_rule (memory:∀w d,J w d → J w {d with mallocs:=d.mallocs+1})
 (chunk:∀w d n,J w d → n=chunkSize data (size-w) (offset+w) → 0<n →
  Holds (writeChunk io (byteToSector data (offset+w)) ((offset+w)%512) n
   (fun k=>buffer (w+k))) d (fun _ d'=>J (w+n) d') E)
 {d:Device}(hd:J 0 d):
 Holds (writeLoop io data buffer (size+1) size offset 0 false) d (fun n d'=>J n d') E:=
 (writeLoop_rest memory chunk (size+1) 0 false hd (Nat.lt_succ_self size)).imp
  fun _ _ h=>h.1

end

/-- What is stored is on disk, and nothing is cached. -/
structure Medium.Faithful (M:Medium):Prop where
 block:∀d s,(M.cell d s).block=none
 put:∀c b,(M.put c b).disk=b

lemma Medium.Faithful.settled {M:Medium}(h:M.Faithful){d d':Device}{s:ℕ}
 (hs:(M.cell d s).Settles (M.cell d' s)):d'.disk s=d.disk s:=by
 rw[←M.cell_disk,←M.cell_disk]
 rcases hs with hs|hs
 · rw[hs]
 · rw[hs,Cell.evict,h.block]

/-- The first `n` bytes of the buffer are in the data from `offset` on, and nothing else changed. -/
structure Stores (data:InodeDisk)(buffer:ℕ→UInt8)(offset n:ℕ)(d d':Device):Prop where
 inside:∀k<n,((offset+k:ℕ):ℤ)<data.length
 bytes:∀pos:ℕ,pos<data.length → dataByte d'.disk data pos=
  if offset≤pos ∧ pos<offset+n then buffer (pos-offset) else dataByte d.disk data pos
 others:∀s,(∀pos:ℕ,pos<data.length → byteToSector data pos≠s) → d'.disk s=d.disk s

lemma stores_none (data:InodeDisk)(buffer:ℕ→UInt8)(offset:ℕ)(d:Device):
 Stores data buffer offset 0 d d:=
 ⟨fun k hk=>by omega,fun pos _=>by rw[if_neg (by omega)],fun _ _=>rfl⟩

lemma writeLoop_stores {M:Medium}(faithful:M.Faithful){d:Device}(ok:M.Ok d)
 (reach:∀pos:ℕ,pos<data.length → M.Reach d.size (byteToSector data pos))
 (sector:∀pos:ℕ,pos<data.length → byteToSector data pos=data.start+pos/512)
 (buffer:ℕ→UInt8)(size offset:ℕ):
 Holds (writeLoop M.toSectorIO data buffer (size+1) size offset 0 false) d
  (fun n d'=>Stores data buffer offset n d d') M.E:=by
 refine (writeLoop_rule (J:=fun w d'=>(M.Ok d' ∧ d'.size=d.size) ∧ Stores data buffer offset w d d')
  ?_ ?_ ⟨⟨ok,rfl⟩,stores_none data buffer offset d⟩).imp fun n d' h=>h.2
 · exact fun w d' h=>⟨⟨(M.malloc_spec d' _ h.1.1).1,h.1.2⟩,h.2.inside,h.2.bytes,h.2.others⟩
 rintro w d₁ n ⟨⟨ok₁,size₁⟩,before⟩ hn hpos
 have inside:=lt_length_of_chunk (hn▸hpos)
 have fits:(offset+w)%512+n≤512:=by
  unfold chunkSize at hn
  omega
 refine (writeChunk_spec M ok₁ (by rw[size₁];exact reach _ inside) fits _).imp ?_
 rintro _ d₂ ⟨⟨ok₂,same⟩,own,others⟩
 have stored:d₂.disk (byteToSector data (offset+w))=overlay
   (d₁.disk (byteToSector data (offset+w))) ((offset+w)%512) n
   (fun k=>buffer (w+k)):=by
  rw[←M.cell_disk,own,faithful.put]
 refine ⟨⟨ok₂,same.size.trans size₁⟩,fun k hk=>?_,fun pos hp=>?_,fun s hs=>?_⟩
 · by_cases hw:k<w
   · exact before.inside k hw
   · unfold chunkSize at hn
     omega
 · have old:=before.bytes pos hp
   by_cases hs:byteToSector data pos=byteToSector data (offset+w)
   · rw[dataByte,hs] at old ⊢
     rw[sector _ hp,sector _ inside] at hs
     rw[stored,overlay_byte _ _ _ _ _ fits,old]
     by_cases hit:(offset+w)%512≤pos%512 ∧ pos%512<(offset+w)%512+n
     · rw[if_pos hit,if_pos (by omega),show w+(pos%512-(offset+w)%512)=pos-offset by omega]
     · rw[if_neg hit]
       exact if_congr (by omega) rfl rfl
   · rw[dataByte,faithful.settled (others _ hs)]
     refine old.trans (if_congr ⟨fun h=>⟨h.1,by omega⟩,fun h=>⟨h.1,?_⟩⟩ rfl rfl)
     by_contra late
     have small:pos-(offset+w)<chunkSize data (size-w) (offset+w):=by omega
     have sector:=byteToSector_chunk small
     rw[Nat.add_sub_of_le (by omega)] at sector
     exact hs sector
 · exact (faithful.settled (others s fun eq=>hs _ inside eq.symm)).trans (before.others s hs)

end

def Meets (M:Medium)(W:ℕ→Cell→Prop)(d:Device):Prop:=M.Ok d ∧ ∀s,W s (M.cell d s)
variable {M:Medium}{W:ℕ→Cell→Prop}{d:Device}{data:InodeDisk}

lemma Meets.malloc (h:Meets M W d)(n:ℕ):Meets M W {d with mallocs:=n}:=by
 obtain ⟨ok,same⟩:=M.malloc_spec d n h.1
 refine ⟨ok,fun s=>?_⟩
 rw[same]
 exact h.2 s

lemma writeLoop_meets (evict:∀s c,W s c → W s c.evict)(h:Meets M W d)
 (reach:∀pos:ℕ,pos<data.length → M.Reach d.size (byteToSector data pos))
 (put:∀pos:ℕ,pos<data.length → ∀c b,W (byteToSector data pos) c →
  W (byteToSector data pos) (M.put c b))
 (buffer:ℕ→UInt8)(size offset:ℕ):
 Holds (writeLoop M.toSectorIO data buffer (size+1) size offset 0 false) d
  (fun _ d'=>Meets M W d' ∧ SameDevice d d') M.E:=by
 refine writeLoop_rule (J:=fun _ d'=>Meets M W d' ∧ SameDevice d d') ?_ ?_ ⟨h,.refl d⟩
 · exact fun w d' hj=>⟨hj.1.malloc _,hj.2.size,hj.2.clock,hj.2.mallocOk⟩
 rintro w d₁ n ⟨⟨ok,cells⟩,same⟩ hn hpos
 have inside:=lt_length_of_chunk (hn▸hpos)
 have fits:(offset+w)%512+n≤512:=by
  unfold chunkSize at hn
  omega
 refine (writeChunk_spec M ok (by rw[same.size];exact reach _ inside) fits _).imp ?_
 rintro _ d₂ ⟨⟨ok₂,same₂⟩,own,others⟩
 refine ⟨⟨ok₂,fun s=>?_⟩,same.trans same₂⟩
 by_cases hs:s=byteToSector data (offset+w)
 · subst hs
   rw[own]
   exact put _ inside _ _ (cells _)
 · exact settles_keeps (evict s) (others s hs) (cells s)

end Pintos.InodeData
