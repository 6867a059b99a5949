import Pintos.FilesysCore

namespace Pintos.Filesys
open ExecHoare Bitmap Cache Directory InodeTable InodeData Function List Option KeyedList

section
variable {α:Type}{fs:Fs}{E:Fault→Prop}

@[simp] lemma holds_onDevice {m:Cmd α}{Q:α→Fs→Prop}:
 Holds (onDevice m) fs Q E ↔ Holds m fs.dev (fun a d=>Q a {fs with dev:=d}) E:=by
 unfold Holds onDevice StateT.run
 cases h:m fs.dev<;>simp only[h]
lemma holds_orFault {fault:Fault}{o:Option α}{a:α}(h:o=some a)
 {Q:α→Fs→Prop}:Holds (orFault fault o) fs Q E ↔ Q a fs:=by
 rw[h]
 rfl
lemma holds_theInode {p:ℕ}{i:Inode}(h:fs.inodes.find p=some i)
 {Q:Inode→Fs→Prop}:Holds (theInode p) fs Q E ↔ Q i fs:=by
 unfold theInode
 rw[holds_bind,holds_get,holds_orFault h]
lemma holds_theFile {f:ℕ}{file:File}(h:KeyedList.find File.id f fs.files=some file)
 {Q:File→Fs→Prop}:Holds (theFile f) fs Q E ↔ Q file fs:=by
 unfold theFile
 rw[holds_bind,holds_get,holds_orFault h]

end

def MapFile (F:Fixed)(refs:List (ℕ×ℕ)):Prop:=
 ∃f file,F.freeMapFile=some f ∧ KeyedList.find File.id f F.files=some file ∧ (0,file.inode)∈refs

/-- Eviction keeps `Y`, and so do stores to the data of the inode `m`. -/
structure Calm (M:Medium)(Y:ℕ→Cell→Prop)(m:InodeDisk):Prop where
 evict:∀s c,Y s c → Y s c.evict
 put:∀s∈dataSectors m,∀c b,Y s c → Y s (M.put c b)

/-- The free map file is open, on an inode that stays, and stores to it keep `Y`. -/
def Keeper (M:Medium)(Y:ℕ→Cell→Prop)(stay:List Entry)(refs:List (ℕ×ℕ))(F:Fixed):Prop:=
 ∃m,(0,m)∈stay ∧ Calm M Y m ∧ MapFile F refs

/-- Writes to the root directory are not denied. -/
def Undenied (t:Table):Prop:=∀i∈t.openInodes,i.sector=1 → i.denyWriteCnt=0

/-- The bits are in the data of the inode `m` on disk. -/
def Saved (m:InodeDisk)(fs:Fs):Prop:=
 ∀k<bitmapFileSize fs.freeMap,(k:ℤ) < m.length ∧ dataByte fs.dev.disk m k=image fs.freeMap k
variable {M:Medium}{Y:ℕ→Cell→Prop}{stay:List Entry}{spare:List ℕ}
 {refs:List (ℕ×ℕ)}{F:Fixed}{fs:Fs}{r:ℕ×ℕ}{e:Entry}

section
variable (h:Core M Y stay spare refs F fs)
include h

lemma Core.find (hr:r∈refs)(he:e∈live stay fs.inodes)(hs:e.1=r.1):
 ∃i,fs.inodes.find r.2=some i ∧ i.data=e.2:=by
 obtain ⟨i,hi,-,hsector,hf⟩:=h.counted.find hr
 have same:=h.entry_inj he (h.opened i hi) mem_cons_self (by rw[hs,←hsector];exact mem_cons_self)
 exact ⟨i,hf,by rw[same]⟩

lemma Core.data_lt (he:e∈live stay fs.inodes){s:ℕ}(hs:s∈dataSectors e.2):s<F.size:=
 h.extent_lt he (mem_cons_of_mem _ hs)
lemma Core.sector (he:e∈live stay fs.inodes){pos:ℕ}(hpos:pos<e.2.length):
 byteToSector e.2 pos=e.2.start+pos/512 ∧ byteToSector e.2 pos∈dataSectors e.2:=
 byteToSector_mem (h.proper e he) (fun _ hs=>(h.data_lt he hs).trans h.small) hpos

lemma Core.reach (he:e∈live stay fs.inodes){pos:ℕ}
 (hpos:pos<e.2.length):M.Reach fs.dev.size (byteToSector e.2 pos):=by
 apply M.reach
 rw[h.size]
 exact h.data_lt he (h.sector he hpos).2

lemma inodeReadAt_core (hr:r∈refs)(he:e∈live stay fs.inodes)(hs:e.1=r.1)(size:ℤ)(offset:ℕ):
 Holds (inodeReadAt M.toSectorIO r.2 size offset) fs (fun bytes fs'=>
  (Core M Y stay spare refs F fs' ∧ fs'.inodes=fs.inodes) ∧
  bytes=(List.range (readable e.2 size.toNat offset)).map
   (fun k=>dataByte (fun s=>(M.cell fs.dev s).logical) e.2 (offset+k))) M.E:=by
 obtain ⟨i,hf,hdata⟩:=h.find hr he hs
 unfold inodeReadAt
 rw[holds_bind,holds_theInode hf,holds_onDevice,hdata]
 refine (readLoop_spec M _ size.toNat offset h.meets.1 (fun pos hp=>h.reach he hp)
  (Nat.lt_succ_self _)).imp ?_
 rintro bytes d ⟨⟨ok,same,cells⟩,hbytes⟩
 refine ⟨⟨h.device same ⟨ok,fun s=>?_⟩,rfl⟩,hbytes⟩
 rw[cells]
 exact h.meets.2 s

end

lemma wants_evict {entries:List Entry}(evict:∀s c,Y s c → Y s c.evict)(s:ℕ)(c:Cell)
 (h:Wants Y entries s c):Wants Y entries s c.evict:=
 ⟨evict s c h.1,fun e he hs=>(h.2 e he hs).evict⟩

lemma inodeWriteAt_core (h:Core M Y stay spare refs F fs)(hr:r∈refs)
 (he:e∈live stay fs.inodes)(hs:e.1=r.1)(calm:Calm M Y e.2)(buffer:ℕ→UInt8)
 (size:ℤ)(offset:ℕ):
 Holds (inodeWriteAt M.toSectorIO r.2 buffer size offset) fs (fun n fs'=>
  (Core M Y stay spare refs F fs' ∧ fs'.freeMap=fs.freeMap) ∧
  (M.Faithful → Stores e.2 buffer offset n fs.dev fs'.dev)) M.E:=by
 obtain ⟨i,hf,hdata⟩:=h.find hr he hs
 unfold inodeWriteAt
 rw[holds_bind,holds_theInode hf]
 split
 · exact ⟨⟨h,rfl⟩,fun _=>stores_none _ _ _ _⟩
 rw[holds_onDevice,hdata]
 have reach:∀pos:ℕ,pos<e.2.length → M.Reach fs.dev.size (byteToSector e.2 pos):=
  fun pos hp=>h.reach he hp
 have meets:=writeLoop_meets (wants_evict calm.evict) h.meets reach ?_ buffer size.toNat offset
 swap
 · intro pos hp c b hc
   have hmem:=(h.sector he hp).2
   exact ⟨calm.put _ hmem c b hc.1,fun x hx hs=>absurd hs (h.data_ne_header he hx hmem)⟩
 by_cases faithful:M.Faithful
 · have stores:=writeLoop_stores faithful h.meets.1 reach (fun pos hp=>(h.sector he hp).1)
    buffer size.toNat offset
   refine (meets.and (stores.mono (fun _ _ hq=>hq) (fun _ _=>trivial))).imp ?_
   rintro n d ⟨⟨meets,same⟩,stored⟩
   exact ⟨⟨h.device same meets,rfl⟩,fun _=>stored⟩
 · refine meets.imp ?_
   rintro n d ⟨meets,same⟩
   exact ⟨⟨h.device same meets,rfl⟩,fun hf=>absurd hf faithful⟩

variable {m:InodeDisk}

lemma bitmapWrite_core (h:Core M Y stay spare refs F fs)(calm:Calm M Y m)
 (hm:(0,m)∈stay){f:ℕ}{file:File}
 (hfile:KeyedList.find File.id f F.files=some file)(hr:(0,file.inode)∈refs):
 Holds (bitmapWrite M.toSectorIO f) fs (fun ok fs'=>
  (Core M Y stay spare refs F fs' ∧ fs'.freeMap=fs.freeMap) ∧
  (M.Faithful → ok=true → Saved m fs')) M.E:=by
 have files:fs.files=F.files:=congrArg Fixed.files h.fixed
 unfold bitmapWrite fileWriteAt
 rw[holds_bind,holds_get,holds_bind,holds_bind,holds_theFile (by rw[files];exact hfile)]
 refine (inodeWriteAt_core h hr (mem_append_left _ hm) rfl calm _ _ _).imp ?_
 rintro n fs' ⟨⟨core,same⟩,stored⟩
 refine ⟨⟨core,same⟩,fun faithful ok k hk=>?_⟩
 rw[same] at hk ⊢
 rw[←of_decide_eq_true ok] at hk
 have inside:=(stored faithful).inside k hk
 rw[Nat.zero_add] at inside
 rw[(stored faithful).bytes k inside,if_pos (by omega)]
 exact ⟨inside,rfl⟩

lemma holds_setBits {start cnt:ℕ}{value:Bool}{b:Bits}
 (hb:bitmapSetMultiple fs.freeMap start cnt value=some b){Q:Unit→Fs→Prop}
 {E:Fault→Prop}:
 Holds (setBits start cnt value) fs Q E ↔ Q () {fs with freeMap:=b}:=by
 unfold setBits
 rw[holds_bind,holds_get,holds_bind,holds_orFault hb,holds_set]

lemma Core.release {start cnt:ℕ}
 (h:Core M Y stay (range' start cnt++spare) refs F fs)(hstart:start≤F.size):
 bitmapAll fs.freeMap start cnt=some true ∧ ∃b,bitmapSetMultiple fs.freeMap start cnt false=some b ∧
   Core M Y stay spare refs F {fs with freeMap:=b}:=by
 have claimed:Claimed fs.freeMap (range' start cnt ++
   ((live stay fs.inodes).flatMap extent++spare)):=by
  apply h.claimed.perm
  rw[←append_assoc,←append_assoc]
  exact perm_append_comm.append_right _
 have small:=h.small
 rw[←h.mapSize] at hstart small
 obtain ⟨all,b,hb,rest⟩:=claimed.release small hstart
 exact ⟨all,b,hb,h.bits ((bitmapSetMultiple_length hb).trans h.mapSize) rest⟩

def Stored (M:Medium)(stay:List Entry)(fs:Fs):Prop:=
 M.Faithful → fs.freeMapFile≠none → ∀m,(0,m)∈stay → Saved m fs
lemma Core.map_unique (h:Core M Y stay spare refs F fs)(hm:(0,m)∈stay){m':InodeDisk}
 (hm':(0,m')∈stay):m=m':=by
 have same:=h.entry_inj (mem_append_left _ hm) (mem_append_left _ hm') mem_cons_self mem_cons_self
 exact (Prod.mk.inj same).2

lemma freeMapAllocate_core (h:Core M Y stay spare refs F fs)
 (keeper:F.freeMapFile=none ∨ Keeper M Y stay refs F)(cnt:ℕ):
 Holds (freeMapAllocate M.toSectorIO cnt) fs (fun r fs'=>match r with
  | none=>Core M Y stay spare refs F fs' ∧ fs'.freeMap=fs.freeMap
  | some start=>bitmapScan fs.freeMap cnt=some start ∧
    bitmapSetMultiple fs.freeMap start cnt true=some fs'.freeMap ∧
    Core M Y stay (range' start cnt++spare) refs F fs' ∧ Stored M stay fs') M.E:=by
 have mapFile:fs.freeMapFile=F.freeMapFile:=congrArg Fixed.freeMapFile h.fixed
 unfold freeMapAllocate
 rw[holds_bind,holds_get]
 cases hscan:bitmapScan fs.freeMap cnt with
 | none=>exact ⟨h,rfl⟩
 | some start=>
  obtain ⟨range,-⟩:=bitmapScan_spec hscan
  obtain ⟨b,hb⟩:∃b,bitmapSetMultiple fs.freeMap start cnt true=some b:=⟨_,if_pos range⟩
  have hlen:=bitmapSetMultiple_length hb
  have claimed:=h.claimed.alloc hscan hb
  have marked:Core M Y stay (range' start cnt++spare) refs F {fs with freeMap:=b}:=by
   refine h.bits (hlen.trans h.mapSize) (claimed.perm ?_)
   rw[←append_assoc,←append_assoc]
   exact perm_append_comm.append_right _
  rcases keeper with noFile|⟨m,hm,calm,f,file,hf,hfile,hr⟩
  · have freeMapFile:=mapFile.trans noFile
    simp only[freeMapFile]
    rw[holds_bind,holds_setBits hb]
    exact ⟨rfl,hb,marked,fun _ hn=>absurd freeMapFile hn⟩
  have freeMapFile:=mapFile.trans hf
  simp only[freeMapFile]
  rw[holds_bind,holds_setBits hb]
  refine (bitmapWrite_core marked calm hm hfile hr).seq ?_
  rintro ok fs' ⟨⟨core,same⟩,saved⟩
  cases ok with
  | true=>
   refine ⟨rfl,by rw[same];exact hb,core,fun faithful _ m' hm'=>?_⟩
   rw[core.map_unique hm' hm]
   exact saved faithful rfl
  | false=>
   have undo:=bitmapSetMultiple_undo hscan hb
   have hstart:start≤F.size:=by
    rw[←h.mapSize]
    omega
   obtain ⟨-,b',hb',back⟩:=core.release hstart
   rw[same,undo] at hb'
   obtain rfl:=Option.some.inj hb'
   rw[if_neg Bool.false_ne_true,holds_bind,holds_setBits (by rw[same];exact undo)]
   exact ⟨back,rfl⟩

lemma freeMapRelease_core {start cnt:ℕ}
 (h:Core M Y stay (range' start cnt++spare) refs F fs)(hstart:start≤F.size)
 (keeper:Keeper M Y stay refs F):
 Holds (freeMapRelease M.toSectorIO start cnt) fs (fun _ fs'=>
  bitmapSetMultiple fs.freeMap start cnt false=some fs'.freeMap ∧
   Core M Y stay spare refs F fs') M.E:=by
 obtain ⟨m,hm,calm,f,file,hf,hfile,hr⟩:=keeper
 have freeMapFile:fs.freeMapFile=some f:=(congrArg Fixed.freeMapFile h.fixed).trans hf
 obtain ⟨all,b,hb,core⟩:=h.release hstart
 unfold freeMapRelease
 rw[holds_bind,holds_get,holds_bind,holds_orFault all,if_pos rfl,holds_bind,
  holds_setBits hb,holds_bind,holds_orFault freeMapFile]
 refine (bitmapWrite_core core calm hm hfile hr).seq ?_
 rintro _ fs' ⟨⟨core',same⟩,-⟩
 exact ⟨by rw[same];exact hb,core'⟩

lemma Stored.device {d:Device}(h:Stored M stay fs)
 (core:Core M Y stay spare refs F {fs with dev:=d})
 (kept:∀e∈stay,∀s∈dataSectors e.2,d.disk s=fs.dev.disk s):
 Stored M stay {fs with dev:=d}:=by
 intro faithful file m hm k hk
 obtain ⟨inside,hbyte⟩:=h faithful file m hm k hk
 have hmem:=(core.sector (mem_append_left _ hm) inside).2
 refine ⟨inside,?_⟩
 rw[←hbyte,dataByte,dataByte,kept (0,m) hm _ hmem]

lemma Core.malloc (h:Core M Y stay spare refs F fs)(n:ℕ):
 Core M Y stay spare refs F {fs with dev:={fs.dev with mallocs:=n}}:=
 h.device ⟨rfl,rfl,rfl⟩ (h.meets.malloc n)

lemma zeroSectors_spec {d:Device}{E:Fault→Prop}(ok:M.Ok d)(start n:ℕ)(range:start+n≤d.size):
 Holds (zeroSectors start n) d (fun _ d'=>(M.Ok d' ∧ SameDevice d d') ∧
  ∀s,M.cell d' s=if start ≤ s ∧ s<start+n then {M.cell d s with disk:=fun _=>0}
   else M.cell d s) E:=by
 induction n generalizing start d with
 | zero=>
  refine ⟨⟨ok,.refl d⟩,fun s=>?_⟩
  rw[if_neg (by omega)]
 | succ n ih=>
  unfold zeroSectors
  rw[holds_bind,holds_blockWrite,if_pos (by omega)]
  obtain ⟨ok₁,cell₁⟩:=M.write_spec d start (fun _=>0) ok
  refine (ih ok₁ (start+1) (by dsimp only;omega)).imp ?_
  rintro _ d₂ ⟨⟨ok₂,same⟩,cells⟩
  refine ⟨⟨ok₂,same.size,same.clock,same.mallocOk⟩,fun s=>?_⟩
  rw[cells s,cell₁]
  by_cases hs:s=start
  · subst hs
    rw[if_neg (by omega),if_pos (by omega),update_self]
  · rw[update_of_ne hs]
    by_cases hr:start+1 ≤ s ∧ s<start+1+n
    · rw[if_pos hr,if_pos (by omega)]
    · rw[if_neg hr,if_neg (by omega)]

lemma Core.overwrite {d:Device}(h:Core M Y stay spare refs F fs)
 (loose:∀s,s∉stay.flatMap extent → ∀c b,Y s c → Y s {c with disk:=b})
 (ok:M.Ok d)(same:SameDevice fs.dev d)
 (inside:∀s∈spare,∃b,M.cell d s={M.cell fs.dev s with disk:=b})
 (others:∀s,s∉spare → M.cell d s=M.cell fs.dev s):
 Core M Y stay spare refs F {fs with dev:=d}:=by
 have disj:=(nodup_append'.1 h.claimed.distinct).2.2
 refine h.device same ⟨ok,fun s=>?_⟩
 obtain ⟨hY,headers⟩:=h.meets.2 s
 by_cases hs:s∈spare
 · obtain ⟨b,hb⟩:=inside s hs
   rw[hb]
   refine ⟨loose s (fun hm=>disj ?_ hs) _ _ hY,fun x hx hxs=>?_⟩
   · rw[live,flatMap_append]
     exact mem_append_left _ hm
   · exact absurd hs (disj (mem_flatMap.2 ⟨x,hx,hxs▸mem_cons_self⟩))
 · rw[others s hs]
   exact ⟨hY,headers⟩

lemma Core.promote {e:Entry}(h:Core M Y stay (extent e++spare) refs F fs)
 (proper:Proper F.size e.2)(header:IsHeader (M.cell fs.dev e.1) e.2):
 Core M Y (e::stay) spare refs F fs:=by
 have lives:live (e::stay) fs.inodes=e::live stay fs.inodes:=rfl
 refine ⟨⟨h.meets.1,fun s=>⟨(h.meets.2 s).1,?_⟩⟩,?_,h.mapSize,h.small,?_,?_,h.counted,h.fixed⟩
 · intro x hx hxs
   rcases mem_cons.1 hx with rfl|hx
   · exact hxs▸header
   · exact (h.meets.2 s).2 x hx hxs
 · intro x hx
   rcases mem_cons.1 hx with rfl|hx
   · exact proper
   · exact h.proper x hx
 · apply h.claimed.perm
   rw[lives,flatMap_cons,←append_assoc]
   exact perm_append_comm.append_right _
 · exact fun i hi=>mem_cons_of_mem _ (h.opened i hi)

lemma inodeCreate_core {sector:ℕ}{length:ℤ}(h:Core M Y stay (sector::spare) refs F fs)
 (keeper:F.freeMapFile=none ∨ Keeper M Y stay refs F)(hl:0≤length)
 (hl':length<2^31)
 (loose:∀s,s∉stay.flatMap extent → ∀c b,Y s c → Y s {c with disk:=b})
 (clean:∀start,bitmapScan fs.freeMap (bytesToSectors length)=some start →
  ∀c,Y sector c → NotDirty c):
 Holds (inodeCreate M.toSectorIO sector length) fs (fun ok fs'=>
  (ok=false ∧ fs'.freeMap=fs.freeMap ∧ Core M Y stay (sector::spare) refs F fs') ∨
  (ok=true ∧ ∃e,e.1=sector ∧ Proper F.size e.2 ∧
   bitmapScan fs.freeMap (bytesToSectors length)=some e.2.start ∧
   e.2=⟨e.2.start,length,inodeMagic⟩ ∧
   Core M Y stay (extent e++spare) refs F fs' ∧ IsHeader (M.cell fs'.dev sector) e.2 ∧
   (∀s∈dataSectors e.2,(M.cell fs'.dev s).disk=fun _=>0) ∧
   Stored M stay fs' ∧
   bitmapSetMultiple fs.freeMap e.2.start (bytesToSectors length) true=some fs'.freeMap))
  M.E:=by
 unfold inodeCreate
 rw[if_neg (by omega),holds_bind,holds_onDevice,holds_malloc]
 have core:=h.malloc (fs.dev.mallocs+1)
 split
 swap
 · exact .inl ⟨rfl,rfl,core⟩
 refine (freeMapAllocate_core core keeper (bytesToSectors length)).seq ?_
 intro r fs₁ hr
 cases r with
 | none=>exact .inl ⟨rfl,hr.2,hr.1⟩
 | some start=>
  obtain ⟨hscan,mark,core₁,stored⟩:=hr
  have range:start+bytesToSectors length≤F.size:=by
   rw[←h.mapSize]
   exact (bitmapScan_spec hscan).1
  have hstart:start≤F.size:=by omega
  have hsector:sector<fs₁.dev.size:=by
   rw[core₁.size]
   exact core₁.spare_lt (by simp)
  have header:=decode_encode (h:=⟨start,length,inodeMagic⟩)
   (Nat.lt_of_le_of_lt hstart h.small) hl hl' (show inodeMagic<2^32 by decide)
  obtain ⟨ok₁,cell₁⟩:=M.write_spec fs₁.dev sector
   (encodeInode ⟨start,length,inodeMagic⟩) core₁.meets.1
  rw[holds_bind,holds_onDevice,holds_blockWrite,if_pos hsector,holds_bind,holds_onDevice]
  refine (zeroSectors_spec ok₁ start (bytesToSectors length)
   (by rw[core₁.size];exact range)).imp ?_
  rintro _ d ⟨⟨ok₂,same⟩,cells⟩
  have apart:¬(start ≤ sector ∧ sector<start+bytesToSectors length):=by
   intro hs
   have distinct:=(nodup_append'.1 core₁.claimed.distinct).2.1
   exact (nodup_append'.1 distinct).2.2 (mem_range'_1.2 hs) mem_cons_self
  have own:M.cell d sector=
    {M.cell fs₁.dev sector with disk:=encodeInode ⟨start,length,inodeMagic⟩}:=by
   rw[cells sector,if_neg apart,cell₁,update_self]
  have data:∀s∈range' start (bytesToSectors length),
    M.cell d s={M.cell fs₁.dev s with disk:=fun _=>0}:=by
   intro s hs
   have hrange:=mem_range'_1.1 hs
   have hne:s≠sector:=by
    rintro rfl
    exact apart hrange
   rw[cells s,if_pos hrange,cell₁,update_of_ne hne]
  have others:∀s,s≠sector → s∉range' start (bytesToSectors length) → M.cell d s=M.cell fs₁.dev s:=by
   intro s hne hs
   rw[cells s,if_neg (fun hr=>hs (mem_range'_1.2 hr)),cell₁,update_of_ne hne]
  have notDirty:=clean start hscan _ (core₁.meets.2 sector).1
  have written:Core M Y stay (extent (sector,⟨start,length,inodeMagic⟩)++spare) refs F
    {fs₁ with dev:=d}:=by
   refine (core₁.drop (Perm.subperm perm_middle.symm)).overwrite loose ok₂
    ⟨same.size,same.clock,same.mallocOk⟩ ?_ ?_
   · intro s hs
     by_cases hne:s=sector
     · exact ⟨_,hne▸own⟩
     by_cases hr:s∈range' start (bytesToSectors length)
     · exact ⟨_,data s hr⟩
     · exact ⟨(M.cell fs₁.dev s).disk,others s hne hr⟩
   · intro s hs
     refine others s ?_ ?_
     · rintro rfl
       exact hs mem_cons_self
     · exact fun hr=>hs (mem_cons_of_mem _ (mem_append_left _ hr))
  refine .inr ⟨rfl,(sector,⟨start,length,inodeMagic⟩),rfl,⟨hl,hl',hstart⟩,hscan,rfl,
   written,⟨fun buffer hb=>?_,?_⟩,fun s hs=>by rw[data s hs],?_,mark⟩
  · rw[own] at hb
    exact notDirty buffer hb
  · rw[own]
    exact header
  · refine stored.device written ?_
    intro e he s hs
    have disj:=(nodup_append'.1 written.claimed.distinct).2.2
    have hfile:s∈(live stay fs₁.inodes).flatMap extent:=
     mem_flatMap.2 ⟨e,mem_append_left _ he,mem_cons_of_mem _ hs⟩
    have hspare:=disj hfile
    rw[←M.cell_disk,←M.cell_disk,others s]
    · rintro rfl
      exact hspare (by simp[extent])
    · exact fun hr=>hspare (mem_append_left _ (mem_cons_of_mem _ hr))

section
variable (h:Core M Y stay spare refs F fs)
include h

lemma inodeOpen_core (he:e∈live stay fs.inodes):
 Holds (inodeOpen e.1) fs (fun p fs'=>
  (fs'.freeMap=fs.freeMap ∧ condemned fs'.inodes=condemned fs.inodes ∧
   (Undenied fs.inodes → Undenied fs'.inodes)) ∧ match p with
  | none=>Core M Y stay spare refs F fs'
  | some p=>Core M Y stay spare ((e.1,p)::refs) F fs') M.E:=by
 unfold inodeOpen
 rw[holds_bind,holds_get]
 cases ho:openedAt fs.inodes e.1 with
 | some i=>
  obtain ⟨hi,hs⟩:=find_mem ho
  simp only[InodeTable.inodeOpen,ho]
  rw[holds_bind,holds_set,holds_pure,←hs]
  refine ⟨⟨rfl,condemned_set fun _=>⟨rfl,rfl,rfl⟩,fun undenied j hj=>?_⟩,h.addRef hi⟩
  obtain ⟨k,hk,⟨-,rfl⟩|⟨-,rfl⟩⟩:=mem_set.1 hj
  · exact undenied k hk
  · exact undenied j hk
 | none=>
  rw[holds_bind,holds_onDevice,holds_malloc]
  have core:=h.malloc (fs.dev.mallocs+1)
  split
  swap
  · exact ⟨⟨rfl,rfl,id⟩,core⟩
  rw[holds_bind,holds_onDevice]
  have reach:M.Reach fs.dev.size e.1:=by
   apply M.reach
   rw[h.size]
   exact h.extent_lt he mem_cons_self
  refine (M.read_spec {fs.dev with mallocs:=fs.dev.mallocs+1} e.1 reach).imp ?_
  rintro header d ⟨rfl,rfl⟩
  have hheader:decodeInode (fs.dev.disk e.1)=e.2:=by
   rw[←M.cell_disk fs.dev e.1]
   exact ((h.meets.2 e.1).2 e he rfl).2
  rw[holds_bind,holds_get]
  simp only[InodeTable.inodeOpen,ho,hheader]
  refine ⟨⟨rfl,condemned_push _ _,fun undenied j hj=>?_⟩,core.push he ho⟩
  rcases mem_cons.1 hj with rfl|hj
  · exact fun _=>rfl
  · exact undenied j hj

lemma inodeReopen_core (hr:r∈refs):
 Holds (inodeReopen (some r.2)) fs (fun p fs'=>
  p=some r.2 ∧ Core M Y stay spare (r::refs) F fs') M.E:=by
 obtain ⟨i,hi,hid,hs,hf⟩:=h.counted.find hr
 unfold inodeReopen
 rw[holds_bind,holds_get,holds_bind]
 simp only[InodeTable.inodeReopen,hf]
 have core:=h.addRef hi
 rw[hid,hs] at core
 exact ⟨rfl,core⟩

lemma inodeRemove_core (hr:r∈refs):
 Holds (inodeRemove r.2) fs (fun _ fs'=>
  Core M Y (stay.filter (fun e=>e.1≠r.1)) spare refs F fs') M.E:=by
 obtain ⟨i,-,-,-,hf⟩:=h.counted.find hr
 unfold inodeRemove
 rw[holds_bind,holds_get,holds_bind]
 simp only[InodeTable.inodeRemove,hf]
 exact h.remove hr

end

lemma inodeClose_stay (h:Core M Y stay spare (r::refs) F fs)(he:e∈stay)(hes:e.1=r.1):
 Holds (inodeClose M.toSectorIO (some r.2)) fs (fun _ fs'=>
  fs'.freeMap=fs.freeMap ∧ Core M Y stay spare refs F fs') M.E:=by
 obtain ⟨i,hi,hid,hs,hf⟩:=h.counted.find mem_cons_self
 unfold inodeClose
 rw[holds_bind,holds_get,holds_bind]
 simp only[InodeTable.inodeClose,hf,map_some]
 by_cases last:i.openCnt-1=0
 swap
 · simp only[last]
   exact ⟨rfl,h.closeShared hi hid last⟩
 simp only[last]
 have core:=h.closeLast hi hid last
 have kept:i.removed=false:=by
  cases removed:i.removed with
  | false=>rfl
  | true=>
   have:=h.stay_sector he (mem_condemned.2 ⟨i,hi,removed,rfl⟩)
   exact absurd (hes.trans hs.symm) this
 rw[kept] at core ⊢
 exact ⟨rfl,core⟩

lemma inodeClose_core (h:Core M Y stay spare (r::refs) F fs)
 (usable:Keeper M Y stay refs F ∨ ∃e∈stay,e.1=r.1):
 Holds (inodeClose M.toSectorIO (some r.2)) fs (fun _ fs'=>
  Core M Y stay spare refs F fs') M.E:=by
 rcases usable with keeper|⟨e,he,hes⟩
 swap
 · exact (inodeClose_stay h he hes).imp fun _ _ h'=>h'.2
 obtain ⟨i,hi,hid,hs,hf⟩:=h.counted.find mem_cons_self
 unfold inodeClose
 rw[holds_bind,holds_get,holds_bind]
 simp only[InodeTable.inodeClose,hf,map_some]
 by_cases last:i.openCnt-1=0
 swap
 · simp only[last]
   exact h.closeShared hi hid last
 simp only[last]
 have core:=h.closeLast hi hid last
 cases hrem:i.removed with
 | false=>
  rw[hrem] at core
  exact core
 | true=>
  have proper:=h.proper _ (h.opened i hi)
  have hsector:i.sector≤F.size:=Nat.le_of_lt (h.extent_lt (h.opened i hi) mem_cons_self)
  rw[hrem] at core
  change Holds (freeMapRelease M.toSectorIO i.sector 1 >>= fun _=>
   freeMapRelease M.toSectorIO i.data.start (bytesToSectors i.data.length) >>= fun _=>
   pure ()) _ _ _
  refine (freeMapRelease_core core hsector keeper).seq fun _ fs₁ h₁=>?_
  exact (freeMapRelease_core h₁.2 proper.start keeper).seq fun _ fs₂ h₂=>h₂.2

end Pintos.Filesys
