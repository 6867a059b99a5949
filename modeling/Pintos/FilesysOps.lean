import Mathlib.Data.UInt
import Pintos.FilesysKeeps
import Pintos.FilesysRoot

namespace Pintos.Filesys
open ExecHoare Bitmap Cache Directory InodeTable InodeData List

/-- `X` is kept by eviction and by stores to the free map and the root directory. -/
structure Quiet (M:Medium)(L:Layout)(X:ℕ→Cell→Prop):Prop where
 evict:∀s c,X s c → X s c.evict
 put:∀s,s∈dataSectors L.map ∨ s∈dataSectors L.root → ∀c b,X s c → X s (M.put c b)

lemma Quiet.root {M:Medium}{L:Layout}{X:ℕ→Cell→Prop}(q:Quiet M L X):Calm M X L.root:=
 ⟨q.evict,fun s hs=>q.put s (.inr hs)⟩

structure Ready (L:Layout)(stay:List Entry)(refs:List (ℕ×ℕ))(F:Fixed):Prop where
 map:(0,L.map)∈stay
 root:(1,L.root)∈stay
 file:MapFile F refs

section
variable {M:Medium}{L:Layout}{content:Sector}{X:ℕ→Cell→Prop}{stay:List Entry}
 {spare:List ℕ}{refs refs':List (ℕ×ℕ)}{F:Fixed}{fs:Fs}{p:ℕ}{r:ℕ×ℕ}
 {name:CString}{stack:DirEntry}

lemma Ready.cons (h:Ready L stay refs F)(r:ℕ×ℕ):Ready L stay (r::refs) F:=by
 obtain ⟨f,file,hf,hfile,hr⟩:=h.file
 exact ⟨h.map,h.root,f,file,hf,hfile,mem_cons_of_mem _ hr⟩
lemma Ready.remove (h:Ready L stay refs F){sector:ℕ}(apart:sector≠0 ∧ sector≠1):
 Ready L (stay.filter (fun e=>e.1≠sector)) refs F:=
 ⟨mem_filter.2 ⟨h.map,by simpa using Ne.symm apart.1⟩,
  mem_filter.2 ⟨h.root,by simpa using Ne.symm apart.2⟩,h.file⟩
lemma rootStart_mem (L:Layout):L.root.start∈dataSectors L.root:=by
 rw[dataSectors,mem_range'_1,L.rootLength,bytesToSectors_eq (by decide) (by decide)]
 simp

section
variable (h:Core M (Framed L content X) stay spare refs' F fs)(ready:Ready L stay refs F)
 (q:Quiet M L X)
include h ready q

lemma Core.calm:Calm M (Framed L content X) L.map:=by
 refine ⟨fun s c hc=>⟨q.evict s c hc.1,fun hs=>(hc.2 hs).evict⟩,fun s hs c b hc=>?_⟩
 refine ⟨q.put s (.inl hs) c b hc.1,?_⟩
 rintro rfl
 have map:(0,L.map)∈live stay fs.inodes:=mem_append_left _ ready.map
 have root:(1,L.root)∈live stay fs.inodes:=mem_append_left _ ready.root
 have same:=h.entry_inj map root (mem_cons_of_mem _ hs) (mem_cons_of_mem _ (rootStart_mem L))
 exact absurd (Prod.mk.inj same).1 (by decide)

lemma Core.keeper:Keeper M (Framed L content X) stay refs F:=
 ⟨L.map,ready.map,h.calm ready q,ready.file⟩

end

lemma dirClose_core (h:Core M (Framed L content X) stay spare ((1,p)::refs) F fs)
 (ready:Ready L stay refs F):
 Holds (dirClose M.toSectorIO (some p)) fs (fun _ fs'=>
  fs'.freeMap=fs.freeMap ∧ Core M (Framed L content X) stay spare refs F fs') M.E:=
 inodeClose_stay h ready.root rfl

section
variable (h:Core M (Framed L content X) stay spare refs F fs)(ready:Ready L stay refs F)
include h ready

lemma dirOpenRoot_core:
 Holds (dirOpenRoot M.toSectorIO) fs (fun dir fs'=>fs'.freeMap=fs.freeMap ∧ match dir with
  | none=>Core M (Framed L content X) stay spare refs F fs'
  | some p=>(condemned fs'.inodes=condemned fs.inodes ∧
     (Undenied fs.inodes → Undenied fs'.inodes)) ∧
    Core M (Framed L content X) stay spare ((1,p)::refs) F fs') M.E:=by
 refine (inodeOpen_core h (e:=(1,L.root)) (mem_append_left _ ready.root)).seq ?_
 rintro inode fs₁ ⟨⟨bits,same⟩,core⟩
 rw[holds_bind,holds_onDevice,holds_malloc]
 cases inode with
 | none=>exact ⟨bits,core.malloc _⟩
 | some p=>
  cases fs₁.dev.mallocOk fs₁.dev.mallocs with
  | true=>exact ⟨bits,same,core.malloc _⟩
  | false=>
   exact (dirClose_core (core.malloc _) ready).seq fun _ _ h=>⟨h.1.trans bits,h.2⟩

lemma Core.rootInode (hp:(1,p)∈refs):
 ∃i,i.data=L.root ∧ ∀ (Q:Inode→Fs→Prop) (E:Fault→Prop),Holds (theInode p) fs Q E ↔ Q i fs:=by
 obtain ⟨i,hf,hdata⟩:=h.find hp (mem_append_left _ ready.root) rfl
 exact ⟨i,hdata,fun _ _=>holds_theInode hf⟩

end

def Added (M:Medium)(content content':Sector)(name:CString)(sector:ℕ):Prop:=
 (name.val≠[] ∧ name.val.length≤nameMax) ∧ (∀x∈rootSlots content,Names name x=false) ∧
  ∃j x,(rootSlots content)[j]?=some x ∧ x.inUse=false ∧
   Rewritten M content content' j (x.fill name sector)

lemma slot_lt {j:ℕ}{x:DirEntry}(hx:(rootSlots content)[j]?=some x):j<16:=by
 rw[←rootSlots_length content]
 exact (List.getElem?_eq_some_iff.1 hx).1

/-- A name that `dir_add` accepts, and a free entry for it. -/
def Addable (content:Sector)(name:CString):Prop:=
 (name.val≠[] ∧ name.val.length≤nameMax) ∧
  (∀x∈rootSlots content,Names name x=false) ∧ ∃x∈rootSlots content,x.inUse=false

/-- `dir_add` has what it needs. -/
def Accepts (content:Sector)(name:CString)(t:Table)(mallocOk:ℕ→Bool):Prop:=
 Addable content name ∧ Undenied t ∧ ∀n,mallocOk n=true

lemma Core.entry_written (h:Core M (Framed L content X) stay spare refs F fs)
 (root:(1,L.root)∈stay)(hp:(1,p)∈refs)(undenied:Undenied fs.inodes)
 (memory:∀n,F.mallocOk n=true)(bytes:ℕ→UInt8){j:ℕ}(inside:j<16):
 Holds (inodeWriteAt M.toSectorIO p bytes 20 (20*j)) fs (fun n _=>n=20) AnyFault:=by
 obtain ⟨i,found,hdata⟩:=h.find hp (mem_append_left _ root) rfl
 obtain ⟨i',hi,-,sector,found'⟩:=h.counted.find hp
 obtain rfl:=Option.some.inj (found.symm.trans found')
 have chunk:chunkSize L.root 20 (20*j)=20:=by
  unfold chunkSize
  rw[L.rootLength]
  omega
 unfold inodeWriteAt
 rw[holds_bind,holds_theInode found,if_neg (not_not.2 (undenied i hi sector)),holds_onDevice,hdata]
 change Holds (writeLoop M.toSectorIO L.root bytes (19+2) 20 (20*j) 0 false) fs.dev _ _
 unfold writeLoop
 rw[chunk,if_neg (by decide),if_neg (by simp),holds_bind,holds_malloc,h.memory,memory]
 exact (holds_trivial _ _).seq fun _ _ _=>rfl

lemma dirAdd_core (h:Core M (Framed L content X) stay spare refs F fs)
 (ready:Ready L stay refs F)(hp:(1,p)∈refs)(q:Quiet M L X)(sector:ℕ):
 Holds (dirAdd (dirFile M.toSectorIO p L.root.length stack) name sector) fs (fun ok fs'=>
  (ok=false ∧ ¬Accepts content name fs.inodes F.mallocOk ∧
   Core M (Framed L content X) stay spare refs F fs') ∨
  (ok=true ∧ ∃content',Added M content content' name sector ∧
   Core M (Framed L content' X) stay spare refs F fs')) M.E:=by
 refine dirAdd_rule (dirFile_shows ready.root hp fs.inodes) name sector ⟨h,rfl⟩ ?_ ?_
 · rintro t ⟨core,-⟩ refused
   refine .inl ⟨rfl,?_,core⟩
   rintro ⟨⟨⟨nonempty,short⟩,absent,-⟩,-⟩
   rcases refused with (empty|long)|⟨e,he,named⟩
   · exact nonempty empty
   · omega
   · rw[absent e he] at named
     cases named
 · rintro t x j ⟨core,same⟩ hne hlen absent vacant
   have hj:j≤16:=by
    rcases vacant with ⟨hx,-⟩|⟨hj,-⟩
    · exact Nat.le_of_lt (slot_lt hx)
    · rw[hj,rootSlots_length]
   have written:Holds (inodeWriteAt M.toSectorIO p (entryBytes (x.fill name sector)) 20 (20*j)) t
     (fun n _=>Accepts content name fs.inodes F.mallocOk → n=20) AnyFault:=by
    by_cases accepts:Accepts content name fs.inodes F.mallocOk
    · obtain ⟨⟨-,-,y,hy,free⟩,undenied,memory⟩:=accepts
      rcases vacant with ⟨hx,-⟩|⟨-,full⟩
      · exact (core.entry_written ready.root hp (by rw[same];exact undenied) memory _
         (slot_lt hx)).imp fun _ _ hn _=>hn
      · rw[full y hy] at free
        cases free
    · exact (holds_trivial _ _).imp fun _ _ _ h=>absurd h accepts
   refine ((rootWrite_core core ready.root hp q.root (x.fill name sector) hj).and written).imp ?_
   rintro n u ⟨⟨hn,core'⟩|⟨hn,hlt,content',rewritten,core'⟩,all⟩
   · exact .inl ⟨by simpa using hn,fun h=>hn (all h),core'⟩
   · refine .inr ⟨by simpa using hn,content',⟨⟨hne,hlen⟩,absent,j,x,?_⟩,core'⟩
     rcases vacant with ⟨hx,hu⟩|⟨hj,-⟩
     · exact ⟨hx,hu,rewritten⟩
     · rw[rootSlots_length] at hj
       omega

/-- Names lead to files that are there, and not to the system's. -/
def Known (content:Sector)(name:CString)(files:List Entry):Prop:=
 ∀x∈rootSlots content,Names name x=true → ∃e∈files,e.1=x.inodeSector ∧ e.1≠0 ∧ e.1≠1

lemma Known.opens {t:Fs}{x:DirEntry}(known:Known content name (live stay fs.inodes))
 (core:Core M (Framed L content X) stay spare refs F t)
 (same:condemned t.inodes=condemned fs.inodes)(hx:x∈rootSlots content)
 (hn:Names name x=true):
 (x.inodeSector≠0 ∧ x.inodeSector≠1) ∧
  Holds (inodeOpen x.inodeSector) t (fun inode u=>match inode with
   | none=>Core M (Framed L content X) stay spare refs F u
   | some i=>Core M (Framed L content X) stay spare ((x.inodeSector,i)::refs) F u)
   M.E:=by
 obtain ⟨e,he,hes,apart⟩:=known x hx hn
 rw[←hes]
 have there:e∈live stay t.inodes:=by
  rw[live,same]
  exact he
 exact ⟨apart,(inodeOpen_core core there).imp fun _ _ h=>h.2⟩

lemma dirLookup_core (h:Core M (Framed L content X) stay spare refs F fs)
 (ready:Ready L stay refs F)(hp:(1,p)∈refs)
 (known:Known content name (live stay fs.inodes)):
 Holds (dirLookup (dirFile M.toSectorIO p L.root.length stack) name) fs (fun inode fs'=>
  match inode with
  | none=>Core M (Framed L content X) stay spare refs F fs'
  | some i=>∃s,(s≠0 ∧ s≠1) ∧ Core M (Framed L content X) stay spare ((s,i)::refs) F fs') M.E:=by
 refine dirLookup_rule (dirFile_shows ready.root hp fs.inodes) name ⟨h,rfl⟩ ?_ ?_
 · rintro t ⟨core,-⟩ -
   exact core
 · rintro t x ⟨core,same⟩ hx hn
   obtain ⟨apart,opens⟩:=known.opens core (congrArg condemned same) hx hn
   refine Holds.imp opens ?_
   intro inode u hu
   cases inode with
   | none=>exact hu
   | some i=>exact ⟨x.inodeSector,apart,hu⟩

def Cleared (M:Medium)(content content':Sector)(name:CString)(sector:ℕ):Prop:=
 ∃j x,(rootSlots content)[j]?=some x ∧ (rootSlots content).find? (Names name)=some x ∧
  x.inodeSector=sector ∧ Rewritten M content content' j x.clear

lemma dirRemove_core (h:Core M (Framed L content X) stay spare refs F fs)
 (ready:Ready L stay refs F)(hp:(1,p)∈refs)(q:Quiet M L X)
 (known:Known content name (live stay fs.inodes)):
 Holds (dirRemove (dirFile M.toSectorIO p L.root.length stack) name) fs (fun ok fs'=>
  (ok=false ∧ Core M (Framed L content X) stay spare refs F fs') ∨
  (ok=true ∧ ∃content' sector,(sector≠0 ∧ sector≠1) ∧ Cleared M content content' name sector ∧
   Core M (Framed L content' X) (stay.filter (fun e=>e.1≠sector)) spare refs F fs'))
  M.E:=by
 refine dirRemove_rule (dirFile_shows ready.root hp fs.inodes) name ⟨h,rfl⟩ ?_ ?_
 · rintro t ⟨core,-⟩ -
   exact .inl ⟨rfl,core⟩
 rintro t x j ⟨core,same⟩ hx first
 have hn:=find?_some first
 obtain ⟨apart,opens⟩:=known.opens core (congrArg condemned same) (mem_of_getElem? hx) hn
 refine Holds.imp opens ?_
 intro inode u hu
 cases inode with
 | none=>exact .inl ⟨rfl,hu⟩
 | some i=>
  refine (rootWrite_core hu ready.root (mem_cons_of_mem _ hp) q.root x.clear
   (Nat.le_of_lt (slot_lt hx))).seq ?_
  rintro n v (⟨hn20,core'⟩|⟨rfl,-,content',rewritten,core'⟩)
  · rw[if_neg hn20]
    refine (inodeClose_core core' (.inl (core'.keeper ready q))).imp ?_
    exact fun _ w hw=>.inl ⟨rfl,hw⟩
  · refine (inodeRemove_core core' mem_cons_self).seq fun _ w core''=>?_
    refine (inodeClose_core core'' (.inl (core''.keeper (ready.remove apart) q))).imp ?_
    exact fun _ _ hw=>
     .inr ⟨rfl,content',x.inodeSector,apart,⟨j,x,hx,first,rfl,rewritten⟩,hw⟩

end

/-- The file that `filesys_create` makes if all goes well: the first free sector
for its header, and the first run of free sectors after that for its data. -/
def planned (b:Bits)(size:ℤ):Option Entry:=
 (bitmapScan b 1).bind fun sector=>
  (bitmapSetMultiple b sector 1 true).bind fun b'=>
   (bitmapScan b' (bytesToSectors size)).map fun start=>
    (sector,⟨start,size,inodeMagic⟩)

def StaleFree (c:Cell):Prop:=∀buffer dirty,c.block=some (buffer,dirty) → buffer=0

/-- `X` of every cell, and the file `e` as it is made: its header is on disk, and
its data are zero where `X` excludes stale blocks. -/
def Made (e:Entry)(X:ℕ→Cell→Prop)(s:ℕ)(c:Cell):Prop:=
 X s c ∧ (s=e.1 → IsHeader c e.2) ∧ (s∈dataSectors e.2 → (∀c,X s c → StaleFree c) → c.disk=0 ∧ StaleFree c)
variable {M:Medium}{L:Layout}{content:Sector}{X:ℕ→Cell→Prop}{stay:List Entry}
 {spare:List ℕ}{refs:List (ℕ×ℕ)}{F:Fixed}{fs:Fs}{p:ℕ}{e:Entry}
 {name:CString}{stack:DirEntry}

lemma StaleFree.logical {c:Cell}(h:StaleFree c)(disk:c.disk=0):c.logical=0:=by
 unfold Cell.logical
 split
 · rename_i hb
   exact h _ _ hb
 · exact disk

lemma StaleFree.evict {c:Cell}(h:StaleFree c)(disk:c.disk=0):c.evict.disk=0 ∧ StaleFree c.evict:=by
 refine ⟨?_,fun buffer dirty hb=>?_⟩
 · unfold Cell.evict
   split
   · rename_i hb
     exact h _ _ hb
   · exact disk
   · exact disk
 · rw[c.evict_block] at hb
   cases hb

lemma Made.quiet (q:Quiet M L X)(apart:∀s∈extent e,s∉dataSectors L.map ∧ s∉dataSectors L.root):
 Quiet M L (Made e X):=by
 have outside:∀s,s∈dataSectors L.map ∨ s∈dataSectors L.root → s∉extent e:=by
  intro s hs he
  exact hs.elim (apart s he).1 (apart s he).2
 refine ⟨fun s c hc=>⟨q.evict s c hc.1,fun hs=>(hc.2.1 hs).evict,fun hs hX=>?_⟩,
  fun s hs c b hc=>⟨q.put s hs c b hc.1,fun he=>?_,fun he=>?_⟩⟩
 · obtain ⟨disk,free⟩:=hc.2.2 hs hX
   exact free.evict disk
 · exact absurd (he▸mem_cons_self) (outside s hs)
 · exact absurd (mem_cons_of_mem _ he) (outside s hs)

lemma Core.spare_apart {Y:ℕ→Cell→Prop}(h:Core M Y stay spare refs F fs){s:ℕ}
 (hs:s∈spare)(he:e∈stay):s∉extent e:=by
 intro hm
 refine (nodup_append'.1 h.claimed.distinct).2.2 ?_ hs
 exact mem_flatMap.2 ⟨e,mem_append_left _ he,hm⟩

lemma Core.planned_apart {Y:ℕ→Cell→Prop}(h:Core M Y stay spare refs F fs){size:ℤ}
 (hp:planned fs.freeMap size=some e){s:ℕ}(hs:s∈extent e):
 s∉(live stay fs.inodes).flatMap extent++spare:=by
 intro hm
 have marked:=h.claimed.marked s hm
 obtain ⟨sector,scan,hp⟩:=Option.bind_eq_some_iff.1 hp
 obtain ⟨b,set,hp⟩:=Option.bind_eq_some_iff.1 hp
 obtain ⟨start,scan',rfl⟩:=Option.map_eq_some_iff.1 hp
 rcases mem_cons.1 hs with rfl|hs
 · have clear:=(bitmapScan_spec scan).2 _ (Nat.le_refl _) (Nat.lt_succ_self _)
   rw[clear] at marked
   cases marked
 · obtain ⟨lo,hi⟩:=mem_range'_1.1 hs
   have clear:=(bitmapScan_spec scan').2 s lo hi
   rw[bitmapSetMultiple_bit set,marked,ite_self] at clear
   cases clear

/-- What `filesys_create` does before `dir_add`: the header's sector, or 0, and
whether the inode was made. -/
def reserve (io: SectorIO)(size:ℤ):FsCmd (ℕ×Bool):=do
 match←freeMapAllocate io 1 with
 | none=>return (0,false)
 | some sector=>
  let created←inodeCreate io sector size
  return (sector,created)

lemma createIn_reserve (io: SectorIO)(p:ℕ)(name:CString)(size:ℤ)(stack:DirEntry):
 createIn io (some p) name size stack=(do
  let (sector,created)←reserve io size
  if created then
   let inode←theInode p
   let success←dirAdd (dirFile io p inode.data.length stack) name sector
   return (success,sector)
  else return (false,sector)):=by
 unfold createIn reserve
 simp only[bind_assoc]
 congr 1
 funext sector
 cases sector with
 | none=>rfl
 | some sector=>simp only[bind_assoc,pure_bind]

def Marks (b:Bits)(e:Entry)(b':Bits):Prop:=
 ∃b₁,bitmapSetMultiple b e.1 1 true=some b₁ ∧
  bitmapScan b₁ (bytesToSectors e.2.length)=some e.2.start ∧
  bitmapSetMultiple b₁ e.2.start (bytesToSectors e.2.length) true=some b'

/-- Whatever happens after the allocations for a new file, they are undone or used: it has no data,
there is no room for it, or `dir_add` has what it needs. -/
def Harmless (content:Sector)(name:CString)(size:ℤ)(fs:Fs):Prop:=
 size=0 ∨ planned fs.freeMap size=none ∨ Accepts content name fs.inodes fs.dev.mallocOk

lemma planned_length {b:Bits}{size:ℤ}(plan:planned b size=some e):e.2.length=size:=by
 obtain ⟨sector,-,plan⟩:=Option.bind_eq_some_iff.1 plan
 obtain ⟨b',-,plan⟩:=Option.bind_eq_some_iff.1 plan
 obtain ⟨start,-,rfl⟩:=Option.map_eq_some_iff.1 plan
 rfl

lemma marks_released {b b' b'':Bits}(scan:bitmapScan b 1=some e.1)(marks:Marks b e b')
 (empty:e.2.length=0)(freed:bitmapSetMultiple b' e.1 1 false=some b''):b''=b:=by
 obtain ⟨b₁,mark,-,mark'⟩:=marks
 rw[empty] at mark'
 have same:b'=b₁:=by
  apply ext_getElem?
  intro i
  rw[bitmapSetMultiple_bit mark',if_neg]
  exact fun inside=>Nat.not_lt.2 inside.1 inside.2
 rw[same,bitmapSetMultiple_undo scan mark] at freed
 exact (Option.some.inj freed).symm

lemma keeps_reserve {β:Type}{v:Fs→β}[Blind v](io: SectorIO)(size:ℤ):Keeps v (reserve io size):=by
 refine keeps_bind (keeps_freeMapAllocate 1) fun sector=>?_
 cases sector with
 | none=>exact keeps_pure _
 | some sector=>exact keeps_bind (keeps_inodeCreate sector size) fun _=>keeps_pure _

variable (h:Core M (Framed L content X) stay spare refs F fs)(ready:Ready L stay refs F)
include h ready

section
variable (q:Quiet M L X)(loose:∀s∉stay.flatMap extent,∀c b,X s c → X s {c with disk:=b})
 {size:ℤ}(hl:0 ≤ size)(hl':size<2^31)
 (clean:∀e,planned fs.freeMap size=some e → ∀c,X e.1 c → NotDirty c)
include q loose hl hl' clean

lemma reserve_core:
 Holds (reserve M.toSectorIO size) fs (fun r fs'=>
  (r=(0,false) ∧ fs'.freeMap=fs.freeMap ∧ Core M (Framed L content X) stay spare refs F fs') ∨
  (∃sector,sector≠0 ∧ r=(sector,false) ∧ bitmapScan fs.freeMap 1=some sector ∧
   bitmapSetMultiple fs.freeMap sector 1 true=some fs'.freeMap ∧
   Core M (Framed L content X) stay (sector::spare) refs F fs') ∨
  (∃e,e.1≠0 ∧ r=(e.1,true) ∧ planned fs.freeMap size=some e ∧
   bitmapScan fs.freeMap 1=some e.1 ∧ Marks fs.freeMap e fs'.freeMap ∧
   Proper F.size e.2 ∧ (∀s∈extent e,s∉dataSectors L.map ∧ s∉dataSectors L.root) ∧
   Core M (Framed L content (Made e X)) stay (extent e++spare) refs F fs')) M.E:=by
 have keeper:=h.keeper ready q
 refine (freeMapAllocate_core h (.inr keeper) 1).seq ?_
 intro r fs₁ hr
 cases r with
 | none=>exact .inl ⟨rfl,hr.2,hr.1⟩
 | some sector=>
  obtain ⟨scan,mark,core₁,-⟩:=hr
  have nonzero:sector≠0:=by
   rintro rfl
   exact core₁.spare_apart mem_cons_self ready.map mem_cons_self
  have plan:∀start,bitmapScan fs₁.freeMap (bytesToSectors size)=some start →
    planned fs.freeMap size=some (sector,⟨start,size,inodeMagic⟩):=by
   intro start hstart
   simp only[planned,scan,mark,hstart,Option.bind_some,Option.map_some]
  have looseY:∀s,s∉stay.flatMap extent → ∀c b,Framed L content X s c →
    Framed L content X s {c with disk:=b}:=by
   intro s hs c b hc
   refine ⟨loose s hs c b hc.1,?_⟩
   rintro rfl
   exact absurd (mem_flatMap.2 ⟨(1,L.root),ready.root,mem_cons_of_mem _ (rootStart_mem L)⟩) hs
  refine (inodeCreate_core core₁ (.inr keeper) hl hl' looseY
   (fun start hstart c hc=>clean _ (plan start hstart) c hc.1)).seq ?_
  rintro ok fs₂ (⟨rfl,bits,core₂⟩ |
   ⟨rfl,e,rfl,proper,hscan,hdr,core₂,header,zero,-,mark'⟩)
  · exact .inr (.inl ⟨sector,nonzero,rfl,scan,by rw[bits];exact mark,core₂⟩)
  have apart:∀s∈extent e,s∉dataSectors L.map ∧ s∉dataSectors L.root:=by
   intro s hs
   have hspare:=mem_append_left spare hs
   exact ⟨fun hm=>core₂.spare_apart hspare ready.map (mem_cons_of_mem _ hm),
    fun hm=>core₂.spare_apart hspare ready.root (mem_cons_of_mem _ hm)⟩
  have length:e.2.length=size:=congrArg InodeDisk.length hdr
  refine .inr (.inr ⟨e,nonzero,rfl,by rw[plan e.2.start hscan,←hdr],scan,
   ⟨fs₁.freeMap,mark,by rw[length];exact hscan,by rw[length];exact mark'⟩,proper,
   apart,?_⟩)
  refine core₂.frame fun s hs=>⟨⟨hs.1,?_,fun hd hX=>⟨zero s hd,hX _ hs.1⟩⟩,hs.2⟩
  rintro rfl
  exact header

lemma createIn_core (hp:(1,p)∈refs):
 Holds (createIn M.toSectorIO (some p) name size stack) fs (fun r fs'=>
  (r=(false,0) ∧ fs'.freeMap=fs.freeMap ∧ Core M (Framed L content X) stay spare refs F fs') ∨
  (∃sector,sector≠0 ∧ r=(false,sector) ∧
   (Harmless content name size fs → ∀b,
    bitmapSetMultiple fs'.freeMap sector 1 false=some b → b=fs.freeMap) ∧
   Core M (Framed L content X) stay (sector::spare) refs F fs') ∨
  (∃e content',planned fs.freeMap size=some e ∧ r=(true,e.1) ∧ Added M content content' name e.1 ∧
   Core M (Framed L content' (Made e X)) (e::stay) spare refs F fs')) M.E:=by
 rw[createIn_reserve]
 refine ((reserve_core h ready q loose hl hl' clean).and (keeps_reserve (v:=tables) _ _ fs)).seq ?_
 rintro r fs₁ ⟨⟨rfl,bits,core₁⟩|⟨sector,nonzero,rfl,scan,mark,core₁⟩ |
  ⟨e,nonzero,rfl,plan,scan,marks,proper,apart,made⟩,kept⟩
 · exact .inl ⟨rfl,bits,core₁⟩
 · refine .inr (.inl ⟨sector,nonzero,rfl,fun _ b freed=>?_,core₁⟩)
   rw[bitmapSetMultiple_undo scan mark] at freed
   exact (Option.some.inj freed).symm
 obtain ⟨root,hdata,hroot⟩:=made.rootInode ready hp
 have inodes:fs₁.inodes=fs.inodes:=congrArg Prod.fst kept
 dsimp only
 rw[if_pos rfl,holds_bind,hroot,hdata]
 refine ((dirAdd_core made ready hp (Made.quiet q apart) e.1).and
  (keeps_dirAdd (v:=Fs.freeMap) name e.1 fs₁)).seq ?_
 rintro ok fs₂ ⟨⟨rfl,refused,core₂⟩|⟨rfl,content',added,core₂⟩,bits⟩
 · refine .inr (.inl ⟨e.1,nonzero,rfl,fun harmless b freed=>?_,?_⟩)
   · rw[inodes,←h.memory] at refused
     rw[show fs₂.freeMap=fs₁.freeMap from bits] at freed
     rcases harmless with rfl|none_|accepts
     · exact marks_released scan marks (planned_length plan) freed
     · rw[plan] at none_
       cases none_
     · exact absurd accepts refused
   refine (core₂.frame (fun s hs=>⟨hs.1.1,hs.2⟩)).drop ?_
   exact Sublist.subperm ((sublist_append_right _ _).cons_cons _)
 · refine .inr (.inr ⟨e,content',plan,rfl,added,core₂.promote proper ?_⟩)
   exact (core₂.meets.2 e.1).1.1.2.1 rfl

lemma filesysCreate_core:
 Holds (filesysCreate M.toSectorIO name size stack) fs (fun ok fs'=>
  (ok=false ∧ (Harmless content name size fs → fs'.freeMap=fs.freeMap) ∧
   Core M (Framed L content X) stay spare refs F fs') ∨
  (ok=true ∧ ∃e content',planned fs.freeMap size=some e ∧ Added M content content' name e.1 ∧
   Core M (Framed L content' (Made e X)) (e::stay) spare refs F fs')) M.E:=by
 refine (dirOpenRoot_core h ready).seq ?_
 intro dir fs₁ hdir
 cases dir with
 | none=>exact .inl ⟨rfl,fun _=>hdir.1,hdir.2⟩
 | some p=>
  obtain ⟨bits,⟨-,undenied⟩,core₁⟩:=hdir
  have still:Harmless content name size fs → Harmless content name size fs₁:=by
   rintro (empty|none_|⟨addable,allowed,memory⟩)
   · exact .inl empty
   · exact .inr (.inl (by rw[bits];exact none_))
   · exact .inr (.inr ⟨addable,undenied allowed,by rw[core₁.memory,←h.memory];exact memory⟩)
  refine (createIn_core core₁ (ready.cons _) q loose hl hl' (by rw[bits];exact clean)
   mem_cons_self).seq ?_
  rw[bits]
  rintro r fs₂ (⟨rfl,bits₂,core₂⟩|⟨sector,nonzero,rfl,released,core₂⟩ |
   ⟨e,content',plan,rfl,added,core₂⟩)
  · exact (dirClose_core core₂ ready).seq fun _ fs₃ h₃=>.inl ⟨rfl,fun _=>h₃.1.trans bits₂,h₃.2⟩
  · dsimp only
    rw[if_pos ⟨rfl,nonzero⟩]
    have hsector:sector≤F.size:=Nat.le_of_lt (core₂.spare_lt mem_cons_self)
    have held:Core M _ stay (range' sector 1++spare) _ F fs₂:=core₂
    refine (freeMapRelease_core held hsector (core₂.keeper (ready.cons _) q)).seq
     fun _ fs₃ h₃=>?_
    exact (dirClose_core h₃.2 ready).seq fun _ fs₄ h₄=>
     .inl ⟨rfl,fun harmless=>h₄.1.trans (released (still harmless) _ h₃.1),h₄.2⟩
  · have ready':Ready L (e::stay) refs F:=
     ⟨mem_cons_of_mem _ ready.map,mem_cons_of_mem _ ready.root,ready.file⟩
    exact (dirClose_core core₂ ready').seq fun _ fs₃ h₃=>
     .inr ⟨rfl,e,content',plan,added,h₃.2⟩

end

lemma filesysRemove_core (q:Quiet M L X)(known:Known content name (live stay fs.inodes)):
 Holds (filesysRemove M.toSectorIO name stack) fs (fun ok fs'=>
  (ok=false ∧ Core M (Framed L content X) stay spare refs F fs') ∨
  (ok=true ∧ ∃content' sector,(sector≠0 ∧ sector≠1) ∧ Cleared M content content' name sector ∧
   Core M (Framed L content' X) (stay.filter (fun e=>e.1≠sector)) spare refs F fs'))
  M.E:=by
 refine (dirOpenRoot_core h ready).seq ?_
 intro dir fs₁ hdir
 cases dir with
 | none=>exact .inl ⟨rfl,hdir.2⟩
 | some p=>
  obtain ⟨-,⟨same,-⟩,core₁⟩:=hdir
  obtain ⟨root,hdata,hroot⟩:=core₁.rootInode (ready.cons _) mem_cons_self
  rw[holds_bind,hroot,hdata]
  have known₁:Known content name (live stay fs₁.inodes):=by
   rw[live,same]
   exact known
  refine (dirRemove_core core₁ (ready.cons _) mem_cons_self q known₁).seq ?_
  rintro ok fs₂ (⟨rfl,core₂⟩|⟨rfl,content',sector,apart,cleared,core₂⟩)
  · exact (dirClose_core core₂ ready).seq fun _ fs₃ h₃=>.inl ⟨rfl,h₃.2⟩
  · exact (dirClose_core core₂ (ready.remove apart)).seq fun _ fs₃ h₃=>
     .inr ⟨rfl,content',sector,apart,cleared,h₃.2⟩

lemma filesysOpen_rule (known:Known content name (live stay fs.inodes)){Q:Option ℕ→Fs→Prop}
 (absent:∀fs',Core M (Framed L content X) stay spare refs F fs' →
  Holds (fileOpen M.toSectorIO none) fs' Q M.E)
 (present:∀fs' s i,s≠0 ∧ s≠1 → Core M (Framed L content X) stay spare ((s,i)::refs) F fs' →
  Holds (fileOpen M.toSectorIO (some i)) fs' Q M.E):
 Holds (filesysOpen M.toSectorIO name stack) fs Q M.E:=by
 refine (dirOpenRoot_core h ready).seq ?_
 intro dir fs₁ hdir
 cases dir with
 | none=>exact absent fs₁ hdir.2
 | some p=>
  obtain ⟨-,⟨same,-⟩,core₁⟩:=hdir
  obtain ⟨root,hdata,hroot⟩:=core₁.rootInode (ready.cons _) mem_cons_self
  rw[holds_bind,hroot,hdata]
  have known₁:Known content name (live stay fs₁.inodes):=by
   rw[live,same]
   exact known
  refine (dirLookup_core core₁ (ready.cons _) mem_cons_self known₁).seq ?_
  intro inode fs₂ hinode
  cases inode with
  | none=>exact (dirClose_core hinode ready).seq fun _ fs₃ h₃=>absent fs₃ h₃.2
  | some i=>
   obtain ⟨s,apart,core₂⟩:=hinode
   refine (dirClose_core (core₂.perm (Perm.swap _ _ _)) (ready.cons _)).seq ?_
   exact fun _ fs₃ h₃=>present fs₃ s i apart h₃.2

end Pintos.Filesys
