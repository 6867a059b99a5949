import Mathlib.Data.List.Perm.Subperm
import Pintos.Filesys
import Pintos.SectorMedium

/-! The invariant that ties the free map, the headers on disk, the open inodes and
the references to them together. -/
namespace Pintos.Filesys
open ExecHoare Bitmap ByteWords Cache Directory InodeTable InodeData List KeyedList

abbrev Entry:=ℕ×InodeDisk
def dataSectors (h:InodeDisk):List ℕ:=range' h.start (bytesToSectors h.length)
def extent (e:Entry):List ℕ:=e.1::dataSectors e.2
def condemned (t:Table):List Entry:=
 t.openInodes.filterMap (fun i=>if i.removed then some (i.sector,i.data) else none)
def live (stay:List Entry)(t:Table):List Entry:=stay++condemned t

lemma bytesToSectors_eq {size:ℤ}(h:0 ≤ size)(h':size<2^31-511):
 bytesToSectors size=(size.toNat+511)/512:=by
 unfold bytesToSectors
 rw[Int.bmod_eq_of_le (by omega) (by omega),Int.tdiv_eq_ediv_of_nonneg (by omega)]
 omega

/-- Where the sum wraps around, the number of sectors comes from a negative one. -/
lemma bytesToSectors_wraps {size:ℤ}(h:2^31-511 ≤ size)(h':size<2^31):
 4290772992≤bytesToSectors size ∧ bytesToSectors size≤4290772993:=by
 have wraps:(size+511).bmod 4294967296=size+511-4294967296:=by
  rw[Int.bmod_def]
  omega
 rw[bytesToSectors,wraps,Int.tdiv_eq_ediv,show Int.sign 512=1 from rfl]
 split<;>omega

lemma lt_bytesToSectors {size:ℤ}{pos:ℕ}(h:pos<size)(h':size<2^31):pos/512<bytesToSectors size:=by
 rcases Int.lt_or_le size (2^31-511) with small|large
 · rw[bytesToSectors_eq (by omega) small]
   omega
 · have:=(bytesToSectors_wraps large h').1
   omega

lemma decode_encode {h:InodeDisk}(hs:h.start<2^32)(hl:0≤h.length)
 (hl':h.length<2^31)(hm:h.magic<2^32):decodeInode (encodeInode h)=h:=by
 have length:signed (h.length%2^32).toNat=h.length:=by
  unfold signed
  omega
 have words:decodeInode (encodeInode h)=⟨word (wordByte h.start 0) (wordByte h.start 1)
   (wordByte h.start 2) (wordByte h.start 3),signed (word
   (wordByte (h.length%2^32).toNat 0) (wordByte (h.length%2^32).toNat 1)
   (wordByte (h.length%2^32).toNat 2) (wordByte (h.length%2^32).toNat 3)),
   word (wordByte h.magic 0) (wordByte h.magic 1) (wordByte h.magic 2)
   (wordByte h.magic 3)⟩:=rfl
 rw[words,word_wordByte hs,word_wordByte hm,word_wordByte (by omega),length]

structure Proper (size:ℕ)(h:InodeDisk):Prop where
 nonneg:0≤h.length
 lt:h.length<2^31
 start:h.start ≤ size

lemma byteToSector_mem {size:ℕ}{h:InodeDisk}(hp:Proper size h)
 (fits:∀s∈dataSectors h,s<2^32){pos:ℕ}(hpos:pos<h.length):
 byteToSector h pos=h.start+pos/512 ∧ byteToSector h pos∈dataSectors h:=by
 have hmem:h.start+pos/512∈dataSectors h:=by
  have:=lt_bytesToSectors hpos hp.lt
  rw[dataSectors,mem_range'_1]
  omega
 have heq:byteToSector h pos=h.start+pos/512:=by
  unfold byteToSector
  rw[if_pos hpos,Nat.mod_eq_of_lt (fits _ hmem)]
 exact ⟨heq,heq▸hmem⟩

structure Fixed where
 size:ℕ
 files:List File
 freeMapFile:Option ℕ
 nextFile:ℕ
 mallocOk:ℕ→Bool

def fixed (fs:Fs):Fixed:=⟨fs.dev.size,fs.files,fs.freeMapFile,fs.nextFile,fs.dev.mallocOk⟩

/-- `Y` of every cell, and the headers of the `entries` on disk. -/
def Wants (Y:ℕ→Cell→Prop)(entries:List Entry)(s:ℕ)(c:Cell):Prop:=
 Y s c ∧ ∀e∈entries,e.1=s → IsHeader c e.2

/-- The sectors of the files there are, and the `spare` ones, are in use and
distinct; the files' headers are on disk, the open inodes are such files, and
they count the `refs`. -/
structure Core (M:Medium)(Y:ℕ→Cell→Prop)(stay:List Entry)(spare:List ℕ)
  (refs:List (ℕ×ℕ))(F:Fixed)(fs:Fs):Prop where
 meets:Meets M (Wants Y (live stay fs.inodes)) fs.dev
 proper:∀e∈live stay fs.inodes,Proper F.size e.2
 mapSize:fs.freeMap.length=F.size
 small:F.size<2^32
 claimed:Claimed fs.freeMap ((live stay fs.inodes).flatMap extent++spare)
 opened:∀i∈fs.inodes.openInodes,(i.sector,i.data)∈live stay fs.inodes
 counted:Counted fs.inodes refs
 fixed:fixed fs=F
variable {α β:Type}{l:List α}{f:α→List β}{a b:α}{x:β}

lemma flatMap_inj (h:(l.flatMap f).Nodup)(ha:a∈l)(hb:b∈l)(hxa:x∈f a)(hxb:x∈f b):a=b:=by
 induction l with
 | nil=>cases ha
 | cons c l ih=>
  rw[flatMap_cons,nodup_append'] at h
  obtain ⟨-,hl,disj⟩:=h
  rcases mem_cons.1 ha with ha|ha<;>rcases mem_cons.1 hb with hb | hb
  · rw[ha,hb]
  · exact absurd (mem_flatMap.2 ⟨b,hb,hxb⟩) (disj (ha▸hxa))
  · exact absurd (mem_flatMap.2 ⟨a,ha,hxa⟩) (disj (hb▸hxb))
  · exact ih hl ha hb

variable {M:Medium}{Y Y':ℕ→Cell→Prop}{stay stay':List Entry}{spare spare':List ℕ}
 {refs refs':List (ℕ×ℕ)}{F:Fixed}{fs:Fs}{e e':Entry}

section
variable (h:Core M Y stay spare refs F fs)
include h

lemma Core.size:fs.dev.size=F.size:=congrArg Fixed.size h.fixed
lemma Core.memory:fs.dev.mallocOk=F.mallocOk:=congrArg Fixed.mallocOk h.fixed
lemma Core.entry_inj (he:e∈live stay fs.inodes)
 (he':e'∈live stay fs.inodes){s:ℕ}(hs:s∈extent e)(hs':s∈extent e'):e=e':=
 flatMap_inj (nodup_append'.1 h.claimed.distinct).1 he he' hs hs'
lemma Core.extent_lt (he:e∈live stay fs.inodes){s:ℕ}(hs:s∈extent e):s<F.size:=by
 rw[←h.mapSize]
 exact h.claimed.lt (mem_append_left _ (mem_flatMap.2 ⟨e,he,hs⟩))
lemma Core.spare_lt {s:ℕ}(hs:s∈spare):s<F.size:=by
 rw[←h.mapSize]
 exact h.claimed.lt (mem_append_right _ hs)

lemma Core.data_ne_header (he:e∈live stay fs.inodes)
 (he':e'∈live stay fs.inodes){s:ℕ}(hs:s∈dataSectors e.2):e'.1≠s:=by
 rintro rfl
 have same:=h.entry_inj he he' (mem_cons_of_mem _ hs) mem_cons_self
 subst same
 have distinct:=(nodup_append'.1 h.claimed.distinct).1
 have own:=(nodup_flatMap.1 distinct).1 e he
 exact (nodup_cons.1 own).1 hs

lemma Core.device {d:Device}
 (same:SameDevice fs.dev d)(meets:Meets M (Wants Y' (live stay fs.inodes)) d):
 Core M Y' stay spare refs F {fs with dev:=d} where
 meets:=meets
 proper:=h.proper
 mapSize:=h.mapSize
 small:=h.small
 claimed:=h.claimed
 opened:=h.opened
 counted:=h.counted
 fixed:=by
  rw[←h.fixed]
  simp only[Filesys.fixed,same.size,same.mallocOk]

lemma Core.table {t:Table}(same:(live stay' t).Perm (live stay fs.inodes))(counted:Counted t refs')
 (opened:∀i∈t.openInodes,(i.sector,i.data)∈live stay fs.inodes):
 Core M Y stay' spare refs' F {fs with inodes:=t} where
 meets:=⟨h.meets.1,fun s=>⟨(h.meets.2 s).1,fun e he=>(h.meets.2 s).2 e (same.subset he)⟩⟩
 proper e he:=h.proper e (same.subset he)
 mapSize:=h.mapSize
 small:=h.small
 claimed:=h.claimed.perm ((same.symm.flatMap_right extent).append_right spare)
 opened i hi:=same.symm.subset (opened i hi)
 counted:=counted
 fixed:=h.fixed

lemma Core.bits {b:Bits}(hb:b.length=F.size)
 (claimed:Claimed b ((live stay fs.inodes).flatMap extent++spare')):
 Core M Y stay spare' refs F {fs with freeMap:=b} where
 meets:=h.meets
 proper:=h.proper
 mapSize:=hb
 small:=h.small
 claimed:=claimed
 opened:=h.opened
 counted:=h.counted
 fixed:=h.fixed

lemma Core.frame (frame:∀s,Y s (M.cell fs.dev s) → Y' s (M.cell fs.dev s)):
 Core M Y' stay spare refs F fs:=
 {h with meets:=⟨h.meets.1,fun s=>⟨frame s (h.meets.2 s).1,(h.meets.2 s).2⟩⟩}
lemma Core.drop (sub:spare'.Subperm spare):Core M Y stay spare' refs F fs:=by
 obtain ⟨l,perm,sub⟩:=sub
 exact {h with
  claimed:=(h.claimed.sublist (Sublist.append_left sub _)).perm (perm.append_left _)}
lemma Core.perm (same:refs.Perm refs'):Core M Y stay spare refs' F fs:=
 {h with counted:=h.counted.perm same}
lemma Core.reorder (same:stay.Perm stay'):Core M Y stay' spare refs F fs:=
 h.table (same.symm.append_right _) h.counted h.opened

end

variable {t:Table}{i:Inode}

lemma mem_condemned:e∈condemned t ↔ ∃i∈t.openInodes,i.removed=true ∧ (i.sector,i.data)=e:=by
 simp only[condemned,mem_filterMap,Option.ite_none_right_eq_some,Option.some.injEq]

lemma condemned_set {p:ℕ}{f:Inode→Inode}
 (keep:∀i,(f i).removed=i.removed ∧ (f i).sector=i.sector ∧ (f i).data=i.data):
 condemned (t.set p f)=condemned t:=by
 apply filterMap_set
 intro i
 rw[(keep i).1,(keep i).2.1,(keep i).2.2]

lemma condemned_push (sector:ℕ)(data:InodeDisk):
 condemned (pushInode t sector data).2=condemned t:=rfl

lemma condemned_remove (w:t.WF)(hi:i∈t.openInodes)(kept:i.removed=false):
 (condemned (t.set i.id (fun i=>{i with removed:=true}))).Perm ((i.sector,i.data)::condemned t):=by
 obtain ⟨l₁,l₂,hl,hset,-⟩:=exists_split w.ids hi
 have after:(t.set i.id (fun i=>{i with removed:=true})).openInodes=_:=hset _
 unfold condemned
 rw[after,hl]
 simp only[filterMap_append,filterMap_cons,kept,Bool.false_eq_true]
 exact perm_middle

lemma condemned_erase (w:t.WF)(hi:i∈t.openInodes):
 (condemned t).Perm ((if i.removed then [(i.sector,i.data)] else []) ++
  condemned {t with openInodes:=KeyedList.erase Inode.id i.id t.openInodes}):=by
 obtain ⟨l₁,l₂,hl,-,herase⟩:=exists_split w.ids hi
 unfold condemned
 rw[herase,hl]
 cases hr:i.removed with
 | true=>
  simp only[filterMap_append,filterMap_cons,hr]
  exact perm_middle
 | false=>
  simp only[filterMap_append,filterMap_cons,hr,Bool.false_eq_true]
  exact Perm.refl _

variable {r:ℕ×ℕ}

section
variable (h:Core M Y stay spare refs F fs)
include h

lemma Core.recount {p:ℕ}{f:Inode→Inode}
 {refs':List (ℕ×ℕ)}(counted:Counted (fs.inodes.set p f) refs')
 (keep:∀i,(f i).removed=i.removed ∧ (f i).sector=i.sector ∧ (f i).data=i.data):
 Core M Y stay spare refs' F {fs with inodes:=fs.inodes.set p f}:=by
 refine h.table ?_ counted fun j hj=>?_
 · rw[live,condemned_set keep]
   exact Perm.refl _
 · obtain ⟨k,hk,⟨-,rfl⟩|⟨-,rfl⟩⟩:=mem_set.1 hj
   · rw[(keep k).2.1,(keep k).2.2]
     exact h.opened k hk
   · exact h.opened j hk

lemma Core.addRef (hi:i∈fs.inodes.openInodes):
 Core M Y stay spare ((i.sector,i.id)::refs) F {fs with
  inodes:=fs.inodes.set i.id (fun i=>{i with openCnt:=i.openCnt+1})}:=
 h.recount (h.counted.addRef hi) (fun _=>⟨rfl,rfl,rfl⟩)

lemma Core.push {e:Entry}(he:e∈live stay fs.inodes)(fresh:openedAt fs.inodes e.1=none):
 Core M Y stay spare ((e.1,fs.inodes.nextId)::refs) F
  {fs with inodes:=(pushInode fs.inodes e.1 e.2).2}:=by
 refine h.table (Perm.refl _) (h.counted.push e.2 fresh) fun j hj=>?_
 rcases mem_cons.1 hj with rfl|hj
 · exact he
 · exact h.opened j hj

lemma Core.mem_stay (hi:i∈fs.inodes.openInodes)(kept:i.removed=false):(i.sector,i.data)∈stay:=by
 rcases mem_append.1 (h.opened i hi) with hs|hc
 · exact hs
 · obtain ⟨j,hj,hr,he⟩:=mem_condemned.1 hc
   have same:=inj_on_of_nodup_map h.counted.wf.sectors hj hi (Prod.mk.inj he).1
   rw[same,kept] at hr
   cases hr

lemma Core.stay_sector {e:Entry}(he:e∈stay){c:Entry}(hc:c∈condemned fs.inodes):e.1≠c.1:=by
 intro hs
 have distinct:=(nodup_append'.1 h.claimed.distinct).1
 rw[live,flatMap_append] at distinct
 apply (nodup_append'.1 distinct).2.2 (mem_flatMap.2 ⟨e,he,mem_cons_self⟩)
 exact mem_flatMap.2 ⟨c,hc,hs▸mem_cons_self⟩

lemma Core.condemned_nil (kept:∀r∈refs,∃e∈stay,e.1=r.1):condemned fs.inodes=[]:=by
 rw[eq_nil_iff_forall_not_mem]
 intro c hc
 obtain ⟨i,hi,-,rfl⟩:=mem_condemned.1 hc
 obtain ⟨r,hr,hid⟩:=countP_pos_iff.1 (h.counted.count i hi).2
 obtain ⟨j,hj,hjid,hs⟩:=h.counted.held r hr
 have same:=inj_on_of_nodup_map h.counted.wf.ids hj hi (hjid.trans (of_decide_eq_true hid))
 obtain ⟨e,he,hes⟩:=kept r hr
 exact h.stay_sector he hc (hes.trans (by rw[←hs,same]))

end

lemma filter_ne_perm {l:List Entry}(h:(l.map (·.1)).Nodup){e:Entry}(he:e∈l):
 l.Perm (e::l.filter (fun x=>x.1≠e.1)):=by
 induction l with
 | nil=>cases he
 | cons a l ih=>
  obtain ⟨ha,hl⟩:=nodup_cons.1 h
  rcases mem_cons.1 he with rfl|he
  · have hself:decide (e.1≠e.1)=false:=by simp
    have hrest:l.filter (fun x=>x.1≠e.1)=l:=by
     rw[filter_eq_self]
     intro x hx
     have:x.1≠e.1:=fun hs=>ha (List.mem_map.2 ⟨x,hx,hs⟩)
     simpa using this
    rw[filter_cons,hself,hrest]
    exact Perm.refl _
  · have hne:a.1≠e.1:=fun hs=>ha (List.mem_map.2 ⟨e,he,hs.symm⟩)
    rw[filter_cons,if_pos (by simpa using hne)]
    exact ((ih hl he).cons a).trans (Perm.swap e a _)

lemma Core.stay_nodup (h:Core M Y stay spare refs F fs):(stay.map (·.1)).Nodup:=by
 have distinct:=(nodup_append'.1 h.claimed.distinct).1
 rw[live,flatMap_append] at distinct
 have own:=(nodup_append'.1 distinct).1
 have sub:∀l:List Entry,(l.map (·.1)).Sublist (l.flatMap extent):=by
  intro l
  induction l with
  | nil=>exact Sublist.slnil
  | cons e l ih=>
   exact ((Sublist.append (nil_sublist (dataSectors e.2)) ih)).cons_cons e.1
 exact (sub stay).nodup own

lemma Core.remove (h:Core M Y stay spare refs F fs)(hr:r∈refs):
 Core M Y (stay.filter (fun e=>e.1≠r.1)) spare refs F {fs with
  inodes:=fs.inodes.set r.2 (fun i=>{i with removed:=true})}:=by
 obtain ⟨i,hi,hid,hs⟩:=h.counted.held r hr
 have counted:Counted (fs.inodes.set r.2 (fun i=>{i with removed:=true})) refs:=
  h.counted.touch (fun _=>⟨rfl,rfl,rfl⟩)
 refine h.table ?_ counted fun j hj=>?_
 · cases kept:i.removed with
   | false=>
    have perm:=condemned_remove h.counted.wf hi kept
    rw[hid] at perm
    have stays:=filter_ne_perm h.stay_nodup (h.mem_stay hi kept)
    simp only[hs] at stays perm
    refine (perm.append_left _).trans ?_
    exact perm_middle.trans (stays.symm.append_right _)
   | true=>
    have same:fs.inodes.set r.2 (fun i=>{i with removed:=true})=fs.inodes:=by
     obtain ⟨l₁,l₂,hl,hset,-⟩:=exists_split h.counted.wf.ids hi
     have hset:=hset (fun i=>{i with removed:=true})
     have hself:{i with removed:=true}=i:=by
      rw[←kept]
     rw[hself,←hl,hid] at hset
     unfold Table.set
     rw[hset]
    have stays:stay.filter (fun e=>e.1≠r.1)=stay:=by
     rw[filter_eq_self]
     intro e he
     have:=h.stay_sector he (mem_condemned.2 ⟨i,hi,kept,rfl⟩)
     simpa[hs] using this
    rw[same,stays]
 · obtain ⟨k,hk,⟨-,rfl⟩|⟨-,rfl⟩⟩:=mem_set.1 hj
   · exact h.opened k hk
   · exact h.opened j hk

variable (h:Core M Y stay spare (r::refs) F fs)(hi:i∈fs.inodes.openInodes)(hid:i.id=r.2)
include h hi hid

lemma Core.closeShared (shared:i.openCnt-1≠0):
 Core M Y stay spare refs F {fs with
  inodes:=fs.inodes.set r.2 (fun i=>{i with openCnt:=i.openCnt-1})}:=
 h.recount (h.counted.closeShared hi hid shared) (fun _=>⟨rfl,rfl,rfl⟩)

lemma Core.closeLast (last:i.openCnt-1=0):
 Core M Y stay ((if i.removed then extent (i.sector,i.data) else [])++spare) refs F {fs with
  inodes:={fs.inodes with
   openInodes:=KeyedList.erase Inode.id r.2 fs.inodes.openInodes}}:=by
 obtain ⟨-,counted⟩:=h.counted.closeLast hi hid last
 have perm:=condemned_erase h.counted.wf hi
 rw[hid] at perm
 have lives:(live stay fs.inodes).Perm ((if i.removed then [(i.sector,i.data)] else []) ++
   live stay {fs.inodes with
    openInodes:=KeyedList.erase Inode.id r.2 fs.inodes.openInodes}):=by
  unfold live
  refine (perm.append_left stay).trans ?_
  rw[←append_assoc,←append_assoc]
  exact perm_append_comm.append_right _
 have sub:=lives.symm.subset
 refine ⟨⟨h.meets.1,fun s=>⟨(h.meets.2 s).1,fun e he=>?_⟩⟩,fun e he=>?_,h.mapSize,
  h.small,?_,fun j hj=>?_,counted,h.fixed⟩
 · exact (h.meets.2 s).2 e (sub (mem_append_right _ he))
 · exact h.proper e (sub (mem_append_right _ he))
 · refine h.claimed.perm (((lives.flatMap_right extent).append_right spare).trans ?_)
   rw[flatMap_append]
   have own:(if i.removed then [(i.sector,i.data)] else []).flatMap extent=
     if i.removed then extent (i.sector,i.data) else []:=by
    cases i.removed<;>simp
   rw[own,←append_assoc]
   exact perm_append_comm.append_right _
 · obtain ⟨hj,hne⟩:=(mem_erase h.counted.wf.ids).1 hj
   rcases mem_append.1 (h.opened j hj) with hs|hc
   · exact mem_append_left _ hs
   · obtain ⟨k,hk,hr,he⟩:=mem_condemned.1 hc
     have same:=inj_on_of_nodup_map h.counted.wf.sectors hk hj (Prod.mk.inj he).1
     subst same
     exact mem_append_right _ (mem_condemned.2
      ⟨k,(mem_erase h.counted.wf.ids).2 ⟨hk,hne⟩,hr,rfl⟩)

end Pintos.Filesys
