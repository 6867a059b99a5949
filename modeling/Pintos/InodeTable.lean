import Mathlib.Algebra.Group.Int.Defs
import Pintos.ExecRuns
import Pintos.KeyedList

/-! The table of open inodes of `filesys/inode.c`. A `struct inode *` is the
number of the object it points to; objects are numbered as they are allocated.
Counters of openers are unbounded integers. -/
namespace Pintos.InodeTable
open ExecRuns List KeyedList

/-- The members of `struct inode_disk` in use. -/
structure InodeDisk where
 start:ℕ
 length:ℤ
 magic:ℕ
 deriving DecidableEq,Repr

/-- `DIV_ROUND_UP` on an `off_t`, in which the sum wraps around, as a `size_t`. -/
def bytesToSectors (size:ℤ):ℕ:=(((size+511).bmod 4294967296).tdiv 512%2^32).toNat

structure Inode where
 id:ℕ
 sector:ℕ
 openCnt:ℤ
 removed:Bool
 denyWriteCnt:ℤ
 data:InodeDisk
 deriving DecidableEq,Repr

structure Table where
 openInodes:List Inode
 nextId:ℕ
 deriving DecidableEq,Repr

def Table.find (t:Table)(p:ℕ):Option Inode:=KeyedList.find Inode.id p t.openInodes
def Table.set (t:Table)(p:ℕ)(f:Inode→Inode):Table:=
 {t with openInodes:=KeyedList.set Inode.id p f t.openInodes}

/-- Without a result the pointer does not point to an open inode. -/
def inodeReopen (t:Table):Option ℕ→Option (Option ℕ×Table)
 | none=>some (none,t)
 | some p=>
  (t.find p).map fun _=>(some p,t.set p (fun i=>{i with openCnt:=i.openCnt+1}))

def openedAt (t:Table)(sector:ℕ):Option Inode:=KeyedList.find Inode.sector sector t.openInodes
def pushInode (t:Table)(sector:ℕ)(data:InodeDisk):ℕ×Table:=
 (t.nextId,⟨⟨t.nextId,sector,1,false,0,data⟩::t.openInodes,t.nextId+1⟩)

/-- `memory` tells whether `malloc` succeeds, `data` is the header on disk. -/
def inodeOpen (t:Table)(sector:ℕ)(memory:Bool)(data:InodeDisk):Option ℕ×Table:=
 match openedAt t sector with
 | some i=>(some i.id,t.set i.id (fun i=>{i with openCnt:=i.openCnt+1}))
 | none=>
  if memory then
   let (p,t):=pushInode t sector data
   (some p,t)
  else (none,t)

def inodeRemove (t:Table)(p:ℕ):Option Table:=
 (t.find p).map fun _=>t.set p (fun i=>{i with removed:=true})
def Inode.extent (i:Inode):List (ℕ×ℕ):= [(i.sector,1),(i.data.start,bytesToSectors i.data.length)]

/-- The calls of `free_map_release` that a close makes, and the table after it. -/
def inodeClose (t:Table):Option ℕ→Option (List (ℕ×ℕ)×Table)
 | none=>some ([],t)
 | some p=>
  (t.find p).map fun i=>
   if i.openCnt-1=0 then
    (if i.removed then i.extent else [],
     {t with openInodes:=KeyedList.erase Inode.id p t.openInodes})
   else ([],t.set p (fun i=>{i with openCnt:=i.openCnt-1}))

section
variable {t:Table}{p:ℕ}{i:Inode}

/-- No two open inodes are one object or on one sector, and all were allocated. -/
structure Table.WF (t:Table):Prop where
 ids:(t.openInodes.map (·.id)).Nodup
 sectors:(t.openInodes.map (·.sector)).Nodup
 bound:∀i∈t.openInodes,i.id<t.nextId

lemma Table.WF.find_eq_some (w:t.WF):t.find p=some i ↔ i∈t.openInodes ∧ i.id=p:=
 KeyedList.find_eq_some w.ids

lemma Table.WF.set (w:t.WF){f:Inode→Inode}
 (keep:∀i,(f i).id=i.id ∧ (f i).sector=i.sector):(t.set p f).WF:=by
 have ids:(t.set p f).openInodes.map (·.id)=t.openInodes.map (·.id):=
  KeyedList.map_set (fun i=>(keep i).1)
 have sectors:(t.set p f).openInodes.map (·.sector)=t.openInodes.map (·.sector):=
  KeyedList.map_set (fun i=>(keep i).2)
 refine ⟨by rw[ids];exact w.ids,by rw[sectors];exact w.sectors,fun j hj=>?_⟩
 have hj':j.id∈t.openInodes.map (·.id):=by
  rw[←ids]
  exact List.mem_map_of_mem hj
 obtain ⟨i,hi,he⟩:=List.mem_map.1 hj'
 rw[←he]
 exact w.bound i hi

lemma Table.WF.push (w:t.WF){sector:ℕ}{data:InodeDisk}
 (fresh:openedAt t sector=none):(pushInode t sector data).2.WF:=by
 have hs:=find_eq_none.1 fresh
 refine ⟨nodup_cons.2 ⟨?_,w.ids⟩,nodup_cons.2 ⟨?_,w.sectors⟩,?_⟩
 · intro h
   obtain ⟨i,hi,he⟩:=List.mem_map.1 h
   have:=w.bound i hi
   simp only at he
   omega
 · intro h
   obtain ⟨i,hi,he⟩:=List.mem_map.1 h
   exact hs i hi he
 · intro i hi
   change i.id<t.nextId+1
   rcases mem_cons.1 hi with rfl|hi
   · exact Nat.lt_succ_self _
   · have:=w.bound i hi
     omega

lemma Table.WF.erase (w:t.WF):
 ({t with openInodes:=KeyedList.erase Inode.id p t.openInodes}:Table).WF:=
 have sub:(KeyedList.erase Inode.id p t.openInodes).Sublist t.openInodes:=erase_sublist
 ⟨(sub.map _).nodup w.ids,(sub.map _).nodup w.sectors,fun i hi=>w.bound i (sub.subset hi)⟩

end

/-- The number of references to an object. A reference is the sector that was
opened and the object that was got for it. -/
def openers (refs:List (ℕ×ℕ))(p:ℕ):ℕ:=refs.countP (fun r=>r.2=p)

/-- The open inodes count the references, and the references are good. -/
structure Counted (t:Table)(refs:List (ℕ×ℕ)):Prop where
 wf:t.WF
 count:∀i∈t.openInodes,i.openCnt=openers refs i.id ∧ 1≤openers refs i.id
 held:∀r∈refs,∃i∈t.openInodes,i.id=r.2 ∧ i.sector=r.1
variable {t:Table}{refs refs':List (ℕ×ℕ)}{r:ℕ×ℕ}{i:Inode}{p:ℕ}

lemma openers_cons (r:ℕ×ℕ)(refs:List (ℕ×ℕ))(p:ℕ):
 openers (r::refs) p=openers refs p+if r.2=p then 1 else 0:=by
 simp[openers,countP_cons]
lemma openers_pos (hr:r∈refs):1≤openers refs r.2:=countP_pos_iff.2 ⟨r,hr,by simp⟩

section
variable (h:Counted t refs)
include h

lemma Counted.perm (same:refs.Perm refs'):Counted t refs':=by
 refine ⟨h.wf,fun i hi=>?_,fun r hr=>h.held r (same.mem_iff.2 hr)⟩
 have:openers refs' i.id=openers refs i.id:=same.symm.countP_eq _
 rw[this]
 exact h.count i hi

lemma Counted.openers_new (hp:t.nextId≤p):openers refs p=0:=by
 unfold openers
 rw[countP_eq_zero]
 intro r hr
 obtain ⟨i,hi,hid,-⟩:=h.held r hr
 have:=h.wf.bound i hi
 simp only[decide_eq_true_eq]
 omega

lemma Counted.find (hr:r∈refs):∃i∈t.openInodes,i.id=r.2 ∧ i.sector=r.1 ∧ t.find r.2=some i:=by
 obtain ⟨i,hi,hid,hs⟩:=h.held r hr
 exact ⟨i,hi,hid,hs,h.wf.find_eq_some.2 ⟨hi,hid⟩⟩

lemma Counted.change {f:Inode→Inode}(keep:∀i,(f i).id=i.id ∧ (f i).sector=i.sector)
 (held:∀r∈refs',∃i∈t.openInodes,i.id=r.2 ∧ i.sector=r.1)
 (own:∀i∈t.openInodes,i.id=p → (f i).openCnt=openers refs' p ∧ 1≤openers refs' p)
 (other:∀q,q≠p → openers refs' q=openers refs q):Counted (t.set p f) refs':=by
 refine ⟨h.wf.set keep,fun j hj=>?_,fun r hr=>?_⟩
 · obtain ⟨i,hi,⟨hp,rfl⟩|⟨hp,rfl⟩⟩:=mem_set.1 hj
   · rw[(keep i).1,hp]
     exact own i hi hp
   · rw[other j.id hp]
     exact h.count j hi
 · obtain ⟨i,hi,hid,hs⟩:=held r hr
   by_cases hp:i.id=p
   · exact ⟨f i,mem_set.2 ⟨i,hi,.inl ⟨hp,rfl⟩⟩,by rw[(keep i).1,hid],by rw[(keep i).2,hs]⟩
   · exact ⟨i,mem_set.2 ⟨i,hi,.inr ⟨hp,rfl⟩⟩,hid,hs⟩

lemma Counted.touch {f:Inode→Inode}
 (keep:∀i,(f i).id=i.id ∧ (f i).sector=i.sector ∧ (f i).openCnt=i.openCnt):
 Counted (t.set p f) refs:=by
 refine h.change (fun i=>⟨(keep i).1,(keep i).2.1⟩) h.held ?_ (fun _ _=>rfl)
 intro i hi hp
 rw[(keep i).2.2,←hp]
 exact h.count i hi

lemma Counted.addRef (hi:i∈t.openInodes):
 Counted (t.set i.id (fun i=>{i with openCnt:=i.openCnt+1})) ((i.sector,i.id)::refs):=by
 refine h.change (fun _=>⟨rfl,rfl⟩) ?_ ?_ ?_
 · intro r hr
   rcases mem_cons.1 hr with rfl|hr
   · exact ⟨i,hi,rfl,rfl⟩
   · exact h.held r hr
 · intro j hj he
   have hc:=(h.count j hj).1
   rw[he] at hc
   rw[openers_cons,if_pos rfl]
   refine ⟨?_,by omega⟩
   rw[hc]
   rfl
 · intro q hq
   rw[openers_cons,if_neg (Ne.symm hq)]
   rfl

lemma Counted.push {sector:ℕ}(data:InodeDisk)(fresh:openedAt t sector=none):
 Counted (pushInode t sector data).2 ((sector,t.nextId)::refs):=by
 refine ⟨h.wf.push fresh,fun i hi=>?_,fun r hr=>?_⟩
 · rw[openers_cons]
   rcases mem_cons.1 hi with rfl|hi
   · rw[h.openers_new (Nat.le_refl _),if_pos rfl]
     exact ⟨rfl,Nat.le_refl _⟩
   · have hb:=h.wf.bound i hi
     rw[if_neg (by omega)]
     exact h.count i hi
 · rcases mem_cons.1 hr with rfl|hr
   · exact ⟨_,mem_cons_self,rfl,rfl⟩
   · obtain ⟨i,hi,he⟩:=h.held r hr
     exact ⟨i,mem_cons_of_mem _ hi,he⟩

end

variable (h:Counted t (r::refs))(hi:i∈t.openInodes)(hid:i.id=r.2)
include h hi hid

lemma Counted.closeShared (shared:i.openCnt-1≠0):
 Counted (t.set r.2 (fun i=>{i with openCnt:=i.openCnt-1})) refs:=by
 obtain ⟨hc,-⟩:=h.count i hi
 rw[hid,openers_cons,if_pos rfl] at hc
 refine h.change (fun _=>⟨rfl,rfl⟩) (fun r' hr'=>h.held r' (mem_cons_of_mem _ hr')) ?_ ?_
 · intro j hj he
   have hcj:=(h.count j hj).1
   rw[he,openers_cons,if_pos rfl] at hcj
   refine ⟨?_,by omega⟩
   change j.openCnt-1=_
   omega
 · intro q hq
   rw[openers_cons,if_neg (Ne.symm hq)]
   rfl

lemma Counted.closeLast (last:i.openCnt-1=0):openers refs r.2=0 ∧
  Counted {t with openInodes:=KeyedList.erase Inode.id r.2 t.openInodes} refs:=by
 obtain ⟨hc,-⟩:=h.count i hi
 rw[hid,openers_cons,if_pos rfl] at hc
 have none_left:openers refs r.2=0:=by omega
 have kept:∀j,j∈KeyedList.erase Inode.id r.2 t.openInodes ↔
   j∈t.openInodes ∧ j.id≠r.2:=fun j=>mem_erase h.wf.ids
 refine ⟨none_left,h.wf.erase,fun j hj=>?_,fun r' hr'=>?_⟩
 · obtain ⟨hj,hne⟩:=(kept j).1 hj
   have:=h.count j hj
   rwa[openers_cons,if_neg (Ne.symm hne),Nat.add_zero] at this
 · obtain ⟨j,hj,hjid,hs⟩:=h.held r' (mem_cons_of_mem _ hr')
   refine ⟨j,(kept j).2 ⟨hj,fun he=>?_⟩,hjid,hs⟩
   have:=openers_pos hr'
   rw[←hjid,he] at this
   omega

end Pintos.InodeTable
