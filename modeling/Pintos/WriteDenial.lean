import Pintos.FileCalls

namespace Pintos.WriteDenial
open ExecHoare ExecRuns Cache InodeTable InodeData Filesys FileCalls List Option KeyedList

def deniers (files:List File)(p:ℕ):ℕ:=files.countP (fun f=>f.inode=p ∧ f.denyWrite=true)

/-- The open inodes count the files on them and the other references `refs`, and
they count the files that deny writes. -/
structure Balanced (refs:List (ℕ×ℕ))(t:Table)(files:List File)(next:ℕ):Prop where
 ids:(files.map File.id).Nodup
 bound:∀f∈files,f.id<next
 counted:∃held,held.map (·.2)=files.map File.inode ∧ Counted t (held++refs)
 denied:∀i∈t.openInodes,i.denyWriteCnt=deniers files i.id

section
variable {refs held:List (ℕ×ℕ)}{t:Table}{files:List File}{file:File}{next:ℕ}{i:Inode}{r:ℕ×ℕ}

lemma openers_held (same:held.map (·.2)=files.map File.inode)(p:ℕ):
 openers held p=files.countP (fun f=>f.inode=p):=by
 have ids:openers held p=(held.map (·.2)).countP (fun q=>q=p):=by
  rw[countP_map]
  rfl
 rw[ids,same,countP_map]
 rfl

lemma deniers_le (same:held.map (·.2)=files.map File.inode)(p:ℕ):
 deniers files p≤openers (held++refs) p:=by
 have own:deniers files p≤openers held p:=by
  rw[openers_held same]
  apply countP_mono_left
  intro f _ hf
  simp only[decide_eq_true_eq] at hf ⊢
  exact hf.1
 have more:openers (held++refs) p=openers held p+openers refs p:=countP_append
 omega

section
variable (h:Balanced refs t files next)
include h

lemma Balanced.wf:t.WF:=by
 obtain ⟨held,-,counted⟩:=h.counted
 exact counted.wf
lemma Balanced.denied_le (hi:i∈t.openInodes):i.denyWriteCnt ≤ i.openCnt:=by
 obtain ⟨held,same,counted⟩:=h.counted
 rw[h.denied i hi,(counted.count i hi).1]
 exact_mod_cast deniers_le same i.id

lemma Balanced.inode (hf:file∈files):∃i∈t.openInodes,i.id=file.inode ∧ t.find file.inode=some i:=by
 obtain ⟨held,same,counted⟩:=h.counted
 have there:file.inode∈held.map (·.2):=by
  rw[same]
  exact List.mem_map_of_mem hf
 obtain ⟨r,hr,hid⟩:=List.mem_map.1 there
 obtain ⟨i,hi,hi',-,found⟩:=counted.find (mem_append_left _ hr)
 rw[hid] at hi' found
 exact ⟨i,hi,hi',found⟩

lemma deniers_new {p:ℕ}(new:t.nextId≤p):deniers files p=0:=by
 obtain ⟨held,same,counted⟩:=h.counted
 have none:openers (held++refs) p=0:=counted.openers_new new
 have fewer:deniers files p≤openers (held++refs) p:=deniers_le same p
 omega

end

variable {t':Table}

section
variable (h:Balanced refs t files next)
include h

lemma Balanced.recount {refs':List (ℕ×ℕ)}{p:ℕ}
 {f:Inode→Inode}(keep:∀i,(f i).id=i.id ∧ (f i).denyWriteCnt=i.denyWriteCnt)
 (counted:∀held,Counted t (held++refs) → Counted (t.set p f) (held++refs')):
 Balanced refs' (t.set p f) files next:=by
 obtain ⟨held,same,old⟩:=h.counted
 refine ⟨h.ids,h.bound,⟨held,same,counted held old⟩,fun j hj=>?_⟩
 obtain ⟨i,hi,⟨-,rfl⟩|⟨-,rfl⟩⟩:=mem_set.1 hj
 · rw[(keep i).1,(keep i).2]
   exact h.denied i hi
 · exact h.denied j hi

lemma Balanced.addRef (hi:i∈t.openInodes):
 Balanced ((i.sector,i.id)::refs) (t.set i.id (fun i=>{i with openCnt:=i.openCnt+1})) files next:=
 h.recount (fun _=>⟨rfl,rfl⟩) fun _ counted=>
  (counted.addRef hi).perm perm_middle.symm

lemma Balanced.push {sector:ℕ}(data:InodeDisk)(fresh:openedAt t sector=none):
 Balanced ((sector,t.nextId)::refs) (pushInode t sector data).2 files next:=by
 obtain ⟨held,same,counted⟩:=h.counted
 refine ⟨h.ids,h.bound,⟨held,same,?_⟩,fun j hj=>?_⟩
 · exact (counted.push data fresh).perm perm_middle.symm
 · rcases mem_cons.1 hj with rfl|hj
   · rw[deniers_new h (Nat.le_refl _)]
     rfl
   · exact h.denied j hj

lemma Balanced.inodeOpen (sector:ℕ)(memory:Bool)(data:InodeDisk):
 Balanced (((InodeTable.inodeOpen t sector memory data).1.map (sector,·)).toList++refs)
  (InodeTable.inodeOpen t sector memory data).2 files next:=by
 unfold InodeTable.inodeOpen
 cases ho:openedAt t sector with
 | some i=>
  obtain ⟨hi,rfl⟩:=find_mem ho
  exact h.addRef hi
 | none=>
  cases memory with
  | true=>exact h.push data ho
  | false=>exact h

lemma Balanced.inodeReopen (hf:file∈files):
 ∃s t',InodeTable.inodeReopen t (some file.inode)=some (some file.inode,t') ∧
  Balanced ((s,file.inode)::refs) t' files next:=by
 obtain ⟨i,hi,hid,found⟩:=h.inode hf
 have added:=h.addRef hi
 rw[hid] at added
 refine ⟨i.sector,_,?_,added⟩
 simp only[InodeTable.inodeReopen,found,map_some]

lemma Balanced.inodeRemove (hr:r∈refs):
 ∃t',InodeTable.inodeRemove t r.2=some t' ∧ Balanced refs t' files next:=by
 obtain ⟨held,same,counted⟩:=h.counted
 obtain ⟨i,-,-,-,found⟩:=counted.find (mem_append_right _ hr)
 refine ⟨t.set r.2 (fun i=>{i with removed:=true}),?_,?_⟩
 · simp only[InodeTable.inodeRemove,found,map_some]
 · exact h.recount (fun _=>⟨rfl,rfl⟩) fun _ old=>old.touch (fun _=>⟨rfl,rfl,rfl⟩)

end

lemma Balanced.inodeClose (h:Balanced (r::refs) t files next):
 ∃ranges t',InodeTable.inodeClose t (some r.2)=some (ranges,t') ∧ Balanced refs t' files next:=by
 obtain ⟨held,same,counted⟩:=h.counted
 have first:=counted.perm perm_middle
 obtain ⟨i,hi,hid,-,found⟩:=first.find mem_cons_self
 simp only[InodeTable.inodeClose,found,map_some]
 by_cases last:i.openCnt-1=0
 · rw[if_pos last]
   refine ⟨_,_,rfl,h.ids,h.bound,⟨held,same,(first.closeLast hi hid last).2⟩,?_⟩
   intro j hj
   exact h.denied j (erase_sublist.subset hj)
 · rw[if_neg last]
   refine ⟨_,_,rfl,h.recount (fun _=>⟨rfl,rfl⟩) fun held' counted'=>?_⟩
   exact (counted'.perm perm_middle).closeShared hi hid last

lemma Balanced.newFile (h:Balanced (r::refs) t files next):
 Balanced refs t (⟨next,r.2,0,false⟩::files) (next+1):=by
 obtain ⟨held,same,counted⟩:=h.counted
 refine ⟨nodup_cons.2 ⟨?_,h.ids⟩,?_,⟨r::held,?_,counted.perm perm_middle⟩,?_⟩
 · intro hm
   obtain ⟨f,hf,he⟩:=List.mem_map.1 hm
   have:=h.bound f hf
   dsimp only at he
   omega
 · intro f hf
   rcases mem_cons.1 hf with rfl|hf
   · exact Nat.lt_succ_self _
   · exact (h.bound f hf).trans (Nat.lt_succ_self _)
 · rw[map_cons,map_cons,same]
 · intro i hi
   rw[h.denied i hi]
   simp[deniers]

lemma Balanced.drop (h:Balanced refs t files next)(hf:file∈files)(writable:file.denyWrite=false):
 ∃s,Balanced ((s,file.inode)::refs) t (KeyedList.erase File.id file.id files) next:=by
 obtain ⟨held,same,counted⟩:=h.counted
 obtain ⟨l₁,l₂,rfl,-,erased⟩:=exists_split h.ids hf
 rw[erased]
 have sub:(l₁++l₂).Sublist (l₁++file::l₂):=Sublist.append_left (sublist_cons_self file l₂) l₁
 rw[map_append,map_cons] at same
 obtain ⟨h₁,rest,rfl,same₁,same₂⟩:=map_eq_append_iff.1 same
 obtain ⟨r,h₂,rfl,hr,same₃⟩:=map_eq_cons_iff.1 same₂
 obtain ⟨s,p⟩:=r
 obtain rfl:p=file.inode:=hr
 refine ⟨s,(sub.map _).nodup h.ids,fun f hf=>h.bound f (sub.subset hf),⟨h₁++h₂,?_,?_⟩,?_⟩
 · rw[map_append,map_append,same₁,same₃]
 · refine counted.perm ?_
   rw[append_assoc,append_assoc,cons_append]
   exact (perm_middle.symm).append_left h₁
 · intro i hi
   rw[h.denied i hi]
   simp[deniers,writable]

lemma deniers_set (ids:(files.map File.id).Nodup)(hf:file∈files){g:File→File}
 (keep:(g file).inode=file.inode)(p:ℕ):
 deniers (KeyedList.set File.id file.id g files) p +
   (if file.inode=p then file.denyWrite.toNat else 0)=
  deniers files p+if file.inode=p then (g file).denyWrite.toNat else 0:=by
 obtain ⟨l₁,l₂,rfl,set,-⟩:=exists_split ids hf
 rw[set g]
 simp only[deniers,countP_append,countP_cons,keep]
 by_cases hp:file.inode=p
 · cases file.denyWrite<;>cases (g file).denyWrite<;>simp[hp]<;>omega
 · simp[hp]

lemma Balanced.change (h:Balanced refs t files next)(hf:file∈files){g:File→File}
 {f:Inode→Inode}(keep:∀file,(g file).id=file.id ∧ (g file).inode=file.inode)
 (keep':∀i,(f i).id=i.id ∧ (f i).sector=i.sector ∧ (f i).openCnt=i.openCnt)
 (moves:∀i,(f i).denyWriteCnt+file.denyWrite.toNat=i.denyWriteCnt+(g file).denyWrite.toNat):
 Balanced refs (t.set file.inode f) (KeyedList.set File.id file.id g files) next:=by
 obtain ⟨held,same,counted⟩:=h.counted
 have ids:(KeyedList.set File.id file.id g files).map File.id=files.map File.id:=
  KeyedList.map_set fun f=>(keep f).1
 have inodes:(KeyedList.set File.id file.id g files).map File.inode=files.map File.inode:=
  KeyedList.map_set fun f=>(keep f).2
 refine ⟨by rw[ids];exact h.ids,fun k hk=>?_,⟨held,by rw[inodes];exact same,
  counted.touch keep'⟩,fun j hj=>?_⟩
 · obtain ⟨k',hk',⟨-,rfl⟩|⟨-,rfl⟩⟩:=mem_set.1 hk
   · rw[(keep k').1]
     exact h.bound k' hk'
   · exact h.bound k hk'
 · have count:=deniers_set h.ids hf (keep file).2
   obtain ⟨i,hi,⟨hp,rfl⟩|⟨hp,rfl⟩⟩:=mem_set.1 hj
   · have now:=count file.inode
     have before:=h.denied i hi
     have move:=moves i
     rw[(keep' i).1,hp]
     rw[hp] at before
     rw[if_pos rfl,if_pos rfl] at now
     omega
   · have now:=count j.id
     rw[if_neg (Ne.symm hp),if_neg (Ne.symm hp)] at now
     rw[h.denied j hi]
     omega

lemma Balanced.move (h:Balanced refs t files next)(hf:file∈files)(pos:ℤ):
 Balanced refs t (KeyedList.set File.id file.id (fun file=>{file with pos}) files) next:=by
 have same:t.set file.inode (fun i=>i)=t:=by
  simp[Table.set,KeyedList.set]
 have moved:=h.change hf (g:=fun file=>{file with pos}) (f:=fun i=>i)
  (fun _=>⟨rfl,rfl⟩) (fun _=>⟨rfl,rfl,rfl⟩) (fun _=>rfl)
 rwa[same] at moved

end

def At (refs:List (ℕ×ℕ))(fs:Fs):Prop:=Balanced refs fs.inodes fs.files fs.nextFile

section
variable {io: SectorIO}{refs:List (ℕ×ℕ)}{fs fs':Fs}{f:ℕ}{r:ℕ×ℕ}

lemma At.of_tables (h:At refs fs)(same:tables fs'=tables fs):At refs fs':=by
 obtain ⟨inodes,same⟩:=Prod.mk.inj same
 obtain ⟨files,next⟩:=Prod.mk.inj same
 unfold At
 rw[inodes,files,next]
 exact h

lemma At.file (h:At refs fs)(live:f∈fs.files.map File.id):
 ∃file∈fs.files,file.id=f ∧ KeyedList.find File.id f fs.files=some file:=by
 obtain ⟨file,hf,hid⟩:=List.mem_map.1 live
 exact ⟨file,hf,hid,(find_eq_some h.ids).2 ⟨hf,hid⟩⟩

lemma inodeOpen_at (h:At refs fs)(sector:ℕ):Holds (Filesys.inodeOpen sector) fs
  (fun p fs'=>At ((p.map (sector,·)).toList++refs) fs') AnyFault:=by
 unfold Filesys.inodeOpen
 rw[holds_bind,holds_get]
 cases openedAt fs.inodes sector with
 | some i=>exact Balanced.inodeOpen h sector true i.data
 | none=>
  refine (keeps_onDevice (v:=tables) _ fs).seq fun ok fs₁ same=>?_
  cases ok with
  | false=>exact h.of_tables same
  | true=>
   refine (keeps_onDevice (v:=tables) _ fs₁).seq fun header fs₂ same'=>?_
   exact Balanced.inodeOpen (h.of_tables (same'.trans same)) sector true (decodeInode header)

lemma inodeRemove_at (h:At refs fs)(hr:r∈refs):
 Holds (Filesys.inodeRemove r.2) fs (fun _ fs'=>At refs fs') AnyFault:=by
 obtain ⟨t,removed,balanced⟩:=Balanced.inodeRemove h hr
 unfold Filesys.inodeRemove
 rw[holds_bind,holds_get,holds_bind,holds_orFault removed]
 exact balanced

lemma inodeClose_keeps {files:List File}(h:Balanced (r::refs) fs.inodes files fs.nextFile):
 Holds (Filesys.inodeClose io (some r.2)) fs (fun _ fs'=>
  fs'.files=fs.files ∧ Balanced refs fs'.inodes files fs'.nextFile) AnyFault:=by
 obtain ⟨ranges,t,closed,balanced⟩:=h.inodeClose
 unfold Filesys.inodeClose
 rw[holds_bind,holds_get,holds_bind,holds_orFault closed,holds_bind,holds_set]
 refine (keeps_releaseAll (v:=tables) ranges _).imp fun _ fs' same=>?_
 obtain ⟨inodes,same⟩:=Prod.mk.inj same
 obtain ⟨files',next⟩:=Prod.mk.inj same
 rw[inodes,files',next]
 exact ⟨rfl,balanced⟩

lemma inodeClose_at (h:At (r::refs) fs):
 Holds (Filesys.inodeClose io (some r.2)) fs (fun _ fs'=>At refs fs') AnyFault:=by
 refine (inodeClose_keeps h).imp ?_
 rintro _ fs' ⟨files,balanced⟩
 unfold At
 rw[files]
 exact balanced

lemma fileOpen_at (h:At (r::refs) fs):
 Holds (Filesys.fileOpen io (some r.2)) fs (fun _ fs'=>At refs fs') AnyFault:=by
 refine (keeps_onDevice (v:=tables) _ fs).seq fun ok fs₁ same=>?_
 have h₁:=h.of_tables same
 cases ok with
 | true=>exact Balanced.newFile h₁
 | false=>exact (inodeClose_at h₁).seq fun _ fs₂ h₂=>h₂

lemma fileReopen_at (h:At refs fs)(live:f∈fs.files.map File.id):
 Holds (Filesys.fileReopen io f) fs (fun _ fs'=>At refs fs') AnyFault:=by
 obtain ⟨file,hf,-,found⟩:=h.file live
 obtain ⟨s,t,opened,balanced⟩:=Balanced.inodeReopen h hf
 unfold Filesys.fileReopen Filesys.inodeReopen
 rw[holds_bind,holds_theFile found,holds_bind,holds_bind,holds_get,holds_bind,holds_orFault opened]
 exact fileOpen_at (r:=(s,file.inode)) balanced

lemma holds_inodeDenyWrite {p:ℕ}{i:Inode}(there:fs.inodes.find p=some i)
 (counted:i.denyWriteCnt+1 ≤ i.openCnt){Q:Unit→Fs→Prop}{E:Fault→Prop}:
 Holds (inodeDenyWrite p) fs Q E ↔ Q () {fs with
  inodes:=fs.inodes.set p (fun i=>{i with denyWriteCnt:=i.denyWriteCnt+1})}:=by
 unfold inodeDenyWrite
 rw[holds_bind,holds_theInode there,holds_bind,holds_modify,if_pos counted,holds_pure]

lemma holds_inodeAllowWrite {p:ℕ}{i:Inode}(there:fs.inodes.find p=some i)
 (counted:0 < i.denyWriteCnt ∧ i.denyWriteCnt ≤ i.openCnt){Q:Unit→Fs→Prop}
 {E:Fault→Prop}:
 Holds (inodeAllowWrite p) fs Q E ↔ Q () {fs with
  inodes:=fs.inodes.set p (fun i=>{i with denyWriteCnt:=i.denyWriteCnt-1})}:=by
 unfold inodeAllowWrite
 rw[holds_bind,holds_theInode there,if_pos counted,holds_modify]

variable (h:At refs fs)(live:f∈fs.files.map File.id)
include h live

lemma fileDenyWrite_at:Holds (fileDenyWrite f) fs (fun _ fs'=>At refs fs') NoFault:=by
 obtain ⟨file,hf,rfl,found⟩:=h.file live
 unfold fileDenyWrite
 rw[holds_bind,holds_theFile found]
 cases flag:file.denyWrite with
 | true=>exact h
 | false=>
  obtain ⟨i,hi,hid,there⟩:=Balanced.inode h hf
  have after:At refs {fs with
    files:=KeyedList.set File.id file.id
     (fun file=>{file with denyWrite:=true}) fs.files
    inodes:=fs.inodes.set file.inode
     (fun i=>{i with denyWriteCnt:=i.denyWriteCnt+1})}:=by
   refine Balanced.change h hf (fun _=>⟨rfl,rfl⟩) (fun _=>⟨rfl,rfl,rfl⟩) fun i=>?_
   rw[flag]
   change i.denyWriteCnt+1+0=i.denyWriteCnt+1
   omega
  have counted:i.denyWriteCnt+1 ≤ i.openCnt:=
   Balanced.denied_le after (i:={i with denyWriteCnt:=i.denyWriteCnt+1})
    (mem_set.2 ⟨i,hi,.inl ⟨hid,rfl⟩⟩)
  refine (holds_inodeDenyWrite ?_ counted).2 after
  exact there

lemma fileAllowWrite_at:Holds (fileAllowWrite f) fs (fun _ fs'=>At refs fs' ∧ fs'.files=
  KeyedList.set File.id f (fun file=>{file with denyWrite:=false}) fs.files) NoFault:=by
 obtain ⟨file,hf,rfl,found⟩:=h.file live
 unfold fileAllowWrite
 rw[holds_bind,holds_theFile found]
 cases flag:file.denyWrite with
 | false=>
  refine ⟨h,?_⟩
  obtain ⟨l₁,l₂,split,set,-⟩:=exists_split h.ids hf
  have same:{file with denyWrite:=false}=file:=by rw[←flag]
  rw[set,same]
  exact split
 | true=>
  obtain ⟨i,hi,hid,there⟩:=Balanced.inode h hf
  have positive:0 < i.denyWriteCnt:=by
   rw[Balanced.denied h i hi,hid]
   refine Int.natCast_pos.2 (countP_pos_iff.2 ⟨file,hf,?_⟩)
   simp[flag]
  have after:At refs {fs with
    files:=KeyedList.set File.id file.id
     (fun file=>{file with denyWrite:=false}) fs.files
    inodes:=fs.inodes.set file.inode
     (fun i=>{i with denyWriteCnt:=i.denyWriteCnt-1})}:=by
   refine Balanced.change h hf (fun _=>⟨rfl,rfl⟩) (fun _=>⟨rfl,rfl,rfl⟩) fun i=>?_
   rw[flag]
   change i.denyWriteCnt-1+1=i.denyWriteCnt+0
   omega
  refine (holds_inodeAllowWrite ?_ ⟨positive,Balanced.denied_le h hi⟩).2 ⟨after,rfl⟩
  exact there

lemma fileClose_at:Holds (Filesys.fileClose io (some f)) fs (fun _ fs'=>At refs fs') AnyFault:=by
 refine (fileAllowWrite_at h live).any.seq ?_
 rintro _ fs₁ ⟨h₁,files⟩
 have live₁:f∈fs₁.files.map File.id:=by
  have ids:(KeyedList.set File.id f (fun file=>{file with denyWrite:=false})
    fs.files).map File.id=fs.files.map File.id:=KeyedList.map_set fun _=>rfl
  rw[files,ids]
  exact live
 obtain ⟨file,hf,rfl,found⟩:=h₁.file live₁
 have writable:file.denyWrite=false:=by
  rw[files] at hf
  obtain ⟨file₀,-,⟨-,rfl⟩|⟨other,rfl⟩⟩:=mem_set.1 hf
  · rfl
  · exact absurd rfl other
 obtain ⟨s,dropped⟩:=Balanced.drop h₁ hf writable
 rw[holds_bind,holds_theFile found]
 refine (inodeClose_keeps (r:=(s,file.inode)) dropped).seq ?_
 rintro _ fs₂ ⟨files',balanced⟩
 rw[holds_modify,files']
 exact balanced

lemma fileWrite_at (buffer:ℕ→UInt8)
 (size:ℤ):Holds (fileWrite io f buffer size) fs (fun _ fs'=>At refs fs') AnyFault:=by
 obtain ⟨file,hf,rfl,found⟩:=h.file live
 unfold fileWrite
 rw[holds_bind,holds_theFile found]
 refine (keeps_inodeWriteAt (v:=tables) file.inode buffer size _ fs).seq fun n fs₁ same=>?_
 have h₁:=h.of_tables same
 have hf₁:file∈fs₁.files:=by
  rw[show fs₁.files=fs.files from congrArg (fun t=>t.2.1) same]
  exact hf
 exact Balanced.move h₁ hf₁ _

end

/-- The file system, and the references that `inode_open` gave out and that are
neither closed nor held by a file. -/
structure Client where
 fs:Fs
 refs:List (ℕ×ℕ)

inductive Act where
 | inodeOpen (sector:ℕ)
 | inodeRemove (ref:ℕ×ℕ)
 | inodeClose (ref:ℕ×ℕ)
 | fileOpen (ref:ℕ×ℕ)
 | fileReopen (f:ℕ)
 | fileDenyWrite (f:ℕ)
 | fileAllowWrite (f:ℕ)
 | fileWrite (f:ℕ) (buffer:ℕ→UInt8) (size:ℤ)
 | fileClose (f:ℕ)

def next (io: SectorIO)(c:Client):Act→Option Client
 | .inodeOpen sector=>(result (Filesys.inodeOpen sector) c.fs).map fun r=>
  ⟨r.2,(r.1.map (sector,·)).toList++c.refs⟩
 | .inodeRemove ref=>(result (Filesys.inodeRemove ref.2) c.fs).map fun r=>⟨r.2,c.refs⟩
 | .inodeClose ref=>(result (Filesys.inodeClose io (some ref.2)) c.fs).map fun r=>
  ⟨r.2,c.refs.erase ref⟩
 | .fileOpen ref=>(result (Filesys.fileOpen io (some ref.2)) c.fs).map fun r=>
  ⟨r.2,c.refs.erase ref⟩
 | .fileReopen f=>(result (Filesys.fileReopen io f) c.fs).map fun r=>⟨r.2,c.refs⟩
 | .fileDenyWrite f=>(result (Filesys.fileDenyWrite f) c.fs).map fun r=>⟨r.2,c.refs⟩
 | .fileAllowWrite f=>(result (Filesys.fileAllowWrite f) c.fs).map fun r=>⟨r.2,c.refs⟩
 | .fileWrite f buffer size=>
  (result (FileCalls.fileWrite io f buffer size) c.fs).map fun r=>⟨r.2,c.refs⟩
 | .fileClose f=>(result (Filesys.fileClose io (some f)) c.fs).map fun r=>⟨r.2,c.refs⟩

/-- A call uses only files that are open, and references that are outstanding. -/
def Live (c:Client):Act→Prop
 | .inodeOpen _=>True
 | .inodeRemove ref | .inodeClose ref | .fileOpen ref=>ref∈c.refs
 | .fileReopen f | .fileDenyWrite f | .fileAllowWrite f | .fileWrite f _ _ | .fileClose f=>
  f∈c.fs.files.map File.id

instance (c:Client):∀a,Decidable (Live c a)
 | .inodeOpen _=>.isTrue trivial
 | .inodeRemove ref | .inodeClose ref | .fileOpen ref=>inferInstanceAs (Decidable (ref∈c.refs))
 | .fileReopen f | .fileDenyWrite f | .fileAllowWrite f | .fileWrite f _ _ | .fileClose f=>
  inferInstanceAs (Decidable (f∈c.fs.files.map File.id))

def Idle (c:Client):Prop:=c.fs.inodes.openInodes=[] ∧ c.fs.files=[] ∧ c.refs=[]

variable {io: SectorIO}{c u:Client}

lemma Idle.balanced (h:Idle c):At c.refs c.fs:=by
 obtain ⟨inodes,files,refs⟩:=h
 unfold At
 rw[files,refs]
 refine ⟨nodup_nil,fun f hf=>absurd hf not_mem_nil,⟨[],rfl,?_⟩,?_⟩
 · refine ⟨⟨?_,?_,?_⟩,?_,fun r hr=>absurd hr not_mem_nil⟩<;>simp[inodes]
 · simp[inodes]

lemma at_next {α:Type}{m:FsCmd α}{refs:α→List (ℕ×ℕ)}{E:Fault→Prop}
 (spec:Holds m c.fs (fun a fs'=>At (refs a) fs') E)
 (step:(result m c.fs).map (fun r=>⟨r.2,refs r.1⟩)=some u):At u.refs u.fs:=by
 obtain ⟨r,hr,rfl⟩:=map_eq_some_iff.1 step
 exact spec.result hr

lemma At.next (h:At c.refs c.fs){a:Act}(live:Live c a)
 (step:WriteDenial.next io c a=some u):At u.refs u.fs:=by
 have given:∀ref,ref∈c.refs → At (ref::c.refs.erase ref) c.fs:=by
  intro ref hr
  obtain ⟨held,same,counted⟩:=h.counted
  refine ⟨h.ids,h.bound,⟨held,same,counted.perm ?_⟩,h.denied⟩
  exact (perm_cons_erase hr).append_left held
 cases a with
 | inodeOpen sector=>exact at_next (inodeOpen_at h sector) step
 | inodeRemove ref=>exact at_next (inodeRemove_at h live) step
 | inodeClose ref=>exact at_next (inodeClose_at (given ref live)) step
 | fileOpen ref=>exact at_next (fileOpen_at (given ref live)) step
 | fileReopen f=>exact at_next (fileReopen_at h live) step
 | fileDenyWrite f=>exact at_next (fileDenyWrite_at h live) step
 | fileAllowWrite f=>exact at_next ((fileAllowWrite_at h live).imp fun _ _ h'=>h'.1) step
 | fileWrite f buffer size=>exact at_next (fileWrite_at h live buffer size) step
 | fileClose f=>exact at_next (fileClose_at h live) step

lemma inodeWriteAt_run {fs:Fs}{p:ℕ}{i:Inode}(found:fs.inodes.find p=some i)
 (buffer:ℕ→UInt8)(size:ℤ)(offset:ℕ):
 (inodeWriteAt io p buffer size offset).run fs=if i.denyWriteCnt≠0 then .ok (0,fs)
  else (onDevice (writeLoop io i.data buffer (size.toNat+1) size.toNat offset 0 false)).run fs:=by
 have run:(theInode p).run fs=.ok (i,fs):=by
  change (orFault .danglingPointer (fs.inodes.find p)).run fs=_
  rw[found]
  rfl
 unfold inodeWriteAt
 rw[StateT.run_bind,run]
 change (ite _ _ _:FsCmd ℕ).run fs=_
 split<;>rfl

/-- Every inode counts the files that deny writes to it, writes are refused where there is one,
and no assertion fails when a file denies or allows them. -/
theorem write_denial (idle:Idle c){acts:List Act}(run:Runs (next io) Live c acts u):
 (∀i∈u.fs.inodes.openInodes,(i.denyWriteCnt=deniers u.fs.files i.id ∧ i.denyWriteCnt ≤ i.openCnt) ∧
  ∀buffer size offset,(inodeWriteAt io i.id buffer size offset).run u.fs=
   if 0<deniers u.fs.files i.id then .ok (0,u.fs)
   else (onDevice (writeLoop io i.data buffer (size.toNat+1) size.toNat offset 0 false)).run u.fs) ∧
 ∀f∈u.fs.files.map File.id,(result (fileDenyWrite f) u.fs).isSome ∧
  (result (fileAllowWrite f) u.fs).isSome:=by
 have h:At u.refs u.fs:=by
  refine run.invariant (I:=fun c=>At c.refs c.fs) ?_ idle.balanced
  intro s a t hs live step
  exact hs.next live step
 refine ⟨fun i hi=>⟨⟨h.denied i hi,h.denied_le hi⟩,fun buffer size offset=>?_⟩,fun f live=>⟨?_,?_⟩⟩
 · have found:u.fs.inodes.find i.id=some i:=h.wf.find_eq_some.2 ⟨hi,rfl⟩
   rw[inodeWriteAt_run found,h.denied i hi]
   refine if_congr ?_ rfl rfl
   omega
 · obtain ⟨a,fs',ok,-⟩:=(fileDenyWrite_at h live).returns
   rw[result_eq_some.2 ok]
   rfl
 · obtain ⟨a,fs',ok,-⟩:=(fileAllowWrite_at h live).returns
   rw[result_eq_some.2 ok]
   rfl

def twoDeniers:List Act:=
 [.inodeOpen 1,.fileOpen (1,0),.fileReopen 0,.fileDenyWrite 0,.fileDenyWrite 0,
  .fileDenyWrite 1,.fileAllowWrite 1,.fileDenyWrite 1,.fileClose 0]

theorem write_denial_shared:∃u,Runs (next direct) Live ⟨boot (blankDevice id),[]⟩ twoDeniers u ∧
 deniers u.fs.files 0=1 ∧ ∀i∈u.fs.inodes.openInodes,
  i.denyWriteCnt=deniers u.fs.files i.id ∧ i.denyWriteCnt ≤ i.openCnt:=by
 have found:(exec (next direct) Live ⟨boot (blankDevice id),[]⟩ twoDeniers).any
   (fun u=>deniers u.fs.files 0=1)=true:=by
  decide +kernel
 obtain ⟨u,run,one⟩:=exec_any found
 have idle:Idle ⟨boot (blankDevice id),[]⟩:=⟨rfl,rfl,rfl⟩
 exact ⟨u,run,of_decide_eq_true one,fun i hi=>((write_denial idle run).1 i hi).1⟩

end Pintos.WriteDenial
