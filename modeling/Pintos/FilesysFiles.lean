import Pintos.FilesysOps

namespace Pintos.Filesys
open ExecHoare Bitmap Cache Directory InodeTable InodeData List KeyedList

def Fixed.push (F:Fixed)(p:ℕ):Fixed:=
 {F with files:=⟨F.nextFile,p,0,false⟩::F.files,nextFile:=F.nextFile+1}
def Fixed.close (F:Fixed)(f:ℕ):Fixed:={F with files:=KeyedList.erase File.id f F.files}

section
variable {M:Medium}{Y:ℕ→Cell→Prop}{stay:List Entry}{spare:List ℕ}
 {refs:List (ℕ×ℕ)}{F:Fixed}{fs:Fs}{r:ℕ×ℕ}{f:ℕ}{file:File}

lemma Core.refile (h:Core M Y stay spare refs F fs)(files:List File)(mapFile:Option ℕ)
 (next:ℕ):Core M Y stay spare refs ⟨F.size,files,mapFile,next,F.mallocOk⟩
  {fs with files:=files,freeMapFile:=mapFile,nextFile:=next} where
 meets:=h.meets
 proper:=h.proper
 mapSize:=h.mapSize
 small:=h.small
 claimed:=h.claimed
 opened:=h.opened
 counted:=h.counted
 fixed:=by simp only[Filesys.fixed,h.size,h.memory]

lemma Core.setMapFile (h:Core M Y stay spare refs F fs)(mapFile:Option ℕ):
 Core M Y stay spare refs {F with freeMapFile:=mapFile} {fs with freeMapFile:=mapFile}:=by
 obtain rfl:Filesys.fixed fs=F:=h.fixed
 exact h.refile fs.files mapFile fs.nextFile

lemma fileOpen_core (h:Core M Y stay spare (r::refs) F fs)
 (usable:Keeper M Y stay refs F ∨ ∃e∈stay,e.1=r.1):
 Holds (fileOpen M.toSectorIO (some r.2)) fs (fun f fs'=>match f with
  | none=>Core M Y stay spare refs F fs'
  | some f=>f=F.nextFile ∧ Core M Y stay spare (r::refs) (F.push r.2) fs') M.E:=by
 unfold fileOpen
 rw[holds_bind,holds_onDevice,holds_malloc]
 have core:=h.malloc (fs.dev.mallocs+1)
 cases fs.dev.mallocOk fs.dev.mallocs with
 | true=>
  have pushed:=core.refile (⟨F.nextFile,r.2,0,false⟩::F.files) F.freeMapFile (F.nextFile+1)
  obtain rfl:fixed fs=F:=h.fixed
  exact ⟨rfl,pushed⟩
 | false=>exact (inodeClose_core core usable).seq fun _ _ h=>h

lemma fileClose_core (h:Core M Y stay spare (r::refs) F fs)
 (hf:KeyedList.find File.id f F.files=some file)(hi:file.inode=r.2)
 (writable:file.denyWrite=false)
 (usable:Keeper M Y stay refs F ∨ ∃e∈stay,e.1=r.1):
 Holds (fileClose M.toSectorIO (some f)) fs (fun _ fs'=>
  Core M Y stay spare refs (F.close f) fs') M.E:=by
 have found:KeyedList.find File.id f fs.files=some file:=by
  rw[show fs.files=F.files from congrArg Fixed.files h.fixed]
  exact hf
 unfold fileClose fileAllowWrite
 rw[holds_bind,holds_bind,holds_theFile found,writable,if_neg Bool.false_ne_true,holds_pure,
  holds_bind,holds_theFile found,hi]
 refine (inodeClose_core h usable).seq ?_
 intro _ fs₁ core
 obtain rfl:fixed fs₁=F:=core.fixed
 exact core.refile (KeyedList.erase File.id f fs₁.files) fs₁.freeMapFile fs₁.nextFile

end

/-- The open files, each with the sector of the inode that it holds open: the
free map file on sector 0, the others on files of their own. -/
structure Handles (F:Fixed)(hs:List (ℕ×File)):Prop where
 files:F.files=hs.map (·.2)
 ids:(F.files.map (·.id)).Nodup
 bound:∀f∈F.files,f.id<F.nextFile
 writable:∀f∈F.files,f.denyWrite=false
 map:∃file,F.freeMapFile=some file.id ∧ (0,file)∈hs
 apart:∀h∈hs,F.freeMapFile≠some h.2.id → h.1≠0 ∧ h.1≠1

def held (hs:List (ℕ×File)):List (ℕ×ℕ):=hs.map (fun h=>(h.1,h.2.inode))
def LiveHandle (fs:Fs)(f:ℕ):Prop:=f∈fs.files.map (·.id) ∧ fs.freeMapFile≠some f

/-- The sector of the inode that a file is open on. -/
def target (fs:Fs)(f:ℕ):Option ℕ:=
 ((KeyedList.find File.id f fs.files).bind (fs.inodes.find ·.inode)).map (·.sector)

section
variable {F:Fixed}{hs:List (ℕ×File)}{s p:ℕ}{x:ℕ×File}

lemma Handles.find (h:Handles F hs)(hx:x∈hs):KeyedList.find File.id x.2.id F.files=some x.2:=by
 rw[find_eq_some h.ids,h.files]
 exact ⟨List.mem_map_of_mem hx,rfl⟩
lemma held_mem (hx:x∈hs):(x.1,x.2.inode)∈held hs:=List.mem_map_of_mem hx
lemma Handles.mapFile (h:Handles F hs):MapFile F (held hs):=by
 obtain ⟨file,hf,hm⟩:=h.map
 exact ⟨file.id,file,hf,h.find hm,held_mem hm⟩

lemma Handles.push (h:Handles F hs)(apart:s≠0 ∧ s≠1):
 Handles (F.push p) ((s,⟨F.nextFile,p,0,false⟩)::hs):=by
 refine ⟨congrArg _ h.files,nodup_cons.2 ⟨?_,h.ids⟩,?_,?_,?_,?_⟩
 · intro hm
   obtain ⟨f,hf,he⟩:=List.mem_map.1 hm
   have:=h.bound f hf
   dsimp only at he
   omega
 · intro f hf
   rcases mem_cons.1 hf with rfl|hf
   · exact Nat.lt_succ_self _
   · exact (h.bound f hf).trans (Nat.lt_succ_self _)
 · intro f hf
   rcases mem_cons.1 hf with rfl|hf
   · rfl
   · exact h.writable f hf
 · obtain ⟨file,hf,hm⟩:=h.map
   exact ⟨file,hf,mem_cons_of_mem _ hm⟩
 · intro y hy hne
   rcases mem_cons.1 hy with rfl|hy
   · exact apart
   · exact h.apart y hy hne

lemma Handles.close (h:Handles F hs)(hx:x∈hs)(user:F.freeMapFile≠some x.2.id):
 ∃hs',(held hs).Perm ((x.1,x.2.inode)::held hs') ∧ Handles (F.close x.2.id) hs' ∧
  MapFile F (held hs'):=by
 obtain ⟨l₁,l₂,rfl⟩:=append_of_mem hx
 have ids:=h.ids
 have hfiles:F.files=l₁.map (·.2)++x.2::l₂.map (·.2):=by
  rw[h.files,map_append,map_cons]
 have closed:(F.close x.2.id).files=(l₁++l₂).map (·.2):=by
  change KeyedList.erase File.id x.2.id F.files=_
  have before:∀f∈l₁.map (·.2),f.id≠x.2.id:=by
   intro f hf he
   rw[hfiles,map_append,map_cons,nodup_append'] at ids
   exact ids.2.2 (List.mem_map_of_mem hf) (he▸mem_cons_self)
  rw[hfiles,KeyedList.erase,eraseP_append_right _ (by simpa using before),
   eraseP_cons_of_pos (by simp),map_append]
 have sub:(F.close x.2.id).files.Sublist F.files:=erase_sublist
 have keep:∀y∈l₁++l₂,y∈l₁++x::l₂:=by
  intro y hy
  rcases mem_append.1 hy with hy|hy
  · exact mem_append_left _ hy
  · exact mem_append_right _ (mem_cons_of_mem _ hy)
 obtain ⟨file,hf,hm⟩:=h.map
 have hm':(0,file)∈l₁++l₂:=by
  rcases mem_append.1 hm with hm|hm
  · exact mem_append_left _ hm
  · rcases mem_cons.1 hm with rfl|hm
    · exact absurd hf user
    · exact mem_append_right _ hm
 refine ⟨l₁++l₂,?_,⟨closed,(sub.map _).nodup ids,fun f hf=>h.bound f (sub.subset hf),
  fun f hf=>h.writable f (sub.subset hf),⟨file,hf,hm'⟩,
  fun y hy=>h.apart y (keep y hy)⟩,⟨file.id,file,hf,h.find hm,held_mem hm'⟩⟩
 unfold held
 rw[map_append,map_append,map_cons]
 exact perm_middle

end

/-- `X` is kept by whatever is done to a cell. -/
structure Plain (M:Medium)(X:ℕ→Cell→Prop):Prop where
 evict:∀s c,X s c → X s c.evict
 put:∀s c b,X s c → X s (M.put c b)
 loose:∀s c b,X s c → X s {c with disk:=b}

lemma Plain.quiet {M:Medium}{X:ℕ→Cell→Prop}(h:Plain M X)(L:Layout):Quiet M L X:=
 ⟨h.evict,fun s _=>h.put s⟩

/-- The file system as its callers see it: the system's files and the `named`
ones, with `content` in the root directory, and the open files. -/
def Mounted (M:Medium)(L:Layout)(content:Sector)(X:ℕ→Cell→Prop)(named:List Entry)(fs:Fs):Prop:=
 ∃hs,Handles (fixed fs) hs ∧
  Core M (Framed L content X) (L.system++named) [] (held hs) (fixed fs) fs
variable {M:Medium}{L:Layout}{content:Sector}{X:ℕ→Cell→Prop}
 {named:List Entry}{fs:Fs}{hs:List (ℕ×File)}{F:Fixed}{f:ℕ}{name:CString}
 {stack:DirEntry}

lemma Core.mounted (h:Core M (Framed L content X) (L.system++named) [] (held hs) F fs)
 (handles:Handles F hs):Mounted M L content X named fs:=by
 obtain rfl:Filesys.fixed fs=F:=h.fixed
 exact ⟨hs,handles,h⟩
lemma Handles.ready (h:Handles F hs):Ready L (L.system++named) (held hs) F:=
 ⟨by simp[Layout.system],by simp[Layout.system],h.mapFile⟩

lemma filter_system {sector:ℕ}(apart:sector≠0 ∧ sector≠1)(named:List Entry):
 (L.system++named).filter (fun e=>e.1≠sector)=L.system++named.filter (fun e=>e.1≠sector):=by
 simp[Layout.system,Ne.symm apart.1,Ne.symm apart.2]

lemma Known.live (h:Known content name (named++condemned fs.inodes)):
 Known content name (live (L.system++named) fs.inodes):=by
 intro x hx hn
 obtain ⟨e,he,rest⟩:=h x hx hn
 refine ⟨e,?_,rest⟩
 unfold Filesys.live
 rw[append_assoc]
 exact mem_append_right _ he

/-- `X`, and that eviction does not change the header of the file to be made;
where its data are not cached yet or zero, they stay so. -/
def Watched (M:Medium)(d:Device)(plan:Option Entry)(X:ℕ→Cell→Prop)(s:ℕ)(c:Cell):Prop:=
 X s c ∧ ∀e,plan=some e → (s=e.1 → NotDirty c) ∧ (s∈dataSectors e.2 → StaleFree (M.cell d s) → StaleFree c)

lemma Watched.quiet {d:Device}{plan:Option Entry}(plain:Plain M X)
 (apart:∀e,plan=some e → ∀s∈extent e,¬(s∈dataSectors L.map ∨ s∈dataSectors L.root)):
 Quiet M L (Watched M d plan X):=by
 refine ⟨fun s c hc=>⟨plain.evict s c hc.1,fun e he=>⟨fun _ buffer hb=>?_,
  fun _ _ buffer dirty hb=>?_⟩⟩,fun s hs c b hc=>⟨plain.put s c b hc.1,fun e he=>?_⟩⟩
 · rw[c.evict_block] at hb
   cases hb
 · rw[c.evict_block] at hb
   cases hb
 · constructor
   · rintro rfl
     exact absurd hs (apart e he e.1 mem_cons_self)
   · intro hd
     exact absurd hs (apart e he s (mem_cons_of_mem _ hd))

/-- A new file, provided that no dirty block is cached for the sector that its
header gets. Its data read as zeros where no stale block is cached. -/
lemma filesysCreate_mounted (h:Mounted M L content X named fs)(plain:Plain M X){size:ℤ}
 (hl:0 ≤ size)(hl':size<2^31)
 (clean:∀e,planned fs.freeMap size=some e → NotDirty (M.cell fs.dev e.1)):
 Holds (filesysCreate M.toSectorIO name size stack) fs (fun ok fs'=>
  (ok=false ∧ (Harmless content name size fs → fs'.freeMap=fs.freeMap) ∧
   Mounted M L content X named fs') ∨
  (ok=true ∧ ∃e content',planned fs.freeMap size=some e ∧
   Added M content content' name e.1 ∧ Mounted M L content' X (e::named) fs' ∧
   ∀s∈dataSectors e.2,StaleFree (M.cell fs.dev s) → (M.cell fs'.dev s).logical=0))
  M.E:=by
 obtain ⟨hs,handles,core⟩:=h
 have ready:Ready L (L.system++named) (held hs) (fixed fs):=handles.ready
 have apart:∀e,planned fs.freeMap size=some e → ∀s∈extent e,
   ¬(s∈dataSectors L.map ∨ s∈dataSectors L.root):=by
  intro e he s hs hm
  refine core.planned_apart he hs (mem_append_left _ (mem_flatMap.2 ?_))
  rcases hm with hm|hm
  · exact ⟨(0,L.map),mem_append_left _ ready.map,mem_cons_of_mem _ hm⟩
  · exact ⟨(1,L.root),mem_append_left _ ready.root,mem_cons_of_mem _ hm⟩
 have watched:Core M (Framed L content (Watched M fs.dev (planned fs.freeMap size) X))
   (L.system++named) [] (held hs) (fixed fs) fs:=by
  refine core.frame fun s hc=>⟨⟨hc.1,fun e he=>⟨?_,fun _ free=>free⟩⟩,hc.2⟩
  rintro rfl
  exact clean e he
 refine (filesysCreate_core watched ready (Watched.quiet plain apart)
  (fun s _ c b hc=>⟨plain.loose s c b hc.1,hc.2⟩) hl hl'
  (fun e he c hc=>(hc.2 e he).1 rfl)).imp ?_
 rintro ok fs' (⟨rfl,bits,core'⟩|⟨rfl,e,content',plan,added,core'⟩)
 · exact .inl ⟨rfl,bits,(core'.frame fun s hc=>⟨hc.1.1,hc.2⟩).mounted handles⟩
 · have moved:Core M (Framed L content' X) (L.system++e::named) [] (held hs) (fixed fs) fs':=
    (core'.reorder perm_middle.symm).frame fun s hc=>⟨hc.1.1.1,hc.2⟩
   refine .inr ⟨rfl,e,content',plan,added,moved.mounted handles,fun s hs free=>?_⟩
   obtain ⟨disk,stale⟩:=(core'.meets.2 s).1.1.2.2 hs fun c hc=>(hc.2 e plan).2 hs free
   exact stale.logical disk

lemma filesysRemove_mounted (h:Mounted M L content X named fs)(q:Quiet M L X)
 (known:Known content name (named++condemned fs.inodes)):
 Holds (filesysRemove M.toSectorIO name stack) fs (fun ok fs'=>
  (ok=false ∧ Mounted M L content X named fs') ∨
  (ok=true ∧ ∃content' sector,Cleared M content content' name sector ∧
   Mounted M L content' X (named.filter (fun e=>e.1≠sector)) fs')) M.E:=by
 obtain ⟨hs,handles,core⟩:=h
 refine (filesysRemove_core core handles.ready q known.live).imp ?_
 rintro ok fs' (⟨rfl,core'⟩|⟨rfl,content',sector,apart,cleared,core'⟩)
 · exact .inl ⟨rfl,core'.mounted handles⟩
 · rw[filter_system apart] at core'
   exact .inr ⟨rfl,content',sector,cleared,core'.mounted handles⟩

lemma fileOpen_mounted {s i:ℕ}
 (core:Core M (Framed L content X) (L.system++named) [] ((s,i)::held hs) F fs)
 (handles:Handles F hs)(q:Quiet M L X)(apart:s≠0 ∧ s≠1):
 Holds (fileOpen M.toSectorIO (some i)) fs (fun _ fs'=>Mounted M L content X named fs') M.E:=by
 refine (fileOpen_core core (.inl (core.keeper handles.ready q))).imp ?_
 intro f fs' hf
 cases f with
 | none=>exact Core.mounted hf handles
 | some f=>
  have pushed:Core M (Framed L content X) (L.system++named) []
    (held ((s,⟨F.nextFile,i,0,false⟩)::hs)) (F.push i) fs':=hf.2
  exact pushed.mounted (handles.push apart)

lemma filesysOpen_mounted (h:Mounted M L content X named fs)(q:Quiet M L X)
 (known:Known content name (named++condemned fs.inodes)):
 Holds (filesysOpen M.toSectorIO name stack) fs (fun _ fs'=>Mounted M L content X named fs') M.E:=by
 obtain ⟨hs,handles,core⟩:=h
 refine filesysOpen_rule core handles.ready known.live ?_ ?_
 · intro fs' core'
   exact (core'.malloc _).mounted handles
 · intro fs' s i apart core'
   exact fileOpen_mounted core' handles q apart

lemma Handles.live (handles:Handles (fixed fs) hs)(hf:LiveHandle fs f):
 ∃x∈hs,x.2.id=f ∧ fs.freeMapFile≠some x.2.id ∧ (x.1≠0 ∧ x.1≠1):=by
 obtain ⟨hm,user⟩:=hf
 rw[show fs.files=hs.map (·.2) from handles.files,List.map_map] at hm
 obtain ⟨x,hx,rfl⟩:=List.mem_map.1 hm
 exact ⟨x,hx,rfl,user,handles.apart x hx user⟩

section
variable (h:Mounted M L content X named fs)(q:Quiet M L X)(hf:LiveHandle fs f)
include h q hf

lemma fileReopen_mounted:
 Holds (fileReopen M.toSectorIO f) fs (fun _ fs'=>Mounted M L content X named fs') M.E:=by
 obtain ⟨hs,handles,core⟩:=h
 obtain ⟨x,hx,rfl,-,apart⟩:=handles.live hf
 unfold fileReopen
 rw[holds_bind,holds_theFile (handles.find hx)]
 refine (inodeReopen_core core (held_mem hx)).seq ?_
 rintro p fs₁ ⟨rfl,core'⟩
 exact fileOpen_mounted core' handles q apart

lemma fileClose_mounted:
 Holds (fileClose M.toSectorIO (some f)) fs (fun _ fs'=>Mounted M L content X named fs') M.E:=by
 obtain ⟨hs,handles,core⟩:=h
 obtain ⟨x,hx,rfl,user,-⟩:=handles.live hf
 obtain ⟨hs',perm,closed,mapFile⟩:=handles.close hx user
 have writable:=handles.writable x.2 (find_mem (handles.find hx)).1
 have front:=core.perm perm
 refine (fileClose_core front (handles.find hx) rfl writable (.inl ?_)).imp ?_
 · exact front.keeper ⟨handles.ready.map,handles.ready.root,mapFile⟩ q
 · exact fun _ fs' core'=>core'.mounted closed

end

lemma Core.referent {Y:ℕ→Cell→Prop}{stay:List Entry}{spare:List ℕ}
 {refs:List (ℕ×ℕ)}(h:Core M Y stay spare refs F fs){r:ℕ×ℕ}(hr:r∈refs):
 ∃e∈live stay fs.inodes,e.1=r.1:=by
 obtain ⟨i,hi,-,hs⟩:=h.counted.held r hr
 exact ⟨_,h.opened i hi,hs⟩

lemma Core.target {Y:ℕ→Cell→Prop}{stay:List Entry}{spare:List ℕ}{refs:List (ℕ×ℕ)}{file:File}{s:ℕ}
 (h:Core M Y stay spare refs F fs)(found:KeyedList.find File.id f F.files=some file)
 (hr:(s,file.inode)∈refs):Filesys.target fs f=some s:=by
 obtain ⟨i,-,-,sector,hi⟩:=h.counted.find hr
 have files:fs.files=F.files:=congrArg Fixed.files h.fixed
 simp only[Filesys.target,files,found,Option.bind_some,hi,Option.map_some,sector]

lemma fileReadAt_mounted (h:Mounted M L content X named fs)(hf:LiveHandle fs f)(size:ℤ)(offset:ℕ):
 Holds (fileReadAt M.toSectorIO f size offset) fs (fun bytes fs'=>Mounted M L content X named fs' ∧
  ∃e∈live (L.system++named) fs.inodes,target fs f=some e.1 ∧
   bytes=(List.range (readable e.2 size.toNat offset)).map
    (fun k=>dataByte (fun s=>(M.cell fs.dev s).logical) e.2 (offset+k))) M.E:=by
 obtain ⟨hs,handles,core⟩:=h
 obtain ⟨x,hx,rfl,-,-⟩:=handles.live hf
 obtain ⟨e,he,hes⟩:=core.referent (held_mem hx)
 unfold fileReadAt
 rw[holds_bind,holds_theFile (handles.find hx)]
 refine (inodeReadAt_core core (held_mem hx) he hes size offset).imp ?_
 rintro _ fs' ⟨⟨core',-⟩,bytes⟩
 exact ⟨core'.mounted handles,e,he,hes▸core.target (handles.find hx) (held_mem hx),bytes⟩

lemma fileWriteAt_mounted (h:Mounted M L content X named fs)(plain:Plain M X)
 (hf:LiveHandle fs f)(buffer:ℕ→UInt8)(size:ℤ)(offset:ℕ):
 Holds (fileWriteAt M.toSectorIO f buffer size offset) fs (fun n fs'=>
  Mounted M L content X named fs' ∧ ∃e∈live (L.system++named) fs.inodes,target fs f=some e.1 ∧
   (M.Faithful → Stores e.2 buffer offset n fs.dev fs'.dev)) M.E:=by
 obtain ⟨hs,handles,core⟩:=h
 obtain ⟨x,hx,rfl,-,apart⟩:=handles.live hf
 obtain ⟨e,he,hes⟩:=core.referent (held_mem hx)
 have root:(1,L.root)∈live (L.system++named) fs.inodes:=by
  simp[live,Layout.system]
 -- The root directory is no file of the user's, so its content is not touched.
 have calm:Calm M (Framed L content X) e.2:=by
  refine ⟨fun s c hc=>⟨plain.evict s c hc.1,fun hr=>(hc.2 hr).evict⟩,
   fun s hm c b hc=>⟨plain.put s c b hc.1,?_⟩⟩
  rintro rfl
  have same:=core.entry_inj he root (mem_cons_of_mem _ hm) (mem_cons_of_mem _ (rootStart_mem L))
  rw[same] at hes
  exact absurd hes.symm apart.2
 unfold fileWriteAt
 rw[holds_bind,holds_theFile (handles.find hx)]
 refine (inodeWriteAt_core core (held_mem hx) he hes calm buffer size offset).imp ?_
 rintro _ fs' ⟨⟨core',-⟩,stores⟩
 exact ⟨core'.mounted handles,e,he,hes▸core.target (handles.find hx) (held_mem hx),stores⟩

end Pintos.Filesys
