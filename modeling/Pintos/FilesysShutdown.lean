import Pintos.FilesysOwnership

namespace Pintos.Filesys
open ExecHoare ExecRuns Bitmap Cache Directory HashTable InodeTable InodeData Option

inductive DataCall where
 | inodeReadAt (p:ℕ) (size:ℤ) (offset:ℕ)
 | inodeWriteAt (p:ℕ) (buffer:ℕ→UInt8) (size:ℤ) (offset:ℕ)

def DataCall.run:DataCall→FsCmd Unit
 | .inodeReadAt p size offset=>do
  let _←Filesys.inodeReadAt cached p size offset
 | .inodeWriteAt p buffer size offset=>do
  let _←Filesys.inodeWriteAt cached p buffer size offset

def DataCall.next (fs:Fs)(c:DataCall):Option Fs:=(result c.run fs).map (·.2)

def MapOpen (fs:Fs):Prop:=
 ∃f file i,fs.freeMapFile=some f ∧ KeyedList.find File.id f fs.files=some file ∧
  file.denyWrite=false ∧ fs.inodes.find file.inode=some i ∧ i.removed=false
variable {fs fs':Fs}

def CleanCells (d:Device):Prop:=Meets cachedMedium (fun _ c=>c.Clean) d

lemma DataCall.run_clean (h:CleanCells fs.dev)(c:DataCall):
 Holds c.run fs (fun _ fs'=>CleanCells fs'.dev ∧ fs'={fs with dev:=fs'.dev}) AnyFault:=by
 have inode:∀ (p:ℕ) (Q:Inode→Fs→Prop),(∀i,Q i fs) → Holds (theInode p) fs Q AnyFault:=by
  intro p Q hQ
  unfold theInode
  rw[holds_bind,holds_get]
  cases fs.inodes.find p with
  | none=>exact trivial
  | some i=>exact hQ i
 cases c with
 | inodeReadAt p size offset=>
  change Holds (Filesys.inodeReadAt cached p size offset >>= _) fs _ _
  unfold Filesys.inodeReadAt
  rw[holds_bind,holds_bind]
  refine inode p _ fun i=>?_
  rw[holds_onDevice]
  refine (readLoop_spec cachedMedium _ size.toNat offset h.1 (fun _ _=>trivial)
   (Nat.lt_succ_self _)).imp ?_
  rintro bytes d ⟨⟨ok,-,cells⟩,-⟩
  refine ⟨⟨ok,fun t=>?_⟩,rfl⟩
  rw[cells]
  exact h.2 t
 | inodeWriteAt p buffer size offset=>
  change Holds (Filesys.inodeWriteAt cached p buffer size offset >>= _) fs _ _
  unfold Filesys.inodeWriteAt
  rw[holds_bind,holds_bind]
  refine inode p _ fun i=>?_
  split
  · exact ⟨h,rfl⟩
  · rw[holds_onDevice]
    refine (writeLoop_meets (fun _ _ _=>.evict) h (fun _ _=>trivial)
     (fun _ _ c b _=>c.clean_write b) buffer size.toNat offset).imp ?_
    exact fun _ d hd=>⟨hd.1,rfl⟩

lemma DataCall.runs_clean {calls:List DataCall}(h:CleanCells fs.dev)(map:MapOpen fs)
 (run:Runs DataCall.next Always fs calls fs'):CleanCells fs'.dev ∧ MapOpen fs':=by
 refine run.invariant (I:=fun fs=>CleanCells fs.dev ∧ MapOpen fs) ?_ ⟨h,map⟩
 rintro s c u ⟨clean,map⟩ - step
 obtain ⟨r,hr,rfl⟩:=map_eq_some_iff.1 step
 obtain ⟨clean',same⟩:=(DataCall.run_clean clean c).result hr
 refine ⟨clean',?_⟩
 rw[same]
 exact map

lemma filesysDone_dev (map:MapOpen fs):
 Holds (filesysDone cached) fs (fun _ fs'=>fs'.dev=fs.dev) NoFault:=by
 obtain ⟨f,file,i,mapFile,found,writable,opened,kept⟩:=map
 unfold filesysDone freeMapClose
 rw[holds_bind,holds_get,mapFile]
 unfold fileClose fileAllowWrite
 rw[holds_bind,holds_bind,holds_theFile found,writable,if_neg Bool.false_ne_true,
  holds_pure,holds_bind,holds_theFile found]
 unfold inodeClose
 rw[holds_bind,holds_bind,holds_get,holds_bind]
 simp only[InodeTable.inodeClose,opened,map_some,kept]
 split<;>exact rfl

lemma CleanCells.disk_eq_logical_iff {d:Device}(h:CleanCells d):(∀t,d.disk t=d.logical t) ↔
  ∀b∈d.cache.elems,b.dirty=true → b.buffer=d.disk b.sector:=by
 have wf:WF blockOps d.cache:=h.1.wf
 constructor
 · intro same b hb _
   rw[same b.sector,←cell_logical,cell_logical_some (cached_self wf hb)]
 · intro saved t
   rw[←cell_logical]
   cases hc:d.cached t with
   | none=>exact (cell_logical_none hc).symm
   | some b=>
    obtain ⟨hb,rfl⟩:=(cached_eq_some wf).1 hc
    rw[cell_logical_some hc]
    cases hd:b.dirty with
    | true=>exact (saved b hb hd).symm
    | false=>
     refine (h.2 b.sector b.buffer ?_).symm
     change (d.cell b.sector).block=_
     simp[Device.cell,hc,hd]

lemma Owning.mapOpen (h:Owning fs):MapOpen (coldCache fs):=by
 obtain ⟨L,content,hs,handles,core⟩:=h.mounted
 obtain ⟨file,mapFile,hm⟩:=handles.map
 obtain ⟨i,hi,-,hsector,found⟩:=core.counted.find (held_mem hm)
 refine ⟨file.id,file,i,mapFile,handles.find hm,?_,found,?_⟩
 · exact handles.writable file (KeyedList.find_mem (handles.find hm)).1
 · cases removed:i.removed with
   | false=>rfl
   | true=>
    have stays:(0,L.map)∈L.system++namedFiles fs:=by simp[Layout.system]
    exact absurd hsector.symm (core.stay_sector stays (mem_condemned.2 ⟨i,hi,removed,rfl⟩))

def oneFileOpen:Option Fs:=
 ((result (filesysInit direct true) (boot smallDevice)).bind fun r=>
  exec (next direct) (fun fs c=>c.Allowed fs) r.2 [.filesysCreate nameA 512 (fun _=>0),
    .filesysOpen nameA (fun _=>0)]).map coldCache

lemma oneFileOpen_ready (h:oneFileOpen=some fs):fs.dev.cache=hashInit ∧ MapOpen fs:=by
 obtain ⟨fs₁,hfs,rfl⟩:=map_eq_some_iff.1 h
 obtain ⟨r,init,run⟩:=bind_eq_some_iff.1 hfs
 have start:Owning r.2:=(filesysInit_owning (by decide)).result init
 exact ⟨rfl,(start.runs (exec_runs run)).mapOpen⟩

/-- After a run from an empty cache, `filesys_done` leaves the logical content of
every sector on disk exactly when no dirty block is left that differs from it. -/
theorem shutdown_durable_iff {calls:List DataCall}(empty:fs.dev.cache=hashInit)
 (map:MapOpen fs)(run:Runs DataCall.next Always fs calls fs'):
 ∃fs'',result (filesysDone cached) fs'=some ((),fs'') ∧ ((∀t,fs''.dev.disk t=fs'.dev.logical t) ↔
   ∀b∈fs'.dev.cache.elems,b.dirty=true → b.buffer=fs'.dev.disk b.sector):=by
 have coherent:=coherent_of_empty empty
 obtain ⟨clean,map'⟩:=DataCall.runs_clean ⟨coherent.toInv,coherent.clean⟩ map run
 obtain ⟨_,fs'',hr,same⟩:=(filesysDone_dev map').returns
 refine ⟨fs'',result_eq_some.2 hr,?_⟩
 rw[same]
 exact clean.disk_eq_logical_iff

theorem shutdown_durable_zeros:∃fs fs' fs'',
 Runs DataCall.next Always fs [.inodeWriteAt 4 (fun _=>0) 512 0] fs' ∧
 fs'.dev.cache.elems≠[] ∧ result (filesysDone cached) fs'=some ((),fs'') ∧
 ∀t,fs''.dev.disk t=fs'.dev.logical t:=by
 have found:oneFileOpen.any (fun fs=>
   (exec DataCall.next Always fs [.inodeWriteAt 4 (fun _=>0) 512 0]).any (fun fs'=>
    !fs'.dev.cache.elems.isEmpty && fs'.dev.cache.elems.all (fun b=>
     (List.finRange 512).all (fun k=>b.buffer k == fs'.dev.disk b.sector k))))=true:=by
  decide +kernel
 obtain ⟨fs,hfs,found⟩:=(Option.any_eq_true _ _).1 found
 obtain ⟨fs',run,ends⟩:=exec_any found
 simp only[Bool.and_eq_true,Bool.not_eq_true',List.isEmpty_eq_false_iff,List.all_eq_true,
  beq_iff_eq,List.mem_finRange,true_imp_iff] at ends
 obtain ⟨empty,map⟩:=oneFileOpen_ready hfs
 obtain ⟨fs'',done,durable⟩:=shutdown_durable_iff empty map run
 exact ⟨fs,fs',fs'',run,ends.1,done,durable.2 fun b hb _=>funext (ends.2 b hb)⟩

/-- What was written is still only in the cache after `filesys_done`. -/
theorem shutdown_loses_write:∃fs fs' fs'',fs.dev.cache=hashInit ∧ MapOpen fs ∧
 Runs DataCall.next Always fs [.inodeWriteAt 4 (fun _=>7) 512 0] fs' ∧
 result (filesysDone cached) fs'=some ((),fs'') ∧
 fs'.dev.logical 5 0=7 ∧ fs''.dev.disk 5 0=0:=by
 have found:oneFileOpen.any (fun fs=>
   (exec DataCall.next Always fs [.inodeWriteAt 4 (fun _=>7) 512 0]).any (fun fs'=>
    (result (filesysDone cached) fs').any (fun r=>
     decide (fs'.dev.logical 5 0=7) && decide (r.2.dev.disk 5 0=0))))=true:=by
  decide +kernel
 obtain ⟨fs,hfs,found⟩:=(Option.any_eq_true _ _).1 found
 obtain ⟨fs',run,ends⟩:=exec_any found
 obtain ⟨⟨⟨⟩,fs''⟩,done,ends⟩:=(Option.any_eq_true _ _).1 ends
 simp only[Bool.and_eq_true,decide_eq_true_eq] at ends
 obtain ⟨empty,map⟩:=oneFileOpen_ready hfs
 exact ⟨fs,fs',fs'',empty,map,run,done,ends⟩

end Pintos.Filesys
