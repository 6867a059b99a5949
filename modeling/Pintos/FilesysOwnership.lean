import Pintos.FilesysCalls
import Pintos.FilesysFormat

namespace Pintos.Filesys
open ExecHoare ExecRuns Bitmap Cache Directory InodeTable InodeData List

def headerAt (fs:Fs)(s:ℕ):Entry:=(s,decodeInode (fs.dev.disk s))
def rootEntries (fs:Fs):List DirEntry:=
 (rootSlots (fs.dev.disk (headerAt fs 1).2.start)).filter (·.inUse)
def namedFiles (fs:Fs):List Entry:=(rootEntries fs).map (fun x=>headerAt fs x.inodeSector)

/-- The free map file, the root directory, the files that are named in it, and
those that were removed but are still open. -/
def ownerFiles (fs:Fs):List Entry:=
 [headerAt fs 0,headerAt fs 1]++namedFiles fs++condemned fs.inodes

def owned (fs:Fs):List ℕ:=(ownerFiles fs).flatMap extent
def next (io: SectorIO)(fs:Fs)(c:Call):Option Fs:=(result (c.run io) fs).map (·.2)

section
variable {content content':Sector}{name:CString}{sector:ℕ}{named:List Entry}

def usedSectors (content:Sector):List ℕ:=((rootSlots content).filter (·.inUse)).map (·.inodeSector)
lemma rewritten_slots {j:ℕ}{x:DirEntry}(hj:j<16)(h:Rewritten directMedium content content' j x):
 rootSlots content'=(rootSlots content).set j x:=by
 obtain ⟨base,rfl,rfl⟩:=h
 exact rootSlots_overlay base hj x

lemma usedSectors_added (h:Added directMedium content content' name sector)
 (range:sector<2^32):(usedSectors content').Perm (sector::usedSectors content):=by
 obtain ⟨-,-,j,x,hx,free,rewritten⟩:=h
 obtain ⟨rest,old,new⟩:=filter_set_perm (x:=x.fill name sector) hx
 rw[filter_singleton,free] at old
 rw[filter_singleton,DirEntry.fill_inUse] at new
 unfold usedSectors
 rw[rewritten_slots (slot_lt hx) rewritten]
 refine (new.map _).trans ?_
 rw[cond_true,singleton_append,map_cons,DirEntry.fill_inodeSector x name range]
 exact (old.symm.map _).cons _

lemma usedSectors_cleared (h:Cleared directMedium content content' name sector):
 (usedSectors content).Perm (sector::usedSectors content'):=by
 obtain ⟨j,x,hx,first,rfl,rewritten⟩:=h
 have hu:=names_inUse (find?_some first)
 obtain ⟨rest,old,new⟩:=filter_set_perm (x:=x.clear) hx
 rw[filter_singleton,hu] at old
 rw[filter_singleton,DirEntry.clear_inUse] at new
 unfold usedSectors
 rw[rewritten_slots (slot_lt hx) rewritten]
 refine (old.map _).trans ?_
 rw[cond_true,singleton_append,map_cons]
 exact (new.symm.map _).cons _

/-- The named files are those that the directory names. -/
def Tracks (content:Sector)(named:List Entry):Prop:=(named.map (·.1)).Perm (usedSectors content)

lemma Tracks.remove (h:Tracks content named)(distinct:(named.map (·.1)).Nodup)
 (cleared:Cleared directMedium content content' name sector):
 Tracks content' (named.filter (fun e=>e.1≠sector)):=by
 have perm:=h.trans (usedSectors_cleared cleared)
 obtain ⟨absent,-⟩:=nodup_cons.1 (perm.nodup_iff.1 distinct)
 have rest:(sector::usedSectors content').filter (fun s=>s≠sector)=usedSectors content':=by
  rw[filter_cons_of_neg (by simp),filter_eq_self]
  intro s hs
  have:s≠sector:=fun he=>absent (he▸hs)
  simpa using this
 have filtered:=perm.filter (fun s=>s≠sector)
 rw[rest,List.filter_map] at filtered
 exact filtered

lemma usedSectors_zero:usedSectors (fun _=>0)=[]:=by
 have free:(rootSlots (fun _=>0)).filter (·.inUse)=[]:=by
  rw[filter_eq_nil_iff]
  intro x hx
  obtain ⟨i,-,rfl⟩:=List.mem_map.1 hx
  have hb:(ByteFile.mk 320 (sectorByte fun _=>0)).slot i 19=0:=by
   simp only[ByteFile.slot,sectorByte]
   split<;>rfl
  rw[DirEntry.inUse,hb]
  decide
 rw[usedSectors,free]
 rfl

end
variable {L:Layout}{content:Sector}{named:List Entry}{fs:Fs}

def Owning (fs:Fs):Prop:=
 ∃L content named,Mounted directMedium L content Uncached named fs ∧ Tracks content named
lemma uncached_plain:Plain directMedium Uncached:=
 ⟨fun _ c _=>c.evict_block,fun _ _ _ _=>rfl,fun _ _ _ h=>h⟩

lemma Mounted.sectors {M:Medium}{X:ℕ→Cell→Prop}
 (h:Mounted M L content X named fs):(0::1::named.map (·.1)).Nodup:=by
 obtain ⟨hs,-,core⟩:=h
 have distinct:=core.stay_nodup
 rwa[map_append] at distinct

lemma Tracks.sound (h:Mounted directMedium L content Uncached named fs)
 (tracks:Tracks content named)(c:Call):
 c.Sound directMedium content (named++condemned fs.inodes) fs:=by
 obtain ⟨h0,h1⟩:=nodup_cons.1 h.sectors
 have known:∀name,Known content name (named++condemned fs.inodes):=by
  intro name x hx hn
  have hused:x.inodeSector∈usedSectors content:=
   List.mem_map_of_mem (mem_filter.2 ⟨hx,names_inUse hn⟩)
  have hm:=tracks.mem_iff.2 hused
  obtain ⟨e,he,hes⟩:=List.mem_map.1 hm
  refine ⟨e,mem_append_left _ he,hes,?_,?_⟩
  · intro hz
    exact h0 (mem_cons_of_mem _ (hz▸List.mem_map_of_mem he))
  · intro ho
    exact (nodup_cons.1 h1).1 (ho▸List.mem_map_of_mem he)
 cases c with
 | filesysCreate name size stack=>exact fun e _=>Uncached.notDirty (s:=e.1) rfl
 | filesysOpen name stack | filesysRemove name stack=>exact known name
 | fileReopen f | fileClose f | fileReadAt f size offset=>exact trivial
 | fileWriteAt f buffer size offset=>exact trivial

lemma call_owning (h:Owning fs){c:Call}(allowed:c.Allowed fs):
 Holds (c.run direct) fs (fun _ fs'=>Owning fs') NoFault:=by
 obtain ⟨L,content,named,mounted,tracks⟩:=h
 refine (call_mounted mounted uncached_plain c allowed (tracks.sound mounted c)).imp ?_
 rintro ok fs' ⟨content',turns,mounted'⟩
 refine ⟨L,content',_,mounted',?_⟩
 have same:content'=content → Tracks content' named:=fun h=>h▸tracks
 cases c with
 | filesysCreate name size stack=>
  cases ok with
  | false=>exact same turns
  | true=>
   obtain ⟨e,plan,added⟩:=turns
   rw[Call.files,plan] at mounted' ⊢
   have range:e.1<2^32:=by
    obtain ⟨hs,-,core⟩:=mounted'
    have he:e∈live (L.system++((some e).toList++named)) fs'.inodes:=by
     simp[live]
    exact (core.extent_lt he mem_cons_self).trans core.small
   exact (tracks.cons e.1).trans (usedSectors_added added range).symm
 | filesysRemove name stack=>
  cases ok with
  | false=>exact same turns
  | true=>
   obtain ⟨sector,cleared⟩:=turns
   rw[Call.files,cleared.filter]
   have distinct:=(nodup_cons.1 (nodup_cons.1 mounted.sectors).2).2
   exact tracks.remove distinct cleared
 | filesysOpen name stack | fileReopen f | fileClose f | fileReadAt f size offset=>exact same turns
 | fileWriteAt f buffer size offset=>exact same turns

lemma Mounted.header {M:Medium}{X:ℕ→Cell→Prop}(h:Mounted M L content X named fs)
 {e:Entry}(he:e∈L.system++named++condemned fs.inodes):headerAt fs e.1=e:=by
 obtain ⟨hs,-,core⟩:=h
 have header:=((core.meets.2 e.1).2 e he rfl).2
 rw[M.cell_disk] at header
 exact Prod.ext rfl header

lemma Owning.tracked (h:Owning fs):
 ∃L content,Mounted directMedium L content Uncached (namedFiles fs) fs ∧
  Tracks content (namedFiles fs):=by
 obtain ⟨L,content,named,mounted,tracks⟩:=h
 have hroot:headerAt fs 1=(1,L.root):=mounted.header (e:=(1,L.root)) (by simp[Layout.system])
 have hnamed:(named.map (·.1)).map (headerAt fs)=named:=by
  rw[List.map_map]
  conv_rhs=>rw[←List.map_id named]
  apply map_congr_left
  intro e he
  exact mounted.header (by simp[he])
 obtain ⟨hs,handles,core⟩:=mounted
 have hcontent:fs.dev.disk L.root.start=content:=((core.meets.2 L.root.start).1.2 rfl).2
 have entries:namedFiles fs=(usedSectors content).map (headerAt fs):=by
  rw[namedFiles,rootEntries,hroot,hcontent,usedSectors,List.map_map]
  rfl
 have perm:=tracks.map (headerAt fs)
 rw[hnamed,←entries] at perm
 refine ⟨L,content,⟨hs,handles,core.reorder (perm.append_left L.system)⟩,?_⟩
 rw[Tracks,entries,List.map_map]
 exact (List.map_id (usedSectors content)).symm▸Perm.refl _

lemma Owning.mounted (h:Owning fs):
 ∃L content,Mounted directMedium L content Uncached (namedFiles fs) fs:=by
 obtain ⟨L,content,mounted,-⟩:=h.tracked
 exact ⟨L,content,mounted⟩

lemma Owning.owned (h:Owning fs):Claimed fs.freeMap (owned fs):=by
 obtain ⟨L,content,mounted⟩:=h.mounted
 have hmap:headerAt fs 0=(0,L.map):=mounted.header (e:=(0,L.map)) (by simp[Layout.system])
 have hroot:headerAt fs 1=(1,L.root):=mounted.header (e:=(1,L.root)) (by simp[Layout.system])
 obtain ⟨hs,-,core⟩:=mounted
 have claimed:=core.claimed
 rw[append_nil] at claimed
 unfold Filesys.owned ownerFiles
 rw[hmap,hroot]
 exact claimed

lemma filesysInit_owning {dev:Device}(small:dev.size<2^32):
 Holds (filesysInit direct true) (boot dev) (fun _ fs=>Owning fs) AnyFault:=by
 refine (filesysInit_mounted small).imp ?_
 rintro _ fs ⟨L,mounted⟩
 refine ⟨L,_,[],mounted,?_⟩
 rw[Tracks,usedSectors_zero]
 exact Perm.refl _

lemma Owning.runs {fs':Fs}{calls:List Call}(h:Owning fs)
 (run:Runs (next direct) (fun fs c=>c.Allowed fs) fs calls fs'):Owning fs':=by
 refine run.invariant ?_ h
 intro s c u hs allowed hu
 obtain ⟨r,hr,rfl⟩:=Option.map_eq_some_iff.1 hu
 exact (call_owning hs allowed).result hr

/-- In every run from a formatted file system the sectors of the files are
distinct and in use, and every call returns: no assertion fails. -/
theorem sector_ownership {dev:Device}(small:dev.size<2^32){fs₀ fs:Fs}
 {calls:List Call}(init:result (filesysInit direct true) (boot dev)=some ((),fs₀))
 (run:Runs (next direct) (fun fs c=>c.Allowed fs) fs₀ calls fs):
 ((owned fs).Nodup ∧ ∀s∈owned fs,fs.freeMap[s]?=some true) ∧
  ∀c:Call,c.Allowed fs → ∃fs',next direct fs c=some fs':=by
 have start:Owning fs₀:=(filesysInit_owning small).result init
 have owning:=start.runs run
 refine ⟨⟨owning.owned.distinct,owning.owned.marked⟩,fun c allowed=>?_⟩
 obtain ⟨ok,fs',hr,-⟩:=(call_owning owning allowed).returns
 exact ⟨fs',by rw[next,result_eq_some.2 hr];rfl⟩

def coldCache (fs:Fs):Fs:={fs with dev:={fs.dev with cache:=HashTable.hashInit}}

lemma cached_empty {d:Device}(empty:d.cache=HashTable.hashInit)(t:ℕ):d.cached t=none:=by
 rw[Option.eq_none_iff_forall_ne_some]
 intro b hb
 have hm:=((cached_eq_some (coherent_of_empty empty).wf).1 hb).1
 rw[empty] at hm
 simp[HashTable.hashInit,HashTable.Hash.elems] at hm

lemma Core.cold {M:Medium}(cells:M.cell=Device.cell)(ok:M.Ok=Cache.Inv)
 {refs:List (ℕ×ℕ)}{stay:List Entry}{F:Fixed}
 (core:Core directMedium (Framed L content Uncached) stay [] refs F fs):
 Core M (Framed L content fun _ _=>True) stay [] refs F (coldCache fs):=by
 have inv:Cache.Inv (coldCache fs).dev:=(coherent_of_empty rfl).toInv
 refine {core with meets:=⟨ok▸inv,fun t=>?_⟩,fixed:=core.fixed}
 have cell:M.cell (coldCache fs).dev t=directMedium.cell fs.dev t:=by
  rw[cells]
  change Cell.mk _ (Option.map _ _)=_
  rw[cached_empty rfl t]
  rfl
 rw[cell]
 exact ⟨⟨trivial,(core.meets.2 t).1.2⟩,(core.meets.2 t).2⟩

def smallDevice:Device:={blankDevice id with size:=8}
def shortName (b:UInt8)(h:b≠0):CString:=⟨[b],by simpa using Ne.symm h⟩
def nameA:CString:=shortName 97 (by decide)
def nameB:CString:=shortName 98 (by decide)
def nameD:CString:=shortName 100 (by decide)
def replaceFile:List Call:=
 [.filesysCreate nameA 512 (fun _=>0),.filesysOpen nameA (fun _=>0),.filesysRemove nameA (fun _=>0),
  .filesysCreate nameB 0 (fun _=>0)]

/-- A run that can be computed, on a small disk that has just been formatted. -/
lemma exec_formatted (calls:List Call)(test:Fs→Bool)
 (found:(result (filesysInit direct true) (boot smallDevice)).any (fun r=>
  (exec (next direct) (fun fs c=>c.Allowed fs) r.2 calls).any test)=true):
 ∃fs₀ fs,result (filesysInit direct true) (boot smallDevice)=some ((),fs₀) ∧
  Runs (next direct) (fun fs c=>c.Allowed fs) fs₀ calls fs ∧ test fs=true:=by
 obtain ⟨⟨⟨⟩,fs₀⟩,init,found⟩:=(Option.any_eq_true _ _).1 found
 obtain ⟨fs,run,facts⟩:=exec_any found
 exact ⟨fs₀,fs,init,run,facts⟩

theorem sector_ownership_replaced:∃fs₀ fs,
 result (filesysInit direct true) (boot smallDevice)=some ((),fs₀) ∧
 Runs (next direct) (fun fs c=>c.Allowed fs) fs₀ replaceFile fs ∧
 owned fs=[0,2,1,3,6,4,5] ∧ ∀s∈owned fs,fs.freeMap[s]?=some true:=by
 obtain ⟨fs₀,fs,init,run,sectors⟩:=
  exec_formatted replaceFile (fun fs=>owned fs=[0,2,1,3,6,4,5]) (by decide +kernel)
 exact ⟨fs₀,fs,init,run,of_decide_eq_true sectors,
  (sector_ownership (show smallDevice.size<2^32 by decide) init run).1.2⟩

end Pintos.Filesys
