import Pintos.FilesysFiles

namespace Pintos.Filesys
open ExecHoare Bitmap Cache Directory InodeTable InodeData List Option

def Uncached (_:ℕ)(c:Cell):Prop:=c.block=none
lemma direct_faithful:directMedium.Faithful:=⟨fun _ _=>rfl,fun _ _=>rfl⟩
lemma uncached_calm (m:InodeDisk):Calm directMedium Uncached m:=
 ⟨fun _ c _=>c.evict_block,fun _ _ _ _ _=>rfl⟩
lemma Uncached.notDirty {s:ℕ}{c:Cell}(h:Uncached s c):NotDirty c:=by
 intro buffer hb
 rw[show c.block=none from h] at hb
 cases hb

lemma Uncached.shows {s:ℕ}{c:Cell}(h:Uncached s c):Shows c c.disk:=by
 have hb:c.block=none:=h
 refine ⟨fun buffer hc=>?_,?_⟩
 · rw[hb] at hc
   cases hc
 · unfold Cell.logical
   rw[hb]
variable {Y:ℕ→Cell→Prop}{stay:List Entry}{spare:List ℕ}{F:Fixed}{fs:Fs}
 {m:InodeDisk}{dev:Device}{b:Bits}{disk:ℕ→Sector}

lemma core_empty (small:dev.size<2^32)(hsize:2≤dev.size)(n:ℕ):
 Core directMedium Uncached [] [0,1] [] ⟨dev.size,[],none,0,dev.mallocOk⟩
  ⟨{dev with mallocs:=n},true::true::replicate (dev.size-2) false,none,
   ⟨[],0⟩,[],0⟩ where
 meets:=⟨trivial,fun _=>⟨rfl,fun _ he=>absurd he not_mem_nil⟩⟩
 proper _ he:=absurd he not_mem_nil
 mapSize:=by
  simp only[length_cons,length_replicate]
  omega
 small:=small
 claimed:=by
  refine ⟨show [0,1].Nodup by decide,fun s hs=>?_⟩
  have:s=0 ∨ s=1:=by simpa[live,condemned] using hs
  rcases this with rfl|rfl<;>rfl
 opened _ hi:=absurd hi not_mem_nil
 counted:={
  wf:=⟨nodup_nil,nodup_nil,fun _ hi=>absurd hi not_mem_nil⟩
  count:=fun _ hi=>absurd hi not_mem_nil
  held:=fun _ hr=>absurd hr not_mem_nil}
 fixed:=rfl

lemma freeMapInit_core (small:dev.size<2^32):
 Holds freeMapInit (boot dev) (fun _ fs=>
  Core directMedium Uncached [] [0,1] [] ⟨dev.size,[],none,0,dev.mallocOk⟩ fs) AnyFault:=by
 unfold freeMapInit
 rw[holds_bind,holds_get,holds_bind,holds_onDevice,holds_malloc,holds_bind,holds_onDevice,
  holds_malloc]
 split
 swap
 · exact trivial
 split
 · rename_i hsize
   exact core_empty small hsize _
 · exact trivial

lemma openFreeMapFile_core (h:Core directMedium Y stay spare [] F fs)(hm:(0,m)∈stay):
 Holds (openFreeMapFile direct) fs (fun f fs'=>f=F.nextFile ∧
  ∃p,Core directMedium Y stay spare [(0,p)]
   {F.push p with freeMapFile:=some F.nextFile} fs') AnyFault:=by
 refine (inodeOpen_core h (mem_append_left _ hm)).any.seq ?_
 rintro inode fs₁ ⟨-,hinode⟩
 cases inode with
 | none=>exact trivial
 | some p=>
  refine (fileOpen_core (r:=(0,p)) hinode (.inr ⟨(0,m),hm,rfl⟩)).any.seq ?_
  intro f fs₂ hf
  cases f with
  | none=>exact trivial
  | some f=>
   obtain ⟨rfl,core⟩:=hf
   exact ⟨rfl,p,core.setMapFile (some F.nextFile)⟩

lemma find_pushed (F:Fixed)(p:ℕ):
 KeyedList.find File.id F.nextFile (F.push p).files=some ⟨F.nextFile,p,0,false⟩:=by
 simp[KeyedList.find,Fixed.push]
lemma bitmapFileSize_lt (small:b.length<2^32):((bitmapFileSize b:ℕ):ℤ)<2^31:=by
 unfold bitmapFileSize
 omega

lemma freeMapCreate_core (h:Core directMedium Uncached [] [0,1] [] F fs)
 (noFile:F.freeMapFile=none):
 Holds (freeMapCreate direct) fs (fun _ fs'=>∃m p,Core directMedium Uncached [(0,m)] [1]
  [(0,p)] {F.push p with freeMapFile:=some F.nextFile} fs') AnyFault:=by
 unfold freeMapCreate
 rw[holds_bind,holds_get]
 refine (inodeCreate_core h (.inl noFile) (by omega)
  (bitmapFileSize_lt (by rw[h.mapSize];exact h.small)) (fun _ _ _ _ hc=>hc)
  (fun _ _ _ hc=>Uncached.notDirty hc)).any.seq ?_
 rintro ok fs₁ (⟨rfl,-⟩|⟨rfl,e,he,proper,-,-,core₁,header,-⟩)
 · exact trivial
 obtain ⟨s,m⟩:=e
 obtain rfl:s=0:=he
 have core₂:=core₁.promote proper header
 refine (openFreeMapFile_core core₂ mem_cons_self).seq ?_
 rintro f fs₂ ⟨rfl,p,core₃⟩
 refine (bitmapWrite_core core₃ (uncached_calm m) mem_cons_self (find_pushed F p)
  mem_cons_self).any.seq ?_
 rintro ok fs₃ ⟨⟨core₄,-⟩,-⟩
 cases ok with
 | false=>exact trivial
 | true=>exact ⟨m,p,core₄⟩

/-- What `do_format` leaves on disk: the bits of the free map in its file, and an
empty root directory. -/
def Formatted (L:Layout)(image:ℕ→Sector)(s:ℕ)(c:Cell):Prop:=
 Uncached s c ∧ (s∈dataSectors L.map → c.disk=image s) ∧ (s∈dataSectors L.root → c.disk=fun _=>0)

/-- The bits `b` claim the system's files, and are in the free map file. -/
structure MapImage (L:Layout)(disk:ℕ→Sector)(size:ℕ)(b:Bits):Prop where
 length:b.length=size
 claimed:Claimed b (L.system.flatMap extent)
 saved:∀k<bitmapFileSize b,(k:ℤ)<L.map.length ∧ dataByte disk L.map k=Bitmap.image b k

lemma doFormat_core (h:Core directMedium Uncached [] [0,1] [] F fs)(noFile:F.freeMapFile=none):
 Holds (doFormat direct) fs (fun _ fs'=>∃L disk b,MapImage L disk F.size b ∧
  Core directMedium (Formatted L disk) L.system [] []
   {F with freeMapFile:=some F.nextFile,nextFile:=F.nextFile+1} fs') AnyFault:=by
 refine (freeMapCreate_core h noFile).seq ?_
 rintro _ fs₁ ⟨m,p,core₁⟩
 have keeper:Keeper directMedium Uncached [(0,m)] [(0,p)]
   {F.push p with freeMapFile:=some F.nextFile}:=
  ⟨m,mem_cons_self,uncached_calm m,F.nextFile,_,rfl,find_pushed F p,mem_cons_self⟩
 refine (inodeCreate_core core₁ (.inr keeper) (by decide) (by decide) (fun _ _ _ _ hc=>hc)
  (fun _ _ _ hc=>Uncached.notDirty hc)).any.seq ?_
 rintro ok fs₂ (⟨rfl,-⟩|⟨rfl,e,he,proper,-,hdr,core₂,header,zero,stored,-⟩)
 · exact trivial
 obtain ⟨s,root⟩:=e
 obtain rfl:s=1:=he
 let L:Layout:=⟨m,root,congrArg InodeDisk.length hdr⟩
 have core₃:Core directMedium Uncached L.system [] [(0,p)]
   {F.push p with freeMapFile:=some F.nextFile} fs₂:=
  (core₂.promote proper header).reorder (Perm.swap _ _ _)
 have quiet:condemned fs₂.inodes=[]:=by
  apply core₃.condemned_nil
  intro r hr
  obtain rfl:=mem_singleton.1 hr
  exact ⟨(0,m),mem_cons_self,rfl⟩
 have mapFile:fs₂.freeMapFile=some F.nextFile:=congrArg Fixed.freeMapFile core₃.fixed
 have image:MapImage L fs₂.dev.disk F.size fs₂.freeMap:=by
  refine ⟨core₃.mapSize,?_,?_⟩
  · have claimed:=core₃.claimed
    rwa[live,quiet,append_nil,append_nil] at claimed
  · exact stored direct_faithful (by rw[mapFile];exact some_ne_none _) m mem_cons_self
 have formatted:Core directMedium (Formatted L fs₂.dev.disk) L.system [] [(0,p)]
   {F.push p with freeMapFile:=some F.nextFile} fs₂:=
  core₃.frame fun s hs=>⟨hs,fun _=>rfl,fun hr=>zero s hr⟩
 rw[if_pos rfl]
 unfold freeMapClose
 rw[holds_bind,holds_get,mapFile]
 refine (fileClose_core formatted (find_pushed F p) rfl rfl
  (.inr ⟨(0,m),mem_cons_self,rfl⟩)).any.imp ?_
 intro _ fs₃ core₄
 refine ⟨L,fs₂.dev.disk,fs₂.freeMap,image,?_⟩
 have closed:KeyedList.erase File.id F.nextFile (F.push p).files=F.files:=by
  simp[KeyedList.erase,Fixed.push]
 unfold Fixed.close at core₄
 rw[closed] at core₄
 exact core₄

lemma Core.readBack {L:Layout}{refs:List (ℕ×ℕ)}
 (h:Core directMedium (Formatted L disk) L.system [] refs F fs)
 (image:MapImage L disk F.size b){bytes:List UInt8}{n:ℕ}
 (hbytes:bytes=(List.range n).map
  (fun k=>dataByte (fun s=>(directMedium.cell fs.dev s).logical) L.map (0+k)))
 (full:bytes.length=bitmapFileSize fs.freeMap):ofImage fs.freeMap.length bytes=b:=by
 have length:fs.freeMap.length=b.length:=h.mapSize.trans image.length.symm
 rw[length]
 apply ofImage_image
 intro i hi
 obtain ⟨inside,hbyte⟩:=image.saved i hi
 have hmem:=(h.sector (e:=(0,L.map)) (mem_append_left _ mem_cons_self) inside).2
 have hdisk:fs.dev.disk (byteToSector L.map i)=disk (byteToSector L.map i):=
  (h.meets.2 _).1.2.1 hmem
 have hn:i<n:=by
  have:bitmapFileSize fs.freeMap=bitmapFileSize b:=by
   unfold bitmapFileSize
   rw[length]
  rw[hbytes,length_map,length_range] at full
  omega
 rw[hbytes,getD_eq_getElem?_getD,getElem?_map,getElem?_range hn,
  map_some,getD_some,Nat.zero_add,←hbyte,dataByte,dataByte,←hdisk]
 rfl

lemma freeMapOpen_core {L:Layout}(h:Core directMedium (Formatted L disk) L.system [] [] F fs)
 (noFiles:F.files=[])(image:MapImage L disk F.size b):
 Holds (freeMapOpen direct) fs (fun _ fs'=>
  Mounted directMedium L (fun _=>0) Uncached [] fs') AnyFault:=by
 refine (openFreeMapFile_core h mem_cons_self).seq ?_
 rintro f fs₁ ⟨rfl,p,core₁⟩
 have found:KeyedList.find File.id F.nextFile fs₁.files=some ⟨F.nextFile,p,0,false⟩:=by
  rw[show fs₁.files=_ from congrArg Fixed.files core₁.fixed]
  exact find_pushed F p
 unfold bitmapRead fileReadAt
 rw[holds_bind,holds_bind,holds_get,holds_bind,holds_bind,holds_theFile found]
 refine (inodeReadAt_core core₁ (r:=(0,p)) (e:=(0,L.map)) mem_cons_self
  (mem_append_left _ mem_cons_self) rfl _ _).any.imp ?_
 rintro bytes fs₂ ⟨⟨core₂,-⟩,hbytes⟩
 rw[holds_bind,holds_modify,holds_pure]
 split
 swap
 · exact trivial
 rename_i full
 have back:=core₁.readBack image hbytes (of_decide_eq_true full)
 have length:fs₂.freeMap.length=fs₁.freeMap.length:=core₂.mapSize.trans core₁.mapSize.symm
 have quiet:condemned fs₂.inodes=[]:=by
  apply core₂.condemned_nil
  intro r hr
  obtain rfl:=mem_singleton.1 hr
  exact ⟨(0,L.map),mem_cons_self,rfl⟩
 have core₃:Core directMedium (Formatted L disk) L.system [] [(0,p)]
   {F.push p with freeMapFile:=some F.nextFile}
   {fs₂ with freeMap:=ofImage fs₂.freeMap.length bytes}:=by
  rw[length,back]
  refine core₂.bits image.length ?_
  rw[live,quiet,append_nil,append_nil]
  exact image.claimed
 have framed:Core directMedium (Framed L (fun _=>0) Uncached) (L.system++[]) []
   (held [(0,⟨F.nextFile,p,0,false⟩)]) {F.push p with freeMapFile:=some F.nextFile}
   {fs₂ with freeMap:=ofImage fs₂.freeMap.length bytes}:=by
  refine core₃.frame fun s hs=>⟨hs.1,?_⟩
  rintro rfl
  rw[←hs.2.2 (rootStart_mem L)]
  exact hs.1.shows
 have handles:Handles {F.push p with freeMapFile:=some F.nextFile} [(0,⟨F.nextFile,p,0,false⟩)]:=by
  refine ⟨by simp[Fixed.push,noFiles],by simp[Fixed.push,noFiles],?_,?_,⟨_,rfl,mem_cons_self⟩,?_⟩
  · simp[Fixed.push,noFiles]
  · simp[Fixed.push,noFiles]
  · intro x hx hne
    obtain rfl:=mem_singleton.1 hx
    exact absurd rfl hne
 exact framed.mounted handles

lemma filesysInit_mounted (small:dev.size<2^32):
 Holds (filesysInit direct true) (boot dev) (fun _ fs=>
  ∃L,Mounted directMedium L (fun _=>0) Uncached [] fs) AnyFault:=by
 unfold filesysInit
 rw[holds_bind,holds_modify]
 refine (freeMapInit_core small).seq ?_
 intro _ fs₁ core₁
 refine (doFormat_core core₁ rfl).seq ?_
 rintro _ fs₂ ⟨L,disk,b,image,core₂⟩
 exact (freeMapOpen_core core₂ rfl image).imp fun _ _ h=>⟨L,h⟩

end Pintos.Filesys
