import Pintos.ElfImage
import Pintos.FilesysOwnership
import Pintos.Fsutil

/-! What the files contain, without the cache: who changes their bytes, and what is read. -/
namespace Pintos.Filesys
open ExecHoare ExecRuns Bitmap Cache Directory InodeTable InodeData List

/-- The bytes of the file whose header is in sector `s`. -/
def bytesAt (fs:Fs)(s:ℕ):List UInt8:=
 (List.range (headerAt fs s).2.length.toNat).map (dataByte fs.dev.disk (headerAt fs s).2)

/-- `n` bytes of a buffer in place of those from `offset` on. -/
def patch (buffer:ℕ→UInt8)(offset n:ℕ)(bytes:List UInt8):List UInt8:=
 bytes.mapIdx fun pos b=>if offset≤pos ∧ pos<offset+n then buffer (pos-offset) else b

def Call.Writes (fs:Fs)(s:ℕ):Call→Prop
 | .fileWriteAt f _ _ _=>target fs f=some s
 | _=>False

/-- Nothing is cached, and the sectors of the files are as on `disk`. -/
def Frozen (files:List Entry)(disk:ℕ→Sector)(s:ℕ)(c:Cell):Prop:=
 Uncached s c ∧ (s∈files.flatMap extent → c.disk=disk s)

section
variable {L:Layout}{content content':Sector}{named stay:List Entry}{spare:List ℕ}
 {refs:List (ℕ×ℕ)}{F:Fixed}
 {fs fs':Fs}{e:Entry}{f offset n:ℕ}{buffer:ℕ→UInt8}
 (h:Mounted directMedium L content Uncached named fs)
include h

lemma Mounted.bytes_congr (he:e∈live (L.system++named) fs.inodes)
 (same:∀s∈extent e,fs'.dev.disk s=fs.dev.disk s):bytesAt fs' e.1=bytesAt fs e.1:=by
 have header:headerAt fs' e.1=headerAt fs e.1:=by
  rw[headerAt,same e.1 mem_cons_self]
  rfl
 unfold bytesAt
 rw[header,h.header he]
 obtain ⟨hs,-,core⟩:=h
 refine map_congr_left fun pos hp=>?_
 rw[dataByte,same _ (mem_cons_of_mem _ (core.sector he ?_).2)]
 · rfl
 · have:=mem_range.1 hp
   omega

/-- A call that writes to no file finds the named ones as they are. -/
lemma Mounted.freeze:Mounted directMedium L content (Frozen named fs.dev.disk) named fs ∧
  Quiet directMedium L (Frozen named fs.dev.disk) ∧
  ∀s∉(L.system++named).flatMap extent,∀c b,Frozen named fs.dev.disk s c →
   Frozen named fs.dev.disk s {c with disk:=b}:=by
 obtain ⟨hs,handles,core⟩:=h
 refine ⟨⟨hs,handles,core.frame fun s hc=>⟨⟨hc.1,fun _=>rfl⟩,hc.2⟩⟩,⟨fun s c hc=>?_,?_⟩,?_⟩
 · exact ⟨c.evict_block,fun mem=>(Uncached.notDirty hc.1).evict_disk.trans (hc.2 mem)⟩
 · refine fun s system c b hc=>⟨rfl,fun mem=>?_⟩
   obtain ⟨e,he,hse⟩:=mem_flatMap.1 mem
   have apart:∀x∈L.system,s∉dataSectors x.2:=by
    intro x hx hd
    have same:=core.entry_inj (mem_append_left _ (mem_append_left _ hx))
     (mem_append_left _ (mem_append_right _ he)) (mem_cons_of_mem _ hd) hse
    exact disjoint_of_nodup_append (Nodup.of_map _ core.stay_nodup) hx (same▸he)
   simp only[Layout.system,mem_cons,not_mem_nil,or_false,forall_eq_or_imp,forall_eq] at apart
   exact absurd system (not_or.2 apart)
 · refine fun s out c b hc=>⟨hc.1,fun mem=>absurd ?_ out⟩
   rw[flatMap_append]
   exact mem_append_right _ mem

lemma Mounted.thaw (core:Core directMedium (Framed L content' (Frozen named fs.dev.disk)) stay
 spare refs F fs')(he:e∈named):bytesAt fs' e.1=bytesAt fs e.1:=by
 refine h.bytes_congr (mem_append_left _ (mem_append_right _ he)) fun s hs=>?_
 exact (core.meets.2 s).1.1.2 (mem_flatMap.2 ⟨e,he,hs⟩)

lemma Mounted.stored (he:e∈live (L.system++named) fs.inodes)
 (stores:Stores e.2 buffer offset n fs.dev fs'.dev):
 bytesAt fs' e.1=patch buffer offset n (bytesAt fs e.1) ∧
 ∀x∈live (L.system++named) fs.inodes,x.1≠e.1 → bytesAt fs' x.1=bytesAt fs x.1:=by
 have header:=h.header he
 have others:∀s∉dataSectors e.2,fs'.dev.disk s=fs.dev.disk s:=by
  obtain ⟨hs,-,core⟩:=h
  exact fun s out=>stores.others s fun pos hp eq=>out (eq▸(core.sector he hp).2)
 constructor
 · have after:headerAt fs' e.1=e:=by
    rw[headerAt,others e.1,←headerAt,header]
    obtain ⟨hs,-,core⟩:=h
    exact fun mem=>core.data_ne_header he he mem rfl
   rw[bytesAt,bytesAt,after,header,patch]
   refine ext_getElem (by simp) fun pos hp _=>?_
   simp only[length_map,length_range] at hp
   simpa using stores.bytes pos (by omega)
 · intro x hx other
   refine h.bytes_congr hx fun s hs=>others s fun mem=>other ?_
   obtain ⟨_,-,core⟩:=h
   rw[core.entry_inj hx he hs (mem_cons_of_mem _ mem)]

lemma fileWriteAt_bytes (hf:LiveHandle fs f)(size:ℤ):
 Holds (fileWriteAt direct f buffer size offset) fs (fun n fs'=>
  ∃s,target fs f=some s ∧ bytesAt fs' s=patch buffer offset n (bytesAt fs s) ∧
   ∀x∈named,x.1≠s → bytesAt fs' x.1=bytesAt fs x.1) NoFault:=by
 refine (fileWriteAt_mounted h uncached_plain hf buffer size offset).imp ?_
 rintro n fs' ⟨-,e,he,ht,stores⟩
 obtain ⟨own,others⟩:=h.stored he (stores direct_faithful)
 exact ⟨e.1,ht,own,fun x hx=>others x (mem_append_left _ (mem_append_right _ hx))⟩

lemma fileReadAt_bytes (hf:LiveHandle fs f)(size:ℤ):
 Holds (fileReadAt direct f size offset) fs (fun bytes _=>
  ∃s,target fs f=some s ∧ bytes=((bytesAt fs s).drop offset).take size.toNat) NoFault:=by
 refine (fileReadAt_mounted h hf size offset).imp ?_
 rintro bytes fs' ⟨-,e,he,ht,rfl⟩
 refine ⟨e.1,ht,?_⟩
 rw[bytesAt,h.header he]
 refine ext_getElem ?_ fun k _ _=>?_
 · simp only[readable,length_map,length_range,length_take,length_drop]
   omega
 · simp only[getElem_map,getElem_range,getElem_take,getElem_drop]
   rfl

/-- The loader and the archive functions, for which a file is its bytes, read the same of them. -/
theorem reads_agree (hf:LiveHandle fs f)(size:ℕ)(c:ElfImage.Content)(w:Fsutil.World)(name:CString):
 Holds (fileReadAt direct f size offset) fs (fun bytes _=>∃s,target fs f=some s ∧
  (c.bytes=bytesAt fs s → c.read offset size=bytes) ∧ (w.fs.find name=some (bytesAt fs s) →
   Fsutil.fileRead ⟨name,offset⟩ size w=.ok ((bytes,⟨name,offset+bytes.length⟩),w))) NoFault:=by
 refine (fileReadAt_bytes h hf size).imp ?_
 rintro _ _ ⟨s,hs,rfl⟩
 refine ⟨s,hs,fun same=>?_,fun found=>?_⟩
 · rw[← same]
   rfl
 · have content:(w.fs.find name).getD []=bytesAt fs s:=by rw[found];rfl
   rw[← content]
   rfl

lemma call_bytes (tracks:Tracks content named){c:Call}(allowed:c.Allowed fs):
 Holds (c.run direct) fs (fun _ fs'=>
  ∀e∈named,¬c.Writes fs e.1 → bytesAt fs' e.1=bytesAt fs e.1) NoFault:=by
 obtain ⟨frozen,quiet,loose⟩:=h.freeze
 have sound:=tracks.sound h c
 cases c with
 | filesysCreate name size stack=>
  obtain ⟨low,high⟩:=allowed
  obtain ⟨hs,handles,core⟩:=frozen
  refine (filesysCreate_core core handles.ready quiet loose low (by omega)
   fun e _ c hc=>hc.1.notDirty).imp ?_
  rintro ok fs' (⟨-,-,core'⟩|⟨-,e,content',-,-,core'⟩) x hx -
  · exact h.thaw core' hx
  · exact h.thaw (core'.frame fun s hc=>⟨hc.1.1,hc.2⟩) hx
 | filesysRemove name stack=>
  refine (filesysRemove_mounted frozen quiet sound).imp ?_
  rintro ok fs' (⟨-,_,-,core'⟩|⟨-,content',sector,-,_,-,core'⟩) x hx -
  all_goals exact h.thaw core' hx
 | filesysOpen name stack=>
  exact (filesysOpen_mounted frozen quiet sound).seq fun _ _ ⟨_,_,core'⟩ x hx _=>h.thaw core' hx
 | fileReopen f=>
  exact (fileReopen_mounted frozen quiet allowed).seq fun _ _ ⟨_,_,core'⟩ x hx _=>h.thaw core' hx
 | fileClose f=>
  exact (fileClose_mounted frozen quiet allowed).seq fun _ _ ⟨_,_,core'⟩ x hx _=>h.thaw core' hx
 | fileReadAt f size offset=>
  exact (fileReadAt_mounted frozen allowed size offset).seq
   fun _ _ ⟨⟨_,_,core'⟩,_⟩ x hx _=>h.thaw core' hx
 | fileWriteAt f buffer size offset=>
  refine (fileWriteAt_bytes h allowed size).seq ?_
  rintro n fs' ⟨s,ht,-,others⟩ x hx away
  exact others x hx fun same=>away (same▸ht)

end

/-- In every run a file's bytes change only by writes through it, and reads return them. -/
theorem file_bytes {dev:Device}(small:dev.size<2^32){fs₀ fs:Fs}{calls:List Call}
 (init:result (filesysInit direct true) (boot dev)=some ((),fs₀))
 (run:Runs (next direct) (fun fs c=>c.Allowed fs) fs₀ calls fs):
 (∀c:Call,c.Allowed fs → Holds (c.run direct) fs (fun _ fs'=>
  ∀e∈namedFiles fs,¬c.Writes fs e.1 → bytesAt fs' e.1=bytesAt fs e.1) NoFault) ∧
 ∀f,LiveHandle fs f → ∀size offset,
  (∀buffer,Holds (fileWriteAt direct f buffer size offset) fs (fun n fs'=>
   ∃s,target fs f=some s ∧ bytesAt fs' s=patch buffer offset n (bytesAt fs s) ∧
    ∀x∈namedFiles fs,x.1≠s → bytesAt fs' x.1=bytesAt fs x.1) NoFault) ∧
  Holds (fileReadAt direct f size offset) fs (fun bytes _=>
   ∃s,target fs f=some s ∧ bytes=((bytesAt fs s).drop offset).take size.toNat) NoFault:=by
 have start:Owning fs₀:=(filesysInit_owning small).result init
 obtain ⟨L,content,mounted,tracks⟩:=(start.runs run).tracked
 refine ⟨fun c=>call_bytes mounted tracks,fun f hf size offset=>⟨fun buffer=>?_,?_⟩⟩
 · exact fileWriteAt_bytes mounted hf size
 · exact fileReadAt_bytes mounted hf size

def rewriteFile:List Call:=
 [.filesysCreate nameA 4 (fun _=>0),.filesysOpen nameA (fun _=>0),.fileWriteAt 2 (fun _=>7) 2 1]

theorem file_bytes_rewritten:∃fs₀ fs,
 result (filesysInit direct true) (boot smallDevice)=some ((),fs₀) ∧
 Runs (next direct) (fun fs c=>c.Allowed fs) fs₀ rewriteFile fs ∧
 Holds (fileReadAt direct 2 3 1) fs (fun bytes _=>bytes=[7,7,0]) NoFault:=by
 obtain ⟨fs₀,fs,init,run,facts⟩:=exec_formatted rewriteFile
  (fun fs=>LiveHandle fs 2 ∧ target fs 2=some 4 ∧ bytesAt fs 4=[0,7,7,0]) (by decide +kernel)
 obtain ⟨live,leads,bytes⟩:=of_decide_eq_true facts
 refine ⟨fs₀,fs,init,run,((file_bytes (by decide) init run).2 2 live 3 1).2.imp ?_⟩
 rintro read _ ⟨s,hs,rfl⟩
 obtain rfl:s=4:=Option.some.inj (hs.symm.trans leads)
 rw[bytes]
 rfl

end Pintos.Filesys
