import Pintos.ExecReport

/-!
# Segments in memory

After `load` the segments of a file are in memory as the program headers say, unless what
`setup_stack` pushes reaches one of them.
-/
namespace Pintos.LoadedImage
open ExecHoare Interaction Paging PageMaps PagePools Process ElfImage Spawning PageFrames List
open SegmentPlan CheckedWords
open ArgumentStack (frame)

def userByte (m:Image)(a:Addr):Option UInt8:=do
 let pd←m.1.pd
 let page←pagedirGetPage pd a
 return m.2 page (pgOfs a)
def userEntry (m:Image)(a:Addr):Option Pte:=do
 let pd←m.1.pd
 lookupPage pd a
def segmentByte (c:Content)(h:Phdr)(i:ℕ):Option UInt8:=
 if i<h.filesz then c.bytes[h.offset+i]? else some 0
def Covers (h:Phdr)(n:ℕ):Prop:=∃i<h.memsz,(h.vaddr+i)/pgSize=n

/-- The segments are in memory, on pages of their own with the right that `PF_W` gives. -/
structure Exact (c:Content)(m:Image):Prop where
 bytes:∀h∈c.phdrs,h.type=1 → ∀i<h.memsz,∃b,segmentByte c h i=some b ∧
  userByte m (UInt32.ofNat (h.vaddr+i))=some b
 rights:∀h∈c.phdrs,h.type=1 → ∀n,Covers h n → ∃pte,
  userEntry m (pageAddr n)=some pte ∧ pte.present=true ∧ (pte.writable=true ↔ h.flags/2%2=1)
 apart:c.phdrs.Pairwise (fun h h'=>h.type=1 → h'.type=1 → ∀n,Covers h n → ¬Covers h' n)

/-- Where bytes that end at `PHYS_BASE` reach into a segment, they are those of the segment. -/
def Undisturbed (c:Content)(pushed:List UInt8):Prop:=
 ∀h∈c.phdrs,h.type=1 → ∀i<h.memsz,userBytes≤h.vaddr+i+pushed.length →
  pushed[h.vaddr+i+pushed.length-userBytes]?=segmentByte c h i

section
variable {c:Content}{h:Phdr}{i:ℕ}(memsz:h.memsz<2^32)(backed:Backed c h)
include memsz backed

lemma covered_pages (inside:i<h.memsz):
 (h.vaddr+i)/pgSize-firstPage h<pageCount h ∧ firstPage h≤(h.vaddr+i)/pgSize:=by
 obtain ⟨-,-,filesz,-,vaddr,-⟩:=validated memsz backed.1
 obtain ⟨sum,-⟩:=amounts_sum memsz backed.1
 have total:h.vaddr%pgSize+h.memsz≤h.amounts.1+h.amounts.2:=by
  unfold Phdr.amounts roundUp
  unfold userLimit pgSize at *
  split<;>dsimp only<;>omega
 unfold firstPage
 unfold pgSize at *
 omega

lemma segmentByte_eq (inside:i<h.memsz):
 segmentByte c h i=some (byteFrom c (h.offset/pgSize*pgSize) h.amounts.1 (h.vaddr%pgSize+i)):=by
 obtain ⟨valid,within⟩:=backed
 obtain ⟨ofs,-,filesz,-,vaddr,-⟩:=validated memsz valid
 have read:h.amounts.1=if 0<h.filesz then h.vaddr%pgSize+h.filesz else 0:=by
  unfold Phdr.amounts
  unfold userLimit pgSize at *
  split
  · dsimp only
    omega
  · rfl
 have place:h.offset/pgSize*pgSize+(h.vaddr%pgSize+i)=h.offset+i:=by
  unfold pgSize at *
  omega
 unfold segmentByte byteFrom
 rw[place]
 by_cases file:i<h.filesz
 · rw[if_pos (by omega:0<h.filesz)] at read
   rw[if_pos file,if_pos (by omega),getD_eq_getElem?_getD,getElem?_eq_getElem]
   · rfl
   · unfold Content.length at within
     omega
 · rw[if_neg file,if_neg]
   rw[read]
   split<;>omega

end

section
variable {c:Content}{h:Phdr}{pushed:List UInt8}{m:Image}

lemma memsz_lt (mem:h∈c.phdrs):h.memsz<2^32:=by
 obtain ⟨i,-,rfl⟩:=List.mem_map.1 mem
 exact wordAt_lt _ _
lemma offset_in_pages (v i:ℕ):((v+i)/pgSize-v/pgSize)*pgSize+(v+i)%pgSize=v%pgSize+i:=by
 unfold pgSize
 omega

lemma Overlaid.segment (laid:Overlaid c pushed m)(mem:h∈c.phdrs)(segment:h.type=1)
 (backed:Backed c h){i:ℕ}(inside:i<h.memsz):
 ∃pd pte b,m.1.pd=some pd ∧ Entry pd (UInt32.ofNat (h.vaddr+i)) pte ∧
  pte.writable=decide (h.flags/2%2=1) ∧ segmentByte c h i=some b ∧
  byteAt pd m.2 (UInt32.ofNat (h.vaddr+i))=overlay pushed (h.vaddr+i) b:=by
 obtain ⟨pd,there,shows⟩:=laid
 obtain ⟨index,first⟩:=covered_pages (memsz_lt mem) backed inside
 have small:(h.vaddr+i)%pgSize<pgSize:=Nat.mod_lt _ (by decide)
 have whole:(h.vaddr+i)/pgSize*pgSize+(h.vaddr+i)%pgSize=h.vaddr+i:=Nat.div_add_mod' ..
 have num:firstPage h+((h.vaddr+i)/pgSize-firstPage h)=(h.vaddr+i)/pgSize:=by
  omega
 have place:((h.vaddr+i)/pgSize-firstPage h)*pgSize+(h.vaddr+i)%pgSize=
   h.vaddr%pgSize+i:=offset_in_pages h.vaddr i
 have page:⟨(h.vaddr+i)/pgSize,decide (h.flags/2%2=1),fun j=>
   byteFrom c (h.offset/pgSize*pgSize) h.amounts.1
    (((h.vaddr+i)/pgSize-firstPage h)*pgSize+j)⟩∈images c:=by
  refine mem_flatMap.2 ⟨h,mem,?_⟩
  rw[imagesOf,if_pos segment]
  refine List.mem_map.2 ⟨_,mem_range.2 index,?_⟩
  rw[num]
 have address:pageAddr ((h.vaddr+i)/pgSize)+UInt32.ofNat ((h.vaddr+i)%pgSize)=
   UInt32.ofNat (h.vaddr+i):=by
  rw[pageAddr,←UInt32.ofNat_add,whole]
 obtain ⟨pte,entry,writable,byte⟩:=(shows _ page).entry small
 change Entry pd (pageAddr ((h.vaddr+i)/pgSize)+_) pte at entry
 change byteAt pd m.2 (pageAddr ((h.vaddr+i)/pgSize)+_)=
  overlay pushed ((h.vaddr+i)/pgSize*pgSize+(h.vaddr+i)%pgSize) _ at byte
 dsimp only at byte
 rw[address] at entry byte
 rw[whole,place] at byte
 exact ⟨pd,pte,_,there,entry,writable,segmentByte_eq (memsz_lt mem) backed inside,byte⟩

lemma userByte_entry {pd:PageDir}{a:Addr}{pte:Pte}(there:m.1.pd=some pd)
 (entry:Entry pd a pte):userByte m a=some (byteAt pd m.2 a):=by
 rw[userByte,there,entry.byteAt]
 change (pagedirGetPage pd a).bind _=_
 rw[entry.getPage]
 rfl

lemma covers_listed (accepted:Accepted c h)(mem:h∈c.phdrs)(segment:h.type=1){n:ℕ}
 (covers:Covers h n):n∈(pagesOf h).map (·.1):=by
 obtain ⟨i,inside,rfl⟩:=covers
 obtain ⟨index,first⟩:=covered_pages (memsz_lt mem) (accepted.2 segment) inside
 rw[pagesOf,if_pos segment,List.map_map]
 refine List.mem_map.2 ⟨_,mem_range'_1.2 ⟨first,?_⟩,rfl⟩
 omega

lemma segment_low (accepted:Accepted c h)(mem:h∈c.phdrs)(segment:h.type=1)
 {i:ℕ}(inside:i<h.memsz):h.vaddr+i<userBytes:=by
 obtain ⟨-,-,-,-,vaddr,-⟩:=validated (memsz_lt mem) (accepted.2 segment).1
 change h.vaddr+i<userLimit*pgSize
 omega

variable (accepted:∀h∈c.phdrs,Accepted c h)(distinct:((segments c).map (·.1)).Nodup)
include accepted distinct

lemma covers_apart:
 c.phdrs.Pairwise (fun h h'=>h.type=1 → h'.type=1 → ∀n,Covers h n → ¬Covers h' n):=by
 rw[segments,map_flatMap,nodup_flatMap] at distinct
 refine distinct.2.imp_of_mem fun {h h'} mem mem' disjoint segment segment' n covers covers'=>?_
 exact disjoint (covers_listed (accepted h mem) mem segment covers)
  (covers_listed (accepted h' mem') mem' segment' covers')

lemma exact_iff (laid:Overlaid c pushed m):Exact c m ↔ Undisturbed c pushed:=by
 constructor
 · intro exact_ h mem segment i inside reaches
   obtain ⟨pd,pte,b,there,entry,-,byte,now⟩:=
    laid.segment mem segment ((accepted h mem).2 segment) inside
   obtain ⟨b',wanted,found⟩:=exact_.bytes h mem segment i inside
   have bound:=segment_low (accepted h mem) mem segment inside
   rw[userByte_entry there entry,now,overlay,if_pos reaches,←wanted] at found
   rw[←found,getD_eq_getElem?_getD,getElem?_eq_getElem (by omega)]
   rfl
 · intro undisturbed
   refine ⟨?_,?_,covers_apart accepted distinct⟩
   · intro h mem segment i inside
     obtain ⟨pd,pte,b,there,entry,-,byte,now⟩:=
      laid.segment mem segment ((accepted h mem).2 segment) inside
     refine ⟨b,byte,?_⟩
     rw[userByte_entry there entry,now,overlay]
     split
     · rename_i reaches
       rw[getD_eq_getElem?_getD,undisturbed h mem segment i inside reaches,byte]
       rfl
     · rfl
   · rintro h mem segment n ⟨i,inside,rfl⟩
     obtain ⟨pd,pte,b,there,entry,writable,-⟩:=
      laid.segment mem segment ((accepted h mem).2 segment) inside
     have bound:=segment_low (accepted h mem) mem segment inside
     have number:pageNo (UInt32.ofNat (h.vaddr+i))=(h.vaddr+i)/pgSize:=by
      rw[pageNo,UInt32.toNat_ofNat',Nat.mod_eq_of_lt]
      rw[userBytes_eq] at bound
      omega
     have user:=isUserVaddr_iff.1 entry.user
     rw[number] at user
     have first:=entry.move ((pageNo_pageAddr user).trans number.symm)
     refine ⟨pte,?_,entry.present,?_⟩
     · rw[userEntry,there]
       exact first.found
     · rw[writable,decide_eq_true_eq]

end

section
variable {env:Env Shelf}{r:ℤ}{m:Image}{c:Content}{name input:List UInt8}

/-- For the file `c` the arithmetic of `load` stays in range, and if it returns true the segments
are in memory. -/
structure LoadsExactly (env:Env Shelf)(r:ℤ)(m:Image)(name input:List UInt8)
  (c:Content):Prop where
 planned:∀h:Phdr,h.memsz<2^32 → validateSegment h c.length=true → Planned h
 table:∀ofs:ℕ,(c.read ofs 32).length=32 → int32 (ofs+32)=.ok (ofs+32)
 loaded:Draws env r (load env.init (some name) input) m (fun image m'=>
  image.isSome=true → Exact c m')

def stackBytes (m:Image)(c:Content)(input:List UInt8):List UInt8:=
 pushedFor ((m.1.pools.free false).length-1) (segments c) (input.take (pgSize-1))

section
variable (found:m.1.files.lookup m.1.files.opens name=some c)(startable:Startable 1 m.1 name input)
include found startable

lemma startable_exact_iff {m':Image}(laid:Overlaid c (stackBytes m c input) m'):
 Exact c m' ↔ Undisturbed c (stackBytes m c input):=by
 obtain ⟨-,c',found',loadable⟩:=startable
 obtain rfl:c=c':=Option.some.inj (found.symm.trans found')
 exact exact_iff loadable.executable.phdrs loadable.room.distinct laid

lemma startable_undisturbed (fits:argBytes (input.take (pgSize-1))≤pgSize):
 Undisturbed c (stackBytes m c input):=by
 obtain ⟨-,c',found',loadable⟩:=startable
 obtain rfl:c=c':=Option.some.inj (found.symm.trans found')
 intro h mem segment i inside reaches
 have accepted:=loadable.executable.phdrs h mem
 have bound:=segment_low accepted mem segment inside
 unfold stackBytes pushedFor at reaches
 split at reaches
 · rw[length_nil] at reaches
   omega
 · rename_i copied
   have distinct:=(loadable.stack.resolve_left copied).1.distinct
   rw[map_append,nodup_append'] at distinct
   have page:(h.vaddr+i)/pgSize=userLimit-1:=by
    rw[ArgumentStack.frame_length,←argBytes_eq] at reaches
    rw[userBytes_eq] at *
    unfold userLimit pgSize at *
    omega
   have covered:=covers_listed accepted mem segment ⟨i,inside,rfl⟩
   obtain ⟨p,listed,num⟩:=List.mem_map.1 covered
   have old:=List.mem_map_of_mem (f:=(·.1)) (mem_flatMap.2 ⟨h,mem,listed⟩)
   refine absurd ?_ (distinct.2.2 old)
   rw[num,page]
   exact mem_singleton.2 rfl

end

lemma load_overlaid (shelved:env.files=shelf)(kernelOnly:KernelOnly env.init)
 (found:m.1.files.lookup m.1.files.opens name=some c)(r:ℤ)(input:List UInt8):
 Records env r (load env.init (some name) input) m
  (fun image=>Decides (Startable 1 m.1 name input) (Overlaid c (stackBytes m c input)) image.isSome)
  (fun _=>¬Startable 1 m.1 name input):=
 (load_draws shelved kernelOnly name input).imp fun _ _ decided=>
  decided.imp Iff.rfl fun laid=>laid c found

lemma LoadsExactly.undisturbed (exact_:LoadsExactly env r m name input c)
 (shelved:env.files=shelf)(kernelOnly:KernelOnly env.init)
 (found:m.1.files.lookup m.1.files.opens name=some c)
 (startable:Startable 1 m.1 name input):Undisturbed c (stackBytes m c input):=by
 have all:=((load_overlaid shelved kernelOnly found r input).and exact_.loaded).mono
  (fun _ _ facts=>facts) fun _ bad=>bad startable
 obtain ⟨image,m',-,⟨success,laid⟩,exact_⟩:=all.returns
 have loaded:=success.2 startable
 exact (startable_exact_iff found startable (laid loaded)).1 (exact_ loaded)

/-- The segments are loaded exactly if the arguments do not reach into one, or have there the bytes
that it has. -/
theorem segments_exact_iff (shelved:env.files=shelf)(kernelOnly:KernelOnly env.init)
 (found:m.1.files.lookup m.1.files.opens name=some c):
 LoadsExactly env r m name input c ↔
  (Startable 1 m.1 name input → Undisturbed c (stackBytes m c input)):=by
 constructor
 · exact fun exact_=>exact_.undisturbed shelved kernelOnly found
 intro undisturbed
 refine ⟨fun h=>planned,fun ofs whole=>?_,?_⟩
 · have short:=c.short
   refine int32_of_lt (x:=ofs+32) ?_
   rw[Content.read,List.length_take,length_drop] at whole
   omega
 · refine (load_overlaid shelved kernelOnly found r input).any.imp ?_
   rintro image m' ⟨success,laid⟩ loaded
   have startable:=success.1 loaded
   exact (startable_exact_iff found startable (laid loaded)).2 (undisturbed startable)

end

def oneSegment (vaddr filesz memsz flags:ℕ):Content where
 bytes:=[0x7f,0x45,0x4c,0x46,1,1,1]++replicate 9 0++[2,0,3,0,1,0,0,0] ++
  replicate 4 0++wordBytes 52++replicate 10 0++[32,0,1,0] ++
  replicate 6 0++wordBytes 1++wordBytes 0++wordBytes vaddr++wordBytes 0 ++
  wordBytes filesz++wordBytes memsz++wordBytes flags++wordBytes 0
 short:=by
  have length:84<2^31:=by decide
  exact length

def lowData:Content:=oneSegment 0xbfffe000 0 4096 2
def longWord:List UInt8:=replicate 4080 97
def longLine:List UInt8:=97::Process.blank::longWord
def startOf (c:Content):Image:=((calledFor c).sys,fun _ _=>0xcc)
lemma shelfEnv_files:shelfEnv.files=shelf:=rfl
lemma shelfEnv_init:KernelOnly shelfEnv.init:=fun _ _=>rfl
lemma lowData_phdrs:lowData.phdrs=[⟨1,0,0xbfffe000,0,4096,2⟩]:=by rfl
lemma lowData_segments:segments lowData=[(786430,true)]:=by
 rw[segments,lowData_phdrs]
 rfl

lemma longLine_tokens:tokens longLine=[[97],longWord]:=by
 have last:Strtok.words [Process.blank] longWord=[longWord]:=by
  refine Strtok.words_last (cons_ne_nil 97 (replicate 4079 97)) fun x mem=>?_
  rw[eq_of_mem_replicate mem]
  decide
 rw[←Strtok.words_blank,←last]
 change Strtok.words _ ([97]++Process.blank::longWord)=_
 refine Strtok.words_first (by decide) (fun x mem=>?_) (by decide)
 rw[mem_singleton.1 mem]
 decide

lemma longLine_bytes:stringBytes [[97],longWord]=4083:=by
 rw[stringBytes_cons,stringBytes_cons,longWord,length_replicate]
 rfl

lemma room_two {n:ℕ}(low:n<userLimit-1)(w:Bool):Room 9 4 [(n,w)] ∧ Room 8 4 [(n,w),stackTop]:=by
 have first:∀kernel,Room (kernel+1) 4 [(n,w)]:=fun kernel=>
  (room_nil (kernel+1) 4).snoc_iff.2 ⟨Nat.succ_pos 3,nofun,.inr (Nat.succ_pos kernel)⟩
 have tables:(tablesOf [(n,w)]).card≤1:=toFinset_card_le _
 refine ⟨first 8,(first 7).snoc_iff.2 ⟨Nat.succ_lt_succ (Nat.succ_pos 2),?_,.inr ?_⟩⟩
 rotate_left
 · omega
 rw[map_singleton,mem_singleton]
 exact (Nat.ne_of_lt low).symm

lemma loadable_one {c:Content}{n:ℕ}{w:Bool}{line:List UInt8}
 (executable:Executable c)(single:segments c=[(n,w)])(low:n<userLimit-1)
 (fit:ArgsFit line [(n,w),stackTop]):Loadable c 9 4 line:=by
 obtain ⟨one,two⟩:=room_two low w
 refine ⟨executable,single▸one,.inr ?_⟩
 rw[single]
 exact ⟨two,fit⟩

lemma lowData_loadable:Loadable lowData 9 4 longLine:=by
 have pushed:argBytes longLine=4107:=by
  rw[argBytes_eq,longLine_tokens,longLine_bytes]
  rfl
 refine loadable_one ⟨by decide,by unfold Ehdr.Valid;decide,.inr (by decide),?_⟩
  lowData_segments (by decide) ⟨?_,?_⟩
 · intro h mem
   obtain rfl:=mem_singleton.1 mem
   exact ⟨by decide,fun _=>⟨by decide,by decide⟩⟩
 · rw[longLine_tokens]
   decide
 · intro n inside low
   rw[pushed] at low
   unfold userLimit pgSize at low
   unfold userLimit at inside
   have last:n=786430 ∨ n=786431:=by omega
   rcases last with rfl|rfl
   · exact mem_cons_self
   · exact mem_cons_of_mem _ (mem_singleton.2 rfl)

lemma longLine_cut:longLine.take (pgSize-1)=longLine:=by
 refine take_of_length_le ?_
 rw[longLine,length_cons,length_cons,longWord,length_replicate]
 decide
lemma lowData_startable:Startable 1 (startOf lowData).1 [97] longLine:=by
 refine ⟨by decide,lowData,rfl,?_⟩
 rw[longLine_cut]
 exact lowData_loadable
lemma stackBytes_longLine:stackBytes (startOf lowData) lowData longLine=frame [[97],longWord]:=by
 have tables:(tablesOf [((786430:ℕ),true)]).card≤1:=toFinset_card_le _
 have pages:((startOf lowData).1.pools.free false).length=10:=rfl
 rw[stackBytes,longLine_cut,lowData_segments,pages,pushedFor,longLine_tokens,if_neg (by omega)]

/-- What is pushed for a long word goes on below the stack page, and `load` returns true. -/
theorem segments_overwritten:Process.strtok longLine=some [97] ∧
  (startOf lowData).1.files.lookup 0 [97]=some lowData ∧
  Startable 1 (startOf lowData).1 [97] longLine ∧
  ¬LoadsExactly shelfEnv 0 (startOf lowData) [97] longLine lowData:=by
 have found:(startOf lowData).1.files.lookup 0 [97]=some lowData:=rfl
 refine ⟨by rw[Process.strtok,longLine_tokens];rfl,found,lowData_startable,fun exact_=>?_⟩
 have undisturbed:=exact_.undisturbed shelfEnv_files shelfEnv_init found lowData_startable
 have length:(frame [[97],longWord]).length=4107:=by
  rw[ArgumentStack.frame_length,longLine_bytes]
  rfl
 rw[stackBytes_longLine] at undisturbed
 -- The lowest byte of `argc`, in a segment of zeros.
 have argc:=undisturbed ⟨1,0,0xbfffe000,0,4096,2⟩
  (by rw[lowData_phdrs];exact mem_singleton.2 rfl) rfl 4089 (by decide)
 rw[length,userBytes_eq] at argc
 have two:(frame [[97],longWord])[4]?=some 2:=rfl
 have both:=two.symm.trans (argc (by decide))
 cases both

def lowText:Content:=oneSegment 0x08048000 84 100 6
lemma lowText_phdrs:lowText.phdrs=[⟨1,0,0x08048000,84,100,6⟩]:=by rfl
lemma lowText_segments:segments lowText=[(0x08048,true)]:=by
 rw[segments,lowText_phdrs]
 rfl

lemma lowText_startable:Startable 1 (startOf lowText).1 [97] [97]:=by
 have pushed:argBytes [97]=22:=by decide
 refine ⟨by decide,lowText,rfl,?_⟩
 refine loadable_one ⟨by decide,by decide,.inr (by decide),?_⟩
  lowText_segments (by decide) ⟨by decide,?_⟩
 · intro h mem
   rw[lowText_phdrs] at mem
   obtain rfl:=mem_singleton.1 mem
   exact ⟨by decide,fun _=>⟨by decide,by decide⟩⟩
 · intro n inside low
   change (_-argBytes [97])/_≤n at low
   unfold userLimit pgSize at low
   unfold userLimit at inside
   obtain rfl:n=786431:=by omega
   exact mem_cons_of_mem _ (mem_singleton.2 rfl)

theorem segments_exact_text:Startable 1 (startOf lowText).1 [97] [97] ∧
  LoadsExactly shelfEnv 0 (startOf lowText) [97] [97] lowText:=by
 have found:(startOf lowText).1.files.lookup 0 [97]=some lowText:=rfl
 refine ⟨lowText_startable,(segments_exact_iff shelfEnv_files shelfEnv_init found).2 ?_⟩
 exact fun startable=>startable_undisturbed found startable (by decide)

end Pintos.LoadedImage
