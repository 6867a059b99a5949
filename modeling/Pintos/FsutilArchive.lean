import Pintos.Fsutil

/-!
# The archive round trip

`Archived` is the layout that `fsutil_append` leaves on the device, file after file, and that
`fsutil_extract` reads.
-/
namespace Pintos.Fsutil
open ExecHoare Printf Ustar Function List Option
open Directory (CString nameMax)
open Cache (Sector)

section

def space (bytes:List UInt8):ℕ:=1+sectorsFor bytes.length
def Stored (data:ℕ→Sector)(start:ℕ)(bytes:List UInt8):Prop:=
 ∀k<sectorsFor bytes.length,data (start+k)=sectorOf (bytes.drop (512*k))

structure Holding (data:ℕ→Sector)(start:ℕ)(name:CString)(bytes:List UInt8):Prop where
 header:parseHeader (data start)=.ok (.file name .regular bytes.length)
 body:Stored data (start+1) bytes

def Archived (data:ℕ→Sector):ℕ → List (CString×List UInt8) → Prop
 | _,[]=>True
 | start,file::files=>
  Holding data start file.1 file.2 ∧ Archived data (start+space file.2) files
def total (files:List (CString×List UInt8)):ℕ:=(files.map fun file=>space file.2).sum

variable {data data':ℕ→Sector}{start:ℕ}{bytes:List UInt8}

lemma Stored.congr (h:Stored data start bytes)
 (same:∀q<start+sectorsFor bytes.length,data' q=data q):
 Stored data' start bytes:=by
 intro k bound
 rw[same _ (by omega),h k bound]

lemma Holding.congr {name:CString}(h:Holding data start name bytes)
 (same:∀q<start+space bytes,data' q=data q):Holding data' start name bytes:=by
 unfold space at same
 refine ⟨?_,h.body.congr fun q bound=>same q (by omega)⟩
 rw[same _ (by omega),h.header]

lemma sectorsFor_chunk {size:ℕ}(positive:0<size):
 sectorsFor size=1+sectorsFor (size-min 512 size):=by
 unfold sectorsFor
 omega

lemma stored_iff (nonempty:0<bytes.length):Stored data start bytes ↔
  data start=sectorOf bytes ∧ Stored data (start+1) (bytes.drop 512):=by
 have count:sectorsFor bytes.length=1+sectorsFor (bytes.drop 512).length:=by
  rw[length_drop]
  unfold sectorsFor
  omega
 constructor
 · intro h
   refine ⟨by simpa using h 0 (by omega),?_⟩
   intro k bound
   have next:=h (1+k) (by omega)
   rwa[←Nat.add_assoc,Nat.mul_add,Nat.mul_one,←drop_drop] at next
 · rintro ⟨first,others⟩ k bound
   rcases k with _|k
   · simpa using first
   · have next:=others k (by omega)
     rw[drop_drop] at next
     rw[show start+(k+1)=start+1+k by omega,next]
     congr 2
     omega

lemma sectorOf_take (bytes:List UInt8){n:ℕ}(enough:min 512 bytes.length≤n):
 sectorOf (bytes.take n)=sectorOf bytes:=by
 funext i
 unfold sectorOf
 by_cases inside:i.val<bytes.length
 · simp[show i.val<n by omega]
 · simp[getElem?_take,getElem?_eq_none (show bytes.length ≤ i.val by omega)]

lemma bytesOf_sectorOf (bytes:List UInt8):
 (bytesOf (sectorOf bytes)).take (min 512 bytes.length)=bytes.take 512:=by
 apply ext_getElem?
 intro i
 by_cases inside:i < min 512 bytes.length
 · have small:i<512:=by omega
   have short:i<bytes.length:=by omega
   rw[getElem?_take,if_pos inside,getElem?_take,if_pos small]
   simp[bytesOf,sectorOf,small,short]
 · rw[getElem?_eq_none,getElem?_eq_none]
   · simp
     omega
   · simp[bytesOf]
     omega

lemma drop_chunk {content:List UInt8}{pos size:ℕ}(rest:(content.drop pos).length=size):
 content.drop (pos+min 512 size)=(content.drop pos).drop 512:=by
 rw[←drop_drop]
 by_cases full:512 ≤ size
 · rw[Nat.min_eq_left full]
 · rw[drop_eq_nil_of_le (by omega),drop_eq_nil_of_le (by omega)]

variable {w:World}

structure Wrote (n:ℕ)(w w':World):Prop where
 fs:w'.fs=w.fs
 size:w'.scratch.size=w.scratch.size
 pos:w'.appendSector=w.appendSector+n
 old:∀q<w.appendSector,w'.scratch.data q=w.scratch.data q

lemma Wrote.trans {m n:ℕ}{w₁ w₂:World}(h:Wrote m w w₁)(h':Wrote n w₁ w₂):
 Wrote (m+n) w w₂ where
 fs:=h'.fs.trans h.fs
 size:=h'.size.trans h.size
 pos:=by rw[h'.pos,h.pos,Nat.add_assoc]
 old q bound:=by rw[h'.old q (by rw[h.pos];omega),h.old q bound]

/-- One sector more may be changed, that of the end marker. -/
structure Appended (n:ℕ)(w w':World):Prop extends Wrote n w w' where
 beyond:∀q,w.appendSector+n<q → w'.scratch.data q=w.scratch.data q

lemma Appended.trans {m n:ℕ}{w₁ w₂:World}(h:Appended m w w₁)(h':Appended n w₁ w₂):
 Appended (m+n) w w₂ where
 toWrote:=h.toWrote.trans h'.toWrote
 beyond q bound:=by rw[h'.beyond q (by rw[h.pos];omega),h.beyond q (by omega)]

lemma writeNext_spec (buffer:Sector)(room:w.appendSector<w.scratch.size):Holds (writeNext buffer) w
  (fun _ w'=>Appended 1 w w' ∧ w'.scratch.data w.appendSector=buffer) NoFault:=by
 simp only[writeNext,blockWrite,holds_bind,holds_get]
 rw[if_neg (by omega)]
 simp only[holds_set]
 refine ⟨⟨⟨rfl,rfl,rfl,?_⟩,?_⟩,?_⟩
 · intro q bound
   exact update_of_ne (by omega) _ _
 · intro q bound
   exact update_of_ne (by omega) _ _
 · exact update_self _ _ _

lemma appendCopy_spec (name:CString){content:List UInt8}(size:ℕ)(src:Handle)
 (file:w.fs.find src.name=some content)(rest:(content.drop src.pos).length=size)
 (room:w.appendSector+sectorsFor size≤w.scratch.size):
 Holds (appendCopy name src size) w (fun _ w'=>Appended (sectorsFor size) w w' ∧
   Stored w'.scratch.data w.appendSector (content.drop src.pos)) NoFault:=by
 induction size using Nat.strong_induction_on generalizing src w with
 | _ size ih=>
 rw[appendCopy]
 by_cases positive:0<size
 · have more:=sectorsFor_chunk positive
   have chunk:((content.drop src.pos).take (min 512 size)).length=min 512 size:=by
    rw[List.length_take,rest]
    omega
   rw[if_pos positive]
   simp only[holds_bind,holds_get]
   rw[if_neg (by omega)]
   simp only[fileRead,fileContent,holds_bind,holds_get,holds_pure,file,getD_some]
   rw[if_neg (by simpa using chunk)]
   refine (writeNext_spec _ (by omega)).seq ?_
   rintro - w₁ ⟨wrote,first⟩
   have after:=drop_chunk rest
   have tail:(content.drop (src.pos+min 512 size)).length=size-min 512 size:=by
    rw[after,length_drop,rest]
    omega
   rw[←wrote.fs] at file
   rw[chunk]
   refine (ih _ (by omega) ⟨src.name,src.pos+min 512 size⟩ file tail ?_).imp ?_
   · rw[wrote.pos,wrote.size]
     omega
   · rintro - w₂ ⟨others,stored⟩
     rw[more]
     refine ⟨wrote.trans others,(stored_iff (by omega)).2 ⟨?_,?_⟩⟩
     · rw[others.old _ (by rw[wrote.pos];omega),first]
       exact sectorOf_take _ (by omega)
     · rwa[wrote.pos,after] at stored
 · have none:size=0:=by omega
   rw[if_neg positive,holds_pure,none]
   refine ⟨⟨⟨rfl,rfl,rfl,fun _ _=>rfl⟩,fun _ _=>rfl⟩,?_⟩
   intro k bound
   rw[rest,none] at bound
   exact absurd bound (Nat.not_lt_zero k)

lemma markEnd_spec (behind:UInt8)(room:w.appendSector<w.scratch.size):Holds (markEnd behind) w
  (fun _ w'=>Appended 0 w w' ∧ w'.scratch.data w'.appendSector=shifted behind) NoFault:=by
 simp only[markEnd,blockWrite,holds_bind,holds_get]
 rw[if_neg (by omega)]
 simp only[holds_set]
 rw[if_neg (by omega),holds_set]
 have other:∀q,q≠w.appendSector →
   update (update w.scratch.data w.appendSector zeroSector) w.appendSector (shifted behind) q=
    w.scratch.data q:=fun q ne=>by rw[update_of_ne ne,update_of_ne ne]
 exact ⟨⟨⟨rfl,rfl,rfl,fun q bound=>other q (by omega)⟩,fun q bound=>other q (by omega)⟩,
  update_self _ _ _⟩

structure Sociable (name:CString):Prop where
 nonempty:name.val≠[]
 short:name.val.length≤nameMax
 plain:stripAntisocialPrefixes name=name

lemma append_spec {name:CString}(buffer:Buffer){bytes:List UInt8}
 (short:(stripAntisocialPrefixes name).val.length≤99)(file:w.fs.find name=some bytes)(fits:bytes.length ≤ intMax)
 (room:w.appendSector+space bytes<w.scratch.size):
 Holds (append name buffer) w (fun _ w'=>Appended (space bytes) w w' ∧
   Holding w'.scratch.data w.appendSector (stripAntisocialPrefixes name) bytes ∧
   w'.scratch.data w'.appendSector=shifted buffer.behind) NoFault:=by
 obtain ⟨header,made,parsed⟩:=makeHeader_parse .regular buffer.content short fits
 rw[if_pos rfl] at parsed
 unfold space at room ⊢
 simp only[append,filesysOpen,fileLength,fileContent,holds_bind,holds_get,holds_pure,file,
  map_some,getD_some,made]
 refine (writeNext_spec header (by omega)).imp ?_
 rintro - w₁ ⟨wrote,first⟩
 rw[←wrote.fs] at file
 refine (appendCopy_spec name bytes.length ⟨name,0⟩ file rfl ?_).imp ?_
 · rw[wrote.pos,wrote.size]
   omega
 rintro - w₂ ⟨copied,stored⟩
 refine (markEnd_spec buffer.behind ?_).imp ?_
 · rw[copied.pos,wrote.pos,copied.size,wrote.size]
   omega
 rintro - w₃ ⟨marked,marker⟩
 have kept:∀q<w.appendSector+1+sectorsFor bytes.length,
   w₃.scratch.data q=w₂.scratch.data q:=fun q bound=>
  marked.old q (by rw[copied.pos,wrote.pos];exact bound)
 refine ⟨(wrote.trans copied).trans marked,⟨?_,?_⟩,marker⟩
 · rw[kept _ (by omega),copied.old _ (by rw[wrote.pos];omega),first,parsed]
 · rw[wrote.pos,drop_zero] at stored
   exact stored.congr kept

def endSector (calls:List (CString×Buffer))(before:Sector):Sector:=
 calls.foldl (fun _ call=>shifted call.2.behind) before
def filesOf (calls:List (CString×Buffer))(contents:CString→List UInt8):List (CString×List UInt8):=
 calls.map fun call=>(stripAntisocialPrefixes call.1,contents call.1)

lemma appendAll_spec (calls:List (CString×Buffer))(contents:CString→List UInt8)
 (short:∀call∈calls,(stripAntisocialPrefixes call.1).val.length≤99)
 (files:∀call∈calls,w.fs.find call.1=some (contents call.1))
 (fits:∀call∈calls,(contents call.1).length ≤ intMax)
 (room:w.appendSector+total (filesOf calls contents)<w.scratch.size):
 Holds (appendAll calls) w (fun _ w'=>Appended (total (filesOf calls contents)) w w' ∧
   Archived w'.scratch.data w.appendSector (filesOf calls contents) ∧
   w'.scratch.data w'.appendSector=endSector calls (w.scratch.data w.appendSector)) NoFault:=by
 induction calls generalizing w with
 | nil=>exact ⟨⟨⟨rfl,rfl,rfl,fun _ _=>rfl⟩,fun _ _=>rfl⟩,trivial,rfl⟩
 | cons call calls ih=>
  have sum:total (filesOf (call::calls) contents)=
    space (contents call.1)+total (filesOf calls contents):=by
   simp[total,filesOf]
  refine (append_spec call.2 (short call mem_cons_self) (files call mem_cons_self)
   (fits call mem_cons_self) (by omega)).seq ?_
  rintro - w₁ ⟨wrote,holding,marker⟩
  refine (ih (fun c mem=>short c (mem_cons_of_mem call mem)) ?_
   (fun c mem=>fits c (mem_cons_of_mem call mem)) ?_).imp ?_
  · intro c mem
    rw[wrote.fs]
    exact files c (mem_cons_of_mem call mem)
  · rw[wrote.pos,wrote.size]
    omega
  · rintro - w₂ ⟨others,archived,last⟩
    rw[wrote.pos] at archived
    refine ⟨wrote.trans others,⟨?_,archived⟩,?_⟩
    · exact holding.congr fun q bound=>others.old q (by rw[wrote.pos];exact bound)
    · rw[last,marker]
      rfl

end

variable {before:List (CString×List UInt8)}{w:World}

lemma find_last {fs:FileSystem}{name:CString}{content:List UInt8}
 (files:fs.files=before++[(name,content)])(fresh:name∉before.map Prod.fst):
 fs.find name=some content:=by
 have others:before.find? (fun file=>file.1=name)=none:=by
  rw[find?_eq_none]
  intro file mem same
  exact fresh (List.mem_map.2 ⟨file,mem,by simpa using same⟩)
 rw[FileSystem.find,files,find?_append,others]
 simp

lemma map_last {name:CString}(content content':List UInt8)(fresh:name∉before.map Prod.fst):
 (before++[(name,content)]).map (fun f=>if f.1=name then (f.1,content') else f)=
  before++[(name,content')]:=by
 rw[map_append]
 congr 1
 · conv_rhs=>rw[←List.map_id before]
   apply map_congr_left
   intro file mem
   have other:file.1≠name:=fun same=>fresh (List.mem_map.2 ⟨file,mem,same⟩)
   simp[other]
 · simp

structure Read (n:ℕ)(w w':World):Prop where
 scratch:w'.scratch=w.scratch
 pos:w'.extractSector=w.extractSector+n

lemma Read.trans {m n:ℕ}{w₁ w₂:World}(h:Read m w w₁)(h':Read n w₁ w₂):
 Read (m+n) w w₂ where
 scratch:=h'.scratch.trans h.scratch
 pos:=by rw[h'.pos,h.pos,Nat.add_assoc]

lemma readNext_spec (room:w.extractSector<w.scratch.size):
 Holds readNext w (fun buffer w'=>buffer=w.scratch.data w.extractSector ∧
  w'.fs=w.fs ∧ Read 1 w w') NoFault:=by
 simp only[readNext,blockRead,holds_bind,holds_get]
 rw[if_neg (by omega)]
 simp only[holds_pure,holds_modify,true_and]
 exact ⟨rfl,rfl⟩

def partly (bytes:List UInt8)(pos:ℕ):List UInt8:=bytes.take pos++replicate (bytes.length-pos) 0
lemma partly_length {bytes:List UInt8}{pos:ℕ}(inside:pos≤bytes.length):
 (partly bytes pos).length=bytes.length:=by
 simp[partly]
 omega

lemma overwrite_partly (bytes:List UInt8){pos n:ℕ}(inside:pos+n≤bytes.length):
 overwrite (partly bytes pos) pos ((bytes.drop pos).take n)=partly bytes (pos+n):=by
 have length:((bytes.drop pos).take n).length=n:=by
  simp
  omega
 have front:(bytes.take pos).length=pos:=by
  simp
  omega
 have first:(partly bytes pos).take pos=bytes.take pos:=by
  rw[partly,take_append_of_le_length (by omega),take_take,Nat.min_self]
 have behind:(partly bytes pos).drop (pos+n)=replicate (bytes.length-(pos+n)) 0:=by
  rw[partly,drop_append,drop_eq_nil_of_le (by omega),front,nil_append,drop_replicate]
  congr 1
  omega
 have written:((bytes.drop pos).take n).take (bytes.length-pos)=(bytes.drop pos).take n:=
  take_of_length_le (by omega)
 rw[overwrite,partly_length (by omega),first,length,behind,written,←take_add,partly]

lemma extractCopy_spec (name:CString){bytes:List UInt8}(size:ℕ)(pos:ℕ)
 (files:w.fs.files=before++[(name,partly bytes pos)])(fresh:name∉before.map Prod.fst)
 (rest:(bytes.drop pos).length=size)(inside:pos≤bytes.length)
 (stored:Stored w.scratch.data w.extractSector (bytes.drop pos))
 (room:w.extractSector+sectorsFor size≤w.scratch.size):
 Holds (extractCopy name ⟨name,pos⟩ size) w (fun _ w'=>Read (sectorsFor size) w w' ∧
   w'.fs={w.fs with files:=before++[(name,bytes)]}) NoFault:=by
 induction size using Nat.strong_induction_on generalizing pos w with
 | _ size ih=>
 rw[extractCopy]
 by_cases positive:0<size
 · have more:=sectorsFor_chunk positive
   rw[if_pos positive]
   refine (readNext_spec (by omega)).seq ?_
   rintro - w₁ ⟨rfl,same,read⟩
   obtain ⟨first,others⟩:=(stored_iff (by omega)).1 stored
   have found:w₁.fs.find name=some (partly bytes pos):=by
    rw[same]
    exact find_last files fresh
   have chunk:(bytesOf (w.scratch.data w.extractSector)).take (min 512 size)=
     (bytes.drop pos).take (min 512 size):=by
    rw[first,←rest,bytesOf_sectorOf]
    exact take_eq_take_min
   have length:((bytes.drop pos).take (min 512 size)).length=min 512 size:=by
    rw[List.length_take,rest]
    omega
   have fit:pos+min 512 size≤bytes.length:=by
    rw[length_drop] at rest
    omega
   have all:min (min 512 size) (bytes.length-pos)=min 512 size:=by omega
   simp only[fileWrite,fileContent,holds_bind,holds_get,holds_pure,holds_modify,found,
    getD_some,chunk,length,partly_length inside,all]
   rw[if_neg (by simp),overwrite_partly bytes fit,same,files,map_last _ _ fresh]
   have after:=drop_chunk rest
   refine (ih _ (by omega) (pos+min 512 size) rfl ?_ fit ?_ ?_).imp ?_
   · rw[after,length_drop,rest]
     omega
   · rw[after,read.scratch,read.pos]
     exact others
   · rw[read.scratch,read.pos]
     omega
   · rintro - w₂ ⟨further,result⟩
     rw[more]
     exact ⟨read.trans ⟨further.scratch,further.pos⟩,result⟩
 · have none:size=0:=by omega
   rw[if_neg positive,holds_pure,none]
   have whole:partly bytes pos=bytes:=by
    rw[length_drop] at rest
    rw[partly,take_of_length_le (by omega),show bytes.length-pos=0 by omega]
    simp
   refine ⟨⟨rfl,rfl⟩,?_⟩
   rw[whole] at files
   rw[←files]

lemma filesysCreate_spec {name:CString}{size:ℕ}(sociable:Sociable name)
 (fresh:name∉w.fs.files.map Prod.fst)(slot:0<w.fs.slots)
 (sectors:1+sectorsFor size≤w.fs.sectors):
 Holds (filesysCreate name size) w (fun done w'=>done=true ∧ Read 0 w w' ∧
  w'.fs=⟨w.fs.files++[(name,replicate size 0)],w.fs.slots-1,
   w.fs.sectors-(1+sectorsFor size)⟩) NoFault:=by
 have absent:w.fs.find name=none:=by
  rw[FileSystem.find,map_eq_none_iff,find?_eq_none]
  intro file mem same
  exact fresh (List.mem_map.2 ⟨file,mem,by simpa using same⟩)
 have short:=sociable.short
 simp only[filesysCreate,holds_bind,holds_get]
 rw[if_neg]
 · simp only[holds_bind,holds_set,holds_pure,true_and]
   exact ⟨⟨rfl,rfl⟩,trivial⟩
 · rw[absent]
   simp only[sociable.nonempty,isSome_none,Bool.false_eq_true,false_or]
   omega

lemma extractFile_spec {name:CString}{bytes:List UInt8}(sociable:Sociable name)
 (fresh:name∉w.fs.files.map Prod.fst)(slot:0<w.fs.slots)
 (sectors:space bytes≤w.fs.sectors)(stored:Stored w.scratch.data w.extractSector bytes)
 (room:w.extractSector+sectorsFor bytes.length≤w.scratch.size):
 Holds (extractFile name bytes.length) w (fun _ w'=>Read (sectorsFor bytes.length) w w' ∧
   w'.fs=⟨w.fs.files++[(name,bytes)],w.fs.slots-1,w.fs.sectors-space bytes⟩)
  NoFault:=by
 refine (filesysCreate_spec sociable fresh slot sectors).seq ?_
 rintro - w₁ ⟨rfl,same,created⟩
 have start:w₁.fs.files=w.fs.files++[(name,partly bytes 0)]:=by
  rw[created]
  simp[partly]
 have found:=find_last start fresh
 simp only[if_true,filesysOpen,holds_bind,holds_get,found]
 refine (extractCopy_spec name bytes.length 0 start fresh rfl (Nat.zero_le _) ?_ ?_).imp ?_
 · rw[same.scratch,same.pos]
   exact stored
 · rw[same.scratch,same.pos]
   exact room
 · rintro - w₂ ⟨read,result⟩
   refine ⟨⟨read.scratch.trans same.scratch,?_⟩,?_⟩
   · rw[read.pos,same.pos,Nat.add_zero]
   · rw[result,created]
     rfl

lemma parseHeader_zero:parseHeader zeroSector=.ok .eof:=by
 rw[parseHeader,if_pos]
 simp[isAllZeros,zeroSector]

lemma extractLoop_spec (files:List (CString×List UInt8)){turns:ℕ}
 (sociable:∀file∈files,Sociable file.1)
 (distinct:((w.fs.files++files).map Prod.fst).Nodup)
 (archived:Archived w.scratch.data w.extractSector files)
 (zero:w.scratch.data (w.extractSector+total files)=zeroSector)
 (room:w.extractSector+total files<w.scratch.size)(slots:files.length≤w.fs.slots)
 (sectors:total files≤w.fs.sectors)(enough:files.length<turns):
 Holds (extractLoop turns) w
  (fun _ w'=>w'.fs.files=w.fs.files++files ∧ w'.scratch=w.scratch) NoFault:=by
 induction files generalizing w turns with
 | nil=>
  obtain ⟨turns,rfl⟩:=Nat.exists_eq_add_one.2 enough
  refine (readNext_spec (by simpa[total] using room)).seq ?_
  intro header w₁ first
  have last:w.scratch.data w.extractSector=zeroSector:=by simpa[total] using zero
  rw[first.1,last,parseHeader_zero,extractEntry,holds_pure]
  exact ⟨by rw[first.2.1,append_nil],first.2.2.scratch⟩
 | cons file files ih=>
  obtain ⟨turns,rfl⟩:∃n,turns=n+1:=⟨turns-1,by omega⟩
  have sum:total (file::files)=space file.2+total files:=by simp[total]
  rw[sum] at zero room sectors
  rw[length_cons] at slots enough
  obtain ⟨holding,archived⟩:=archived
  have fresh:file.1∉w.fs.files.map Prod.fst:=by
   rw[map_append,nodup_append] at distinct
   exact fun mem=>distinct.2.2 _ mem file.1 (by simp) rfl
  unfold space at room archived zero
  refine (readNext_spec (by omega)).seq ?_
  intro header w₁ first
  have same:=first.2.1
  have read:=first.2.2
  rw[first.1,holding.header,extractEntry,Int.toNat_natCast]
  rw[←same] at fresh slots sectors
  refine (extractFile_spec (sociable file mem_cons_self) fresh (by omega) (by omega) ?_ ?_).seq ?_
  · rw[read.scratch,read.pos]
    exact holding.body
  · rw[read.scratch,read.pos]
    omega
  rintro - w₂ ⟨copied,created⟩
  have both:=read.trans copied
  refine (ih (fun f mem=>sociable f (mem_cons_of_mem file mem)) ?_ ?_ ?_ ?_ ?_ ?_ (by omega)).imp ?_
  · rw[created,same]
    simpa using distinct
  · rwa[both.scratch,both.pos]
  · rw[both.scratch,both.pos,Nat.add_assoc]
    exact zero
  · rw[both.scratch,both.pos]
    omega
  · rw[created]
    simp
    omega
  · rw[created]
    simp
    omega
  · rintro - w₃ ⟨result,kept⟩
    refine ⟨?_,kept.trans both.scratch⟩
    rw[result,created,same]
    simp

abbrev Content:={ bytes:List UInt8 // bytes.length ≤ intMax}
def plain (files:List (CString×Content)):List (CString×List UInt8):=
 files.map fun file=>(file.1,file.2.val)
def calls (buffer:CString→Buffer)(files:List (CString×Content)):List (CString×Buffer):=
 files.map fun file=>(file.1,buffer file.1)

lemma appendAll_archives (files:List (CString×Content))(sociable:∀file∈files,Sociable file.1)
 (src:FileSystem)(present:∀file∈files,src.find file.1=some file.2.val)
 (buffer:CString→Buffer)(scratch:Disk)(large:total (plain files)<scratch.size):
 Holds (appendAll (calls buffer files)) (boot src scratch)
  (fun _ w=>w.scratch.size=scratch.size ∧ w.appendSector=total (plain files) ∧
   Archived w.scratch.data 0 (plain files) ∧
   w.scratch.data w.appendSector=endSector (calls buffer files) (scratch.data 0))
  NoFault:=by
 have listed:filesOf (calls buffer files) (fun name=>(src.find name).getD [])=plain files:=by
  rw[filesOf,calls,plain,List.map_map]
  apply map_congr_left
  intro file mem
  simp[present file mem,(sociable file mem).plain]
 have found:∀call∈calls buffer files,∃file∈files,call.1=file.1:=by
  intro call mem
  obtain ⟨file,inside,rfl⟩:=List.mem_map.1 mem
  exact ⟨file,inside,rfl⟩
 rw[←listed] at large ⊢
 refine (appendAll_spec (calls buffer files) (fun name=>(src.find name).getD []) ?_ ?_ ?_ ?_).imp ?_
 · intro call mem
   obtain ⟨file,inside,same⟩:=found call mem
   rw[same,(sociable file inside).plain]
   exact (sociable file inside).short.trans (by decide)
 · intro call mem
   obtain ⟨file,inside,same⟩:=found call mem
   rw[same,present file inside,getD_some]
   exact present file inside
 · intro call mem
   obtain ⟨file,inside,same⟩:=found call mem
   rw[same,present file inside]
   exact file.2.property
 · simpa[boot] using large
 · rintro - w ⟨wrote,archived,last⟩
   exact ⟨wrote.size,by rw[wrote.pos];exact Nat.zero_add _,archived,last⟩

/-- What was appended file by file comes out again, if the sector behind it reads as zeros. -/
theorem archive_round_trip (files:List (CString×Content))
 (distinct:(files.map Prod.fst).Nodup)(sociable:∀file∈files,Sociable file.1)
 (src:FileSystem)(present:∀file∈files,src.find file.1=some file.2.val)
 (buffer:CString→Buffer)(scratch:Disk)(large:total (plain files)<scratch.size)
 (two:2 ≤ scratch.size):
 ∃w,(appendAll (calls buffer files)).run (boot src scratch)=.ok ((),w) ∧
  (w.scratch.data w.appendSector=zeroSector → ∀dst:FileSystem,dst.files=[] → files.length≤dst.slots →
    total (plain files)≤dst.sectors → ∀turns,files.length<turns →
     ∃w',(extract turns).run (boot dst w.scratch)=.ok ((),w') ∧ w'.fs.files=plain files):=by
 obtain ⟨_,w,appended,size,pos,archived,-⟩:=
  (appendAll_archives files sociable src present buffer scratch large).returns
 refine ⟨w,appended,?_⟩
 intro zero dst empty slots sectors turns enough
 have names:(plain files).map Prod.fst=files.map Prod.fst:=by
  simp[plain]
 have count:(plain files).length=files.length:=by
  simp[plain]
 have loop:Holds (extractLoop turns) (boot dst w.scratch)
   (fun _ w'=>w'.fs.files=plain files ∧ w'.scratch=w.scratch) NoFault:=by
  refine (extractLoop_spec (plain files) ?_ ?_ ?_ ?_ ?_ ?_ sectors ?_).imp ?_
  · intro file mem
    obtain ⟨original,inside,rfl⟩:=List.mem_map.1 mem
    exact sociable original inside
  · rw[show (boot dst w.scratch).fs.files=[] from empty,nil_append,names]
    exact distinct
  · exact archived
  · rw[pos] at zero
    simpa[boot] using zero
  · simpa[boot,size] using large
  · rw[count]
    exact slots
  · rw[count]
    exact enough
  · rintro - w' ⟨result,kept⟩
    refine ⟨?_,kept⟩
    rw[result,show (boot dst w.scratch).fs.files=[] from empty,nil_append]
 have all:Holds (extract turns) (boot dst w.scratch) (fun _ w'=>w'.fs.files=plain files) NoFault:=by
  refine loop.seq ?_
  rintro - w₁ ⟨result,kept⟩
  simp only[blockWrite,holds_bind,holds_get]
  rw[kept,size,if_neg (by omega),holds_set]
  simp only
  rw[if_neg (by omega),holds_set]
  exact result
 obtain ⟨_,w',extracted,result⟩:=all.returns
 exact ⟨w',extracted,result⟩

def small:List (CString×Content):=[(⟨text "a",by decide⟩,⟨[1,2,3],by decide⟩)]

lemma small_sociable:∀file∈small,Sociable file.1:=by
 intro file mem
 rw[mem_singleton.1 mem]
 refine ⟨by decide,by decide,Subtype.ext ?_⟩
 have stays:skipPrefixes (text "a")=text "a":=by
  rw[skipPrefixes,if_neg (by decide)]
 rw[stripAntisocialPrefixes,if_neg (by rw[stays];decide)]
 exact stays

theorem archive_round_trip_small:∃w,(appendAll (calls (fun _=>⟨zeroSector,0⟩) small)).run
   (boot ⟨plain small,0,0⟩ ⟨3,fun _ _=>7⟩)=.ok ((),w) ∧
  ∃w',(extract 2).run (boot ⟨[],1,2⟩ w.scratch)=.ok ((),w') ∧ w'.fs.files=plain small:=by
 have archives:=appendAll_archives small small_sociable ⟨plain small,0,0⟩
  (by decide) (fun _=>⟨zeroSector,0⟩) ⟨3,fun _ _=>7⟩ (by decide)
 obtain ⟨w,appended,extracts⟩:=archive_round_trip small (by decide) small_sociable
  ⟨plain small,0,0⟩ (by decide) (fun _=>⟨zeroSector,0⟩) ⟨3,fun _ _=>7⟩ (by decide)
  (by decide)
 obtain ⟨-,-,-,last⟩:=archives.ok appended
 have zero:w.scratch.data w.appendSector=zeroSector:=by
  rw[last]
  funext i
  simp[endSector,calls,small,shifted,zeroSector]
 exact ⟨w,appended,extracts zero ⟨[],1,2⟩ rfl (by decide) (by decide) 2 (by decide)⟩

lemma strip_short {name:CString}(short:name.val.length≤nameMax):
 (stripAntisocialPrefixes name).val.length≤99:=by
 have shorter:=(skipPrefixes_suffix name.val).length_le
 rw[stripAntisocialPrefixes]
 split
 · decide
 · exact (shorter.trans short).trans (by decide)

lemma endSector_last {calls:List (CString×Buffer)}(nonempty:calls≠[])(before:Sector):
 endSector calls before=shifted (calls.getLast nonempty).2.behind:=by
 rw[endSector]
 conv_lhs=>rw[←dropLast_concat_getLast nonempty]
 rw[foldl_append]
 rfl

lemma shifted_eq_zero (behind:UInt8):shifted behind=zeroSector ↔ behind=0:=by
 constructor
 · intro eq
   exact congrFun eq ⟨511,by decide⟩
 · rintro rfl
   funext i
   exact ite_self _

/-- Whatever was on the device, the sectors before the position are those of the archive after
every append. The byte behind the buffer is on the device then, and the second sector of the end
marker is what it was before. -/
theorem append_marks_iff (fs:FileSystem)(scratch:Disk)(calls:List (CString×Buffer))
 (nonempty:calls≠[])(contents:CString → Content)
 (files:∀call∈calls,fs.find call.1=some (contents call.1).val)
 (short:∀call∈calls,call.1.val.length≤nameMax)
 (room:total (filesOf calls fun name=>(contents name).val)+2 ≤ scratch.size):
 ∃w,(appendAll calls).run (boot fs scratch)=.ok ((),w) ∧
  w.appendSector=total (filesOf calls fun name=>(contents name).val) ∧
  Archived w.scratch.data 0 (filesOf calls fun name=>(contents name).val) ∧
  w.scratch.data w.appendSector=shifted (calls.getLast nonempty).2.behind ∧
  (w.scratch.data w.appendSector=zeroSector ∧ w.scratch.data (w.appendSector+1)=zeroSector ↔
   (calls.getLast nonempty).2.behind=0 ∧ scratch.data (w.appendSector+1)=zeroSector):=by
 obtain ⟨_,w,run,wrote,archived,last⟩:=
  (appendAll_spec (w:=boot fs scratch) calls (fun name=>(contents name).val)
   (fun call mem=>strip_short (short call mem)) files (fun call _=>(contents call.1).property)
   (by simp only[boot];omega)).returns
 have pos:w.appendSector=total (filesOf calls fun name=>(contents name).val):=by
  rw[wrote.pos]
  exact Nat.zero_add _
 have next:w.scratch.data (w.appendSector+1)=scratch.data (w.appendSector+1):=
  wrote.beyond _ (by rw[wrote.pos];omega)
 rw[endSector_last nonempty] at last
 refine ⟨w,run,pos,archived,last,?_⟩
 rw[last,next,shifted_eq_zero]

theorem append_marks_iff_small:∃w,(appendAll [(⟨text "a",by decide⟩,⟨zeroSector,0⟩)]).run
   (boot ⟨plain small,0,0⟩ ⟨4,fun _ _=>0⟩)=.ok ((),w) ∧
  w.scratch.data w.appendSector=zeroSector ∧
  w.scratch.data (w.appendSector+1)=zeroSector:=by
 obtain ⟨w,run,-,-,-,zeros⟩:=append_marks_iff ⟨plain small,0,0⟩ ⟨4,fun _ _=>0⟩
  [(⟨text "a",by decide⟩,⟨zeroSector,0⟩)] (by decide) (fun _=>⟨[1,2,3],by decide⟩)
  (by decide) (by decide) (by decide)
 exact ⟨w,run,zeros.2 ⟨rfl,rfl⟩⟩

/-- An empty file on a device full of sevens, with a nine behind the buffer. -/
theorem append_end_garbled:∃w,(appendAll [(⟨text "a",by decide⟩,⟨zeroSector,9⟩)]).run
   (boot ⟨[(⟨text "a",by decide⟩,[])],0,0⟩ ⟨3,fun _ _=>7⟩)=.ok ((),w) ∧
  w.scratch.data 1 ⟨511,by decide⟩=9 ∧ w.scratch.data 2 ⟨0,by decide⟩=7:=by
 obtain ⟨_,w,run,wrote,-,last⟩:=
  (appendAll_spec (w:=boot ⟨[(⟨text "a",by decide⟩,[])],0,0⟩ ⟨3,fun _ _=>7⟩)
   [(⟨text "a",by decide⟩,⟨zeroSector,9⟩)] (fun _=>[])
   (by simpa using strip_short (show (⟨text "a",by decide⟩:CString).val.length≤nameMax by decide))
   (by decide)
   (by decide) (by decide)).returns
 have pos:w.appendSector=1:=wrote.pos
 rw[pos] at last
 refine ⟨w,run,?_,?_⟩
 · rw[last]
   rfl
 · rw[wrote.beyond 2 (by decide)]
   rfl

end Pintos.Fsutil
