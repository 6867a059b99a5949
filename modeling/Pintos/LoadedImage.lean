import Pintos.AskKinds
import Pintos.Loader
import Pintos.PageFrames
import Pintos.SegmentPlan

/-!
# What load leaves in memory

`load` with a record of the bytes that are put on pages: through the kernel's address of a page,
as `load_segment` does, or through the page directory, as `setup_stack` does.
-/
namespace Pintos.LoadedImage
open ExecHoare Interaction Paging PageMaps PagePools Process ElfImage Spawning PageFrames Function List Option ArgumentStack
open AskKinds SegmentPlan CheckedWords
open ArgumentStack (frame storeAll pushes blocks size writeBytes)

/-- What an ask does to memory. A page that is handed out keeps its bytes here; the stack page,
which is zeroed, is no segment's. -/
def noted:Ask→Sys Shelf→Ram→Ram
 | .fill page bytes,_,ram=>update ram page (fun j=>bytes.getD j 0)
 | .store a bytes,sys,ram=>
  match sys.pd with
  | some pd=>storeBytes pd bytes a ram
  | none=>ram
 | _,_,ram=>ram

abbrev Image:=Sys Shelf×Ram
def moveTo (m:Image)(pos:ℕ→ℕ):Image:=({m.1 with files:={m.1.files with pos}},m.2)
abbrev Records (env:Env Shelf)(r:ℤ){α:Type}(p:Proc α)(m:Image)(Q:α→Image→Prop)(F:Stop→Prop):Prop:=
 Holds (run (recording (handleChild env r) noted) p) m Q F

/-- What holds if the program returns. -/
abbrev Draws (env:Env Shelf)(r:ℤ){α:Type}(p:Proc α)(m:Image)
 (Q:α→Image→Prop):Prop:=Records env r p m Q AnyFault

def Pictured (ls:List PageImage)(m:Image):Prop:=
 ∃pd,m.1.pd=some pd ∧ Framed pd m.1.pools ∧ ∀l∈ls,Shows pd m.2 l

structure Drawn (f:ℕ)(c:Content)(kernel user:ℕ)(ps:List (ℕ×Bool))
  (ls:List PageImage)(m:Image):Prop where
 loading:Loading f c kernel user ps m.1
 pictured:Pictured ls m

section
variable {env:Env Shelf}{r:ℤ}{m:Image}{F:Stop→Prop}{α:Type}{p:Proc α}{Q:α→Image→Prop}

lemma records_ask {q:Ask}{Q:q.Answer → Image → Prop}:Records env r (ask q) m Q F ↔
  Holds (handleChild env r q) m.1 (fun x sys=>Q x (sys,noted q m.1 m.2)) F:=by
 rw[Records,holds_run_ask,holds_recording]
lemma records_fill {page:ℕ}{bytes:List UInt8}{Q:Unit→Image→Prop}:
 Records env r (ask (Ask.fill page bytes)) m Q F ↔
  Q () (m.1,update m.2 page (fun j=>bytes.getD j 0)):=
 records_ask
lemma records_setPagedir {pd:Option PageDir}{Q:Unit→Image→Prop}:
 Records env r (ask (Ask.setPagedir pd)) m Q F ↔ Q () ({m.1 with pd},m.2):=
 records_ask

lemma records_quiet {ks:List Kind}(only:Only ks p)(fill:.fill∉ks)(store:.store∉ks):
 Records env r p m Q F ↔ Loads env r p m.1 (fun x sys=>Q x (sys,m.2)) F:=by
 refine Avoids.recording only fun q sys ram asked=>?_
 have listed:kind q∈ks:=by simpa using asked
 cases q with
 | fill=>exact absurd listed fill
 | store=>exact absurd listed store
 | _=>rfl

lemma records_file (only:Only fileAsks p):
 Records env r p m Q F ↔ Loads env r p m.1 (fun x sys=>Q x (sys,m.2)) F:=
 records_quiet only (by decide) (by decide)
lemma records_map (only:Only mapAsks p):
 Records env r p m Q F ↔ Loads env r p m.1 (fun x sys=>Q x (sys,m.2)) F:=
 records_quiet only (by decide) (by decide)

variable {f:ℕ}{c:Content}{kernel user:ℕ}{ps:List (ℕ×Bool)}{ls:List PageImage}{w:Bool}
 {pos readBytes:ℕ}

/-- The byte at `x` after `readBytes` bytes of the file, from `pos` on, and zeros behind them. -/
def byteFrom (c:Content)(pos readBytes x:ℕ):UInt8:=
 if x<readBytes then c.bytes.getD (pos+x) 0 else 0

lemma read_getD {size j:ℕ}(read:(c.read pos size).length=size)(zeros:ℕ)(same:j<size ↔ j<readBytes):
 (c.read pos size++replicate zeros 0).getD j 0=byteFrom c pos readBytes j:=by
 unfold byteFrom
 by_cases inside:j<size
 · rw[if_pos (same.1 inside),getD_append _ _ _ _ (read.symm▸inside),Content.read,
    getD_eq_getElem?_getD,getElem?_take,if_pos inside,getElem?_drop,
    getD_eq_getElem?_getD]
 · rw[if_neg fun less=>inside (same.2 less),getD_append_right _ _ _ _ (by omega),
    getD_eq_getElem?_getD,getElem?_replicate]
   split<;>rfl

lemma loadPage_spec (shelved:env.files=shelf)(h:Drawn f c kernel user ps ls m){n:ℕ}
 (start:m.1.files.pos f=pos)(inside:n<userLimit)(within:pos≤c.length):
 Records env r (loadPage (some f) (pageAddr n) (min readBytes pgSize) w) m
  (Decides (pos+min readBytes pgSize≤c.length ∧ Room kernel user (ps++[(n,w)]))
   fun m'=>Drawn f c kernel user (ps++[(n,w)]) (ls++[⟨n,w,byteFrom c pos readBytes⟩]) m' ∧
     m'.1.files.pos f=pos+min readBytes pgSize) NoFault:=by
 obtain ⟨loading,pd,there,framed,shows⟩:=h
 obtain ⟨pd₁,there₁,mapping⟩:=loading.mapping
 obtain rfl:pd=pd₁:=some.inj (there.symm.trans there₁)
 have length:=read_length c pos (min readBytes pgSize) within
 have room:=loading.room_iff (n:=n) (w:=w)
 unfold Records loadPage
 rw[holds_run_bind]
 refine (records_map (only_ask rfl)).2 (loads_palloc.2 ⟨fun none=>?_,fun kpage got=>?_⟩)
 · rw[Pools.getPage_eq_none] at none
   exact decides_false fun ok=>(room.1 ok.2).1 none
 have new:=Pools.getPage_mem got
 rw[holds_run_bind]
 refine (records_file (only_fileRead ..)).2 ((loads_read shelved).2 ?_)
 rw[loading.content,start]
 by_cases whole:(c.read pos (min readBytes pgSize)).length≠min readBytes pgSize
 · rw[if_pos whole,holds_run_bind]
   refine (records_map (only_ask rfl)).2 (loads_free.2 (decides_false fun ok=>?_))
   exact whole (length.2 ok.1)
 have read:=not_not.1 whole
 rw[if_neg whole,holds_run_bind]
 refine records_fill.2 ?_
 rw[holds_run_bind]
 refine (records_map (only_installPage ..)).2
  (Holds.imp (installPage_spec ?_ mapping inside kpage) ?_)
 · exact there
 rintro ok sys' ⟨can,done⟩
 rw[←length_pos_iff,Pools.free_other got false (by decide),length_pos_iff] at can
 cases ok with
 | false=>
  rw[if_neg (by decide),holds_run_bind]
  refine (records_map (only_ask rfl)).2 (loads_free.2 (decides_false fun ok=>?_))
  exact absurd (can.2 (room.1 ok.2).2) (by decide)
 | true=>
  obtain ⟨installed,pd',now,absent,maps,fewer⟩:=done rfl
  have fits:=room.2 ⟨ne_nil_of_mem new,can.1 rfl⟩
  obtain ⟨loading',pos'⟩:=loading.installed got fits installed
  refine decides_true ⟨length.1 read,fits⟩ ⟨⟨loading',pd',now,?_,fun l mem=>?_⟩,?_⟩
  · exact framed.map maps new fun p mem=>mem_free_mark.1 (fewer p mem)
  · rcases mem_append.1 mem with old|last
    · exact (shows l old).keep framed maps absent new _
    · obtain rfl:=mem_singleton.1 last
      refine shows_new maps inside fun j small=>read_getD read _ ?_
      omega
  · rw[pos',update_self,read]

def imagesFrom (c:Content)(pos readBytes n k:ℕ)(w:Bool):List PageImage:=
 (List.range k).map (fun i=>⟨n+i,w,fun j=>byteFrom c pos readBytes (i*pgSize+j)⟩)

lemma imagesFrom_succ (c:Content)(pos readBytes n k:ℕ)(w:Bool):
 imagesFrom c pos readBytes n (k+1) w=⟨n,w,byteFrom c pos readBytes⟩ ::
  imagesFrom c (pos+min readBytes pgSize) (readBytes-min readBytes pgSize) (n+1) k w:=by
 unfold imagesFrom
 rw[range_succ_eq_map,map_cons,List.map_map]
 refine congrArg₂ List.cons ?_ (map_congr_left fun i _=>?_)
 · simp only[Nat.add_zero,Nat.zero_mul,Nat.zero_add]
 · have num:n+(i+1)=n+1+i:=by omega
   have bytes:∀j,byteFrom c pos readBytes ((i+1)*pgSize+j)=
     byteFrom c (pos+min readBytes pgSize) (readBytes-min readBytes pgSize) (i*pgSize+j):=by
    intro j
    unfold byteFrom
    rw[Nat.succ_mul]
    by_cases more:i*pgSize+pgSize+j<readBytes
    · have whole:min readBytes pgSize=pgSize:=by omega
      rw[if_pos more,whole,if_pos (by omega)]
      congr 1
      omega
    · rw[if_neg more,if_neg (by omega)]
   simp only[comp,num,bytes]

lemma loadTurns_spec (shelved:env.files=shelf){n k:ℕ}(h:Drawn f c kernel user ps ls m)
 (start:m.1.files.pos f=pos)(inside:n+k≤userLimit)(few:readBytes≤pgSize*k)
 (within:pos≤c.length):
 Records env r (loadTurns (some f) w (turnList n k readBytes)) m
  (Decides (pos+readBytes≤c.length ∧ Room kernel user (ps++pages n k w))
   (Drawn f c kernel user (ps++pages n k w) (ls++imagesFrom c pos readBytes n k w)))
  NoFault:=by
 induction k generalizing n pos readBytes ps ls m with
 | zero=>
  have none:pages n 0 w=[]:=rfl
  have none':imagesFrom c pos readBytes n 0 w=[]:=rfl
  rw[none,none',append_nil,append_nil]
  exact decides_true ⟨by omega,h.loading.room⟩ h
 | succ k ih=>
  rw[turnList,loadTurns,Int.toNat_natCast,Int.toNat_natCast,pages_succ,imagesFrom_succ,
   append_cons ps,append_cons ls]
  refine (holds_run_then (loadPage_spec shelved h start (by omega) within)
   fun m' first drawn=>ih drawn.1 drawn.2 (by omega) ?_ first.1).imp ?_
  · rw[Nat.mul_succ] at few
    omega
  · intro ok last decided
    refine decided.imp ⟨fun both=>⟨by omega,both.2.2⟩,fun all=>?_⟩ id
    exact ⟨⟨by omega,all.2.left⟩,by omega,all.2⟩

def imagesOf (c:Content)(h:Phdr):List PageImage:=
 if h.type=1 then
  imagesFrom c (h.offset/pgSize*pgSize) h.amounts.1 (firstPage h) (pageCount h)
   (decide (h.flags/2%2=1))
 else []

def images (c:Content):List PageImage:=c.phdrs.flatMap (imagesOf c)
lemma sought (h:Drawn f c kernel user ps ls m)(pos:ℕ):
 ∃m₁,m₁=moveTo m (update m.1.files.pos f pos) ∧ Drawn f c kernel user ps ls m₁ ∧
  m₁.1.files.pos f=pos:=
 ⟨_,rfl,⟨h.loading.moved _,h.pictured⟩,update_self ..⟩

section
variable (shelved:env.files=shelf)(h:Drawn f c kernel user ps ls m)
include shelved h

lemma loadSegment_spec {hd:Phdr}{w:Bool}(memsz:hd.memsz<2^32)
 (valid:validateSegment hd c.length=true):
 Records env r (loadSegment (some f) (toInt (hd.offset/pgSize*pgSize))
   (UInt32.ofNat (hd.vaddr/pgSize*pgSize)) hd.amounts.1 hd.amounts.2 w) m
  (Decides (hd.offset/pgSize*pgSize+hd.amounts.1≤c.length ∧
    Room kernel user (ps++pages (firstPage hd) (pageCount hd) w))
   (Drawn f c kernel user (ps++pages (firstPage hd) (pageCount hd) w)
    (ls++imagesFrom c (hd.offset/pgSize*pgSize) hd.amounts.1 (firstPage hd)
     (pageCount hd) w))) NoFault:=by
 obtain ⟨sum,top⟩:=amounts_sum memsz valid
 obtain ⟨-,offset,-⟩:=validated memsz valid
 unfold Records
 rw[loadSegment_turns memsz valid,holds_run_bind]
 refine (records_file (only_fileSeek ..)).2 ((loads_seek shelved).2 ?_)
 obtain ⟨m₁,moved,drawn,start⟩:=sought h (hd.offset/pgSize*pgSize)
 unfold moveTo at moved
 rw[←moved]
 exact loadTurns_spec shelved drawn start top (by omega) ((Nat.div_mul_le_self ..).trans offset)

lemma loadHeader_spec {hd:Phdr}(memsz:hd.memsz<2^32):Records env r (loadHeader (some f) hd) m
  (Decides (Accepted c hd ∧ Room kernel user (ps++pagesOf hd))
   (Drawn f c kernel user (ps++pagesOf hd) (ls++imagesOf c hd))) NoFault:=by
 unfold Records loadHeader
 by_cases refused:hd.type=2 ∨ hd.type=3 ∨ hd.type=5
 · rw[if_pos refused]
   exact decides_false fun ok=>absurd refused ok.1.1
 rw[if_neg refused,imagesOf]
 by_cases segment:hd.type=1
 · rw[if_pos segment,if_pos segment,pagesOf_segment segment,holds_run_bind]
   refine (records_file (only_fileLength ..)).2 ((loads_length shelved).2 ?_)
   rw[h.loading.content]
   by_cases valid:validateSegment hd c.length=true
   · rw[if_pos valid]
     refine Holds.imp (loadSegment_spec shelved h memsz valid) fun ok m' decided=>?_
     have accepted:hd.offset/pgSize*pgSize+hd.amounts.1≤c.length ↔ Accepted c hd:=
      ⟨fun backed=>⟨refused,fun _=>⟨valid,backed⟩⟩,fun acc=>(acc.2 segment).2⟩
     exact decided.imp (and_congr_left' accepted) id
   · rw[if_neg valid]
     exact decides_false fun ok=>absurd (ok.1.2 segment).1 valid
 · rw[if_neg segment,if_neg segment,pagesOf_other segment,append_nil,append_nil]
   exact decides_true ⟨⟨refused,fun one=>absurd one segment⟩,h.loading.room⟩ h

lemma loadHeaders_spec {k ofs:ℕ}:
 Records env r (loadHeaders (some f) k ofs) m (Decides ((k=0 ∨ ofs+32*k≤c.length) ∧
    (∀hd∈headersFrom c ofs k,Accepted c hd) ∧
    Room kernel user (ps++(headersFrom c ofs k).flatMap pagesOf))
   (Drawn f c kernel user (ps++(headersFrom c ofs k).flatMap pagesOf)
    (ls++(headersFrom c ofs k).flatMap (imagesOf c)))) NoFault:=by
 induction k generalizing ps ls ofs m with
 | zero=>
  have none:headersFrom c ofs 0=[]:=rfl
  rw[none,flatMap_nil,flatMap_nil,append_nil,append_nil]
  exact decides_true ⟨.inl rfl,nofun,h.loading.room⟩ h
 | succ k ih=>
  have forward:¬(ofs:ℤ)<0:=by omega
  have next:((ofs:ℤ)+32)=((ofs+32:ℕ):ℤ):=rfl
  unfold Records loadHeaders
  rw[if_neg forward,holds_run_bind]
  refine (records_file (only_fileLength ..)).2 ((loads_length shelved).2 ?_)
  rw[h.loading.content]
  by_cases beyond:(c.length:ℤ)<ofs
  · rw[if_pos beyond]
    exact decides_false fun ok=>by omega
  rw[if_neg beyond,holds_run_bind]
  refine (records_file (only_fileSeek ..)).2 ((loads_seek shelved).2 ?_)
  obtain ⟨m₁,moved,drawn₁,start⟩:=sought h ofs
  unfold moveTo at moved
  rw[←moved,holds_run_bind]
  refine (records_file (only_fileRead ..)).2 ((loads_read shelved).2 ?_)
  rw[start,drawn₁.loading.content]
  obtain ⟨m₂,moved,drawn₂,-⟩:=sought drawn₁ (ofs+(c.read ofs 32).length)
  unfold moveTo at moved
  rw[←moved]
  have length:=read_length c ofs 32 (by omega)
  by_cases short:(c.read ofs 32).length≠32
  · rw[if_pos short]
    exact decides_false fun ok=>absurd (length.2 (by omega)) short
  rw[if_neg short,headersFrom_succ,flatMap_cons,flatMap_cons,←append_assoc,
   ← append_assoc,forall_mem_cons,next]
  refine (holds_run_then (loadHeader_spec shelved drawn₂ (wordAt_lt _ _))
   fun m' _ drawn=>ih drawn).imp fun ok last decided=>decided.imp ?_ id
  constructor
  · exact fun both=>⟨by omega,⟨both.1.1,both.2.2.1⟩,both.2.2.2⟩
  · exact fun all=>⟨⟨all.2.1.1,all.2.2.left⟩,by omega,all.2.1.2,all.2.2⟩

end

lemma loadTable_spec (shelved:env.files=shelf)(h:Drawn f c kernel user [] [] m):
 Records env r (loadHeaders (some f) c.ehdr.phnum (toInt c.ehdr.phoff)) m
  (Decides ((c.ehdr.phnum=0 ∨ c.ehdr.phoff+32*c.ehdr.phnum≤c.length) ∧
    (∀hd∈c.phdrs,Accepted c hd) ∧ Room kernel user (segments c))
   (Drawn f c kernel user (segments c) (images c))) NoFault:=by
 by_cases small:c.ehdr.phoff<2^31
 · have start:toInt c.ehdr.phoff=(c.ehdr.phoff:ℤ):=by rw[toInt,if_pos small]
   rw[start]
   exact loadHeaders_spec shelved h
 · have start:toInt c.ehdr.phoff<0:=by
    have word:c.ehdr.phoff<2^32:=wordAt_lt _ _
    rw[toInt,if_neg small]
    omega
   have short:=c.short
   cases count:c.ehdr.phnum with
   | zero=>
    have none:c.phdrs=[]:=by rw[Content.phdrs,count];rfl
    rw[segments,images,none,flatMap_nil,flatMap_nil]
    have accepted:∀hd∈([]:List Phdr),Accepted c hd:=forall_mem_nil _
    exact decides_true ⟨.inl rfl,accepted,h.loading.room⟩ h
   | succ k=>
    unfold Records loadHeaders
    rw[if_pos start]
    refine decides_false fun ok=>?_
    unfold Content.length at ok
    omega

end

section
variable {env:Env Shelf}{r:ℤ}{m:Image}{pd:PageDir}{ps:List (ℕ×Bool)}
 {byte:Addr→UInt8}{bs:List (List UInt8)}{d:ℕ}

def stored (byte:Addr→UInt8):List (Addr×List UInt8) → Addr → UInt8
 | []=>byte
 | (a,bytes)::rest=>stored (writeBytes byte a bytes) rest
lemma length_flatten_reverse (bs:List (List UInt8)):bs.reverse.flatten.length=size bs:=by
 rw[size,length_flatten,map_reverse,sum_reverse]

lemma stored_pushes {e:ℕ}(fits:d+size bs≤userBytes)(high:e≤userBytes):
 stored byte (pushes bs d) (below e)=
  if d<e ∧ e≤d+size bs then bs.reverse.flatten.getD (d+size bs-e) 0
  else byte (below e):=by
 induction bs generalizing d byte with
 | nil=>
  have none:size ([]:List (List UInt8))=0:=rfl
  rw[none,if_neg (by omega)]
  rfl
 | cons b bs ih=>
  rw[size_cons,←Nat.add_assoc] at fits ⊢
  have length:=length_flatten_reverse bs
  rw[pushes,stored,ih fits,writeBytes_below (by omega) high,reverse_cons,
   flatten_append,flatten_singleton]
  by_cases last:d+b.length<e ∧ e≤d+b.length+size bs
  · rw[if_pos last,if_pos (by omega),getD_append _ _ _ _ (by omega)]
  · rw[if_neg last]
    by_cases first:d<e ∧ e≤d+b.length
    · rw[if_pos first,if_pos (by omega),getD_append_right _ _ _ _ (by omega)]
      congr 1
      omega
    · rw[if_neg first,if_neg (by omega)]

lemma records_store (there:m.1.pd=some pd)(h:Mapping pd ps){bytes:List UInt8}
 (fits:d+bytes.length≤userBytes)(held:Holding ps d){Q:Unit→Image→Prop}
 {F:Stop→Prop}(stored:Holding ps (d+bytes.length) →
  Q () (m.1,storeBytes pd bytes (below (d+bytes.length)) m.2))
 (faults:¬Holding ps (d+bytes.length) → F .panic):
 Records env r (ask (Ask.store (below (d+bytes.length)) bytes)) m Q F:=by
 refine records_ask.2 ?_
 rw[handleChild,holds_bind,holds_get]
 by_cases ok:Holding ps (d+bytes.length)
 · rw[if_pos ((storable_iff there h fits held).2 ok),noted,there]
   exact stored ok
 · rw[if_neg (fun can=>ok ((storable_iff there h fits held).1 can))]
   exact faults ok

lemma holding_entry (h:Mapping pd ps){i:ℕ}(held:Holding ps d)(fits:d≤userBytes)
 (inside:i<d):∃pte,Entry pd (below d+UInt32.ofNat i) pte:=by
 rw[below_add fits (by omega)]
 have writable:=(writable_below h (by omega) (by omega)).2 (held (d-i) (by omega) (Nat.sub_le ..))
 obtain ⟨pte,found,both⟩:=(Option.any_eq_true ..).1 writable
 refine exists_entry ?_ (present_iff.2 ⟨pte,found,(Bool.and_eq_true_iff.1 both).1⟩)
 rw[isUserVaddr_iff,pageNo,below_toNat (by omega),userBytes_eq]
 unfold userLimit pgSize
 omega

lemma storeAll_spec (there:m.1.pd=some pd)(h:Mapping pd ps)(framed:Framed pd m.1.pools)
 (fits:d+size bs≤userBytes)(held:Holding ps d)
 (same:∀x,isUserVaddr x → byteAt pd m.2 x=byte x):
 Records env r (storeAll (pushes bs d)) m (fun _ m'=>Holding ps (d+size bs) ∧ m'.1=m.1 ∧
   ∀x,isUserVaddr x → byteAt pd m'.2 x=stored byte (pushes bs d) x)
  (fun _=>¬Holding ps (d+size bs)):=by
 induction bs generalizing d m byte with
 | nil=>exact ⟨held,rfl,same⟩
 | cons b bs ih=>
  rw[size_cons,←Nat.add_assoc] at fits ⊢
  have high:d+b.length≤userBytes:=by omega
  unfold Records
  rw[pushes,storeAll,holds_run_bind]
  refine records_store there h high held (fun holds=>?_) fun unmapped all=>
   unmapped (all.mono (by omega))
  refine ih ?_ ?_ fits holds fun x hx=>?_
  · exact there
  · exact framed
  rw[byteAt_storeBytes framed (by rw[userBytes_eq] at fits;omega) _ hx,writeBytes,writeBytes,
   same x hx]
  exact fun i inside=>holding_entry h holds high (by omega)

end

section
variable {env:Env Shelf}{r:ℤ}{m:Image}{f:ℕ}{c:Content}{kernel user:ℕ}
 {ps:List (ℕ×Bool)}{ls:List PageImage}{pd:PageDir}{ram ram':Ram}{l:PageImage}

/-- The byte `b` at `a`, unless `pushed`, which ends at `PHYS_BASE`, reaches down to it. -/
def overlay (pushed:List UInt8)(a:ℕ)(b:UInt8):UInt8:=
 if userBytes≤a+pushed.length then pushed.getD (a+pushed.length-userBytes) 0 else b

def under (pushed:List UInt8)(l:PageImage):PageImage:=
 {l with byte:=fun j=>overlay pushed (l.num*pgSize+j) (l.byte j)}

lemma page_bound {n j:ℕ}(inside:n<userLimit)(small:j<pgSize):n*pgSize+j<userBytes:=by
 unfold userLimit at inside
 rw[userBytes_eq]
 unfold pgSize at *
 omega

lemma under_nil (h:Shows pd ram l):Shows pd ram (under [] l):=by
 obtain ⟨inside,pte,entry,writable,same⟩:=h
 refine ⟨inside,pte,entry,writable,fun j small=>?_⟩
 have bound:=page_bound inside small
 rw[same j small]
 exact (if_neg (by rw[length_nil];omega)).symm

lemma pageAddr_below {n j:ℕ}(inside:n<userLimit)(small:j<pgSize):
 pageAddr n+UInt32.ofNat j=below (userBytes-(n*pgSize+j)):=by
 have bound:=page_bound inside small
 rw[←UInt32.toNat_inj,UInt32.toNat_add,pageAddr_toNat inside,UInt32.toNat_ofNat',
  below_toNat (Nat.sub_le ..)]
 rw[userBytes_eq] at *
 omega

lemma under_pushed {bs:List (List UInt8)}(h:Shows pd ram l)(fits:size bs≤userBytes)
 (after:∀x,isUserVaddr x → byteAt pd ram' x=stored (byteAt pd ram) (pushes bs 0) x):
 Shows pd ram' (under bs.reverse.flatten l):=by
 obtain ⟨inside,pte,entry,writable,same⟩:=h
 refine ⟨inside,pte,entry,writable,fun j small=>?_⟩
 have bound:=page_bound inside small
 obtain ⟨page,ofs⟩:=in_page inside small
 have there:=entry.move (page.trans (pageNo_pageAddr inside).symm)
 have now:=after _ there.user
 rw[there.byteAt,ofs,pageAddr_below inside small,stored_pushes (by omega) (by omega),
  ← pageAddr_below inside small,there.byteAt,ofs,same j small,Nat.zero_add] at now
 change _=overlay _ _ _
 rw[now,overlay,length_flatten_reverse]
 by_cases covered:userBytes≤l.num*pgSize+j+size bs
 · have index:size bs-(userBytes-(l.num*pgSize+j))=l.num*pgSize+j+size bs-userBytes:=by omega
   rw[if_pos covered,if_pos (by omega),index]
 · rw[if_neg covered,if_neg (by omega)]

/-- What `setup_stack` pushes, with this many kernel pages for the page tables of `ps`, the page
directory and the copy of the command line. -/
def pushedFor (kernel:ℕ)(ps:List (ℕ×Bool))(line:List UInt8):List UInt8:=
 if (tablesOf ps).card=kernel then [] else frame (tokens line)

def Underlies (pushed:List UInt8)(ls:List PageImage)(m:Image):Prop:=
 ∃pd,m.1.pd=some pd ∧ ∀l∈ls,Shows pd m.2 (under pushed l)

lemma pushArguments_spec (there:m.1.pd=some pd)(h:Mapping pd ps)
 (framed:Framed pd m.1.pools)(shows:∀l∈ls,Shows pd m.2 l){line:List UInt8}
 (short:line.length≤pgSize-1):
 Records env r (pushArguments line) m
  (fun _ m'=>ArgsFit line ps ∧ Underlies (frame (tokens line)) ls m')
  (fun _=>¬ArgsFit line ps):=by
 have small:=argBytes_le short
 rw[argsFit_iff small]
 rw[←size_blocks,←Nat.zero_add (size _)] at small ⊢
 by_cases few:(tokens line).length≤128
 · rw[and_iff_right few]
   refine (holds_pushArguments short few).2
    (Holds.imp (storeAll_spec there h framed small holding_zero fun x _=>rfl) ?_)
   rintro _ m' ⟨held,same,after⟩
   refine ⟨held,pd,by rw[same];exact there,fun l mem=>?_⟩
   rw[←blocks_frame]
   exact under_pushed (shows l mem) (by omega) after
 · refine holds_pushArguments_many (Q:=fun _ _=>True) (not_le.1 few)
    ((holds_trivial _ _).mono ?_ ?_)
   · exact fun _ _ _=>trivial
   · exact fun _ _ fit=>few fit.1

lemma pushed_without {P:Prop}{I:Image→Prop}{line:List UInt8}(bad:¬P):
 Records env r (do
  let success←pure false
  let esp←pushArguments line
  pure (success,esp)) m (fun res=>Decides P I res.1) (fun _=>¬P):=by
 refine holds_run_bind.2 (holds_run_bind.2 ((holds_trivial _ _).mono ?_ fun _ _=>bad))
 exact fun esp m' _=>decides_false bad

lemma setupStack_spec (h:Drawn f c kernel user ps ls m)(input:List UInt8):
 Records env r (setupStack input) m
  (fun res=>Decides (Stacked kernel user (input.take (pgSize-1)) ps)
   (Underlies (pushedFor kernel ps (input.take (pgSize-1))) ls) res.1)
  (fun _=>¬Stacked kernel user (input.take (pgSize-1)) ps):=by
 obtain ⟨loading,pd,there,framed,shows⟩:=h
 obtain ⟨pd₁,there₁,mapping⟩:=loading.mapping
 obtain rfl:pd=pd₁:=some.inj (there.symm.trans there₁)
 have pages:=loading.kernel
 have top:physBase-UInt32.ofNat pgSize=pageAddr (userLimit-1):=rfl
 unfold Records setupStack
 rw[holds_run_bind]
 refine (records_map (only_ask rfl)).2 (loads_palloc.2 ⟨fun none=>?_,fun copy got=>?_⟩)
 · rw[Pools.getPage_eq_none.1 none,length_nil,Nat.zero_add] at pages
   refine decides_true (.inl pages) ⟨pd,there,fun l mem=>?_⟩
   rw[pushedFor,if_pos pages]
   exact under_nil (shows l mem)
 have left:=length_pos_of_mem (Pools.getPage_mem got)
 have some_:(tablesOf ps).card≠kernel:=by omega
 have taken:=loading.take got
 have framed₁:Framed pd (m.1.pools.mark copy true):=framed.mono fun p mem=>(mem_free_mark.1 mem).1
 rw[pushedFor,if_neg some_,Stacked,or_iff_right some_,stackTop,taken.room_iff]
 rw[holds_run_bind]
 refine (records_map (only_ask rfl)).2 (loads_palloc.2 ⟨fun none=>?_,fun kpage found=>?_⟩)
 · rw[Pools.getPage_eq_none] at none
   exact pushed_without fun ok=>ok.1.1 none
 have new:=Pools.getPage_mem found
 rw[top,holds_run_bind]
 refine (records_map (only_installPage ..)).2
  (Holds.mono (installPage_spec ?_ mapping (by decide) kpage) ?_ fun _ none=>none.elim)
 · exact there
 rintro ok sys' ⟨can,done⟩
 rw[←length_pos_iff,Pools.free_other found false (by decide),length_pos_iff] at can
 cases ok with
 | false=>
  rw[if_neg (by decide),holds_run_bind]
  refine (records_map (only_ask rfl)).2 (loads_free.2 (pushed_without fun ok=>?_))
  exact absurd (can.2 ok.1.2) (by decide)
 | true=>
  obtain ⟨installed,pd',now,absent,maps,fewer⟩:=done rfl
  obtain ⟨pd₂,pools,rfl,mapping'⟩:=installed.mapping
  obtain rfl:pd₂=pd':=some.inj now
  have framed':=framed₁.map maps new fun p mem=>mem_free_mark.1 (fewer p mem)
  rw[if_pos rfl,holds_run_bind,holds_run_pure,holds_run_bind]
  refine Holds.mono (Q:=fun _ m'=>ArgsFit _ _ ∧ Underlies _ ls m')
   (pushArguments_spec rfl mapping' framed' (fun l mem=>?_) (length_take_le ..)) ?_
   fun e bad ok=>bad ok.2
  · have kept:=(shows l mem).keep framed₁ maps absent new (m.2 kpage)
    rwa[update_eq_self] at kept
  · rintro esp m' ⟨fit,under⟩
    exact decides_true ⟨⟨ne_nil_of_mem new,can.1 rfl⟩,fit⟩ under

/-- All segments are in memory, under what `setup_stack` has pushed. -/
def Overlaid (c:Content)(pushed:List UInt8)(m:Image):Prop:=Underlies pushed (images c) m

lemma loadFile_spec (shelved:env.files=shelf)(h:Drawn f c kernel user [] [] m)
 (rewound:m.1.files.pos f=0)(input:List UInt8):
 Records env r (loadFile (some f) input) m
  (fun image=>Decides (Loadable c kernel user (input.take (pgSize-1)))
   (Overlaid c (pushedFor kernel (segments c) (input.take (pgSize-1)))) image.isSome)
  (fun _=>¬Loadable c kernel user (input.take (pgSize-1))):=by
 have length:=read_length c 0 52 (Nat.zero_le _)
 have header:readEhdr (c.read 0 52)=c.ehdr:=rfl
 rw[loadable_iff]
 unfold Records loadFile
 rw[holds_run_bind]
 refine (records_file (only_fileRead ..)).2 ((loads_read shelved).2 ?_)
 rw[rewound,h.loading.content]
 obtain ⟨m₁,moved,drawn,-⟩:=sought h (0+(c.read 0 52).length)
 unfold moveTo at moved
 rw[←moved,header]
 by_cases bad:(c.read 0 52).length≠52 ∨ ¬c.ehdr.Valid
 · rw[if_pos bad]
   refine decides_false fun ok=>?_
   exact absurd bad (not_or.2 ⟨not_not.2 (length.2 ok.1.1),not_not.2 ok.1.2⟩)
 have good:52≤c.length ∧ c.ehdr.Valid:=by
  obtain ⟨size,valid⟩:=not_or.1 bad
  exact ⟨length.1 (not_not.1 size),not_not.1 valid⟩
 rw[if_neg bad,holds_run_bind,and_iff_right good]
 refine Holds.mono (loadTable_spec shelved drawn) ?_ nofun
 rintro ok m' ⟨loaded,more⟩
 cases ok with
 | false=>exact decides_false fun ok=>absurd (loaded.2 ok.1) (by decide)
 | true=>
  rw[if_pos rfl,holds_run_bind,and_iff_right (loaded.1 rfl)]
  refine (setupStack_spec (more rfl) input).imp ?_
  rintro ⟨success,esp⟩ last stacked
  cases success with
  | false | true=>exact stacked

lemma framed_kernelOnly {pd:PageDir}(h:KernelOnly pd)(pools:Pools):Framed pd pools:=by
 have none:∀a pte,¬Entry pd a pte:=by
  intro a pte entry
  have found:=entry.found
  rw[lookupPage,h _ (pdNo_lt entry.user)] at found
  cases found
 exact ⟨fun a pte entry=>absurd entry (none a pte),fun a b pte pte' entry=>
  absurd entry (none a pte)⟩

lemma load_draws (shelved:env.files=shelf)(kernelOnly:KernelOnly env.init)(name input:List UInt8):
 Records env r (load env.init (some name) input) m (fun image=>Decides (Startable 1 m.1 name input)
   (fun m'=>∀c,m.1.files.lookup m.1.files.opens name=some c →
    Overlaid c (pushedFor ((m.1.pools.free false).length-1) (segments c)
     (input.take (pgSize-1))) m') image.isSome)
  (fun _=>¬Startable 1 m.1 name input):=by
 unfold Records load pagedirCreate
 rw[holds_run_bind,holds_run_bind]
 refine (records_map (only_ask rfl)).2 (loads_palloc.2 ⟨fun none=>?_,fun page got=>?_⟩)
 · exact ⟨⟨nofun,fun ok=>absurd ok (startable_none none)⟩,nofun⟩
 rw[←startable_taken got,holds_run_pure,map_some,holds_run_bind]
 refine records_setPagedir.2 ?_
 rw[holds_run_bind]
 refine (records_file (only_ask rfl)).2 ((loads_open shelved).2
  (holds_shelfOpen.2 ⟨fun missing=>?_,fun c found=>?_⟩))
 · refine ⟨⟨nofun,?_⟩,nofun⟩
   rintro ⟨-,c,found,-⟩
   exact nomatch missing.symm.trans found
 have kernel:(m.1.pools.free false).length-1=((m.1.pools.mark page true).free false).length:=
  Nat.sub_eq_of_eq_add (Pools.free_taken got).symm
 have directory:KernelOnly {env.init with page}:=kernelOnly
 have startable:Startable 0 {m.1 with pools:=m.1.pools.mark page true} name input ↔
   Loadable c ((m.1.pools.mark page true).free false).length
    ((m.1.pools.mark page true).free true).length (input.take (pgSize-1)):=
  startable_iff (Nat.zero_le _) found
 rw[startable]
 rw[kernel,holds_run_bind]
 refine Holds.imp (loadFile_spec shelved
  ⟨⟨⟨_,rfl,PageMaps.KernelOnly.mapping directory⟩,nodup_nil,rfl,rfl,
   update_self ..⟩,_,rfl,framed_kernelOnly directory _,nofun⟩
  (update_self ..) input) ?_
 intro image m' loaded
 rw[holds_run_bind]
 refine (records_file (only_fileClose ..)).2 ((loads_close shelved).2 ?_)
 refine ⟨loaded.1,fun yes c' found'=>?_⟩
 obtain rfl:c=c':=some.inj (found.symm.trans found')
 exact loaded.2 yes

end

end Pintos.LoadedImage

namespace Pintos.Spawning
open ExecHoare Interaction Paging PageMaps Process ElfImage LoadedImage
variable {env:Env Shelf}{r:ℤ}{sys:Sys Shelf}

lemma load_spec (shelved:env.files=shelf)(kernelOnly:KernelOnly env.init)(name input:List UInt8):
 Loads env r (load env.init (some name) input) sys
  (fun image _=>image.isSome=true ↔ Startable 1 sys name input)
  (fun _=>¬Startable 1 sys name input):=by
 have drawn:=load_draws (r:=r) (m:=(sys,fun _ _=>0)) shelved kernelOnly name input
 exact (holds_run_recording (s:=(sys,fun _ _=>0))).1 (drawn.imp fun _ _ decided=>decided.1)

lemma startProcess_spec (shelved:env.files=shelf)(kernelOnly:KernelOnly env.init)
 {name input:List UInt8}(first:strtok (input.take (pgSize-1))=some name):
 Loads env r (startProcess env.init input) sys (fun _ _=>Startable 2 sys name input)
  (fun _=>¬Startable 2 sys name input):=by
 unfold Loads startProcess
 rw[holds_run_bind]
 refine loads_palloc.2 ⟨fun none=>?_,fun copy got=>?_⟩
 · exact holds_run_stop.2 (startable_none none)
 rw[first,holds_run_bind,←startable_taken got]
 refine (load_spec shelved kernelOnly name input).imp ?_
 intro image after loaded
 rw[holds_run_bind]
 refine loads_free.2 ?_
 cases image with
 | none=>
  refine holds_run_stop.2 fun ok=>?_
  exact absurd (loaded.2 ok) (by decide)
 | some entry=>exact loaded.1 rfl

end Pintos.Spawning
