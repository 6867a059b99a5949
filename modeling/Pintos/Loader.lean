import Pintos.ArgumentPushes
import Pintos.PageFault
import Pintos.UserStrings

/-!
# Loading an executable

What `load` does with a file of which only the content counts: it returns exactly if the content
is that of an executable for which there is memory.
-/
namespace Pintos.Spawning
open ExecHoare Interaction Paging PagePools PageMaps Process ElfImage Function List Option Pools
open Cache (Fault)
open PageFault (Maps setEntry_maps)
open FileCalls (string)

/-- Files as their contents. What a name stands for may be another file, or none, each time
that it is looked up. -/
structure Shelf where
 lookup:ℕ→List UInt8→Option Content
 opens:ℕ
 content:ℕ → Content
 pos:ℕ→ℕ

def shelfOpen (name:List UInt8):Exec Fault Shelf (Option ℕ):=do
 let s←get
 match s.lookup s.opens name with
 | none=>
  set {s with opens:=s.opens+1}
  return none
 | some c=>
  set {s with
   opens:=s.opens+1
   content:=update s.content s.opens c
   pos:=update s.pos s.opens 0}
  return some s.opens

lemma holds_shelfOpen {name:List UInt8}{s:Shelf}{Q:Option ℕ→Shelf→Prop}{E:Fault→Prop}:
 Holds (shelfOpen name) s Q E ↔ (s.lookup s.opens name=none → Q none {s with opens:=s.opens+1}) ∧
  ∀c,s.lookup s.opens name=some c → Q (some s.opens) {s with
   opens:=s.opens+1
   content:=update s.content s.opens c
   pos:=update s.pos s.opens 0}:=by
 unfold shelfOpen
 rw[holds_bind,holds_get]
 cases s.lookup s.opens name with
 | none=>exact ⟨fun h=>⟨fun _=>h,nofun⟩,fun h=>h.1 rfl⟩
 | some c=>exact ⟨fun h=>⟨nofun,by rintro _ ⟨⟩;exact h⟩,fun h=>h.2 c rfl⟩

def shelfCall (m:Memory):(c:FsCall) → Exec Fault Shelf c.Answer
 | .filesysOpen (.user a)=>shelfOpen (string m a).val
 | .filesysOpen (.copy none)=>throw .assertion
 | .filesysOpen (.copy (some name))=>shelfOpen name
 | .inodeLength f=>do
  let s←get
  return (s.content f).length
 | .inodeReadAt f _ size=>do
  let s←get
  let bytes:=(s.content f).read (s.pos f) size.toNat
  set {s with pos:=update s.pos f (s.pos f+bytes.length)}
  return bytes
 | .inodeClose _ | .filesysDone=>return ()
 | .filesysCreate .. | .filesysRemove _=>return false
 | .inodeWriteAt ..=>return 0

def shelf:Files Shelf where
 call:=shelfCall
 seek f pos:=modify fun s=>{s with pos:=update s.pos f pos.toNat}
 tell f:=do
  let s←get
  return s.pos f

section
variable {env:Env Shelf}{r:ℤ}{sys:Sys Shelf}{F:Stop→Prop}{Q:Unit→Sys Shelf→Prop}{f:ℕ}

abbrev Loads (env:Env Shelf)(r:ℤ){α:Type}(p:Proc α)(sys:Sys Shelf)
 (Q:α→Sys Shelf→Prop)(F:Stop→Prop):Prop:=Holds (run (handleChild env r) p) sys Q F

lemma loads_palloc {user:Bool}{Q:Option ℕ→Sys Shelf→Prop}:
 Loads env r (pallocGetPage user) sys Q F ↔ (sys.pools.getPage user=none → Q none sys) ∧
  ∀page,sys.pools.getPage user=some page →
   Q (some page) {sys with pools:=sys.pools.mark page true}:=by
 unfold Loads pallocGetPage
 rw[holds_run_ask]
 exact holds_pallocPage

lemma loads_free {page:ℕ}:Loads env r (pallocFreePage page) sys Q F ↔
  Q () {sys with pools:=sys.pools.mark page false}:=holds_run_ask

variable (shelved:env.files=shelf)
include shelved

lemma loads_open {name:List UInt8}{Q:Option ℕ→Sys Shelf→Prop}:
 Loads env r (filesysOpen (.copy (some name))) sys Q F ↔
  Holds (shelfOpen name) sys.files (fun f files=>Q f {sys with files}) (fun _=>F .panic):=by
 unfold Loads filesysOpen
 rw[holds_run_ask,handleChild,holds_bind,holds_get,holds_onFiles,shelved]
 rfl

lemma loads_length {Q:ℤ→Sys Shelf→Prop}:
 Loads env r (fileLength (some f)) sys Q F ↔ Q (sys.files.content f).length sys:=by
 unfold Loads fileLength
 rw[holds_run_ask,handleChild,holds_bind,holds_get,holds_onFiles,shelved]
 rfl

lemma loads_read {size:ℕ}{Q:List UInt8→Sys Shelf→Prop}:
 Loads env r (fileRead (some f) .kernel size) sys Q F ↔
  Q ((sys.files.content f).read (sys.files.pos f) size)
   {sys with files:={sys.files with
     pos:=update sys.files.pos f
      (sys.files.pos f+((sys.files.content f).read (sys.files.pos f) size).length)}}:=by
 unfold Loads fileRead
 rw[holds_run_ask,handleChild,holds_bind,holds_get,holds_onFiles,shelved]
 rfl

lemma loads_seek {pos:ℕ}:Loads env r (fileSeek (some f) pos) sys Q F ↔
  Q () {sys with files:={sys.files with pos:=update sys.files.pos f pos}}:=by
 unfold Loads fileSeek
 dsimp only
 rw[if_neg (by omega),holds_run_ask,handleChild,holds_onFiles,shelved]
 rfl

lemma loads_close:Loads env r (fileClose (some f)) sys Q F ↔ Q () sys:=by
 unfold Loads fileClose
 rw[holds_run_ask,handleChild,holds_bind,holds_get,holds_onFiles,shelved]
 rfl

end

section
variable {env:Env Shelf}{r:ℤ}{sys sys':Sys Shelf}{pd:PageDir}{ps:List (ℕ×Bool)}{n:ℕ}{w:Bool}

/-- One more page is mapped, in a table that is there or on one more kernel page. -/
structure Installed (sys sys':Sys Shelf)(ps:List (ℕ×Bool))(n:ℕ)(w:Bool):Prop where
 mapping:∃pd pools,sys'={sys with pd:=some pd,pools} ∧ Mapping pd (ps++[(n,w)])
 kernel:(sys'.pools.free false).length+(tablesOf (ps++[(n,w)])).card=
  (sys.pools.free false).length+(tablesOf ps).card
 user:(sys'.pools.free true).length=(sys.pools.free true).length

lemma table_iff (h:Mapping pd ps)(inside:n<userLimit):
 (pd.table (pdNo (pageAddr n))).isSome=true ↔ n/1024∈tablesOf ps:=by
 have user:=isUserVaddr_pageAddr inside
 rw[h.tables _ (pdNo_lt user),mem_tablesOf,pdNo_val,pageNo_pageAddr inside]
def Fewer (sys' sys:Sys Shelf):Prop:=∀p∈sys'.pools.free true,p∈sys.pools.free true
lemma mem_free_mark {pools:Pools}{p q:ℕ}{user:Bool}:
 q∈(pools.mark p true).free user ↔ q∈pools.free user ∧ q≠p:=by
 rw[free_mark,mem_filter,bne_iff_ne]

lemma pagedirSetPage_spec (h:Mapping pd ps)(inside:n<userLimit)(new:n∉ps.map (·.1))(kpage:ℕ):
 Loads env r (pagedirSetPage pd (pageAddr n) kpage w) sys (fun d sys'=>
  (d.isSome=true ↔ n/1024∈tablesOf ps ∨ sys.pools.free false≠[]) ∧
  ∀pd',d=some pd' → Installed sys {sys' with pd:=some pd'} ps n w ∧
   Maps pd pd' (pageAddr n) kpage w ∧ Fewer sys' sys) NoFault:=by
 have user:=isUserVaddr_pageAddr inside
 have page:=pageNo_pageAddr inside
 have new':pageNo (pageAddr n)∉ps.map (·.1):=by rwa[page]
 have aligned:¬(pgOfs (pageAddr n)≠0 ∨ ¬isUserVaddr (pageAddr n)):=
  not_or.2 ⟨not_not.2 (pgOfs_pageAddr inside),not_not.2 user⟩
 have table:=table_iff h inside
 unfold Loads pagedirSetPage
 rw[if_neg aligned]
 cases at_:pd.table (pdNo (pageAddr n)) with
 | some pt=>
  rw[at_] at table
  have there:n/1024∈tablesOf ps:=table.1 rfl
  have absent:(pt.entry (ptNo (pageAddr n))).present≠true:=by
   intro present
   have entry:lookupPage pd (pageAddr n)=some (pt.entry (ptNo (pageAddr n))):=by
    rw[lookupPage,at_,map_some]
   exact new' (List.mem_map_of_mem ((h.entries _ _ user).1 ⟨_,entry,present,rfl⟩))
  dsimp only
  rw[if_neg absent]
  refine ⟨⟨fun _=>.inl there,fun _=>rfl⟩,?_⟩
  rintro pd' ⟨⟩
  have mapping:=h.set_there new' at_ kpage w
  rw[page] at mapping
  refine ⟨⟨⟨_,sys.pools,rfl,mapping⟩,?_,rfl⟩,setEntry_maps pt fun b pte hd _=>?_,fun p mem=>mem⟩
  · rw[tablesOf_snoc,Finset.insert_eq_of_mem there]
  · rw[lookupPage,hd,at_,map_some,Option.some.injEq]
 | none=>
  rw[at_] at table
  have missing:n/1024∉tablesOf ps:=fun mem=>Bool.false_ne_true (table.2 mem)
  rw[holds_run_bind]
  refine loads_palloc.2 ⟨fun none=>?_,fun p got=>?_⟩
  · rw[getPage_eq_none] at none
    refine ⟨⟨fun no=>absurd no Bool.false_ne_true,?_⟩,fun pd' no=>absurd no (some_ne_none pd').symm⟩
    rintro (mem|some)
    · exact absurd mem missing
    · exact absurd none some
  · have some:sys.pools.free false≠[]:=ne_nil_of_mem (getPage_mem got)
    refine ⟨⟨fun _=>.inr some,fun _=>rfl⟩,?_⟩
    rintro pd' ⟨⟩
    have mapping:=h.set_new new' at_ p kpage w
    rw[page] at mapping
    have kernel:=free_taken got
    refine ⟨⟨⟨_,_,rfl,mapping⟩,?_,free_other got true (by decide)⟩,
     setEntry_maps _ fun b pte hd present=>?_,fun q mem=>(mem_free_mark.1 mem).1⟩
    · rw[tablesOf_snoc,Finset.card_insert_of_notMem missing]
      dsimp only
      omega
    · rw[lookupPage,hd,at_]
      refine ⟨fun no=>absurd no (some_ne_none pte).symm,?_⟩
      rintro rfl
      cases present

lemma installPage_spec (there:sys.pd=some pd)(h:Mapping pd ps)(inside:n<userLimit)(kpage:ℕ):
 Loads env r (installPage (pageAddr n) kpage w) sys
  (Decides (n∉ps.map (·.1) ∧ (n/1024∈tablesOf ps ∨ sys.pools.free false≠[]))
   fun sys'=>Installed sys sys' ps n w ∧ ∃pd',sys'.pd=some pd' ∧
    ¬Present pd (pageAddr n) ∧ Maps pd pd' (pageAddr n) kpage w ∧ Fewer sys' sys)
  NoFault:=by
 have present:=h.present (isUserVaddr_pageAddr inside)
 rw[pageNo_pageAddr inside] at present
 unfold Loads installPage
 rw[holds_run_bind,holds_run_ask,handleChild,holds_bind,holds_get,holds_pure,there]
 dsimp only
 by_cases mapped:pagedirGetPage pd (pageAddr n)≠none
 · rw[if_pos mapped]
   exact decides_false fun ok=>ok.1 (present.1 mapped)
 · rw[if_neg mapped]
   have new:n∉ps.map (·.1):=fun old=>mapped (present.2 old)
   refine holds_run_bind.2 ((pagedirSetPage_spec h inside new kpage).imp ?_)
   rintro d sys' ⟨room,set⟩
   cases d with
   | none=>exact decides_false fun ok=>absurd (room.2 ok.2) (by decide)
   | some pd'=>
    obtain ⟨installed,maps,fewer⟩:=set pd' rfl
    exact decides_true ⟨new,room.1 rfl⟩ ⟨installed,pd',rfl,mapped,maps,fewer⟩

end

section
variable {sys sys':Sys Shelf}{f:ℕ}{c:Content}{kernel user:ℕ}{ps:List (ℕ×Bool)}{n:ℕ}{w:Bool}

structure Loading (f:ℕ)(c:Content)(kernel user:ℕ)(ps:List (ℕ×Bool))
  (sys:Sys Shelf):Prop where
 mapping:∃pd,sys.pd=some pd ∧ Mapping pd ps
 distinct:(ps.map (·.1)).Nodup
 kernel:(sys.pools.free false).length+(tablesOf ps).card=kernel
 user:(sys.pools.free true).length+ps.length=user
 content:sys.files.content f=c

section
variable (h:Loading f c kernel user ps sys)
include h

lemma Loading.room:Room kernel user ps:=by
 have pages:=h.kernel
 have frames:=h.user
 exact ⟨h.distinct,by omega,by omega⟩

lemma Loading.room_iff:Room kernel user (ps++[(n,w)]) ↔ sys.pools.free true≠[] ∧ n∉ps.map (·.1) ∧
  (n/1024∈tablesOf ps ∨ sys.pools.free false≠[]):=by
 have pages:=h.kernel
 have frames:=h.user
 rw[h.room.snoc_iff,←length_pos_iff,←length_pos_iff]
 have users:ps.length<user ↔ 0<(sys.pools.free true).length:=by omega
 have kernels:(tablesOf ps).card<kernel ↔ 0<(sys.pools.free false).length:=by omega
 rw[users,kernels]

lemma Loading.moved (pos:ℕ→ℕ):Loading f c kernel user ps {sys with files:={sys.files with pos}}:=
 ⟨h.mapping,h.distinct,h.kernel,h.user,h.content⟩

lemma Loading.installed {kpage:ℕ}
 (got:sys.pools.getPage true=some kpage)(room:Room kernel user (ps++[(n,w)]))
 {pos:ℕ→ℕ}(now:Installed {sys with
  pools:=sys.pools.mark kpage true,files:={sys.files with pos}} sys' ps n w):
 Loading f c kernel user (ps++[(n,w)]) sys' ∧ sys'.files.pos=pos:=by
 have kernels:=free_other got false (by decide)
 have users:=free_taken got
 have pages:=h.kernel
 have frames:=h.user
 obtain ⟨⟨pd,pools,rfl,mapping⟩,kernel',user'⟩:=now
 dsimp only at kernel' user'
 refine ⟨⟨⟨pd,rfl,mapping⟩,room.distinct,?_,?_,h.content⟩,rfl⟩
 · dsimp only
   omega
 · dsimp only
   rw[length_append,length_singleton]
   omega

end

lemma read_length (c:Content)(pos size:ℕ)(inside:pos≤c.length):
 (c.read pos size).length=size ↔ pos+size≤c.length:=by
 unfold Content.read Content.length at *
 rw[List.length_take,length_drop]
 omega

def pages (n k:ℕ)(w:Bool):List (ℕ×Bool):=(range' n k).map (fun i=>(i,w))
lemma pages_succ (n k:ℕ)(w:Bool):pages n (k+1) w=(n,w)::pages (n+1) k w:=by
 rw[pages,range'_succ,map_cons,pages]
lemma pagesOf_segment {h:Phdr}(segment:h.type=1):
 pagesOf h=pages (firstPage h) (pageCount h) (decide (h.flags/2%2=1)):=by
 rw[pagesOf,if_pos segment,pages]
lemma pagesOf_other {h:Phdr}(other:h.type≠1):pagesOf h=[]:=by
 rw[pagesOf,if_neg other]
def headersFrom (c:Content)(ofs m:ℕ):List Phdr:=
 (List.range m).map (fun i=>readPhdr (c.read (ofs+32*i) 32))

lemma headersFrom_succ (c:Content)(ofs m:ℕ):
 headersFrom c ofs (m+1)=readPhdr (c.read ofs 32)::headersFrom c (ofs+32) m:=by
 unfold headersFrom
 rw[range_succ_eq_map,map_cons,List.map_map]
 refine congrArg₂ List.cons rfl (map_congr_left fun i _=>?_)
 have place:ofs+32*(i+1)=ofs+32+32*i:=by omega
 simp only[comp,place]

end

section
variable {sys:Sys Shelf}{pd:PageDir}{ps:List (ℕ×Bool)}

/-- The upper `d` bytes of user memory may be written to. -/
def Holding (ps:List (ℕ×Bool))(d:ℕ):Prop:=∀e,1≤e → e≤d → ((userBytes-e)/pgSize,true)∈ps

lemma holding_zero:Holding ps 0:=by
 intro e low high
 omega

lemma writable_below (h:Mapping pd ps){e:ℕ}(low:1≤e)(high:e≤userBytes):
 Writable pd (below e) ↔ ((userBytes-e)/pgSize,true)∈ps:=by
 have page:pageNo (below e)=(userBytes-e)/pgSize:=by rw[pageNo,below_toNat high]
 have user:isUserVaddr (below e):=by
  rw[isUserVaddr_iff,page,userBytes_eq]
  unfold userLimit pgSize
  omega
 rw[h.writable user,page]

lemma storable_iff (there:sys.pd=some pd)(h:Mapping pd ps){d n:ℕ}
 (fits:d+n≤userBytes)(held:Holding ps d):
 storable sys.pd (below (d+n)) n ↔ Holding ps (d+n):=by
 have bytes:storable sys.pd (below (d+n)) n ↔ ∀i<n,((userBytes-(d+n-i))/pgSize,true)∈ps:=by
  rw[there]
  constructor
  · rintro ⟨_,⟨⟩,writable⟩ i inside
    have at_:=writable i inside
    rwa[below_add fits (by omega),writable_below h (by omega) (by omega)] at at_
  · intro mem
    refine ⟨pd,rfl,fun i inside=>?_⟩
    rw[below_add fits (by omega),writable_below h (by omega) (by omega)]
    exact mem i inside
 rw[bytes]
 constructor
 · intro mem e low high
   by_cases old:e≤d
   · exact held e low old
   · have index:d+n-(d+n-e)=e:=by omega
     have new:=mem (d+n-e) (by omega)
     rwa[index] at new
 · intro all i inside
   exact all (d+n-i) (by omega) (by omega)

lemma Holding.mono {d e:ℕ}(h:Holding ps e)(le:d≤e):Holding ps d:=
 fun i low high=>h i low (high.trans le)

lemma argsFit_iff {input:List UInt8}(small:argBytes input≤userBytes):
 ArgsFit input ps ↔ (tokens input).length≤128 ∧ Holding ps (argBytes input):=by
 have top:userBytes=userLimit*pgSize:=rfl
 constructor
 · intro h
   refine ⟨h.count,fun e low high=>h.pages _ ?_ ?_⟩
   · unfold userLimit pgSize at *
     omega
   · exact Nat.div_le_div_right (by omega)
 · rintro ⟨count,held⟩
   refine ⟨count,fun n inside above=>?_⟩
   -- The lowest byte of page `n` that is written to.
   have page:(userBytes-min (argBytes input) (userBytes-n*pgSize))/pgSize=n:=by
    unfold userLimit pgSize at *
    omega
   rw[←page]
   refine held _ ?_ (Nat.min_le_left ..)
   unfold userLimit pgSize at *
   omega

end
variable {sys:Sys Shelf}{f:ℕ}{c:Content}{kernel user:ℕ}{ps:List (ℕ×Bool)}{input:List UInt8}

lemma Loading.take (h:Loading f c kernel user ps sys){page:ℕ}
 (got:sys.pools.getPage false=some page):
 Loading f c (kernel-1) user ps {sys with pools:=sys.pools.mark page true}:=by
 have kernels:=free_taken got
 have users:=free_other got true (by decide)
 have pages:=h.kernel
 refine ⟨h.mapping,h.distinct,?_,?_,h.content⟩
 · dsimp only
   omega
 · rw[users]
   exact h.user

/-- What `setup_stack` needs after the pages `ps`. -/
def Stacked (kernel user:ℕ)(input:List UInt8)(ps:List (ℕ×Bool)):Prop:=
 (tablesOf ps).card=kernel ∨ Room (kernel-1) user (ps++[stackTop]) ∧ ArgsFit input (ps++[stackTop])

lemma loadable_iff:Loadable c kernel user input ↔ (52≤c.length ∧ c.ehdr.Valid) ∧
  ((c.ehdr.phnum=0 ∨ c.ehdr.phoff+32*c.ehdr.phnum≤c.length) ∧
   (∀hd∈c.phdrs,Accepted c hd) ∧ Room kernel user (segments c)) ∧
  Stacked kernel user input (segments c):=
 ⟨fun h=>⟨⟨h.executable.size,h.executable.ehdr⟩,
   ⟨h.executable.table,h.executable.phdrs,h.room⟩,h.stack⟩,
  fun ⟨⟨size,ehdr⟩,⟨table,phdrs,room⟩,stack⟩=>⟨⟨size,ehdr,table,phdrs⟩,room,stack⟩⟩

/-- There is a file behind the name, and memory to load it once `taken` kernel pages are taken. -/
def Startable (taken:ℕ)(sys:Sys Shelf)(name input:List UInt8):Prop:=
 taken≤(sys.pools.free false).length ∧ ∃c,sys.files.lookup sys.files.opens name=some c ∧
  Loadable c ((sys.pools.free false).length-taken) (sys.pools.free true).length
   (input.take (pgSize-1))

lemma startable_iff {taken:ℕ}{name:List UInt8}(enough:taken≤(sys.pools.free false).length)
 (found:sys.files.lookup sys.files.opens name=some c):
 Startable taken sys name input ↔
  Loadable c ((sys.pools.free false).length-taken) (sys.pools.free true).length
   (input.take (pgSize-1)):=by
 constructor
 · rintro ⟨-,c',found',loadable⟩
   rw[found] at found'
   exact Option.some.inj found'▸loadable
 · exact fun loadable=>⟨enough,c,found,loadable⟩

lemma startable_taken {taken page:ℕ}{name:List UInt8}(got:sys.pools.getPage false=some page):
 Startable taken {sys with pools:=sys.pools.mark page true} name input ↔
  Startable (taken+1) sys name input:=by
 have kernels:=free_taken got
 have users:=free_other got true (by decide)
 unfold Startable
 rw[users,←kernels,Nat.add_le_add_iff_right,Nat.add_sub_add_right]

lemma startable_none {taken:ℕ}{name:List UInt8}(none:sys.pools.getPage false=none):
 ¬Startable (taken+1) sys name input:=by
 rintro ⟨enough,-⟩
 rw[getPage_eq_none.1 none] at enough
 exact Nat.not_succ_le_zero _ enough

end Pintos.Spawning
