import Pintos.ExecRuns

/-!
# Page directories as words of memory

`threads/pte.h`, `userprog/pagedir.c` and `paging_init` on 32-bit words: an entry is a physical
address and flags in one word, a directory or a table is a page of 1024 of them. Memory is
addressed as the kernel does, from `PHYS_BASE` on. A function returns `none` where an assertion
of it fails.
-/
namespace Pintos.PageWords
open ExecRuns BitVec
open Function (update)

abbrev Word:=BitVec 32
abbrev Mem:=Word → Word
def pgMask:Word:=0xfff
def ptMask:Word:=0x3ff000
def pteAddr:Word:=0xfffff000
def pteP:Word:=0x1
def pteW:Word:=0x2
def pteU:Word:=0x4
def pteA:Word:=0x20
def pteD:Word:=0x40
def physBase:Word:=0xc0000000

section
variable (va:Word)

def pgOfs:Word:=va &&& pgMask
def ptNo:ℕ:=((va &&& ptMask) >>> 12).toNat
def pdNo:ℕ:=(va >>> 22).toNat
def isUserVaddr:Bool:=decide (va<physBase)
def ptov (paddr:Word):Option Word:=if paddr<physBase then some (paddr+physBase) else none
def vtop:Option Word:=if physBase≤va then some (va-physBase) else none
def pdeCreate (pt:Word):Option Word:=
 if pgOfs pt=0 then (vtop pt).map (fun paddr=>paddr ||| pteU ||| pteP ||| pteW) else none
def pdeGetPt (pde:Word):Option Word:=
 if pde &&& pteP≠0 then ptov (pde &&& pteAddr) else none
def pteCreateKernel (page:Word)(writable:Bool):Option Word:=
 if pgOfs page=0 then
  (vtop page).map (fun paddr=>paddr ||| pteP ||| (if writable then pteW else 0))
 else none
def pteCreateUser (page:Word)(writable:Bool):Option Word:=
 (pteCreateKernel page writable).map (fun pte=>pte ||| pteU)
def pteGetPage (pte:Word):Option Word:=ptov (pte &&& pteAddr)

end

def slot (base:Word)(i:ℕ):Word:=base+BitVec.ofNat 32 (4*i)
def zeroPage (mem:Mem)(page:Word):Mem:=fun a=>if a &&& pteAddr=page then 0 else mem a
def copyPage (mem:Mem)(dst src:Word):Mem:=
 fun a=>if a &&& pteAddr=dst then mem (src+(a-dst)) else mem a

section
variable (ram:ℕ)(initPageDir:Word)(mem:Mem)(pd:Word)

/-- `alloc` is what `palloc_get_page` answers. -/
def pagedirCreate (alloc:Option Word):Option Word×Mem:=
 match alloc with
 | none=>(none,mem)
 | some pd=>(some pd,copyPage mem pd initPageDir)

/-- The address of the entry for `vaddr`, if there is one, and the memory after the call. -/
def lookupPage (vaddr:Word)(create:Bool)(alloc:Option Word):Option (Option Word×Mem):=
 let found (mem:Mem):Option (Option Word×Mem):=
  (pdeGetPt (mem (slot pd (pdNo vaddr)))).map (fun pt=>(some (slot pt (ptNo vaddr)),mem))
 if pd≠0 ∧ (!create || isUserVaddr vaddr) then
  if mem (slot pd (pdNo vaddr))=0 then
   if create then
    match alloc with
    | none=>some (none,mem)
    | some pt=>(pdeCreate pt).bind (fun pde=>
     found (update (zeroPage mem pt) (slot pd (pdNo vaddr)) pde))
   else some (none,mem)
  else found mem
 else none

def pagedirSetPage (upage kpage:Word)(writable:Bool)(alloc:Option Word):Option (Bool×Mem):=
 if pgOfs upage=0 ∧ pgOfs kpage=0 ∧ isUserVaddr upage then
  (vtop kpage).bind (fun paddr=>
   if (paddr >>> 12).toNat<ram ∧ pd≠initPageDir then
    (lookupPage mem pd upage true alloc).bind (fun found=>
     match found.1 with
     | some pte=>
      if found.2 pte &&& pteP=0 then
       (pteCreateUser kpage writable).map (fun w=>(true,update found.2 pte w))
      else none
     | none=>some (false,found.2))
   else none)
 else none

def pagedirGetPage (uaddr:Word):Option (Option Word):=
 if isUserVaddr uaddr then
  (lookupPage mem pd uaddr false none).bind (fun found=>
   match found.1 with
   | some pte=>
    if mem pte &&& pteP≠0 then
     (pteGetPage (mem pte)).map (fun page=>some (page+pgOfs uaddr))
    else some none
   | none=>some none)
 else none

def pagedirClearPage (upage:Word):Option Mem:=
 if pgOfs upage=0 ∧ isUserVaddr upage then
  (lookupPage mem pd upage false none).map (fun found=>
   match found.1 with
   | some pte=>
    if mem pte &&& pteP≠0 then update mem pte (mem pte &&& ~~~pteP) else mem
   | none=>mem)
 else none

def pagedirIsFlag (flag vpage:Word):Option Bool:=
 (lookupPage mem pd vpage false none).map (fun found=>
  match found.1 with
  | some pte=>decide (mem pte &&& flag≠0)
  | none=>false)

def pagedirSetFlag (flag vpage:Word)(on:Bool):Option Mem:=
 (lookupPage mem pd vpage false none).map (fun found=>
  match found.1 with
  | some pte=>
   update mem pte (if on then mem pte ||| flag else mem pte &&& ~~~flag)
  | none=>mem)

def pagedirIsDirty (vpage:Word):Option Bool:=pagedirIsFlag mem pd pteD vpage
def pagedirSetDirty (vpage:Word)(dirty:Bool):Option Mem:=pagedirSetFlag mem pd pteD vpage dirty
def pagedirIsAccessed (vpage:Word):Option Bool:=pagedirIsFlag mem pd pteA vpage
def pagedirSetAccessed (vpage:Word)(accessed:Bool):Option Mem:=
 pagedirSetFlag mem pd pteA vpage accessed
def pagedirIsMapped (vaddr:Word):Option Bool:=
 (lookupPage mem pd vaddr false none).map (fun found=>found.1.isSome)

end

/-- The state of the loop of `paging_init`, with the pages that `palloc_get_page` will give. -/
structure Boot where
 mem:Mem
 pt:Option Word
 pages:List Word

/-- The page table for the next address, made if it is the first one there. -/
def bootTable (pd vaddr:Word)(b:Boot):Option Boot:=
 if b.mem (slot pd (pdNo vaddr))=0 then
  match b.pages with
  | []=>none
  | pt::pages=>(pdeCreate pt).map (fun pde=>
   ⟨update (zeroPage b.mem pt) (slot pd (pdNo vaddr)) pde,some pt,pages⟩)
 else some b

def bootPage (inText:Word→Bool)(pd:Word)(b:Boot)(page:ℕ):Option Boot:=
 (ptov (BitVec.ofNat 32 (page*4096))).bind (fun vaddr=>
  (bootTable pd vaddr b).bind (fun b=>
   b.pt.bind (fun pt=>
    (pteCreateKernel vaddr (!inText vaddr)).map (fun pte=>
     {b with mem:=update b.mem (slot pt (ptNo vaddr)) pte}))))

/-- `inText` tells which pages hold the code of the kernel. -/
def pagingInit (ram:ℕ)(inText:Word→Bool)(mem:Mem)(pd:Word)(pages:List Word):Option Mem:=
 ((List.range ram).foldlM (bootPage inText pd) ⟨zeroPage mem pd,none,pages⟩).map Boot.mem
variable {va p q:Word}

lemma toNat_pgOfs (va:Word):(pgOfs va).toNat=va.toNat%4096:=by
 exact Nat.and_two_pow_sub_one_eq_mod va.toNat 12
lemma pgOfs_eq_zero:pgOfs va=0 ↔ va.toNat%4096=0:=by
 rw[←toNat_pgOfs,←toNat_inj]
 rfl
lemma pdNo_eq (va:Word):pdNo va=va.toNat/4194304:=by
 rw[pdNo,toNat_ushiftRight,Nat.shiftRight_eq_div_pow]

lemma ptNo_eq (va:Word):ptNo va=va.toNat/4096%1024:=by
 have shifted:(va &&& ptMask) >>> 12=(va >>> 12) &&& 0x3ff:=by
  rw[ushiftRight_and_distrib]
  rfl
 rw[ptNo,shifted,toNat_and,toNat_ushiftRight,Nat.shiftRight_eq_div_pow]
 exact Nat.and_two_pow_sub_one_eq_mod _ 10

lemma pdNo_lt (va:Word):pdNo va<1024:=by
 rw[pdNo_eq]
 omega
lemma ptNo_lt (va:Word):ptNo va<1024:=by
 rw[ptNo_eq]
 exact Nat.mod_lt _ (by decide)

lemma and_pteAddr (va:Word):va &&& pteAddr=(va >>> 12) <<< 12:=by
 have mask:∀i,i<32 → pteAddr.getLsbD i=decide (12 ≤ i):=by decide
 apply eq_of_getLsbD_eq
 intro i hi
 rw[getLsbD_and,mask i hi,getLsbD_shiftLeft,getLsbD_ushiftRight]
 by_cases low:i<12
 · simp[low]
 · have sum:12+(i-12)=i:=by omega
   simp[low,hi,sum]
   omega

lemma toNat_and_pteAddr (va:Word):(va &&& pteAddr).toNat=va.toNat/4096*4096:=by
 rw[and_pteAddr,toNat_shiftLeft,toNat_ushiftRight,Nat.shiftLeft_eq,
  Nat.shiftRight_eq_div_pow]
 exact Nat.mod_eq_of_lt (by omega)
def pageNo (va:Word):ℕ:=va.toNat/4096
lemma pageNo_eq_iff {a b:Word}:pageNo a=pageNo b ↔ pdNo a=pdNo b ∧ ptNo a=ptNo b:=by
 rw[pdNo_eq,pdNo_eq,ptNo_eq,ptNo_eq]
 unfold pageNo
 omega
def Page (p:Word):Prop:=pgOfs p=0 ∧ physBase≤p
instance (p:Word):Decidable (Page p):=inferInstanceAs (Decidable (_ ∧ _))
lemma page_iff:Page p ↔ p.toNat%4096=0 ∧ 3221225472≤p.toNat:=by
 unfold Page
 rw[pgOfs_eq_zero,le_def]
 rfl
lemma toNat_slot (h:Page p){i:ℕ}(hi:i<1024):(slot p i).toNat=p.toNat+4*i:=by
 obtain ⟨aligned,-⟩:=page_iff.1 h
 rw[slot,toNat_add,toNat_ofNat]
 omega

lemma slot_inj (hp:Page p)(hq:Page q){i j:ℕ}(hi:i<1024)(hj:j<1024)
 (h:slot p i=slot q j):p=q ∧ i=j:=by
 have same:=congrArg BitVec.toNat h
 rw[toNat_slot hp hi,toNat_slot hq hj] at same
 obtain ⟨pa,-⟩:=page_iff.1 hp
 obtain ⟨qa,-⟩:=page_iff.1 hq
 refine ⟨eq_of_toNat_eq ?_,?_⟩<;>omega

lemma slot_and_pteAddr (hp:Page p){i:ℕ}(hi:i<1024):slot p i &&& pteAddr=p:=by
 apply eq_of_toNat_eq
 rw[toNat_and_pteAddr,toNat_slot hp hi]
 obtain ⟨aligned,-⟩:=page_iff.1 hp
 omega

variable {w m f:Word}

lemma getLsbD_of_disjoint (h:f &&& m=0)(i:ℕ):(f.getLsbD i && m.getLsbD i)=false:=by
 have bit:=congrArg (fun x=>getLsbD x i) h
 simpa using bit

lemma or_and_of_disjoint (h:f &&& m=0):(w ||| f) &&& m=w &&& m:=by
 apply eq_of_getLsbD_eq
 intro i _
 have apart:=getLsbD_of_disjoint h i
 rw[getLsbD_and,getLsbD_or,getLsbD_and,Bool.and_or_distrib_right,apart,
  Bool.or_false]

lemma andNot_and_of_disjoint (h:f &&& m=0):(w &&& ~~~f) &&& m=w &&& m:=by
 apply eq_of_getLsbD_eq
 intro i hi
 have apart:=getLsbD_of_disjoint h i
 rw[getLsbD_and,getLsbD_and,getLsbD_not,getLsbD_and]
 cases hf:f.getLsbD i with
 | false=>simp[hi]
 | true=>
  rw[hf,Bool.true_and] at apart
  simp[apart]

lemma andNot_and_self:(w &&& ~~~f) &&& f=0:=by
 apply eq_of_getLsbD_eq
 intro i hi
 cases f.getLsbD i<;>simp

lemma or_and_self:(w ||| f) &&& f=f:=by
 apply eq_of_getLsbD_eq
 intro i hi
 rw[getLsbD_and,getLsbD_or]
 cases f.getLsbD i<;>simp

def pdeOf (t:Word):Word:=t-physBase ||| pteU ||| pteP ||| pteW
def pteOf (p:Word)(writable:Bool):Word:=
 p-physBase ||| pteP ||| (if writable then pteW else 0) ||| pteU
lemma Page.ne_zero (h:Page p):p≠0:=by
 rintro rfl
 exact absurd h.2 (by decide)
lemma Page.toNat_sub (h:Page p):(p-physBase).toNat=p.toNat-3221225472:=by
 rw[toNat_sub_of_le h.2]
 rfl

lemma Page.sub_and_pteAddr (h:Page p):(p-physBase) &&& pteAddr=p-physBase:=by
 apply eq_of_toNat_eq
 rw[toNat_and_pteAddr,h.toNat_sub]
 obtain ⟨aligned,base⟩:=page_iff.1 h
 omega

lemma Page.vtop (h:Page p):vtop p=some (p-physBase):=if_pos h.2

lemma Page.ptov (h:Page p):ptov (p-physBase)=some p:=by
 have low:p-physBase<physBase:=by
  rw[lt_def,h.toNat_sub]
  change _<3221225472
  omega
 rw[PageWords.ptov,if_pos low,sub_add_cancel]

lemma Page.pdeCreate (h:Page p):pdeCreate p=some (pdeOf p):=by
 rw[PageWords.pdeCreate,if_pos h.1,h.vtop]
 rfl
lemma Page.pteCreateUser (h:Page p)(writable:Bool):
 pteCreateUser p writable=some (pteOf p writable):=by
 rw[PageWords.pteCreateUser,pteCreateKernel,if_pos h.1,h.vtop]
 rfl
lemma pdeOf_present (t:Word):pdeOf t &&& pteP≠0:=by
 rw[pdeOf,or_and_of_disjoint (by decide),or_and_self]
 decide
lemma pdeOf_ne_zero (t:Word):pdeOf t≠0:=by
 intro h
 exact pdeOf_present t (by rw[h];rfl)

lemma Page.pdeGetPt (h:Page p):pdeGetPt (pdeOf p)=some p:=by
 have address:pdeOf p &&& pteAddr=p-physBase:=by
  rw[pdeOf,or_and_of_disjoint (by decide),or_and_of_disjoint (by decide),
   or_and_of_disjoint (by decide),h.sub_and_pteAddr]
 rw[PageWords.pdeGetPt,if_pos (pdeOf_present p),address,h.ptov]

/-- A mask that does not meet the flags of `PTE_W` and `PTE_U` reads what it does without them. -/
lemma pteOf_and {m:Word}(writable:Bool)(hw:pteW &&& m=0)(hu:pteU &&& m=0):
 pteOf p writable &&& m=(p-physBase ||| pteP) &&& m:=by
 have flag:(if writable then pteW else 0) &&& m=0:=by
  cases writable with
  | false=>exact zero_and
  | true=>exact hw
 rw[pteOf,or_and_of_disjoint hu,or_and_of_disjoint flag]

lemma pteOf_present (p:Word)(writable:Bool):pteOf p writable &&& pteP≠0:=by
 rw[pteOf_and writable (by decide) (by decide),or_and_self]
 decide
lemma Page.pteGetPage (h:Page p)(writable:Bool):pteGetPage (pteOf p writable)=some p:=by
 rw[PageWords.pteGetPage,pteOf_and writable (by decide) (by decide),
  or_and_of_disjoint (by decide),h.sub_and_pteAddr,h.ptov]

lemma Page.pteOf_flag (h:Page p)(writable:Bool){f:Word}(low:pteAddr &&& f=0)
 (hw:pteW &&& f=0)(hu:pteU &&& f=0)(hp:pteP &&& f=0):
 pteOf p writable &&& f=0:=by
 rw[pteOf_and writable hw hu,or_and_of_disjoint hp,←h.sub_and_pteAddr,BitVec.and_assoc,low]
 exact BitVec.and_zero

end Pintos.PageWords
