import Pintos.ArgumentStack
import Pintos.PageFault

/-!
# User memory behind a page directory

The bytes of a process are those of the pages that its page directory maps. As no page is mapped
twice, user memory is written to as if it were flat.
-/
namespace Pintos.PageFrames
open Paging PageMaps PagePools Function UInt32
open PageFault (Maps)
open ArgumentStack (writeBytes)

abbrev Ram:=ℕ → ℕ → UInt8

/-- What is at `a`; zero if no page is. -/
def byteAt (pd:PageDir)(ram:Ram)(a:Addr):UInt8:=
 match pagedirGetPage pd a with
 | some page=>ram page (pgOfs a)
 | none=>0

def storeByte (pd:PageDir)(ram:Ram)(a:Addr)(b:UInt8):Ram:=
 match pagedirGetPage pd a with
 | some page=>update ram page (update (ram page) (pgOfs a) b)
 | none=>ram
def storeBytes (pd:PageDir):List UInt8→Addr→Ram→Ram
 | [],_,ram=>ram
 | b::rest,a,ram=>storeBytes pd rest (a+1) (storeByte pd ram a b)

structure Entry (pd:PageDir)(a:Addr)(pte:Pte):Prop where
 user:isUserVaddr a
 found:lookupPage pd a=some pte
 present:pte.present=true

/-- The pages that are mapped have been taken from the user pool, each for one address. -/
structure Framed (pd:PageDir)(pools:Pools):Prop where
 taken:∀a pte,Entry pd a pte → pte.page∉pools.free true
 apart:∀a b pte pte',Entry pd a pte → Entry pd b pte' → pte.page=pte'.page → pageNo a=pageNo b

structure PageImage where
 num:ℕ
 writable:Bool
 byte:ℕ→UInt8

def Shows (pd:PageDir)(ram:Ram)(l:PageImage):Prop:=
 l.num<userLimit ∧ ∃pte,Entry pd (pageAddr l.num) pte ∧ pte.writable=l.writable ∧
  ∀j<pgSize,ram pte.page j=l.byte j
variable {pd:PageDir}{ram:Ram}{a b:Addr}{pte:Pte}

lemma addr_ext (page:pageNo a=pageNo b)(ofs:pgOfs a=pgOfs b):a=b:=by
 rw[←UInt32.toNat_inj]
 unfold pageNo pgOfs pgSize at *
 omega
lemma Entry.getPage (h:Entry pd a pte):pagedirGetPage pd a=some pte.page:=by
 rw[pagedirGetPage,h.found]
 exact if_pos h.present

lemma Entry.move (h:Entry pd a pte)(page:pageNo b=pageNo a):Entry pd b pte:=by
 obtain ⟨hd,ht⟩:=same_page.2 page
 refine ⟨?_,?_,h.present⟩
 · rw[isUserVaddr_iff,page,←isUserVaddr_iff]
   exact h.user
 · rw[lookupPage,hd,ht]
   exact h.found

lemma Entry.byteAt (h:Entry pd a pte):byteAt pd ram a=ram pte.page (pgOfs a):=by
 rw[PageFrames.byteAt,h.getPage]
lemma exists_entry (user:isUserVaddr a)(present:Present pd a):∃pte,Entry pd a pte:=by
 obtain ⟨pte,found,present⟩:=present_iff.1 present
 exact ⟨pte,user,found,present⟩

lemma in_page {n j:ℕ}(inside:n<userLimit)(small:j<pgSize):
 pageNo (pageAddr n+UInt32.ofNat j)=n ∧ pgOfs (pageAddr n+UInt32.ofNat j)=j:=by
 have place:(pageAddr n+UInt32.ofNat j).toNat=n*pgSize+j:=by
  rw[UInt32.toNat_add,pageAddr_toNat inside,toNat_ofNat']
  unfold userLimit at inside
  unfold pgSize at *
  omega
 unfold pageNo pgOfs
 unfold pgSize at *
 omega

lemma Shows.entry {l:PageImage}(h:Shows pd ram l){j:ℕ}(small:j<pgSize):
 ∃pte,Entry pd (pageAddr l.num+UInt32.ofNat j) pte ∧ pte.writable=l.writable ∧
  byteAt pd ram (pageAddr l.num+UInt32.ofNat j)=l.byte j:=by
 obtain ⟨inside,pte,entry,writable,same⟩:=h
 obtain ⟨page,ofs⟩:=in_page inside small
 have there:=entry.move (page.trans (pageNo_pageAddr inside).symm)
 refine ⟨pte,there,writable,?_⟩
 rw[there.byteAt,ofs,same j small]

variable {pools:Pools}{x:Addr}

lemma byteAt_storeByte (framed:Framed pd pools){pte:Pte}(h:Entry pd a pte)(b:UInt8)
 (user:isUserVaddr x):
 byteAt pd (storeByte pd ram a b) x=update (byteAt pd ram) a b x:=by
 have stored:storeByte pd ram a b=update ram pte.page (update (ram pte.page) (pgOfs a) b):=by
  rw[storeByte,h.getPage]
 rw[stored]
 by_cases same:x=a
 · rw[same,update_self,h.byteAt,update_self,update_self]
 rw[update_of_ne same]
 by_cases present:Present pd x
 · obtain ⟨pte',entry⟩:=exists_entry user present
   rw[entry.byteAt,entry.byteAt]
   by_cases frame:pte'.page=pte.page
   · have page:=framed.apart x a _ _ entry h frame
     have ofs:pgOfs x≠pgOfs a:=fun ofs=>same (addr_ext page ofs)
     rw[frame,update_self,update_of_ne ofs]
   · rw[update_of_ne frame]
 · have none:pagedirGetPage pd x=none:=not_not.1 present
   rw[byteAt,byteAt,none]

lemma writeBytes_cons (byte:Addr→UInt8)(a:Addr)(b:UInt8){bytes:List UInt8}
 (short:bytes.length+1<2^32)(x:Addr):
 writeBytes byte a (b::bytes) x=writeBytes (update byte a b) (a+1) bytes x:=by
 have next:(x-(a+1)).toNat=if x=a then 2^32-1 else (x-a).toNat-1:=by
  have ha:=a.toNat_lt
  have hx:=x.toNat_lt
  have one:(1:UInt32).toNat=1:=rfl
  rw[UInt32.toNat_sub,UInt32.toNat_sub,UInt32.toNat_add,one]
  split
  · subst x
    omega
  · have ne:x.toNat≠a.toNat:=fun h=>‹¬x=a› (UInt32.toNat_inj.1 h)
    omega
 unfold writeBytes
 rw[next,List.length_cons]
 by_cases same:x=a
 · have zero:(x-a).toNat=0:=by rw[same,sub_self];rfl
   rw[if_pos same,zero,if_pos (Nat.succ_pos _),if_neg (by omega),same,update_self]
   rfl
 · have positive:0<(x-a).toNat:=by
    refine Nat.pos_of_ne_zero fun zero=>same ?_
    exact sub_eq_zero.1 (UInt32.toNat_inj.1 zero)
   obtain ⟨t,at_⟩:=Nat.exists_eq_add_of_lt positive
   rw[if_neg same,at_,Nat.add_sub_cancel,update_of_ne same,List.getD_cons_succ]
   simp only[Nat.add_lt_add_iff_right]

lemma byteAt_storeBytes (framed:Framed pd pools){bytes:List UInt8}(short:bytes.length<2^32)
 (mapped:∀i<bytes.length,∃pte,Entry pd (a+UInt32.ofNat i) pte)(user:isUserVaddr x):
 byteAt pd (storeBytes pd bytes a ram) x=writeBytes (byteAt pd ram) a bytes x:=by
 induction bytes generalizing a ram with
 | nil=>rfl
 | cons b rest ih=>
  rw[List.length_cons] at short mapped
  obtain ⟨pte,first⟩:=mapped 0 (Nat.succ_pos _)
  have here:a+UInt32.ofNat 0=a:=add_zero a
  rw[here] at first
  rw[storeBytes,ih (by omega),writeBytes_cons _ _ _ short]
  · unfold writeBytes
    rw[byteAt_storeByte framed first b user]
  · intro i inside
    have place:a+1+UInt32.ofNat i=a+UInt32.ofNat (i+1):=by
     rw[ofNat_add,add_assoc,add_comm 1]
     rfl
    rw[place]
    exact mapped (i+1) (Nat.succ_lt_succ inside)

variable {pd':PageDir}{pools':Pools}{u:Addr}{kpage:ℕ}{w:Bool}{l:PageImage}

lemma Framed.mono (h:Framed pd pools)(fewer:∀p∈pools'.free true,p∈pools.free true):
 Framed pd pools':=
 ⟨fun a pte entry mem=>h.taken a pte entry (fewer _ mem),h.apart⟩

lemma entry_cases (maps:Maps pd pd' u kpage w){a:Addr}{pte:Pte}(h:Entry pd' a pte):
 (pageNo a=pageNo u ∧ pte.page=kpage) ∨ (pageNo a≠pageNo u ∧ Entry pd a pte):=by
 by_cases page:pageNo a=pageNo u
 · have there:=maps.there a page
   rw[h.found] at there
   obtain rfl:=Option.some.inj there
   exact .inl ⟨page,rfl⟩
 · exact .inr ⟨page,h.user,(maps.others a pte page h.present).1 h.found,h.present⟩

lemma Framed.map (h:Framed pd pools)(maps:Maps pd pd' u kpage w)(new:kpage∈pools.free true)
 (fewer:∀p∈pools'.free true,p∈pools.free true ∧ p≠kpage):Framed pd' pools':=by
 constructor
 · intro a pte entry mem
   rcases entry_cases maps entry with ⟨-,page⟩|⟨-,old⟩
   · exact (fewer _ mem).2 page
   · exact h.taken a pte old (fewer _ mem).1
 · intro a b pte pte' entry entry' frame
   rcases entry_cases maps entry with ⟨page,at_⟩|⟨-,old⟩
   · rcases entry_cases maps entry' with ⟨page',-⟩|⟨-,old'⟩
     · rw[page,page']
     · rw[at_] at frame
       exact absurd (frame▸new) (h.taken b pte' old')
   · rcases entry_cases maps entry' with ⟨-,at_'⟩|⟨-,old'⟩
     · rw[at_'] at frame
       exact absurd (frame▸new) (h.taken a pte old)
     · exact h.apart a b pte pte' old old' frame

lemma Shows.keep (h:Shows pd ram l)(framed:Framed pd pools)(maps:Maps pd pd' u kpage w)
 (absent:¬Present pd u)(new:kpage∈pools.free true)(page:ℕ→UInt8):
 Shows pd' (update ram kpage page) l:=by
 obtain ⟨inside,pte,entry,writable,same⟩:=h
 have other:pageNo (pageAddr l.num)≠pageNo u:=by
  intro eq
  refine absent ?_
  rw[Present,(entry.move eq.symm).getPage]
  exact Option.some_ne_none _
 have frame:pte.page≠kpage:=fun eq=>framed.taken _ pte entry (eq▸new)
 refine ⟨inside,pte,⟨entry.user,?_,entry.present⟩,writable,?_⟩
 · exact (maps.others _ pte other entry.present).2 entry.found
 · intro j small
   rw[update_of_ne frame,same j small]

lemma shows_new {n:ℕ}(maps:Maps pd pd' (pageAddr n) kpage w)(inside:n<userLimit)
 {page byte:ℕ→UInt8}(same:∀j<pgSize,page j=byte j):
 Shows pd' (update ram kpage page) ⟨n,w,byte⟩:=by
 have entry:Entry pd' (pageAddr n) (pteCreateUser kpage w):=
  ⟨isUserVaddr_pageAddr inside,maps.there _ rfl,rfl⟩
 refine ⟨inside,_,entry,rfl,?_⟩
 intro j small
 change update ram kpage page kpage j=_
 rw[update_self,same j small]

end Pintos.PageFrames
