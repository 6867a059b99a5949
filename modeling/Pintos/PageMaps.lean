import Pintos.Paging

/-! What a page directory maps, as a list of pages with the right to write to them. -/
namespace Pintos.PageMaps
open Paging Function List

def pageNo (a:Addr):ℕ:=a.toNat/pgSize
def pageAddr (n:ℕ):Addr:=UInt32.ofNat (n*pgSize)
def userLimit:ℕ:=786432

section
variable {a b:Addr}{n:ℕ}

lemma isUserVaddr_iff:isUserVaddr a ↔ pageNo a<userLimit:=by
 have lt:isUserVaddr a ↔ a.toNat<3221225472:=UInt32.lt_iff_toNat_lt
 rw[lt]
 unfold pageNo userLimit pgSize
 omega

lemma pdNo_val (a:Addr):(pdNo a).val=pageNo a/1024:=by
 have:=a.toNat_lt
 change a.toNat/2^22%1024=_
 unfold pageNo pgSize
 omega

lemma ptNo_val (a:Addr):(ptNo a).val=pageNo a%1024:=rfl
lemma same_page:pdNo a=pdNo b ∧ ptNo a=ptNo b ↔ pageNo a=pageNo b:=by
 rw[Fin.ext_iff,Fin.ext_iff,pdNo_val,pdNo_val,ptNo_val,ptNo_val]
 omega
lemma pageAddr_toNat (h:n<userLimit):(pageAddr n).toNat=n*pgSize:=by
 unfold pageAddr userLimit pgSize at *
 rw[UInt32.toNat_ofNat']
 omega

lemma pageNo_pageAddr (h:n<userLimit):pageNo (pageAddr n)=n:=by
 unfold pageNo
 rw[pageAddr_toNat h]
 unfold pgSize
 omega

lemma pgOfs_pageAddr (h:n<userLimit):pgOfs (pageAddr n)=0:=by
 unfold pgOfs
 rw[pageAddr_toNat h]
 exact Nat.mul_mod_left ..
lemma isUserVaddr_pageAddr (h:n<userLimit):isUserVaddr (pageAddr n):=
 isUserVaddr_iff.2 ((pageNo_pageAddr h).symm▸h)

end

section
variable {pd:PageDir}{ps:List (ℕ×Bool)}{a b:Addr}{w:Bool}

structure Mapping (pd:PageDir)(ps:List (ℕ×Bool)):Prop where
 tables:∀i:Fin 1024,i.val<768 → ((pd.table i).isSome=true ↔ ∃p∈ps,p.1/1024=i.val)
 entries:∀a w,isUserVaddr a → ((∃pte,lookupPage pd a=some pte ∧ pte.present=true ∧
  pte.writable=w) ↔ (pageNo a,w)∈ps)

lemma Mapping.present (h:Mapping pd ps)(user:isUserVaddr a):
 pagedirGetPage pd a≠none ↔ pageNo a∈ps.map (·.1):=by
 have entries:pageNo a∈ps.map (·.1) ↔ ∃pte,lookupPage pd a=some pte ∧ pte.present=true:=by
  constructor
  · intro hm
    obtain ⟨⟨n,w⟩,hp,rfl⟩:=List.mem_map.1 hm
    obtain ⟨pte,found,present,-⟩:=(h.entries a w user).2 hp
    exact ⟨pte,found,present⟩
  · rintro ⟨pte,found,present⟩
    exact List.mem_map_of_mem ((h.entries a pte.writable user).1 ⟨pte,found,present,rfl⟩)
 rw[entries]
 exact present_iff

lemma Mapping.writable (h:Mapping pd ps)(user:isUserVaddr a):Writable pd a ↔ (pageNo a,true)∈ps:=by
 rw[←h.entries a true user]
 unfold Writable
 rw[Option.any_eq_true]
 simp only[Bool.and_eq_true]

lemma pdNo_lt (user:isUserVaddr a):(pdNo a).val<768:=by
 have:=isUserVaddr_iff.1 user
 rw[pdNo_val]
 unfold userLimit at this
 omega

lemma KernelOnly.mapping (h:KernelOnly pd):Mapping pd []:=by
 constructor
 · intro i hi
   rw[h i hi]
   simp
 · intro a w user
   unfold lookupPage
   rw[h _ (pdNo_lt user)]
   simp

lemma lookupPage_setEntry {pt:PageTable}{pte:Pte}:lookupPage (setEntry pd a pt pte) b=
  if pdNo b=pdNo a then some (if ptNo b=ptNo a then pte else pt.entry (ptNo b))
  else lookupPage pd b:=by
 unfold lookupPage setEntry
 dsimp only
 by_cases hd:pdNo b=pdNo a
 · rw[if_pos hd,hd,update_self]
   by_cases ht:ptNo b=ptNo a
   · simp[ht]
   · simp[ht]
 · rw[if_neg hd,update_of_ne hd]

variable (h:Mapping pd ps)(new:pageNo a∉ps.map (·.1))
include h new

lemma Mapping.set {pt:PageTable}(same:∀b pte,pdNo b=pdNo a → pte.present=true →
  (lookupPage pd b=some pte ↔ pt.entry (ptNo b)=pte))(kpage:ℕ)(w:Bool):
 Mapping (setEntry pd a pt (pteCreateUser kpage w)) (ps++[(pageNo a,w)]):=by
 constructor
 · intro i hi
   change (update pd.table (pdNo a) _ i).isSome=true ↔ _
   simp only[mem_append,mem_singleton,or_and_right,exists_or,exists_eq_left]
   by_cases hd:i=pdNo a
   · subst hd
     rw[update_self]
     exact ⟨fun _=>.inr (pdNo_val a).symm,fun _=>rfl⟩
   · rw[update_of_ne hd,h.tables i hi,or_iff_left]
     intro he
     exact hd (Fin.ext (he.symm.trans (pdNo_val a).symm))
 · intro b w' user
   rw[lookupPage_setEntry,mem_append,mem_singleton,←h.entries b w' user]
   by_cases page:pageNo b=pageNo a
   · obtain ⟨hd,ht⟩:=same_page.2 page
     have old:¬ ∃pte,lookupPage pd b=some pte ∧ pte.present=true ∧ pte.writable=w':=by
      rw[h.entries b w' user]
      exact fun hm=>new (page▸List.mem_map_of_mem hm)
     rw[if_pos hd,if_pos ht,or_iff_right old,page]
     constructor
     · rintro ⟨pte,he,-,rfl⟩
       cases he
       rfl
     · rintro ⟨⟩
       exact ⟨_,rfl,rfl,rfl⟩
   · have other:(pageNo b,w')≠(pageNo a,w):=fun he=>page (Prod.mk.inj he).1
     rw[or_iff_left other]
     by_cases hd:pdNo b=pdNo a
     · have ht:ptNo b≠ptNo a:=fun ht=>page (same_page.1 ⟨hd,ht⟩)
       rw[if_pos hd,if_neg ht]
       refine exists_congr fun pte=>?_
       rw[Option.some.injEq]
       exact ⟨fun ⟨he,hp,hw⟩=>⟨(same b pte hd hp).2 he,hp,hw⟩,
        fun ⟨he,hp,hw⟩=>⟨(same b pte hd hp).1 he,hp,hw⟩⟩
     · rw[if_neg hd]

lemma Mapping.set_there {pt:PageTable}(there:pd.table (pdNo a)=some pt)(kpage:ℕ)(w:Bool):
 Mapping (setEntry pd a pt (pteCreateUser kpage w)) (ps++[(pageNo a,w)]):=by
 refine h.set new (fun b pte hd _=>?_) kpage w
 unfold lookupPage
 rw[hd,there]
 simp

lemma Mapping.set_new (none:pd.table (pdNo a)=none)(table kpage:ℕ)(w:Bool):
 Mapping (setEntry pd a ⟨table,fun _=>.zero⟩ (pteCreateUser kpage w)) (ps++[(pageNo a,w)]):=by
 refine h.set new (fun b pte hd hp=>?_) kpage w
 unfold lookupPage
 rw[hd,none]
 refine ⟨nofun,fun he=>?_⟩
 rw[←he] at hp
 cases hp

end
variable {kernel user:ℕ}{ps qs:List (ℕ×Bool)}{n:ℕ}{w:Bool}

def tablesOf (ps:List (ℕ×Bool)):Finset ℕ:=(ps.map (fun p=>p.1/1024)).toFinset
lemma mem_tablesOf {i:ℕ}:i∈tablesOf ps ↔ ∃p∈ps,p.1/1024=i:=by
 rw[tablesOf,List.mem_toFinset,List.mem_map]
lemma tablesOf_append (ps qs:List (ℕ×Bool)):tablesOf (ps++qs)=tablesOf ps ∪ tablesOf qs:=by
 rw[tablesOf,map_append,toFinset_append]
 rfl
lemma tablesOf_snoc (ps:List (ℕ×Bool))(n:ℕ)(w:Bool):
 tablesOf (ps++[(n,w)])=insert (n/1024) (tablesOf ps):=by
 rw[tablesOf_append,Finset.insert_eq,Finset.union_comm]
 rfl

/-- The pages are distinct, and there is memory for them and for the tables. -/
structure Room (kernel user:ℕ)(ps:List (ℕ×Bool)):Prop where
 distinct:(ps.map (·.1)).Nodup
 kernel:(tablesOf ps).card≤kernel
 user:ps.length≤user

lemma room_nil (kernel user:ℕ):Room kernel user []:=⟨nodup_nil,Nat.zero_le _,Nat.zero_le _⟩

lemma Room.left (h:Room kernel user (ps++qs)):Room kernel user ps:=by
 refine ⟨?_,?_,?_⟩
 · have distinct:=h.distinct
   rw[map_append] at distinct
   exact (nodup_append'.1 distinct).1
 · have tables:=h.kernel
   rw[tablesOf_append] at tables
   exact (Finset.card_le_card Finset.subset_union_left).trans tables
 · have length:=h.user
   rw[length_append] at length
   omega

lemma Room.snoc_iff (h:Room kernel user ps):
 Room kernel user (ps++[(n,w)]) ↔ ps.length<user ∧ n∉ps.map (·.1) ∧
  (n/1024∈tablesOf ps ∨ (tablesOf ps).card<kernel):=by
 have distinct:((ps++[(n,w)]).map (·.1)).Nodup ↔ n∉ps.map (·.1):=by
  rw[map_append,map_singleton,nodup_append',and_iff_right h.distinct,
   and_iff_right (nodup_singleton _),disjoint_singleton]
 have kernel:(tablesOf (ps++[(n,w)])).card≤kernel ↔
   n/1024∈tablesOf ps ∨ (tablesOf ps).card<kernel:=by
  have:=h.kernel
  rw[tablesOf_snoc]
  by_cases ht:n/1024∈tablesOf ps
  · simp[ht,this]
  · rw[Finset.card_insert_of_notMem ht]
    simp only[ht,false_or]
    omega
 have user:(ps++[(n,w)]).length≤user ↔ ps.length<user:=by
  rw[length_append,length_singleton]
  omega
 constructor
 · exact fun room=>⟨user.1 room.user,distinct.1 room.distinct,kernel.1 room.kernel⟩
 · exact fun ⟨hu,hd,hk⟩=>⟨distinct.2 hd,kernel.2 hk,user.2 hu⟩

end Pintos.PageMaps
