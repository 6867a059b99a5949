import Mathlib.Data.List.Find
import Pintos.Palloc

/-! The page pools of `threads/palloc.c`, where pages are allocated one at a time. -/
namespace Pintos.PagePools
open Function List

structure Pools where
 kernel:List ℕ
 user:List ℕ
 used:ℕ→Bool
 distinct:(kernel++user).Nodup

namespace Pools
variable (s:Pools)

def pool (user:Bool):List ℕ:=if user then s.user else s.kernel
def getPage (user:Bool):Option ℕ:=(s.pool user).find? (fun p=>!s.used p)
def mark (p:ℕ)(b:Bool):Pools:={s with used:=update s.used p b}
def free (user:Bool):List ℕ:=(s.pool user).filter (fun p=>!s.used p)

variable {s}{user:Bool}{p q:ℕ}

lemma getPage_eq_none:s.getPage user=none ↔ s.free user=[]:=by
 unfold getPage free
 rw[find?_eq_none,filter_eq_nil_iff]
lemma getPage_mem (h:s.getPage user=some p):p∈s.free user:=by
 have unused:=find?_some (p:=fun p=>!s.used p) h
 exact mem_filter.2 ⟨mem_of_find?_eq_some h,unused⟩
lemma getPage_unused (h:s.getPage user=some p):s.used p=false:=by
 simpa using (mem_filter.1 (getPage_mem h)).2
lemma mark_used_ne (b:Bool)(h:q≠p):(s.mark p b).used q=s.used q:=update_of_ne h ..
lemma mark_used (b:Bool):(s.mark p b).used p=b:=update_self ..

lemma pool_nodup (s:Pools)(user:Bool):(s.pool user).Nodup:=by
 obtain ⟨kernel,user',-⟩:=nodup_append'.1 s.distinct
 cases user with
 | false=>exact kernel
 | true=>exact user'

lemma free_nodup (s:Pools)(user:Bool):(s.free user).Nodup:=(s.pool_nodup user).filter _

lemma notMem_free (h:s.getPage user=some p):p∉s.free (!user):=by
 obtain ⟨-,-,disjoint⟩:=nodup_append'.1 s.distinct
 have hp:=(mem_filter.1 (getPage_mem h)).1
 intro hp'
 have hp':=(mem_filter.1 hp').1
 cases user with
 | false=>exact disjoint hp hp'
 | true=>exact disjoint hp' hp

lemma free_mark (s:Pools)(user:Bool)(p:ℕ):
 (s.mark p true).free user=(s.free user).filter (· != p):=by
 unfold free
 rw[List.filter_filter]
 apply filter_congr
 intro q _
 by_cases hq:q=p
 · subst hq
   rw[mark_used]
   simp
 · rw[mark_used_ne _ hq]
   simp[hq]

section
variable (h:s.getPage user=some p)
include h

lemma free_length (other:Bool):
 ((s.mark p true).free other).length+(if other=user then 1 else 0)=(s.free other).length:=by
 rw[free_mark]
 by_cases same:other=user
 · subst same
   rw[if_pos rfl,←(s.free_nodup other).erase_eq_filter p,length_erase_of_mem (getPage_mem h)]
   have:=length_pos_of_mem (getPage_mem h)
   omega
 · obtain rfl:other = !user:=by
    cases other<;>cases user<;>simp_all
   rw[if_neg same,filter_eq_self.2]
   · rfl
   · intro q hq
     have ne:q≠p:=fun he=>notMem_free h (he▸hq)
     simpa using ne

lemma free_taken:((s.mark p true).free user).length+1=(s.free user).length:=by
 have length:=free_length h user
 rwa[if_pos rfl] at length
lemma free_other (other:Bool)(ne:other≠user):
 ((s.mark p true).free other).length=(s.free other).length:=by
 have length:=free_length h other
 rwa[if_neg ne] at length

end

section
open Bitmap Palloc

/-- `q` has the pages of the pools of `p` one by one. -/
def Shows (p:Palloc.Pools)(q:Pools):Prop:=∀user,
 q.pool user=(range (p.pool user).usedMap.length).map ((p.pool user).base+pgSize*·) ∧
 ∀i<(p.pool user).usedMap.length,
  (p.pool user).usedMap[i]?=some (q.used ((p.pool user).base+pgSize*i))

variable {p:Palloc.Pools}{q:Pools}(h:Shows p q)(user:Bool)
include h

lemma getPage_scan:
 q.getPage user=(bitmapScan (p.pool user).usedMap 1).map ((p.pool user).base+pgSize*·):=by
 obtain ⟨pages,bits⟩:=h user
 unfold getPage bitmapScan
 rw[pages,find?_map]
 split
 · rw[Nat.sub_add_cancel ‹_›]
   congr 1
   refine find?_congr fun i hi=>?_
   have lt:i+1≤_:=mem_range.1 hi
   rw[bitmapContains,if_pos ⟨by omega,(Nat.mod_le _ _).trans lt⟩,take_one,head?_drop,bits i lt,
    if_pos lt,comp]
   cases q.used _<;>rfl
 · rw[show (p.pool user).usedMap.length=0 by omega]
   rfl

/-- `palloc_get_page` takes the page that `getPage` finds. -/
theorem getPage_agrees:∃p',pallocGetMultiple p ⟨user,false⟩ 1=.ok (q.getPage user,p') ∧
  Shows p' ((q.getPage user).elim q (q.mark · true)):=by
 have found:=getPage_scan h user
 unfold pallocGetMultiple
 rw[if_neg Nat.one_ne_zero]
 cases scan:bitmapScan (p.pool user).usedMap 1 with
 | none=>
  rw[scan] at found
  rw[found]
  exact ⟨p,rfl,h⟩
 | some i=>
  rw[scan] at found
  have set:bitmapSetMultiple (p.pool user).usedMap i 1 true=some _:=
   if_pos (bitmapScan_spec scan).1
  dsimp only
  rw[found,set]
  refine ⟨_,rfl,fun other=>?_⟩
  rw[base_setUsed,length_setUsed (bitmapSetMultiple_length set),pool_setUsed]
  obtain ⟨pages,bits⟩:=h other
  refine ⟨pages,fun j hj=>?_⟩
  by_cases same:other=user
  · subst same
    rw[if_pos rfl,bitmapSetMultiple_bit set]
    by_cases here:j=i
    · rw[here,if_pos (by omega)]
      exact congrArg some (mark_used true).symm
    · rw[if_neg (by omega),bits j hj]
      refine congrArg some (mark_used_ne true fun eq=>here ?_).symm
      dsimp only[pgSize] at eq
      omega
  · rw[if_neg same,bits j hj]
    refine congrArg some (mark_used_ne true fun eq=>notMem_free found ?_).symm
    obtain rfl:=Bool.eq_not.2 same
    refine mem_filter.2 ⟨?_,by rw[getPage_unused found];rfl⟩
    rw[pages]
    exact mem_map.2 ⟨j,mem_range.2 hj,eq⟩

end

end Pools

end Pintos.PagePools
