import Mathlib.Algebra.Group.Nat.Defs
import Mathlib.Logic.Equiv.Basic
import Mathlib.Data.List.Nodup
import Mathlib.Data.List.Range
import Mathlib.Data.List.Perm.Basic

/-! `sort` and `binary_search` of `lib/stdlib.c`. A call of `compare` or a swap outside the array
has no result, and every loop is given `turns` turns. -/
namespace Pintos.Stdlib
open List Option Equiv Nat
open Function (update update_self update_of_ne)

structure Strcmp {α:Type}(compare:α→α→ℤ):Prop where
 swap:∀a b,0≤compare a b ↔ compare b a≤0
 trans:∀a b c,compare a b≤0 → compare b c≤0 → compare a c≤0

section
variable {α:Type}(compare:α→α→ℤ)

def elementAt (array size:ℕ)(xs:List α)(p:ℕ):Option α:=
 if array≤p ∧ (p-array)%size=0 then xs[(p-array)/size]? else none

/-- Addresses are 32-bit words. -/
def searchLoop (key:α)(array size:ℕ)(xs:List α):ℕ→ℕ→ℕ→Option (Option ℕ)
 | 0,_,_=>none
 | turns+1,first,last=>
  if first<last then do
   let range:=(last-first)/size
   let middle:=(first+range/2*size)%2^32
   let cmp:=compare key (← elementAt array size xs middle)
   if cmp<0 then searchLoop key array size xs turns first middle
   else if 0<cmp then searchLoop key array size xs turns ((middle+size)%2^32) last
   else return some middle
  else return none

def binarySearch (turns:ℕ)(key:α)(array size:ℕ)(xs:List α):Option (Option ℕ):=
 searchLoop compare key array size xs turns array ((array+size*xs.length)%2^32)

variable {compare}{key:α}{array size:ℕ}{xs:List α}

lemma Strcmp.lt_of_lt_of_le (h:Strcmp compare){a b c:α}(hab:compare a b<0)
 (hbc:compare b c≤0):compare a c<0:=by
 by_contra hac
 have:=(h.swap a b).2 (h.trans b c a hbc ((h.swap a c).1 (by omega)))
 omega

lemma Strcmp.gt_of_gt_of_le (h:Strcmp compare){a b c:α}(hab:0<compare a b)
 (hcb:compare c b≤0):0<compare a c:=by
 by_contra hac
 have:=h.trans a c b (by omega) hcb
 omega

lemma elementAt_eq (pos:0<size){i:ℕ}:elementAt array size xs (array+i*size)=xs[i]?:=by
 rw[elementAt,if_pos (by simp),Nat.add_sub_cancel_left,Nat.mul_div_cancel _ pos]

lemma searchLoop_step (pos:0<size)(room:array+size*xs.length<2^32){turns lo hi:ℕ}
 (lt:lo<hi)(inside:hi≤xs.length){x:α}(hx:xs[lo+(hi-lo)/2]?=some x):
 searchLoop compare key array size xs (turns+1) (array+lo*size) (array+hi*size)=
  if compare key x<0 then searchLoop compare key array size xs turns (array+lo*size)
   (array+(lo+(hi-lo)/2)*size)
  else if 0<compare key x then searchLoop compare key array size xs turns
   (array+(lo+(hi-lo)/2+1)*size) (array+hi*size)
  else some (some (array+(lo+(hi-lo)/2)*size)):=by
 have less:lo*size<hi*size:=Nat.mul_lt_mul_of_pos_right lt pos
 have range:(array+hi*size-(array+lo*size))/size=hi-lo:=by
  rw[Nat.add_sub_add_left,←Nat.sub_mul,Nat.mul_div_cancel _ pos]
 generalize hm:lo+(hi-lo)/2=m at hx ⊢
 have next:(m+1)*size≤xs.length*size:=Nat.mul_le_mul_right _ (by omega)
 rw[mul_comm size] at room
 rw[succ_mul] at next
 have middle:(array+lo*size+(hi-lo)/2*size)%2^32=array+m*size:=by
  rw[add_assoc,←Nat.add_mul,hm]
  exact mod_eq_of_lt (by omega)
 have after:(array+m*size+size)%2^32=array+(m+1)*size:=by
  rw[succ_mul,←add_assoc]
  exact mod_eq_of_lt (by omega)
 rw[searchLoop,if_pos (by omega)]
 simp only[range,middle,elementAt_eq pos,hx,after,bind_eq_bind,bind_some,Option.pure_def]

lemma searchLoop_spec (key:α)(h:Strcmp compare)
 (sorted:xs.Pairwise fun a b=>compare a b≤0)(pos:0<size)(room:array+size*xs.length<2^32)
 {turns lo hi:ℕ}(le:lo≤hi)(inside:hi≤xs.length)(enough:hi-lo<turns)
 (between:∀i x,xs[i]?=some x → compare key x=0 → lo ≤ i ∧ i<hi):
 ∃r,searchLoop compare key array size xs turns (array+lo*size) (array+hi*size)=some r ∧
  (∀p,r=some p → ∃i x,xs[i]?=some x ∧ p=array+i*size ∧ compare key x=0) ∧
  (r=none ↔ ∀x∈xs,compare key x≠0):=by
 induction turns generalizing lo hi with
 | zero=>omega
 | succ turns ih=>
  by_cases empty:lo=hi
  · subst empty
    rw[searchLoop,if_neg (lt_irrefl _)]
    refine ⟨none,rfl,by simp,?_⟩
    simp only[true_iff]
    intro x mem equal
    obtain ⟨i,hi⟩:=mem_iff_getElem?.1 mem
    have:=between i x hi equal
    omega
  · have lt:lo<hi:=by omega
    have mid:lo+(hi-lo)/2<xs.length:=by omega
    have hx:=getElem?_eq_getElem mid
    generalize xs[lo+(hi-lo)/2]=x at hx
    rw[searchLoop_step pos room lt inside hx]
    generalize hm:lo+(hi-lo)/2=m at hx
    have order:∀ (i j:ℕ) (a b:α),i<j → xs[i]?=some a → xs[j]?=some b → compare a b≤0:=by
     intro i j a b less ha hb
     obtain ⟨hi',rfl⟩:=List.getElem?_eq_some_iff.1 ha
     obtain ⟨hj',rfl⟩:=List.getElem?_eq_some_iff.1 hb
     exact pairwise_iff_getElem.1 sorted i j hi' hj' less
    split
    · rename_i below
      refine ih (by omega) (by omega) (by omega) fun i y hy equal=>⟨(between i y hy equal).1,?_⟩
      by_contra later
      rcases lt_or_eq_of_le (not_lt.1 later) with less|rfl
      · have:=h.lt_of_lt_of_le below (order m i x y less hx hy)
        omega
      · rw[hx,Option.some.injEq] at hy
        subst hy
        omega
    · split
      · rename_i above
        refine ih (by omega) inside (by omega) fun i y hy equal=>⟨?_,(between i y hy equal).2⟩
        by_contra earlier
        rcases lt_or_eq_of_le (Nat.lt_succ_iff.1 (not_le.1 earlier)) with less|rfl
        · have:=h.gt_of_gt_of_le above (order i m y x less hy hx)
          omega
        · rw[hx,Option.some.injEq] at hy
          subst hy
          omega
      · have equal:compare key x=0:=by omega
        refine ⟨_,rfl,?_,?_⟩
        · rintro p ⟨⟩
          exact ⟨m,x,hx,rfl,equal⟩
        · simp only[reduceCtorEq,false_iff,not_forall]
          exact ⟨x,mem_of_getElem? hx,not_not.2 equal⟩

/-- `binary_search` on a sorted array compares only elements of the array, and finds one that
compares equal if there is one. -/
theorem binary_search_complete (h:Strcmp compare)(sorted:xs.Pairwise fun a b=>compare a b≤0)
 (key:α)(pos:0<size)(room:array+size*xs.length<2^32){turns:ℕ}
 (enough:xs.length<turns):
 ∃r,binarySearch compare turns key array size xs=some r ∧
  (∀p,r=some p → ∃i x,xs[i]?=some x ∧ p=array+i*size ∧ compare key x=0) ∧
  (r=none ↔ ∀x∈xs,compare key x≠0):=by
 have spec:=searchLoop_spec key h sorted pos room (zero_le _) (le_refl _)
  (by omega) fun i x hx _=>⟨zero_le i,(List.getElem?_eq_some_iff.1 hx).1⟩
 rw[Nat.zero_mul,mul_comm xs.length] at spec
 rwa[binarySearch,mod_eq_of_lt room]

lemma strcmp_sub:Strcmp fun a b:ℤ=>a-b:=by
 constructor<;>intros<;>omega
theorem binary_search_complete_three:∃r,binarySearch (fun a b:ℤ=>a-b) 4 5 1000 4 [3,5,5]=some r ∧
  (∀p,r=some p → ∃i x,([3,5,5]:List ℤ)[i]?=some x ∧ p=1000+i*4 ∧ 5-x=0) ∧
  (r=none ↔ ∀x∈[3,5,5],(5:ℤ)-x≠0):=by
 refine binary_search_complete strcmp_sub ?_ 5 ?_ ?_ ?_<;>decide

end

section
variable (compare:List UInt8→List UInt8→ℤ)(size len:ℕ)

/-- The element with the 1-based index `k`; `array` gives the bytes from the array on. -/
def elem (array:ℕ→UInt8)(k:ℕ):List UInt8:=(List.range size).map fun i=>array ((k-1)*size+i)

/-- `len` is the number of elements that the array has. -/
def doSwap (array:ℕ→UInt8)(aIdx bIdx:ℕ):Option (ℕ→UInt8):=
 if (1≤aIdx ∧ aIdx≤len) ∧ 1≤bIdx ∧ bIdx≤len then
  let a:=(aIdx-1)*size
  let b:=(bIdx-1)*size
  some ((List.range size).foldl
   (fun array i=>update (update array (a+i) (array (b+i))) (b+i) (array (a+i))) array)
 else none

def doCompare (array:ℕ→UInt8)(aIdx bIdx:ℕ):Option ℤ:=
 if (1≤aIdx ∧ aIdx≤len) ∧ 1≤bIdx ∧ bIdx≤len then
  some (compare (elem size array aIdx) (elem size array bIdx))
 else none

/-- The greater of the element at `max` and its child, if there is one. -/
def greater (array:ℕ→UInt8)(cnt child max:ℕ):Option ℕ:=
 if child≤cnt then do
  return if 0<(← doCompare compare size len array child max) then child else max
 else some max

def heapify (cnt:ℕ):ℕ → (ℕ→UInt8) → ℕ → Option (ℕ→UInt8)
 | 0,_,_=>none
 | turns+1,array,i=>do
  let left:=2*i%2^32
  let right:=(2*i+1)%2^32
  let max←greater compare size len array cnt left i
  let max←greater compare size len array cnt right max
  if max=i then return array
  else
   let array←doSwap size len array i max
   heapify cnt turns array max

def buildHeap (turns:ℕ):ℕ → (ℕ→UInt8) → Option (ℕ→UInt8)
 | 0,array=>some array
 | i+1,array=>do
  let array←heapify compare size len len turns array (i+1)
  buildHeap turns i array

def sortHeap (turns:ℕ):ℕ → (ℕ→UInt8) → Option (ℕ→UInt8)
 | i+2,array=>do
  let array←doSwap size len array 1 (i+2)
  let array←heapify compare size len (i+1) turns array 1
  sortHeap turns (i+1) array
 | _,array=>some array

def sort (turns:ℕ)(array:ℕ→UInt8):Option (ℕ→UInt8):=do
 let array←buildHeap compare size len turns (len/2) array
 sortHeap compare size len turns len array

end

variable {compare:List UInt8→List UInt8→ℤ}{size len cnt turns:ℕ}{array array':ℕ→UInt8}

lemma blocks_apart (size:ℕ){u v:ℕ}(ne:u≠v):u*size+size≤v*size ∨ v*size+size≤u*size:=by
 rw[←succ_mul,←succ_mul]
 rcases lt_or_gt_of_ne ne with less|less
 · exact .inl (Nat.mul_le_mul_right _ less)
 · exact .inr (Nat.mul_le_mul_right _ less)

lemma swapBytes {a b n:ℕ}(apart:a+n≤b ∨ b+n≤a)(p:ℕ):(List.range n).foldl
   (fun array i=>update (update array (a+i) (array (b+i))) (b+i) (array (a+i))) array p=
  if a≤p ∧ p<a+n then array (b+(p-a))
  else if b≤p ∧ p<b+n then array (a+(p-b)) else array p:=by
 induction n generalizing p with
 | zero=>
  rw[if_neg (by omega),if_neg (by omega)]
  rfl
 | succ n ih=>
  have old:=fun p=>ih (by omega) p
  rw[range_succ,foldl_append,foldl_cons,foldl_nil]
  by_cases first:p=a+n
  · subst first
    rw[update_of_ne (by omega),update_self,old,if_neg (by omega),if_neg (by omega),
     if_pos (by omega),Nat.add_sub_cancel_left]
  by_cases second:p=b+n
  · subst second
    rw[update_self,old,if_neg (by omega),if_neg (by omega),if_neg (by omega),if_pos (by omega),
     Nat.add_sub_cancel_left]
  rw[update_of_ne second,update_of_ne first,old]
  have fewer (q:ℕ) (ne:p≠q+n):q≤p ∧ p<q+n ↔ q≤p ∧ p<q+(n+1):=by omega
  simp only[fewer a first,fewer b second]

lemma doSwap_eq (size:ℕ)(array:ℕ→UInt8){a b:ℕ}(ha:1≤a ∧ a≤len)(hb:1≤b ∧ b≤len)(ne:a≠b):
 ∃array',doSwap size len array a b=some array' ∧
  ∀k,1≤k → elem size array' k=elem size array (swap a b k):=by
 have apart:=blocks_apart size (show a-1≠b-1 by omega)
 refine ⟨_,if_pos ⟨ha,hb⟩,fun k hk=>map_congr_left fun i hi=>?_⟩
 have small:=mem_range.1 hi
 rw[swapBytes apart]
 by_cases first:k=a
 · subst first
   rw[swap_apply_left,if_pos (by omega),Nat.add_sub_cancel_left]
 by_cases second:k=b
 · subst second
   rw[swap_apply_right,if_neg (by omega),if_pos (by omega),Nat.add_sub_cancel_left]
 have awayA:=blocks_apart size (show k-1≠a-1 by omega)
 have awayB:=blocks_apart size (show k-1≠b-1 by omega)
 rw[swap_apply_of_ne_of_ne first second,if_neg (by omega),if_neg (by omega)]

/-- The elements of `array'` are those of `array`, and only the first `cnt` have moved. -/
def Permuted (size cnt:ℕ)(array array':ℕ→UInt8):Prop:=
 ∃σ:Equiv.Perm ℕ,(∀k,1≤k → elem size array' k=elem size array (σ k)) ∧
  ∀k,(1≤σ k ∧ σ k≤cnt) ∧ 1≤k ∧ k≤cnt ∨ σ k=k

lemma Permuted.refl:Permuted size cnt array array:=⟨Equiv.refl ℕ,fun _ _=>rfl,fun _=>.inr rfl⟩

lemma Permuted.trans {array'':ℕ→UInt8}(h:Permuted size cnt array array')
 (h':Permuted size cnt array' array''):Permuted size cnt array array'':=by
 obtain ⟨σ,same,inside⟩:=h
 obtain ⟨τ,same',inside'⟩:=h'
 refine ⟨τ.trans σ,fun k hk=>?_,fun k=>?_⟩
 · have positive:1≤τ k:=by
    have:=inside' k
    omega
   rw[same' k hk,same _ positive]
   rfl
 · have:=inside (τ k)
   have:=inside' k
   rw[trans_apply]
   omega

lemma Permuted.mono {cnt':ℕ}(h:Permuted size cnt array array')(le:cnt≤cnt'):
 Permuted size cnt' array array':=by
 obtain ⟨σ,same,inside⟩:=h
 refine ⟨σ,same,fun k=>?_⟩
 have:=inside k
 omega

lemma doSwap_permuted {a b:ℕ}(ha:1≤a ∧ a≤cnt)(hb:1≤b ∧ b≤cnt)
 (same:∀k,1≤k → elem size array' k=elem size array (swap a b k)):
 Permuted size cnt array array':=by
 refine ⟨swap a b,same,fun k=>?_⟩
 by_cases first:k=a
 · rw[first,swap_apply_left]
   exact .inl ⟨hb,ha⟩
 by_cases second:k=b
 · rw[second,swap_apply_right]
   exact .inl ⟨ha,hb⟩
 exact .inr (swap_apply_of_ne_of_ne first second)

lemma Strcmp.refl (h:Strcmp compare)(a:List UInt8):compare a a≤0:=by
 by_contra greater
 have:=(h.swap a a).1 (by omega)
 omega

/-- The parents from `lo` on are in order with their children among the first `cnt` elements. -/
def Heap (compare:List UInt8→List UInt8→ℤ)(f:ℕ→List UInt8)(lo cnt:ℕ):Prop:=
 ∀c,lo≤c/2 → c≤cnt → compare (f c) (f (c/2))≤0

/-- A heap but for the element at `i`, which may be too small. -/
structure Sifting (compare:List UInt8→List UInt8→ℤ)(f:ℕ→List UInt8)(lo i cnt:ℕ):
  Prop where
 order:∀c,lo≤c/2 → c≤cnt → c/2≠i → compare (f c) (f (c/2))≤0
 above:∀c,c/2=i → lo ≤ i/2 → c≤cnt → compare (f c) (f (i/2))≤0

lemma greater_spec (h:Strcmp compare)(size:ℕ)(array:ℕ→UInt8){child max:ℕ}(hc:1≤child)(hm:1 ≤ max ∧ max≤len)
 (le:cnt≤len):
 ∃m,greater compare size len array cnt child max=some m ∧ (m=max ∨ m=child ∧ child≤cnt) ∧
  compare (elem size array max) (elem size array m)≤0 ∧
  (child≤cnt → compare (elem size array child) (elem size array m)≤0):=by
 rw[greater]
 split
 · rename_i inside
   rw[doCompare,if_pos ⟨⟨hc,by omega⟩,hm⟩]
   simp only[bind_eq_bind,bind_some]
   split
   · exact ⟨child,rfl,.inr ⟨rfl,inside⟩,(h.swap _ _).1 (by omega),fun _=>h.refl _⟩
   · exact ⟨max,rfl,.inl rfl,h.refl _,fun _=>by omega⟩
 · exact ⟨max,rfl,.inl rfl,h.refl _,fun inside=>absurd inside ‹_›⟩

lemma heapify_step {i m₁ m:ℕ}(small:2*i+1<2^32)
 (first:greater compare size len array cnt (2*i) i=some m₁)
 (second:greater compare size len array cnt (2*i+1) m₁=some m):
 heapify compare size len cnt (turns+1) array i=if m=i then some array
  else (doSwap size len array i m).bind fun array=>
   heapify compare size len cnt turns array m:=by
 rw[heapify,mod_eq_of_lt (by omega),mod_eq_of_lt small]
 simp only[first,second,bind_eq_bind,bind_some,Option.pure_def]

lemma Sifting.sink {lo i m:ℕ}(sift:Sifting compare (elem size array) lo i cnt)(hl:1≤lo)
 (hi:lo ≤ i)(child:m/2=i)(inside:m≤cnt)
 (most:∀c,c≤cnt → c=i ∨ c/2=i → compare (elem size array c) (elem size array m)≤0)
 (same:∀k,1≤k → elem size array' k=elem size array (swap i m k)):
 Sifting compare (elem size array') lo m cnt:=by
 have own:elem size array' i=elem size array m:=by
  rw[same i (by omega),swap_apply_left]
 have new:elem size array' m=elem size array i:=by
  rw[same m (by omega),swap_apply_right]
 have other (k:ℕ) (hk:1≤k) (hi:k≠i) (hm:k≠m):elem size array' k=elem size array k:=by
  rw[same k hk,swap_apply_of_ne_of_ne hi hm]
 constructor
 · intro c hc le ne
   by_cases parent:c/2=i
   · rw[parent,own]
     by_cases moved:c=m
     · rw[moved,new]
       exact most i (by omega) (.inl rfl)
     · rw[other c (by omega) (by omega) moved]
       exact most c le (.inr parent)
   · rw[other (c/2) (by omega) parent ne]
     by_cases moved:c=i
     · rw[moved,own]
       exact sift.above m child (by omega) inside
     · rw[other c (by omega) moved (by rintro rfl;exact parent child)]
       exact sift.order c hc le parent
 · intro c hc _ le
   rw[child,own,other c (by omega) (by omega) (by omega),←hc]
   exact sift.order c (by omega) le (by omega)

lemma heapify_spec (h:Strcmp compare)(small:2*len+1<2^32)(le:cnt≤len){lo i:ℕ}
 (hl:1≤lo)(hi:lo ≤ i)(inside:i≤cnt)(enough:cnt-i<turns)
 (sift:Sifting compare (elem size array) lo i cnt):
 ∃array',heapify compare size len cnt turns array i=some array' ∧
  Permuted size cnt array array' ∧ Heap compare (elem size array') lo cnt:=by
 induction turns generalizing array i with
 | zero=>omega
 | succ turns ih=>
  obtain ⟨m₁,first,from₁,self₁,left⟩:=
   greater_spec h size array (show 1≤2*i by omega) (show 1 ≤ i ∧ i≤len by omega) le
  obtain ⟨m,second,from₂,self₂,right⟩:=
   greater_spec h size array (show 1≤2*i+1 by omega) (show 1 ≤ m₁ ∧ m₁≤len by omega) le
  have most:∀c,c≤cnt → c=i ∨ c/2=i → compare (elem size array c) (elem size array m)≤0:=by
   intro c hc which
   have:c=i ∨ c=2*i ∨ c=2*i+1:=by omega
   rcases this with rfl|rfl|rfl
   · exact h.trans _ _ _ self₁ self₂
   · exact h.trans _ _ _ (left hc) self₂
   · exact right hc
  rw[heapify_step (by omega) first second]
  split
  · rename_i stays
    subst stays
    refine ⟨array,rfl,Permuted.refl,fun c hc hcnt=>?_⟩
    by_cases parent:c/2=m
    · rw[parent]
      exact most c hcnt (.inr parent)
    · exact sift.order c hc hcnt parent
  · rename_i moves
    have child:m/2=i ∧ m≤cnt:=by omega
    obtain ⟨array₁,swapped,same⟩:=doSwap_eq size array
     (show 1 ≤ i ∧ i≤len by omega) (show 1 ≤ m ∧ m≤len by omega) (Ne.symm moves)
    have sunk:=sift.sink hl hi child.1 child.2 most same
    obtain ⟨array',run,perm,heap⟩:=ih (by omega) child.2 (by omega) sunk
    refine ⟨array',by rw[swapped];exact run,?_,heap⟩
    exact (doSwap_permuted ⟨by omega,inside⟩ ⟨by omega,child.2⟩ same).trans perm

lemma buildHeap_spec (h:Strcmp compare)(small:2*len+1<2^32)(enough:len<turns){i:ℕ}
 (inside:i≤len)(heap:Heap compare (elem size array) (i+1) len):
 ∃array',buildHeap compare size len turns i array=some array' ∧
  Permuted size len array array' ∧ Heap compare (elem size array') 1 len:=by
 induction i generalizing array with
 | zero=>exact ⟨array,rfl,Permuted.refl,heap⟩
 | succ i ih=>
  have sift:Sifting compare (elem size array) (i+1) (i+1) len:=
   ⟨fun c hc le ne=>heap c (by omega) le,fun c _ hc=>by omega⟩
  obtain ⟨array₁,run,perm,heap₁⟩:=heapify_spec h small (le_refl len) (by omega)
   (le_refl _) inside (show len-(i+1)<turns by omega) sift
  obtain ⟨array',rest,others,done⟩:=ih (by omega) heap₁
  refine ⟨array',?_,perm.trans others,done⟩
  rw[buildHeap,run]
  exact rest

lemma Heap.root (h:Strcmp compare){f:ℕ→List UInt8}(heap:Heap compare f 1 cnt){k:ℕ}
 (hk:1≤k)(inside:k≤cnt):compare (f k) (f 1)≤0:=by
 induction k using Nat.strong_induction_on with
 | _ k ih=>
  by_cases first:k=1
  · rw[first]
    exact h.refl _
  · exact h.trans _ _ _ (heap k (by omega) inside) (ih (k/2) (by omega) (by omega) (by omega))

/-- The last elements are in their places, and the first `i` are a heap. -/
structure Sorting (compare:List UInt8→List UInt8→ℤ)(f:ℕ→List UInt8)(i len:ℕ):
  Prop where
 heap:Heap compare f 1 i
 tail:∀j k,i<j → j<k → k≤len → compare (f j) (f k)≤0
 least:∀k j,1≤k → k ≤ i → i<j → j≤len → compare (f k) (f j)≤0

lemma Permuted.outside (h:Permuted size cnt array array'){k:ℕ}(hk:cnt<k):
 elem size array' k=elem size array k:=by
 obtain ⟨σ,same,inside⟩:=h
 have fixed:σ k=k:=by
  have:=inside k
  omega
 rw[same k (by omega),fixed]

lemma Permuted.inside (h:Permuted size cnt array array'){k:ℕ}(hk:1≤k)(le:k≤cnt):
 ∃l,(1≤l ∧ l≤cnt) ∧ elem size array' k=elem size array l:=by
 obtain ⟨σ,same,inside⟩:=h
 refine ⟨σ k,?_,same k hk⟩
 have:=inside k
 omega

lemma Sorting.extract (h:Strcmp compare){i:ℕ}{array₁:ℕ→UInt8}
 (s:Sorting compare (elem size array) (i+2) len)
 (same:∀k,1≤k → elem size array₁ k=elem size array (swap 1 (i+2) k))
 (perm:Permuted size (i+1) array₁ array')
 (heap:Heap compare (elem size array') 1 (i+1)):
 Sorting compare (elem size array') (i+1) len:=by
 have last:elem size array' (i+2)=elem size array 1:=by
  rw[perm.outside (by omega),same _ (by omega),swap_apply_right]
 have later (k:ℕ) (hk:i+2<k):elem size array' k=elem size array k:=by
  rw[perm.outside (by omega),same _ (by omega),swap_apply_of_ne_of_ne (by omega) (by omega)]
 have early (k:ℕ) (hk:1≤k) (le:k ≤ i+1):
   ∃l,(1≤l ∧ l ≤ i+2) ∧ elem size array' k=elem size array l:=by
  obtain ⟨l,inside,eq⟩:=perm.inside hk le
  rw[same l inside.1] at eq
  by_cases first:l=1
  · rw[first,swap_apply_left] at eq
    exact ⟨i+2,by omega,eq⟩
  · rw[swap_apply_of_ne_of_ne first (by omega)] at eq
    exact ⟨l,by omega,eq⟩
 refine ⟨heap,fun j k hj less le=>?_,fun k j hk le hj inside=>?_⟩
 · rw[later k (by omega)]
   by_cases next:j=i+2
   · rw[next,last]
     exact s.least 1 k (le_refl 1) (by omega) (by omega) le
   · rw[later j (by omega)]
     exact s.tail j k (by omega) less le
 · obtain ⟨l,bounds,eq⟩:=early k hk le
   rw[eq]
   by_cases next:j=i+2
   · rw[next,last]
     exact s.heap.root h bounds.1 bounds.2
   · rw[later j (by omega)]
     exact s.least l j bounds.1 bounds.2 (by omega) inside

lemma sortHeap_spec (h:Strcmp compare)(small:2*len+1<2^32)(enough:len<turns){i:ℕ}
 (inside:i≤len)(s:Sorting compare (elem size array) i len):
 ∃array',sortHeap compare size len turns i array=some array' ∧ Permuted size len array array' ∧
  ∀j k,1≤j → j<k → k≤len → compare (elem size array' j) (elem size array' k)≤0:=by
 induction i generalizing array with
 | zero=>exact ⟨array,rfl,Permuted.refl,fun j k hj=>s.tail j k (by omega)⟩
 | succ i ih=>
  cases i with
  | zero=>
   refine ⟨array,rfl,Permuted.refl,fun j k hj less le=>?_⟩
   by_cases first:j=1
   · exact s.least j k hj (by omega) (by omega) le
   · exact s.tail j k (by omega) less le
  | succ i=>
   obtain ⟨array₁,swapped,same⟩:=doSwap_eq size array (show 1≤1 ∧ 1≤len by omega)
    (show 1 ≤ i+2 ∧ i+2≤len by omega) (by omega)
   have sift:Sifting compare (elem size array₁) 1 1 (i+1):=by
    refine ⟨fun c hc le ne=>?_,fun c _ hc=>by omega⟩
    rw[same c (by omega),same (c/2) (by omega),swap_apply_of_ne_of_ne (by omega) (by omega),
     swap_apply_of_ne_of_ne (by omega) (by omega)]
    exact s.heap c hc (by omega)
   obtain ⟨array₂,run,perm,heap⟩:=heapify_spec h small (by omega) (le_refl 1)
    (le_refl 1) (by omega) (show i+1-1<turns by omega) sift
   obtain ⟨array',rest,others,sorted⟩:=ih (by omega) (s.extract h same perm heap)
   refine ⟨array',?_,?_,sorted⟩
   · rw[sortHeap,swapped,bind_eq_bind,bind_some,run]
     exact rest
   · exact ((doSwap_permuted ⟨by omega,by omega⟩ ⟨by omega,inside⟩ same).trans
      (perm.mono (by omega))).trans others

def elements (size len:ℕ)(array:ℕ→UInt8):List (List UInt8):=
 (List.range len).map fun k=>elem size array (k+1)

lemma Permuted.perm (h:Permuted size len array array'):
 (elements size len array').Perm (elements size len array):=by
 obtain ⟨σ,same,inside⟩:=h
 have moved:elements size len array'=
   ((List.range len).map fun k=>σ (k+1)-1).map fun k=>elem size array (k+1):=by
  rw[elements,List.map_map]
  refine map_congr_left fun k _=>?_
  have:=inside (k+1)
  rw[same _ (by omega),Function.comp_apply,Nat.sub_add_cancel (by omega)]
 rw[moved]
 refine Perm.map _ ((perm_ext_iff_of_nodup ?_ nodup_range).2 fun x=>?_)
 · refine Nodup.map_on (fun a _ b _ eq=>?_) nodup_range
   have:=inside (a+1)
   have:=inside (b+1)
   have:=σ.injective (show σ (a+1)=σ (b+1) by omega)
   omega
 · simp only[List.mem_map,mem_range]
   constructor
   · rintro ⟨k,hk,rfl⟩
     have:=inside (k+1)
     omega
   · intro hx
     have:=inside (σ.symm (x+1))
     rw[apply_symm_apply] at this
     refine ⟨σ.symm (x+1)-1,by omega,?_⟩
     rw[Nat.sub_add_cancel (by omega),apply_symm_apply]
     rfl

/-- `sort` returns, has compared and swapped only elements of the array, and leaves its elements
in order. -/
theorem sort_in_place (h:Strcmp compare)(small:2*len+1<2^32)(enough:len<turns)(array:ℕ→UInt8):
 ∃array',sort compare size len turns array=some array' ∧
  (elements size len array').Perm (elements size len array) ∧
  (elements size len array').Pairwise fun a b=>compare a b≤0:=by
 have leaves:Heap compare (elem size array) (len/2+1) len:=fun c hc le=>by omega
 obtain ⟨array₁,built,perm,heap⟩:=buildHeap_spec h small enough (div_le_self len 2) leaves
 obtain ⟨array',run,perm',sorted⟩:=sortHeap_spec h small enough (le_refl len)
  ⟨heap,fun j k _ _ _=>by omega,fun k j _ _ _ _=>by omega⟩
 refine ⟨array',?_,(perm.trans perm').perm,?_⟩
 · rw[sort,built]
   exact run
 · rw[elements,pairwise_map]
   refine List.Pairwise.imp_of_mem (fun {a b} _ hb less=>?_) pairwise_lt_range
   have:=mem_range.1 hb
   exact sorted _ _ (by omega) (by omega) (by omega)

def byFirst (a b:List UInt8):ℤ:=(a.headD 0).toNat-(b.headD 0).toNat
lemma strcmp_byFirst:Strcmp byFirst:=by
 constructor<;>simp only[byFirst]<;>intros<;>omega
theorem sort_in_place_three:∃array',sort byFirst 1 3 4 (fun i=>[3,1,2].getD i 0)=some array' ∧
  (elements 1 3 array').Perm [[3],[1],[2]] ∧
  (elements 1 3 array').Pairwise fun a b=>byFirst a b≤0:=
 sort_in_place strcmp_byFirst (by decide) (by decide) fun i=>[3,1,2].getD i 0

end Pintos.Stdlib
