import Pintos.KernelLists
import Pintos.StableOrder

/-! `list_sort`, `list_insert_ordered` and `list_unique` on linked memory. Every loop is given
`turns` turns, and a failed assertion ends a call with `none`. -/
namespace Pintos.ListSort
open List Nat

open LinkedHeap KernelLists StableOrder Function

variable {α:Type}{ι:Type*}[DecidableEq α]

section
variable (less:α→α→Bool)(turns:ℕ)

/-- The loop of `is_sorted` and `find_end_of_run`: on to `b`, or to an element that is less than
the one before it. -/
def runFrom (h:Heap α)(b:α):ℕ→α→Option α
 | 0,_=>none
 | left+1,a=>do
  let a←listNext h a
  if a=b then
   return a
  if less a (← listPrev h a) then
   return a
  runFrom h b left a

def isSorted (h:Heap α)(a b:α):Option Bool:=do
 if a=b then
  return true
 return (← runFrom less h b turns a)=b
def findEndOfRun (h:Heap α)(a b:α):Option α:=do
 guard (a≠b)
 runFrom less h b turns a

def mergeFrom (b1:α):ℕ→Heap α→α→α→Option (Heap α)
 | 0,_,_,_=>none
 | left+1,h,a0,a1b0=>do
  if a0=a1b0 ∨ a1b0=b1 then
   return h
  if !less a1b0 a0 then
   mergeFrom b1 left h (← listNext h a0) a1b0
  else
   let a1b0←listNext h a1b0
   let h←listSplice h a0 (← listPrev h a1b0) a1b0
   mergeFrom b1 left h a0 a1b0

def inplaceMerge (h:Heap α)(a0 a1b0 b1:α):Option (Heap α):=do
 guard (← isSorted less turns h a0 a1b0)
 guard (← isSorted less turns h a1b0 b1)
 mergeFrom less b1 turns h a0 a1b0

/-- One pass of `list_sort` from `a0` on, with the runs that it has put out so far. -/
def passFrom (l:Ends α):ℕ→Heap α→α→ℕ→Option (ℕ×Heap α)
 | 0,_,_,_=>none
 | left+1,h,a0,cnt=>do
  if a0=listEnd l then
   return (cnt,h)
  let a1b0←findEndOfRun less turns h a0 (listEnd l)
  if a1b0=listEnd l then
   return (cnt+1,h)
  let b1←findEndOfRun less turns h a1b0 (listEnd l)
  let h←inplaceMerge less turns h a0 a1b0 b1
  passFrom l left h b1 (cnt+1)

def passes (l:Ends α):ℕ→Heap α→Option (Heap α)
 | 0,_=>none
 | left+1,h=>do
  let (outputRunCnt,h)←passFrom less turns l turns h (← listBegin h l) 0
  if 1<outputRunCnt then
   passes l left h
  else
   return h

def listSort (h:Heap α)(l:Ends α):Option (Heap α):=do
 let h←passes less turns l turns h
 guard (← isSorted less turns h (← listBegin h l) (listEnd l))
 return h

/-- The place where `list_insert_ordered` inserts `elem`. -/
def placeFrom (h:Heap α)(l:Ends α)(elem:α):ℕ→α→Option α
 | 0,_=>none
 | left+1,e=>do
  if e=listEnd l then
   return e
  if less elem e then
   return e
  placeFrom h l elem left (← listNext h e)

def listInsertOrdered (l:Ends α)(h:Heap α)(elem:α):Option (Heap α):=do
 listInsert h (← placeFrom less h l elem turns (← listBegin h l)) elem
def equivalent (a b:α):Bool:=!less a b && !less b a
def appendTo (duplicates:Option (Ends α))(h:Heap α)(elem:α):Option (Heap α):=
 match duplicates with
 | none=>some h
 | some d=>listPushBack h d elem

def uniqueFrom (l:Ends α)(duplicates:Option (Ends α)):ℕ→Heap α→α→Option (Heap α)
 | 0,_,_=>none
 | left+1,h,elem=>do
  let next←listNext h elem
  if next=listEnd l then
   return h
  if equivalent less elem next then
   let (_,h)←listRemove h next
   uniqueFrom l duplicates left (← appendTo duplicates h next) elem
  else
   uniqueFrom l duplicates left h next

def listUnique (h:Heap α)(l:Ends α)(duplicates:Option (Ends α)):Option (Heap α):=do
 if listEmpty h l then
  return h
 uniqueFrom less l duplicates turns h (← listBegin h l)

end

section
variable {less:α→α→Bool}{turns:ℕ}{h:Heap α}{l:Ends α}{p q v:List α}{a:α}

omit [DecidableEq α] in
lemma ne_right (r:Represents h l (p++a::(q++v))):a≠l.right v:=by
 have nodup:=r.nodup
 rw[cells_append,@cons_append _ a (q++v),append_assoc q] at nodup
 have absent:=(nodup_cons.1 (nodup_append.1 nodup).2.1).1
 intro eq
 exact absent (mem_append_right q (eq▸l.right_mem v))

lemma runFrom_spec (less:α→α→Bool)(r:Represents h l (p++a::(q++v)))(enough:q.length<turns):
 ∃run rest,q=run++rest ∧ descents less (a::run)=0 ∧
  (rest=[] ∨ descents less (a::q)=descents less rest+1) ∧
  runFrom less h (l.right v) turns a=some (l.right (rest++v)):=by
 induction q generalizing p a turns with
 | nil=>
  obtain ⟨turns,rfl⟩:=exists_eq_add_one.2 (zero_lt_of_lt enough)
  refine ⟨[],[],rfl,rfl,.inl rfl,?_⟩
  simp[runFrom,r.linked_cons.next]
 | cons x q ih=>
  obtain ⟨turns,rfl⟩:=exists_eq_add_one.2 (zero_lt_of_lt enough)
  have linked:=r.linked_cons
  simp only[cons_append,Ends.right_cons] at linked
  have r':Represents h l ((p++[a])++x::(q++v)):=by simpa using r
  have inside:=ne_right r'
  cases hx:less x a with
  | true=>
   refine ⟨[],x::q,rfl,rfl,.inr ?_,?_⟩
   · simp[descents,hx,Nat.add_comm]
   · simp[runFrom,linked.next,linked.prev,hx]
  | false=>
   obtain ⟨run,rest,rfl,sorted,ends,runs⟩:=ih r' (lt_of_succ_lt_succ enough)
   refine ⟨x::run,rest,rfl,?_,?_,?_⟩
   · simpa[descents,hx] using sorted
   · simpa[descents,hx] using ends
   · simpa[runFrom,linked.next,linked.prev,inside,hx] using runs

lemma isSorted_of (r:Represents h l (p++(q++v)))(sorted:descents less q=0)(enough:q.length≤turns):
 isSorted less turns h (l.right (q++v)) (l.right v)=some true:=by
 cases q with
 | nil=>simp[isSorted]
 | cons a q=>
  obtain ⟨run,rest,rfl,-,ends,runs⟩:=runFrom_spec less r enough
  have whole:rest=[]:=ends.resolve_right (by omega)
  subst whole
  have inside:=ne_right r
  simp only[cons_append] at runs inside ⊢
  simp[isSorted,runs]

lemma findEndOfRun_spec (less:α→α→Bool)(r:Represents h l (p++a::q))(enough:q.length<turns):
 ∃run rest,q=run++rest ∧ descents less (a::run)=0 ∧
  (rest=[] ∨ descents less (a::q)=descents less rest+1) ∧
  findEndOfRun less turns h a (listEnd l)=some (l.right rest):=by
 obtain ⟨run,rest,split,sorted,ends,runs⟩:=runFrom_spec less (v:=[]) (by simpa using r) enough
 have inside:a≠l.tail:=r.ne_tail (by simp)
 refine ⟨run,rest,split,sorted,ends,?_⟩
 simpa[findEndOfRun,listEnd,inside] using runs

end

section
variable [DecidableEq ι]{less:α→α→Bool}{turns left:ℕ}{h:Heap α}{l:ι→Ends α}
 {xs:ι→List α}{i:ι}{p q r s v:List α}

/-- The list `i` of the family is `ys` now, and the others are as they were. -/
def Turned (l:ι→Ends α)(xs:ι→List α)(i:ι)(h:Heap α)(ys:List α):Prop:=Lists h l (update xs i ys)

omit [DecidableEq α] in
lemma Turned.represents (w:Turned l xs i h p):Represents h (l i) p:=by
 simpa using Lists.each w i

lemma Turned.move {b:α}(w:Turned l xs i h (p++(r++b::s))):
 ∃h',listSplice h ((l i).right (r++s)) b ((l i).right s)=some h' ∧
  Turned l xs i h' (p++b::(r++s)):=by
 have split:update (update xs i (p++(r++b::s))) i (p++r++s) i=p++(r++s):=by simp
 obtain ⟨h',spliced,becomes⟩:=splice_becomes (m:=[b]) w (by simp) split
 refine ⟨h',spliced,?_⟩
 simpa[Turned] using becomes.lists

lemma mergeFrom_spec (less:α→α→Bool)(w:Turned l xs i h (p++(r++(s++v))))
 (enough:r.length+s.length<left):
 ∃h',mergeFrom less ((l i).right v) left h ((l i).right (r++(s++v))) ((l i).right (s++v))=some h' ∧
  Turned l xs i h' (p++(r.merge s (fun a b=>!less b a)++v)):=by
 induction left generalizing h p r s with
 | zero=>exact absurd enough (not_lt_zero _)
 | succ left ih=>
  cases r with
  | nil=>exact ⟨h,by simp[mergeFrom],by simpa using w⟩
  | cons a r=>
   cases s with
   | nil=>exact ⟨h,by simp[mergeFrom],by simpa using w⟩
   | cons b s=>
    simp only[length_cons] at enough
    have ha:=ne_right (v:=b::(s++v)) (by simpa using w.represents)
    have hb:=ne_right (p:=p++a::r) (by simpa using w.represents)
    rw[cons_merge_cons]
    cases order:less b a with
    | false=>
     have next:=w.represents.linked_cons.next
     obtain ⟨h',runs,done⟩:=ih (p:=p++[a]) (r:=r) (s:=b::s) (by simpa using w)
      (by simp only[length_cons];omega)
     refine ⟨h',?_,by simpa using done⟩
     simp only[cons_append,Ends.right_cons] at ha hb next runs ⊢
     simp[mergeFrom,ha,hb,order,next,runs]
    | true=>
     have linked:=Represents.linked_cons (p:=p++a::r) (a:=b) (q:=s++v) (by simpa using w.represents)
     obtain ⟨h₁,spliced,w₁⟩:=w.move (r:=a::r) (s:=s++v)
     obtain ⟨h',runs,done⟩:=ih (p:=p++[b]) (r:=a::r) (s:=s)
      (by simpa using w₁) (by simp only[length_cons];omega)
     refine ⟨h',?_,by simpa using done⟩
     simp only[cons_append,Ends.right_cons] at ha hb linked spliced runs ⊢
     simp[mergeFrom,ha,hb,order,linked.next,linked.prev,spliced,runs]

lemma inplaceMerge_spec (w:Turned l xs i h (p++(r++(s++v))))
 (left:descents less r=0)(right:descents less s=0)
 (enough:r.length+s.length<turns):
 ∃h',inplaceMerge less turns h ((l i).right (r++(s++v))) ((l i).right (s++v))
   ((l i).right v)=some h' ∧
  Turned l xs i h' (p++(r.merge s (fun a b=>!less b a)++v)):=by
 have short:r.length≤turns ∧ s.length≤turns:=by omega
 have first:=isSorted_of w.represents left short.1
 have second:=isSorted_of (p:=p++r) (by simpa using w.represents) right short.2
 obtain ⟨h',runs,done⟩:=mergeFrom_spec less w enough
 exact ⟨h',by simp[inplaceMerge,first,second,runs],done⟩

variable (less)[order:IsStrictWeakOrder α (fun a b=>less a b=true)]
include order

lemma passFrom_spec (w:Turned l xs i h (p++q))(enough:q.length<turns)(more:q.length<left)(cnt:ℕ):
 ∃h' ys k,passFrom less turns (l i) left h ((l i).right q) cnt=some (cnt+k,h') ∧
  Turned l xs i h' (p++ys) ∧ Passed less q ys k:=by
 induction left generalizing h p q cnt with
 | zero=>exact absurd more (not_lt_zero _)
 | succ left ih=>
  cases q with
  | nil=>
   refine ⟨h,[],0,by simp[passFrom,listEnd],w,.refl [],by simp,?_,?_⟩
   · exact le_refl 0
   · exact le_refl 0
  | cons a q=>
   have inside:a≠(l i).tail:=w.represents.ne_tail (by simp)
   have short:q.length<turns:=lt_of_succ_lt enough
   obtain ⟨run,rest,rfl,sorted,ends,finds⟩:=findEndOfRun_spec less w.represents short
   cases rest with
   | nil=>
    rw[append_nil] at w ⊢
    refine ⟨h,a::run,1,?_,w,.last sorted⟩
    simp only[listEnd] at finds
    simp[passFrom,listEnd,inside,finds]
   | cons b rest=>
    have inside':b≠(l i).tail:=w.represents.ne_tail (by simp)
    simp only[length_append,length_cons] at enough more
    have w':Turned l xs i h ((p++(a::run))++b::rest):=by simpa using w
    have short':rest.length<turns:=by omega
    obtain ⟨run',rest,rfl,sorted',ends',finds'⟩:=findEndOfRun_spec less w'.represents short'
    simp only[length_append] at enough more
    have fits:(a::run).length+(b::run').length<turns:=by
     simp only[length_cons]
     omega
    obtain ⟨h₁,merges,w₁⟩:=inplaceMerge_spec (r:=a::run) (s:=b::run') (v:=rest)
     w sorted sorted' fits
    rw[←sorted_iff_descents] at sorted sorted'
    obtain ⟨h',ys,k,passes,w₂,passed⟩:=ih
     (p:=p++(a::run).merge (b::run') (fun a b=>!less b a)) (q:=rest)
     (by simpa using w₁) (by omega) (by omega) (cnt+1)
    refine ⟨h',_,k+1,?_,by simpa using w₂,passed.merged (by simp)
     (Rearranged.merge sorted) (sorted_iff_descents.1 (sorted.merge sorted')) ?_⟩
    · simp only[cons_append,Ends.right_cons,listEnd] at finds finds' merges ⊢
      simp[passFrom,listEnd,inside,inside',finds,finds',merges,passes,Nat.add_assoc,Nat.add_comm 1]
    · have boundary:=ends.resolve_left (cons_ne_nil _ _)
      exact ends'.imp_right fun further=>by rw[boundary,further]

lemma passes_spec (w:Turned l xs i h q)(enough:q.length<turns)(more:descents less q<left):
 ∃h' ys,passes less turns (l i) left h=some h' ∧ Turned l xs i h' ys ∧
  Rearranged less q ys ∧ Sorted less ys:=by
 induction left generalizing h q with
 | zero=>exact absurd more (not_lt_zero _)
 | succ left ih=>
  obtain ⟨h₁,ys,k,pass,w₁,passed⟩:=passFrom_spec less (p:=[]) w enough enough 0
  have few:=passed.few
  have many:=passed.many
  have begins:=listBegin_eq w.represents
  by_cases again:1<k
  · have short:ys.length<turns:=by rwa[passed.perm.length_eq]
    obtain ⟨h',zs,runs,w',settled,sorted⟩:=ih (q:=ys) w₁ short (by omega)
    refine ⟨h',zs,?_,w',passed.toRearranged.trans settled,sorted⟩
    simp[passes,begins,pass,again,runs]
  · refine ⟨h₁,ys,?_,w₁,passed.toRearranged,sorted_iff_descents.2 (by omega)⟩
    simp[passes,begins,pass,again]

lemma listSort_spec (w:Turned l xs i h q)(enough:q.length<turns):
 ∃h' ys,listSort less turns h (l i)=some h' ∧ Turned l xs i h' ys ∧
  Rearranged less q ys ∧ Sorted less ys:=by
 obtain ⟨h',ys,runs,w',settled,sorted⟩:=
  passes_spec less w enough (lt_of_le_of_lt (descents_le_length q) enough)
 have short:ys.length≤turns:=by
  rw[settled.perm.length_eq]
  exact le_of_lt enough
 have checked:=isSorted_of (p:=[]) (v:=[]) (by simpa using w'.represents)
  (sorted_iff_descents.1 sorted) short
 rw[append_nil,Ends.right_nil] at checked
 refine ⟨h',ys,?_,w',settled,sorted⟩
 simp[listSort,runs,listBegin_eq w'.represents,listEnd,checked]

/-- The sort ends, with every assertion on the way satisfied; the list has its elements in order
then, and equal ones as they were. -/
theorem list_sort_stable (w:Lists h l xs)(i:ι)(enough:(xs i).length<turns):
 ∃h' ys,listSort less turns h (l i)=some h' ∧ Lists h' l (update xs i ys) ∧
  ys.Perm (xs i) ∧ ys.Pairwise (fun a b=>less b a=false) ∧
  ∀a b,less a b=false → less b a=false → [a,b].Sublist ys → [a,b].Sublist (xs i):=by
 have start:Turned l xs i h (xs i):=by
  unfold Turned
  rwa[update_eq_self]
 obtain ⟨h',ys,runs,w',settled,sorted⟩:=listSort_spec less start enough
 exact ⟨h',ys,runs,w',settled.perm,sorted,fun a b hab _=>settled.in_order hab⟩

end

def fallingHalves (a b:Fin 7):Bool:=decide (b.val/2<a.val/2)

instance:IsStrictWeakOrder (Fin 7) (fun a b=>fallingHalves a b=true) where
 irrefl a:=by simp[fallingHalves]
 trans a b c:=by
  simp only[fallingHalves,decide_eq_true_eq]
  omega
 incomp_trans a b c:=by
  simp only[fallingHalves,decide_eq_true_eq]
  omega

theorem list_sort_stable_two:Lists twoHeap twoEnds twoSequences ∧
 ∃h' ys,listSort fallingHalves 4 twoHeap (twoEnds false)=some h' ∧
  Lists h' twoEnds (update twoSequences false ys) ∧ ys.Perm [2,3,4]:=by
 obtain ⟨h',ys,runs,lists,perm,-⟩:=
  list_sort_stable fallingHalves twoHeap_lists false (show (twoSequences false).length<4 by decide)
 exact ⟨twoHeap_lists,h',ys,runs,lists,perm⟩

section
variable [DecidableEq ι]{less:α→α→Bool}{turns left:ℕ}{h:Heap α}{l:ι→Ends α}
 {xs:ι→List α}{i:ι}{p q es:List α}{e:α}

omit [DecidableEq α] in
lemma fresh_update (fresh:∀k,e∉cells (l k) (xs k))(absent:e∉q)(k:ι):
 e∉cells (l k) (update xs i q k):=by
 by_cases hk:k=i
 · subst hk
   have ends:=fresh k
   simp only[mem_cells,update_self] at ends ⊢
   tauto
 · rw[update_of_ne hk]
   exact fresh k

lemma placeFrom_spec {l:Ends α}(less:α→α→Bool)(e:α)(r:Represents h l (p++q))(enough:q.length<left):
 ∃before after,q=before++after ∧ (∀x∈before,less e x=false) ∧ (∀x∈after.head?,less e x=true) ∧
  placeFrom less h l e left (l.right q)=some (l.right after):=by
 induction q generalizing p left with
 | nil=>
  obtain ⟨left,rfl⟩:=exists_eq_add_one.2 (zero_lt_of_lt enough)
  exact ⟨[],[],rfl,by simp,by simp,by simp[placeFrom,listEnd]⟩
 | cons x q ih=>
  obtain ⟨left,rfl⟩:=exists_eq_add_one.2 (zero_lt_of_lt enough)
  have inside:x≠l.tail:=r.ne_tail (by simp)
  cases hx:less e x with
  | true=>
   exact ⟨[],x::q,rfl,by simp,by simp[hx],by simp[placeFrom,hx]⟩
  | false=>
   obtain ⟨before,after,rfl,small,big,finds⟩:=ih (p:=p++[x]) (by simpa using r)
    (lt_of_succ_lt_succ enough)
   refine ⟨x::before,after,rfl,by simpa[hx] using small,big,?_⟩
   simp[placeFrom,listEnd,inside,hx,r.linked_cons.next,finds]

variable (less)[order:IsStrictWeakOrder α (fun a b=>less a b=true)]
include order

lemma listInsertOrdered_spec (w:Turned l xs i h q)(sorted:Sorted less q)
 (fresh:∀k,e∉cells (l k) (xs k))(absent:e∉q)(enough:q.length<turns):
 ∃h' ys,listInsertOrdered less turns (l i) h e=some h' ∧ Turned l xs i h' ys ∧
  Rearranged less (q++[e]) ys ∧ Sorted less ys:=by
 obtain ⟨before,after,rfl,small,big,finds⟩:=placeFrom_spec less e (p:=[]) w.represents enough
 obtain ⟨h',inserts,becomes⟩:=insert_becomes (i:=i) (p:=before) (q:=after) w (by simp)
  (fresh_update fresh absent)
 obtain ⟨left,right,across⟩:=pairwise_append.1 sorted
 have greater:∀x∈after,less e x=true:=by
  cases after with
  | nil=>simp
  | cons y after=>
   intro x hx
   have hy:=big y rfl
   rcases mem_cons.1 hx with rfl|hx
   · exact hy
   · exact less_of_less_of_not_less hy (rel_of_pairwise_cons right hx)
 refine ⟨h',before++e::after,?_,?_,?_,?_⟩
 · simp[listInsertOrdered,listBegin_eq w.represents,finds,inserts]
 · simpa[Turned] using becomes.lists
 · simpa using (Rearranged.refl before).append (Rearranged.pass greater)
 · refine pairwise_append.2 ⟨left,pairwise_cons.2 ⟨?_,right⟩,?_⟩
   · exact fun x hx=>less_asymm (greater x hx)
   · intro x hx y hy
     rcases mem_cons.1 hy with rfl|hy
     · exact small x hx
     · exact across x hx y hy

lemma insertAll_spec (w:Turned l xs i h q)(sorted:Sorted less q)
 (settled:Rearranged less p q)(distinct:(p++es).Nodup)
 (fresh:∀e∈es,∀k,e∉cells (l k) (xs k))(enough:(p++es).length<turns):
 ∃h' ys,es.foldlM (listInsertOrdered less turns (l i)) h=some h' ∧ Turned l xs i h' ys ∧
  Rearranged less (p++es) ys ∧ Sorted less ys:=by
 induction es generalizing h p q with
 | nil=>exact ⟨h,q,rfl,w,by simpa using settled,sorted⟩
 | cons e es ih=>
  have absent:e∉q:=by
   rw[settled.perm.mem_iff]
   exact fun he=>(nodup_append.1 distinct).2.2 e he e mem_cons_self rfl
  have short:q.length<turns:=by
   rw[settled.perm.length_eq]
   rw[length_append] at enough
   omega
  obtain ⟨h₁,ys,inserts,w₁,moved,sorted₁⟩:=listInsertOrdered_spec less w sorted
   (fresh e mem_cons_self) absent short
  have settled₁:=(settled.append (.refl [e])).trans moved
  rw[append_cons] at distinct enough
  obtain ⟨h',zs,inserts',w',settled',sorted'⟩:=ih w₁ sorted₁ settled₁ distinct
   (fun x hx=>fresh x (mem_cons_of_mem e hx)) enough
  refine ⟨h',zs,by simp[inserts,inserts'],w',by simpa using settled',sorted'⟩

/-- The elements of `es`, put into an empty list in order one after another, or pushed back and
then sorted: the same list. -/
theorem insert_ordered_eq_sort (w:Lists h l xs)(empty:xs i=[])(distinct:es.Nodup)
 (fresh:∀e∈es,∀k,e∉cells (l k) (xs k))(enough:es.length<turns):
 ∃inserted pushed sorted ys,es.foldlM (listInsertOrdered less turns (l i)) h=some inserted ∧
  es.foldlM (fun h e=>listPushBack h (l i) e) h=some pushed ∧
  listSort less turns pushed (l i)=some sorted ∧
  Lists inserted l (update xs i ys) ∧
  Lists sorted l (update xs i ys):=by
 have start:Turned l xs i h []:=by
  unfold Turned
  rwa[←empty,update_eq_self]
 obtain ⟨inserted,ys,inserts,w₁,settled₁,sorted₁⟩:=insertAll_spec less (p:=[]) start
  List.Pairwise.nil (.refl []) distinct fresh enough
 obtain ⟨pushed,pushes,becomes⟩:=pushAll_becomes w i distinct fresh
 have w₂:Turned l xs i pushed es:=by simpa[Turned,empty] using becomes.lists
 obtain ⟨sorted,zs,sorts,w₃,settled₃,sorted₃⟩:=listSort_spec less w₂ enough
 obtain rfl:=settled₁.unique distinct settled₃ sorted₁ sorted₃
 exact ⟨inserted,pushed,sorted,ys,inserts,pushes,sorts,w₁,w₃⟩

end

def emptyHeap:Heap (Fin 7):=listInit ⟨fun _=>none,fun _=>none⟩ (twoEnds false)
lemma emptyHeap_lists:Lists emptyHeap (fun _:Unit=>⟨0,1⟩) (fun _=>[]) where
 each _:=listInit_represents _ (by decide)
 apart i j hij:=absurd rfl hij

theorem insert_ordered_eq_sort_three:Lists emptyHeap (fun _:Unit=>⟨0,1⟩) (fun _=>[]) ∧
 ∃inserted pushed sorted ys,
  [2,3,4].foldlM (listInsertOrdered fallingHalves 4 ⟨0,1⟩) emptyHeap=some inserted ∧
  [2,3,4].foldlM (fun h e=>listPushBack h ⟨0,1⟩ e) emptyHeap=some pushed ∧
  listSort fallingHalves 4 pushed ⟨0,1⟩=some sorted ∧
  Lists inserted (fun _:Unit=>⟨0,1⟩) (update (fun _=>[]) () ys) ∧
  Lists sorted (fun _:Unit=>⟨0,1⟩) (update (fun _=>[]) () ys):=
 ⟨emptyHeap_lists,insert_ordered_eq_sort fallingHalves (i:=()) emptyHeap_lists rfl
  (by decide) (by simp) (by decide)⟩

section
variable [DecidableEq ι]{less:α→α→Bool}{turns left:ℕ}{h:Heap α}{l:ι→Ends α}
 {xs:ι→List α}{i:ι}{p q ys zs:List α}{e x:α}

/-- What is left after `e`, and what is taken out, when elements equivalent to the last one left
are taken out. -/
def kept (less:α→α→Bool):α→List α→List α
 | _,[]=>[]
 | e,x::q=>if equivalent less e x then kept less e q else x::kept less x q

def removed (less:α→α→Bool):α→List α→List α
 | _,[]=>[]
 | e,x::q=>if equivalent less e x then x::removed less e q else removed less x q

/-- The family when the list `i` is `ys` and `zs` has been appended to the list of duplicates. -/
def parted (xs:ι→List α)(i:ι)(dup:Option ι)(ys zs:List α):ι→List α:=
 match dup with
 | none=>update xs i ys
 | some j=>update (update xs i ys) j (xs j++zs)

omit [DecidableEq α] in
lemma parted_self {dup:Option ι}(other:∀j∈dup,j≠i):parted xs i dup ys zs i=ys:=by
 cases dup with
 | none=>simp[parted]
 | some j=>simp[parted,Ne.symm (other j rfl)]

omit [DecidableEq α] in
lemma update_parted {dup:Option ι}(other:∀j∈dup,j≠i)(us:List α):
 update (parted xs i dup ys zs) i us=parted xs i dup us zs:=by
 cases dup with
 | none=>simp[parted]
 | some j=>simp[parted,update_comm (other j rfl)]

lemma take_out {dup:Option ι}(other:∀j∈dup,j≠i)(w:Lists h l (parted xs i dup (p++x::q) zs)):
 ∃h₁ h₂,listRemove h x=some ((l i).right q,h₁) ∧ appendTo (dup.map l) h₁ x=some h₂ ∧
  Lists h₂ l (parted xs i dup (p++q) (zs++[x])):=by
 obtain ⟨h₁,removes,⟨lists,-⟩⟩:=remove_becomes w (parted_self other)
 have fresh:=(w.cut (m:=[x]) (parted_self other)).2.2.2
 rw[update_parted other] at lists fresh
 cases dup with
 | none=>exact ⟨h₁,h₁,removes,rfl,lists⟩
 | some j=>
  obtain ⟨h₂,pushes,⟨lists',-⟩⟩:=pushBack_becomes lists j (fun k=>fresh k mem_cons_self)
  refine ⟨h₁,h₂,removes,pushes,?_⟩
  simpa[parted] using lists'

lemma uniqueFrom_spec (less:α→α→Bool){dup:Option ι}(other:∀j∈dup,j≠i)
 (w:Lists h l (parted xs i dup (p++e::q) zs))(enough:q.length<left):
 ∃h',uniqueFrom less (l i) (dup.map l) left h e=some h' ∧
  Lists h' l (parted xs i dup (p++e::kept less e q) (zs++removed less e q)):=by
 induction q generalizing h p e zs left with
 | nil=>
  obtain ⟨left,rfl⟩:=exists_eq_add_one.2 (zero_lt_of_lt enough)
  have r:=w.each i
  rw[parted_self other] at r
  refine ⟨h,?_,by simpa[kept,removed] using w⟩
  simp[uniqueFrom,r.linked_cons.next,listEnd]
 | cons x q ih=>
  obtain ⟨left,rfl⟩:=exists_eq_add_one.2 (zero_lt_of_lt enough)
  have r:=w.each i
  rw[parted_self other] at r
  have next:=r.linked_cons.next
  have inside:x≠(l i).tail:=r.ne_tail (by simp)
  have short:=lt_of_succ_lt_succ enough
  cases same:equivalent less e x with
  | true=>
   obtain ⟨h₁,h₂,removes,pushes,w₂⟩:=take_out (p:=p++[e]) other (by simpa using w)
   obtain ⟨h',runs,w'⟩:=ih (p:=p) (e:=e) (by simpa using w₂) short
   refine ⟨h',?_,by simpa[kept,removed,same] using w'⟩
   simp[uniqueFrom,next,listEnd,inside,same,removes,pushes,runs]
  | false=>
   obtain ⟨h',runs,w'⟩:=ih (p:=p++[e]) (e:=x) (by simpa using w) short
   refine ⟨h',?_,by simpa[kept,removed,same] using w'⟩
   simp[uniqueFrom,next,listEnd,inside,same,runs]

omit [DecidableEq α] in
lemma equivalent_comm (a b:α):equivalent less a b=equivalent less b a:=Bool.and_comm _ _

omit [DecidableEq α] in
lemma kept_append (same:∀y∈p,equivalent less e y=true):
 kept less e (p++q)=kept less e q ∧ removed less e (p++q)=p++removed less e q:=by
 induction p with
 | nil=>exact ⟨rfl,rfl⟩
 | cons y p ih=>
  obtain ⟨hk,hr⟩:=ih fun z hz=>same z (mem_cons_of_mem y hz)
  simp[kept,removed,same y mem_cons_self,hk,hr]

section
variable [order:IsStrictWeakOrder α (fun a b=>less a b=true)]
include order

omit [DecidableEq α] in
lemma equivalent_trans {a b c:α}(hab:equivalent less a b=true)
 (hbc:equivalent less b c=true):equivalent less a c=true:=by
 simp only[equivalent,Bool.and_eq_true,Bool.not_eq_true'] at hab hbc ⊢
 exact ⟨not_less_trans hbc.1 hab.1,not_less_trans hab.2 hbc.2⟩

omit [DecidableEq α] in
lemma equivalent_of_isChain (chain:(e::p).IsChain (fun a b=>equivalent less a b=true)):
 ∀y∈p,equivalent less e y=true:=by
 have transitive:Trans (fun a b=>equivalent less a b=true)
   (fun a b=>equivalent less a b=true) (fun a b=>equivalent less a b=true):=
  ⟨equivalent_trans⟩
 exact fun y hy=>rel_of_pairwise_cons (isChain_iff_pairwise.1 chain) hy

omit [DecidableEq α] in
lemma kept_runs {runs:List (List α)}(flat:runs.flatten=e::q)(nonempty:[]∉runs)
 (chains:∀run∈runs,run.IsChain (fun a b=>equivalent less a b=true))
 (ends:runs.IsChain (fun a b=>∃ (ha:a≠[]) (hb:b≠[]),
  equivalent less (a.getLast ha) (b.head hb)=false)):
 runs.filterMap head?=e::kept less e q ∧ runs.flatMap List.tail=removed less e q:=by
 -- over the maximal runs; the code compares with the first element of one, `ends` with the last
 induction runs generalizing e q with
 | nil=>cases flat
 | cons run rest ih=>
  cases run with
  | nil=>exact absurd mem_cons_self nonempty
  | cons e' run=>
   rw[flatten_cons,cons_append,List.cons.injEq] at flat
   obtain ⟨rfl,rfl⟩:=flat
   have same:=equivalent_of_isChain (chains _ mem_cons_self)
   obtain ⟨hk,hr⟩:=kept_append (q:=rest.flatten) same
   rw[hk,hr]
   cases rest with
   | nil=>simp[kept,removed]
   | cons next rest=>
    cases next with
    | nil=>exact absurd (mem_cons_of_mem _ mem_cons_self) nonempty
    | cons x next=>
     obtain ⟨⟨_,_,differ⟩,ends⟩:=isChain_cons_cons.1 ends
     have apart:equivalent less e' x=false:=by
      refine eq_false_of_ne_true fun alike=>?_
      have back:equivalent less ((e'::run).getLast (cons_ne_nil _ _)) x=true:=by
       rcases mem_cons.1 (getLast_mem (cons_ne_nil e' run)) with hz|hz
       · rwa[hz]
       · exact equivalent_trans (by rw[equivalent_comm];exact same _ hz) alike
      exact absurd (differ.symm.trans back) Bool.false_ne_true
     obtain ⟨heads,tails⟩:=ih (e:=x) (q:=next++rest.flatten) rfl
      (fun h=>nonempty (mem_cons_of_mem _ h))
      (fun run h=>chains run (mem_cons_of_mem _ h)) ends
     simp[kept,removed,apart,heads,tails]

omit [DecidableEq α] in
lemma kept_increasing (sorted:Sorted less (e::q)):
 (e::kept less e q).Pairwise (fun a b=>less a b=true):=by
 have transitive:Trans (fun a b=>less a b=true) (fun a b=>less a b=true)
   (fun a b=>less a b=true):=⟨fun hab hbc=>order.trans _ _ _ hab hbc⟩
 rw[←isChain_iff_pairwise]
 induction q generalizing e with
 | nil=>exact .singleton e
 | cons x q ih=>
  obtain ⟨least,sorted'⟩:=pairwise_cons.1 sorted
  have hxe:=least x mem_cons_self
  unfold kept
  cases same:equivalent less e x with
  | true=>
   rw[if_pos rfl]
   refine ih (pairwise_cons.2 ⟨?_,sorted'.of_cons⟩)
   exact fun y hy=>least y (mem_cons_of_mem x hy)
  | false=>
   have hex:less e x=true:=by simpa[equivalent,hxe] using same
   exact .cons_cons hex (ih sorted')

end

/-- Of every maximal run of equivalent elements the first is left, and the rest of the runs go to
the end of the list of duplicates, if there is one. -/
theorem list_unique_runs (less:α→α→Bool)
 [IsStrictWeakOrder α (fun a b=>less a b=true)](w:Lists h l xs)(i:ι)
 (dup:Option ι)(other:∀j∈dup,j≠i)(enough:(xs i).length<turns):
 ∃h',listUnique less turns h (l i) (dup.map l)=some h' ∧
  Lists h' l (parted xs i dup (((xs i).splitBy (equivalent less)).filterMap head?)
   (((xs i).splitBy (equivalent less)).flatMap List.tail)) ∧
  ((xs i).Pairwise (fun a b=>less b a=false) →
   (((xs i).splitBy (equivalent less)).filterMap head?).Pairwise (fun a b=>less a b=true)):=by
 have start:Lists h l (parted xs i dup (xs i) []):=by
  cases dup with
  | none | some j=>simpa[parted] using w
 have begins:=listBegin_eq (w.each i)
 cases list:xs i with
 | nil=>
  rw[list] at begins start
  refine ⟨h,?_,by simpa using start,by simp⟩
  rw[Ends.right_nil] at begins
  simp[listUnique,listEmpty,listEnd,begins]
 | cons e q=>
  have inside:e≠(l i).tail:=(w.each i).ne_tail (by simp[list])
  rw[list] at begins start enough
  rw[Ends.right_cons] at begins
  have short:q.length<turns:=lt_of_succ_lt enough
  obtain ⟨h',runs,w'⟩:=uniqueFrom_spec less other (p:=[]) start short
  obtain ⟨heads,tails⟩:=kept_runs (flatten_splitBy (equivalent less) (e::q))
   (nil_notMem_splitBy _ _) (fun run hrun=>isChain_of_mem_splitBy hrun)
   (isChain_getLast_head_splitBy _ _)
  rw[heads,tails]
  refine ⟨h',?_,by simpa using w',kept_increasing⟩
  simp[listUnique,listEmpty,listEnd,begins,inside,runs]

end

theorem list_unique_runs_two:Lists twoHeap twoEnds twoSequences ∧
 ∃h',listUnique fallingHalves 4 twoHeap (twoEnds false) (some (twoEnds true))=some h' ∧
  Lists h' twoEnds (parted twoSequences false (some true) [2,4] [3]):=by
 obtain ⟨h',runs,lists,-⟩:=list_unique_runs fallingHalves twoHeap_lists false
  (some true) (by decide) (show (twoSequences false).length<4 by decide)
 exact ⟨twoHeap_lists,h',runs,lists⟩

end Pintos.ListSort
