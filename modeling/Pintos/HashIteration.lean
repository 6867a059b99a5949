import Pintos.HashTableMap
import Pintos.KernelLists

/-! `hash_first`, `hash_next` and `hash_apply` on the buckets as they are linked in memory. An
iterator follows pointers; what it has left to visit is the iterator over lists of `HashTable`.
A bucket beyond `bucket_cnt`, a NULL that is followed and a loop out of turns end in `none`. -/
namespace Pintos.HashIteration
open List

open LinkedHeap KernelLists HashTable

section
variable {α:Type}[DecidableEq α]

structure Table (α:Type) where
 heap:Heap α
 buckets:List (Ends α)

/-- `bucket` counts from `hash->buckets`; `elem` may be the head of a bucket. -/
structure Cursor (α:Type) where
 bucket:ℕ
 elem:Option α

def firstCursor (t:Table α):Option (Cursor α):=do
 let b←t.buckets[0]?
 return ⟨0,some b.head⟩

/-- The loop of `hash_next` over buckets that have no more elements. -/
def skipEnds (t:Table α):ℕ→Cursor α→Option (Cursor α)
 | 0,_=>none
 | turns+1,i=>do
  let b←t.buckets[i.bucket]?
  if i.elem≠some (listEnd b) then
   return i
  if t.buckets.length ≤ i.bucket+1 then
   return ⟨i.bucket+1,none⟩
  let b←t.buckets[i.bucket+1]?
  skipEnds t turns ⟨i.bucket+1,listBegin t.heap b⟩

def nextCursor (turns:ℕ)(t:Table α)(i:Cursor α):Option (Cursor α):=do
 let e←i.elem
 let e←listNext t.heap e
 skipEnds t turns ⟨i.bucket,some e⟩

def visitFrom (turns:ℕ)(t:Table α):ℕ→Cursor α→Option (List α)
 | 0,_=>none
 | left+1,i=>do
  let i←nextCursor turns t i
  match i.elem with
  | none=>return []
  | some e=>return e::(← visitFrom turns t left i)

def visitAll (turns:ℕ)(t:Table α):Option (List α):=do
 visitFrom turns t turns (← firstCursor t)

/-- The elements of one bucket on which `hash_apply` calls its action. -/
def applyBucket (t:Table α)(b:Ends α):ℕ→Option α→Option (List α)
 | 0,_=>none
 | turns+1,elem=>do
  if elem=some (listEnd b) then
   return []
  let e←elem
  let next←listNext t.heap e
  return e::(← applyBucket t b turns (some next))

def applyAt (turns:ℕ)(t:Table α)(calls:List α)(i:ℕ):Option (List α):=do
 let b←t.buckets[i]?
 return calls++(← applyBucket t b turns (listBegin t.heap b))
def hashApply (turns:ℕ)(t:Table α):Option (List α):=
 (List.range t.buckets.length).foldlM (applyAt turns t) []

end

section
variable {α:Type}{t:Table α}

/-- The buckets in memory are those of `h`, and no two of their cells are one. -/
structure Holds (t:Table α)(h:Hash α):Prop where
 each:Forall₂ (Represents t.heap) t.buckets h.buckets
 apart:(zipWith cells t.buckets h.buckets).flatten.Nodup

def Stands (t:Table α)(i:Cursor α)(j:HashIterator α):Prop:=
 ∃us b bs p,t.buckets=us++b::bs ∧ i=⟨us.length,some (b.left p)⟩ ∧
  Represents t.heap b (p++j.bucket) ∧ Forall₂ (Represents t.heap) bs j.later

variable [DecidableEq α]

lemma skipEnds_simulates {later:List (List α)}{turns:ℕ}{us bs:List (Ends α)}
 {b:Ends α}{p bucket:List α}(split:t.buckets=us++b::bs)
 (here:Represents t.heap b (p++bucket))
 (after:Forall₂ (Represents t.heap) bs later)(enough:bs.length<turns):
 ∃i,skipEnds t turns ⟨us.length,some (b.right bucket)⟩=some i ∧
  match nextIn bucket later with
  | none=>i.elem=none
  | some (x,j)=>i.elem=some x ∧ Stands t i j:=by
 -- the induction goes over the buckets after this one
 induction after generalizing turns us b p bucket with
 | nil=>
  obtain ⟨turns,rfl⟩:=Nat.exists_eq_add_one.2 (Nat.zero_lt_of_lt enough)
  cases bucket with
  | nil=>exact ⟨⟨us.length+1,none⟩,by simp[skipEnds,split,listEnd],rfl⟩
  | cons x xs=>
   have inside:=here.ne_tail (mem_append_right p mem_cons_self)
   refine ⟨⟨us.length,some x⟩,by simp[skipEnds,split,listEnd,inside],rfl,?_⟩
   exact ⟨us,b,[],p++[x],split,by simp,by simpa using here,.nil⟩
 | @cons b' xs' bs later next after ih=>
  obtain ⟨turns,rfl⟩:=Nat.exists_eq_add_one.2 (Nat.zero_lt_of_lt enough)
  cases bucket with
  | nil=>
   have split':t.buckets=(us++[b])++b'::bs:=by simp[split]
   have begins:=listBegin_eq next
   obtain ⟨i,runs,result⟩:=ih split' (p:=[]) next (Nat.lt_of_succ_lt_succ enough)
   refine ⟨i,?_,result⟩
   rw[←runs]
   simp[skipEnds,split,listEnd,begins]
  | cons x xs=>
   have inside:=here.ne_tail (mem_append_right p mem_cons_self)
   refine ⟨⟨us.length,some x⟩,by simp[skipEnds,split,listEnd,inside],rfl,?_⟩
   exact ⟨us,b,_,p++[x],split,by simp,by simpa using here,.cons next after⟩

lemma nextCursor_simulates {turns:ℕ}{i:Cursor α}{j:HashIterator α}
 (stands:Stands t i j)(enough:t.buckets.length≤turns):
 ∃i',nextCursor turns t i=some i' ∧
  match hashNext j with
  | none=>i'.elem=none
  | some (x,j')=>i'.elem=some x ∧ Stands t i' j':=by
 obtain ⟨us,b,bs,p,split,rfl,here,after⟩:=stands
 have left:bs.length<turns:=by
  rw[split,length_append,length_cons] at enough
  omega
 obtain ⟨i',runs,result⟩:=skipEnds_simulates split here after left
 have next:listNext t.heap (b.left p)=some (b.right j.bucket):=by
  rw[listNext_eq]
  exact here.linked.next
 refine ⟨i',?_,result⟩
 simp only[nextCursor,Option.bind_eq_bind,Option.bind_some,next]
 exact runs

lemma visitFrom_eq_visited {turns left:ℕ}{i:Cursor α}{j:HashIterator α}
 (stands:Stands t i j)(enough:t.buckets.length≤turns)
 (longer:(j.bucket++j.later.flatten).length<left):
 visitFrom turns t left i=some (visited left j):=by
 induction left generalizing i j with
 | zero=>exact absurd longer (Nat.not_lt_zero _)
 | succ left ih=>
  obtain ⟨i',runs,result⟩:=nextCursor_simulates stands enough
  unfold visitFrom visited
  rcases nextIn_eq j.later j.bucket with ⟨hn,-⟩|⟨x,j',hs,rest⟩
  · simp only[hashNext,hn] at result ⊢
    simp[runs,result]
  · simp only[hashNext,hs] at result ⊢
    rw[rest,length_cons] at longer
    have more:=ih result.2 (Nat.lt_of_succ_lt_succ longer)
    simp[runs,result.1,more]

lemma Holds.visitAll_eq {h:Hash α}(holds:Holds t h)(pos:0<h.buckets.length)
 {turns:ℕ}(enough:t.buckets.length+h.elems.length<turns):
 visitAll turns t=some h.elems:=by
 have first:∃i,firstCursor t=some i ∧ Stands t i (hashFirst h):=by
  obtain ⟨cnt,buckets⟩:=h
  cases buckets with
  | nil=>exact absurd pos (Nat.lt_irrefl 0)
  | cons xs later=>
   obtain ⟨b,bs,here,after,split⟩:=forall₂_cons_right_iff.1 holds.each
   exact ⟨⟨0,some b.head⟩,by simp[firstCursor,split],[],b,bs,[],split,rfl,here,after⟩
 obtain ⟨i,starts,stands⟩:=first
 have left:((hashFirst h).bucket++(hashFirst h).later.flatten).length<turns:=by
  rw[hashFirst_elems]
  exact Nat.lt_of_le_of_lt (Nat.le_add_left _ _) enough
 have wide:t.buckets.length≤turns:=by omega
 have visits:=visitFrom_eq_visited stands wide left
 rw[visited_hashFirst (by omega)] at visits
 simpa[visitAll,starts] using visits

lemma applyBucket_eq {b:Ends α}{turns:ℕ}{q p:List α}
 (here:Represents t.heap b (p++q))(enough:q.length<turns):
 applyBucket t b turns (some (b.right q))=some q:=by
 induction q generalizing p turns with
 | nil=>
  obtain ⟨turns,rfl⟩:=Nat.exists_eq_add_one.2 (Nat.zero_lt_of_lt enough)
  simp[applyBucket,listEnd]
 | cons e q ih=>
  obtain ⟨turns,rfl⟩:=Nat.exists_eq_add_one.2 (Nat.zero_lt_of_lt enough)
  have inside:=here.ne_tail (mem_append_right p mem_cons_self)
  have there:Represents t.heap b ((p++[e])++q):=by simpa using here
  have rest:=ih there (Nat.lt_of_succ_lt_succ enough)
  simp[applyBucket,listEnd,inside,here.linked_cons.next,rest]

lemma foldlM_applyAt {turns:ℕ}(us:List (Ends α)){bs:List (Ends α)}
 {later:List (List α)}(after:Forall₂ (Represents t.heap) bs later)
 (split:t.buckets=us++bs)(enough:later.flatten.length<turns)(calls:List α):
 (range' us.length bs.length).foldlM (applyAt turns t) calls=some (calls++later.flatten):=by
 induction after generalizing us calls with
 | nil=>simp
 | @cons b xs bs later here after ih=>
  rw[flatten_cons,length_append] at enough
  have one:applyAt turns t calls us.length=some (calls++xs):=by
   simp[applyAt,split,listBegin_eq here,applyBucket_eq (p:=[]) here (show xs.length<turns by omega)]
  have rest:=ih (us++[b]) (by simp[split]) (by omega) (calls++xs)
  rw[length_append,length_singleton] at rest
  simp[range'_succ,one,rest]

lemma Holds.hashApply_eq {h:Hash α}(holds:Holds t h){turns:ℕ}
 (enough:h.elems.length<turns):hashApply turns t=some h.elems:=by
 unfold hashApply
 rw[range_eq_range']
 exact foldlM_applyAt [] holds.each rfl enough []

omit [DecidableEq α] in
lemma Holds.nodup {h:Hash α}(holds:Holds t h):h.elems.Nodup:=by
 have inside:∀ {bs:List (Ends α)} {xss:List (List α)},Forall₂ (Represents t.heap) bs xss →
    xss.flatten.Sublist (zipWith cells bs xss).flatten:=by
  intro bs xss each
  induction each with
  | nil=>exact Sublist.refl _
  | cons _ _ ih=>
   simp only[zipWith_cons_cons,flatten_cons]
   refine Sublist.append ?_ ih
   exact (sublist_append_left _ _).trans (sublist_cons_self _ _)
 exact holds.apart.sublist (inside holds.each)

end
variable {α:Type}{o:Ops α}{h:Hash α}

lemma perform_sized (sized:Sized h.buckets.length)(c:Call α):
 Sized (perform o h c).2.buckets.length:=by
 have inserted:=insertElem_sized sized
 have removed:=removeElem_sized (o:=o) sized
 cases c with
 | insert alloc new=>
  unfold perform hashInsert
  dsimp only
  split
  · exact rehash_sized (inserted _ new) alloc
  · exact rehash_sized sized alloc
 | replace alloc new=>
  unfold perform hashReplace
  dsimp only
  split
  · exact rehash_sized (inserted _ new) alloc
  · exact rehash_sized (insertElem_sized (removed _ new) _ new) alloc
 | find e=>exact sized
 | delete alloc e=>
  unfold perform hashDelete
  dsimp only
  split
  · exact sized
  · exact rehash_sized (removed _ e) alloc

lemma performAll_sized (sized:Sized h.buckets.length)(cs:List (Call α)):
 Sized (performAll o h cs).2.buckets.length:=by
 induction cs generalizing h with
 | nil=>exact sized
 | cons c cs ih=>exact ih (perform_sized sized c)

/-- In memory, a table that calls on an empty one lead to is visited element by element: each
once, nothing else, and in the order of `hash_apply`. -/
theorem iteration_visits_once [DecidableEq α](cs:List (Call α))(t:Table α)
 (holds:Holds t (performAll o hashInit cs).2):
 (performAll o hashInit cs).2.elems.Nodup ∧
 ∀turns,t.buckets.length+(performAll o hashInit cs).2.elems.length<turns →
  visitAll turns t=some (performAll o hashInit cs).2.elems ∧
  hashApply turns t=visitAll turns t:=by
 have sized:=performAll_sized (o:=o) (hashInit_sound (o:=o)).sized cs
 refine ⟨holds.nodup,fun turns enough=>?_⟩
 have visits:=holds.visitAll_eq (Nat.zero_lt_of_lt sized.1) enough
 refine ⟨visits,?_⟩
 rw[visits]
 exact holds.hashApply_eq (by omega)

def sparseOps:Ops (Fin 11):=⟨fun e=>e.val/2+1,fun a b=>decide (a<b)⟩

def sparseTable:Table (Fin 11) where
 heap:=
  {prev:=![none,some 0,none,some 8,none,some 10,none,some 6,some 9,some 2,some 4]
   next:=![some 1,none,some 9,none,some 10,none,some 7,none,some 3,some 8,some 5]}
 buckets:=[⟨0,1⟩,⟨2,3⟩,⟨4,5⟩,⟨6,7⟩]

theorem iteration_visits_once_sparse:Holds sparseTable (performAll sparseOps hashInit
  [.insert true 8,.insert true 10,.replace true 10,.insert true 9,.delete true 7]).2 ∧
 visitAll 8 sparseTable=some [9,8,10]:=by
 have reached:(performAll sparseOps hashInit
   [.insert true 8,.insert true 10,.replace true 10,.insert true 9,.delete true 7]).2=
    ⟨3,[[],[9,8],[10],[]]⟩:=by
  decide +kernel
 have holds:Holds sparseTable ⟨3,[[],[9,8],[10],[]]⟩:=by
  refine ⟨.cons ?_ (.cons ?_ (.cons ?_ (.cons ?_ .nil))),by decide⟩
  all_goals exact ⟨by decide,by decide,by decide,by decide⟩
 rw[←reached] at holds
 refine ⟨holds,?_⟩
 have visits:=(iteration_visits_once _ _ holds).2 8
 rw[reached] at visits
 exact (visits (by decide)).1

end Pintos.HashIteration
