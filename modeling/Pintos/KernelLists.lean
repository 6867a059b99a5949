import Mathlib.Data.Fin.VecNotation
import Pintos.LinkedHeap

/-! `lib/kernel/list.c`: a failed assertion or a NULL that is followed ends a call with `none`. -/

namespace Pintos.KernelLists
open List

open LinkedHeap Function

variable {α:Type}{ι:Type*}

def isHead (h:Heap α)(e:α):Bool:=(h.prev e).isNone && (h.next e).isSome
def isInterior (h:Heap α)(e:α):Bool:=(h.prev e).isSome && (h.next e).isSome
def isTail (h:Heap α)(e:α):Bool:=(h.prev e).isSome && (h.next e).isNone
def listBegin (h:Heap α)(l:Ends α):Option α:=h.next l.head
def listNext (h:Heap α)(e:α):Option α:=
 if isHead h e || isInterior h e then h.next e else none
def listEnd (l:Ends α):α:=l.tail
def listRbegin (h:Heap α)(l:Ends α):Option α:=h.prev l.tail
def listPrev (h:Heap α)(e:α):Option α:=
 if isInterior h e || isTail h e then h.prev e else none
def listRend (l:Ends α):α:=l.head

section

variable [DecidableEq α]

def listInit (h:Heap α)(l:Ends α):Heap α:=
 let h:=h.setPrev l.head none
 let h:=h.setNext l.head (some l.tail)
 let h:=h.setPrev l.tail (some l.head)
 h.setNext l.tail none

def listInsert (h:Heap α)(before elem:α):Option (Heap α):=do
 guard (isInterior h before || isTail h before)
 let h:=h.setPrev elem (h.prev before)
 let h:=h.setNext elem (some before)
 let p←h.prev before
 let h:=h.setNext p (some elem)
 return h.setPrev before (some elem)

def listSplice (h:Heap α)(before first last:α):Option (Heap α):=do
 guard (isInterior h before || isTail h before)
 if first=last then
  return h
 let last←listPrev h last
 guard (isInterior h first)
 guard (isInterior h last)
 let p←h.prev first
 let h:=h.setNext p (h.next last)
 let n←h.next last
 let h:=h.setPrev n (h.prev first)
 let h:=h.setPrev first (h.prev before)
 let h:=h.setNext last (some before)
 let p←h.prev before
 let h:=h.setNext p (some first)
 return h.setPrev before (some last)

def listPushFront (h:Heap α)(l:Ends α)(elem:α):Option (Heap α):=do
 let before←listBegin h l
 listInsert h before elem
def listPushBack (h:Heap α)(l:Ends α)(elem:α):Option (Heap α):=listInsert h (listEnd l) elem

def listRemove (h:Heap α)(elem:α):Option (α×Heap α):=do
 guard (isInterior h elem)
 let p←h.prev elem
 let h:=h.setNext p (h.next elem)
 let n←h.next elem
 let h:=h.setPrev n (h.prev elem)
 let after←h.next elem
 return (after,h)

def listEmpty (h:Heap α)(l:Ends α):Bool:=listBegin h l=some (listEnd l)
def listFront (h:Heap α)(l:Ends α):Option α:=do
 guard (!listEmpty h l)
 h.next l.head
def listBack (h:Heap α)(l:Ends α):Option α:=do
 guard (!listEmpty h l)
 h.prev l.tail
def listPopFront (h:Heap α)(l:Ends α):Option (α×Heap α):=do
 let front←listFront h l
 let (_,h)←listRemove h front
 return (front,h)
def listPopBack (h:Heap α)(l:Ends α):Option (α×Heap α):=do
 let back←listBack h l
 let (_,h)←listRemove h back
 return (back,h)

def countFrom (h:Heap α)(l:Ends α):ℕ→Option α→ℕ→Option ℕ
 | 0,_,_=>none
 | turns+1,e,cnt=>do
   if e=some (listEnd l) then
    return cnt
   let a←e
   countFrom h l turns (listNext h a) (cnt+1)

def listSize (turns:ℕ)(h:Heap α)(l:Ends α):Option ℕ:=countFrom h l turns (listBegin h l) 0
def swapLinks (h:Heap α)(e:α):Heap α:=(h.setPrev e (h.next e)).setNext e (h.prev e)

def swapFrom (l:Ends α):ℕ→Heap α→Option α→Option (Heap α)
 | 0,_,_=>none
 | turns+1,h,e=>do
   if e=some (listEnd l) then
    return h
   let a←e
   let h:=swapLinks h a
   swapFrom l turns h (h.prev a)

def listReverse (turns:ℕ)(h:Heap α)(l:Ends α):Option (Heap α):=do
 if listEmpty h l then
  return h
 let h←swapFrom l turns h (listBegin h l)
 let t:=h.next l.head
 let h:=h.setNext l.head (h.prev l.tail)
 let h:=h.setPrev l.tail t
 let b←h.next l.head
 let f←h.prev l.tail
 let t:=h.prev b
 let h:=h.setPrev b (h.next f)
 return h.setNext f t

end

/-- `n` calls of `step`, each on what the one before it returned. -/
def walk (step:α→Option α):ℕ→α→Option α
 | 0,e=>some e
 | n+1,e=>(step e).bind (walk step n)

lemma isInterior_or_isTail (h:Heap α)(e:α):(isInterior h e || isTail h e)=(h.prev e).isSome:=by
 unfold isInterior isTail
 cases h.prev e<;>cases h.next e<;>rfl

@[simp]
lemma listPrev_eq (h:Heap α)(e:α):listPrev h e=h.prev e:=by
 unfold listPrev
 rw[isInterior_or_isTail]
 cases h.prev e<;>rfl

@[simp]
lemma listNext_eq (h:Heap α)(e:α):listNext h e=h.next e:=by
 unfold listNext isHead isInterior
 cases h.prev e<;>cases h.next e<;>rfl

variable {h:Heap α}{l:Ends α}

lemma listBegin_eq {xs:List α}(r:Represents h l xs):listBegin h l=some (l.right xs):=
 (Represents.linked (p:=[]) r).next

section

variable [DecidableEq α]{h:Heap α}{p a:α}{l:Ends α}{turns:ℕ}

lemma listInsert_eq {before elem:α}(hp:h.prev before=some p)(hbe:before≠elem)
 (hpe:p≠elem):listInsert h before elem=some ((h.link p elem).link elem before):=by
 rw[←Heap.attach_eq h hpe]
 simp[listInsert,isInterior_or_isTail,hp,hbe]
lemma listRemove_eq {elem n:α}(hp:h.prev elem=some p)(hn:h.next elem=some n):
 listRemove h elem=some (n,h.link p n):=by
 simp[listRemove,isInterior,hp,hn,Heap.link]

lemma listSplice_eq {before first last t:α}(hne:first≠last)(ht:h.prev last=some t)
 (hlast:h.next t=some last)(hfirst:h.prev first=some a)(hint:isInterior h first)
 (hint':isInterior h t)(hbefore:(h.link a last).prev before=some p)(hpt:p≠t):
 listSplice h before first last=some (((h.link a last).link p first).link t before):=by
 have guarded:(h.prev before).isSome:=by
  by_cases hbl:before=last
  · simp[hbl,ht]
  · simp only[Heap.link_prev,hbl,if_false] at hbefore
    simp[hbefore]
 have found:(if before=last then some a else h.prev before)=some p:=by
  simpa using hbefore
 rw[←Heap.attach_eq _ hpt]
 simp[listSplice,isInterior_or_isTail,guarded,hne,ht,hlast,hfirst,hint,hint',Heap.link,found]

/-- What the loop of `list_reverse` makes of a heap: the links of the cells in `s` change places. -/
def flip (h:Heap α)(s:List α):Heap α where
 prev a:=if a∈s then h.next a else h.prev a
 next a:=if a∈s then h.prev a else h.next a

lemma flip_swapLinks (h:Heap α){s:List α}(ha:a∉s):flip (swapLinks h a) s=flip h (a::s):=by
 apply Heap.ext_links <;>
 · intro c
   by_cases hc:c=a
   · subst hc
     simp[flip,swapLinks,ha]
   · simp[flip,swapLinks,hc]

lemma swapFrom_eq {q:List α}(enough:q.length<turns):
 ∀ {h:Heap α},(q++[l.tail]).IsChain (fun a b=>h.next a=some b) →
  (q++[l.tail]).Nodup → swapFrom l turns h (some (l.right q))=some (flip h q):=by
 induction q generalizing turns with
 | nil=>
  cases turns with
  | zero=>omega
  | succ turns=>simp[swapFrom,listEnd,flip]
 | cons a q ih=>
  intro h chain nodup
  cases turns with
  | zero=>simp at enough
  | succ turns=>
   obtain ⟨ha,nodup⟩:=nodup_cons.1 nodup
   obtain ⟨bs,right⟩:=l.right_split q
   have hnext:h.next a=some (l.right q):=by
    rw[cons_append,right] at chain
    exact (isChain_cons_cons.1 chain).1
   have rest:(q++[l.tail]).IsChain (fun b c=>(swapLinks h a).next b=some c):=by
    refine List.IsChain.imp_of_mem_imp ?_ chain.tail
    intro b c hb _ hbc
    have hba:b≠a:=fun eq=>ha (eq▸hb)
    simpa[swapLinks,hba] using hbc
   have hat:a≠l.tail:=fun eq=>ha (by simp[eq])
   have haq:a∉q:=fun hm=>ha (by simp[hm])
   have more:=ih (by simpa using enough) rest nodup
   rw[flip_swapLinks h haq] at more
   simpa[swapFrom,listEnd,hat,swapLinks,hnext] using more

lemma listReverse_eq {xs:List α}{f t:α}(r:Represents h l xs)(first:xs.head?=some f)
 (last:xs.getLast?=some t)(enough:xs.length<turns):
 listReverse turns h l=some (((flip h xs).link l.head t).link f l.tail):=by
 have nodup:=r.nodup
 have hf:f∈xs:=mem_of_head? first
 have ht:t∈xs:=mem_of_getLast? last
 simp only[cells,nodup_cons,nodup_append',mem_append,not_or,disjoint_singleton] at nodup
 obtain ⟨⟨hhead,hheadTail⟩,hxs,-,htail⟩:=nodup
 have hfh:f≠l.head:=r.ne_head hf
 have hft:f≠l.tail:=r.ne_tail hf
 have htt:t≠l.tail:=r.ne_tail ht
 -- The four links at the two ends, as they stand before the call.
 have front:=Represents.linked (p:=[]) (q:=xs) r
 have back:=Represents.linked (p:=xs) (q:=[]) (by simpa using r)
 simp only[Ends.left,Ends.right,first,last,getLast?_nil,head?_nil,
  Option.getD_some,Option.getD_none] at front back
 have notEmpty:listEmpty h l=false:=by
  simp[listEmpty,listBegin,listEnd,front.next,hft]
 have swapped:swapFrom l turns h (listBegin h l)=some (flip h xs):=by
  have right:l.right xs=f:=by simp[Ends.right,first]
  rw[listBegin,front.next,←right]
  refine swapFrom_eq enough (List.IsChain.imp ?_ r.chain.tail) (nodup_cons.1 r.nodup).2
  exact fun a b hab=>hab.next
 have eq:((((flip h xs).setNext l.head (some t)).setPrev l.tail (some f)).setPrev t
   (some l.head)).setNext f (some l.tail)=((flip h xs).link l.head t).link f l.tail:=by
  apply Heap.ext_links
  · intro c
    by_cases hc:c=l.tail
    · simp[hc,Ne.symm htt]
    · simp[hc]
  · simp
 rw[←eq]
 simp[listReverse,notEmpty,swapped,flip,hhead,htail,front.next,back.prev,hf,ht,hfh,htt,
  back.next,front.prev]

lemma flip_linked {s:List α}{b:α}(hab:Linked h a b)(ha:a∈s)(hb:b∈s):Linked (flip h s) b a:=by
 constructor
 · simpa[flip,hb] using hab.prev
 · simpa[flip,ha] using hab.next

lemma listReverse_spec {xs:List α}(r:Represents h l xs)(enough:xs.length<turns):
 ∃h',listReverse turns h l=some h' ∧ Represents h' l xs.reverse ∧ ∀c∉cells l xs,SameLinks h h' c:=by
 rcases eq_nil_or_concat xs with rfl|⟨ys,t,hys⟩
 · have empty:listEmpty h l=true:=decide_eq_true (listBegin_eq r)
   exact ⟨h,by simp[listReverse,empty],r,fun c _=>⟨rfl,rfl⟩⟩
 · have last:xs.getLast?=some t:=by simp[hys]
   obtain ⟨f,first⟩:∃f,xs.head?=some f:=by
    cases hx:xs.head? with
    | none=>simp[head?_eq_none_iff.1 hx] at last
    | some f=>exact ⟨f,rfl⟩
   have whole:(cells l xs.reverse).Nodup:=by
    refine (Perm.nodup_iff ?_).1 r.nodup
    exact Perm.cons l.head ((reverse_perm xs).symm.append_right [l.tail])
   have hf:f∈xs:=mem_of_head? first
   have ht:t∈xs:=mem_of_getLast? last
   have away:∀c,c∉xs → c≠f ∧ c≠t:=
    fun c hc=>⟨fun eq=>hc (eq▸hf),fun eq=>hc (eq▸ht)⟩
   have nodup:=r.nodup
   simp only[cells,nodup_cons,nodup_append',mem_append,mem_singleton,
    not_or,disjoint_singleton] at nodup
   obtain ⟨⟨hhead,hht⟩,-,-,htail⟩:=nodup
   refine ⟨_,listReverse_eq r first last enough,⟨?_,?_,?_,whole⟩,?_⟩
   · have inner:xs.IsChain (Linked h):=r.chain.tail.left_of_append
     have turned:xs.reverse.IsChain (Linked (flip h xs)):=by
      rw[isChain_reverse]
      exact List.IsChain.imp_of_mem_imp (fun a b ha hb hab=>flip_linked hab ha hb) inner
     change ([]++[l.head]++xs.reverse++[l.tail]).IsChain _
     refine isChain_paste (.singleton _) turned (.singleton _) whole ?_ ?_
     · simpa using last
     · simpa using first
   · simpa[hht,away l.head hhead,flip,hhead] using r.first
   · simpa[Ne.symm hht,away l.tail htail,flip,htail] using r.last
   · intro c hc
     simp only[mem_cells,not_or] at hc
     simp[SameLinks,hc,away c hc.2.1,flip]

lemma countFrom_eq {q:List α}:∀ {p:List α} {turns cnt:ℕ},Represents h l (p++q) → q.length<turns →
  countFrom h l turns (some (l.right q)) cnt=some (cnt+q.length):=by
 induction q with
 | nil=>
  intro p turns cnt r enough
  cases turns with
  | zero=>simp at enough
  | succ turns=>simp[countFrom,listEnd]
 | cons a q ih=>
  intro p turns cnt r enough
  cases turns with
  | zero=>simp at enough
  | succ turns=>
   have r':Represents h l ((p++[a])++q):=by simpa using r
   have hat:a≠l.tail:=r.ne_tail (by simp)
   have hnext:=r.linked_cons.next
   have more:countFrom h l turns (some (l.right q)) (cnt+1)=
     some (cnt+1+q.length):=ih r' (by simpa using enough)
   simp[countFrom,listEnd,hat,hnext,more,Nat.add_assoc,Nat.add_comm 1]

end

lemma isInterior_of_mem {xs:List α}{c:α}(r:Represents h l xs)(hc:c∈xs):isInterior h c=true:=by
 obtain ⟨p,q,rfl⟩:=append_of_mem hc
 have hp:=r.linked.prev
 have hn:=r.linked_cons.next
 rw[Ends.right_cons] at hp
 simp[isInterior,hp,hn]

lemma walk_next {q:List α}:∀ {p:List α} {k:ℕ},Represents h l (p++q) → k≤q.length →
  walk (listNext h) k (l.right q)=(q++[l.tail])[k]?:=by
 induction q with
 | nil=>
  intro p k r hk
  obtain rfl:k=0:=by simpa using hk
  rfl
 | cons a q ih=>
  intro p k r hk
  cases k with
  | zero=>rfl
  | succ k=>
   have r':Represents h l ((p++[a])++q):=by simpa using r
   simpa[walk,r.linked_cons.next] using ih r' (by simpa using hk)

lemma walk_prev {p:List α}:∀ {q:List α} {k:ℕ},Represents h l (p++q) → k≤p.length →
  walk (listPrev h) k (l.left p)=(p.reverse++[l.head])[k]?:=by
 induction p using reverseRecOn with
 | nil=>
  intro q k r hk
  obtain rfl:k=0:=by simpa using hk
  rfl
 | append_singleton p a ih=>
  intro q k r hk
  cases k with
  | zero=>simp[walk]
  | succ k=>
   have r':Represents h l (p++a::q):=by simpa using r
   have hprev:=r'.linked.prev
   rw[Ends.right_cons] at hprev
   simpa[walk,hprev] using ih r' (by simpa using hk)

structure Becomes (h h':Heap α)(l:ι→Ends α)(ys:ι→List α)
  (touched:List α):Prop where
 lists:Lists h' l ys
 frame:∀c∉touched,SameLinks h h' c

/-- What each call does to a family of lists that represent `xs`. The place of an element or of a
tail is given by what stands before and after it; a loop is given more turns than there are
elements. -/
structure Sequences [DecidableEq α][DecidableEq ι](h:Heap α)(l:ι→Ends α)
  (xs:ι→List α):Prop where
 init:∀i,Becomes h (listInit h (l i)) l (update xs i []) (cells (l i) [])
 initNew:∀n:Ends α,n.head≠n.tail → (∀k,(cells n []).Disjoint (cells (l k) (xs k))) →
  Becomes h (listInit h n) (fun o:Option ι=>o.elim n l) (fun o=>o.elim [] xs) (cells n [])
 insert:∀i p q e,xs i=p++q → (∀k,e∉cells (l k) (xs k)) →
  ∃h',listInsert h ((l i).right q) e=some h' ∧
   Becomes h h' l (update xs i (p++e::q)) (e::cells (l i) (xs i))
 pushFront:∀i e,(∀k,e∉cells (l k) (xs k)) → ∃h',listPushFront h (l i) e=some h' ∧
   Becomes h h' l (update xs i (e::xs i)) (e::cells (l i) (xs i))
 pushBack:∀i e,(∀k,e∉cells (l k) (xs k)) → ∃h',listPushBack h (l i) e=some h' ∧
   Becomes h h' l (update xs i (xs i++[e])) (e::cells (l i) (xs i))
 remove:∀i p e q,xs i=p++e::q → ∃h',listRemove h e=some ((l i).right q,h') ∧
   Becomes h h' l (update xs i (p++q)) (cells (l i) (p++q))
 popFront:∀i e q,xs i=e::q → ∃h',listPopFront h (l i)=some (e,h') ∧
   Becomes h h' l (update xs i q) (cells (l i) q)
 popBack:∀i p e,xs i=p++[e] → ∃h',listPopBack h (l i)=some (e,h') ∧
   Becomes h h' l (update xs i p) (cells (l i) p)
 reverse:∀i turns,(xs i).length<turns → ∃h',listReverse turns h (l i)=some h' ∧
   Becomes h h' l (update xs i (xs i).reverse) (cells (l i) (xs i))
 size:∀i turns,(xs i).length<turns → listSize turns h (l i)=some (xs i).length
 splice:∀i j p m q p' q',xs i=p++(m++q) → update xs i (p++q) j=p'++q' →
  ∃h',listSplice h ((l j).right q') ((l i).right (m++q)) ((l i).right q)=some h' ∧
   Becomes h h' l (update (update xs i (p++q)) j (p'++(m++q')))
    (cells (l i) (xs i)++cells (l j) (xs j))
 forward:∀i,∃b,listBegin h (l i)=some b ∧ (∀k<(xs i).length,walk (listNext h) k b=(xs i)[k]? ∧
   walk (listNext h) k b≠some (listEnd (l i))) ∧
  walk (listNext h) (xs i).length b=some (listEnd (l i))
 backward:∀i,∃b,listRbegin h (l i)=some b ∧
  (∀k<(xs i).length,walk (listPrev h) k b=(xs i).reverse[k]? ∧
   walk (listPrev h) k b≠some (listRend (l i))) ∧
  walk (listPrev h) (xs i).length b=some (listRend (l i))

section

variable [DecidableEq α][DecidableEq ι]{h:Heap α}{l:ι→Ends α}{xs:ι→List α}{i:ι}{p q:List α}{e:α}

omit [DecidableEq α] [DecidableEq ι] in
lemma left_mem_cells (split:xs i=p++q):(l i).left p∈cells (l i) (xs i):=by
 rw[split,cells_append]
 exact mem_append_left _ ((l i).left_mem p)

omit [DecidableEq α] [DecidableEq ι] in
lemma right_mem_cells (split:xs i=p++q):(l i).right q∈cells (l i) (xs i):=by
 rw[split,cells_append]
 exact mem_append_right _ ((l i).right_mem q)

lemma insert_becomes (w:Lists h l xs)(split:xs i=p++q)(fresh:∀k,e∉cells (l k) (xs k)):
 ∃h',listInsert h ((l i).right q) e=some h' ∧
  Becomes h h' l (update xs i (p++e::q)) (e::cells (l i) (xs i)):=by
 have r:=w.each i
 rw[split] at r
 have hleft:=left_mem_cells (l:=l) split
 have hright:=right_mem_cells (l:=l) split
 have hle:(l i).left p≠e:=fun eq=>fresh i (eq▸hleft)
 have hre:(l i).right q≠e:=fun eq=>fresh i (eq▸hright)
 refine ⟨_,listInsert_eq r.linked.prev hre hle,?_,?_⟩
 · have disjoint:∀k,[e].Disjoint (cells (l k) (xs k)):=by
    intro k c hc
    obtain rfl:=mem_singleton.1 hc
    exact fresh k
   exact w.paste split (.singleton e) (nodup_singleton e) disjoint rfl rfl
 · intro c hc
   rw[mem_cons,not_or] at hc
   have hcl:c≠(l i).left p:=fun eq=>hc.2 (eq▸hleft)
   have hcr:c≠(l i).right q:=fun eq=>hc.2 (eq▸hright)
   simp[SameLinks,hc.1,hcl,hcr]

lemma pushFront_becomes (w:Lists h l xs)(i:ι)(fresh:∀k,e∉cells (l k) (xs k)):
 ∃h',listPushFront h (l i) e=some h' ∧
  Becomes h h' l (update xs i (e::xs i)) (e::cells (l i) (xs i)):=by
 obtain ⟨h',inserted,becomes⟩:=insert_becomes (p:=[]) w rfl fresh
 exact ⟨h',by simpa[listPushFront,listBegin_eq (w.each i)] using inserted,becomes⟩

lemma pushBack_becomes (w:Lists h l xs)(i:ι)(fresh:∀k,e∉cells (l k) (xs k)):
 ∃h',listPushBack h (l i) e=some h' ∧
  Becomes h h' l (update xs i (xs i++[e])) (e::cells (l i) (xs i)):=
 insert_becomes (q:=[]) w (append_nil _).symm fresh

omit [DecidableEq α] [DecidableEq ι] in
lemma Becomes.trans {h₁ h₂:Heap α}{ys zs:ι→List α}{t t' u:List α}
 (first:Becomes h h₁ l ys t)(second:Becomes h₁ h₂ l zs t')(sub:t ⊆ u)(sub':t' ⊆ u):
 Becomes h h₂ l zs u:=by
 refine ⟨second.lists,fun c hc=>?_⟩
 have same:=first.frame c fun hc'=>hc (sub hc')
 have same':=second.frame c fun hc'=>hc (sub' hc')
 exact ⟨same'.1.trans same.1,same'.2.trans same.2⟩

section
variable (w:Lists h l xs)
include w

lemma pushAll_becomes (i:ι){es:List α}(distinct:es.Nodup)(fresh:∀e∈es,∀k,e∉cells (l k) (xs k)):
 ∃h',es.foldlM (fun h e=>listPushBack h (l i) e) h=some h' ∧
  Becomes h h' l (update xs i (xs i++es)) (cells (l i) (xs i++es)):=by
 induction es generalizing h xs with
 | nil=>exact ⟨h,rfl,by simpa using w,fun c _=>⟨rfl,rfl⟩⟩
 | cons e es ih=>
  obtain ⟨absent,distinct⟩:=nodup_cons.1 distinct
  obtain ⟨h₁,pushes,becomes⟩:=pushBack_becomes w i (fresh e mem_cons_self)
  have fresh₁:∀c∈es,∀k,c∉cells (l k) (update xs i (xs i++[e]) k):=by
   intro c hc k hk
   have old:=fresh c (mem_cons_of_mem e hc) k
   by_cases hki:k=i
   · subst hki
     simp only[update_self,mem_cells,mem_append,mem_singleton] at hk old
     have:c≠e:=fun eq=>absent (eq▸hc)
     tauto
   · rw[update_of_ne hki] at hk
     exact old hk
  obtain ⟨h',rest,becomes'⟩:=ih becomes.lists distinct fresh₁
  rw[update_self,update_idem,append_assoc] at becomes'
  refine ⟨h',by simp[pushes,rest],becomes.trans becomes' ?_ (List.Subset.refl _)⟩
  intro c hc
  simp only[mem_cons,mem_cells,mem_append] at hc ⊢
  tauto

lemma remove_becomes (split:xs i=p++e::q):∃h',listRemove h e=some ((l i).right q,h') ∧
  Becomes h h' l (update xs i (p++q)) (cells (l i) (p++q)):=by
 have r:=w.each i
 rw[split] at r
 have hp:=r.linked.prev
 have hn:=r.linked_cons.next
 refine ⟨_,listRemove_eq hp hn,(w.cut (m:=[e]) split).1,?_⟩
 intro c hc
 rw[cells_append,mem_append,not_or] at hc
 exact sameLinks_link (fun eq=>hc.1 (eq▸(l i).left_mem p)) (fun eq=>hc.2 (eq▸(l i).right_mem q))

lemma removeAll_becomes (i:ι){es:List α}(distinct:es.Nodup)(present:∀e∈es,e∈xs i):
 ∃h',es.foldlM (fun h e=>(listRemove h e).map Prod.snd) h=some h' ∧
  Becomes h h' l (update xs i ((xs i).filter (· ∉ es))) (cells (l i) (xs i)):=by
 induction es generalizing h xs with
 | nil=>exact ⟨h,rfl,by simpa using w,fun c _=>⟨rfl,rfl⟩⟩
 | cons e es ih=>
  obtain ⟨absent,distinct⟩:=nodup_cons.1 distinct
  obtain ⟨p,q,split⟩:=append_of_mem (present e mem_cons_self)
  obtain ⟨h₁,removes,becomes⟩:=remove_becomes w split
  have nodup:(xs i).Nodup:=(nodup_cons.1 (w.each i).nodup).2.of_append_left
  have left:p++q=(xs i).erase e:=by
   rw[split] at nodup ⊢
   rw[erase_append_right _ ?_,erase_cons_head]
   exact fun he=>(nodup_append.1 nodup).2.2 e he e mem_cons_self rfl
  have present₁:∀c∈es,c∈update xs i (p++q) i:=by
   intro c hc
   rw[update_self,left,nodup.mem_erase_iff]
   exact ⟨fun eq=>absent (eq▸hc),present c (mem_cons_of_mem e hc)⟩
  obtain ⟨h',rest,becomes'⟩:=ih becomes.lists distinct present₁
  have inside:cells (l i) (p++q) ⊆ cells (l i) (xs i):=by
   intro c hc
   simp only[split,mem_cells,mem_append] at hc ⊢
   tauto
  have filtered:((xs i).erase e).filter (· ∉ es)=(xs i).filter (· ∉ e::es):=by
   rw[nodup.erase_eq_filter,List.filter_filter]
   refine filter_congr fun c _=>?_
   by_cases hce:c=e<;>simp[hce]
  rw[update_self,update_idem] at becomes'
  have both:=becomes.trans becomes' inside inside
  rw[left,filtered] at both
  exact ⟨h',by simp[removes,rest],both⟩

lemma popFront_becomes (split:xs i=e::q):∃h',listPopFront h (l i)=some (e,h') ∧
  Becomes h h' l (update xs i q) (cells (l i) q):=by
 obtain ⟨h',removed,becomes⟩:=remove_becomes (p:=[]) w split
 refine ⟨h',?_,becomes⟩
 have r:=w.each i
 rw[split] at r
 have hbegin:=listBegin_eq r
 have hnext:h.next (l i).head=some e:=hbegin
 have het:e≠(l i).tail:=r.ne_tail (by simp)
 simp[listPopFront,listFront,listEmpty,listEnd,hbegin,hnext,het,removed]

lemma popBack_becomes (split:xs i=p++[e]):∃h',listPopBack h (l i)=some (e,h') ∧
  Becomes h h' l (update xs i p) (cells (l i) p):=by
 obtain ⟨h',removed,becomes⟩:=remove_becomes w split
 rw[append_nil] at becomes
 refine ⟨h',?_,becomes⟩
 have r:=w.each i
 rw[split] at r
 have hprev:=r.linked_cons.prev
 rw[Ends.right_nil] at hprev
 have notEmpty:(l i).right (p++[e])≠(l i).tail:=by
  cases p with
  | nil | cons a p=>exact r.ne_tail (by simp)
 simp[listPopBack,listBack,listEmpty,listEnd,listBegin_eq r,hprev,notEmpty,removed]

lemma reverse_becomes {turns:ℕ}(enough:(xs i).length<turns):∃h',listReverse turns h (l i)=some h' ∧
  Becomes h h' l (update xs i (xs i).reverse) (cells (l i) (xs i)):=by
 obtain ⟨h',reversed,r,frame⟩:=listReverse_spec (w.each i) enough
 refine ⟨h',reversed,w.replace r ?_ ?_,frame⟩
 · intro k hk c hc
   exact frame c fun hc'=>w.apart k i hk hc hc'
 · intro k hk c hc
   refine w.apart i k (Ne.symm hk) ?_
   simpa using hc

end

lemma listInit_represents (h:Heap α){n:Ends α}(hn:n.head≠n.tail):
 Represents (listInit h n) n [] where
 chain:=by
  refine .cons_cons ⟨?_,?_⟩ (.singleton _)
  · simp[listInit,hn]
  · simp[listInit]
 first:=by simp[listInit,hn]
 last:=by simp[listInit]
 nodup:=by simpa[cells] using hn

lemma listInit_frame (h:Heap α)(n:Ends α){c:α}(hc:c∉cells n []):SameLinks h (listInit h n) c:=by
 simp only[mem_cells,not_or] at hc
 simp[SameLinks,listInit,hc]

lemma init_becomes (w:Lists h l xs)(i:ι):
 Becomes h (listInit h (l i)) l (update xs i []) (cells (l i) []):=by
 have sub:∀c∈cells (l i) [],c∈cells (l i) (xs i):=by
  intro c hc
  simp only[mem_cells,not_mem_nil] at hc ⊢
  tauto
 have hn:(l i).head≠(l i).tail:=fun eq=>
  (nodup_cons.1 (w.each i).nodup).1 (by simp[eq])
 refine ⟨w.replace (listInit_represents h hn) ?_ ?_,fun c=>listInit_frame h (l i)⟩
 · intro k hk c hc
   exact listInit_frame h (l i) fun hc'=>w.apart k i hk hc (sub c hc')
 · intro k hk c hc
   exact w.apart i k (Ne.symm hk) (sub c hc)

omit [DecidableEq ι] in
lemma init_becomes_new (w:Lists h l xs){n:Ends α}(hn:n.head≠n.tail)
 (fresh:∀k,(cells n []).Disjoint (cells (l k) (xs k))):
 Becomes h (listInit h n) (fun o:Option ι=>o.elim n l) (fun o=>o.elim [] xs) (cells n []):=by
 refine ⟨⟨?_,?_⟩,fun c=>listInit_frame h n⟩
 · intro o
   cases o with
   | none=>exact listInit_represents h hn
   | some k=>
    refine (w.each k).congr fun c hc=>listInit_frame h n fun hc'=>?_
    exact fresh k hc' hc
 · intro o o' hne
   cases o with
   | none=>
    cases o' with
    | none=>exact absurd rfl hne
    | some k=>exact fresh k
   | some k=>
    cases o' with
    | none=>exact fun c hc hc'=>fresh k hc' hc
    | some k'=>exact w.apart k k' fun eq=>hne (by rw[eq])

lemma splice_becomes (w:Lists h l xs){j:ι}{m p' q':List α}(split:xs i=p++(m++q))
 (split':update xs i (p++q) j=p'++q'):
 ∃h',listSplice h ((l j).right q') ((l i).right (m++q)) ((l i).right q)=some h' ∧
  Becomes h h' l (update (update xs i (p++q)) j (p'++(m++q')))
   (cells (l i) (xs i)++cells (l j) (xs j)):=by
 rcases eq_nil_or_concat m with rfl|⟨ms,t,hm⟩
 · -- An empty range: the call returns at once.
   have same:update xs i (p++q)=xs:=by
    simpa using split.symm
   rw[same] at split' ⊢
   have r:=w.each j
   rw[split'] at r
   refine ⟨h,?_,?_,fun c _=>⟨rfl,rfl⟩⟩
   · simp[listSplice,isInterior_or_isTail,r.linked.prev]
   · rw[nil_append,←split',update_eq_self]
     exact w
 · have last:m.getLast?=some t:=by simp[hm]
   obtain ⟨f,first⟩:∃f,m.head?=some f:=by
    cases hx:m.head? with
    | none=>simp[head?_eq_none_iff.1 hx] at last
    | some f=>exact ⟨f,rfl⟩
   have hf:f∈m:=mem_of_head? first
   have ht:t∈m:=mem_of_getLast? last
   obtain ⟨w',run,hnodup,fresh⟩:=w.cut split
   have r:=w.each i
   rw[split] at r
   have r':=w'.each j
   rw[split'] at r'
   have hfirst:(l i).right (m++q)=f:=by simp[Ends.right,first]
   have before:=r'.linked
   have hpt:(l j).left p'≠t:=fun eq=>
    fresh j ht (eq▸left_mem_cells (l:=l) split')
   -- The links of the range in the list it is taken from.
   have into:=r.linked
   have out:=Represents.linked (p:=p++m) (q:=q) (by simpa using r)
   rw[hfirst] at into
   have hlast:(l i).left (p++m)=t:=by
    rw[hm,concat_eq_append,←append_assoc,Ends.left_concat]
   rw[hlast] at out
   have mem:∀c∈m,c∈p++(m++q):=fun c hc=>by simp[hc]
   have hfl:f≠(l i).right q:=by
    have away:=fresh i
    rw[update_self,cells_append] at away
    exact fun eq=>away hf (mem_append_right _ (eq▸(l i).right_mem q))
   have spliced:=listSplice_eq hfl out.prev out.next into.prev (isInterior_of_mem r (mem f hf))
    (isInterior_of_mem r (mem t ht)) before.prev hpt
   rw[hfirst]
   refine ⟨_,spliced,w'.paste split' run hnodup fresh first last,?_⟩
   intro c hc
   rw[mem_append,not_or] at hc
   have inside:∀d∈cells (l i) (xs i),c≠d:=fun d hd eq=>hc.1 (eq▸hd)
   have target:∀d∈cells (l j) (update xs i (p++q) j),c≠d:=by
    rintro d hd rfl
    by_cases hj:j=i
    · subst hj
      rw[update_self] at hd
      rw[split] at hc
      simp only[mem_cells,mem_append] at hc hd
      tauto
    · rw[update_of_ne hj] at hd
      exact hc.2 hd
   have h₁:=inside _ (left_mem_cells (l:=l) split)
   have h₂:=inside _ (right_mem_cells (p:=p++m) (q:=q) (l:=l) (by simpa using split))
   have h₃:=inside f (by simp[split,hf])
   have h₄:=inside t (by simp[split,ht])
   have h₅:=target _ (left_mem_cells (l:=l) split')
   have h₆:=target _ (right_mem_cells (l:=l) split')
   simp[SameLinks,h₁,h₂,h₃,h₄,h₅,h₆]

omit [DecidableEq α] [DecidableEq ι] in
lemma forward_walk (w:Lists h l xs)(i:ι):∃b,listBegin h (l i)=some b ∧
  (∀k<(xs i).length,walk (listNext h) k b=(xs i)[k]? ∧ walk (listNext h) k b≠some (listEnd (l i))) ∧
  walk (listNext h) (xs i).length b=some (listEnd (l i)):=by
 have r:=w.each i
 refine ⟨_,listBegin_eq r,?_,?_⟩
 · intro k hk
   have at_k:=walk_next (p:=[]) r (Nat.le_of_lt hk)
   rw[getElem?_append_left hk] at at_k
   refine ⟨at_k,?_⟩
   rw[at_k,getElem?_eq_getElem hk]
   exact fun eq=>r.ne_tail (getElem_mem hk) (Option.some.inj eq)
 · rw[walk_next (p:=[]) r (Nat.le_refl _)]
   simp[listEnd]

omit [DecidableEq α] [DecidableEq ι] in
lemma backward_walk (w:Lists h l xs)(i:ι):∃b,listRbegin h (l i)=some b ∧
  (∀k<(xs i).length,walk (listPrev h) k b=(xs i).reverse[k]? ∧
   walk (listPrev h) k b≠some (listRend (l i))) ∧
  walk (listPrev h) (xs i).length b=some (listRend (l i)):=by
 have r:Represents h (l i) (xs i++[]):=by simpa using w.each i
 refine ⟨_,r.linked.prev,?_,?_⟩
 · intro k hk
   have at_k:=walk_prev r (Nat.le_of_lt hk)
   have hk':k<(xs i).reverse.length:=by simpa using hk
   rw[getElem?_append_left hk'] at at_k
   refine ⟨at_k,?_⟩
   rw[at_k,getElem?_eq_getElem hk']
   have mem:=mem_reverse.1 (getElem_mem hk')
   exact fun eq=>(w.each i).ne_head mem (Option.some.inj eq)
 · rw[walk_prev r (Nat.le_refl _)]
   simp[listRend]

end

theorem lists_are_sequences [DecidableEq α][DecidableEq ι]{h:Heap α}{l:ι→Ends α}
 {xs:ι→List α}(w:Lists h l xs):Sequences h l xs where
 init:=init_becomes w
 initNew n hn fresh:=init_becomes_new w hn fresh
 insert i p q e split fresh:=insert_becomes w split fresh
 pushFront i e fresh:=pushFront_becomes w i fresh
 pushBack i e fresh:=pushBack_becomes w i fresh
 remove i p e q split:=remove_becomes w split
 popFront i e q split:=popFront_becomes w split
 popBack i p e split:=popBack_becomes w split
 reverse i turns enough:=reverse_becomes w enough
 size i turns enough:=by
  rw[listSize,listBegin_eq (w.each i),countFrom_eq (p:=[]) (w.each i) enough,Nat.zero_add]
 splice i j p m q p' q' split split':=splice_becomes w split split'
 forward:=forward_walk w
 backward:=backward_walk w

def twoEnds:Bool→Ends (Fin 7)
 | false=>⟨0,1⟩
 | true=>⟨5,6⟩
def twoSequences:Bool→List (Fin 7)
 | false=>[2,3,4]
 | true=>[]
def twoHeap:Heap (Fin 7) where
 prev:=![none,some 4,some 0,some 2,some 3,none,some 5]
 next:=![some 2,none,some 3,some 4,some 1,some 6,none]

lemma twoHeap_lists:Lists twoHeap twoEnds twoSequences where
 each i:=by
  cases i<;>exact ⟨by decide,by decide,by decide,by decide⟩
 apart i j hij:=by
  cases i<;>cases j<;>first | exact absurd rfl hij | exact disjoint_left.2 (by decide)

theorem lists_are_sequences_two:
 Lists twoHeap twoEnds twoSequences ∧ Sequences twoHeap twoEnds twoSequences:=
 ⟨twoHeap_lists,lists_are_sequences twoHeap_lists⟩

end Pintos.KernelLists
