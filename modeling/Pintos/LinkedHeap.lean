import Mathlib.Data.List.Chain
import Mathlib.Data.List.Nodup

/-!
Doubly linked cells in a heap: what one pair of link assignments does to chains of cells, and
families of pairwise disjoint lists between two sentinels.
-/

namespace Pintos.LinkedHeap
open Function List

variable {α ι:Type*}

structure Heap (α:Type*) where
 prev:α→Option α
 next:α→Option α

structure Linked (h:Heap α)(a b:α):Prop where
 next:h.next a=some b
 prev:h.prev b=some a

section

variable [DecidableEq α]{h:Heap α}{a b:α}{as bs:List α}

instance (h:Heap α):DecidableRel (Linked h):=fun a b=>
 decidable_of_iff (h.next a=some b ∧ h.prev b=some a)
  ⟨fun both=>⟨both.1,both.2⟩,fun linked=>⟨linked.next,linked.prev⟩⟩
def Heap.setPrev (h:Heap α)(a:α)(p:Option α):Heap α:={h with prev:=update h.prev a p}
def Heap.setNext (h:Heap α)(a:α)(n:Option α):Heap α:={h with next:=update h.next a n}

/-- The two assignments that make `b` the successor of `a`. -/
def Heap.link (h:Heap α)(a b:α):Heap α:=(h.setNext a (some b)).setPrev b (some a)

@[simp]
lemma Heap.setPrev_prev (h:Heap α)(a:α)(p:Option α)(c:α):
 (h.setPrev a p).prev c=if c=a then p else h.prev c:=by
 simp[Heap.setPrev,update_apply]

@[simp]
lemma Heap.setPrev_next (h:Heap α)(a:α)(p:Option α):(h.setPrev a p).next=h.next:=rfl

@[simp]
lemma Heap.setNext_next (h:Heap α)(a:α)(n:Option α)(c:α):
 (h.setNext a n).next c=if c=a then n else h.next c:=by
 simp[Heap.setNext,update_apply]

@[simp]
lemma Heap.setNext_prev (h:Heap α)(a:α)(n:Option α):(h.setNext a n).prev=h.prev:=rfl

@[simp]
lemma Heap.link_next (h:Heap α)(a b c:α):(h.link a b).next c=if c=a then some b else h.next c:=by
 simp[Heap.link]

@[simp]
lemma Heap.link_prev (h:Heap α)(a b c:α):(h.link a b).prev c=if c=b then some a else h.prev c:=by
 simp[Heap.link]

omit [DecidableEq α] in
lemma Heap.ext_links {h':Heap α}(prev:∀a,h.prev a=h'.prev a)(next:∀a,h.next a=h'.next a):h=h':=by
 cases h
 cases h'
 rw[Heap.mk.injEq]
 exact ⟨funext prev,funext next⟩

/-- The four assignments that put a run of cells from `f` to `t` between `a` and `b`, in any order
that writes the fields of the run first. -/
lemma Heap.attach_eq (h:Heap α){f t:α}(hat:a≠t):
 (((h.setPrev f (some a)).setNext t (some b)).setNext a (some f)).setPrev b (some t)=
  (h.link a f).link t b:=by
 apply Heap.ext_links
 · simp
 · intro c
   by_cases hct:c=t
   · subst hct
     simp[Ne.symm hat]
   · simp[hct]

lemma linked_link (h:Heap α)(a b:α):Linked (h.link a b) a b:=by
 constructor<;>simp
lemma Linked.link {c d:α}(hl:Linked h c d)(hc:c≠a)(hd:d≠b):Linked (h.link a b) c d:=by
 constructor
 · simp[hc,hl.next]
 · simp[hd,hl.prev]

/-- A chain survives a link whose source is not the source of one of its pairs and whose target is
not the target of one. -/
lemma isChain_link {cs:List α}(chain:cs.IsChain (Linked h))(ha:a∉cs.dropLast)
 (hb:b∉cs.tail):cs.IsChain (Linked (h.link a b)):=by
 induction cs with
 | nil=>exact .nil
 | cons c cs ih=>
  cases cs with
  | nil=>exact .singleton c
  | cons d ds=>
   rw[isChain_cons_cons] at chain ⊢
   simp only[dropLast_cons_cons,mem_cons,not_or,tail_cons] at ha hb
   refine ⟨chain.1.link (Ne.symm ha.1) (Ne.symm hb.1),ih chain.2 ha.2 ?_⟩
   simpa using hb.2

lemma isChain_link_of_notMem {cs:List α}(chain:cs.IsChain (Linked h))(ha:a∉cs)
 (hb:b∉cs):cs.IsChain (Linked (h.link a b)):=
 isChain_link chain (fun hm=>ha (dropLast_subset cs hm)) (fun hm=>hb (mem_of_mem_tail hm))

lemma isChain_join (left:(as++[a]).IsChain (Linked h))(right:(b::bs).IsChain (Linked h))
 (nodup:(as++[a]++b::bs).Nodup):
 (as++[a]++b::bs).IsChain (Linked (h.link a b)):=by
 obtain ⟨hl,hr,apart⟩:=nodup_append'.1 nodup
 have ha:a∉b::bs:=apart (by simp)
 have hb:b∉as++[a]:=fun hm=>apart hm (by simp)
 have left':(as++[a]).IsChain (Linked (h.link a b)):=by
  refine isChain_link left ?_ (fun hm=>hb (mem_of_mem_tail hm))
  rw[dropLast_concat]
  exact fun hm=>disjoint_of_nodup_append hl hm (by simp)
 have right':(b::bs).IsChain (Linked (h.link a b)):=
  isChain_link right (fun hm=>ha (dropLast_subset _ hm)) (nodup_cons.1 hr).1
 refine left'.append right' ?_
 simpa using linked_link h a b

/-- Joining two cells across a run of cells takes the run out of the chain and leaves it linked. -/
lemma isChain_cut {m:List α}(chain:(as++[a]++(m++b::bs)).IsChain (Linked h))
 (nodup:(as++[a]++(m++b::bs)).Nodup):
 (as++[a]++b::bs).IsChain (Linked (h.link a b)) ∧ m.IsChain (Linked (h.link a b)):=by
 obtain ⟨hl,hr,apart⟩:=nodup_append'.1 nodup
 obtain ⟨hm,hb,apart'⟩:=nodup_append'.1 hr
 constructor
 · refine isChain_join chain.left_of_append chain.right_of_append.right_of_append ?_
   exact nodup_append'.2 ⟨hl,hb,fun c hc hc'=>apart hc (by simp[hc'])⟩
 · refine isChain_link_of_notMem chain.right_of_append.left_of_append ?_ ?_
   · exact fun ha=>apart (mem_append_right as (mem_singleton_self a)) (by simp[ha])
   · exact fun hb=>apart' hb mem_cons_self

lemma isChain_paste {f t:α}{m:List α}(left:(as++[a]).IsChain (Linked h))
 (middle:m.IsChain (Linked h))(right:(b::bs).IsChain (Linked h))
 (nodup:(as++[a]++m++b::bs).Nodup)(first:m.head?=some f)
 (last:m.getLast?=some t):
 (as++[a]++m++b::bs).IsChain (Linked ((h.link a f).link t b)):=by
 obtain ⟨hl,hr,apart⟩:=nodup_append'.1 nodup
 have ha:a∈as++[a]++m:=by simp
 have hf:f∈as++[a]++m:=mem_append_right _ (mem_of_head? first)
 have joined:(as++[a]++m).IsChain (Linked (h.link a f)):=by
  obtain ⟨ms,rfl⟩:=head?_eq_some_iff.1 first
  exact isChain_join left middle hl
 have kept:(b::bs).IsChain (Linked (h.link a f)):=
  isChain_link_of_notMem right (apart ha) (apart hf)
 obtain ⟨ls,rfl⟩:=getLast?_eq_some_iff.1 last
 rw[←append_assoc] at joined nodup ⊢
 exact isChain_join joined kept nodup

end

structure Ends (α:Type*) where
 head:α
 tail:α

def cells (l:Ends α)(xs:List α):List α:=l.head::(xs++[l.tail])

/-- The cell before the place that follows `p`. -/
def Ends.left (l:Ends α)(p:List α):α:=p.getLast?.getD l.head

/-- The cell at the place that `q` follows from. -/
def Ends.right (l:Ends α)(q:List α):α:=q.head?.getD l.tail

structure Represents (h:Heap α)(l:Ends α)(xs:List α):Prop where
 chain:(cells l xs).IsChain (Linked h)
 first:h.prev l.head=none
 last:h.next l.tail=none
 nodup:(cells l xs).Nodup

def SameLinks (h h':Heap α)(c:α):Prop:=h'.prev c=h.prev c ∧ h'.next c=h.next c

variable {l:Ends α}{xs:List α}

@[simp]
lemma mem_cells {c:α}:c∈cells l xs ↔ c=l.head ∨ c∈xs ∨ c=l.tail:=by
 simp[cells]

lemma cells_append (l:Ends α)(p q:List α):cells l (p++q)=(l.head::p)++(q++[l.tail]):=by
 simp[cells]

@[simp]
lemma Ends.left_nil (l:Ends α):l.left []=l.head:=rfl

@[simp]
lemma Ends.left_concat (l:Ends α)(p:List α)(a:α):l.left (p++[a])=a:=by
 simp[Ends.left]

@[simp]
lemma Ends.right_nil (l:Ends α):l.right []=l.tail:=rfl

@[simp]
lemma Ends.right_cons (l:Ends α)(a:α)(q:List α):l.right (a::q)=a:=rfl

lemma Ends.left_split (l:Ends α)(p:List α):∃as,l.head::p=as++[l.left p]:=by
 apply getLast?_eq_some_iff.1
 rw[getLast?_cons,Ends.left]
lemma Ends.right_split (l:Ends α)(q:List α):∃bs,q++[l.tail]=l.right q::bs:=by
 apply head?_eq_some_iff.1
 cases q<;>rfl
lemma Ends.left_mem (l:Ends α)(p:List α):l.left p∈l.head::p:=by
 obtain ⟨as,eq⟩:=l.left_split p
 simp[eq]
lemma Ends.right_mem (l:Ends α)(q:List α):l.right q∈q++[l.tail]:=by
 obtain ⟨bs,eq⟩:=l.right_split q
 simp[eq]

variable {h:Heap α}

lemma Represents.linked {p q:List α}(r:Represents h l (p++q)):Linked h (l.left p) (l.right q):=by
 have chain:=r.chain
 obtain ⟨as,left⟩:=l.left_split p
 obtain ⟨bs,right⟩:=l.right_split q
 rw[cells_append,left,right,append_assoc,singleton_append,isChain_append_cons_cons] at chain
 exact chain.2.1

lemma Represents.linked_cons {p q:List α}{a:α}(r:Represents h l (p++a::q)):
 Linked h a (l.right q):=by
 have linked:=Represents.linked (p:=p++[a]) (q:=q) (by simpa using r)
 rwa[Ends.left_concat] at linked
lemma Represents.ne_tail {a:α}(r:Represents h l xs)(ha:a∈xs):a≠l.tail:=by
 have nodup:=(nodup_cons.1 r.nodup).2
 exact fun eq=>disjoint_of_nodup_append nodup ha (by simp[eq])
lemma Represents.ne_head {a:α}(r:Represents h l xs)(ha:a∈xs):a≠l.head:=
 fun eq=>(nodup_cons.1 r.nodup).1 (by simp[←eq,ha])

variable {h':Heap α}

lemma Represents.congr (r:Represents h l xs)(same:∀c∈cells l xs,SameLinks h h' c):
 Represents h' l xs where
 chain:=by
  refine List.IsChain.imp_of_mem_imp ?_ r.chain
  intro a b ha hb hab
  exact ⟨(same a ha).2.trans hab.next,(same b hb).1.trans hab.prev⟩
 first:=(same l.head (by simp)).1.trans r.first
 last:=(same l.tail (by simp)).2.trans r.last
 nodup:=r.nodup

structure Lists (h:Heap α)(l:ι→Ends α)(xs:ι→List α):Prop where
 each:∀i,Represents h (l i) (xs i)
 apart:∀i j,i≠j → (cells (l i) (xs i)).Disjoint (cells (l j) (xs j))

lemma Lists.congr {l:ι→Ends α}{xs:ι→List α}(w:Lists h l xs)
 (same:∀i,∀c∈cells (l i) (xs i),SameLinks h h' c):Lists h' l xs:=
 ⟨fun i=>(w.each i).congr (same i),w.apart⟩

lemma Lists.replace [DecidableEq ι]{l:ι→Ends α}{xs:ι→List α}(w:Lists h l xs){i:ι}
 {ys:List α}(changed:Represents h' (l i) ys)
 (others:∀k≠i,∀c∈cells (l k) (xs k),SameLinks h h' c)
 (apart:∀k≠i,(cells (l i) ys).Disjoint (cells (l k) (xs k))):
 Lists h' l (update xs i ys) where
 each k:=by
  by_cases hk:k=i
  · subst hk
    simpa using changed
  · rw[update_of_ne hk]
    exact (w.each k).congr (others k hk)
 apart j k hjk:=by
  by_cases hj:j=i
  · subst hj
    rw[update_self,update_of_ne (Ne.symm hjk)]
    exact apart k (Ne.symm hjk)
  · rw[update_of_ne hj]
    by_cases hk:k=i
    · subst hk
      rw[update_self]
      exact fun c hc hc'=>apart j hj hc' hc
    · rw[update_of_ne hk]
      exact w.apart j k hjk
variable [DecidableEq α]{h:Heap α}{p m q:List α}

lemma sameLinks_link {a b c:α}(ha:c≠a)(hb:c≠b):SameLinks h (h.link a b) c:=by
 simp[SameLinks,ha,hb]

lemma Represents.cut {l:Ends α}(r:Represents h l (p++(m++q))):
 Represents (h.link (l.left p) (l.right q)) l (p++q) ∧
  m.IsChain (Linked (h.link (l.left p) (l.right q))):=by
 have chain:=r.chain
 have nodup:=r.nodup
 rw[cells_append,append_assoc] at chain nodup
 have hleft:=l.left_mem p
 have hright:=l.right_mem q
 have apart:=disjoint_of_nodup_append nodup
 obtain ⟨as,left⟩:=l.left_split p
 obtain ⟨bs,right⟩:=l.right_split q
 obtain ⟨joined,run⟩:=isChain_cut (left▸right▸chain) (left▸right▸nodup)
 refine ⟨⟨?_,?_,?_,?_⟩,run⟩
 · rw[cells_append,left,right]
   exact joined
 · have:l.head≠l.right q:=fun eq=>
    apart mem_cons_self (mem_append_right m (eq▸hright))
   simp[this,r.first]
 · have:l.tail≠l.left p:=fun eq=>
    apart (eq▸hleft) (by simp)
   simp[this,r.last]
 · rw[cells_append]
   refine nodup.sublist (Sublist.append_left ?_ _)
   exact sublist_append_right m _

lemma Represents.paste {l:Ends α}{f t:α}(r:Represents h l (p++q))
 (run:m.IsChain (Linked h))(hm:m.Nodup)(fresh:m.Disjoint (cells l (p++q)))
 (first:m.head?=some f)(last:m.getLast?=some t):
 Represents ((h.link (l.left p) f).link t (l.right q)) l (p++(m++q)):=by
 have chain:=r.chain
 have nodup:=r.nodup
 rw[cells_append] at chain nodup fresh
 obtain ⟨hp,hq,apart⟩:=nodup_append'.1 nodup
 have whole:((l.head::p)++m++(q++[l.tail])).Nodup:=by
  refine nodup_append'.2 ⟨nodup_append'.2 ⟨hp,hm,?_⟩,hq,?_⟩
  · exact fun c hc hc'=>fresh hc' (mem_append_left _ hc)
  · intro c hc hc'
    rcases mem_append.1 hc with hc|hc
    · exact apart hc hc'
    · exact fresh hc (mem_append_right _ hc')
 have hleft:=l.left_mem p
 have hright:=l.right_mem q
 have hf:f∈m:=mem_of_head? first
 have ht:t∈m:=mem_of_getLast? last
 refine ⟨?_,?_,?_,?_⟩
 · obtain ⟨as,left⟩:=l.left_split p
   obtain ⟨bs,right⟩:=l.right_split q
   rw[cells_append,append_assoc,←append_assoc,left,right]
   exact isChain_paste (left▸chain.left_of_append) run (right▸chain.right_of_append)
    (left▸right▸whole) first last
 · have h₁:l.head≠l.right q:=fun eq=>apart mem_cons_self (eq▸hright)
   have h₂:l.head≠f:=fun eq=>fresh hf (by simp[←eq])
   simp[h₁,h₂,r.first]
 · have h₁:l.tail≠l.left p:=fun eq=>apart (eq▸hleft) (by simp)
   have h₂:l.tail≠t:=fun eq=>fresh ht (by simp[←eq])
   simp[h₁,h₂,r.last]
 · rw[cells_append,append_assoc,←append_assoc]
   exact whole

variable [DecidableEq ι]

lemma Lists.cut {l:ι→Ends α}{xs:ι→List α}(w:Lists h l xs){i:ι}(split:xs i=p++(m++q)):
 Lists (h.link ((l i).left p) ((l i).right q)) l (update xs i (p++q)) ∧
  m.IsChain (Linked (h.link ((l i).left p) ((l i).right q))) ∧ m.Nodup ∧
  ∀k,m.Disjoint (cells (l k) (update xs i (p++q) k)):=by
 have r:=w.each i
 have apart:=fun k hk=>w.apart i k hk
 rw[split] at r apart
 obtain ⟨cutAt,run⟩:=r.cut
 have hleft:(l i).left p∈cells (l i) (p++(m++q)):=by
  rw[cells_append]
  exact mem_append_left _ ((l i).left_mem p)
 have hright:(l i).right q∈cells (l i) (p++(m++q)):=by
  rw[cells_append,append_assoc]
  exact mem_append_right _ (mem_append_right m ((l i).right_mem q))
 refine ⟨w.replace cutAt ?_ ?_,run,?_,?_⟩
 · intro k hk c hc
   exact sameLinks_link (fun eq=>apart k (Ne.symm hk) (eq▸hleft) hc)
    (fun eq=>apart k (Ne.symm hk) (eq▸hright) hc)
 · intro k hk c hc hc'
   refine apart k (Ne.symm hk) ?_ hc'
   simp only[mem_cells,mem_append] at hc ⊢
   tauto
 · have nodup:=r.nodup
   rw[cells_append,append_assoc] at nodup
   exact nodup.of_append_right.of_append_left
 · intro k c hc hc'
   by_cases hk:k=i
   · have nodup:=r.nodup
     simp only[cells,nodup_cons,nodup_append',disjoint_left] at nodup hc'
     grind
   · rw[update_of_ne hk] at hc'
     exact apart k (Ne.symm hk) (by simp[hc]) hc'

lemma Lists.paste {l:ι→Ends α}{xs:ι→List α}(w:Lists h l xs){i:ι}{f t:α}
 (split:xs i=p++q)(run:m.IsChain (Linked h))(hm:m.Nodup)
 (fresh:∀k,m.Disjoint (cells (l k) (xs k)))(first:m.head?=some f)
 (last:m.getLast?=some t):
 Lists ((h.link ((l i).left p) f).link t ((l i).right q)) l (update xs i (p++(m++q))):=by
 have r:=w.each i
 have apart:=fun k hk=>w.apart i k hk
 have fresh':=fresh i
 rw[split] at r apart fresh'
 have hleft:(l i).left p∈cells (l i) (p++q):=by
  rw[cells_append]
  exact mem_append_left _ ((l i).left_mem p)
 have hright:(l i).right q∈cells (l i) (p++q):=by
  rw[cells_append]
  exact mem_append_right _ ((l i).right_mem q)
 have hf:f∈m:=mem_of_head? first
 have ht:t∈m:=mem_of_getLast? last
 refine w.replace (r.paste run hm fresh' first last) ?_ ?_
 · intro k hk c hc
   have away:∀d∈cells (l i) (p++q),c≠d:=fun d hd eq=>
    apart k (Ne.symm hk) hd (eq▸hc)
   have off:∀d∈m,c≠d:=fun d hd eq=>fresh k hd (eq▸hc)
   have one:=sameLinks_link (h:=h) (away _ hleft) (off f hf)
   have two:=sameLinks_link (h:=h.link ((l i).left p) f) (off t ht) (away _ hright)
   exact ⟨two.1.trans one.1,two.2.trans one.2⟩
 · intro k hk c hc hc'
   by_cases hcm:c∈m
   · exact fresh k hcm hc'
   · refine apart k (Ne.symm hk) ?_ hc'
     simp only[mem_cells,mem_append] at hc ⊢
     tauto

end Pintos.LinkedHeap
