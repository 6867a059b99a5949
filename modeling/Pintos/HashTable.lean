import Mathlib.Data.List.Pairwise
import Mathlib.Data.Nat.Bitwise

/-! The chained hash table of `lib/kernel/hash.c`. A bucket is the list of its
elements from front to back. -/
namespace Pintos.HashTable
open List

structure Ops (α:Type) where
 hash:α→ℕ
 less:α→α→Bool

structure Hash (α:Type) where
 elemCnt:ℕ
 buckets:List (List α)
 deriving DecidableEq,Repr

section
variable {α:Type}(o:Ops α)

def Ops.equal (a b:α):Bool:=!o.less a b && !o.less b a
def hashInit:Hash α:=⟨0,replicate 4 []⟩
def hashSize (h:Hash α):ℕ:=h.elemCnt
def findBucket (h:Hash α)(e:α):ℕ:=o.hash e &&& (h.buckets.length-1)
def findElem (bucket:List α)(e:α):Option α:=bucket.find? (fun hi=>o.equal hi e)
def turnOffLeast1bit (x:ℕ):ℕ:=x &&& (x-1)
def isPowerOf2 (x:ℕ):Bool:=x != 0 && turnOffLeast1bit x == 0

/-- The loop of `rehash` that rounds the bucket count down to a power of 2.
Every turn lowers the count, so the count itself bounds the number of turns. -/
def roundDown:ℕ→ℕ→ℕ
 | 0,n=>n
 | fuel+1,n=>if isPowerOf2 n then n else roundDown fuel (turnOffLeast1bit n)

def newBucketCnt (elemCnt:ℕ):ℕ:=
 let n:=elemCnt/2
 let n:=if n<4 then 4 else n
 roundDown n n
def pushFront (h:Hash α)(bucket:ℕ)(e:α):Hash α:={h with buckets:=h.buckets.modify bucket (e :: ·)}

/-- `alloc` tells whether the `malloc` of the new buckets succeeds. -/
def rehash (alloc:Bool)(h:Hash α):Hash α:=
 let cnt:=newBucketCnt h.elemCnt
 if cnt=h.buckets.length then h
 else if alloc then
  h.buckets.flatten.foldl (fun t e=>pushFront t (findBucket o t e) e)
   {h with buckets:=replicate cnt []}
 else h

def insertElem (h:Hash α)(bucket:ℕ)(e:α):Hash α:=pushFront {h with elemCnt:=h.elemCnt+1} bucket e
def removeElem (h:Hash α)(bucket:ℕ)(e:α):Hash α:=
 {elemCnt:=h.elemCnt-1
  buckets:=h.buckets.modify bucket (·.eraseP (fun hi=>o.equal hi e))}
def hashFind (h:Hash α)(e:α):Option α:=findElem o (h.buckets.getD (findBucket o h e) []) e

def hashInsert (alloc:Bool)(h:Hash α)(e:α):Option α×Hash α:=
 let old:=hashFind o h e
 match old with
 | none=>(old,rehash o alloc (insertElem h (findBucket o h e) e))
 | some _=>(old,rehash o alloc h)

def hashDelete (alloc:Bool)(h:Hash α)(e:α):Option α×Hash α:=
 let found:=hashFind o h e
 match found with
 | none=>(found,h)
 | some _=>(found,rehash o alloc (removeElem o h (findBucket o h e) e))

/-- A store through a pointer to the element found for `e`, which stays where it is. -/
def assign (h:Hash α)(e:α)(f:α→α):Hash α:=
 {h with
   buckets:=h.buckets.modify (findBucket o h e)
    (·.map (fun hi=>if o.equal hi e then f hi else hi))}

/-- What is left to visit: the rest of the current bucket and the buckets after it. -/
structure HashIterator (α:Type) where
 bucket:List α
 later:List (List α)

def hashFirst (h:Hash α):HashIterator α:=⟨h.buckets.headD [],h.buckets.tail⟩
def nextIn:List α → List (List α) → Option (α×HashIterator α)
 | x::xs,later=>some (x,⟨xs,later⟩)
 | [],[]=>none
 | [],b::bs=>nextIn b bs
def hashNext (i:HashIterator α):Option (α×HashIterator α):=nextIn i.bucket i.later

/-- The elements that `while (hash_next (i))` visits in its first `fuel` turns. -/
def visited:ℕ→HashIterator α→List α
 | 0,_=>[]
 | fuel+1,i=>
  match hashNext i with
  | none=>[]
  | some (x,i)=>x::visited fuel i

def Hash.elems (h:Hash α):List α:=h.buckets.flatten

end

lemma turnOffLeast1bit_lt {x:ℕ}(h:x≠0):turnOffLeast1bit x<x:=by
 have hle:turnOffLeast1bit x≤x-1:=Nat.and_le_right
 omega
lemma turnOffLeast1bit_ne_zero {x:ℕ}(h:x≠0)(hp:isPowerOf2 x=false):turnOffLeast1bit x≠0:=by
 simpa[isPowerOf2,h] using hp

lemma roundDown_ne_zero (fuel:ℕ){n:ℕ}(h:n≠0):roundDown fuel n≠0:=by
 induction fuel generalizing n with
 | zero=>exact h
 | succ fuel ih=>
  unfold roundDown
  cases hp:isPowerOf2 n with
  | true=>simpa using h
  | false=>simpa using ih (turnOffLeast1bit_ne_zero h hp)

lemma roundDown_isPowerOf2 {fuel n:ℕ}(h:n≠0)(hf:n≤fuel):isPowerOf2 (roundDown fuel n)=true:=by
 induction fuel generalizing n with
 | zero=>omega
 | succ fuel ih=>
  unfold roundDown
  cases hp:isPowerOf2 n with
  | true=>simpa using hp
  | false=>
   have hlt:=turnOffLeast1bit_lt h
   simpa using ih (turnOffLeast1bit_ne_zero h hp) (by omega)

lemma newBucketCnt_pos (elemCnt:ℕ):0<newBucketCnt elemCnt:=by
 apply Nat.pos_of_ne_zero
 apply roundDown_ne_zero
 split<;>omega

section
variable {α:Type}

lemma modify_split {l:List α}{i:ℕ}(h:i<l.length):
 ∃before b after,l=before++b::after ∧ before.length=i ∧ ∀f,l.modify i f=before++f b::after:=by
 refine ⟨l.take i,l[i],l.drop (i+1),by simp,by simp;omega,fun f=>?_⟩
 exact modify_eq_take_cons_drop h

lemma mem_flatten_iff_getD {l:List (List α)}{x:α}:x∈l.flatten ↔ ∃i,x∈l.getD i []:=by
 rw[mem_flatten]
 constructor
 · rintro ⟨b,hb,hx⟩
   obtain ⟨i,hi,rfl⟩:=mem_iff_getElem.1 hb
   exact ⟨i,by simpa[hi] using hx⟩
 · rintro ⟨i,hx⟩
   by_cases hi:i<l.length
   · exact ⟨l[i],getElem_mem hi,by simpa[hi] using hx⟩
   · simp[hi] at hx

lemma getD_modify (l:List (List α))(i j:ℕ)(f:List α→List α)(h:i<l.length):
 (l.modify i f).getD j []=if i=j then f (l.getD j []) else l.getD j []:=by
 simp only[getD_eq_getElem?_getD]
 by_cases hij:i=j
 · subst hij
   simp[h]
 · simp[hij]

lemma perm_cons_eraseP {p:α→Bool}{l:List α}{x:α}(h:l.find? p=some x):l.Perm (x::l.eraseP p):=by
 induction l with
 | nil=>simp at h
 | cons y l ih=>
  cases hp:p y with
  | true=>
   obtain rfl:y=x:=by simpa[hp] using h
   simp[hp]
  | false=>
   have hl:l.find? p=some x:=by simpa[hp] using h
   simp only[eraseP_cons,hp]
   exact ((ih hl).cons y).trans (Perm.swap x y _)

end

/-- Not being told apart by `less` is an equivalence, and such elements hash alike.
Every strict weak order has the first two. -/
structure Ops.Lawful {α:Type}(o:Ops α):Prop where
 refl:∀a,o.equal a a=true
 trans:∀a b c,o.equal a b=true → o.equal b c=true → o.equal a c=true
 hash:∀a b,o.equal a b=true → o.hash a=o.hash b

lemma Ops.equal_comm {α:Type}(o:Ops α)(a b:α):o.equal a b=o.equal b a:=Bool.and_comm _ _
instance {α:Type}(o:Ops α):Std.Symm (fun a b=>o.equal a b=false) where
 symm a b h:=by rwa[o.equal_comm]

/-- Every element is in the bucket in which it will be looked for. -/
structure Placed {α:Type}(o:Ops α)(h:Hash α):Prop where
 pos:0<h.buckets.length
 place:∀i,∀e∈h.buckets.getD i [],findBucket o h e=i

section
variable {α:Type}{o:Ops α}{h:Hash α}{cnt:ℕ}{f:List α→List α}

lemma Placed.bucket_lt (w:Placed o h)(e:α):findBucket o h e<h.buckets.length:=by
 have hle:findBucket o h e≤h.buckets.length-1:=Nat.and_le_right
 have hpos:=w.pos
 omega

lemma Placed.mem_elems (w:Placed o h){x:α}:x∈h.elems ↔ x∈h.buckets.getD (findBucket o h x) []:=by
 unfold Hash.elems
 rw[mem_flatten_iff_getD]
 constructor
 · rintro ⟨i,hx⟩
   rwa[w.place i x hx]
 · exact fun hx=>⟨_,hx⟩

lemma placed_replicate {n:ℕ}(hn:0<n):Placed o ⟨cnt,replicate n []⟩:=by
 refine ⟨by simpa using hn,fun i e he=>?_⟩
 by_cases hi:i<n<;>simp[hi] at he
lemma findBucket_modify {bucket:ℕ}(e:α):
 findBucket o ⟨cnt,h.buckets.modify bucket f⟩ e=findBucket o h e:=by
 simp[findBucket]

lemma Placed.modify (w:Placed o h){bucket:ℕ}(hb:bucket<h.buckets.length)
 (keep:∀e∈f (h.buckets.getD bucket []),findBucket o h e=bucket):
 Placed o ⟨cnt,h.buckets.modify bucket f⟩:=by
 refine ⟨by simpa using w.pos,fun i e he=>?_⟩
 rw[findBucket_modify]
 rw[getD_modify _ _ _ _ hb] at he
 by_cases hi:bucket=i
 · subst hi
   rw[if_pos rfl] at he
   exact keep e he
 · rw[if_neg hi] at he
   exact w.place i e he

lemma Placed.pushFront (w:Placed o h)(e:α):Placed o (pushFront h (findBucket o h e) e):=by
 apply w.modify (w.bucket_lt e)
 intro x hx
 rcases mem_cons.1 hx with rfl|hx
 · rfl
 · exact w.place _ x hx

lemma Placed.pushFront_elems (w:Placed o h)(e:α):
 (HashTable.pushFront h (findBucket o h e) e).elems.Perm (e::h.elems):=by
 obtain ⟨before,b,after,hl,-,hm⟩:=modify_split (w.bucket_lt e)
 unfold Hash.elems HashTable.pushFront
 rw[hm,hl]
 simp only[flatten_append,flatten_cons]
 exact perm_middle

lemma Placed.move (w:Placed o h)(l:List α):
 Placed o (l.foldl (fun t e=>HashTable.pushFront t (findBucket o t e) e) h) ∧
  (l.foldl (fun t e=>HashTable.pushFront t (findBucket o t e) e) h).elems.Perm (l++h.elems):=by
 induction l generalizing h with
 | nil=>exact ⟨w,Perm.refl _⟩
 | cons e l ih=>
  obtain ⟨placed,perm⟩:=ih (w.pushFront e)
  refine ⟨placed,perm.trans ?_⟩
  exact ((w.pushFront_elems e).append_left l).trans perm_middle

lemma Placed.rehash (w:Placed o h)(alloc:Bool):
 Placed o (rehash o alloc h) ∧ (HashTable.rehash o alloc h).elems.Perm h.elems:=by
 unfold HashTable.rehash
 dsimp only
 split
 · exact ⟨w,Perm.refl _⟩
 cases alloc with
 | false=>exact ⟨w,Perm.refl _⟩
 | true=>
  have fresh:Placed o ⟨h.elemCnt,replicate (newBucketCnt h.elemCnt) []⟩:=
   placed_replicate (newBucketCnt_pos _)
  obtain ⟨placed,perm⟩:=fresh.move h.elems
  refine ⟨placed,perm.trans ?_⟩
  simp[Hash.elems]

lemma foldl_pushFront_elemCnt (l:List α):
 (l.foldl (fun t e=>HashTable.pushFront t (findBucket o t e) e) h).elemCnt=h.elemCnt:=by
 induction l generalizing h with
 | nil=>rfl
 | cons e l ih=>exact ih

@[simp] lemma rehash_elemCnt (alloc:Bool):(HashTable.rehash o alloc h).elemCnt=h.elemCnt:=by
 unfold HashTable.rehash
 dsimp only
 split
 · rfl
 cases alloc with
 | false=>rfl
 | true=>exact foldl_pushFront_elemCnt _

end

/-- What every operation keeps: the count is right and no two elements are equal. -/
structure WF {α:Type}(o:Ops α)(h:Hash α):Prop extends Placed o h where
 count:h.elemCnt=h.elems.length
 distinct:h.elems.Pairwise (fun a b=>o.equal a b=false)
variable {α:Type}{o:Ops α}{h:Hash α}{x e:α}

lemma hashInit_wf:WF o (hashInit:Hash α):=by
 refine ⟨placed_replicate (by decide),rfl,?_⟩
 simp[hashInit,Hash.elems]

lemma WF.unique (w:WF o h){y:α}(hx:x∈h.elems)(hy:y∈h.elems)(he:o.equal x y=true):x=y:=by
 by_contra hne
 have hf:=w.distinct.forall hx hy hne
 rw[he] at hf
 cases hf

lemma distinct_perm {l l':List α}(perm:l.Perm l'):l.Pairwise (fun a b=>o.equal a b=false) ↔
  l'.Pairwise (fun a b=>o.equal a b=false):=by
 apply perm.pairwise_iff
 intro a b hab
 rwa[o.equal_comm]

section
variable (w:WF o h)
include w

lemma WF.of_perm {h':Hash α}(placed:Placed o h')
 (count:h'.elemCnt=h.elemCnt)(perm:h'.elems.Perm h.elems):WF o h':=by
 exact ⟨placed,by rw[count,w.count,perm.length_eq],(distinct_perm perm).2 w.distinct⟩
lemma WF.rehash (alloc:Bool):WF o (rehash o alloc h):=
 w.of_perm (w.toPlaced.rehash alloc).1 (rehash_elemCnt alloc) (w.toPlaced.rehash alloc).2

lemma WF.hashFind_eq_some (lawful:o.Lawful):
 hashFind o h e=some x ↔ x∈h.elems ∧ o.equal x e=true:=by
 have found:∀ {y},hashFind o h e=some y → y∈h.elems ∧ o.equal y e=true:=by
  intro y hy
  have hm:=mem_of_find?_eq_some hy
  exact ⟨mem_flatten_iff_getD.2 ⟨_,hm⟩,by simpa using find?_some hy⟩
 refine ⟨found,fun ⟨hx,he⟩=>?_⟩
 have hb:findBucket o h x=findBucket o h e:=by
  unfold findBucket
  rw[lawful.hash x e he]
 rw[w.mem_elems,hb] at hx
 cases hf:hashFind o h e with
 | none=>
  have hno:=find?_eq_none.1 hf x hx
  exact absurd he hno
 | some y=>
  obtain ⟨hy,hye⟩:=found hf
  have hxy:o.equal y x=true:=lawful.trans y e x hye (by rwa[o.equal_comm])
  rw[w.unique hy (mem_flatten_iff_getD.2 ⟨_,hx⟩) hxy]

lemma WF.hashFind_eq_none (lawful:o.Lawful):hashFind o h e=none ↔ ∀x∈h.elems,o.equal x e=false:=by
 constructor
 · intro hn x hx
   by_contra he
   rw[(w.hashFind_eq_some lawful).2 ⟨hx,by simpa using he⟩] at hn
   cases hn
 · intro hall
   cases hf:hashFind o h e with
   | none=>rfl
   | some y=>
    obtain ⟨hy,hye⟩:=(w.hashFind_eq_some lawful).1 hf
    rw[hall y hy] at hye
    cases hye

lemma WF.insertElem (fresh:∀x∈h.elems,o.equal x e=false):WF o (insertElem h (findBucket o h e) e) ∧
  (HashTable.insertElem h (findBucket o h e) e).elems.Perm (e::h.elems):=by
 have placed:=w.toPlaced.pushFront e
 have perm:(HashTable.insertElem h (findBucket o h e) e).elems.Perm (e::h.elems):=
  w.toPlaced.pushFront_elems e
 refine ⟨⟨⟨placed.pos,placed.place⟩,?_,?_⟩,perm⟩
 · rw[perm.length_eq,length_cons,←w.count]
   rfl
 · refine (distinct_perm perm).2 (pairwise_cons.2 ⟨fun x hx=>?_,w.distinct⟩)
   rw[o.equal_comm]
   exact fresh x hx

lemma WF.hashInsert_fresh (lawful:o.Lawful)(alloc:Bool)(fresh:hashFind o h e=none):
 WF o (hashInsert o alloc h e).2 ∧ (hashInsert o alloc h e).2.elems.Perm (e::h.elems):=by
 obtain ⟨wf,perm⟩:=w.insertElem ((w.hashFind_eq_none lawful).1 fresh)
 have hi:hashInsert o alloc h e=
   (none,HashTable.rehash o alloc (HashTable.insertElem h (findBucket o h e) e)):=by
  simp only[hashInsert,fresh]
 rw[hi]
 exact ⟨wf.rehash alloc,(wf.toPlaced.rehash alloc).2.trans perm⟩

lemma WF.removeElem (found:hashFind o h e=some x):WF o (removeElem o h (findBucket o h e) e) ∧
  h.elems.Perm (x::(HashTable.removeElem o h (findBucket o h e) e).elems):=by
 have placed:Placed o (HashTable.removeElem o h (findBucket o h e) e):=by
  apply w.toPlaced.modify (w.bucket_lt e)
  intro y hy
  exact w.place _ y (mem_of_mem_eraseP hy)
 have perm:h.elems.Perm (x::(HashTable.removeElem o h (findBucket o h e) e).elems):=by
  obtain ⟨before,b,after,hl,hlen,hm⟩:=modify_split (w.bucket_lt e)
  have hb:b.find? (fun hi=>o.equal hi e)=some x:=by
   have:=found
   unfold hashFind findElem at this
   rwa[hl,←hlen,getD_append_right _ _ _ _ (le_refl _),Nat.sub_self] at this
  unfold Hash.elems HashTable.removeElem
  rw[hm,hl]
  simp only[flatten_append]
  exact (((perm_cons_eraseP hb).append_right _).append_left _).trans perm_middle
 have hdist:=(distinct_perm perm).1 w.distinct
 refine ⟨⟨placed,?_,(pairwise_cons.1 hdist).2⟩,perm⟩
 have hlen:=perm.length_eq
 rw[length_cons,←w.count] at hlen
 change h.elemCnt-1=_
 omega

lemma WF.hashDelete_found (alloc:Bool)(found:hashFind o h e=some x):
 WF o (hashDelete o alloc h e).2 ∧ h.elems.Perm (x::(hashDelete o alloc h e).2.elems):=by
 obtain ⟨wf,perm⟩:=w.removeElem found
 have hd:hashDelete o alloc h e=
   (some x,HashTable.rehash o alloc (HashTable.removeElem o h (findBucket o h e) e)):=by
  simp only[hashDelete,found]
 rw[hd]
 exact ⟨wf.rehash alloc,perm.trans ((wf.toPlaced.rehash alloc).2.symm.cons x)⟩

end

@[simp] lemma hashSize_assign (e:α)(f:α→α):hashSize (assign o h e f)=hashSize h:=rfl

/-- A store through a pointer into the table changes the elements equal to the
one it points to, in place. -/
lemma WF.assign_elems (w:WF o h)(lawful:o.Lawful)(e:α)(f:α→α):
 (assign o h e f).elems=h.elems.map (fun hi=>if o.equal hi e then f hi else hi):=by
 obtain ⟨before,b,after,hl,hlen,hm⟩:=modify_split (w.bucket_lt e)
 have elsewhere:∀c∈before++after,∀x∈c,o.equal x e=false:=by
  intro c hc x hx
  by_contra he
  have hb:findBucket o h x=findBucket o h e:=by
   unfold findBucket
   rw[lawful.hash x e (by simpa using he)]
  obtain ⟨i,hi,hne⟩:∃i,h.buckets.getD i []=c ∧ i≠findBucket o h e:=by
   rcases mem_append.1 hc with hc|hc
   · obtain ⟨i,hi,rfl⟩:=mem_iff_getElem.1 hc
     refine ⟨i,?_,by omega⟩
     rw[hl,getD_append _ _ _ _ hi]
     simp[hi]
   · obtain ⟨i,hi,rfl⟩:=mem_iff_getElem.1 hc
     refine ⟨before.length+(i+1),?_,by omega⟩
     rw[hl,getD_append_right _ _ _ _ (by omega),Nat.add_sub_cancel_left]
     simp[hi]
  exact hne ((w.place i x (hi▸hx)).symm.trans hb)
 have same:∀l:List (List α),(∀c∈l,∀x∈c,o.equal x e=false) →
   l.flatten.map (fun hi=>if o.equal hi e then f hi else hi)=l.flatten:=by
  intro l hall
  conv_rhs=>rw[←List.map_id l.flatten]
  apply map_congr_left
  intro x hx
  obtain ⟨c,hc,hx⟩:=mem_flatten.1 hx
  simp[hall c hc x hx]
 unfold assign Hash.elems
 rw[hm,hl]
 simp only[flatten_append,flatten_cons,map_append]
 rw[same before (fun c hc=>elsewhere c (mem_append_left _ hc)),
  same after (fun c hc=>elsewhere c (mem_append_right _ hc))]

lemma WF.assign (w:WF o h)(lawful:o.Lawful)(e:α){f:α→α}
 (keep:∀x,o.equal x e=true → o.equal (f x) x=true):WF o (assign o h e f):=by
 have elems:=w.assign_elems lawful e f
 have alike:∀x,o.equal (if o.equal x e then f x else x) x=true:=by
  intro x
  cases hx:o.equal x e with
  | true=>simpa using keep x hx
  | false=>simpa using lawful.refl x
 refine ⟨?_,?_,?_⟩
 · apply w.toPlaced.modify (w.bucket_lt e)
   intro y hy
   obtain ⟨x,hx,rfl⟩:=List.mem_map.1 hy
   have hp:=w.place _ x hx
   unfold findBucket at hp ⊢
   rw[lawful.hash _ x (alike x),hp]
 · rw[elems,length_map,←w.count]
   rfl
 · rw[elems,pairwise_map]
   refine w.distinct.imp ?_
   intro a b hab
   by_contra he
   have hab':=lawful.trans _ _ _ (lawful.trans _ _ _
    (by rw[o.equal_comm];exact alike a) (by simpa using he)) (alike b)
   rw[hab] at hab'
   cases hab'

lemma nextIn_eq (later:List (List α))(bucket:List α):
 (nextIn bucket later=none ∧ bucket++later.flatten=[]) ∨ ∃x i,nextIn bucket later=some (x,i) ∧
   bucket++later.flatten=x::(i.bucket++i.later.flatten):=by
 induction later generalizing bucket with
 | nil=>
  cases bucket with
  | nil=>exact .inl ⟨rfl,rfl⟩
  | cons x xs=>exact .inr ⟨x,⟨xs,[]⟩,rfl,rfl⟩
 | cons b bs ih=>
  cases bucket with
  | nil=>simpa[nextIn] using ih b
  | cons x xs=>exact .inr ⟨x,⟨xs,b::bs⟩,rfl,rfl⟩

lemma visited_eq {fuel:ℕ}(i:HashIterator α)(hf:(i.bucket++i.later.flatten).length≤fuel):
 visited fuel i=i.bucket++i.later.flatten:=by
 induction fuel generalizing i with
 | zero=>
  rw[eq_nil_of_length_eq_zero (Nat.le_zero.1 hf)]
  rfl
 | succ fuel ih=>
  unfold visited hashNext
  rcases nextIn_eq i.later i.bucket with ⟨hn,he⟩|⟨x,j,hs,he⟩
  · rw[hn,he]
  · rw[he,length_cons] at hf
    rw[hs,he]
    exact congrArg (x :: ·) (ih j (by omega))

lemma hashFirst_elems (h:Hash α):(hashFirst h).bucket++(hashFirst h).later.flatten=h.elems:=by
 unfold hashFirst Hash.elems
 cases h.buckets<;>simp
lemma visited_hashFirst {fuel:ℕ}{h:Hash α}(hf:h.elems.length≤fuel):
 visited fuel (hashFirst h)=h.elems:=by
 rw[visited_eq _ (by rwa[hashFirst_elems]),hashFirst_elems]

end Pintos.HashTable
