import Mathlib.Data.Finmap
import Pintos.HashTable

/-! The hash table as a finite map. A key is a class of elements that `less` does not tell
apart; under it the map has the element that is in the table. -/
namespace Pintos.HashTable
open List Finmap

section
variable {α:Type}(o:Ops α)

def hashReplace (alloc:Bool)(h:Hash α)(e:α):Option α×Hash α:=
 let bucket:=findBucket o h e
 let old:=hashFind o h e
 match old with
 | none=>(old,rehash o alloc (insertElem h bucket e))
 | some _=>(old,rehash o alloc (insertElem (removeElem o h bucket e) bucket e))

/-- A call and, where it ends in `rehash`, whether the `malloc` there succeeds. -/
inductive Call (α:Type) where
 | insert (alloc:Bool) (new:α)
 | replace (alloc:Bool) (new:α)
 | find (e:α)
 | delete (alloc:Bool) (e:α)
 deriving DecidableEq,Repr

def perform (h:Hash α):Call α→Option α×Hash α
 | .insert alloc new=>hashInsert o alloc h new
 | .replace alloc new=>hashReplace o alloc h new
 | .find e=>(hashFind o h e,h)
 | .delete alloc e=>hashDelete o alloc h e

def performAll (h:Hash α):List (Call α) → List (Option α)×Hash α
 | []=>([],h)
 | c::cs=>
  let (r,h):=perform o h c
  let (rs,h):=performAll h cs
  (r::rs,h)

end

lemma le_turnOffLeast1bit {k n:ℕ}(low:2^k<n)(high:n<2^(k+1)):2^k≤turnOffLeast1bit n:=by
 have top:∀m,2^k ≤ m → m<2^(k+1) → m.testBit k=true:=by
  intro m hl hh
  rw[Nat.testBit_eq_decide_div_mod_eq,Nat.div_eq_of_lt_le (k:=1) (by omega) (by omega)]
  rfl
 apply Nat.ge_two_pow_of_testBit
 unfold turnOffLeast1bit
 rw[Nat.testBit_and,top n (by omega) high,top (n-1) (by omega) (by omega)]
 rfl

lemma isPowerOf2_two_pow (k:ℕ):isPowerOf2 (2^k)=true:=by
 simp[isPowerOf2,turnOffLeast1bit]

lemma two_pow_of_isPowerOf2 {n:ℕ}(h:isPowerOf2 n=true):∃k,n=2^k:=by
 simp only[isPowerOf2,Bool.and_eq_true,bne_iff_ne,beq_iff_eq] at h
 refine ⟨n.log2,?_⟩
 have low:2^n.log2≤n:=Nat.log2_self_le h.1
 have high:n<2^(n.log2+1):=Nat.lt_log2_self
 by_contra hne
 have kept:=le_turnOffLeast1bit (Nat.lt_of_le_of_ne low (Ne.symm hne)) high
 omega

lemma four_le_turnOffLeast1bit {n:ℕ}(h:4≤n)(hp:isPowerOf2 n=false):4≤turnOffLeast1bit n:=by
 have low:2^n.log2≤n:=Nat.log2_self_le (by omega)
 have high:n<2^(n.log2+1):=Nat.lt_log2_self
 have hne:2^n.log2≠n:=by
  intro he
  rw[←he,isPowerOf2_two_pow] at hp
  cases hp
 have two:2≤n.log2:=(Nat.le_log2 (by omega)).2 h
 calc 4=2^2:=rfl
   _ ≤ 2^n.log2:=Nat.pow_le_pow_right (by decide) two
   _ ≤ turnOffLeast1bit n:=le_turnOffLeast1bit (Nat.lt_of_le_of_ne low hne) high

lemma four_le_roundDown (fuel:ℕ){n:ℕ}(h:4≤n):4≤roundDown fuel n:=by
 induction fuel generalizing n with
 | zero=>exact h
 | succ fuel ih=>
  unfold roundDown
  cases hp:isPowerOf2 n with
  | true=>simpa using h
  | false=>simpa using ih (four_le_turnOffLeast1bit h hp)

def Sized (cnt:ℕ):Prop:=4≤cnt ∧ ∃k,cnt=2^k

lemma newBucketCnt_sized (elemCnt:ℕ):Sized (newBucketCnt elemCnt):=by
 unfold newBucketCnt
 dsimp only
 generalize hn:(if elemCnt/2<4 then 4 else elemCnt/2)=n
 have four:4≤n:=by
  rw[←hn]
  split<;>omega
 refine ⟨four_le_roundDown n four,?_⟩
 exact two_pow_of_isPowerOf2 (roundDown_isPowerOf2 (by omega) (Nat.le_refl n))

lemma foldl_pushFront_length {α:Type}{o:Ops α}(l:List α)(h:Hash α):
 (l.foldl (fun t e=>pushFront t (findBucket o t e) e) h).buckets.length=h.buckets.length:=by
 induction l generalizing h with
 | nil=>rfl
 | cons e l ih=>
  rw[foldl_cons,ih]
  exact length_modify ..

lemma rehash_sized {α:Type}{o:Ops α}{h:Hash α}(sized:Sized h.buckets.length)
 (alloc:Bool):Sized (rehash o alloc h).buckets.length:=by
 unfold rehash
 dsimp only
 split
 · exact sized
 cases alloc with
 | false=>exact sized
 | true=>
  rw[if_pos rfl,foldl_pushFront_length,length_replicate]
  exact newBucketCnt_sized _

structure Sound {α:Type}(o:Ops α)(h:Hash α):Prop extends WF o h where
 sized:Sized h.buckets.length

section
variable {α:Type}{o:Ops α}

lemma lawful_of_strictWeakOrder [IsStrictWeakOrder α (fun a b=>o.less a b=true)]
 (hash:∀a b,o.less a b=false → o.less b a=false → o.hash a=o.hash b):
 o.Lawful:=by
 have apart:∀a b,o.equal a b=true ↔ ¬o.less a b=true ∧ ¬o.less b a=true:=by
  simp[Ops.equal]
 have incomp:∀a b c,¬o.less a b=true ∧ ¬o.less b a=true →
   ¬o.less b c=true ∧ ¬o.less c b=true → ¬o.less a c=true ∧ ¬o.less c a=true:=
  IsStrictWeakOrder.incomp_trans
 refine ⟨fun a=>?_,fun a b c hab hbc=>?_,fun a b hab=>?_⟩
 · have irrefl:=irrefl_of (fun a b=>o.less a b=true) a
   exact (apart a a).2 ⟨irrefl,irrefl⟩
 · exact (apart a c).2 (incomp a b c ((apart a b).1 hab) ((apart b c).1 hbc))
 · obtain ⟨h₁,h₂⟩:=(apart a b).1 hab
   exact hash a b (Bool.eq_false_of_not_eq_true h₁) (Bool.eq_false_of_not_eq_true h₂)

/-- A class of elements neither of which is less than another. -/
def Ops.Key (o:Ops α):Type:=Quot (fun a b=>o.equal a b=true)

def Ops.key (o:Ops α)(e:α):o.Key:=Quot.mk _ e
noncomputable instance:DecidableEq o.Key:=Classical.decEq _

lemma key_eq_iff (lawful:o.Lawful){a b:α}:o.key a=o.key b ↔ o.equal a b=true:=by
 refine ⟨fun same=>?_,fun he=>Quot.sound he⟩
 -- being equal to `a` is a property of the class
 have lift:=congrArg (Quot.lift (o.equal a) (fun x y hxy=>?_)) same
 · exact (show o.equal a a=o.equal a b from lift)▸lawful.refl a
 · refine Bool.eq_iff_iff.2 ⟨fun h=>lawful.trans _ _ _ h hxy,fun h=>?_⟩
   exact lawful.trans _ _ _ h (by rwa[o.equal_comm])

end

section
variable {α:Type}(o:Ops α)

abbrev Map:Type:=Finmap (fun _:o.Key=>α)

/-- What a finite map answers to a call, and the map after it. -/
noncomputable def answer (m:Map o):Call α→Option α×Map o
 | .insert _ new=>
  match m.lookup (o.key new) with
  | none=>(none,m.insert (o.key new) new)
  | some old=>(some old,m)
 | .replace _ new=>(m.lookup (o.key new),m.insert (o.key new) new)
 | .find e=>(m.lookup (o.key e),m)
 | .delete _ e=>(m.lookup (o.key e),m.erase (o.key e))

noncomputable def answerAll (m:Map o):List (Call α) → List (Option α)×Map o
 | []=>([],m)
 | c::cs=>
  let (r,m):=answer o m c
  let (rs,m):=answerAll m cs
  (r::rs,m)

def Represents (l:List α)(m:Map o):Prop:=∀q x,m.lookup q=some x ↔ x∈l ∧ o.key x=q

end
variable {α:Type}{o:Ops α}{l l':List α}{m:Map o}

lemma Represents.perm (r:Represents o l m)(perm:l'.Perm l):Represents o l' m:=by
 intro q x
 rw[r q x,perm.mem_iff]

lemma Represents.cons (r:Represents o l m){e:α}
 (fresh:∀x∈l,o.key x≠o.key e):Represents o (e::l) (m.insert (o.key e) e):=by
 intro q x
 by_cases hq:q=o.key e
 · subst hq
   rw[lookup_insert,mem_cons]
   constructor
   · rintro ⟨⟩
     exact ⟨.inl rfl,rfl⟩
   · rintro ⟨rfl|hx,hk⟩
     · rfl
     · exact absurd hk (fresh x hx)
 · rw[lookup_insert_of_ne m hq,r q x,mem_cons]
   constructor
   · rintro ⟨hx,hk⟩
     exact ⟨.inr hx,hk⟩
   · rintro ⟨rfl|hx,hk⟩
     · exact absurd hk.symm hq
     · exact ⟨hx,hk⟩

lemma Represents.uncons {e:α}(r:Represents o (e::l) m)
 (fresh:∀x∈l,o.key x≠o.key e):Represents o l (m.erase (o.key e)):=by
 intro q x
 by_cases hq:q=o.key e
 · subst hq
   rw[lookup_erase]
   constructor
   · rintro ⟨⟩
   · rintro ⟨hx,hk⟩
     exact absurd hk (fresh x hx)
 · rw[lookup_erase_ne hq,r q x,mem_cons]
   constructor
   · rintro ⟨rfl|hx,hk⟩
     · exact absurd hk.symm hq
     · exact ⟨hx,hk⟩
   · rintro ⟨hx,hk⟩
     exact ⟨.inr hx,hk⟩

lemma insert_erase (q:o.Key)(e:α):(m.erase q).insert q e=m.insert q e:=by
 apply ext_lookup
 intro p
 by_cases hp:p=q
 · subst hp
   rw[lookup_insert,lookup_insert]
 · rw[lookup_insert_of_ne _ hp,lookup_insert_of_ne _ hp,lookup_erase_ne hp]

lemma erase_absent {q:o.Key}(absent:m.lookup q=none):m.erase q=m:=by
 apply ext_lookup
 intro p
 by_cases hp:p=q
 · rw[hp,lookup_erase,absent]
 · rw[lookup_erase_ne hp]

lemma Represents.card (r:Represents o l m)(distinct:(l.map o.key).Nodup):m.keys.card=l.length:=by
 have keys:m.keys=(l.map o.key).toFinset:=by
  ext q
  rw[Finmap.mem_keys,Finmap.mem_iff,List.mem_toFinset,List.mem_map]
  exact exists_congr fun x=>r q x
 rw[keys,toFinset_card_of_nodup distinct,length_map]

variable {h:Hash α}

section
variable (w:WF o h)(lawful:o.Lawful)
include w lawful

lemma WF.keys_nodup:(h.elems.map o.key).Nodup:=by
 rw[Nodup,pairwise_map]
 refine w.distinct.imp fun hab same=>?_
 rw[(key_eq_iff lawful).1 same] at hab
 cases hab

lemma WF.lookup (r:Represents o h.elems m)(e:α):hashFind o h e=m.lookup (o.key e):=by
 apply Option.ext
 intro x
 rw[w.hashFind_eq_some lawful,r,key_eq_iff lawful]

lemma WF.fresh {e:α}(absent:hashFind o h e=none)(x:α)(hx:x∈h.elems):o.key x≠o.key e:=by
 intro same
 have apart:=(w.hashFind_eq_none lawful).1 absent x hx
 rw[(key_eq_iff lawful).1 same] at apart
 cases apart

lemma WF.removeElem_absent {e x:α}(found:hashFind o h e=some x):
 hashFind o (HashTable.removeElem o h (findBucket o h e) e) e=none:=by
 obtain ⟨wf,perm⟩:=w.removeElem found
 obtain ⟨apart,-⟩:=pairwise_cons.1 ((distinct_perm perm).1 w.distinct)
 have same:=((w.hashFind_eq_some lawful).1 found).2
 refine (wf.hashFind_eq_none lawful).2 fun y hy=>?_
 by_contra he
 have:=lawful.trans x e y same (by rw[o.equal_comm];simpa using he)
 rw[apart y hy] at this
 cases this

end

lemma removeElem_sized (sized:Sized h.buckets.length)(bucket:ℕ)(e:α):
 Sized (HashTable.removeElem o h bucket e).buckets.length:=by
 rwa[HashTable.removeElem,length_modify]
lemma insertElem_sized (sized:Sized h.buckets.length)(bucket:ℕ)(e:α):
 Sized (HashTable.insertElem h bucket e).buckets.length:=by
 rwa[HashTable.insertElem,HashTable.pushFront,length_modify]

lemma Sound.add (s:Sound o h)(lawful:o.Lawful)(r:Represents o h.elems m)
 (alloc:Bool){e:α}(absent:hashFind o h e=none):
 Sound o (rehash o alloc (insertElem h (findBucket o h e) e)) ∧
  Represents o (rehash o alloc (insertElem h (findBucket o h e) e)).elems (m.insert (o.key e) e):=by
 obtain ⟨wf,perm⟩:=s.toWF.insertElem ((s.hashFind_eq_none lawful).1 absent)
 refine ⟨⟨wf.rehash alloc,rehash_sized (insertElem_sized s.sized _ e) alloc⟩,?_⟩
 exact (r.cons (s.fresh lawful absent)).perm ((wf.toPlaced.rehash alloc).2.trans perm)

lemma Sound.take (s:Sound o h)(lawful:o.Lawful)(r:Represents o h.elems m){e x:α}
 (found:hashFind o h e=some x):
 Sound o (removeElem o h (findBucket o h e) e) ∧
  Represents o (removeElem o h (findBucket o h e) e).elems (m.erase (o.key e)):=by
 obtain ⟨wf,perm⟩:=s.toWF.removeElem found
 refine ⟨⟨wf,removeElem_sized s.sized _ e⟩,?_⟩
 have same:o.key x=o.key e:=(key_eq_iff lawful).2 ((s.hashFind_eq_some lawful).1 found).2
 rw[←same]
 refine (r.perm perm.symm).uncons fun y hy=>?_
 rw[same]
 exact wf.fresh lawful (s.removeElem_absent lawful found) y hy

lemma Sound.rehash (s:Sound o h)(alloc:Bool):Sound o (rehash o alloc h):=
 ⟨s.toWF.rehash alloc,rehash_sized s.sized alloc⟩

lemma perform_refines (s:Sound o h)(lawful:o.Lawful)(r:Represents o h.elems m)(c:Call α):
 (perform o h c).1=(answer o m c).1 ∧ Sound o (perform o h c).2 ∧
  Represents o (perform o h c).2.elems (answer o m c).2:=by
 cases c with
 | insert alloc new=>
  have same:=s.lookup lawful r new
  cases found:hashFind o h new with
  | none=>
   simp only[perform,hashInsert,answer,found,←same]
   exact ⟨trivial,s.add lawful r alloc found⟩
  | some old=>
   simp only[perform,hashInsert,answer,found,←same]
   exact ⟨trivial,s.rehash alloc,r.perm (s.toPlaced.rehash alloc).2⟩
 | replace alloc new=>
  have same:=s.lookup lawful r new
  cases found:hashFind o h new with
  | none=>
   simp only[perform,hashReplace,answer,found,←same]
   exact ⟨trivial,s.add lawful r alloc found⟩
  | some old=>
   simp only[perform,hashReplace,answer,found,←same]
   obtain ⟨rest,left⟩:=s.take lawful r found
   have bucket:findBucket o (removeElem o h (findBucket o h new) new) new=
     findBucket o h new:=findBucket_modify new
   have added:=rest.add lawful left alloc (s.removeElem_absent lawful found)
   rw[bucket,insert_erase] at added
   exact ⟨trivial,added⟩
 | find e=>exact ⟨s.lookup lawful r e,s,r⟩
 | delete alloc e=>
  have same:=s.lookup lawful r e
  cases found:hashFind o h e with
  | none=>
   rw[found] at same
   simp only[perform,hashDelete,answer,found,←same]
   rw[erase_absent same.symm]
   exact ⟨trivial,s,r⟩
  | some old=>
   simp only[perform,hashDelete,answer,found,←same]
   obtain ⟨rest,left⟩:=s.take lawful r found
   exact ⟨trivial,rest.rehash alloc,left.perm (rest.toPlaced.rehash alloc).2⟩

lemma performAll_refines (s:Sound o h)(lawful:o.Lawful)(r:Represents o h.elems m)
 (cs:List (Call α)):
 (performAll o h cs).1=(answerAll o m cs).1 ∧ Sound o (performAll o h cs).2 ∧
  Represents o (performAll o h cs).2.elems (answerAll o m cs).2:=by
 induction cs generalizing h m with
 | nil=>exact ⟨rfl,s,r⟩
 | cons c cs ih=>
  obtain ⟨result,sound,represents⟩:=perform_refines s lawful r c
  obtain ⟨results,rest⟩:=ih sound represents
  exact ⟨cons_eq_cons.2 ⟨result,results⟩,rest⟩

lemma hashInit_sound:Sound o (hashInit:Hash α):=⟨hashInit_wf,Nat.le_refl 4,2,rfl⟩

theorem hash_refines_map [IsStrictWeakOrder α (fun a b=>o.less a b=true)]
 (hash:∀a b,o.less a b=false → o.less b a=false → o.hash a=o.hash b)
 (cs:List (Call α)):
 (performAll o hashInit cs).1=(answerAll o ∅ cs).1 ∧
 Sound o (performAll o hashInit cs).2 ∧
 Represents o (performAll o hashInit cs).2.elems (answerAll o ∅ cs).2 ∧
 (performAll o hashInit cs).2.elemCnt=(answerAll o ∅ cs).2.keys.card:=by
 have lawful:=lawful_of_strictWeakOrder hash
 have empty:Represents o (hashInit:Hash α).elems ∅:=by
  intro q x
  simp[hashInit,Hash.elems]
 obtain ⟨results,sound,represents⟩:=performAll_refines hashInit_sound lawful empty cs
 refine ⟨results,sound,represents,?_⟩
 rw[sound.count,represents.card (sound.keys_nodup lawful)]

def halves:Ops ℕ:=⟨fun n=>n/2,fun a b=>decide (a/2<b/2)⟩

instance:IsStrictWeakOrder ℕ (fun a b=>halves.less a b=true) where
 irrefl a:=by simp[halves]
 trans a b c:=by
  simp only[halves,decide_eq_true_eq]
  omega
 incomp_trans a b c:=by
  simp only[halves,decide_eq_true_eq]
  omega

theorem hash_refines_map_halves:(performAll halves hashInit
  [.insert true 4,.insert false 5,.replace true 5,.delete true 4,.find 4]).1=
   [none,some 4,some 4,some 5,none] ∧
 (answerAll halves ∅ [.insert true 4,.insert false 5,.replace true 5,.delete true 4,.find 4]).1=
   [none,some 4,some 4,some 5,none]:=by
 have results:(performAll halves hashInit
   [.insert true 4,.insert false 5,.replace true 5,.delete true 4,.find 4]).1=
    [none,some 4,some 4,some 5,none]:=by
  decide +kernel
 refine ⟨results,?_⟩
 rw[←(hash_refines_map (fun a b hab hba=>?_) _).1,results]
 simp only[halves,decide_eq_false_iff_not] at hab hba ⊢
 omega

end Pintos.HashTable
