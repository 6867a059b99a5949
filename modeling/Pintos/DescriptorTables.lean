import Mathlib.Data.List.Perm.Basic
import Mathlib.Data.List.Nodup

/-! Descriptor tables in the abstract: every process has slots, a slot may hold an
object, and objects are numbered as they are made. -/
namespace Pintos.DescriptorTables
open List
open Function

/-- `live` are the objects that are there, `next` is the number of the next one. Of
every process it is recorded which objects it has opened and which it has closed. -/
structure Tables where
 fds:ℕ→ℕ→Option ℕ
 live:List ℕ
 next:ℕ
 opened:ℕ→List ℕ
 closed:ℕ→List ℕ

def slots:List ℕ:=range' 2 126
lemma mem_slots {i:ℕ}:i∈slots ↔ 2 ≤ i ∧ i<128:=by
 simp[slots]
lemma slots_nodup:slots.Nodup:=nodup_range'
def setSlot (fds:ℕ→ℕ→Option ℕ)(p i:ℕ)(file:Option ℕ):ℕ→ℕ→Option ℕ:=
 update fds p (update (fds p) i file)
def openFiles (fds:ℕ→Option ℕ):List ℕ:=slots.filterMap fds

namespace Tables

def opening (T:Tables)(p i:ℕ):Tables where
 fds:=setSlot T.fds p i (some T.next)
 live:=T.next::T.live
 next:=T.next+1
 opened:=update T.opened p (T.next::T.opened p)
 closed:=T.closed

def closing (T:Tables)(p i:ℕ):Tables:=
 match T.fds p i with
 | none=>T
 | some f=>{T with
   fds:=setSlot T.fds p i none
   live:=T.live.erase f
   closed:=update T.closed p (f::T.closed p)}

def closingAll (T:Tables)(p:ℕ)(is:List ℕ):Tables:=is.foldl (·.closing p ·) T

end Tables

section
variable {fds:ℕ→ℕ→Option ℕ}{p q i j:ℕ}{file:Option ℕ}

lemma setSlot_same:setSlot fds p i file p i=file:=by
 simp[setSlot]

lemma setSlot_other (h:¬(q=p ∧ j=i)):setSlot fds p i file q j=fds q j:=by
 unfold setSlot
 by_cases hq:q=p
 · subst hq
   rw[update_self,update_of_ne fun hj=>h ⟨rfl,hj⟩]
 · rw[update_of_ne hq]

lemma setSlot_process:setSlot fds p i file p=update (fds p) i file:=update_self ..
lemma setSlot_elsewhere (h:q≠p):setSlot fds p i file q=fds q:=update_of_ne h ..

lemma setSlot_id (h:fds p i=file):setSlot fds p i file=fds:=by
 funext q j
 by_cases hq:q=p ∧ j=i
 · obtain ⟨rfl,rfl⟩:=hq
   rw[setSlot_same,h]
 · exact setSlot_other hq

lemma openFiles_fill {g:ℕ→Option ℕ}(hi:i∈slots)(empty:g i=none)(f:ℕ):
 (openFiles (update g i (some f))).Perm (f::openFiles g):=by
 obtain ⟨before,after,split⟩:=append_of_mem hi
 have nodup:=slots_nodup
 rw[split,nodup_append'] at nodup
 obtain ⟨-,tail,apart⟩:=nodup
 have frame:∀l:List ℕ,i∉l → l.filterMap (update g i (some f))=l.filterMap g:=by
  intro l hl
  refine filterMap_congr fun j hj=>update_of_ne ?_ _ _
  rintro rfl
  exact hl hj
 unfold openFiles
 rw[split,filterMap_append,filterMap_append,filterMap_cons,filterMap_cons,
  update_self,empty,frame before fun h=>apart h mem_cons_self,
  frame after (nodup_cons.1 tail).1]
 exact perm_middle

lemma openFiles_clear {g:ℕ→Option ℕ}{f:ℕ}(hi:i∈slots)(full:g i=some f):
 (openFiles g).Perm (f::openFiles (update g i none)):=by
 have back:update (update g i none) i (some f)=g:=by
  rw[update_idem,←full,update_eq_self]
 have fill:=openFiles_fill (g:=update g i none) hi (update_self ..) f
 rwa[back] at fill

end

/-- Slots hold live objects, no two the same one, and every object that a process has
opened was closed or is in a slot of it. -/
structure Inv (T:Tables):Prop where
 nodup:T.live.Nodup
 bound:∀f∈T.live,f<T.next
 range:∀p i f,T.fds p i=some f → i∈slots
 held:∀p i f,T.fds p i=some f → f∈T.live
 inj:∀p q i j f,T.fds p i=some f → T.fds q j=some f → p=q ∧ i=j
 conserved:∀p,(T.opened p).Perm (T.closed p++openFiles (T.fds p))
variable {T:Tables}{p i:ℕ}

lemma Inv.opening (h:Inv T)(hi:i∈slots)(empty:T.fds p i=none):Inv (T.opening p i):=by
 have fresh:T.next∉T.live:=fun hn=>absurd (h.bound _ hn) (Nat.lt_irrefl _)
 have slot:∀q j f,setSlot T.fds p i (some T.next) q j=some f →
   (q=p ∧ j=i ∧ f=T.next) ∨ T.fds q j=some f:=by
  intro q j f hf
  by_cases hq:q=p ∧ j=i
  · obtain ⟨rfl,rfl⟩:=hq
    rw[setSlot_same] at hf
    exact .inl ⟨rfl,rfl,(Option.some.inj hf).symm⟩
  · rw[setSlot_other hq] at hf
    exact .inr hf
 refine ⟨nodup_cons.2 ⟨fresh,h.nodup⟩,?_,?_,?_,?_,?_⟩
 · intro f hf
   rcases mem_cons.1 hf with rfl|hf
   · exact Nat.lt_succ_self _
   · exact Nat.lt_succ_of_lt (h.bound f hf)
 · intro q j f hf
   rcases slot q j f hf with ⟨-,rfl,-⟩|hf
   · exact hi
   · exact h.range q j f hf
 · intro q j f hf
   rcases slot q j f hf with ⟨-,-,rfl⟩|hf
   · exact mem_cons_self
   · exact mem_cons_of_mem _ (h.held q j f hf)
 · intro q q' j j' f hf hf'
   rcases slot q j f hf with ⟨rfl,rfl,rfl⟩|hf
   · rcases slot q' j' _ hf' with ⟨rfl,rfl,-⟩|hf'
     · exact ⟨rfl,rfl⟩
     · exact absurd (h.held q' j' _ hf') fresh
   · rcases slot q' j' f hf' with ⟨-,-,rfl⟩|hf'
     · exact absurd (h.held q j _ hf) fresh
     · exact h.inj q q' j j' f hf hf'
 · intro q
   change (update T.opened p (T.next::T.opened p) q).Perm
    (T.closed q++openFiles (setSlot T.fds p i (some T.next) q))
   by_cases hq:q=p
   · subst hq
     rw[update_self,setSlot_process]
     calc T.next::T.opened q
       _ ~ T.next::(T.closed q++openFiles (T.fds q)):=(h.conserved q).cons _
       _ ~ T.closed q++T.next::openFiles (T.fds q):=perm_middle.symm
       _ ~ _:=(openFiles_fill hi empty T.next).symm.append_left _
   · rw[update_of_ne hq,setSlot_elsewhere hq]
     exact h.conserved q

lemma Inv.closing (h:Inv T):Inv (T.closing p i):=by
 unfold Tables.closing
 split
 · exact h
 rename_i f full
 have slot:∀q j g,setSlot T.fds p i none q j=some g → T.fds q j=some g ∧ g≠f:=by
  intro q j g hg
  by_cases hq:q=p ∧ j=i
  · obtain ⟨rfl,rfl⟩:=hq
    rw[setSlot_same] at hg
    cases hg
  · rw[setSlot_other hq] at hg
    refine ⟨hg,?_⟩
    rintro rfl
    exact hq (h.inj q p j i g hg full)
 refine ⟨h.nodup.erase f,fun g hg=>h.bound g (mem_of_mem_erase hg),?_,?_,?_,?_⟩
 · exact fun q j g hg=>h.range q j g (slot q j g hg).1
 · intro q j g hg
   obtain ⟨hg,hne⟩:=slot q j g hg
   exact (mem_erase_of_ne hne).2 (h.held q j g hg)
 · exact fun q q' j j' g hg hg'=>h.inj q q' j j' g (slot q j g hg).1 (slot q' j' g hg').1
 · intro q
   change (T.opened q).Perm (update T.closed p (f::T.closed p) q ++
    openFiles (setSlot T.fds p i none q))
   by_cases hq:q=p
   · subst hq
     rw[update_self,setSlot_process]
     calc T.opened q
       _ ~ T.closed q++openFiles (T.fds q):=h.conserved q
       _ ~ T.closed q++f::openFiles (update (T.fds q) i none):=
        (openFiles_clear (h.range q i f full) full).append_left _
       _ ~ _:=perm_middle
   · rw[update_of_ne hq,setSlot_elsewhere hq]
     exact h.conserved q

lemma Inv.closingAll (h:Inv T)(is:List ℕ):Inv (T.closingAll p is):=by
 induction is generalizing T with
 | nil=>exact h
 | cons i is ih=>exact ih (T:=T.closing p i) h.closing
lemma Inv.elsewhere (h:Inv T) {live:List ℕ} {next:ℕ} (nodup:live.Nodup)
 (bound:∀f∈live,f<next) (held:∀p i f,T.fds p i=some f → f∈live):
 Inv {T with live,next}:=
 ⟨nodup,bound,h.range,held,h.inj,h.conserved⟩

variable {j:ℕ}

lemma closing_slot:(T.closing p i).fds p i=none:=by
 unfold Tables.closing
 split
 · assumption
 · exact setSlot_same

lemma closing_keeps_empty (h:T.fds p j=none):(T.closing p i).fds p j=none:=by
 unfold Tables.closing
 split
 · exact h
 · by_cases hj:j=i
   · subst hj
     exact setSlot_same
   · exact (setSlot_other fun hq=>hj hq.2).trans h

lemma closing_opened:(T.closing p i).opened=T.opened:=by
 unfold Tables.closing
 split<;>rfl
lemma closingAll_opened (is:List ℕ):(T.closingAll p is).opened=T.opened:=by
 induction is generalizing T with
 | nil=>rfl
 | cons i is ih=>exact (ih (T:=T.closing p i)).trans closing_opened

lemma closingAll_empty {is:List ℕ}(h:j∈is ∨ T.fds p j=none):(T.closingAll p is).fds p j=none:=by
 induction is generalizing T with
 | nil=>exact h.resolve_left not_mem_nil
 | cons i is ih=>
  refine ih (T:=T.closing p i) ?_
  rcases h with h|h
  · rcases mem_cons.1 h with rfl|h
    · exact .inr closing_slot
    · exact .inl h
  · exact .inr (closing_keeps_empty h)

lemma Inv.exited (h:Inv T):
 ((T.closingAll p slots).opened p).Perm ((T.closingAll p slots).closed p):=by
 have empty:openFiles ((T.closingAll p slots).fds p)=[]:=
  filterMap_eq_nil_iff.2 fun i hi=>closingAll_empty (.inl hi)
 have conserved:=(h.closingAll (p:=p) slots).conserved p
 rwa[empty,append_nil] at conserved

end Pintos.DescriptorTables
