import Mathlib.Data.List.Range

/-! A queue of at most `n - 1` elements in an array of `n` cells. Elements are added at `head` and
taken at `tail`; the two are equal when it is empty. -/
namespace Pintos.RingBuffer
open List

structure Ring (α:Type)(n:ℕ) where
 buf:Fin n → α
 head:Fin n
 tail:Fin n

variable {α:Type}{n:ℕ}

def succ (p:Fin n):Fin n:=⟨(p+1)%n,Nat.mod_lt _ (Nat.zero_lt_of_lt p.isLt)⟩

section
variable (r:Ring α n)

def Ring.isEmpty:Bool:=r.head == r.tail
def Ring.isFull:Bool:=succ r.head == r.tail
def Ring.front:α:=r.buf r.tail
def Ring.pop:Ring α n:={r with tail:=succ r.tail}
def Ring.push (x:α):Ring α n:={r with buf:=Function.update r.buf r.head x,head:=succ r.head}
def Ring.length:ℕ:=if r.tail.val≤r.head then r.head-r.tail else r.head+n-r.tail
def Ring.get (i:ℕ):α:=r.buf ⟨(r.tail+i)%n,Nat.mod_lt _ (Nat.zero_lt_of_lt r.tail.isLt)⟩
def Ring.contents:List α:=(List.range r.length).map r.get

end

lemma mod_of_lt_two {a:ℕ}(h:a<2*n):a%n=if a<n then a else a-n:=by
 split_ifs with small
 · exact Nat.mod_eq_of_lt small
 · rw[Nat.mod_eq_sub_mod (Nat.le_of_not_lt small),Nat.mod_eq_of_lt (by omega)]

lemma succ_val (p:Fin n):(succ p).val=if p.val+1<n then p.val+1 else 0:=by
 have value:(succ p).val=(p+1)%n:=rfl
 rw[value,mod_of_lt_two (by omega)]
 split_ifs<;>omega
variable (r:Ring α n)

lemma length_lt:r.length<n:=by
 unfold Ring.length
 split_ifs<;>omega

lemma isEmpty_iff:r.isEmpty=true ↔ r.length=0:=by
 simp only[Ring.isEmpty,beq_iff_eq,Ring.length]
 split_ifs<;>omega

lemma isFull_iff:r.isFull=true ↔ r.length+1=n:=by
 simp only[Ring.isFull,beq_iff_eq,Fin.ext_iff,Ring.length,succ_val]
 split_ifs<;>omega

variable {r}

lemma pop_length (h:r.isEmpty=false):r.pop.length+1=r.length:=by
 have some:r.head.val≠r.tail:=by
  simpa[Ring.isEmpty,Fin.ext_iff] using h
 simp only[Ring.pop,Ring.length,succ_val]
 split_ifs<;>omega

lemma push_length (h:r.isFull=false)(x:α):(r.push x).length=r.length+1:=by
 have room:(succ r.head).val≠r.tail:=by
  simpa[Ring.isFull,Fin.ext_iff] using h
 rw[succ_val] at room
 simp only[Ring.push,Ring.length,succ_val]
 split_ifs at room ⊢<;>omega

lemma pop_get (i:ℕ):r.pop.get i=r.get (i+1):=by
 have index:((r.tail+1)%n+i)%n=(r.tail+(i+1))%n:=by
  rw[Nat.mod_add_mod,Nat.add_assoc,Nat.add_comm 1 i]
 simp only[Ring.get,Ring.pop,succ,index]

lemma contents_pop (h:r.isEmpty=false):r.contents=r.front::r.pop.contents:=by
 have first:r.get 0=r.front:=by
  simp[Ring.get,Ring.front,Nat.mod_eq_of_lt]
 rw[Ring.contents,←pop_length h,range_succ_eq_map,map_cons,List.map_map,first]
 exact congrArg _ (map_congr_left (fun i _=>(pop_get i).symm))

lemma head_eq:(r.tail+r.length)%n=r.head.val:=by
 have bound:=length_lt r
 rw[mod_of_lt_two (by omega),Ring.length]
 split_ifs<;>omega

lemma push_get (x:α){i:ℕ}(h:i≤r.length):(r.push x).get i=if i<r.length then r.get i else x:=by
 have bound:=length_lt r
 have cell:=head_eq (r:=r)
 simp only[Ring.get,Ring.push,Function.update_apply,Fin.ext_iff]
 split_ifs with same older older
 · rw[←cell,mod_of_lt_two (by omega),mod_of_lt_two (by omega)] at same
   split_ifs at same<;>omega
 · rfl
 · rfl
 · exact absurd (by rw[Nat.le_antisymm h (Nat.le_of_not_lt older),cell]) same

lemma contents_push (h:r.isFull=false)(x:α):(r.push x).contents=r.contents++[x]:=by
 rw[Ring.contents,push_length h,range_succ,map_append,map_singleton,
  push_get x (Nat.le_refl _),if_neg (Nat.lt_irrefl _),Ring.contents]
 refine congrArg (· ++ [x]) (map_congr_left ?_)
 intro i hi
 have older:i<r.length:=mem_range.1 hi
 rw[push_get x (Nat.le_of_lt older),if_pos older]

end Pintos.RingBuffer
