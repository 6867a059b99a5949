import Mathlib.Data.List.SplitBy

/-! Sorting by a strict weak order when equal elements have to keep their places. -/
namespace Pintos.StableOrder
open List

variable {α:Type*}(less:α→α→Bool)

def Sorted (xs:List α):Prop:=xs.Pairwise (fun a b=>less b a=false)
def descents:List α→ℕ
 | a::b::q=>(if less b a then 1 else 0)+descents (b::q)
 | _=>0

/-- An element of `xs` has come to stand before another in `ys` only if it is less. -/
structure Rearranged (xs ys:List α):Prop where
 perm:ys.Perm xs
 placed:∀R:α→α→Prop,(∀a b,less a b=true → R a b) → xs.Pairwise R → ys.Pairwise R

/-- A pass of a natural merge sort puts out `cnt` runs, each merged from two that it found. -/
structure Passed (xs ys:List α)(cnt:ℕ):Prop extends Rearranged less xs ys where
 none:cnt=0 ↔ xs=[]
 few:descents less ys≤cnt-1
 many:2*(cnt-1)≤descents less xs

variable {less}{p q r s xs ys zs:List α}{a b c:α}

lemma Rearranged.refl (xs:List α):Rearranged less xs xs:=⟨.refl _,fun _ _ h=>h⟩
lemma Rearranged.trans (h:Rearranged less xs ys)(h':Rearranged less ys zs):Rearranged less xs zs:=
 ⟨h'.perm.trans h.perm,fun R small pairs=>h'.placed R small (h.placed R small pairs)⟩

lemma Rearranged.append (h:Rearranged less xs ys)(h':Rearranged less r s):
 Rearranged less (xs++r) (ys++s) where
 perm:=h.perm.append h'.perm
 placed R small pairs:=by
  obtain ⟨left,right,across⟩:=pairwise_append.1 pairs
  refine pairwise_append.2 ⟨h.placed R small left,h'.placed R small right,?_⟩
  intro x hx y hy
  exact across x (h.perm.subset hx) y (h'.perm.subset hy)

/-- The one step of every sort here: an element passes others that it is less than. -/
lemma Rearranged.pass (greater:∀x∈q,less b x=true):
 Rearranged less (q++[b]) (b::q) where
 perm:=(perm_append_singleton b q).symm
 placed _ small pairs:=
  pairwise_cons.2 ⟨fun x hx=>small b x (greater x hx),(pairwise_append.1 pairs).1⟩

lemma Rearranged.in_order (h:Rearranged less xs ys)(apart:less a b=false)
 (stands:[a,b].Sublist ys):[a,b].Sublist xs:=by
 have pairs:=h.placed (fun a b=>less a b=true ∨ [a,b].Sublist xs)
  (fun _ _=>Or.inl) (pairwise_iff_forall_sublist.2 fun h=>.inr h)
 rcases pairwise_iff_forall_sublist.1 pairs stands with small|stood
 · rw[apart] at small
   cases small
 · exact stood

lemma descents_append_le (less:α→α→Bool)(p q:List α):
 descents less (p++q)≤descents less p+descents less q+1:=by
 induction p with
 | nil=>simp[descents]
 | cons a p ih=>
  cases p with
  | nil=>
   cases q with
   | nil=>exact Nat.zero_le _
   | cons b q=>
    simp only[singleton_append,descents]
    split<;>omega
  | cons b p=>
   simp only[cons_append,descents] at ih ⊢
   omega

lemma descents_le_length (xs:List α):descents less xs≤xs.length:=by
 induction xs with
 | nil=>exact Nat.le_refl 0
 | cons a xs ih=>
  cases xs with
  | nil=>exact Nat.zero_le 1
  | cons b xs=>
   simp only[descents,length_cons] at ih ⊢
   split<;>omega

lemma not_sublist_swap (distinct:xs.Nodup)(stands:[a,b].Sublist xs):¬[b,a].Sublist xs:=by
 induction xs with
 | nil=>exact absurd stands (by simp)
 | cons c xs ih=>
  obtain ⟨absent,distinct⟩:=nodup_cons.1 distinct
  intro swapped
  rcases sublist_cons_iff.1 stands with inside|⟨r,hr,within⟩
  · rcases sublist_cons_iff.1 swapped with inside'|⟨r,hr,within⟩
    · exact ih distinct inside inside'
    · cases hr
      exact absent (inside.subset (by simp))
  · cases hr
    have hb:b∈xs:=within.subset (by simp)
    rcases sublist_cons_iff.1 swapped with inside'|⟨r,hr,-⟩
    · exact absent (inside'.subset (by simp))
    · cases hr
      exact absent hb

/-- A stable sort has only one result. -/
lemma Rearranged.unique (distinct:xs.Nodup)(hy:Rearranged less xs ys)
 (hz:Rearranged less xs zs)(sortedY:Sorted less ys)(sortedZ:Sorted less zs):
 ys=zs:=by
 have pairs:∀ {ws},Rearranged less xs ws → Sorted less ws →
   ws.Pairwise (fun a b=>less b a=false ∧ (less a b=true ∨ [a,b].Sublist xs)):=by
  intro ws h sorted
  rw[pairwise_iff_forall_sublist]
  intro a b stands
  refine ⟨pairwise_iff_forall_sublist.1 sorted stands,?_⟩
  cases hab:less a b with
  | true=>exact .inl rfl
  | false=>exact .inr (h.in_order hab stands)
 refine (hy.perm.trans hz.perm.symm).eq_of_pairwise ?_ (pairs hy sortedY) (pairs hz sortedZ)
 rintro a b - - ⟨hba,hab⟩ ⟨hab',hba'⟩
 rw[hab'] at hab
 rw[hba] at hba'
 have first:=hab.resolve_left Bool.false_ne_true
 have second:=hba'.resolve_left Bool.false_ne_true
 exact absurd second (not_sublist_swap distinct first)

lemma Passed.last (sorted:descents less (a::p)=0):Passed less (a::p) (a::p) 1 where
 toRearranged:=.refl _
 none:=by simp
 few:=Nat.le_of_eq sorted
 many:=Nat.zero_le _

lemma Passed.merged {cnt:ℕ}(h:Passed less r ys cnt)(found:a::p=q++r)
 (output:Rearranged less q zs)(sorted:descents less zs=0)
 (runs:r=[] ∨ descents less (a::p)=descents less r+2):
 Passed less (a::p) (zs++ys) (cnt+1) where
 toRearranged:=by
  rw[found]
  exact output.append h.toRearranged
 none:=by simp
 few:=by
  have joined:=descents_append_le less zs ys
  have few:=h.few
  by_cases empty:cnt=0
  · have rest:=h.perm
    rw[h.none.1 empty,perm_nil] at rest
    rw[rest,append_nil,sorted]
    exact Nat.zero_le _
  · omega
 many:=by
  have many:=h.many
  rcases runs with rest|runs
  · have empty:=h.none.2 rest
    omega
  · omega
variable [order:IsStrictWeakOrder α (fun a b=>less a b=true)]
include order

lemma less_asymm (h:less a b=true):less b a=false:=by
 refine eq_false_of_ne_true fun h'=>?_
 exact irrefl_of (fun a b=>less a b=true) a (order.trans a b a h h')

lemma less_of_less_of_not_less (h:less a b=true)(h':less c b=false):less a c=true:=by
 cases hac:less a c with
 | true=>rfl
 | false=>
  -- `b` and `c`, and then `a` and `b`, would be incomparable
  have hca:less c a=false:=by
   refine eq_false_of_ne_true fun hca=>?_
   have hcb:less c b=true:=order.trans c a b hca h
   rw[h'] at hcb
   cases hcb
  have hbc:less b c=false:=by
   refine eq_false_of_ne_true fun hbc=>?_
   have hac':less a c=true:=order.trans a b c h hbc
   rw[hac] at hac'
   cases hac'
  have apart:=order.incomp_trans a c b (by simp[hac,hca]) (by simp[h',hbc])
  exact absurd h apart.1

lemma not_less_trans (h:less b a=false)(h':less c b=false):less c a=false:=by
 refine eq_false_of_ne_true fun hca=>?_
 have hcb:=less_of_less_of_not_less hca h
 rw[h'] at hcb
 cases hcb

lemma sorted_iff_descents:Sorted less xs ↔ descents less xs=0:=by
 have transitive:Trans (fun a b=>less b a=false) (fun a b=>less b a=false)
   (fun a b=>less b a=false):=⟨not_less_trans⟩
 unfold Sorted
 rw[←isChain_iff_pairwise]
 induction xs with
 | nil=>simp[descents]
 | cons a xs ih=>
  cases xs with
  | nil=>simp[descents]
  | cons b xs=>
   simp only[isChain_cons_cons,ih]
   cases hba:less b a<;>simp[descents,hba]

lemma Sorted.merge (left:Sorted less p)(right:Sorted less q):
 Sorted less (p.merge q (fun a b=>!less b a)):=by
 have merged:(p.merge q (fun a b=>!less b a)).Pairwise (fun a b=>(!less b a)=true):=
  pairwise_merge (fun a b c=>?_) (fun a b=>?_) p q (by simpa[Sorted] using left)
   (by simpa[Sorted] using right)
 · simpa[Sorted] using merged
 · simpa using not_less_trans
 · cases h:less b a with
   | false=>rfl
   | true=>simp[less_asymm h]

lemma Rearranged.merge (left:Sorted less p):
 Rearranged less (p++q) (p.merge q (fun a b=>!less b a)):=by
 induction p generalizing q with
 | nil=>simpa using Rearranged.refl q
 | cons a p ihp=>
  induction q with
  | nil=>simpa using Rearranged.refl (a::p)
  | cons b q ihq=>
   rw[cons_merge_cons]
   cases hba:less b a with
   | false=>exact (Rearranged.refl [a]).append (ihp left.of_cons)
   | true=>
    have greater:∀x∈a::p,less b x=true:=by
     intro x hx
     rcases mem_cons.1 hx with rfl|hx
     · exact hba
     · exact less_of_less_of_not_less hba (rel_of_pairwise_cons left hx)
    have step:=(Rearranged.pass greater).append (.refl q)
    refine Rearranged.trans ?_ ((Rearranged.refl [b]).append ihq)
    simpa using step

end Pintos.StableOrder
