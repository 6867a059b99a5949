import Mathlib.Data.UInt

/-! Virtual addresses and page directories: `threads/vaddr.h`, `threads/pte.h` and
the functions of `userprog/pagedir.c` that allocate nothing. Pages are numbered. -/
namespace Pintos.Paging
open Function List

abbrev Addr:=UInt32
def pgSize:ℕ:=4096
def physBase:Addr:=0xc0000000
def isUserVaddr (a:Addr):Prop:=a<physBase
def isKernelVaddr (a:Addr):Prop:=physBase≤a
instance (a:Addr):Decidable (isUserVaddr a):=inferInstanceAs (Decidable (_<_))
instance (a:Addr):Decidable (isKernelVaddr a):=inferInstanceAs (Decidable (_≤_))
def pgOfs (a:Addr):ℕ:=a.toNat%pgSize
def pdNo (a:Addr):Fin 1024:=Fin.ofNat 1024 (a.toNat/2^22)
def ptNo (a:Addr):Fin 1024:=Fin.ofNat 1024 (a.toNat/2^12)

structure Pte where
 page:ℕ
 present:Bool
 writable:Bool
 user:Bool
 accessed:Bool
 dirty:Bool
 deriving DecidableEq,Repr

def Pte.zero:Pte:=⟨0,false,false,false,false,false⟩
def pteCreateUser (page:ℕ)(writable:Bool):Pte:=⟨page,true,writable,true,false,false⟩

structure PageTable where
 page:ℕ
 entry:Fin 1024 → Pte

/-- A page directory and the page that it is on. An entry is zero, or present and
refers to a page table. -/
structure PageDir where
 page:ℕ
 table:Fin 1024 → Option PageTable

section
variable (pd:PageDir)

/-- `lookup_page` with `create` false. -/
def lookupPage (a:Addr):Option Pte:=(pd.table (pdNo a)).map (fun pt=>pt.entry (ptNo a))

/-- The page, to which the source adds `pg_ofs`. -/
def pagedirGetPage (a:Addr):Option ℕ:=
 match lookupPage pd a with
 | some pte=>if pte.present then some pte.page else none
 | none=>none

def pagedirIsMapped (a:Addr):Bool:=(lookupPage pd a).isSome
def setEntry (a:Addr)(pt:PageTable)(pte:Pte):PageDir:=
 {pd with
   table:=update pd.table (pdNo a)
    (some {pt with entry:=update pt.entry (ptNo a) pte})}

/-- The pages that `pagedir_destroy` frees, in order. -/
def userPages:List ℕ:=
 (finRange 1024).flatMap (fun i=>
  if i.val<768 then
   match pd.table i with
   | some pt=>
    (finRange 1024).filterMap
     (fun j=>if (pt.entry j).present then some (pt.entry j).page else none)++[pt.page]
   | none=>[]
  else [])++[pd.page]

end

def KernelOnly (pd:PageDir):Prop:=∀i,i.val<768 → pd.table i=none

section
variable {pd:PageDir}{p:ℕ}

def PageTable.Has (pt:PageTable)(p:ℕ):Prop:=
 p=pt.page ∨ ∃j,(pt.entry j).present=true ∧ (pt.entry j).page=p

lemma mem_userPages:
 p∈userPages pd ↔ p=pd.page ∨ ∃i pt,i.val<768 ∧ pd.table i=some pt ∧ pt.Has p:=by
 unfold userPages PageTable.Has
 rw[mem_append,mem_singleton,or_comm]
 refine or_congr_right ?_
 rw[mem_flatMap]
 refine exists_congr fun i=>?_
 by_cases hi:i.val<768
 · rw[if_pos hi]
   cases pd.table i with
   | none=>simp[hi]
   | some pt=>
    simp only[mem_append,mem_filterMap,mem_finRange,true_and,
     mem_singleton,Option.some.injEq,hi,exists_eq_left']
    rw[or_comm]
    refine or_congr_right (exists_congr fun j=>?_)
    by_cases hj:(pt.entry j).present=true<;>simp[hj]
 · simp[hi]

lemma mem_userPages_setEntry {a:Addr}{pt:PageTable}{pte:Pte}(h:p∈userPages (setEntry pd a pt pte)):
 p∈userPages pd ∨ p=pte.page ∨ ((pdNo a).val<768 ∧ pt.Has p):=by
 rw[mem_userPages] at h
 rcases h with h|⟨i,pt',hi,ht,has⟩
 · exact .inl (mem_userPages.2 (.inl h))
 change update pd.table (pdNo a) _ i=some pt' at ht
 by_cases same:i=pdNo a
 · subst same
   rw[update_self] at ht
   obtain rfl:=Option.some.inj ht
   rcases has with has|⟨j,present,hp⟩
   · exact .inr (.inr ⟨hi,.inl has⟩)
   · by_cases hj:j=ptNo a
     · subst hj
       dsimp only at hp
       rw[update_self] at hp
       exact .inr (.inl hp.symm)
     · dsimp only at present hp
       rw[update_of_ne hj] at present hp
       exact .inr (.inr ⟨hi,.inr ⟨j,present,hp⟩⟩)
 · rw[update_of_ne same] at ht
   exact .inl (mem_userPages.2 (.inr ⟨i,pt',hi,ht,has⟩))

end

def Present (pd:PageDir)(a:Addr):Prop:=pagedirGetPage pd a≠none
instance (pd:PageDir)(a:Addr):Decidable (Present pd a):=inferInstanceAs (Decidable (_≠_))

lemma present_iff {pd:PageDir}{a:Addr}:
 Present pd a ↔ ∃pte,lookupPage pd a=some pte ∧ pte.present=true:=by
 unfold Present pagedirGetPage
 cases lookupPage pd a with
 | none=>simp
 | some pte=>cases hp:pte.present<;>simp[hp]

def UserByte (pd:PageDir)(a:Addr):Prop:=isUserVaddr a ∧ Present pd a
instance (pd:PageDir)(a:Addr):Decidable (UserByte pd a):=inferInstanceAs (Decidable (_ ∧ _))

/-- The kernel may store at `a`: with `CR0_WP` set it faults on a read-only page. -/
def Writable (pd:PageDir)(a:Addr):Prop:=
 (lookupPage pd a).any (fun pte=>pte.present && pte.writable)=true

instance (pd:PageDir)(a:Addr):Decidable (Writable pd a):=inferInstanceAs (Decidable (_=_))
def UserRange (pd:PageDir)(a:Addr)(n:ℕ):Prop:=∀i<n,UserByte pd (a+UInt32.ofNat i)
instance (pd:PageDir)(a:Addr)(n:ℕ):Decidable (UserRange pd a n):=
 inferInstanceAs (Decidable (∀i<n,_))

structure Memory where
 pd:PageDir
 byte:Addr→UInt8

/-- At `a` there is a string of `n` bytes, in mapped user memory with its terminator. -/
def StringAt (m:Memory):ℕ→Addr→Prop
 | 0,a=>UserByte m.pd a ∧ m.byte a=0
 | n+1,a=>UserByte m.pd a ∧ m.byte a≠0 ∧ StringAt m n (a+1)

variable {m:Memory}{n:ℕ}{a:Addr}

lemma StringAt.first (h:StringAt m n a):UserByte m.pd a:=by
 cases n with
 | zero | succ n=>exact h.1

lemma StringAt.bound (h:StringAt m n a):a.toNat+n<physBase.toNat:=by
 induction n generalizing a with
 | zero=>exact UInt32.lt_iff_toNat_lt.1 h.1.1
 | succ n ih=>
  have rest:=ih h.2.2
  have first:a.toNat<physBase.toNat:=UInt32.lt_iff_toNat_lt.1 h.1.1
  have top:physBase.toNat=3221225472:=rfl
  have step:(a+1).toNat=a.toNat+1:=by
   change (a.toNat+1)%2^32=_
   omega
  omega

def stackPage:PageDir where
 page:=0
 table i:=if i=767 then some ⟨1,fun j=>if j=1023 then pteCreateUser 2 true else .zero⟩
  else none

end Pintos.Paging
