import Mathlib.Data.List.Nodup
import Pintos.PageWords

/-!
# A page directory is a partial map

The two levels of a directory act as one array with a word for every page, zero where there is
no table. Every call changes the word of its own page only.
-/
namespace Pintos.PageWords
open ExecRuns Option
open Function (update update_self update_of_ne)

section
variable (mem:Mem)(pd:Word)

def tableAt (i:ℕ):Option Word:=
 if mem (slot pd i)=0 then none else pdeGetPt (mem (slot pd i))
def entry (va:Word):Word:=
 match tableAt mem pd (pdNo va) with
 | none=>0
 | some pt=>mem (slot pt (ptNo va))

structure Dir:Prop where
 page:Page pd
 table:∀i,i<1024 → mem (slot pd i)≠0 → ∃t,mem (slot pd i)=pdeOf t ∧ Page t ∧ t≠pd
 apart:∀i j t,i<1024 → j<1024 → tableAt mem pd i=some t → tableAt mem pd j=some t → i=j

def Fresh (t:Word):Prop:=Page t ∧ t≠pd ∧ ∀i,i<1024 → tableAt mem pd i≠some t
instance (t:Word):Decidable (Fresh mem pd t):=inferInstanceAs (Decidable (_ ∧ _ ∧ _))

end

section
variable {mem mem':Mem}{pd:Word}{i:ℕ}{t:Word}

lemma Dir.tableAt_some (h:Dir mem pd)(hi:i<1024)(ht:tableAt mem pd i=some t):
 mem (slot pd i)=pdeOf t ∧ Page t ∧ t≠pd:=by
 unfold tableAt at ht
 split at ht
 · cases ht
 · obtain ⟨u,word,page,apart⟩:=h.table i hi ‹_›
   rw[word,page.pdeGetPt] at ht
   obtain rfl:=some.inj ht
   exact ⟨word,page,apart⟩

lemma tableAt_none (h:mem (slot pd i)=0):tableAt mem pd i=none:=if_pos h

lemma Dir.tableAt_none_iff (h:Dir mem pd)(hi:i<1024):tableAt mem pd i=none ↔ mem (slot pd i)=0:=by
 refine ⟨fun none=>?_,tableAt_none⟩
 by_contra word
 obtain ⟨t,he,page,-⟩:=h.table i hi word
 rw[tableAt,if_neg word,he,page.pdeGetPt] at none
 cases none

lemma tableAt_congr {pd':Word}(same:mem' (slot pd' i)=mem (slot pd i)):
 tableAt mem' pd' i=tableAt mem pd i:=by
 unfold tableAt
 rw[same]

lemma Dir.copied {pd':Word}(h:Dir mem pd)(page:Page pd')
 (apart:∀i,i<1024 → tableAt mem pd i≠some pd')
 (same:∀i,i<1024 → mem' (slot pd' i)=mem (slot pd i)):Dir mem' pd':=by
 refine ⟨page,fun i hi word=>?_,fun i j t hi hj ht hj'=>?_⟩
 · rw[same i hi] at word ⊢
   obtain ⟨t,he,ht,-⟩:=h.table i hi word
   refine ⟨t,he,ht,fun eq=>apart i hi ?_⟩
   rw[tableAt,if_neg word,he,ht.pdeGetPt,eq]
 · rw[tableAt_congr (same i hi)] at ht
   rw[tableAt_congr (same j hj)] at hj'
   exact h.apart i j t hi hj ht hj'

lemma Dir.store (h:Dir mem pd){j:ℕ}{w:Word}(hi:i<1024)(hj:j<1024)(ht:tableAt mem pd i=some t):
 Dir (update mem (slot t j) w) pd ∧
  ∀k,k<1024 → update mem (slot t j) w (slot pd k)=mem (slot pd k):=by
 obtain ⟨-,page,apart⟩:=h.tableAt_some hi ht
 have same:∀k,k<1024 → update mem (slot t j) w (slot pd k)=mem (slot pd k):=by
  intro k hk
  refine update_of_ne (fun eq=>apart ?_) _ _
  exact (slot_inj h.page page hk hj eq).1.symm
 refine ⟨h.copied h.page (fun k hk eq=>?_) same,same⟩
 exact (h.tableAt_some hk eq).2.2 rfl

lemma Dir.store_entry (h:Dir mem pd){va w:Word}(ht:tableAt mem pd (pdNo va)=some t)(b:Word):
 entry (update mem (slot t (ptNo va)) w) pd b=if pageNo b=pageNo va then w else entry mem pd b:=by
 have same:=(h.store (w:=w) (pdNo_lt va) (ptNo_lt va) ht).2
 obtain ⟨-,page,-⟩:=h.tableAt_some (pdNo_lt va) ht
 unfold entry
 rw[tableAt_congr (same _ (pdNo_lt b))]
 by_cases number:pageNo b=pageNo va
 · obtain ⟨dir,table⟩:=pageNo_eq_iff.1 number
   rw[if_pos number,dir,table,ht]
   exact update_self ..
 · rw[if_neg number]
   cases hb:tableAt mem pd (pdNo b) with
   | none=>rfl
   | some u=>
    obtain ⟨-,page',-⟩:=h.tableAt_some (pdNo_lt b) hb
    refine update_of_ne (fun eq=>number ?_) _ _
    obtain ⟨rfl,table⟩:=slot_inj page' page (ptNo_lt b) (ptNo_lt va) eq
    exact pageNo_eq_iff.2 ⟨h.apart _ _ _ (pdNo_lt b) (pdNo_lt va) hb ht,table⟩

lemma zeroPage_slot {p:Word}(hp:Page p)(hi:i<1024):
 zeroPage mem t (slot p i)=if p=t then 0 else mem (slot p i):=by
 unfold zeroPage
 rw[slot_and_pteAddr hp hi]
def withTable (mem:Mem)(pd va t:Word):Mem:=update (zeroPage mem t) (slot pd (pdNo va)) (pdeOf t)

section
variable {va t:Word}

variable (h:Dir mem pd)(fresh:Fresh mem pd t)
include h fresh

lemma Dir.withTable_slot {k:ℕ}(hk:k<1024):
 withTable mem pd va t (slot pd k)=if k=pdNo va then pdeOf t else mem (slot pd k):=by
 unfold withTable
 by_cases hkv:k=pdNo va
 · rw[if_pos hkv,hkv,update_self]
 · have other:slot pd k≠slot pd (pdNo va):=fun eq=>
    hkv (slot_inj h.page h.page hk (pdNo_lt va) eq).2
   rw[if_neg hkv,update_of_ne other,zeroPage_slot h.page hk,if_neg fresh.2.1.symm]

lemma Dir.tableAt_withTable {k:ℕ}(hk:k<1024):
 tableAt (withTable mem pd va t) pd k=if k=pdNo va then some t else tableAt mem pd k:=by
 by_cases hkv:k=pdNo va
 · rw[tableAt,h.withTable_slot fresh hk,if_pos hkv,if_pos hkv,if_neg (pdeOf_ne_zero t),
    fresh.1.pdeGetPt]
 · rw[if_neg hkv]
   exact tableAt_congr (by rw[h.withTable_slot fresh hk,if_neg hkv])

lemma Dir.grow:Dir (withTable mem pd va t) pd:=by
 refine ⟨h.page,fun i hi word=>?_,fun i j u hi hj hu hu'=>?_⟩
 · rw[h.withTable_slot fresh hi] at word ⊢
   split at word
   · exact ⟨t,if_pos ‹_›,fresh.1,fresh.2.1⟩
   · rw[if_neg ‹_›]
     exact h.table i hi word
 · rw[h.tableAt_withTable fresh hi] at hu
   rw[h.tableAt_withTable fresh hj] at hu'
   split at hu<;>split at hu'
   · omega
   · exact absurd (hu'.trans hu.symm) (fresh.2.2 j hj)
   · exact absurd (hu.trans hu'.symm) (fresh.2.2 i hi)
   · exact h.apart i j u hi hj hu hu'

lemma Dir.withTable_other {i:ℕ}{u:Word}(hi:i<1024)(hu:tableAt mem pd i=some u){j:ℕ}(hj:j<1024):
 withTable mem pd va t (slot u j)=mem (slot u j):=by
 obtain ⟨-,page,apart⟩:=h.tableAt_some hi hu
 have notDir:slot u j≠slot pd (pdNo va):=fun eq=>
  apart (slot_inj page h.page hj (pdNo_lt va) eq).1
 rw[withTable,update_of_ne notDir,zeroPage_slot page hj,if_neg]
 rintro rfl
 exact fresh.2.2 i hi hu

lemma Dir.entry_withTable (missing:tableAt mem pd (pdNo va)=none)(b:Word):
 entry (withTable mem pd va t) pd b=entry mem pd b:=by
 unfold entry
 rw[h.tableAt_withTable fresh (pdNo_lt b)]
 by_cases hb:pdNo b=pdNo va
 · rw[if_pos hb,hb,missing]
   have notDir:slot t (ptNo b)≠slot pd (pdNo va):=fun eq=>
    fresh.2.1 (slot_inj fresh.1 h.page (ptNo_lt b) (pdNo_lt va) eq).1
   change update _ _ _ _=_
   rw[update_of_ne notDir,zeroPage_slot fresh.1 (ptNo_lt b),if_pos rfl]
 · rw[if_neg hb]
   cases hu:tableAt mem pd (pdNo b) with
   | none=>rfl
   | some u=>exact h.withTable_other fresh (pdNo_lt b) hu (ptNo_lt b)

end

end

section
variable {mem:Mem}{pd va:Word}{alloc:Option Word}

lemma Dir.lookupPage_find (h:Dir mem pd):lookupPage mem pd va false alloc=
  some ((tableAt mem pd (pdNo va)).map (fun t=>slot t (ptNo va)),mem):=by
 unfold lookupPage
 rw[if_pos ⟨h.page.ne_zero,rfl⟩]
 cases ht:tableAt mem pd (pdNo va) with
 | none=>
  rw[if_pos ((h.tableAt_none_iff (pdNo_lt va)).1 ht)]
  rfl
 | some t=>
  obtain ⟨word,page,-⟩:=h.tableAt_some (pdNo_lt va) ht
  simp only[word,if_neg (pdeOf_ne_zero t),page.pdeGetPt]
  rfl

lemma Dir.lookupPage_present (h:Dir mem pd){t:Word}
 (ht:tableAt mem pd (pdNo va)=some t)(user:isUserVaddr va=true):
 lookupPage mem pd va true alloc=some (some (slot t (ptNo va)),mem):=by
 obtain ⟨word,page,-⟩:=h.tableAt_some (pdNo_lt va) ht
 unfold lookupPage
 rw[if_pos ⟨h.page.ne_zero,by simpa using user⟩]
 simp only[word,if_neg (pdeOf_ne_zero t),page.pdeGetPt]
 rfl

lemma Dir.lookupPage_full (h:Dir mem pd)(ht:tableAt mem pd (pdNo va)=none)
 (user:isUserVaddr va=true):
 lookupPage mem pd va true none=some (none,mem):=by
 unfold lookupPage
 rw[if_pos ⟨h.page.ne_zero,by simpa using user⟩,if_pos ((h.tableAt_none_iff (pdNo_lt va)).1 ht)]
 rfl

lemma Dir.lookupPage_create (h:Dir mem pd)(ht:tableAt mem pd (pdNo va)=none)
 (user:isUserVaddr va=true){t:Word}(fresh:Fresh mem pd t):
 lookupPage mem pd va true (some t)=some (some (slot t (ptNo va)),withTable mem pd va t):=by
 unfold lookupPage
 rw[if_pos ⟨h.page.ne_zero,by simpa using user⟩,
  if_pos ((h.tableAt_none_iff (pdNo_lt va)).1 ht),if_pos rfl]
 simp only[fresh.1.pdeCreate]
 have word:withTable mem pd va t (slot pd (pdNo va))=pdeOf t:=by
  rw[h.withTable_slot fresh (pdNo_lt va),if_pos rfl]
 change (pdeGetPt (withTable mem pd va t _)).map _=_
 rw[word,fresh.1.pdeGetPt]
 rfl

end

/-- The word for the page of `va` has become `w`, and nothing else of the directory has changed
for an address. -/
structure Sets (mem mem':Mem)(pd va w:Word):Prop where
 dir:Dir mem' pd
 entry:∀b,entry mem' pd b=if pageNo b=pageNo va then w else entry mem pd b
 kernel:∀i,768 ≤ i → i<1024 → mem' (slot pd i)=mem (slot pd i)

section
variable {mem mem':Mem}{pd va w:Word}{t:Word}

lemma entry_congr {a b:Word}(same:pageNo a=pageNo b):entry mem pd a=entry mem pd b:=by
 obtain ⟨dir,table⟩:=pageNo_eq_iff.1 same
 unfold entry
 rw[dir,table]

lemma Dir.sets_refl (h:Dir mem pd)(va:Word):Sets mem mem pd va (entry mem pd va):=by
 refine ⟨h,fun b=>?_,fun i _ _=>rfl⟩
 split
 · exact entry_congr ‹_›
 · rfl

lemma Dir.sets_store (h:Dir mem pd)(ht:tableAt mem pd (pdNo va)=some t):
 Sets mem (update mem (slot t (ptNo va)) w) pd va w:=by
 obtain ⟨dir,same⟩:=h.store (w:=w) (pdNo_lt va) (ptNo_lt va) ht
 exact ⟨dir,h.store_entry ht,fun i _ hi=>same i hi⟩
lemma pdNo_user (user:isUserVaddr va=true):pdNo va<768:=by
 have low:va.toNat<3221225472:=BitVec.lt_def.1 (of_decide_eq_true user)
 rw[pdNo_eq]
 omega

lemma Dir.sets_grow (h:Dir mem pd)(user:isUserVaddr va=true)
 (missing:tableAt mem pd (pdNo va)=none)(fresh:Fresh mem pd t):
 Sets mem (update (withTable mem pd va t) (slot t (ptNo va)) w) pd va w:=by
 have made:tableAt (withTable mem pd va t) pd (pdNo va)=some t:=by
  rw[h.tableAt_withTable fresh (pdNo_lt va),if_pos rfl]
 have stored:=(h.grow fresh).sets_store (w:=w) made
 refine ⟨stored.dir,fun b=>?_,fun i low hi=>?_⟩
 · rw[stored.entry,h.entry_withTable fresh missing]
 · have other:i≠pdNo va:=by
    have:=pdNo_user user
    omega
   rw[stored.kernel i low hi,h.withTable_slot fresh hi,if_neg other]

lemma entry_eq (ht:tableAt mem pd (pdNo va)=some t):mem (slot t (ptNo va))=entry mem pd va:=by
 unfold entry
 rw[ht]
lemma entry_missing (missing:tableAt mem pd (pdNo va)=none):entry mem pd va=0:=by
 unfold entry
 rw[missing]

variable (h:Dir mem pd)
include h

lemma Dir.pagedirGetPage_eq (user:isUserVaddr va=true):pagedirGetPage mem pd va=
  if entry mem pd va &&& pteP≠0 then
   (pteGetPage (entry mem pd va)).map (fun page=>some (page+pgOfs va))
  else some none:=by
 rw[pagedirGetPage,if_pos user,h.lookupPage_find]
 cases ht:tableAt mem pd (pdNo va) with
 | none=>
  rw[entry_missing ht]
  rfl
 | some t=>
  simp only[map_some,bind_some,entry_eq ht]

lemma Dir.pagedirIsFlag_eq (flag:Word):
 pagedirIsFlag mem pd flag va=some (decide (entry mem pd va &&& flag≠0)):=by
 rw[pagedirIsFlag,h.lookupPage_find]
 cases ht:tableAt mem pd (pdNo va) with
 | none=>
  simp[entry_missing ht]
 | some t=>simp only[map_some,entry_eq ht]

lemma Dir.pagedirClearPage_sets (user:isUserVaddr va=true)(aligned:pgOfs va=0):
 ∃mem',pagedirClearPage mem pd va=some mem' ∧ Sets mem mem' pd va (entry mem pd va &&& ~~~pteP):=by
 rw[pagedirClearPage,if_pos ⟨aligned,user⟩,h.lookupPage_find]
 cases ht:tableAt mem pd (pdNo va) with
 | none=>
  refine ⟨mem,rfl,?_⟩
  have same:=h.sets_refl va
  rw[entry_missing ht] at same ⊢
  exact same
 | some t=>
  simp only[map_some,entry_eq ht]
  by_cases present:entry mem pd va &&& pteP=0
  · -- a word without the bit is what clearing the bit makes of it
    have kept:entry mem pd va &&& ~~~pteP=entry mem pd va:=by
     apply BitVec.eq_of_getLsbD_eq
     intro i hi
     have apart:=getLsbD_of_disjoint present i
     rw[BitVec.getLsbD_and,BitVec.getLsbD_not]
     cases hw:(entry mem pd va).getLsbD i with
     | false=>rfl
     | true=>simpa[hw,hi] using apart
    rw[if_neg (fun hn=>hn present),kept]
    exact ⟨mem,rfl,h.sets_refl va⟩
  · rw[if_pos present]
    exact ⟨_,rfl,h.sets_store ht⟩

lemma Dir.pagedirSetFlag_sets (flag:Word)(on:Bool):
 ∃mem' w,pagedirSetFlag mem pd flag va on=some mem' ∧ Sets mem mem' pd va w ∧
  (tableAt mem pd (pdNo va)≠none →
   w=if on then entry mem pd va ||| flag else entry mem pd va &&& ~~~flag) ∧
  (tableAt mem pd (pdNo va)=none → w=0):=by
 rw[pagedirSetFlag,h.lookupPage_find]
 cases ht:tableAt mem pd (pdNo va) with
 | none=>
  refine ⟨mem,entry mem pd va,rfl,h.sets_refl va,fun hn=>absurd rfl hn,fun _=>?_⟩
  exact entry_missing ht
 | some t=>
  simp only[map_some,entry_eq ht]
  exact ⟨_,_,rfl,h.sets_store ht,fun _=>rfl,fun hn=>by cases hn⟩

lemma Dir.pagedirSetPage_sets {ram:ℕ}{initPageDir kpage:Word}
 (writable:Bool){alloc:Option Word}(user:isUserVaddr va=true)
 (aligned:pgOfs va=0)(page:Page kpage)
 (inRam:((kpage-physBase) >>> 12).toNat<ram)(other:pd≠initPageDir)
 (absent:entry mem pd va &&& pteP=0)(fresh:∀t∈alloc,Fresh mem pd t):
 ∃ok mem',pagedirSetPage ram initPageDir mem pd va kpage writable alloc=some (ok,mem') ∧
  Sets mem mem' pd va (if ok then pteOf kpage writable else entry mem pd va):=by
 rw[pagedirSetPage,if_pos ⟨aligned,page.1,user⟩,page.vtop,bind_some,if_pos ⟨inRam,other⟩]
 cases ht:tableAt mem pd (pdNo va) with
 | some t=>
  rw[h.lookupPage_present ht user]
  simp only[bind_some,entry_eq ht,if_pos absent,page.pteCreateUser]
  exact ⟨true,_,rfl,h.sets_store ht⟩
 | none=>
  cases alloc with
  | none=>
   rw[h.lookupPage_full ht user]
   exact ⟨false,mem,rfl,h.sets_refl va⟩
  | some t=>
   have new:=fresh t rfl
   have zero:withTable mem pd va t (slot t (ptNo va)) &&& pteP=0:=by
    have made:tableAt (withTable mem pd va t) pd (pdNo va)=some t:=by
     rw[h.tableAt_withTable new (pdNo_lt va),if_pos rfl]
    rw[entry_eq made,h.entry_withTable new ht,absent]
   rw[h.lookupPage_create ht user new]
   simp only[bind_some,if_pos zero,page.pteCreateUser]
   exact ⟨true,_,rfl,h.sets_grow user ht new⟩

end

inductive Flag where
 | dirty
 | accessed
 deriving DecidableEq,Repr

def Flag.word:Flag→Word
 | .dirty=>pteD
 | .accessed=>pteA

/-- A call with, for `pagedir_set_page`, the page that `palloc_get_page` has for a table. -/
inductive Act where
 | setPage (upage kpage:Word) (writable:Bool) (alloc:Option Word)
 | clearPage (upage:Word)
 | setFlag (f:Flag) (vpage:Word) (on:Bool)
 deriving DecidableEq,Repr

def Act.page:Act→Word
 | .setPage upage _ _ _ | .clearPage upage=>upage
 | .setFlag _ vpage _=>vpage

/-- The log has the calls, the last one first, and whether they returned true. -/
structure State where
 mem:Mem
 log:List (Act×Bool)

section
variable (ram:ℕ)(initPageDir pd:Word)(s:State)

def next:Act→Option State
 | a@(.setPage upage kpage writable alloc)=>
  (pagedirSetPage ram initPageDir s.mem pd upage kpage writable alloc).map
   (fun (ok,mem)=>⟨mem,(a,ok)::s.log⟩)
 | a@(.clearPage upage)=>
  (pagedirClearPage s.mem pd upage).map (fun mem=>⟨mem,(a,false)::s.log⟩)
 | a@(.setFlag .dirty vpage on)=>
  (pagedirSetDirty s.mem pd vpage on).map (fun mem=>⟨mem,(a,false)::s.log⟩)
 | a@(.setFlag .accessed vpage on)=>
  (pagedirSetAccessed s.mem pd vpage on).map (fun mem=>⟨mem,(a,false)::s.log⟩)

/-- What the callers have to see to: a page of a user that is not present, a page of memory for
it, and a page for the table that is not in use. -/
def Allowed:Act→Prop
 | .setPage upage kpage _ alloc=>
  pgOfs upage=0 ∧ isUserVaddr upage ∧ Page kpage ∧
  ((kpage-physBase) >>> 12).toNat<ram ∧ pagedirGetPage s.mem pd upage=some none ∧
  ∀t∈alloc,Fresh s.mem pd t
 | .clearPage upage=>pgOfs upage=0 ∧ isUserVaddr upage
 | .setFlag _ _ _=>True

variable (va:Word)

/-- The page of the last successful set of the page of `va`, if no clear has followed. -/
def lastPage:List (Act×Bool) → Option Word
 | []=>none
 | (.setPage upage kpage _ _,true)::log=>
  if pageNo va=pageNo upage then some kpage else lastPage log
 | (.clearPage upage,_)::log=>if pageNo va=pageNo upage then none else lastPage log
 | _::log=>lastPage log

/-- What a flag was last set to since the page of `va` was set. -/
def lastFlag (f:Flag):List (Act×Bool) → Bool
 | []=>false
 | (.setPage upage _ _ _,true)::log=>
  if pageNo va=pageNo upage then false else lastFlag f log
 | (.setFlag g vpage on,_)::log=>
  if g=f ∧ pageNo va=pageNo vpage then on else lastFlag f log
 | _::log=>lastFlag f log

end

/-- The word that a call leaves for its page where it has found `w`. -/
def Becomes (w:Word):Act→Bool→Word→Prop
 | .setPage _ kpage writable _,true,w'=>Page kpage ∧ w'=pteOf kpage writable
 | .setPage _ _ _ _,false,w'=>w'=w
 | .clearPage _,_,w'=>w'=w &&& ~~~pteP
 | .setFlag f _ on,_,w'=>
  w'=(if on then w ||| f.word else w &&& ~~~f.word) ∨ (w=0 ∧ w'=0)

/-- What the word of a page tells: whether the page is present, and then where it is and its
flags. -/
def Shows (w:Word):Option Word → (Flag→Bool) → Prop
 | none,_=>w &&& pteP=0
 | some kpage,flag=>
  w &&& pteP≠0 ∧ pteGetPage w=some kpage ∧ ∀f:Flag,decide (w &&& f.word≠0)=flag f

section
variable {ram:ℕ}{initPageDir pd:Word}{s:State}{a:Act}

lemma Dir.setFlag_sets (h:Dir s.mem pd)(f:Flag)(vpage:Word)(on:Bool):
 ∃mem' w,next ram initPageDir pd s (.setFlag f vpage on)=
   some ⟨mem',(.setFlag f vpage on,false)::s.log⟩ ∧
  Sets s.mem mem' pd vpage w ∧
  Becomes (entry s.mem pd vpage) (.setFlag f vpage on) false w:=by
 obtain ⟨mem',w,call,sets,found,missing⟩:=h.pagedirSetFlag_sets f.word on
 refine ⟨mem',w,?_,sets,?_⟩
 · cases f with
   | dirty=>
    change (pagedirSetFlag s.mem pd Flag.dirty.word vpage on).map _=_
    rw[call]
    rfl
   | accessed=>
    change (pagedirSetFlag s.mem pd Flag.accessed.word vpage on).map _=_
    rw[call]
    rfl
 · by_cases ht:tableAt s.mem pd (pdNo vpage)=none
   · exact .inr ⟨entry_missing ht,missing ht⟩
   · exact .inl (found ht)

lemma Dir.next_sets (h:Dir s.mem pd)(other:pd≠initPageDir)(allowed:Allowed ram pd s a):
 ∃ok mem' w,next ram initPageDir pd s a=some ⟨mem',(a,ok)::s.log⟩ ∧
  Sets s.mem mem' pd a.page w ∧ Becomes (entry s.mem pd a.page) a ok w:=by
 cases a with
 | setPage upage kpage writable alloc=>
  obtain ⟨aligned,user,page,inRam,absent,fresh⟩:=allowed
  have clear:entry s.mem pd upage &&& pteP=0:=by
   rw[h.pagedirGetPage_eq user] at absent
   by_contra present
   rw[if_pos present] at absent
   obtain ⟨p,-,none⟩:=map_eq_some_iff.1 absent
   cases none
  obtain ⟨ok,mem',call,sets⟩:=
   h.pagedirSetPage_sets writable user aligned page inRam other clear fresh
  refine ⟨ok,mem',_,?_,sets,?_⟩
  · simp only[next,call,map_some]
  · cases ok with
    | true=>exact ⟨page,rfl⟩
    | false=>rfl
 | clearPage upage=>
  obtain ⟨mem',call,sets⟩:=h.pagedirClearPage_sets allowed.2 allowed.1
  refine ⟨false,mem',_,?_,sets,rfl⟩
  simp only[next,call,map_some]
 | setFlag f vpage on=>exact ⟨false,h.setFlag_sets f vpage on⟩

lemma flag_apart (f:Flag):f.word &&& pteP=0 ∧ f.word &&& pteAddr=0 ∧ f.word≠0:=by
 cases f<;>decide
lemma flags_apart {f g:Flag}(h:f≠g):f.word &&& g.word=0:=by
 cases f<;>cases g<;>first | exact absurd rfl h | decide

lemma Shows.setFlag {w:Word}{page:Option Word}{flag:Flag→Bool}
 (h:Shows w page flag)(f:Flag)(on:Bool):
 Shows (if on then w ||| f.word else w &&& ~~~f.word) page (fun g=>if f=g then on else flag g):=by
 have kept:∀m,f.word &&& m=0 → (if on then w ||| f.word else w &&& ~~~f.word) &&& m=w &&& m:=by
  intro m hm
  cases on with
  | true=>exact or_and_of_disjoint hm
  | false=>exact andNot_and_of_disjoint hm
 obtain ⟨present,address,nonzero⟩:=flag_apart f
 cases page with
 | none=>exact (kept _ present).trans h
 | some kpage=>
  obtain ⟨hp,hk,hf⟩:=h
  refine ⟨by rwa[kept _ present],?_,fun g=>?_⟩
  · rw[pteGetPage,kept _ address]
    exact hk
  · dsimp only
    by_cases hg:f=g
    · subst hg
      cases on with
      | true=>simpa[or_and_self] using nonzero
      | false=>simp[andNot_and_self]
    · rw[if_neg hg,kept _ (flags_apart hg)]
      exact hf g

lemma shows_zero {page:Option Word}{flag flag':Flag→Bool}(h:Shows 0 page flag):
 Shows 0 page flag':=by
 cases page with
 | none=>exact h
 | some kpage=>exact absurd rfl h.1

lemma Page.shows {kpage:Word}(page:Page kpage)(writable:Bool):
 Shows (pteOf kpage writable) (some kpage) (fun _=>false):=by
 refine ⟨pteOf_present kpage writable,page.pteGetPage writable,fun f=>?_⟩
 have clear:pteOf kpage writable &&& f.word=0:=by
  cases f with
  | dirty | accessed=>exact page.pteOf_flag writable (by decide) (by decide) (by decide) (by decide)
 simp[clear]

lemma Becomes.shows {w w' va:Word}{ok:Bool}{log:List (Act×Bool)}
 (h:Becomes w a ok w')(same:pageNo va=pageNo a.page)
 (before:Shows w (lastPage va log) (fun f=>lastFlag va f log)):
 Shows w' (lastPage va ((a,ok)::log)) (fun f=>lastFlag va f ((a,ok)::log)):=by
 cases a with
 | setPage upage kpage writable alloc=>
  change pageNo va=pageNo upage at same
  cases ok with
  | true=>
   obtain ⟨page,rfl⟩:=h
   simp only[lastPage,lastFlag,if_pos same]
   exact page.shows writable
  | false=>
   obtain rfl:w'=w:=h
   exact before
 | clearPage upage=>
  change pageNo va=pageNo upage at same
  obtain rfl:w'=w &&& ~~~pteP:=h
  simp only[lastPage,if_pos same]
  exact andNot_and_self
 | setFlag f vpage on=>
  change pageNo va=pageNo vpage at same
  simp only[lastFlag,same,and_true]
  rcases h with rfl|⟨rfl,rfl⟩
  · exact before.setFlag f on
  · exact shows_zero before

lemma last_other {va:Word}(ok:Bool)(log:List (Act×Bool))(other:pageNo va≠pageNo a.page):
 lastPage va ((a,ok)::log)=lastPage va log ∧ ∀f,lastFlag va f ((a,ok)::log)=lastFlag va f log:=by
 cases a with
 | setPage upage kpage writable alloc=>
  change pageNo va≠pageNo upage at other
  cases ok with
  | true=>simp only[lastPage,lastFlag,if_neg other,implies_true,and_self]
  | false=>exact ⟨rfl,fun _=>rfl⟩
 | clearPage upage=>
  exact ⟨if_neg other,fun _=>rfl⟩
 | setFlag f vpage on=>
  exact ⟨rfl,fun g=>if_neg fun both=>other both.2⟩

end

/-- The directory is well formed, and the words of user pages tell what the log does. -/
structure Inv (pd:Word)(s:State):Prop where
 dir:Dir s.mem pd
 shows:∀va,isUserVaddr va=true →
  Shows (entry s.mem pd va) (lastPage va s.log) (fun f=>lastFlag va f s.log)

variable {ram:ℕ}{initPageDir pd:Word}{mem:Mem}{s s':State}{a:Act}

lemma next_inv (other:pd≠initPageDir)(h:Inv pd s)(allowed:Allowed ram pd s a)
 (step:next ram initPageDir pd s a=some s'):Inv pd s':=by
 obtain ⟨ok,mem',w,ran,sets,becomes⟩:=h.dir.next_sets other allowed
 obtain rfl:=some.inj (step.symm.trans ran)
 refine ⟨sets.dir,fun va user=>?_⟩
 rw[sets.entry]
 by_cases same:pageNo va=pageNo a.page
 · rw[if_pos same]
   have before:=h.shows va user
   rw[entry_congr same] at before
   exact becomes.shows same before
 · obtain ⟨page,flag⟩:=last_other ok s.log same
   rw[if_neg same,page,funext flag]
   exact h.shows va user

/-- A directory in which only the kernel is mapped, such as `init_page_dir`. -/
structure Booted (mem:Mem)(initPageDir:Word):Prop where
 dir:Dir mem initPageDir
 user:∀i,i<768 → mem (slot initPageDir i)=0

lemma copyPage_slot (hp:Page pd){i:ℕ}(hi:i<1024):
 copyPage mem pd initPageDir (slot pd i)=mem (slot initPageDir i):=by
 unfold copyPage
 rw[slot_and_pteAddr hp hi,if_pos rfl]
 rw[slot,BitVec.add_comm pd,BitVec.add_sub_cancel]
 rfl

lemma pagedirCreate_inv (booted:Booted mem initPageDir)(fresh:Fresh mem initPageDir pd):
 Inv pd ⟨(pagedirCreate initPageDir mem (some pd)).2,[]⟩:=by
 have same:∀i,i<1024 →
   copyPage mem pd initPageDir (slot pd i)=mem (slot initPageDir i):=fun i hi=>
  copyPage_slot fresh.1 hi
 refine ⟨booted.dir.copied fresh.1 fresh.2.2 same,fun va user=>?_⟩
 have missing:tableAt (copyPage mem pd initPageDir) pd (pdNo va)=none:=by
  apply tableAt_none
  rw[same _ (pdNo_lt va),booted.user _ (pdNo_user user)]
 change entry (copyPage mem pd initPageDir) pd va &&& pteP=0
 rw[entry_missing missing]
 exact BitVec.zero_and

theorem pagedir_is_map (booted:Booted mem initPageDir)(fresh:Fresh mem initPageDir pd){as:List Act}
 (run:Runs (next ram initPageDir pd) (Allowed ram pd)
  ⟨(pagedirCreate initPageDir mem (some pd)).2,[]⟩ as s):
 (∀va,isUserVaddr va=true → pagedirGetPage s.mem pd va=
  some ((lastPage va s.log).map (fun kpage=>kpage+pgOfs va))) ∧
 (∀va,isUserVaddr va=true → lastPage va s.log≠none →
  pagedirIsDirty s.mem pd va=some (lastFlag va .dirty s.log) ∧
  pagedirIsAccessed s.mem pd va=some (lastFlag va .accessed s.log)) ∧
 ∀a,Allowed ram pd s a → ∃ok mem',next ram initPageDir pd s a=some ⟨mem',(a,ok)::s.log⟩ ∧
  (∀va,pageNo va≠pageNo a.page → entry mem' pd va=entry s.mem pd va) ∧
  (∀i,768 ≤ i → i<1024 → mem' (slot pd i)=s.mem (slot pd i)) ∧
  (∀upage kpage writable alloc,a=.setPage upage kpage writable alloc → ok=false →
   ∀va,entry mem' pd va=entry s.mem pd va):=by
 have other:pd≠initPageDir:=fresh.2.1
 have inv:Inv pd s:=run.invariant (fun _ _ _ hi allowed step=>next_inv other hi allowed step)
  (pagedirCreate_inv booted fresh)
 refine ⟨fun va user=>?_,fun va user present=>?_,fun a allowed=>?_⟩
 · have shows:=inv.shows va user
   rw[inv.dir.pagedirGetPage_eq user]
   cases hl:lastPage va s.log with
   | none=>
    rw[hl] at shows
    rw[if_neg (fun hn=>hn shows)]
    rfl
   | some kpage=>
    rw[hl] at shows
    rw[if_pos shows.1,shows.2.1]
    rfl
 · have shows:=inv.shows va user
   obtain ⟨kpage,hl⟩:=ne_none_iff_exists'.1 present
   rw[hl] at shows
   rw[pagedirIsDirty,pagedirIsAccessed,inv.dir.pagedirIsFlag_eq,inv.dir.pagedirIsFlag_eq]
   exact ⟨congrArg some (shows.2.2 .dirty),congrArg some (shows.2.2 .accessed)⟩
 · obtain ⟨ok,mem',w,ran,sets,becomes⟩:=inv.dir.next_sets other allowed
   refine ⟨ok,mem',ran,fun va hn=>by rw[sets.entry,if_neg hn],sets.kernel,?_⟩
   rintro upage kpage writable alloc rfl rfl va
   obtain rfl:w=entry s.mem pd upage:=becomes
   rw[sets.entry]
   split
   · exact (entry_congr ‹_›).symm
   · rfl

variable {vaddr:Word}{b b':Boot}{inText:Word→Bool}

/-- The loop of `paging_init` makes tables of fresh pages, for kernel addresses only. -/
structure BootInv (pd:Word)(b:Boot):Prop where
 booted:Booted b.mem pd
 pages:∀t∈b.pages,Fresh b.mem pd t
 nodup:b.pages.Nodup
 table:∀pt,b.pt=some pt → ∃i,i<1024 ∧ tableAt b.mem pd i=some pt

lemma bootTable_inv (h:BootInv pd b)(kernel:physBase≤vaddr)
 (step:bootTable pd vaddr b=some b'):BootInv pd b':=by
 unfold bootTable at step
 split at step
 · cases hl:b.pages with
   | nil=>
    simp only[hl] at step
    cases step
   | cons t rest=>
    have fresh:=h.pages t (by simp[hl])
    have nodup:=h.nodup
    rw[hl,List.nodup_cons] at nodup
    simp only[hl,fresh.1.pdeCreate,map_some,some.injEq] at step
    subst step
    have dir:=h.booted.dir
    have at_:∀i,i<1024 → tableAt (withTable b.mem pd vaddr t) pd i=
      if i=pdNo vaddr then some t else tableAt b.mem pd i:=fun i hi=>
     dir.tableAt_withTable fresh hi
    refine ⟨⟨dir.grow fresh,fun i hi=>?_⟩,fun u hu=>?_,nodup.2,fun pt hpt=>?_⟩
    · have high:768≤pdNo vaddr:=by
       have:=BitVec.le_def.1 kernel
       rw[pdNo_eq]
       change 3221225472≤_ at this
       omega
      change withTable b.mem pd vaddr t (slot pd i)=0
      rw[dir.withTable_slot fresh (by omega),if_neg (by omega),h.booted.user i hi]
    · obtain ⟨page,apart,unused⟩:=h.pages u (by simp[hl,hu])
      refine ⟨page,apart,fun i hi=>?_⟩
      change tableAt (withTable b.mem pd vaddr t) pd i≠some u
      rw[at_ i hi]
      split
      · rintro ⟨⟩
        exact nodup.1 hu
      · exact unused i hi
    · obtain rfl:=some.inj hpt
      exact ⟨pdNo vaddr,pdNo_lt vaddr,(at_ _ (pdNo_lt vaddr)).trans (if_pos rfl)⟩
 · cases step
   exact h

lemma bootPage_inv {page:ℕ}(h:BootInv pd b)(step:bootPage inText pd b page=some b'):
 BootInv pd b':=by
 obtain ⟨vaddr,-,step⟩:=bind_eq_some_iff.1 step
 obtain ⟨c,made,step⟩:=bind_eq_some_iff.1 step
 obtain ⟨pt,hpt,step⟩:=bind_eq_some_iff.1 step
 obtain ⟨pte,created,rfl⟩:=map_eq_some_iff.1 step
 have kernel:physBase≤vaddr:=by
  by_contra low
  simp[pteCreateKernel,vtop,low] at created
 have inv:=bootTable_inv h kernel made
 obtain ⟨i,hi,ht⟩:=inv.table pt hpt
 obtain ⟨dir,same⟩:=inv.booted.dir.store (w:=pte) hi (ptNo_lt vaddr) ht
 have tables:∀k,k<1024 → _:=fun k hk=>tableAt_congr (same k hk)
 refine ⟨⟨dir,fun k hk=>?_⟩,fun t ht=>?_,inv.nodup,fun u hu=>?_⟩
 · exact (same k (by omega)).trans (inv.booted.user k hk)
 · obtain ⟨page,apart,unused⟩:=inv.pages t ht
   exact ⟨page,apart,fun k hk=>by rw[tables k hk];exact unused k hk⟩
 · obtain ⟨k,hk,hu⟩:=inv.table u hu
   exact ⟨k,hk,(tables k hk).trans hu⟩

lemma boot_run_inv {l:List ℕ}(h:BootInv pd b)
 (run:l.foldlM (bootPage inText pd) b=some b'):BootInv pd b':=by
 induction l generalizing b with
 | nil=>
  cases run
  exact h
 | cons page l ih=>
  rw[List.foldlM_cons] at run
  obtain ⟨c,first,rest⟩:=bind_eq_some_iff.1 run
  exact ih (bootPage_inv h first) rest

lemma pagingInit_booted {ram:ℕ}{mem mem':Mem}{pages:List Word}(page:Page pd)
 (fresh:∀t∈pages,Page t ∧ t≠pd)(nodup:pages.Nodup)
 (boot:pagingInit ram inText mem pd pages=some mem'):Booted mem' pd:=by
 obtain ⟨b,run,rfl⟩:=map_eq_some_iff.1 boot
 have zero:∀i,i<1024 → zeroPage mem pd (slot pd i)=0:=by
  intro i hi
  rw[zeroPage_slot page hi,if_pos rfl]
 have none:∀i,i<1024 → tableAt (zeroPage mem pd) pd i=none:=fun i hi=>
  tableAt_none (zero i hi)
 refine (boot_run_inv ⟨⟨⟨page,?_,?_⟩,?_⟩,?_,nodup,?_⟩ run).booted
 · exact fun i hi word=>absurd (zero i hi) word
 · intro i j t hi _ ht
   rw[none i hi] at ht
   cases ht
 · exact fun i hi=>zero i (by omega)
 · intro t ht
   refine ⟨(fresh t ht).1,(fresh t ht).2,fun i hi=>?_⟩
   rw[none i hi]
   simp
 · rintro pt ⟨⟩

instance (ram:ℕ)(pd:Word)(s:State):(a:Act) → Decidable (Allowed ram pd s a)
 | .setPage _ _ _ none=>decidable_of_iff (_ ∧ _ ∧ Page _ ∧ _ ∧ pagedirGetPage _ _ _=some none)
   (by simp[Allowed];rfl)
 | .setPage _ _ _ (some t)=>decidable_of_iff
   (_ ∧ _ ∧ Page _ ∧ _ ∧ pagedirGetPage _ _ _=some none ∧ Fresh s.mem pd t)
   (by simp[Allowed];rfl)
 | .clearPage _=>inferInstanceAs (Decidable (_ ∧ _))
 | .setFlag _ _ _=>.isTrue trivial

def bootMem:Mem:=((pagingInit 2 (fun _=>false) (fun _=>0) 0xc0100000 [0xc0101000]).getD (fun _=>0))

lemma bootMem_booted:Booted bootMem 0xc0100000:=by
 have done:(pagingInit 2 (fun _=>false) (fun _=>0) 0xc0100000 [0xc0101000]).isSome:=by
  decide +kernel
 obtain ⟨mem,hm⟩:=isSome_iff_exists.1 done
 have whole:bootMem=mem:=by
  unfold bootMem
  rw[hm]
  rfl
 rw[whole]
 refine pagingInit_booted (by decide) (fun t ht=>?_) (by decide) hm
 obtain rfl:=List.mem_singleton.1 ht
 decide

def createdMem:Mem:=(pagedirCreate 0xc0100000 bootMem (some 0xc0102000)).2

theorem pagedir_is_map_mapped:
 ∃s,Runs (next 0x400 0xc0100000 0xc0102000) (Allowed 0x400 0xc0102000) ⟨createdMem,[]⟩
   [.setPage 0x8048000 0xc0200000 true (some 0xc0103000),.setFlag .dirty 0x8048000 true] s ∧
  pagedirGetPage s.mem 0xc0102000 0x8048123=some (some 0xc0200123) ∧
  pagedirIsDirty s.mem 0xc0102000 0x8048123=some true:=by
 have found:(exec (next 0x400 0xc0100000 0xc0102000) (Allowed 0x400 0xc0102000) ⟨createdMem,[]⟩
   [.setPage 0x8048000 0xc0200000 true (some 0xc0103000),.setFlag .dirty 0x8048000 true]).any
   (fun s=>lastPage 0x8048123 s.log=some 0xc0200000 ∧ lastFlag 0x8048123 .dirty s.log=true)=true:=by
  decide +kernel
 obtain ⟨s,run,facts⟩:=exec_any found
 obtain ⟨page,flag⟩:=of_decide_eq_true facts
 obtain ⟨get,bits,-⟩:=pagedir_is_map bootMem_booted (by decide +kernel) run
 have user:isUserVaddr 0x8048123=true:=by decide
 refine ⟨s,run,?_,?_⟩
 · rw[get _ user,page]
   decide
 · rw[(bits _ user (by rw[page];simp)).1,flag]

/-- The functions for the flags take the pages of the kernel too. -/
theorem setDirty_changes_kernel:
 ∃s,Runs (next 0x400 0xc0100000 0xc0102000) (Allowed 0x400 0xc0102000) ⟨createdMem,[]⟩
   [.setFlag .dirty 0xc0001000 true] s ∧
  entry createdMem 0xc0102000 0xc0001000=0x1003 ∧
  entry s.mem 0xc0102000 0xc0001000=0x1043:=by
 have found:(exec (next 0x400 0xc0100000 0xc0102000) (Allowed 0x400 0xc0102000) ⟨createdMem,[]⟩
   [.setFlag .dirty 0xc0001000 true]).any
   (fun s=>entry s.mem 0xc0102000 0xc0001000=0x1043)=true:=by
  decide +kernel
 obtain ⟨s,run,changed⟩:=exec_any found
 exact ⟨s,run,by decide +kernel,of_decide_eq_true changed⟩

end Pintos.PageWords
