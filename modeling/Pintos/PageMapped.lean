import Pintos.PageWordsMap
import Pintos.Paging

/-!
# The test whether a page is mapped

`pagedir_is_mapped` asks whether there is a table for an address. A table covers 1024 pages, comes
with the first of them that is set, and stays when they are cleared.
-/
namespace Pintos.PageWords
open ExecRuns Option

section
variable (mem:Mem)(pd:Word)

def entryOf (w:Word):Paging.Pte where
 page:=pageNo ((w &&& pteAddr)+physBase)
 present:=w &&& pteP≠0
 writable:=w &&& pteW≠0
 user:=w &&& pteU≠0
 accessed:=w &&& pteA≠0
 dirty:=w &&& pteD≠0

/-- The directory without words that the words from `pd` on stand for. -/
def pageDir:Paging.PageDir where
 page:=pageNo pd
 table i:=(tableAt mem pd i).map fun t=>⟨pageNo t,fun j=>entryOf (mem (slot t j))⟩

/-- `lookup_page` finds the same entry in both. -/
theorem Dir.lookupPage_agrees (h:Dir mem pd)(va:Word):∃pte,
 lookupPage mem pd va false none=some (pte,mem) ∧
 Paging.lookupPage (pageDir mem pd) ⟨va⟩=pte.map fun a=>entryOf (mem a):=by
 refine ⟨_,h.lookupPage_find,?_⟩
 have dir:(Paging.pdNo ⟨va⟩).val=pdNo va:=by
  rw[pdNo_eq]
  exact Nat.mod_eq_of_lt (Nat.div_lt_of_lt_mul va.isLt)
 have table:(Paging.ptNo ⟨va⟩).val=ptNo va:=(ptNo_eq va).symm
 rw[←dir,←table,Option.map_map]
 exact Option.map_map ..

end

section
variable {mem:Mem}{pd va:Word}{i:ℕ}{mem':Mem}

variable (h:Dir mem pd)
include h

lemma Dir.pagedirIsMapped_eq:pagedirIsMapped mem pd va=some (tableAt mem pd (pdNo va)).isSome:=by
 rw[pagedirIsMapped,h.lookupPage_find,map_some,isSome_map]
lemma Dir.tableAt_store {t w:Word}(ht:tableAt mem pd (pdNo va)=some t)
 (hi:i<1024):tableAt (Function.update mem (slot t (ptNo va)) w) pd i=tableAt mem pd i:=
 tableAt_congr ((h.store (pdNo_lt va) (ptNo_lt va) ht).2 i hi)

lemma Dir.pagedirClearPage_tables (call:pagedirClearPage mem pd va=some mem')
 (hi:i<1024):tableAt mem' pd i=tableAt mem pd i:=by
 rw[pagedirClearPage] at call
 split at call
 · rw[h.lookupPage_find] at call
   cases ht:tableAt mem pd (pdNo va) with
   | none=>
    rw[ht] at call
    cases call
    rfl
   | some t=>
    simp only[ht,map_some,some.injEq] at call
    split at call
    · subst call
      exact h.tableAt_store ht hi
    · rw[call]
 · cases call

lemma Dir.pagedirSetFlag_tables {flag:Word}{on:Bool}
 (call:pagedirSetFlag mem pd flag va on=some mem')(hi:i<1024):
 tableAt mem' pd i=tableAt mem pd i:=by
 rw[pagedirSetFlag,h.lookupPage_find] at call
 cases ht:tableAt mem pd (pdNo va) with
 | none=>
  rw[ht] at call
  cases call
  rfl
 | some t=>
  simp only[ht,map_some,some.injEq] at call
  subst call
  exact h.tableAt_store ht hi

lemma Dir.pagedirSetPage_tables {ram:ℕ}{initPageDir kpage:Word}
 {writable ok:Bool}{alloc:Option Word}(user:isUserVaddr va=true)(page:Page kpage)
 (fresh:∀t∈alloc,Fresh mem pd t)
 (call:pagedirSetPage ram initPageDir mem pd va kpage writable alloc=some (ok,mem'))
 (hi:i<1024):
 (tableAt mem' pd i).isSome=true ↔ (tableAt mem pd i).isSome=true ∨ (ok=true ∧ i=pdNo va):=by
 rw[pagedirSetPage] at call
 split at call
 · rw[page.vtop,bind_some] at call
   split at call
   · cases ht:tableAt mem pd (pdNo va) with
     | some t=>
      rw[h.lookupPage_present ht user,bind_some] at call
      simp only[page.pteCreateUser] at call
      split at call
      · cases call
        rw[h.tableAt_store ht hi]
        refine ⟨.inl,?_⟩
        rintro (old|⟨-,rfl⟩)
        · exact old
        · rw[ht]
          rfl
      · cases call
     | none=>
      cases alloc with
      | none=>
       rw[h.lookupPage_full ht user] at call
       cases call
       exact ⟨.inl,fun old=>old.resolve_right fun new=>Bool.false_ne_true new.1⟩
      | some t=>
       have new:=fresh t rfl
       have made:tableAt (withTable mem pd va t) pd (pdNo va)=some t:=by
        rw[h.tableAt_withTable new (pdNo_lt va),if_pos rfl]
       rw[h.lookupPage_create ht user new,bind_some] at call
       simp only[page.pteCreateUser] at call
       split at call
       · cases call
         rw[(h.grow new).tableAt_store made hi,h.tableAt_withTable new hi]
         by_cases same:i=pdNo va
         · rw[if_pos same]
           exact ⟨fun _=>.inr ⟨rfl,same⟩,fun _=>rfl⟩
         · rw[if_neg same]
           exact ⟨.inl,fun old=>old.resolve_right fun new=>same new.2⟩
       · cases call
   · cases call
 · cases call

end

section

def SetNear (va:Word)(log:List (Act×Bool)):Prop:=
 ∃upage kpage writable alloc,(.setPage upage kpage writable alloc,true)∈log ∧ pdNo va=pdNo upage

variable {ram:ℕ}{initPageDir pd:Word}{s s':State}{a:Act}{va:Word}

lemma setNear_cons {ok:Bool}{log:List (Act×Bool)}:SetNear va ((a,ok)::log) ↔ SetNear va log ∨
  ∃upage kpage writable alloc,a=.setPage upage kpage writable alloc ∧ ok=true ∧
   pdNo va=pdNo upage:=by
 constructor
 · rintro ⟨upage,kpage,writable,alloc,mem,same⟩
   rcases List.mem_cons.1 mem with eq|old
   · obtain ⟨rfl,rfl⟩:=Prod.mk.inj eq
     exact .inr ⟨upage,kpage,writable,alloc,rfl,rfl,same⟩
   · exact .inl ⟨upage,kpage,writable,alloc,old,same⟩
 · rintro (⟨upage,kpage,writable,alloc,old,same⟩ |
    ⟨upage,kpage,writable,alloc,rfl,rfl,same⟩)
   · exact ⟨upage,kpage,writable,alloc,List.mem_cons_of_mem _ old,same⟩
   · exact ⟨upage,kpage,writable,alloc,List.mem_cons_self ..,same⟩

lemma Dir.next_tables (h:Dir s.mem pd)(allowed:Allowed ram pd s a)
 (step:next ram initPageDir pd s a=some s')
 (before:(tableAt s.mem pd (pdNo va)).isSome=true ↔ SetNear va s.log):
 (tableAt s'.mem pd (pdNo va)).isSome=true ↔ SetNear va s'.log:=by
 have hi:=pdNo_lt va
 cases a with
 | setPage upage kpage writable alloc=>
  obtain ⟨-,user,page,-,-,fresh⟩:=allowed
  obtain ⟨⟨ok,mem'⟩,call,rfl⟩:=map_eq_some_iff.1 step
  rw[h.pagedirSetPage_tables user page fresh call hi,before,setNear_cons]
  simp
 | clearPage upage=>
  obtain ⟨mem',call,rfl⟩:=map_eq_some_iff.1 step
  rw[h.pagedirClearPage_tables call hi,before,setNear_cons]
  simp
 | setFlag f vpage on=>
  cases f with
  | dirty=>
   obtain ⟨mem',call,rfl⟩:=map_eq_some_iff.1 step
   rw[h.pagedirSetFlag_tables call hi,before,setNear_cons]
   simp
  | accessed=>
   obtain ⟨mem',call,rfl⟩:=map_eq_some_iff.1 step
   rw[h.pagedirSetFlag_tables call hi,before,setNear_cons]
   simp

end
variable {ram:ℕ}{initPageDir pd:Word}{mem:Mem}{s:State}{as:List Act}{va:Word}

/-- The user pages with a table are those near a page that has been set. -/
structure Tabled (pd:Word)(s:State):Prop where
 inv:Inv pd s
 tables:∀va,isUserVaddr va=true → ((tableAt s.mem pd (pdNo va)).isSome=true ↔ SetNear va s.log)

lemma run_tabled (booted:Booted mem initPageDir)(fresh:Fresh mem initPageDir pd)
 (run:Runs (next ram initPageDir pd) (Allowed ram pd)
  ⟨(pagedirCreate initPageDir mem (some pd)).2,[]⟩ as s):Tabled pd s:=by
 refine run.invariant (fun s a s' h allowed step=>?_) ?_
 · refine ⟨next_inv fresh.2.1 h.inv allowed step,fun va user=>?_⟩
   exact h.inv.dir.next_tables allowed step (h.tables va user)
 · refine ⟨pagedirCreate_inv booted fresh,fun va user=>?_⟩
   have missing:tableAt (copyPage mem pd initPageDir) pd (pdNo va)=none:=by
    apply tableAt_none
    rw[copyPage_slot fresh.1 (pdNo_lt va),booted.user _ (pdNo_user user)]
   change (tableAt (copyPage mem pd initPageDir) pd (pdNo va)).isSome=true ↔ _
   rw[missing]
   exact ⟨nofun,fun ⟨_,_,_,_,hm,_⟩=>nomatch hm⟩

/-- The two tests return, and both tell whether the page of `va` is present. -/
def Agree (mem:Mem)(pd va:Word):Prop:=
 ∃mapped page,pagedirIsMapped mem pd va=some mapped ∧ pagedirGetPage mem pd va=some page ∧
  (mapped=true ↔ page≠none) ∧ (page≠none ↔ entry mem pd va &&& pteP≠0)

lemma Inv.agree_iff (h:Inv pd s)(user:isUserVaddr va=true):Agree s.mem pd va ↔
  ((tableAt s.mem pd (pdNo va)).isSome=true ↔ lastPage va s.log≠none):=by
 have shows:=h.shows va user
 unfold Agree
 rw[h.dir.pagedirIsMapped_eq,h.dir.pagedirGetPage_eq user]
 cases hl:lastPage va s.log with
 | none=>
  rw[hl] at shows
  have absent:¬entry s.mem pd va &&& pteP≠0:=fun hn=>hn shows
  rw[if_neg absent]
  constructor
  · rintro ⟨mapped,page,⟨⟩,⟨⟩,same,-⟩
    exact same
  · exact fun same=>⟨_,_,rfl,rfl,same,iff_of_false (fun hn=>hn rfl) absent⟩
 | some kpage=>
  rw[hl] at shows
  rw[if_pos shows.1,shows.2.1,map_some]
  constructor
  · rintro ⟨mapped,page,⟨⟩,⟨⟩,same,-⟩
    exact same.trans (iff_of_true nofun nofun)
  · intro same
    refine ⟨_,_,rfl,rfl,same.trans (iff_of_true nofun nofun),?_⟩
    exact iff_of_true nofun shows.1

theorem isMapped_agrees_iff (booted:Booted mem initPageDir)(fresh:Fresh mem initPageDir pd)
 (run:Runs (next ram initPageDir pd) (Allowed ram pd)
  ⟨(pagedirCreate initPageDir mem (some pd)).2,[]⟩ as s)(user:isUserVaddr va=true):
 Agree s.mem pd va ↔ (SetNear va s.log → lastPage va s.log≠none):=by
 obtain ⟨inv,tables⟩:=run_tabled booted fresh run
 rw[←tables va user,inv.agree_iff user]
 refine ⟨fun same=>same.1,fun there=>⟨there,fun present=>?_⟩⟩
 by_contra missing
 have shows:=inv.shows va user
 obtain ⟨kpage,last⟩:=ne_none_iff_exists'.1 present
 rw[last,entry_missing (not_isSome_iff_eq_none.1 missing)] at shows
 exact shows.1 BitVec.zero_and

/-- A page that is not mapped, but is next to one that is. -/
theorem isMapped_neighbour:
 ∃s,Runs (next 0x400 0xc0100000 0xc0102000) (Allowed 0x400 0xc0102000) ⟨createdMem,[]⟩
   [.setPage 0x8048000 0xc0200000 true (some 0xc0103000)] s ∧
  isUserVaddr 0x8049000=true ∧ ¬Agree s.mem 0xc0102000 0x8049000 ∧
  pagedirIsMapped s.mem 0xc0102000 0x8049000=some true ∧
  pagedirGetPage s.mem 0xc0102000 0x8049000=some none:=by
 have found:(exec (next 0x400 0xc0100000 0xc0102000) (Allowed 0x400 0xc0102000) ⟨createdMem,[]⟩
   [.setPage 0x8048000 0xc0200000 true (some 0xc0103000)]).any
   (fun s=>pagedirIsMapped s.mem 0xc0102000 0x8049000=some true ∧
    pagedirGetPage s.mem 0xc0102000 0x8049000=some none)=true:=by
  decide +kernel
 obtain ⟨s,run,facts⟩:=exec_any found
 obtain ⟨mapped,page⟩:=of_decide_eq_true facts
 refine ⟨s,run,by decide,?_,mapped,page⟩
 rintro ⟨m,p,hm,hp,same,-⟩
 obtain rfl:=some.inj (mapped.symm.trans hm)
 obtain rfl:=some.inj (page.symm.trans hp)
 exact same.1 rfl rfl

theorem isMapped_agrees_mapped:
 ∃s,Runs (next 0x400 0xc0100000 0xc0102000) (Allowed 0x400 0xc0102000) ⟨createdMem,[]⟩
   [.setPage 0x8048000 0xc0200000 true (some 0xc0103000)] s ∧
  Agree s.mem 0xc0102000 0x8048123:=by
 have found:(exec (next 0x400 0xc0100000 0xc0102000) (Allowed 0x400 0xc0102000) ⟨createdMem,[]⟩
   [.setPage 0x8048000 0xc0200000 true (some 0xc0103000)]).any
   (fun s=>lastPage 0x8048123 s.log≠none)=true:=by
  decide +kernel
 obtain ⟨s,run,page⟩:=exec_any found
 refine ⟨s,run,?_⟩
 refine (isMapped_agrees_iff bootMem_booted (by decide +kernel) run (by decide)).2 fun _=>?_
 exact of_decide_eq_true page

end Pintos.PageWords
