import Pintos.PageMaps
import Pintos.Spawning

/-!
# Page faults of user code

What `page_fault` does about a write to a page that is not present, in the kernel that runs a
process.
-/
namespace Pintos.PageFault
open ExecHoare Interaction Paging PageMaps PagePools Process Syscall Spawning Option

def pfP:UInt32:=0x1
def pfW:UInt32:=0x2
def pfU:UInt32:=0x4

/-- `page_fault` with the error code of an access of user code. -/
def pageFaultWith (faultAddr:Addr)(errorCode:UInt32):Proc Unit:=
 pageFault faultAddr (decide (errorCode &&& pfP=0)) (decide (errorCode &&& pfW≠0))

def UserWrite (errorCode:UInt32):Prop:=
 errorCode &&& pfP=0 ∧ errorCode &&& pfW≠0 ∧ errorCode &&& pfU≠0
instance (errorCode:UInt32):Decidable (UserWrite errorCode):=
 inferInstanceAs (Decidable (_ ∧ _ ∧ _))

section
variable {a:Addr}

/-- The remainder has the sign of the address, so in the upper half the address is rounded up. -/
lemma toNat_faultPage (a:Addr):(faultPage a).toNat=if a.toNat<2^31 ∨ pgOfs a=0 then pageNo a*pgSize
  else (pageNo a+1)*pgSize%2^32:=by
 have bound:=a.toNat_lt
 unfold faultPage int toInt pageNo pgOfs pgSize
 rw[UInt32.toNat_sub,UInt32.ofInt,UInt32.toNat_ofNat']
 by_cases low:a.toNat<2^31
 · rw[if_pos low,if_pos (.inl low),Int.tmod_eq_emod_of_nonneg (by omega)]
   omega
 · have negative:((a.toNat:ℤ)-2^32).tmod (4096:ℕ)=-((2^32-(a.toNat:ℤ))%(4096:ℕ)):=by
    rw[←Int.tmod_eq_emod_of_nonneg (by omega),←Int.neg_tmod,neg_sub]
   rw[if_neg low,negative]
   split<;>omega

lemma pgOfs_faultPage (a:Addr):pgOfs (faultPage a)=0:=by
 unfold pgOfs
 rw[toNat_faultPage]
 unfold pgSize
 split<;>omega

lemma faultPage_same:pageNo (faultPage a)=pageNo a ↔ a.toNat<2^31 ∨ pgOfs a=0:=by
 rw[pageNo,toNat_faultPage]
 split
 · unfold pageNo pgSize
   omega
 · unfold pageNo pgSize
   omega

end

section
variable {φ:Type}{env:Env φ}{r:ℤ}{sys:Sys φ}{pd:PageDir}{u:Addr}{kpage:ℕ}{w:Bool}

/-- The page of `u` has become present, and nothing that was present elsewhere has changed. -/
structure Maps (pd pd':PageDir)(u:Addr)(kpage:ℕ)(w:Bool):Prop where
 there:∀b,pageNo b=pageNo u → lookupPage pd' b=some (pteCreateUser kpage w)
 others:∀b pte,pageNo b≠pageNo u → pte.present=true →
  (lookupPage pd' b=some pte ↔ lookupPage pd b=some pte)

lemma setEntry_maps (pt:PageTable)(same:∀b pte,pdNo b=pdNo u → pte.present=true →
  (lookupPage pd b=some pte ↔ pt.entry (ptNo b)=pte)):
 Maps pd (setEntry pd u pt (pteCreateUser kpage w)) u kpage w:=by
 constructor
 · intro b page
   obtain ⟨hd,ht⟩:=same_page.2 page
   rw[lookupPage_setEntry,if_pos hd,if_pos ht]
 · intro b pte page present
   rw[lookupPage_setEntry]
   by_cases hd:pdNo b=pdNo u
   · have ht:ptNo b≠ptNo u:=fun ht=>page (same_page.1 ⟨hd,ht⟩)
     rw[if_pos hd,if_neg ht,same b pte hd present,some.injEq]
   · rw[if_neg hd]

lemma present_congr {b:Addr}(same:pageNo b=pageNo u):Present pd b ↔ Present pd u:=by
 obtain ⟨hd,ht⟩:=same_page.2 same
 rw[present_iff,present_iff,lookupPage,lookupPage,hd,ht]

variable {Q:Option PageDir→Sys φ→Prop}{F:Stop→Prop}

lemma setPage_stops (bad:¬isUserVaddr u ∨ Present pd u):
 Holds (run (handleChild env r) (pagedirSetPage pd u kpage w)) sys Q F ↔ F .panic:=by
 unfold pagedirSetPage
 by_cases args:pgOfs u≠0 ∨ ¬isUserVaddr u
 · rw[if_pos args]
   exact holds_run_stop
 · rw[if_neg args]
   have user:isUserVaddr u:=by_contra fun hn=>args (.inr hn)
   obtain ⟨pte,found,present⟩:=present_iff.1 (bad.resolve_left (not_not_intro user))
   obtain ⟨pt,there,rfl⟩:=map_eq_some_iff.1 found
   rw[there]
   dsimp only
   rw[if_pos present]
   exact holds_run_stop

lemma setPage_fails (aligned:pgOfs u=0)(user:isUserVaddr u)
 (missing:pd.table (pdNo u)=none)(empty:sys.pools.free false=[]):
 Holds (run (handleChild env r) (pagedirSetPage pd u kpage w)) sys Q F ↔ Q none sys:=by
 unfold pagedirSetPage
 rw[if_neg (by simp[aligned,user]),missing]
 rw[holds_run_bind,pallocGetPage,holds_run_ask,handleChild,holds_pallocPage,
  Pools.getPage_eq_none.2 empty]
 exact ⟨fun h=>h.1 rfl,fun h=>⟨fun _=>h,nofun⟩⟩

variable (env r kpage w) in
lemma setPage_maps (aligned:pgOfs u=0)(user:isUserVaddr u)(absent:¬Present pd u)
 (room:pd.table (pdNo u)≠none ∨ sys.pools.free false≠[]):
 ∃pd' pools,Maps pd pd' u kpage w ∧ ∀ {Q:Option PageDir→Sys φ→Prop} {F:Stop→Prop},
  Holds (run (handleChild env r) (pagedirSetPage pd u kpage w)) sys Q F ↔
   Q (some pd') {sys with pools}:=by
 unfold pagedirSetPage
 rw[if_neg (by simp[aligned,user])]
 cases at_:pd.table (pdNo u) with
 | some pt=>
  have entries:∀b,pdNo b=pdNo u → lookupPage pd b=some (pt.entry (ptNo b)):=by
   intro b hd
   rw[lookupPage,hd,at_,map_some]
  have clear:(pt.entry (ptNo u)).present≠true:=fun present=>
   absent (present_iff.2 ⟨_,entries u rfl,present⟩)
  dsimp only
  rw[if_neg clear]
  refine ⟨_,sys.pools,setEntry_maps pt fun b pte hd _=>?_,holds_run_pure⟩
  rw[entries b hd,some.injEq]
 | none=>
  obtain ⟨p,got⟩:∃p,sys.pools.getPage false=some p:=by
   rw[←ne_none_iff_exists',ne_eq,Pools.getPage_eq_none]
   exact room.resolve_left (not_not_intro at_)
  refine ⟨_,sys.pools.mark p true,setEntry_maps ⟨p,fun _=>.zero⟩ fun b pte hd present=>?_,?_⟩
  · rw[lookupPage,hd,at_]
    refine ⟨nofun,?_⟩
    rintro rfl
    cases present
  · intro Q F
    dsimp only
    rw[holds_run_bind,pallocGetPage,holds_run_ask,handleChild,holds_pallocPage,got]
    exact ⟨fun h=>h.2 p rfl,fun h=>⟨nofun,by rintro _ ⟨⟩;exact h⟩⟩

end

variable {φ:Type}{env:Env φ}{r:ℤ}{sys:Sys φ}{pd:PageDir}{a:Addr}{e:UInt32}

lemma holds_kill {Q:Unit→Sys φ→Prop}{F:Stop→Prop}:
 Holds (run (handleChild env r) kill) sys Q F ↔ F (.exited (some (-1))):=holds_run_stop

lemma holds_pageFault {Q:Unit→Sys φ→Prop}{F:Stop→Prop}(there:sys.pd=some pd):
 Holds (run (handleChild env r) (pageFault a true true)) sys Q F ↔
  (sys.pools.getPage true=none → Q () sys) ∧
  ∀page,sys.pools.getPage true=some page →
   Holds (run (handleChild env r) (pagedirSetPage pd (faultPage a) page true))
    {sys with pools:=sys.pools.mark page true}
    (fun d sys'=>(∀pd',d=some pd' → Q () {sys' with pd:=some pd'}) ∧
     (d=none → F (.exited (some (-1))))) F:=by
 unfold pageFault
 rw[if_pos (by rfl),holds_run_bind,pallocGetPage,holds_run_ask,handleChild,holds_pallocPage]
 refine and_congr Iff.rfl (forall_congr' fun page=>imp_congr_right fun _=>?_)
 rw[holds_run_bind,holds_run_ask,handleChild,holds_bind,holds_get,holds_pure,there]
 rw[holds_run_bind]
 refine ⟨fun h=>h.imp fun d sys' h=>?_,fun h=>h.imp fun d sys' h=>?_⟩
 · cases d with
   | some pd'=>
    refine ⟨?_,nofun⟩
    rintro _ ⟨⟩
    exact holds_run_ask.1 h
   | none=>
    refine ⟨nofun,fun _=>?_⟩
    have freed:=holds_run_ask.1 (holds_run_bind.1 h)
    exact holds_kill.1 (holds_modify.1 freed)
 · cases d with
   | some pd'=>exact holds_run_ask.2 (h.1 pd' rfl)
   | none=>
    refine holds_run_bind.2 (holds_run_ask.2 ?_)
    exact holds_modify.2 (holds_kill.2 (h.2 rfl))

/-- The page of `a` can be written to, and every other page is what it was. -/
def Resolved (pd:PageDir)(a:Addr)(sys:Sys φ):Prop:=
 ∃pd',sys.pd=some pd' ∧ Writable pd' a ∧ ∀b pte,pageNo b≠pageNo a → pte.present=true →
   (lookupPage pd' b=some pte ↔ lookupPage pd b=some pte)

/-- There is a page for the process, and either the address is not rounded up, or there is no
page for the table that the other page needs. -/
def Resolvable (sys:Sys φ)(pd:PageDir)(a:Addr):Prop:=
 sys.pools.free true≠[] ∧ ((isUserVaddr a ∧ (a.toNat<2^31 ∨ pgOfs a=0)) ∨
   (isUserVaddr (faultPage a) ∧ pd.table (pdNo (faultPage a))=none ∧ sys.pools.free false=[]))

lemma Maps.resolved_iff {pd':PageDir}{kpage:ℕ}{u:Addr}
 (h:Maps pd pd' u kpage true)(absent:¬Present pd a)(now:sys.pd=some pd'):
 Resolved pd a sys ↔ pageNo u=pageNo a:=by
 constructor
 · rintro ⟨d,hd,writable,-⟩
   obtain rfl:=some.inj (now.symm.trans hd)
   by_contra other
   obtain ⟨pte,found,both⟩:=(any_eq_true _ _).1 writable
   have present:=(Bool.and_eq_true _ _▸both).1
   exact absent (present_iff.2 ⟨pte,(h.others a pte (Ne.symm other) present).1 found,present⟩)
 · intro same
   refine ⟨pd',now,?_,fun b pte other=>h.others b pte (same▸other)⟩
   rw[Writable,h.there a same.symm]
   rfl

lemma setPage_resolves_iff (absent:¬Present pd a)(page:ℕ):
 Holds (run (handleChild env r) (pagedirSetPage pd (faultPage a) page true)) sys
   (fun d sys'=>∀pd',d=some pd' → Resolved pd a {sys' with pd:=some pd'})
   (fun stop=>stop=.exited (some (-1))) ↔
  (isUserVaddr a ∧ pageNo (faultPage a)=pageNo a) ∨
   (isUserVaddr (faultPage a) ∧ pd.table (pdNo (faultPage a))=none ∧ sys.pools.free false=[]):=by
 have moved:pageNo (faultPage a)=pageNo a → (isUserVaddr (faultPage a) ↔ isUserVaddr a):=by
  intro same
  rw[isUserVaddr_iff,isUserVaddr_iff,same]
 by_cases bad:¬isUserVaddr (faultPage a) ∨ Present pd (faultPage a)
 · rw[setPage_stops bad]
   refine iff_of_false nofun ?_
   rintro (⟨user,same⟩|⟨user,missing,-⟩)
   · rcases bad with kernel|present
     · exact kernel ((moved same).2 user)
     · exact absent ((present_congr same).1 present)
   · rcases bad with kernel|present
     · exact kernel user
     · obtain ⟨pte,found,-⟩:=present_iff.1 present
       rw[lookupPage,missing] at found
       cases found
 · obtain ⟨user,clear⟩:=not_or.1 bad
   have user:=not_not.1 user
   by_cases full:pd.table (pdNo (faultPage a))=none ∧ sys.pools.free false=[]
   · rw[setPage_fails (pgOfs_faultPage a) user full.1 full.2]
     exact iff_of_true nofun (.inr ⟨user,full⟩)
   · obtain ⟨pd',pools,maps,holds⟩:=
      setPage_maps env r page true (pgOfs_faultPage a) user clear (not_and_or.1 full)
     have resolved:Resolved pd a {sys with pd:=some pd',pools} ↔
       pageNo (faultPage a)=pageNo a:=maps.resolved_iff absent rfl
     rw[holds]
     constructor
     · intro h
       have same:=resolved.1 (h pd' rfl)
       exact .inl ⟨(moved same).1 user,same⟩
     · rintro (⟨-,same⟩|⟨-,both⟩)
       · rintro _ ⟨⟩
         exact resolved.2 same
       · exact absurd both full

theorem pageFault_resolves_iff (write:UserWrite e)(there:sys.pd=some pd)(absent:¬Present pd a):
 Holds (run (handleChild env r) (pageFaultWith a e)) sys (fun _=>Resolved pd a)
  (fun stop=>stop=.exited (some (-1))) ↔ Resolvable sys pd a:=by
 rw[pageFaultWith,decide_eq_true write.1,decide_eq_true write.2.1,holds_pageFault there]
 unfold Resolvable
 rw[←faultPage_same]
 cases got:sys.pools.getPage true with
 | none=>
  -- nothing is done, and the page is as absent as it was
  have stuck:¬Resolved pd a sys:=by
   rintro ⟨d,hd,writable,-⟩
   obtain rfl:=some.inj (there.symm.trans hd)
   obtain ⟨pte,found,both⟩:=(any_eq_true _ _).1 writable
   exact absent (present_iff.2 ⟨pte,found,(Bool.and_eq_true _ _▸both).1⟩)
  exact iff_of_false (fun h=>stuck (h.1 rfl)) fun h=>h.1 (Pools.getPage_eq_none.1 got)
 | some page=>
  have room:sys.pools.free true≠[]:=List.ne_nil_of_mem (Pools.getPage_mem got)
  have kernel:(sys.pools.mark page true).free false=[] ↔ sys.pools.free false=[]:=by
   rw[←List.length_eq_zero_iff,Pools.free_other got false (by decide),List.length_eq_zero_iff]
  have only:∀ {P:ℕ→Prop},(∀p,some page=some p → P p) ↔ P page:=
   ⟨fun h=>h page rfl,fun h p hp=>some.inj hp▸h⟩
  rw[and_iff_right room,and_iff_right nofun,only,←kernel]
  simp only[implies_true,and_true]
  exact setPage_resolves_iff absent page

def onStack (pools:Pools):Sys Unit:=
 ⟨pools,(),.user,some true,0,some stackPage,fun _=>none,fun _=>0⟩
def bare:Env Unit:=
 ⟨⟨fun _ _=>throw .assertion,fun _ _=>throw .assertion,fun _=>throw .assertion⟩,
  ⟨0,fun _=>none⟩,⟨stackPage,fun _=>0⟩,4⟩
def twoPages:Pools:=⟨[8],[9],fun _=>false,by decide⟩
def noPages:Pools:=⟨[8],[],fun _=>false,by decide⟩

/-- A stack that grows into the next page: the page that is set is the one that is there. Without
memory nothing happens, and the instruction faults again. -/
theorem pageFault_stack_panics:UserWrite 6 ∧ ¬Present stackPage 0xbfffeffc ∧
 ¬Holds (run (handleChild bare 0) (pageFaultWith 0xbfffeffc 6)) (onStack twoPages)
  (fun _=>Resolved stackPage 0xbfffeffc) (fun stop=>stop=.exited (some (-1))) ∧
 (run (handleChild bare 0) (pageFaultWith 0xbfffeffc 6)).run (onStack twoPages)=.error .panic ∧
 (run (handleChild bare 0) (pageFaultWith 0xbfffeffc 6)).run (onStack noPages)=
  .ok ((),onStack noPages):=by
 refine ⟨by decide,by decide +kernel,fun h=>?_,rfl,rfl⟩
 have exits:Stop.panic=.exited (some (-1)):=h
 cases exits

/-- The heap of a process grows. -/
theorem pageFault_heap_resolved:
 Holds (run (handleChild bare 0) (pageFaultWith 0x8049004 6)) (onStack twoPages)
  (fun _=>Resolved stackPage 0x8049004) (fun stop=>stop=.exited (some (-1))):=by
 refine (pageFault_resolves_iff (by decide) rfl (by decide +kernel)).2 ?_
 exact ⟨by decide,.inl (by decide)⟩

end Pintos.PageFault
