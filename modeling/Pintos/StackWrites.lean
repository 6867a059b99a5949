import Pintos.ArgumentStack

/-!
# Where setup_stack writes

`setup_stack` under a watch that stops it at the first store outside the page that it has
installed for the stack, or outside its array of pointers.
-/
namespace Pintos.StackWrites
open ExecHoare Interaction Paging PageMaps PagePools Process ElfImage ArgumentStack List Option
open Spawning (below below_toNat below_add userBytes userBytes_eq argBytes_le)

/-- `installed` is set when a page has been put into the page directory. -/
structure Watch where
 pools:Pools
 pd:PageDir
 installed:Bool

inductive Escape where
 | outside
 | panic
 deriving DecidableEq,Repr

def stackAddr:Addr:=physBase-UInt32.ofNat pgSize
def InStackPage (a:Addr):Prop:=stackAddr≤a ∧ a<physBase
instance (a:Addr):Decidable (InStackPage a):=inferInstanceAs (Decidable (_ ∧ _))

def watch:(q:Ask) → Exec Escape Watch q.Answer
 | .store a bytes=>do
  let s←get
  if s.installed=true ∧ ∀i<bytes.length,InStackPage (a+UInt32.ofNat i) then return ()
  else throw .outside
 | .overflow=>throw .outside
 | .palloc user=>do
  let s←get
  match s.pools.getPage user with
  | none=>return none
  | some p=>
   set {s with pools:=s.pools.mark p true}
   return some p
 | .pallocFree p=>modify fun s=>{s with pools:=s.pools.mark p false}
 | .pagedir=>do
  let s←get
  return some s.pd
 | .setPagedir pd=>modify fun s=>{s with pd:=pd.getD s.pd,installed:=true}
 | _=>throw .panic

section
variable {s:Watch}{d:ℕ}

lemma inside_iff {n:ℕ}(some_:0<n)(fits:d+n≤userBytes):
 (∀i<n,InStackPage (below (d+n)+UInt32.ofNat i)) ↔ d+n≤pgSize:=by
 have page:∀e,1≤e → e≤userBytes → (InStackPage (below e) ↔ e≤pgSize):=by
  intro e low high
  have bottom:stackAddr.toNat=3221225472-pgSize:=rfl
  have top:physBase.toNat=3221225472:=rfl
  unfold InStackPage
  rw[UInt32.le_iff_toNat_le,UInt32.lt_iff_toNat_lt,below_toNat high,bottom,top]
  rw[userBytes_eq] at *
  omega
 constructor
 · intro all
   have first:=all 0 some_
   rwa[below_add fits (Nat.zero_le _),Nat.sub_zero,page _ (by omega) fits] at first
 · intro small i inside
   rw[below_add fits (by omega),page _ (by omega) (by omega)]
   omega

lemma holds_store {a:Addr}{bytes:List UInt8}{Q:Unit→Watch→Prop}:
 Holds (run watch (ask (Ask.store a bytes))) s Q NoFault ↔
  (s.installed=true ∧ ∀i<bytes.length,InStackPage (a+UInt32.ofNat i)) ∧ Q () s:=by
 rw[holds_run_ask,watch,holds_bind,holds_get]
 split
 · exact ⟨fun h=>⟨‹_›,h⟩,And.right⟩
 · exact ⟨False.elim,fun h=>absurd h.1 ‹_›⟩

lemma storeAll_inside {bs:List (List UInt8)}(some_:∀b∈bs,b≠[])(fits:d+size bs≤userBytes):
 Holds (run watch (storeAll (pushes bs d))) s (fun _ _=>True) NoFault ↔
  bs=[] ∨ (s.installed=true ∧ d+size bs≤pgSize):=by
 induction bs generalizing d with
 | nil=>exact ⟨fun _=>.inl rfl,fun _=>trivial⟩
 | cons b bs ih=>
  obtain ⟨first,rest⟩:=forall_mem_cons.1 some_
  rw[size_cons,←Nat.add_assoc] at fits ⊢
  rw[pushes,storeAll,holds_run_bind,holds_store,ih rest fits,
   inside_iff (length_pos_of_ne_nil first) (by omega)]
  constructor
  · rintro ⟨⟨installed,small⟩,rfl|both⟩
    · exact .inr ⟨installed,small⟩
    · exact .inr both
  · rintro (none|⟨installed,small⟩)
    · cases none
    · exact ⟨⟨installed,by omega⟩,.inr ⟨installed,small⟩⟩

lemma blocks_ne_nil (ts:List (List UInt8)):∀b∈blocks ts,b≠[]:=by
 intro b mem
 rcases mem_append.1 mem with mem|mem
 · rcases mem_append.1 mem with mem|mem
   · obtain ⟨t,-,rfl⟩:=List.mem_map.1 mem
     simp
   · obtain ⟨w,-,rfl⟩:=List.mem_map.1 mem
     exact nofun
 · simp only[mem_cons,not_mem_nil,or_false] at mem
   rcases mem with rfl|rfl|rfl<;>exact nofun

lemma pushArguments_inside {line:List UInt8}(short:line.length≤pgSize-1):
 Holds (run watch (pushArguments line)) s (fun _ _=>True) NoFault ↔
  s.installed=true ∧ (tokens line).length≤128 ∧ argBytes line≤pgSize:=by
 by_cases few:(tokens line).length≤128
 · have small:0+size (blocks (tokens line))≤userBytes:=by
    rw[Nat.zero_add,size_blocks]
    exact argBytes_le short
   have some_:blocks (tokens line)≠[]:=by
    rw[blocks]
    simp
   rw[holds_pushArguments short few,storeAll_inside (blocks_ne_nil _) small,or_iff_right some_,
    Nat.zero_add,size_blocks,and_iff_right few]
 · refine iff_of_false (fun h=>?_) fun h=>few h.2.1
   obtain ⟨_,_,-,never⟩:=(holds_pushArguments_many (not_le.1 few) h).returns
   exact never

variable {u:Addr}{kpage:ℕ}

lemma holds_palloc {user:Bool}{Q:Option ℕ→Watch→Prop}{F:Escape→Prop}:
 Holds (run watch (pallocGetPage user)) s Q F ↔ (s.pools.getPage user=none → Q none s) ∧
  ∀p,s.pools.getPage user=some p → Q (some p) {s with pools:=s.pools.mark p true}:=by
 rw[pallocGetPage,holds_run_ask,watch,holds_bind,holds_get]
 cases s.pools.getPage user with
 | none=>exact ⟨fun h=>⟨fun _=>h,nofun⟩,fun h=>h.1 rfl⟩
 | some p=>exact ⟨fun h=>⟨nofun,by rintro _ ⟨⟩;exact h⟩,fun h=>h.2 p rfl⟩

/-- `install_page` finds the page mapped, or no memory for its table. -/
def Uninstallable (s:Watch)(u:Addr):Prop:=
 Present s.pd u ∨ (s.pd.table (pdNo u)=none ∧ s.pools.free false=[])

lemma installPage_fails (aligned:pgOfs u=0)(user:isUserVaddr u){Q:Bool→Watch→Prop}
 {F:Escape→Prop}(h:Uninstallable s u):
 Holds (run watch (installPage u kpage true)) s Q F ↔ Q false s:=by
 unfold installPage
 rw[holds_run_bind,holds_run_ask,watch,holds_bind,holds_get,holds_pure]
 dsimp only
 split
 · rfl
 · obtain ⟨missing,empty⟩:=h.resolve_left ‹_›
   unfold pagedirSetPage
   rw[if_neg (by simp[aligned,user]),missing]
   rw[holds_run_bind,holds_run_bind,holds_palloc,Pools.getPage_eq_none.2 empty]
   exact ⟨fun h=>h.1 rfl,fun h=>⟨fun _=>h,nofun⟩⟩

lemma installPage_works (aligned:pgOfs u=0)(user:isUserVaddr u)(h:¬Uninstallable s u):
 ∃t:Watch,t.installed=true ∧ ∀ {Q:Bool→Watch→Prop} {F:Escape→Prop},
  Holds (run watch (installPage u kpage true)) s Q F ↔ Q true t:=by
 obtain ⟨absent,room⟩:=not_or.1 h
 have unmapped:¬pagedirGetPage s.pd u≠none:=absent
 unfold installPage pagedirSetPage
 simp only[holds_run_bind,holds_run_ask,watch,holds_bind,holds_get,holds_pure]
 simp only[if_neg unmapped,holds_run_bind]
 rw[if_neg (by simp[aligned,user])]
 cases there:s.pd.table (pdNo u) with
 | some pt=>
  have clear:¬(pt.entry (ptNo u)).present=true:=by
   intro present
   refine absent (present_iff.2 ⟨_,?_,present⟩)
   rw[lookupPage,there,map_some]
  refine ⟨{s with
   pd:=setEntry s.pd u pt (pteCreateUser kpage true),installed:=true},rfl,?_⟩
  dsimp only
  rw[if_neg clear]
  exact Iff.rfl
 | none=>
  obtain ⟨p,got⟩:∃p,s.pools.getPage false=some p:=by
   rw[←ne_none_iff_exists',ne_eq,Pools.getPage_eq_none]
   exact fun empty=>room ⟨there,empty⟩
  refine ⟨⟨s.pools.mark p true,
   setEntry s.pd u ⟨p,fun _=>.zero⟩ (pteCreateUser kpage true),true⟩,rfl,?_⟩
  intro Q F
  rw[holds_run_bind,holds_palloc,got]
  exact ⟨fun h=>h.2 p rfl,fun h=>⟨fun no=>absurd no (some_ne_none p),by
   rintro _ ⟨⟩
   exact h⟩⟩

end

variable {s:Watch}{input:List UInt8}

/-- What is pushed for a command line fits into one page, and its pointers into the array. -/
def Fits (line:List UInt8):Prop:=(tokens line).length≤128 ∧ argBytes line≤pgSize

/-- There is no page for the copy of the command line; or there are pages for it and for the
stack, which is not mapped yet, with its table, and what is pushed fits. -/
def Confined (s:Watch)(input:List UInt8):Prop:=
 s.pools.free false=[] ∨ (s.pools.free true≠[] ∧ ¬Present s.pd stackAddr ∧
   (s.pd.table (pdNo stackAddr)≠none ∨ 2≤(s.pools.free false).length) ∧
   Fits (input.take (pgSize-1)))

lemma pushed_inside (t:Watch)(success:Bool):
 Holds (run watch (pushArguments (input.take (pgSize-1)) >>= fun esp=>pure (success,esp))) t
   (fun _ _=>True) NoFault ↔ t.installed=true ∧ Fits (input.take (pgSize-1)):=by
 rw[holds_run_bind,Fits,←pushArguments_inside (length_take_le ..)]
 exact Iff.rfl

variable (input) in
lemma installed_inside (t:Watch)(fresh:t.installed=false)(kpage:ℕ){Q:Bool→Watch→Prop}
 (after:∀ok u,Q ok u ↔ u.installed=true ∧ Fits (input.take (pgSize-1))):
 Holds (run watch (installPage stackAddr kpage true)) t Q NoFault ↔
  ¬Uninstallable t stackAddr ∧ Fits (input.take (pgSize-1)):=by
 have aligned:pgOfs stackAddr=0:=by decide
 have user:isUserVaddr stackAddr:=by decide
 by_cases bad:Uninstallable t stackAddr
 · rw[installPage_fails aligned user bad,after,fresh]
   exact iff_of_false nofun fun h=>h.1 bad
 · obtain ⟨u,installed,holds⟩:=installPage_works aligned user bad
   rw[holds,after,and_iff_right installed,and_iff_right bad]

theorem setupStack_confined_iff (fresh:s.installed=false):
 Holds (run watch (setupStack input)) s (fun _ _=>True) NoFault ↔ Confined s input:=by
 unfold setupStack Confined
 rw[holds_run_bind,holds_palloc]
 cases copy:s.pools.getPage false with
 | none=>
  exact iff_of_true ⟨fun _=>trivial,nofun⟩ (.inl (Pools.getPage_eq_none.1 copy))
 | some p=>
  have some_:s.pools.free false≠[]:=ne_nil_of_mem (Pools.getPage_mem copy)
  have kernel:=Pools.free_taken copy
  have user:=Pools.free_other copy true (by decide)
  simp only[reduceCtorEq,false_implies,true_and,Option.some.injEq,forall_eq',some_,false_or]
  rw[holds_run_bind,holds_palloc]
  cases page:(s.pools.mark p true).getPage true with
  | none=>
   have none:s.pools.free true=[]:=by
    rw[←length_eq_zero_iff,←user,Pools.getPage_eq_none.1 page,length_nil]
   refine iff_of_false (fun h=>?_) fun h=>h.1 none
   have installed:=((pushed_inside _ _).1 (holds_run_bind.1 (h.1 rfl))).1
   rw[fresh] at installed
   cases installed
  | some kpage=>
   have room:s.pools.free true≠[]:=by
    intro none
    have mem:=length_pos_of_mem (Pools.getPage_mem page)
    rw[user,none] at mem
    exact Nat.lt_irrefl 0 mem
   have tables:((s.pools.mark p true).mark kpage true).free false=[] ↔
     ¬2≤(s.pools.free false).length:=by
    rw[←length_eq_zero_iff,Pools.free_other page false (by decide)]
    omega
   simp only[reduceCtorEq,false_implies,true_and,Option.some.injEq,forall_eq',room,
    ne_eq,not_false_eq_true]
   rw[holds_run_bind]
   refine (installed_inside input ⟨(s.pools.mark p true).mark kpage true,s.pd,s.installed⟩
    fresh kpage fun ok u=>?_).trans ?_
   · cases ok with
     | true=>exact pushed_inside u true
     | false=>
      rw[if_neg (by decide),holds_run_bind]
      exact pushed_inside {u with pools:=u.pools.mark kpage false} false
   · unfold Uninstallable
     dsimp only
     rw[tables,not_or,not_and_or,not_not,and_assoc]

def empty:Watch:=⟨⟨[8,9],[10],fun _=>false,by decide⟩,⟨0,fun _=>none⟩,false⟩
def noPage:Watch:=⟨⟨[8,9],[],fun _=>false,by decide⟩,⟨0,fun _=>none⟩,false⟩
def single:List UInt8:=[97]
def many:List UInt8:=(replicate 129 [97,32]).flatten

/-- Without a page the arguments are pushed all the same, and words beyond the 128th go behind
the end of the array. -/
theorem setupStack_escapes:¬Holds (run watch (setupStack single)) noPage (fun _ _=>True) NoFault ∧
 (run watch (setupStack single)).run noPage=.error .outside ∧
 ((run watch (setupStack many)).run empty).toBool=false:=by
 exact ⟨id,rfl,by decide +kernel⟩

theorem setupStack_confined_single:empty.installed=false ∧
  Holds (run watch (setupStack single)) empty (fun _ _=>True) NoFault:=by
 refine ⟨rfl,(setupStack_confined_iff rfl).2 (.inr ⟨by decide,?_,.inr (by decide),?_⟩)⟩
 · exact fun present=>present rfl
 · exact ⟨by decide,by decide⟩

end Pintos.StackWrites
