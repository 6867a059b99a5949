import Pintos.AskKinds

/-!
# Pages that are given back

Code frees only pages that it has got itself or that are in the page directory of its
process.
-/
namespace Pintos.PageDiscipline
open Interaction Paging Process Syscall AskKinds

/-- The pages that a directory gives back when it is destroyed are `held`. -/
def Owns (held:Set ℕ)(pd:PageDir):Prop:=∀p∈userPages pd,p∈held

/-- What code may ask for when it holds these pages. -/
def allowed (held:Set ℕ):Ask→Prop
 | .pallocFree p=>p∈held
 | .setPagedir (some pd)=>Owns held pd
 | .spawn page _ _=>page∈held
 | _=>True

def after (held:Set ℕ):(q:Ask) → q.Answer → Set ℕ
 | .palloc _,some p=>insert p held
 | .pagedir,some pd=>held ∪ {p | p∈userPages pd}
 | _,_=>held
variable {α β:Type}{held held':Set ℕ}{p:Proc α}

lemma allowed_mono (sub:held ⊆ held'){q:Ask}(h:allowed held q):allowed held' q:=by
 cases q with
 | pallocFree page | spawn page name input=>exact sub h
 | setPagedir pd=>
  cases pd with
  | none=>trivial
  | some pd=>exact fun page hp=>sub (h page hp)
 | _=>trivial

lemma subset_after (q:Ask)(r:q.Answer):held ⊆ after held q r:=by
 cases q with
 | palloc user=>
  cases r with
  | none=>exact subset_rfl
  | some page=>exact Set.subset_insert ..
 | pagedir=>
  cases r with
  | none=>exact subset_rfl
  | some pd=>exact Set.subset_union_left
 | _=>exact subset_rfl

lemma after_mono (sub:held ⊆ held')(q:Ask)(r:q.Answer):after held q r ⊆ after held' q r:=by
 cases q with
 | palloc user=>
  cases r with
  | none=>exact sub
  | some page=>exact Set.insert_subset_insert sub
 | pagedir=>
  cases r with
  | none=>exact sub
  | some pd=>exact Set.union_subset_union_left _ sub
 | _=>exact sub

def Frugal (held:Set ℕ)(p:Proc α):Prop:=Obeys allowed after p (fun _ _=>True) held
lemma Frugal.mono (h:Frugal held p)(sub:held ⊆ held'):Frugal held' p:=by
 induction p generalizing held held' with
 | ret a=>trivial
 | ask q k ih=>exact ⟨allowed_mono sub h.1,fun r=>ih r (h.2 r) (after_mono sub q r)⟩
lemma frugal_pure (a:α):Frugal held (pure a:Proc α):=trivial
lemma frugal_stop {q:Ask}{none:q.Answer → Empty}(h:allowed held q):
 Frugal held (stop q none:Proc α):=
 obeys_stop.2 h
lemma frugal_ask {q:Ask}{f:q.Answer → Proc α}(h:allowed held q)
 (hf:∀r,Frugal (after held q r) (f r)):Frugal held (ask q >>= f):=⟨h,hf⟩

lemma Frugal.post (h:Frugal held p):Obeys allowed after p (fun _ held'=>held ⊆ held') held:=by
 suffices ∀start:Set ℕ,start ⊆ held →
   Obeys allowed after p (fun _ held'=>start ⊆ held') held from this held subset_rfl
 intro start sub
 induction p generalizing held with
 | ret a=>exact sub
 | ask q k ih=>exact ⟨h.1,fun r=>ih r (h.2 r) (sub.trans (subset_after q r))⟩

lemma frugal_bind {f:α→Proc β}(hp:Frugal held p)(hf:∀a,Frugal held (f a)):Frugal held (p >>= f):=
 obeys_bind.2 (hp.post.mono fun a _ sub=>(hf a).mono sub)

lemma frugal_palloc {user:Bool}{f:Option ℕ→Proc α}(none:Frugal held (f none))
 (some:∀page,Frugal (insert page held) (f (some page))):
 Frugal held (pallocGetPage user >>= f):=by
 refine frugal_ask trivial fun page=>?_
 cases page with
 | none=>exact none
 | some page=>exact some page

lemma frugal_only {ks:List Kind}(h:Only ks p)
 (none:Kind.palloc∉ks ∧ Kind.pallocFree∉ks ∧ Kind.pagedir∉ks ∧ Kind.setPagedir∉ks ∧
  Kind.spawn∉ks):Frugal held p:=by
 refine Avoids.obeys h (fun q hq=>?_) fun _=>trivial
 have hk:kind q∈ks:=by simpa using hq
 cases q with
 | palloc user=>exact absurd hk none.1
 | pallocFree page=>exact absurd hk none.2.1
 | pagedir=>exact absurd hk none.2.2.1
 | setPagedir pd=>exact absurd hk none.2.2.2.1
 | spawn page name input=>exact absurd hk none.2.2.2.2
 | _=>exact ⟨trivial,fun _=>rfl⟩

lemma frugal_ite {c:Prop}[Decidable c]{p':Proc α}(h:Frugal held p)
 (h':Frugal held p'):Frugal held (if c then p else p'):=by
 split
 · exact h
 · exact h'

variable {pd:PageDir}{kpage:ℕ}{upage:Addr}{writable:Bool}

lemma Owns.setEntry {pt:PageTable}(h:Owns held pd)(there:pd.table (pdNo upage)=some pt)
 (page:kpage∈held):Owns held (setEntry pd upage pt (pteCreateUser kpage writable)):=by
 intro p hp
 rcases mem_userPages_setEntry hp with hp|rfl|⟨hi,has⟩
 · exact h p hp
 · exact page
 · exact h p (mem_userPages.2 (.inr ⟨_,pt,hi,there,has⟩))

lemma Owns.setEntry_new {table:ℕ}(h:Owns held pd)(page:kpage∈held):Owns (insert table held)
  (Paging.setEntry pd upage ⟨table,fun _=>.zero⟩ (pteCreateUser kpage writable)):=by
 intro p hp
 rcases mem_userPages_setEntry hp with hp|rfl|⟨-,rfl|⟨j,present,-⟩⟩
 · exact .inr (h p hp)
 · exact .inr page
 · exact .inl rfl
 · exact absurd present Bool.false_ne_true

lemma pagedirSetPage_owns (h:Owns held pd)(page:kpage∈held):
 Obeys allowed after (pagedirSetPage pd upage kpage writable) (fun r held'=>
  held ⊆ held' ∧ ∀pd',r=some pd' → Owns held' pd') held:=by
 unfold pagedirSetPage
 split
 · exact obeys_stop.2 trivial
 cases ht:pd.table (pdNo upage) with
 | some pt=>
  dsimp only
  split
  · exact obeys_stop.2 trivial
  · refine ⟨subset_rfl,?_⟩
    rintro pd' ⟨⟩
    exact h.setEntry ht page
 | none=>
  refine ⟨trivial,fun table=>?_⟩
  cases table with
  | none=>exact ⟨subset_rfl,nofun⟩
  | some table=>
   refine ⟨Set.subset_insert ..,?_⟩
   rintro pd' ⟨⟩
   exact h.setEntry_new page

lemma frugal_installPage (page:kpage∈held):Frugal held (installPage upage kpage writable):=by
 refine frugal_ask trivial fun pd=>?_
 cases pd with
 | none=>exact frugal_stop trivial
 | some pd=>
  dsimp only
  split
  · exact frugal_pure _
  · have owns:Owns (after held .pagedir (some pd)) pd:=fun p hp=>.inr hp
    refine obeys_bind.2 ((pagedirSetPage_owns owns (.inl page)).mono ?_)
    rintro r held' ⟨-,owned⟩
    cases r with
    | none=>exact frugal_pure _
    | some pd'=>exact frugal_ask (owned pd' rfl) fun _=>frugal_pure _

lemma frugal_freePages {pages:List ℕ}(h:∀p∈pages,p∈held):
 Frugal held (pages.forM pallocFreePage):=by
 induction pages with
 | nil=>exact frugal_pure _
 | cons p pages ih=>
  exact frugal_ask (h p List.mem_cons_self) fun _=>
   ih fun q hq=>h q (List.mem_cons_of_mem _ hq)

variable {init:PageDir}{file:Option ℕ}

lemma frugal_free {p:ℕ}{b:Bool}(h:p∈held):
 Frugal held (do pallocFreePage p;return b):=frugal_ask h fun _=>frugal_pure _

lemma frugal_loadPage (upage:Addr)(readBytes:ℕ)(writable:Bool):
 Frugal held (loadPage file upage readBytes writable):=by
 refine frugal_palloc (frugal_pure _) fun kpage=>?_
 refine frugal_bind (frugal_only (only_fileRead file _ _) (by decide)) fun bytes=>?_
 split
 · exact frugal_free (Set.mem_insert ..)
 · refine frugal_ask trivial fun _=>frugal_bind (frugal_installPage (Set.mem_insert ..)) ?_
   intro installed
   cases installed with
   | true=>exact frugal_pure _
   | false=>exact frugal_free (Set.mem_insert ..)

lemma frugal_loadPages (writable:Bool)(turns:ℕ)(upage:Addr)(readBytes zeroBytes:ℕ):
 Frugal held (loadPages file writable turns upage readBytes zeroBytes):=by
 induction turns generalizing upage readBytes zeroBytes with
 | zero=>exact frugal_stop trivial
 | succ turns ih=>
  unfold loadPages
  split
  · exact frugal_pure _
  · refine frugal_bind (frugal_loadPage _ _ _) fun loaded=>?_
    cases loaded with
    | true=>exact ih _ _ _
    | false=>exact frugal_pure _

lemma frugal_loadHeader (h:Phdr):Frugal held (loadHeader file h):=by
 refine frugal_ite (frugal_pure _) (frugal_ite ?_ (frugal_pure _))
 refine frugal_bind (frugal_only (only_fileLength file) (by decide)) fun length=>?_
 refine frugal_ite (frugal_ite (frugal_stop trivial) ?_) (frugal_pure _)
 exact frugal_bind (frugal_only (only_fileSeek file _) (by decide)) fun _=>frugal_loadPages ..

lemma frugal_loadHeaders (n:ℕ)(fileOfs:ℤ):Frugal held (loadHeaders file n fileOfs):=by
 induction n generalizing fileOfs with
 | zero=>exact frugal_pure _
 | succ n ih=>
  refine frugal_ite (frugal_pure _) ?_
  refine frugal_bind (frugal_only (only_fileLength file) (by decide)) fun length=>?_
  refine frugal_ite (frugal_pure _) ?_
  refine frugal_bind (frugal_only (only_fileSeek file _) (by decide)) fun _=>?_
  refine frugal_bind (frugal_only (only_fileRead file _ _) (by decide)) fun bytes=>?_
  refine frugal_ite (frugal_pure _) (frugal_bind (frugal_loadHeader _) fun loaded=>?_)
  cases loaded with
  | true=>exact ih _
  | false=>exact frugal_pure _

lemma frugal_setupStack (input:List UInt8):Frugal held (setupStack input):=by
 refine frugal_palloc (frugal_pure _) fun page=>?_
 have push:∀ (held:Set ℕ) (success:Bool),Frugal held (do
   let esp←pushArguments (input.take (pgSize-1))
   return (success,esp)):=fun held success=>
  frugal_bind (frugal_only (only_pushArguments _) (by decide)) fun _=>frugal_pure _
 refine frugal_palloc (push _ false) fun kpage=>?_
 refine frugal_bind (frugal_installPage (Set.mem_insert ..)) fun installed=>?_
 cases installed with
 | true=>exact push _ true
 | false=>exact frugal_ask (Set.mem_insert ..) fun _=>push _ false

lemma frugal_loadFile (input:List UInt8):Frugal held (loadFile file input):=by
 refine frugal_bind (frugal_only (only_fileRead file _ _) (by decide)) fun bytes=>?_
 refine frugal_ite (frugal_pure _) (frugal_bind (frugal_loadHeaders _ _) fun loaded=>?_)
 cases loaded with
 | true=>exact frugal_bind (frugal_setupStack input) fun _=>frugal_pure _
 | false=>exact frugal_pure _

lemma owns_new (kernelOnly:KernelOnly init)(page:ℕ):
 Owns (insert page held) {init with page:=page}:=by
 intro p hp
 rcases mem_userPages.1 hp with rfl|⟨i,pt,hi,ht,-⟩
 · exact Set.mem_insert ..
 · rw[show ({init with page:=page}:PageDir).table i=none from kernelOnly i hi] at ht
   cases ht

lemma frugal_load (kernelOnly:KernelOnly init)(fileName:Option (List UInt8))
 (input:List UInt8):Frugal held (load init fileName input):=by
 refine obeys_bind.2 (frugal_palloc (frugal_pure _) fun page=>?_)
 refine frugal_ask (owns_new kernelOnly page) fun _=>frugal_ask trivial fun file=>?_
 cases file with
 | none=>exact frugal_pure _
 | some file=>
  exact frugal_bind (frugal_loadFile input) fun _=>
   frugal_bind (frugal_only (only_fileClose _) (by decide)) fun _=>frugal_pure _

lemma frugal_startProcess (kernelOnly:KernelOnly init)(input:List UInt8):
 Frugal held (startProcess init input):=by
 refine frugal_palloc (frugal_stop trivial) fun copy=>?_
 refine frugal_bind (frugal_load kernelOnly _ input) fun image=>?_
 refine frugal_ask (Set.mem_insert ..) fun _=>?_
 cases image with
 | none=>exact frugal_stop trivial
 | some entry=>exact frugal_pure _

lemma frugal_threadCreate (name:Option (List UInt8))(input:List UInt8):
 Frugal held (threadCreate name input):=by
 refine frugal_palloc (frugal_pure _) fun page=>?_
 cases name with
 | none=>exact frugal_stop trivial
 | some name=>exact frugal_ask (Set.mem_insert ..) fun _=>frugal_pure _

lemma frugal_processExecute (a:Addr):Frugal held (processExecute a):=by
 refine frugal_palloc (frugal_pure _) fun inputCpy=>frugal_palloc (frugal_pure _) fun page=>?_
 refine frugal_bind (frugal_only (only_strlcpy a _) (by decide)) fun _=>?_
 refine frugal_bind (frugal_only (only_strlcpy a _) (by decide)) fun _=>?_
 refine frugal_bind (frugal_threadCreate _ _) fun tid=>?_
 cases tid with
 | none=>exact frugal_ask (.inr (Set.mem_insert ..)) fun _=>frugal_pure _
 | some tid=>exact frugal_pure _

lemma frugal_executing (a:Addr):Frugal held (do
 let cmdCopy←strlcpy a pgSize
 match←filesysOpen (.copy (strtok cmdCopy)) with
 | none=>return -1
 | some _=>
  let pid←locked (processExecute a)
  return pidOf pid):=by
 refine frugal_bind (frugal_only (only_strlcpy a _) (by decide)) fun _=>?_
 refine frugal_ask trivial fun file=>?_
 cases file with
 | none=>exact frugal_pure _
 | some file=>
  refine frugal_bind (frugal_ask trivial fun _=>?_) fun _=>frugal_pure _
  exact frugal_bind (frugal_processExecute a) fun _=>frugal_ask trivial fun _=>frugal_pure _

lemma frugal_exec (a:Addr):Frugal held (exec a):=by
 refine frugal_bind (frugal_only (only_badPointer a) (by decide)) fun bad=>?_
 cases bad with
 | true=>exact frugal_stop trivial
 | false=>
  refine frugal_ask trivial fun first=>frugal_ite (frugal_stop trivial) ?_
  exact frugal_palloc (frugal_pure _) fun _=>frugal_executing a

lemma frugal_dispatch (esp:Addr)(number:ℕ):Frugal held (dispatch esp number):=by
 by_cases exec:number=2
 · subst exec
   refine frugal_ite ?_ (frugal_stop trivial)
   exact frugal_ask trivial fun cmd=>frugal_bind (frugal_exec cmd) fun _=>frugal_pure _
 · exact frugal_only (only_dispatch esp exec) (by decide)

lemma frugal_syscallHandler (esp:Addr):Frugal held (syscallHandler esp):=by
 refine frugal_bind (frugal_only (only_badPointer esp) (by decide)) fun bad=>?_
 cases bad with
 | true=>exact frugal_stop trivial
 | false=>exact frugal_ask trivial fun number=>frugal_dispatch esp _

lemma frugal_pageFault (a:Addr)(notPresent write:Bool):
 Frugal held (pageFault a notPresent write):=by
 refine frugal_ite (frugal_palloc (frugal_pure _) fun page=>?_) (frugal_stop trivial)
 refine frugal_ask trivial fun pd=>?_
 cases pd with
 | none=>exact frugal_stop trivial
 | some pd=>
  have owns:Owns (after (insert page held) .pagedir (some pd)) pd:=fun p hp=>.inr hp
  refine obeys_bind.2 ((pagedirSetPage_owns owns (.inl (Set.mem_insert ..))).mono ?_)
  rintro r held' ⟨sub,owned⟩
  cases r with
  | none=>exact frugal_ask (sub (.inl (Set.mem_insert ..))) fun _=>frugal_stop trivial
  | some pd'=>exact ⟨owned pd' rfl,fun _=>trivial⟩

lemma frugal_processExit:Frugal held processExit:=by
 refine frugal_bind (frugal_only (only_closeAll _) (by decide)) fun _=>?_
 refine frugal_ask trivial fun pd=>?_
 cases pd with
 | none=>exact frugal_pure _
 | some pd=>
  refine frugal_ask trivial fun _=>?_
  have owns:∀p∈userPages pd,p∈after held .pagedir (some pd):=fun p hp=>.inr hp
  unfold pagedirDestroy
  generalize userPages pd=pages at owns
  exact frugal_freePages owns

end Pintos.PageDiscipline
