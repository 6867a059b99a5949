import Pintos.AskKinds

/-!
# The memory of a process

A process makes a page directory, loads segments, sets up a stack and gets pages in page faults,
and in the end `process_exit` gives the pages of its directory back. The machine takes one ask of
its code after another: `palloc_get_page` has a page that is not in use or none, and what code
reads of files and of user memory is arbitrary.
-/
namespace Pintos.ProcessMemory
open Interaction Paging Process Syscall AskKinds Function List

/-- The directory of a process, and the pages that it has got and not given back. -/
structure Ledger where
 pd:Option PageDir
 live:List ℕ

def pagesOf:Option PageDir→List ℕ
 | none=>[]
 | some pd=>userPages pd

/-- The pages of a process are those that its code holds and those of its directory. -/
structure Balanced (held:List ℕ)(l:Ledger):Prop where
 nodup:l.live.Nodup
 perm:l.live.Perm (held++pagesOf l.pd)

def allowed (copies:List ℕ)(l:Ledger):Ask→Prop
 | .pallocFree p=>p∈l.live
 | .exit _=>Balanced copies l
 | _=>True
def admits (l:Ledger):(q:Ask) → q.Answer → Prop
 | .palloc _,r=>∀p∈r,p∉l.live
 | .pagedir,r=>r=l.pd
 | _,_=>True

def after (l:Ledger):(q:Ask) → q.Answer → Ledger
 | .palloc _,r=>{l with live:=r.toList++l.live}
 | .pallocFree p,_=>{l with live:=l.live.erase p}
 | .setPagedir pd,_=>{l with pd}
 | _,_=>l

/-- The code frees live pages only, and exits with no page but `copies` in its hands. -/
def rules (copies:List ℕ):Rules Ask Ask.Answer Ledger:=⟨allowed copies,admits,after⟩

section
variable {ι α:Type}

lemma flatMap_perm {l:List ι}(nodup:l.Nodup){i:ι}(hi:i∈l){f g:ι→List α}
 {x:List α}(same:∀j,j≠i → f j=g j)(grown:(f i).Perm (x++g i)):
 (l.flatMap f).Perm (x++l.flatMap g):=by
 obtain ⟨a,b,rfl⟩:=append_of_mem hi
 obtain ⟨-,nodup',apart⟩:=nodup_append'.1 nodup
 have left:a.flatMap f=a.flatMap g:=flatMap_congr fun j hj=>
  same j fun he=>apart hj (he▸mem_cons_self)
 have right:b.flatMap f=b.flatMap g:=flatMap_congr fun j hj=>
  same j fun he=>(nodup_cons.1 nodup').1 (he▸hj)
 rw[flatMap_append,flatMap_append,flatMap_cons,flatMap_cons,left,right]
 refine ((grown.append_right _).append_left _).trans ?_
 rw[append_assoc]
 exact perm_append_comm_assoc ..

lemma filterMap_perm {l:List ι}(nodup:l.Nodup){i:ι}(hi:i∈l){f g:ι→Option α}
 {x:α}(same:∀j,j≠i → f j=g j)(new:f i=some x)(old:g i=none):
 (l.filterMap f).Perm (x::l.filterMap g):=by
 rw[filterMap_eq_flatMap_toList,filterMap_eq_flatMap_toList]
 refine flatMap_perm (x:=[x]) nodup hi (fun j hj=>by rw[same j hj]) ?_
 rw[new,old]
 rfl

variable {pd:PageDir}{upage:Addr}{kpage:ℕ}{writable:Bool}

def tablePages (pt:PageTable):List ℕ:=
 (finRange 1024).filterMap
  (fun j=>if (pt.entry j).present then some (pt.entry j).page else none)++[pt.page]

def slotPages (pd:PageDir)(i:Fin 1024):List ℕ:=
 if i.val<768 then
  match pd.table i with
  | some pt=>tablePages pt
  | none=>[]
 else []

lemma userPages_eq (pd:PageDir):userPages pd=(finRange 1024).flatMap (slotPages pd)++[pd.page]:=rfl

lemma tablePages_set {pt:PageTable}(j:Fin 1024)(absent:(pt.entry j).present=false):
 (tablePages {pt with entry:=update pt.entry j (pteCreateUser kpage writable)}).Perm
  (kpage::tablePages pt):=by
 unfold tablePages
 rw[←cons_append]
 refine Perm.append_right _ ?_
 refine filterMap_perm (nodup_finRange 1024) (mem_finRange j) (fun i hi=>?_) ?_ ?_
 · simp only[update_of_ne hi]
 · simp[pteCreateUser]
 · simp[absent]

lemma tablePages_zero (p:ℕ):tablePages ⟨p,fun _=>.zero⟩=[p]:=by
 simp[tablePages,Pte.zero]

lemma userPages_setEntry (kpage:ℕ)(writable:Bool)(user:(pdNo upage).val<768)
 {pt:PageTable}{new:List ℕ}
 (table:(tablePages pt).Perm (new++slotPages pd (pdNo upage)))
 (absent:(pt.entry (ptNo upage)).present=false):
 (userPages (setEntry pd upage pt (pteCreateUser kpage writable))).Perm
  (kpage::new++userPages pd):=by
 rw[userPages_eq,userPages_eq,←append_assoc]
 refine Perm.append_right _ ?_
 refine flatMap_perm (nodup_finRange 1024) (mem_finRange (pdNo upage)) (fun i hi=>?_) ?_
 · unfold slotPages setEntry
   dsimp only
   rw[update_of_ne hi]
 · have own:slotPages (setEntry pd upage pt (pteCreateUser kpage writable)) (pdNo upage)=
     tablePages {pt with
      entry:=update pt.entry (ptNo upage) (pteCreateUser kpage writable)}:=by
    unfold slotPages setEntry
    dsimp only
    rw[if_pos user,update_self]
   rw[own]
   exact (tablePages_set _ absent).trans (table.cons kpage)

variable {β:Type}{copies held:List ℕ}{l:Ledger}{p:ℕ}

/-- The code has its `post` when it returns, whatever the answers are. -/
abbrev Keeps (copies:List ℕ)(p:Proc α)(post:α→Ledger→Prop)(l:Ledger):Prop:=
 Meets (rules copies) p post l

lemma Balanced.take (h:Balanced held l)(fresh:p∉l.live):
 Balanced (p::held) {l with live:=p::l.live}:=
 ⟨nodup_cons.2 ⟨fresh,h.nodup⟩,h.perm.cons p⟩

lemma Balanced.drop (h:Balanced (p::held) l):
 p∈l.live ∧ Balanced held {l with live:=l.live.erase p}:=by
 have mem:p∈l.live:=h.perm.mem_iff.2 (by simp)
 refine ⟨mem,h.nodup.erase p,?_⟩
 exact ((perm_cons_erase mem).symm.trans h.perm).cons_inv

lemma keeps_palloc {user:Bool}{f:Option ℕ→Proc α}{post:α→Ledger→Prop}
 (h:Balanced held l)(none:Keeps copies (f none) post l)
 (some:∀p,Balanced (p::held) {l with live:=p::l.live} →
  Keeps copies (f (some p)) post {l with live:=p::l.live}):
 Keeps copies (pallocGetPage user >>= f) post l:=by
 refine ⟨trivial,fun r fresh=>?_⟩
 cases r with
 | none=>exact none
 | some p=>exact some p (h.take (fresh p rfl))

lemma keeps_free {f:Unit→Proc α}{post:α→Ledger→Prop}(h:Balanced (p::held) l)
 (rest:Balanced held {l with live:=l.live.erase p} →
  Keeps copies (f ()) post {l with live:=l.live.erase p}):
 Keeps copies (pallocFreePage p >>= f) post l:=
 ⟨h.drop.1,fun _ _=>rest h.drop.2⟩

lemma keeps_pagedir {f:Option PageDir→Proc α}{post:α→Ledger→Prop}
 (rest:∀r,l.pd=r → Keeps copies (f r) post l):
 Keeps copies (ask Ask.pagedir >>= f) post l:=
 meets_ask trivial fun r dir=>rest r dir.symm
lemma keeps_setPagedir {pd:Option PageDir}{f:Unit→Proc α}{post:α→Ledger→Prop}
 (rest:Keeps copies (f ()) post {l with pd}):
 Keeps copies (ask (Ask.setPagedir pd) >>= f) post l:=
 meets_ask trivial fun _ _=>rest

lemma keeps_only {ks:List Kind}{p:Proc α}{post:α→Ledger→Prop}(h:Only ks p)
 (none:Kind.palloc∉ks ∧ Kind.pallocFree∉ks ∧ Kind.setPagedir∉ks ∧ Kind.exit∉ks)
 (rest:∀a,post a l):Keeps copies p post l:=by
 refine Avoids.meets h (fun q hq=>?_) rest
 have hk:kind q∈ks:=by simpa using hq
 cases q with
 | palloc user=>exact absurd hk none.1
 | pallocFree page=>exact absurd hk none.2.1
 | setPagedir pd=>exact absurd hk none.2.2.1
 | exit status=>exact absurd hk none.2.2.2
 | _=>exact ⟨trivial,fun _=>rfl⟩

lemma keeps_bind {p:Proc α}{f:α→Proc β}{mid:α→Ledger→Prop}
 {post:β→Ledger→Prop}(hp:Keeps copies p mid l)
 (hf:∀a l',mid a l' → Keeps copies (f a) post l'):Keeps copies (p >>= f) post l:=
 meets_bind.2 (hp.mono hf)

end

section
variable {copies held:List ℕ}{l:Ledger}{pd:PageDir}{upage:Addr}{kpage:ℕ}{writable:Bool}

/-- The page that is to be mapped goes into the directory, with a new table if there is one. -/
lemma keeps_pagedirSetPage (h:Balanced (kpage::held) l)(dir:l.pd=some pd):
 Keeps copies (pagedirSetPage pd upage kpage writable) (fun r l'=>
  match r with
  | none=>Balanced (kpage::held) l' ∧ l'.pd=some pd
  | some pd'=>Balanced held {l' with pd:=some pd'}) l:=by
 unfold pagedirSetPage
 split
 · exact meets_stop trivial
 rename_i valid
 have user:(pdNo upage).val<768:=by
  have low:isUserVaddr upage:=by
   by_contra high
   exact valid (.inr high)
  have bound:upage.toNat<3221225472:=UInt32.lt_iff_toNat_lt.1 low
  change upage.toNat/2^22%1024<768
  omega
 have pages:l.live.Perm (kpage::held++userPages pd):=by
  have:=h.perm
  rwa[dir] at this
 cases ht:pd.table (pdNo upage) with
 | some pt=>
  dsimp only
  split
  · exact meets_stop trivial
  · have same:(tablePages pt).Perm ([]++slotPages pd (pdNo upage)):=by
     unfold slotPages
     rw[if_pos user,ht,nil_append]
    have grown:=userPages_setEntry kpage writable user same (Bool.eq_false_of_not_eq_true ‹_›)
    rw[cons_append,nil_append] at grown
    have mapped:l.live.Perm (held ++
      userPages (setEntry pd upage pt (pteCreateUser kpage writable))):=
     pages.trans (perm_middle.symm.trans (grown.symm.append_left held))
    exact Balanced.mk h.nodup mapped
 | none=>
  refine ⟨trivial,fun table fresh=>?_⟩
  cases table with
  | none=>exact ⟨h,dir⟩
  | some table=>
   have new:(tablePages ⟨table,fun _=>.zero⟩).Perm ([table]++slotPages pd (pdNo upage)):=by
    unfold slotPages
    rw[if_pos user,ht,tablePages_zero]
    exact Perm.refl _
   have grown:=userPages_setEntry kpage writable user new rfl
   have mapped:(table::l.live).Perm (held++userPages
     (setEntry pd upage ⟨table,fun _=>.zero⟩ (pteCreateUser kpage writable))):=by
    refine (pages.cons table).trans (Perm.trans ?_ (grown.symm.append_left held))
    rw[perm_iff_count]
    simp only[count_append,count_cons,cons_append,nil_append]
    omega
   exact Balanced.mk (h.take (fresh table rfl)).nodup mapped

lemma keeps_installPage (h:Balanced (kpage::held) l):
 Keeps copies (installPage upage kpage writable)
  (fun ok l'=>Balanced (if ok then held else kpage::held) l') l:=by
 refine keeps_pagedir fun r dir=>?_
 cases r with
 | none=>exact meets_stop trivial
 | some pd=>
  dsimp only
  split
  · exact h
  · refine keeps_bind (keeps_pagedirSetPage h dir) fun r l' mapped=>?_
    cases r with
    | none=>exact mapped.1
    | some pd'=>exact keeps_setPagedir mapped

lemma keeps_loadPage (file:Option ℕ)(readBytes:ℕ)(h:Balanced held l):
 Keeps copies (loadPage file upage readBytes writable) (fun _ l'=>Balanced held l') l:=by
 refine keeps_palloc h h fun kpage taken=>?_
 refine keeps_bind (keeps_only (only_fileRead file _ _) (by decide) fun _=>taken) ?_
 intro bytes l' taken
 split
 · exact keeps_free taken id
 · refine meets_ask trivial fun _ _=>keeps_bind (keeps_installPage taken) fun ok l' mapped=>?_
   cases ok with
   | true=>exact mapped
   | false=>exact keeps_free mapped id

lemma keeps_loadPages (file:Option ℕ)(turns readBytes zeroBytes:ℕ)(h:Balanced held l):
 Keeps copies (loadPages file writable turns upage readBytes zeroBytes)
  (fun _ l'=>Balanced held l') l:=by
 induction turns generalizing upage readBytes zeroBytes l with
 | zero=>exact meets_stop trivial
 | succ turns ih=>
  unfold loadPages
  split
  · exact h
  · refine keeps_bind (keeps_loadPage file _ h) fun loaded l' rest=>?_
    cases loaded with
    | true=>exact ih _ _ rest
    | false=>exact rest

lemma keeps_loadSegment (file:Option ℕ)(ofs:ℤ)(readBytes zeroBytes:ℕ)(h:Balanced held l):
 Keeps copies (loadSegment file ofs upage readBytes zeroBytes writable)
  (fun _ l'=>Balanced held l') l:=by
 unfold loadSegment
 split
 · exact meets_stop trivial
 · refine keeps_bind (keeps_only (only_fileSeek file ofs) (by decide) fun _=>h) ?_
   exact fun _ l' rest=>keeps_loadPages file _ readBytes zeroBytes rest

lemma keeps_pageFault (a:Addr)(notPresent write:Bool)(h:Balanced copies l):
 Keeps copies (pageFault a notPresent write) (fun _ l'=>Balanced copies l') l:=by
 unfold pageFault
 split
 · refine keeps_palloc h h fun page taken=>keeps_pagedir fun r dir=>?_
   cases r with
   | none=>exact meets_stop trivial
   | some pd=>
    refine keeps_bind (keeps_pagedirSetPage taken dir) fun r l' mapped=>?_
    cases r with
    | none=>exact keeps_free mapped.1 fun rest=>meets_stop rest
    | some pd'=>exact ⟨trivial,fun _ _=>mapped⟩
 · exact meets_stop h

def answered {α:Type}(page:Option ℕ):Proc α→Proc α
 | .ask (.palloc false) k=>k page
 | p=>p

lemma keeps_setupStack (input:List UInt8)(copy:Option ℕ)(h:Balanced held l):
 Keeps copies (answered copy (setupStack input)) (fun _ l'=>Balanced held l') l:=by
 have push:∀ (success:Bool) (l:Ledger),Balanced held l → Keeps copies (do
   let esp←pushArguments (input.take (pgSize-1))
   return (success,esp)) (fun _ l'=>Balanced held l') l:=fun success l h=>
  keeps_bind (keeps_only (only_pushArguments _) (by decide) fun _=>h) fun _ _ h=>h
 cases copy with
 | none=>exact h
 | some page=>
  refine keeps_palloc h (push false l h) fun kpage taken=>?_
  refine keeps_bind (keeps_installPage taken) fun ok l' mapped=>?_
  cases ok with
  | true=>exact push true l' mapped
  | false=>exact keeps_free mapped (push false _)

def create (init:PageDir):Proc Unit:=do
 match←pagedirCreate init with
 | none=>return ()
 | some pd=>ask (Ask.setPagedir (some pd))

lemma userPages_new {init:PageDir}(kernelOnly:KernelOnly init)(p:ℕ):
 userPages {init with page:=p}=[p]:=by
 have none:(finRange 1024).flatMap (slotPages {init with page:=p})=[]:=by
  refine flatMap_eq_nil_iff.2 fun i _=>?_
  unfold slotPages
  split
  · rw[show ({init with page:=p}:PageDir).table i=none from kernelOnly i ‹_›]
  · rfl
 rw[userPages_eq,none]
 rfl

lemma keeps_create {init:PageDir}(kernelOnly:KernelOnly init)(h:Balanced copies l)
 (first:l.pd=none):
 Keeps copies (create init) (fun _ l'=>Balanced copies l') l:=by
 have made:Keeps copies (pagedirCreate init) (fun r l'=>
   match r with
   | none=>Balanced copies l'
   | some pd=>Balanced copies {l' with pd:=some pd}) l:=by
  refine keeps_palloc h h fun p taken=>?_
  have mapped:(p::l.live).Perm (copies++userPages {init with page:=p}):=by
   have perm:=taken.perm
   rw[first,pagesOf,append_nil] at perm
   rw[userPages_new kernelOnly]
   exact perm.trans (perm_append_singleton p copies).symm
  exact Balanced.mk taken.nodup mapped
 refine keeps_bind made fun r l' made=>?_
 cases r with
 | none=>exact made
 | some pd=>exact keeps_setPagedir made

lemma keeps_freePages (pages:List ℕ)(nodup:l.live.Nodup)(perm:l.live.Perm (copies++pages)):
 Keeps copies (pages.forM pallocFreePage)
  (fun _ l'=>l'.pd=l.pd ∧ l'.live.Perm copies ∧ l'.live.Nodup) l:=by
 induction pages generalizing l with
 | nil=>exact ⟨rfl,by simpa using perm,nodup⟩
 | cons p pages ih=>
  have mem:p∈l.live:=perm.mem_iff.2 (by simp)
  have left:(l.live.erase p).Perm (copies++pages):=
   ((perm_cons_erase mem).symm.trans (perm.trans perm_middle)).cons_inv
  exact ⟨mem,fun _ _=>ih (l:={l with live:=l.live.erase p}) (nodup.erase p) left⟩

lemma keeps_processExit (h:Balanced copies l):Keeps copies processExit
  (fun _ l'=>l'.pd=none ∧ l'.live.Perm copies ∧ l'.live.Nodup) l:=by
 refine keeps_bind (keeps_only (only_closeAll _) (by decide) fun _=>h) fun _ l h=>?_
 refine keeps_pagedir fun r dir=>?_
 have perm:=h.perm
 rw[dir] at perm
 cases r with
 | none=>exact ⟨dir,by simpa[pagesOf] using perm,h.nodup⟩
 | some pd=>
  refine keeps_setPagedir ?_
  rw[pagesOf] at perm
  unfold pagedirDestroy
  generalize userPages pd=pages at perm ⊢
  exact keeps_freePages (l:={l with pd:=none}) pages h.nodup perm

end

/-- What a process does until it exits. `copy` is the page for the copy of the command line. -/
inductive Op where
 | loadSegment (file:Option ℕ) (ofs:ℤ) (upage:Addr) (readBytes zeroBytes:ℕ) (writable:Bool)
 | setupStack (input:List UInt8) (copy:Option ℕ)
 | pageFault (faultAddr:Addr) (notPresent write:Bool)

def Op.copy:Op→Option ℕ
 | .setupStack _ copy=>copy
 | _=>none

def Op.code:Op→Proc Unit
 | .loadSegment file ofs upage readBytes zeroBytes writable=>do
  let _←Process.loadSegment file ofs upage readBytes zeroBytes writable
  return ()
 | .setupStack input copy=>do
  let _←answered copy (Process.setupStack input)
  return ()
 | .pageFault faultAddr notPresent write=>Syscall.pageFault faultAddr notPresent write

inductive Stage where
 | absent
 | running
 | exiting
 | gone
 deriving DecidableEq,Repr

/-- `gets` and `frees` are the pages that the process has got and has given back so far, `copies`
those that `setup_stack` has got for a copy of the command line, and `others` the pages of other
processes and of the kernel. -/
structure State where
 stage:Stage
 code:Proc Unit
 ledger:Ledger
 copies:List ℕ
 gets:List ℕ
 frees:List ℕ
 others:Set ℕ

def State.Unused (s:State)(p:ℕ):Prop:=p∉s.ledger.live ∧ p∉s.others
def quiet:List Kind:=
 [.word,.byte,.store,.isMapped,.putbuf,.fd,.setFd,.lockAcquire,.lockRelease,.filesys,
  .seek,.tell,.fill,.spawn,.processWait]

inductive Step (init:PageDir)(s:State):State→Prop where
 | create (absent:s.stage=.absent) (idle:s.code=.ret ()):
   Step init s {s with stage:=.running,code:=create init}
 | call (op:Op) (running:s.stage=.running) (idle:s.code=.ret ()) (unused:∀p∈op.copy,s.Unused p):
   Step init s {s with
    code:=op.code
    ledger:={s.ledger with live:=op.copy.toList++s.ledger.live}
    copies:=op.copy.toList++s.copies
    gets:=op.copy.toList++s.gets}
 | palloc {user:Bool} {k:Option ℕ→Proc Unit} (r:Option ℕ)
   (asks:s.code=.ask (.palloc user) k) (unused:∀p∈r,s.Unused p):
   Step init s {s with
    code:=k r
    ledger:={s.ledger with live:=r.toList++s.ledger.live}
    gets:=r.toList++s.gets}
 | free {p:ℕ} {k:Unit→Proc Unit} (asks:s.code=.ask (.pallocFree p) k):
   Step init s {s with
    code:=k ()
    ledger:={s.ledger with live:=s.ledger.live.erase p}
    frees:=p::s.frees}
 | pagedir {k:Option PageDir→Proc Unit} (asks:s.code=.ask .pagedir k):
   Step init s {s with code:=k s.ledger.pd}
 | setPagedir {pd:Option PageDir} {k:Unit→Proc Unit} (asks:s.code=.ask (.setPagedir pd) k):
   Step init s {s with code:=k (),ledger:={s.ledger with pd}}
 | other {q:Ask} {k:q.Answer → Proc Unit} (r:q.Answer) (asks:s.code=.ask q k)
   (free:kind q∈quiet):Step init s {s with code:=k r}
 | exit (running:s.stage=.running) (leaves:s.code=.ret () ∨ ∃status k,s.code=.ask (.exit status) k):
   Step init s {s with stage:=.exiting,code:=processExit}
 | done (exiting:s.stage=.exiting) (idle:s.code=.ret ()):Step init s {s with stage:=.gone}
 | world (others:Set ℕ) (apart:∀p∈others,p∉s.ledger.live):Step init s {s with others}

def State.initial (others:Set ℕ):State:=⟨.absent,.ret (),⟨none,[]⟩,[],[],[],others⟩
def Stage.post (copies:List ℕ):Stage→Ledger→Prop
 | .absent,l=>Balanced copies l ∧ l.pd=none
 | .running,l=>Balanced copies l
 | .exiting,l | .gone,l=>l.pd=none ∧ l.live.Perm copies ∧ l.live.Nodup

structure Inv (s:State):Prop where
 code:Keeps s.copies s.code (fun _=>s.stage.post s.copies) s.ledger
 idle:s.stage=.gone → s.code=.ret ()
 nodup:s.ledger.live.Nodup
 count:∀p,s.gets.count p=s.frees.count p+s.ledger.live.count p
 apart:∀p∈s.ledger.live,p∉s.others

section
variable {init:PageDir}{s s':State}{q:Ask}{k:q.Answer → Proc Unit}

lemma nodup_take {r:Option ℕ}(nodup:s.ledger.live.Nodup)
 (unused:∀p∈r,s.Unused p):(r.toList++s.ledger.live).Nodup:=by
 cases r with
 | none=>exact nodup
 | some p=>exact nodup_cons.2 ⟨(unused p rfl).1,nodup⟩

lemma apart_take {r:Option ℕ}(apart:∀p∈s.ledger.live,p∉s.others)
 (unused:∀p∈r,s.Unused p):∀p∈r.toList++s.ledger.live,p∉s.others:=by
 intro p hp
 rcases mem_append.1 hp with new|old
 · exact (unused p (Option.mem_toList.1 new)).2
 · exact apart p old

lemma count_take (r:Option ℕ)(count:∀p,s.gets.count p=s.frees.count p+s.ledger.live.count p)(p:ℕ):
 (r.toList++s.gets).count p=s.frees.count p+(r.toList++s.ledger.live).count p:=by
 rw[count_append,count_append,count p]
 omega

lemma Op.keeps (op:Op){copies:List ℕ}{l:Ledger}(h:Balanced copies l):
 Keeps copies op.code (fun _ l'=>Balanced copies l') l:=by
 cases op with
 | loadSegment file ofs upage readBytes zeroBytes writable=>
  exact keeps_bind (keeps_loadSegment file ofs readBytes zeroBytes h) fun _ _ h=>h
 | setupStack input copy=>exact keeps_bind (keeps_setupStack input copy h) fun _ _ h=>h
 | pageFault faultAddr notPresent write=>exact keeps_pageFault faultAddr notPresent write h

lemma Inv.allowed (h:Inv s)(asks:s.code=.ask q k):allowed s.copies s.ledger q:=by
 have code:=h.code
 rw[asks] at code
 exact code.1

lemma Inv.answer (h:Inv s)(asks:s.code=.ask q k){r:q.Answer}(admitted:admits s.ledger q r):
 Keeps s.copies (k r) (fun _=>s.stage.post s.copies) (after s.ledger q r):=by
 have code:=h.code
 rw[asks] at code
 exact code.2 r admitted

lemma Inv.post (h:Inv s)(idle:s.code=.ret ()):s.stage.post s.copies s.ledger:=by
 have code:=h.code
 rwa[idle] at code

lemma Inv.busy (h:Inv s)(asks:s.code=.ask q k):s.stage≠.gone:=by
 intro gone
 have idle:=h.idle gone
 rw[asks] at idle
 cases idle

lemma quiet_after (h:kind q∈quiet)(l:Ledger)(r:q.Answer):admits l q r ∧ after l q r=l:=by
 cases q with
 | palloc user=>exact absurd h (show Kind.palloc∉quiet by decide)
 | pallocFree p=>exact absurd h (show Kind.pallocFree∉quiet by decide)
 | pagedir=>exact absurd h (show Kind.pagedir∉quiet by decide)
 | setPagedir pd=>exact absurd h (show Kind.setPagedir∉quiet by decide)
 | _=>exact ⟨trivial,rfl⟩

lemma step_inv (kernelOnly:KernelOnly init)(h:Inv s)(step:Step init s s'):Inv s':=by
 cases step with
 | create absent idle=>
  have post:=h.post idle
  rw[absent] at post
  exact ⟨keeps_create kernelOnly post.1 post.2,nofun,h.nodup,h.count,h.apart⟩
 | call op running idle unused=>
  have post:=h.post idle
  rw[running] at post
  have nodup:=nodup_take h.nodup unused
  have taken:Balanced (op.copy.toList++s.copies)
    {s.ledger with live:=op.copy.toList++s.ledger.live}:=by
   refine ⟨nodup,?_⟩
   rw[append_assoc]
   exact post.perm.append_left _
  refine ⟨?_,fun gone=>?_,nodup,count_take op.copy h.count,apart_take h.apart unused⟩
  · change Keeps _ op.code (fun _=>s.stage.post _) _
    rw[running]
    exact op.keeps taken
  · exact absurd (running.symm.trans gone) (by decide)
 | palloc r asks unused=>
  refine ⟨h.answer asks fun p hp=>(unused p hp).1,fun gone=>absurd gone (h.busy asks),
   nodup_take h.nodup unused,count_take r h.count,apart_take h.apart unused⟩
 | @free p k asks=>
  have mem:p∈s.ledger.live:=h.allowed asks
  refine ⟨h.answer asks trivial,fun gone=>absurd gone (h.busy asks),h.nodup.erase p,
   fun q=>?_,fun q hq=>h.apart q (mem_of_mem_erase hq)⟩
  have same:=(perm_cons_erase mem).count_eq q
  rw[count_cons] at same
  dsimp only
  rw[h.count q,same,count_cons]
  omega
 | pagedir asks=>
  exact ⟨h.answer (r:=s.ledger.pd) asks rfl,fun gone=>absurd gone (h.busy asks),h.nodup,
   h.count,h.apart⟩
 | setPagedir asks=>
  exact ⟨h.answer asks trivial,fun gone=>absurd gone (h.busy asks),h.nodup,h.count,h.apart⟩
 | other r asks free=>
  obtain ⟨admitted,same⟩:=quiet_after free s.ledger r
  have code:=h.answer asks admitted
  rw[same] at code
  exact ⟨code,fun gone=>absurd gone (h.busy asks),h.nodup,h.count,h.apart⟩
 | exit running leaves=>
  have balanced:Balanced s.copies s.ledger:=by
   rcases leaves with idle|⟨status,k,asks⟩
   · have post:=h.post idle
     rwa[running] at post
   · exact h.allowed asks
  exact ⟨keeps_processExit balanced,nofun,h.nodup,h.count,h.apart⟩
 | done exiting idle=>
  have post:=h.post idle
  rw[exiting] at post
  refine ⟨?_,fun _=>idle,h.nodup,h.count,h.apart⟩
  rw[idle]
  exact post
 | world others apart=>
  exact ⟨h.code,h.idle,h.nodup,h.count,fun p hp mem=>apart p mem hp⟩

lemma initial_inv (others:Set ℕ):Inv (State.initial others):=
 ⟨⟨⟨nodup_nil,Perm.refl _⟩,rfl⟩,nofun,nodup_nil,fun _=>rfl,nofun⟩

lemma run_inv (kernelOnly:KernelOnly init)(h:Inv s)
 (run:Relation.ReflTransGen (Step init) s s'):Inv s':=by
 induction run with
 | refl=>exact h
 | tail _ step ih=>exact step_inv kernelOnly ih step

theorem memory_returned_once (kernelOnly:KernelOnly init){others:Set ℕ}
 (run:Relation.ReflTransGen (Step init) (State.initial others) s):
 (∀p k,s.code=.ask (.pallocFree p) k → p∈s.ledger.live ∧ p∉s.others) ∧
 (∀p,s.frees.count p ≤ s.gets.count p ∧ s.gets.count p ≤ s.frees.count p+1) ∧
 (s.stage=.gone → ∀p,s.gets.count p=s.frees.count p+s.copies.count p):=by
 have inv:=run_inv kernelOnly (initial_inv others) run
 refine ⟨fun p k asks=>?_,fun p=>?_,fun gone p=>?_⟩
 · have mem:p∈s.ledger.live:=inv.allowed asks
   exact ⟨mem,inv.apart p mem⟩
 · have count:=inv.count p
   have once:=nodup_iff_count_le_one.1 inv.nodup p
   omega
 · have post:=inv.post (inv.idle gone)
   rw[gone] at post
   rw[inv.count p,post.2.1.count_eq]

end
variable (init:PageDir)

lemma runs_closeAll (s:State)(f:Unit→Proc Unit)(slots:List ℕ):
 Relation.ReflTransGen (Step init) {s with code:=closeAll slots >>= f} {s with code:=f ()}:=by
 induction slots with
 | nil=>exact .refl
 | cons i rest ih=>
  -- the slot is empty, so there is no file to close
  have empty:Step init {s with code:=closeAll (i::rest) >>= f}
    {s with code:=(do ask (Ask.setFd i none);closeAll rest) >>= f}:=
   .other (q:=.fd i) (k:=fun file=>(do
    fileClose file
    ask (Ask.setFd i none)
    closeAll rest) >>= f) none rfl (show Kind.fd∈quiet by decide)
  have cleared:Step init {s with code:=(do ask (Ask.setFd i none);closeAll rest) >>= f}
    {s with code:=closeAll rest >>= f}:=
   .other (q:=.setFd i none) (k:=fun _=>closeAll rest >>= f) () rfl
    (show Kind.setFd∈quiet by decide)
  exact .head empty (.head cleared ih)

lemma runs_freePages (pages:List ℕ)(s:State)(code:s.code=pages.forM pallocFreePage):
 ∃s',Relation.ReflTransGen (Step init) s s' ∧ s'.code=.ret () ∧ s'.stage=s.stage ∧
  s'.gets=s.gets ∧ s'.copies=s.copies:=by
 induction pages generalizing s with
 | nil=>exact ⟨s,.refl,code,rfl,rfl,rfl⟩
 | cons p pages ih=>
  obtain ⟨s',run,rest⟩:=ih _ (rfl:State.code {s with
   code:=pages.forM pallocFreePage
   ledger:={s.ledger with live:=s.ledger.live.erase p}
   frees:=p::s.frees}=_)
  exact ⟨s',.head (.free (k:=fun _=>pages.forM pallocFreePage) code) run,rest⟩

lemma step_setPagedir (s:State)(pd:Option PageDir)(rest:Proc Unit):
 Step init {s with code:=ask (Ask.setPagedir pd) >>= fun _=>rest}
  {s with code:=rest,ledger:={s.ledger with pd}}:=
 .setPagedir (k:=fun _=>rest) rfl

lemma exit_completes (s:State)(running:s.stage=.running)(idle:s.code=.ret ()):
 ∃s',Relation.ReflTransGen (Step init) s s' ∧ s'.stage=.gone ∧ s'.gets=s.gets ∧
  s'.copies=s.copies:=by
 let destroy:Option PageDir→Proc Unit:=fun pd=>
  match pd with
  | none=>return ()
  | some pd=>do
   ask (Ask.setPagedir none)
   pagedirDestroy pd
 let exits:State:={s with stage:=.exiting}
 have leave:Step init s {exits with code:=processExit}:=.exit running (.inl idle)
 have closed:=runs_closeAll init exits (fun _=>ask Ask.pagedir >>= destroy) (range' 2 126)
 have asked:Step init {exits with code:=ask Ask.pagedir >>= destroy}
   {exits with code:=destroy s.ledger.pd}:=.pagedir rfl
 have begun:=(closed.tail asked).head leave
 cases dir:s.ledger.pd with
 | none=>
  rw[dir] at begun
  exact ⟨_,begun.tail (.done rfl rfl),rfl,rfl,rfl⟩
 | some pd=>
  rw[dir] at begun
  have cleared:=step_setPagedir init exits none (pagedirDestroy pd)
  obtain ⟨s',freed,ended,stage,gets,copies⟩:=runs_freePages init (userPages pd)
   {exits with code:=pagedirDestroy pd,ledger:={s.ledger with pd:=none}}
   (by unfold pagedirDestroy;with_reducible rfl)
  refine ⟨{s' with stage:=.gone},?_,rfl,gets,copies⟩
  exact ((begun.tail cleared).trans freed).tail (.done stage ended)

/-- A process that gets a page in a page fault, with a page for its table, and exits. -/
theorem memory_returned_once_fault:∃s,
 Relation.ReflTransGen (Step ⟨0,fun _=>none⟩) (State.initial {0}) s ∧ s.stage=.gone ∧
  s.gets=[6,7,5] ∧ s.frees.count 5=1 ∧ s.frees.count 6=1 ∧ s.frees.count 7=1:=by
 have faulted:∃s,Relation.ReflTransGen (Step ⟨0,fun _=>none⟩) (State.initial {0}) s ∧
   s.stage=.running ∧ s.code=.ret () ∧ s.gets=[6,7,5] ∧ s.copies=[]:=by
  refine ⟨_,.head (.create rfl rfl) <| .head (.palloc (some 5) rfl ?_) <|
   .head (.setPagedir rfl) <| .head (.call (.pageFault 0x1000 true true) rfl rfl nofun) <|
   .head (.palloc (some 7) rfl ?_) <| .head (.pagedir rfl) <| .head (.palloc (some 6) rfl ?_) <|
   .head (.setPagedir rfl) .refl,rfl,rfl,rfl,rfl⟩
  all_goals
   rintro p ⟨⟩
   exact ⟨by decide,by simp[State.initial]⟩
 obtain ⟨s,run,running,idle,gets,copies⟩:=faulted
 obtain ⟨s',rest,gone,gets',copies'⟩:=exit_completes ⟨0,fun _=>none⟩ s running idle
 have whole:=run.trans rest
 have once:=(memory_returned_once (fun _ _=>rfl) whole).2.2 gone
 rw[gets'.trans gets,copies'.trans copies] at once
 refine ⟨s',whole,gone,gets'.trans gets,?_,?_,?_⟩
 · exact (once 5).symm
 · exact (once 6).symm
 · exact (once 7).symm

end Pintos.ProcessMemory
