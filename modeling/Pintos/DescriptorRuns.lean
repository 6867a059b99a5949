import Pintos.Descriptors
import Pintos.FilesysOwnership

/-! What `open`, `close` and `process_exit` do to the descriptor tables, and what holds
in every run of them. -/
namespace Pintos.Descriptors
open ExecHoare ExecRuns Interaction Paging Process Syscall Cache Directory InodeData Filesys List Option
open FileCalls DescriptorTables

def view (s:State):Tables:=⟨s.fds,(handles s.fs).1,(handles s.fs).2,s.opened,s.closed⟩
def FileFault:Stop→Prop
 | .fault _=>True
 | _=>False

section
variable {io: SectorIO}{stack:DirEntry}{p:ℕ}{m:Memory}{s:State}

lemma view_files {fs:Fs}(same:handles fs=handles s.fs):view {s with fs}=view s:=by
 unfold view
 rw[same]

lemma holds_filesysOpen (name:Name):
 Holds (handle io stack p m (.filesys (.filesysOpen name))) s (fun r t=>match r with
  | none=>view t=view s
  | some f=>∀i,view {t with fds:=setSlot t.fds p i (some f)}=(view s).opening p i)
  FileFault:=by
 have opens:Holds (onFiles (openName io (nameOf m name) stack)) s
   (fun r t=>∃fs,t={s with fs} ∧ Opened s.fs r fs) FileFault:=
  holds_onFiles.2 ((openName_opened _ s.fs).mono (fun r fs h=>⟨fs,rfl,h⟩)
   fun _ _=>trivial)
 refine opens.seq ?_
 rintro r t ⟨fs,rfl,h⟩
 cases r with
 | none=>
  change view {s with fs,opened:=Function.update s.opened p (s.opened p)}=view s
  rw[Function.update_eq_self]
  exact view_files h
 | some f=>
  obtain ⟨rfl,same⟩:=h
  intro i
  change (⟨_,(handles fs).1,(handles fs).2,_,_⟩:Tables)=_
  rw[same]
  rfl

lemma holds_fileClose (file:Option ℕ):
 Holds (run (handle io stack p m) (Process.fileClose file)) s (fun _ t=>∀i,s.fds p i=file →
  view {t with fds:=setSlot t.fds p i none}=(view s).closing p i) FileFault:=by
 cases file with
 | none=>
  intro i empty
  have closing:(view s).closing p i=view s:=by
   unfold Tables.closing
   rw[show (view s).fds p i=none from empty]
  rw[closing]
  exact congrArg (fun fds=>view {s with fds}) (setSlot_id empty)
 | some f=>
  have closes:Holds (onFiles (Filesys.fileClose io (some f))) s (fun _ t=>∃fs,
    t={s with fs} ∧ handles fs=((handles s.fs).1.erase f,s.fs.nextFile)) FileFault:=
   holds_onFiles.2 ((fileClose_closed f s.fs).mono (fun _ fs h=>⟨fs,rfl,h⟩)
    fun _ _=>trivial)
  refine holds_run_ask.2 (closes.seq ?_)
  rintro _ t ⟨fs,rfl,same⟩ i full
  change (⟨_,(handles fs).1,(handles fs).2,_,_⟩:Tables)=_
  unfold Tables.closing
  rw[show (view s).fds p i=some f from full,same]
  rfl

lemma holds_closeSlot {i:ℕ}(hi:i∈slots):
 Holds (run (handle io stack p m) (do
  let file:Option ℕ←ask (Ask.fd i)
  Process.fileClose file
  ask (Ask.setFd i none))) s (fun _ t=>view t=(view s).closing p i) FileFault:=by
 refine holds_run_bind.2 ((holds_fd hi).2 (holds_run_bind.2 ?_))
 exact (holds_fileClose (s.fds p i)).imp fun _ t h=>(holds_setFd hi).2 (h i rfl)

lemma holds_closeAll {is:List ℕ}(his:∀i∈is,i∈slots):
 Holds (run (handle io stack p m) (closeAll is)) s
  (fun _ t=>view t=(view s).closingAll p is) FileFault:=by
 induction is generalizing s with
 | nil=>exact rfl
 | cons i rest ih=>
  have hi:i∈slots:=his i mem_cons_self
  refine holds_run_bind.2 ((holds_fd hi).2 (holds_run_bind.2 ?_))
  refine (holds_fileClose (s.fds p i)).imp fun _ t h=>
   holds_run_bind.2 ((holds_setFd hi).2 ?_)
  refine (ih fun j hj=>his j (mem_cons_of_mem _ hj)).imp fun _ u hu=>?_
  rw[hu,h i rfl]
  rfl

/-- The slot that `open` takes is the first empty one of those that it looks at. -/
def FirstEmpty (fds:ℕ→Option ℕ)(is:List ℕ)(i:ℕ):Prop:=
 ∃before after,is=before++i::after ∧ (∀j∈before,fds j≠none) ∧ fds i=none

lemma holds_openFrom (a:Addr){is:List ℕ}(his:∀i∈is,i∈slots):
 Holds (run (handle io stack p m) (openFrom a is)) s (fun r t=>
  (r=-1 ∧ view t=view s) ∨
  ∃i:ℕ,r=(i:ℤ) ∧ FirstEmpty (s.fds p) is i ∧ view t=(view s).opening p i) FileFault:=by
 induction is with
 | nil=>exact .inl ⟨rfl,rfl⟩
 | cons i rest ih=>
  have hi:i∈slots:=his i mem_cons_self
  refine holds_run_bind.2 ((holds_fd hi).2 ?_)
  split
  · rename_i empty
    refine holds_run_bind.2 (holds_run_ask.2 (holds_run_bind.2 (holds_run_ask.2 ?_)))
    refine (holds_filesysOpen (.user a)).imp fun file t opened=>?_
    refine holds_run_bind.2 ((holds_setFd hi).2 ?_)
    refine holds_run_bind.2 (holds_run_ask.2 (holds_run_bind.2 ((holds_fd hi).2 ?_)))
    simp only[setSlot_same]
    cases file with
    | none=>
     have same:t.fds=s.fds:=congrArg Tables.fds opened
     have id:setSlot t.fds p i none=t.fds:=setSlot_id (by rw[same];exact empty)
     refine .inl ⟨if_pos rfl,?_⟩
     rw[id]
     exact opened
    | some f=>exact .inr ⟨i,if_neg nofun,⟨[],rest,rfl,nofun,empty⟩,opened i⟩
  · rename_i full
    refine (ih fun j hj=>his j (mem_cons_of_mem _ hj)).imp fun r t h=>?_
    rcases h with h|⟨j,rfl,⟨before,after,rfl,hb,hj⟩,ht⟩
    · exact .inl h
    · refine .inr ⟨j,rfl,⟨i::before,after,rfl,fun k hk=>?_,hj⟩,ht⟩
      rcases mem_cons.1 hk with rfl|hk
      · exact full
      · exact hb k hk

lemma holds_openFile {a:Addr}(ha:¬Rejected m.pd a):
 Holds (run (handle io stack p m) (openFile a)) s (fun r t=>
  (r=-1 ∧ view t=view s) ∨
  ∃i:ℕ,r=(i:ℤ) ∧ FirstEmpty (s.fds p) slots i ∧ view t=(view s).opening p i)
  FileFault:=by
 unfold openFile
 split
 · exact .inl ⟨rfl,rfl⟩
 refine holds_run_bind.2 (holds_pointer.2 ⟨fun hr=>absurd hr ha,fun _=>?_⟩)
 change Holds (run _ (if m.byte a=0 then _ else _)) s _ _
 split
 · exact .inl ⟨rfl,rfl⟩
 · exact holds_openFrom a fun i hi=>hi

lemma holds_close_slot {fd:ℤ}(low:2≤fd)(high:fd<fdsLength):
 Holds (run (handle io stack p m) (close fd)) s
  (fun _ t=>view t=(view s).closing p fd.toNat) FileFault:=by
 have good:¬badFd fd:=by
  unfold badFd
  omega
 unfold close lockedFd
 rw[if_neg good,holds_locked]
 exact holds_closeSlot ((toNat_slots good).2 high)

lemma holds_freePages (pages:List ℕ):
 Holds (run (handle io stack p m) (pages.forM pallocFreePage)) s (fun _ t=>t=s) FileFault:=by
 induction pages with
 | nil=>rfl
 | cons page rest ih=>exact holds_run_bind.2 (holds_run_ask.2 ih)

lemma holds_processExit:Holds (run (handle io stack p m) processExit) s
  (fun _ t=>view t=(view s).closingAll p slots) FileFault:=by
 refine holds_run_bind.2 ((holds_closeAll fun _ hi=>hi).imp fun _ t ht=>?_)
 have pagedir:handle io stack p m .pagedir=pure (some m.pd):=rfl
 have setPagedir:handle io stack p m (.setPagedir none)=pure ():=rfl
 rw[holds_run_bind,holds_run_ask,pagedir,holds_pure]
 rw[holds_run_bind,holds_run_ask,setPagedir,holds_pure]
 unfold pagedirDestroy
 generalize userPages m.pd=pages
 refine (holds_freePages pages).imp ?_
 rintro _ u rfl
 exact ht

end

/-- What a process does to its table, with `m` as its memory at the time, and what the
rest of the kernel does to the file system. -/
inductive Act where
 | openFile (p:ℕ) (m:Memory) (a:Addr)
 | close (p:ℕ) (m:Memory) (fd:ℤ)
 | processExit (p:ℕ) (m:Memory)
 | other (c:Filesys.Call)

def next (io: SectorIO)(stack:DirEntry)(s:State):Act→Option State
 | .openFile p m a=>(result (run (handle io stack p m) (openFile a)) s).map (·.2)
 | .close p m fd=>(result (run (handle io stack p m) (close fd)) s).map (·.2)
 | .processExit p m=>(result (run (handle io stack p m) processExit) s).map (·.2)
 | .other c=>(result (onFiles (c.run io)) s).map (·.2)

/-- Pointers and descriptors pass the tests, and files in the tables are closed by
nothing else. -/
def Valid (s:State):Act→Prop
 | .openFile _ m a=>¬Rejected m.pd a
 | .close _ _ fd=>2≤fd ∧ fd<fdsLength
 | .processExit _ _=>True
 | .other c=>∀f,c=.fileClose f → ∀p i,s.fds p i≠some f

def started (fs:Fs):State:=⟨fs,fun _ _=>none,fun _=>[],fun _=>[]⟩
variable {io: SectorIO}{stack:DirEntry}{s t:State}

lemma FirstEmpty.least {fds:ℕ→Option ℕ}{i:ℕ}(h:FirstEmpty fds slots i):
 i∈slots ∧ fds i=none ∧ ∀j,2≤j → j < i → fds j≠none:=by
 obtain ⟨before,after,split,full,empty⟩:=h
 have hi:i∈slots:=split▸mem_append_right _ mem_cons_self
 refine ⟨hi,empty,fun j hj hlt=>?_⟩
 have hm:j∈slots:=mem_slots.2 ⟨hj,hlt.trans (mem_slots.1 hi).2⟩
 have sorted:slots.Pairwise (· < ·):=pairwise_lt_range'
 rw[split] at hm sorted
 rcases mem_append.1 hm with hm|hm
 · exact full j hm
 rcases mem_cons.1 hm with rfl|hm
 · exact absurd hlt (Nat.lt_irrefl _)
 · have tail:=(pairwise_append.1 sorted).2.1
   exact absurd ((pairwise_cons.1 tail).1 j hm) (Nat.lt_asymm hlt)

lemma inv_started {fs:Fs}(h:Fresh fs):Inv (view (started fs)):=by
 refine ⟨h.nodup,h.bound,nofun,nofun,nofun,fun p=>?_⟩
 change ([]:List ℕ).Perm ([]++openFiles fun _=>none)
 exact Perm.refl _

lemma other_inv (h:Inv (view s)){c:Filesys.Call}(valid:Valid s (.other c)):
 Holds (onFiles (c.run io)) s (fun _ t=>Inv (view t)) FileFault:=by
 have fresh:Fresh s.fs:=⟨h.nodup,h.bound⟩
 refine holds_onFiles.2 ((call_fresh fresh c).mono ?_ fun _ _=>trivial)
 rintro _ fs ⟨fresh',kept⟩
 refine h.elsewhere fresh'.nodup fresh'.bound fun p i f hf=>kept f (h.held p i f hf) ?_
 rintro g rfl rfl
 exact valid f rfl p i hf

lemma next_inv (h:Inv (view s)){a:Act}(valid:Valid s a)
 (step:next io stack s a=some t):Inv (view t):=by
 cases a with
 | openFile p m a=>
  obtain ⟨r,hr,rfl⟩:=map_eq_some_iff.1 step
  rcases (holds_openFile valid).result hr with ⟨-,same⟩|⟨i,-,first,opening⟩
  · rw[same]
    exact h
  · rw[opening]
    exact h.opening first.least.1 first.least.2.1
 | close p m fd=>
  obtain ⟨r,hr,rfl⟩:=map_eq_some_iff.1 step
  rw[(holds_close_slot valid.1 valid.2).result hr]
  exact h.closing
 | processExit p m=>
  obtain ⟨r,hr,rfl⟩:=map_eq_some_iff.1 step
  rw[holds_processExit.result hr]
  exact h.closingAll slots
 | other c=>
  obtain ⟨r,hr,rfl⟩:=map_eq_some_iff.1 step
  exact (other_inv h valid).result hr

def TakesLeast (s:State)(p:ℕ)(r:ℤ)(t:State):Prop:=
 ∃i:ℕ,r=i ∧ 2 ≤ i ∧ i<128 ∧ s.fds p i=none ∧ (∀j,2≤j → j < i → s.fds p j≠none) ∧
  t.fds p i≠none ∧ ∀q j,¬(q=p ∧ j=i) → t.fds q j=s.fds q j

lemma takesLeast_of_opening {p i:ℕ}(first:FirstEmpty (s.fds p) slots i)
 (opening:view t=(view s).opening p i):TakesLeast s p i t:=by
 obtain ⟨hi,empty,least⟩:=first.least
 have fds:t.fds=setSlot s.fds p i (some (view s).next):=congrArg Tables.fds opening
 refine ⟨i,rfl,(mem_slots.1 hi).1,(mem_slots.1 hi).2,empty,least,?_,fun q j hq=>?_⟩
 · rw[fds,setSlot_same]
   exact nofun
 · rw[fds,setSlot_other hq]

/-- In every state that the processes reach from a file system that was just mounted:
`open` takes the least free descriptor or changes nothing, no two descriptors share a
file, and every file that a process has opened is closed by it exactly once, at the
latest when it exits. -/
theorem descriptor_discipline {format:Bool}{dev:Device}{fs:Fs}{acts:List Act}
 (init:result (filesysInit io format) (boot dev)=some ((),fs))
 (reached:Runs (next io stack) Valid (started fs) acts s):
 (∀p m a,¬Rejected m.pd a → Holds (run (handle io stack p m) (openFile a)) s
  (fun r t=>TakesLeast s p r t ∨ (r=-1 ∧ t.fds=s.fds)) FileFault) ∧
 (∀p q i j f,s.fds p i=some f → s.fds q j=some f → p=q ∧ i=j) ∧
 (∀p,(s.opened p).Perm (s.closed p++openFiles (s.fds p))) ∧
 (∀p m,Holds (run (handle io stack p m) processExit) s
  (fun _ t=>t.opened p=s.opened p ∧ (t.opened p).Perm (t.closed p)) FileFault):=by
 have fresh:Fresh fs:=(filesysInit_fresh format dev).result init
 have inv:Inv (view s):=
  reached.invariant (fun _ _ _ h valid step=>next_inv h valid step) (inv_started fresh)
 refine ⟨fun p m a ha=>?_,inv.inj,inv.conserved,fun p m=>?_⟩
 · refine (holds_openFile ha).imp fun r t h=>?_
   rcases h with ⟨rfl,same⟩|⟨i,rfl,first,opening⟩
   · exact .inr ⟨rfl,congrArg Tables.fds same⟩
   · exact .inl (takesLeast_of_opening first opening)
 · refine holds_processExit.imp fun _ t exited=>?_
   have opened:t.opened=s.opened:=(congrArg Tables.opened exited).trans (closingAll_opened slots)
   have closed:t.closed=((view s).closingAll p slots).closed:=congrArg Tables.closed exited
   have all:=inv.exited (p:=p)
   rw[closingAll_opened] at all
   rw[opened,closed]
   exact ⟨rfl,all⟩

def nameMemory:Memory where
 pd:=stackPage
 byte a:=if a=0xbffff000 then 97 else 0

def plainAct:Act→Bool
 | .openFile _ m a=>¬Rejected m.pd a
 | .close _ _ fd=>2≤fd ∧ fd<fdsLength
 | .processExit _ _=>true
 | .other (.fileClose _)=>false
 | .other _=>true

lemma valid_of_plainAct {a:Act}(h:plainAct a=true):Valid s a:=by
 cases a with
 | openFile p m a | close p m fd=>simpa[plainAct,Valid] using h
 | processExit p m=>trivial
 | other c=>
  rintro f rfl
  cases h

def shareFile:List Act:=
 [.other (.filesysCreate nameA 512 (fun _=>0)),.openFile 7 nameMemory 0xbffff000,
  .openFile 8 nameMemory 0xbffff000,
  .openFile 7 nameMemory 0xbffff000,
  .close 7 nameMemory 2,
  .openFile 7 nameMemory 0xbffff000]

theorem descriptor_discipline_shared:∃fs s,
 result (filesysInit direct true) (boot smallDevice)=some ((),fs) ∧
 Runs (next direct (fun _=>0)) Valid (started fs) shareFile s ∧
 s.opened 7=[5,4,2] ∧ s.closed 7=[2] ∧
 (s.opened 7).Perm (s.closed 7++openFiles (s.fds 7)):=by
 have found:(result (filesysInit direct true) (boot smallDevice)).any (fun r=>
   (exec (next direct (fun _=>0)) (fun _ a=>plainAct a=true) (started r.2) shareFile).any
    (fun s=>s.opened 7=[5,4,2] ∧ s.closed 7=[2]))=true:=by
  decide +kernel
 obtain ⟨⟨⟨⟩,fs⟩,init,found⟩:=(Option.any_eq_true _ _).1 found
 obtain ⟨s,run,logs⟩:=exec_any found
 have valid:Runs (next direct (fun _=>0)) Valid (started fs) shareFile s:=
  run.mono fun _ _ h=>valid_of_plainAct h
 exact ⟨fs,s,init,valid,(of_decide_eq_true logs).1,(of_decide_eq_true logs).2,
  (descriptor_discipline init valid).2.2.1 7⟩

end Pintos.Descriptors
