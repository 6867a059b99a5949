import Pintos.UserMemory

namespace Pintos.UserMemory
open ExecHoare Interaction Paging Process Syscall

section
variable (w:World)

inductive PointerCall where
 | exec (cmdLine:Addr)
 | create (file:Addr) (size:UInt32)
 | remove (file:Addr)
 | openFile (file:Addr)
 | read (fd:ℤ) (buffer:Addr) (size:UInt32)
 | write (fd:ℤ) (buffer:Addr) (size:UInt32)
 deriving DecidableEq,Repr

def perform:PointerCall→Proc (Option ℤ)
 | .exec cmdLine=>returns id (exec cmdLine)
 | .create file size=>returns ofBool (create file size.toNat)
 | .remove file=>returns ofBool (remove file)
 | .openFile file=>returns id (openFile file)
 | .read fd buffer size=>returns id (Syscall.read fd buffer size.toNat)
 | .write fd buffer size=>returns id (write fd buffer size.toNat)

/-- All bytes that the call needs are mapped user memory. -/
def ArgumentMapped:PointerCall→Prop
 | .exec a | .create a _ | .remove a | .openFile a=>∃n,StringAt w.toMemory n a
 | .read _ a size | .write _ a size=>UserRange w.pd a size.toNat

def Refused:PointerCall→Prop
 | .exec a | .create a _=>Rejected w.pd a
 | .remove _=>False
 | .openFile a=>a≠0 ∧ Rejected w.pd a
 | .read fd a _=>fd≤0 ∨ fd=1 ∨ fdsLength<fd ∨ Rejected w.pd a
 | .write fd a _=>fd<1 ∨ fdsLength<fd ∨ Rejected w.pd a

def PointerStop (mapped:Prop):Stop→Prop
 | .badWord _ | .badByte _=>False
 | .exited status=>status=some (-1) ∨ mapped
 | .other=>mapped

/-- The call touches no byte that is not mapped user memory, and if one that it needs
is not, it exits with status -1. -/
def TrustsNothing (c:PointerCall)(n:ℕ):Prop:=
 Holds (run (handle w) (perform c)) n (fun _ _=>ArgumentMapped w c)
  (PointerStop (ArgumentMapped w c))

end
variable {w:World}{a:Addr}{n size:ℕ}{α:Type}{p:Proc α}

def Clean (m:Watch α):Prop:=∀n,Holds m n (fun _ _=>True) (PointerStop True)
lemma clean_bind {β:Type}{m:Watch α}{f:α→Watch β}(hm:Clean m)(hf:∀a,Clean (f a)):Clean (m >>= f):=
 fun n=>(hm n).seq fun a t _=>hf a t
lemma holds_touch {Q:UInt8→ℕ→Prop}{F:Stop→Prop}:
 Holds (touch w a) n Q F ↔ if UserByte w.pd a then Q (w.byte a) n else F (.badByte a):=by
 unfold touch
 split<;>rfl
lemma clean_touch (h:UserByte w.pd a):Clean (touch w a):=fun n=>by
 rw[holds_touch,if_pos h]
 trivial

lemma userRange_succ {pd:PageDir}:UserRange pd a (n+1) ↔ UserByte pd a ∧ UserRange pd (a+1) n:=by
 have shift:∀i,a+UInt32.ofNat (i+1)=a+1+UInt32.ofNat i:=fun i=>by
  rw[UInt32.ofNat_add,UInt32.add_assoc,UInt32.add_comm 1]
  rfl
 constructor
 · intro h
   refine ⟨by simpa using h 0 (by omega),fun i hi=>?_⟩
   rw[←shift]
   exact h (i+1) (by omega)
 · rintro ⟨first,rest⟩ i hi
   cases i with
   | zero=>simpa using first
   | succ i=>
    rw[shift]
    exact rest i (by omega)

lemma userRange_mono {pd:PageDir}{k:ℕ}(h:UserRange pd a n)(hk:k≤n):
 UserRange pd a k:=fun i hi=>h i (by omega)

lemma clean_touchRange (h:UserRange w.pd a n):Clean (touchRange w n a):=by
 induction n generalizing a with
 | zero=>exact fun _=>trivial
 | succ n ih=>
  obtain ⟨first,rest⟩:=userRange_succ.1 h
  exact clean_bind (clean_touch first) fun _=>ih rest

lemma clean_strcmp (h:StringAt w.toMemory n a)(entry:List UInt8):Clean (strcmp w entry a):=by
 induction entry generalizing n a with
 | nil=>exact clean_bind (clean_touch h.first) fun _ _=>trivial
 | cons e es ih=>
  intro t
  refine holds_bind.2 (holds_touch.2 ?_)
  rw[if_pos h.first]
  split
  · rename_i he
    cases n with
    | zero=>exact absurd h.2 he.1
    | succ n=>exact ih h.2.2 t
  · trivial

lemma clean_lookup (h:StringAt w.toMemory n a)(entries:List (List UInt8)):
 Clean (lookup w entries a):=by
 induction entries with
 | nil=>exact fun _=>trivial
 | cons e es ih=>
  refine clean_bind (clean_strcmp h e) fun found=>?_
  cases found with
  | true=>exact fun _=>trivial
  | false=>exact ih

lemma clean_touchString (h:StringAt w.toMemory n a){turns:ℕ}(ht:n<turns):
 Clean (touchString w turns a):=by
 induction turns generalizing n a with
 | zero=>omega
 | succ turns ih=>
  intro t
  refine holds_bind.2 (holds_touch.2 ?_)
  rw[if_pos h.first]
  cases n with
  | zero=>
   rw[if_pos h.2]
   trivial
  | succ n=>
   rw[if_neg h.2.1]
   exact ih h.2.2 (by omega) t

lemma clean_answered (q:Ask):Clean (answered w q):=fun n=>by
 unfold answered
 simp only[holds_bind,holds_get]
 cases w.answer n q<;>trivial
lemma clean_filesys {c:FsCall}(h:∀r es,Clean (touched w c r es)):Clean (handle w (.filesys c)):=
 clean_bind (fun _=>trivial) fun _=>clean_bind (clean_answered _) fun r=>
  clean_bind (h r _) fun _ _=>trivial
lemma clean_run_bind {β:Type}{f:α→Proc β}(hp:Clean (run (handle w) p))
 (hf:∀a,Clean (run (handle w) (f a))):Clean (run (handle w) (p >>= f)):=
 fun n=>holds_run_bind.2 ((hp n).imp fun a t _=>hf a t)
lemma clean_run_ask {q:Ask}(h:Clean (handle w q)):Clean (run (handle w) (ask q)):=
 fun n=>holds_run_ask.2 (h n)
lemma clean_run_pure (x:α):Clean (run (handle w) (pure x)):=fun _=>trivial
lemma clean_exit (status:ℤ):Clean (run (handle w) (exit status:Proc α)):=
 fun _=>holds_exit.2 (.inr trivial)

lemma strlen_returns (h:StringAt w.toMemory n a)(t:ℕ):
 Holds (run (handle w) (strlen a)) t (fun k _=>k=n) (PointerStop True):=by
 have loop:∀turns n a,StringAt w.toMemory n a → n<turns → ∀t,
   Holds (run (handle w) (strlenFrom turns a)) t (fun k _=>k=n) (PointerStop True):=by
  intro turns
  induction turns with
  | zero=>exact fun n a _ hn=>absurd hn (by omega)
  | succ turns ih=>
   intro n a h hn t
   refine holds_run_bind.2 (holds_run_ask.2 (holds_touch.2 ?_))
   rw[if_pos h.first]
   cases n with
   | zero=>
    rw[if_pos h.2]
    rfl
   | succ n=>
    rw[if_neg h.2.1]
    refine holds_run_bind.2 ((ih n _ h.2.2 (by omega) t).imp ?_)
    rintro k t rfl
    rfl
 unfold strlen
 split
 · exact holds_run_stop.2 trivial
 · have:=h.bound
   have top:physBase.toNat=3221225472:=rfl
   exact loop _ n a h (by omega) t

lemma clean_memcpy {k:ℕ}(h:StringAt w.toMemory n a)(hk:k≤n):Clean (run (handle w) (memcpy k a)):=by
 induction k generalizing n a with
 | zero=>exact clean_run_pure _
 | succ k ih=>
  cases n with
  | zero=>omega
  | succ n=>
   exact clean_run_bind (clean_run_ask (clean_touch h.1)) fun _=>
    clean_run_bind (ih h.2.2 (by omega)) fun _=>clean_run_pure _

lemma clean_strlcpy (h:StringAt w.toMemory n a)(size:ℕ):
 Clean (run (handle w) (strlcpy a size)):=fun t=>by
 refine holds_run_bind.2 ((strlen_returns h t).imp ?_)
 rintro k t rfl
 exact clean_memcpy h (by omega) t

lemma clean_threadCreate (name:Option (List UInt8))(input:List UInt8):
 Clean (run (handle w) (threadCreate name input)):=by
 refine clean_run_bind (clean_run_ask (clean_answered _)) fun page=>?_
 rcases page with _|page
 · exact clean_run_pure _
 · cases name with
   | none=>exact fun _=>holds_run_stop.2 trivial
   | some name=>
    exact clean_run_bind (clean_run_ask (clean_answered _)) fun _=>clean_run_pure _

lemma clean_processExecute (h:StringAt w.toMemory n a):
 Clean (run (handle w) (processExecute a)):=by
 refine clean_run_bind (clean_run_ask (clean_answered _)) fun page=>?_
 rcases page with _|page
 · exact clean_run_pure _
 refine clean_run_bind (clean_run_ask (clean_answered _)) fun page2=>?_
 rcases page2 with _|page2
 · exact clean_run_pure _
 refine clean_run_bind (clean_strlcpy h _) fun copy=>
  clean_run_bind (clean_strlcpy h _) fun copy2=>
  clean_run_bind (clean_threadCreate _ _) fun tid=>?_
 cases tid with
 | none=>exact clean_run_bind (clean_run_ask (clean_answered _)) fun _=>clean_run_pure _
 | some tid=>exact clean_run_pure _

lemma clean_locked (h:Clean (run (handle w) p)):Clean (run (handle w) (locked p)):=
 clean_run_bind (clean_run_ask (clean_answered _)) fun _=>clean_run_bind h fun _=>
  clean_run_bind (clean_run_ask (clean_answered _)) fun _=>clean_run_pure _
lemma clean_returns {f:α→ℤ}(h:Clean (run (handle w) p)):Clean (run (handle w) (returns f p)):=
 clean_run_bind h fun _=>clean_run_pure _
lemma clean_badPointer (a:Addr):Clean (run (handle w) (badPointer a)):=
 fun _=>watch_badPointer.2 ⟨fun _=>trivial,fun _=>trivial⟩

lemma clean_guarded (h:Clean (run (handle w) p)):
 Clean (run (handle w) (do if←badPointer a then exit (-1) else p)):=by
 refine clean_run_bind (clean_badPointer a) fun bad=>?_
 cases bad with
 | true=>exact clean_exit _
 | false=>exact h

section
variable (h:StringAt w.toMemory n a)
include h

lemma clean_exec:Clean (run (handle w) (exec a)):=by
 refine clean_guarded (clean_run_bind (clean_run_ask (clean_touch h.first)) fun first=>?_)
 split
 · exact clean_exit _
 refine clean_run_bind (clean_run_ask (clean_answered _)) fun page=>?_
 rcases page with _|page
 · exact clean_run_pure _
 refine clean_run_bind (clean_strlcpy h _) fun copy=>?_
 refine clean_run_bind (clean_run_ask (clean_filesys fun r es=>fun _=>trivial)) fun file=>?_
 rcases file with _|file
 · exact clean_run_pure _
 · exact clean_run_bind (clean_locked (clean_processExecute h)) fun _=>clean_run_pure _

lemma clean_create (size:ℕ):Clean (run (handle w) (create a size)):=by
 refine clean_guarded (clean_run_bind (clean_run_ask (clean_touch h.first)) fun first=>?_)
 split
 · exact clean_run_pure _
 refine clean_run_bind (fun t=>(strlen_returns h t).imp fun _ _ _=>trivial) fun length=>?_
 split
 · exact clean_run_pure _
 refine clean_locked (clean_run_ask (clean_filesys fun r es=>?_))
 cases es with
 | none=>exact fun _=>trivial
 | some es=>
  have:=h.bound
  have top:physBase.toNat=3221225472:=rfl
  exact clean_bind (clean_touchString h (by omega)) fun _=>clean_lookup h es

lemma clean_remove:Clean (run (handle w) (remove a)):=by
 refine clean_locked (clean_run_ask (clean_filesys fun r es=>?_))
 cases es with
 | none=>exact fun _=>trivial
 | some es=>exact clean_lookup h es

lemma clean_openFrom (is:List ℕ):Clean (run (handle w) (openFrom a is)):=by
 induction is with
 | nil=>exact clean_run_pure _
 | cons i rest ih=>
  refine clean_run_bind (clean_run_ask (clean_answered _)) fun slot=>?_
  split
  · refine clean_run_bind (clean_run_ask (clean_answered _)) fun _=>
     clean_run_bind (clean_run_ask (clean_filesys fun r es=>?_)) fun _=>
     clean_run_bind (clean_run_ask (clean_answered _)) fun _=>
     clean_run_bind (clean_run_ask (clean_answered _)) fun _=>
     clean_run_bind (clean_run_ask (clean_answered _)) fun _=>clean_run_pure _
    cases es with
    | none=>exact fun _=>trivial
    | some es=>exact clean_lookup h es
  · exact ih

lemma clean_openFile:Clean (run (handle w) (openFile a)):=by
 unfold openFile
 split
 · exact clean_run_pure _
 refine clean_guarded (clean_run_bind (clean_run_ask (clean_touch h.first)) fun first=>?_)
 split
 · exact clean_run_pure _
 · exact clean_openFrom h _

end

lemma toInt_toNat_le (size:ℕ):(toInt size).toNat ≤ size:=by
 unfold toInt
 split<;>omega

lemma clean_read (h:UserRange w.pd a size)(fd:ℤ):
 Clean (run (handle w) (Syscall.read fd a size)):=by
 unfold Syscall.read
 split
 · exact clean_exit _
 refine clean_guarded (clean_locked
  (clean_run_bind (clean_run_ask (clean_answered _)) fun file=>?_))
 refine clean_run_bind ?_ fun _=>clean_run_pure _
 cases file with
 | none=>exact fun _=>holds_run_stop.2 trivial
 | some f=>
  refine clean_run_ask (clean_filesys fun r es=>clean_touchRange (userRange_mono h ?_))
  have:=toInt_toNat_le size
  omega

lemma clean_write (h:UserRange w.pd a size)(fd:ℤ):Clean (run (handle w) (write fd a size)):=by
 unfold write
 split
 · exact clean_exit _
 refine clean_guarded ?_
 split
 · exact clean_run_bind (clean_run_ask (clean_touchRange h)) fun _=>clean_run_pure _
 refine clean_locked (clean_run_bind (clean_run_ask (clean_answered _)) fun file=>?_)
 cases file with
 | none=>exact fun _=>holds_run_stop.2 trivial
 | some f=>
  refine clean_run_ask (clean_filesys fun r es=>clean_touchRange (userRange_mono h ?_))
  have:=toInt_toNat_le size
  omega

lemma clean_perform {c:PointerCall}(h:ArgumentMapped w c):Clean (run (handle w) (perform c)):=by
 cases c with
 | exec a=>exact clean_returns (clean_exec h.choose_spec)
 | create a size=>exact clean_returns (clean_create h.choose_spec _)
 | remove a=>exact clean_returns (clean_remove h.choose_spec)
 | openFile a=>exact clean_returns (clean_openFile h.choose_spec)
 | read fd a size=>exact clean_returns (clean_read h fd)
 | write fd a size=>exact clean_returns (clean_write h fd)

lemma plain_wrong (h:Plain p):¬Holds (run (handle w) p) n (fun _ _=>False) (PointerStop False):=by
 refine h.not_holds fun q n hq stops=>?_
 have slips:=slips_handle (w:=w) hq n
 unfold Holds at stops slips
 split at stops
 · exact stops
 · rename_i s hr
   rw[hr] at slips
   cases s with
   | badByte a | other | badWord a=>exact stops
   | exited status=>exact slips

lemma plain_returns {f:α→ℤ}(h:Plain p):Plain (returns f p):=avoids_bind h fun _=>avoids_pure _

lemma guarded_iff {M:Prop}{f:α→ℤ}:
 Holds (run (handle w) (returns f (do if←badPointer a then exit (-1) else p))) n
  (fun _ _=>M) (PointerStop M) ↔
 (Rejected w.pd a ∨ Holds (run (handle w) (returns f p)) n (fun _ _=>M) (PointerStop M)):=by
 unfold returns
 rw[holds_run_bind,holds_run_bind,watch_badPointer,holds_run_bind]
 by_cases hr:Rejected w.pd a
 · simp only[hr,true_or,iff_true,not_true,forall_const,false_imp_iff,and_true]
   exact holds_exit.2 (.inl rfl)
 · simp only[hr,false_or,not_false_iff,forall_const,false_imp_iff,true_and]
   rfl

/-- After the test of the pointer in `exec` and in `create`, the string that is empty is
the only one that is not needed any further. -/
lemma perform_wrong {c:PointerCall}(refused:¬Refused w c)(unmapped:¬ArgumentMapped w c):
 ¬Holds (run (handle w) (perform c)) n (fun _ _=>False) (PointerStop False):=by
 cases c with
 | exec a=>
  intro h
  have h:=(guarded_iff.1 h).resolve_left refused
  unfold returns at h
  rw[holds_run_bind,holds_run_bind,holds_run_ask] at h
  change Holds (touch w a) n _ _ at h
  rw[holds_touch] at h
  split at h
  · rename_i hb
    split at h
    · rename_i hz
      exact unmapped ⟨0,hb,hz⟩
    · exact plain_wrong (plain_exec_rest a) h
  · exact h
 | create a size=>
  exact fun h=>plain_wrong (plain_returns (plain_create_rest a _))
   ((guarded_iff.1 h).resolve_left refused)
 | remove a=>exact plain_wrong (plain_returns (plain_remove a))
 | openFile a=>
  dsimp only[perform]
  unfold openFile
  by_cases ha:a=0
  · rw[if_pos ha]
    exact id
  · rw[if_neg ha]
    exact fun h=>plain_wrong (plain_returns (plain_open_rest a))
     ((guarded_iff.1 h).resolve_left fun hr=>refused ⟨ha,hr⟩)
 | read fd a size=>
  dsimp only[perform]
  unfold Syscall.read
  simp only[Refused,not_or] at refused
  rw[if_neg (by simp[refused])]
  exact fun h=>plain_wrong (plain_returns (plain_read_rest fd a _))
   ((guarded_iff.1 h).resolve_left refused.2.2.2)
 | write fd a size=>
  dsimp only[perform]
  unfold write
  simp only[Refused,not_or] at refused
  rw[if_neg (by simp[refused])]
  exact fun h=>plain_wrong (plain_returns (plain_write_rest fd a _))
   ((guarded_iff.1 h).resolve_left refused.2.2)

lemma perform_refused {c:PointerCall}{M:Prop}(refused:Refused w c):
 Holds (run (handle w) (perform c)) n (fun _ _=>M) (PointerStop M):=by
 cases c with
 | exec a | create a size=>exact guarded_iff.2 (.inl refused)
 | remove a=>exact refused.elim
 | openFile a=>
  dsimp only[perform]
  unfold openFile
  rw[if_neg refused.1]
  exact guarded_iff.2 (.inl refused.2)
 | read fd a size=>
  dsimp only[perform]
  unfold Syscall.read
  split
  · exact holds_run_bind.2 (holds_exit.2 (.inl rfl))
  · rename_i hn
    refine guarded_iff.2 (.inl ?_)
    rcases refused with h|h|h|h
    · exact absurd (.inl h) hn
    · exact absurd (.inr (.inl h)) hn
    · exact absurd (.inr (.inr h)) hn
    · exact h
 | write fd a size=>
  dsimp only[perform]
  unfold write
  split
  · exact holds_run_bind.2 (holds_exit.2 (.inl rfl))
  · rename_i hn
    refine guarded_iff.2 (.inl ?_)
    rcases refused with h|h|h
    · exact absurd (.inl h) hn
    · exact absurd (.inr h) hn
    · exact h

/-- A system call trusts no pointer exactly when its arguments fail the tests that it
makes or all bytes that it needs are mapped user memory. -/
theorem trustsNothing_iff (w:World)(c:PointerCall)(n:ℕ):
 TrustsNothing w c n ↔ Refused w c ∨ ArgumentMapped w c:=by
 unfold TrustsNothing
 by_cases hm:ArgumentMapped w c
 · simp only[hm,or_true,iff_true]
   exact clean_perform hm n
 · simp only[hm,or_false]
   exact ⟨fun h=>by_contra fun hr=>perform_wrong hr hm h,perform_refused⟩

def blankPage:World:=⟨⟨stackPage,fun _=>blank⟩,fun _ _=>none,fun _=>none⟩

/-- `write` to the console from the last byte of user memory on prints kernel memory. -/
theorem write_prints_kernel_memory:¬TrustsNothing blankPage (.write 1 0xbfffffff 2) 0:=
 not_holds_of_stop (s:=.badByte 0xc0000000) (by decide +kernel) id

theorem trustsNothing_write:TrustsNothing blankPage (.write 1 0xbffffffe 2) 0:=
 (trustsNothing_iff _ _ _).2 (.inr (by
  have h:UserRange stackPage 0xbffffffe 2:=by decide +kernel
  exact h))

end Pintos.UserMemory
