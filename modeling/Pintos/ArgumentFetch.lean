import Pintos.UserMemory

namespace Pintos.UserMemory
open ExecHoare Interaction Paging Process Syscall List

section
variable (w:World)(esp:Addr)

def callNumber:ℕ:=(wordAt w esp).toNat

/-- How many argument words `syscall_handler` needs for a call. -/
def argWords:ℕ→ℕ
 | 1 | 2 | 3 | 5 | 6 | 7 | 11 | 12=>1
 | 4 | 10 | 13=>2
 | 8 | 9=>3
 | _=>0

/-- The number of the call and its arguments are mapped user memory. -/
def WordsMapped:Prop:=
 UserRange w.pd esp 4 ∧ ∀i∈range' 1 (argWords (callNumber w esp)),
  UserRange w.pd (esp+4*UInt32.ofNat i) 4

instance:Decidable (WordsMapped w esp):=inferInstanceAs (Decidable (_ ∧ ∀i∈_,_))
def FetchStop (mapped:Prop):Stop→Prop
 | .badWord _=>False
 | .exited status=>status=some (-1) ∨ mapped
 | .badByte _ | .other=>mapped

/-- The handler reads no word that is not mapped user memory, and if one that it
needs is not, it exits with status -1. -/
def FetchesSafely (n:ℕ):Prop:=
 Holds (run (handle w) (syscallHandler esp)) n (fun _ _=>WordsMapped w esp)
  (FetchStop (WordsMapped w esp))

end
variable {w:World}{esp a:Addr}{n:ℕ}{α:Type}{M:Prop}

lemma holds_handle_word {Q:UInt32→ℕ→Prop}{F:Stop→Prop}:Holds (handle w (.word a)) n Q F ↔
  if UserRange w.pd a 4 then Q (wordAt w a) n else F (.badWord a):=by
 change Holds (if UserRange w.pd a 4 then pure (wordAt w a) else throw (.badWord a)) n Q F ↔ _
 split<;>rfl

lemma fetch_done {p:Proc α}(h:Wordless p)(mapped:M):
 Holds (run (handle w) p) n (fun _ _=>M) (FetchStop M) ↔ M:=by
 refine ⟨fun _=>mapped,fun _=>(h.holds fun q n hq=>?_).imp fun _ _ _=>mapped⟩
 by_cases hx:isExit q=true
 · cases q with
   | exit status=>exact .inr mapped
   | _=>cases hx
 · refine (slips_handle (by simp[hq,hx]) n).mono (fun _ _ _=>trivial) fun stop hs=>?_
   cases stop with
   | badByte a | other=>exact mapped
   | badWord a | exited status=>exact hs.elim

lemma fetch_word {p:UInt32→Proc α}(needed:M→UserRange w.pd a 4)(rest:UserRange w.pd a 4 → ∀x,
  (Holds (run (handle w) (p x)) n (fun _ _=>M) (FetchStop M) ↔ M)):
 Holds (run (handle w) (loadWord a >>= p)) n (fun _ _=>M) (FetchStop M) ↔ M:=by
 rw[holds_run_bind,loadWord,holds_run_ask,holds_handle_word]
 split
 · rename_i h
   exact rest h _
 · rename_i h
   exact ⟨False.elim,fun m=>h (needed m)⟩

lemma fetch_one {p:UInt32→Proc α}(h:∀x,Wordless (p x))(m:M ↔ UserRange w.pd a 4):
 Holds (run (handle w) (loadWord a >>= p)) n (fun _ _=>M) (FetchStop M) ↔ M:=
 fetch_word m.1 fun h₁ x=>fetch_done (h x) (m.2 h₁)

lemma fetch_two {p:UInt32→UInt32→Proc α}(h:∀x y,Wordless (p x y)){b:Addr}
 (m:M ↔ UserRange w.pd a 4 ∧ UserRange w.pd b 4):
 Holds (run (handle w) (loadWord a >>= fun x=>loadWord b >>= p x)) n (fun _ _=>M)
  (FetchStop M) ↔ M:=
 fetch_word (fun hm=>(m.1 hm).1) fun h₁ x=>fetch_word (fun hm=>(m.1 hm).2) fun h₂ y=>
  fetch_done (h x y) (m.2 ⟨h₁,h₂⟩)

lemma fetch_three {p:UInt32→UInt32→UInt32→Proc α}(h:∀x y z,Wordless (p x y z))
 {b c:Addr}(m:M ↔ UserRange w.pd a 4 ∧ UserRange w.pd b 4 ∧ UserRange w.pd c 4):
 Holds (run (handle w) (loadWord a >>= fun x=>loadWord b >>= fun y=>loadWord c >>= p x y)) n
  (fun _ _=>M) (FetchStop M) ↔ M:=
 fetch_word (fun hm=>(m.1 hm).1) fun h₁ x=>fetch_word (fun hm=>(m.1 hm).2.1) fun h₂ y=>
  fetch_word (fun hm=>(m.1 hm).2.2) fun h₃ z=>fetch_done (h x y z) (m.2 ⟨h₁,h₂,h₃⟩)

lemma dispatch_short {c:ℕ}(short:isKernelVaddr (esp+4))(hc:c∈[1,2,9]):
 Holds (run (handle w) (dispatch esp c)) n (fun _ _=>M) (FetchStop M):=by
 have no:¬ ¬isKernelVaddr (esp+4):=not_not.2 short
 simp only[mem_cons,not_mem_nil,or_false] at hc
 unfold dispatch
 rcases hc with rfl|rfl|rfl
 · simp only[if_neg no]
   exact holds_exit.2 (.inl rfl)
 · simp only[if_neg no]
   exact holds_exit.2 (.inl rfl)
 · simp only[if_neg no]
   -- the null pointer is what makes `write` exit
   exact .inl rfl

lemma dispatch_fetch {c:ℕ}(mapped:M ↔ ∀i∈range' 1 (argWords c),
  UserRange w.pd (esp+4*UInt32.ofNat i) 4)
 (long:¬(isKernelVaddr (esp+4) ∧ c∈[1,2,9])):
 Holds (run (handle w) (dispatch esp c)) n (fun _ _=>M) (FetchStop M) ↔ M:=by
 have one:argWords c=1 → (M ↔ UserRange w.pd (esp+4*1) 4):=fun h=>by
  simpa[h] using mapped
 have two:argWords c=2 → (M ↔ UserRange w.pd (esp+4*1) 4 ∧ UserRange w.pd (esp+4*2) 4):=fun h=>by
  simpa[h,range'] using mapped
 have three:argWords c=3 → (M ↔ UserRange w.pd (esp+4*1) 4 ∧
   UserRange w.pd (esp+4*2) 4 ∧ UserRange w.pd (esp+4*3) 4):=fun h=>by
  simpa[h,range'] using mapped
 have none:argWords c=0 → M:=fun h=>mapped.2 (by simp[h])
 have more:c∈[1,2,9] → ¬isKernelVaddr (esp+4):=fun hc hk=>long ⟨hk,hc⟩
 unfold dispatch
 obtain _|_|_|_|_|_|_|_|_|_|_|_|_|_|c:=c
 · exact fetch_done (wordless_returns
    (avoids_bind (avoids_ask nofun) fun _=>avoids_stop nofun)) (none rfl)
 · simp only[if_pos (more (by decide))]
   exact fetch_one (fun x=>avoids_stop nofun) (one rfl)
 · simp only[if_pos (more (by decide))]
   exact fetch_one (fun x=>wordless_returns (wordless_exec x)) (one rfl)
 · exact fetch_one (fun x=>wordless_returns (wordless_wait x)) (one rfl)
 · exact fetch_two (fun x y=>wordless_returns (wordless_create x _)) (two rfl)
 · exact fetch_one (fun x=>wordless_returns (plain_remove x).wordless) (one rfl)
 · exact fetch_one (fun x=>wordless_returns (wordless_openFile x)) (one rfl)
 · exact fetch_one (fun x=>wordless_returns (wordless_withFd plain_fileLength _)) (one rfl)
 · exact fetch_three (fun x y z=>wordless_returns (wordless_read _ y _)) (three rfl)
 · simp only[if_pos (more (by decide))]
   exact fetch_three (fun x y z=>wordless_returns (wordless_write _ y _)) (three rfl)
 · exact fetch_two (fun x y=>wordless_returnsNothing
    (wordless_lockedFd (fun file=>plain_fileSeek file _) _)) (two rfl)
 · exact fetch_one (fun x=>wordless_returns (wordless_lockedFd plain_fileTell _)) (one rfl)
 · refine fetch_one (fun x=>wordless_returnsNothing (wordless_lockedFd (fun file=>?_) _)) (one rfl)
   exact avoids_bind (plain_fileClose file) fun _=>avoids_ask nofun
 · exact fetch_two (fun x y=>wordless_returns (avoids_pure _)) (two rfl)
 · exact fetch_done (avoids_pure _) (none rfl)

/-- `syscall_handler` is safe exactly when the stack pointer fails the test, all words
of the call are mapped, or the stack ends right after the number of one of the three
calls that look whether there are more arguments. -/
theorem fetchesSafely_iff (w:World)(esp:Addr)(n:ℕ):
 FetchesSafely w esp n ↔ Rejected w.pd esp ∨ WordsMapped w esp ∨
  (UserRange w.pd esp 4 ∧ isKernelVaddr (esp+4) ∧ callNumber w esp∈[1,2,9]):=by
 unfold FetchesSafely syscallHandler
 rw[holds_run_bind,watch_badPointer]
 by_cases hr:Rejected w.pd esp
 · simp only[hr,true_or,iff_true,not_true,forall_const,false_imp_iff,and_true,if_true]
   exact holds_exit.2 (.inl rfl)
 simp only[hr,false_or,not_false_iff,forall_const,false_imp_iff,true_and]
 change Holds (run (handle w) (loadWord esp >>= fun call=>dispatch esp call.toNat)) n _ _ ↔ _
 rw[holds_run_bind,loadWord,holds_run_ask,holds_handle_word]
 by_cases hw:UserRange w.pd esp 4
 · rw[if_pos hw]
   by_cases short:isKernelVaddr (esp+4) ∧ callNumber w esp∈[1,2,9]
   · exact ⟨fun _=>.inr ⟨hw,short⟩,fun _=>dispatch_short short.1 short.2⟩
   · have mapped:WordsMapped w esp ↔ ∀i∈range' 1 (argWords (wordAt w esp).toNat),
       UserRange w.pd (esp+4*UInt32.ofNat i) 4:=⟨fun h=>h.2,fun h=>⟨hw,h⟩⟩
     refine (dispatch_fetch mapped short).trans ⟨.inl,fun h=>?_⟩
     exact h.resolve_right fun hn=>short hn.2
 · rw[if_neg hw]
   refine ⟨False.elim,?_⟩
   rintro (h|h)
   · exact hw h.1
   · exact hw h.1

def closeAt (esp:Addr):World:=
 ⟨⟨stackPage,fun a=>if a=esp then 12 else 0⟩,fun _ _=>none,fun _=>none⟩

/-- `close` with its number in the last word of user memory takes the descriptor from
kernel memory. -/
theorem close_reads_kernel_memory:¬FetchesSafely (closeAt 0xbffffffc) 0xbffffffc 0:=by
 exact not_holds_of_stop (s:=.badWord 0xc0000000) (by decide +kernel) id

theorem fetchesSafely_closeAt:FetchesSafely (closeAt 0xbffffff8) 0xbffffff8 0:=
 (fetchesSafely_iff _ _ _).2 (.inr (.inl (by decide +kernel)))

end Pintos.UserMemory
