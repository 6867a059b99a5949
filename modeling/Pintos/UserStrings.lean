import Pintos.FileCalls
import Pintos.Syscall

namespace Pintos.UserStrings
open ExecHoare Interaction Paging Process FileCalls List

section
variable {m:Memory}{a:Addr}{n:ℕ}

variable (h:StringAt m n a)
include h

lemma fits:n<2^32:=by
 have bound:=h.bound
 have top:physBase.toNat=3221225472:=rfl
 omega

lemma stringFrom_length {turns:ℕ}(ht:n<turns):(stringFrom m turns a).length=n:=by
 induction turns generalizing n a with
 | zero=>omega
 | succ turns ih=>
  unfold stringFrom
  cases n with
  | zero=>
   rw[if_pos h.2]
   rfl
  | succ n=>rw[if_neg h.2.1,length_cons,ih h.2.2 (by omega)]

lemma string_length:(string m a).val.length=n:=stringFrom_length h (fits h)

lemma string_eq_nil:(string m a).val=[] ↔ m.byte a=0:=by
 rw[←length_eq_zero_iff,string_length h]
 cases n with
 | zero=>exact ⟨fun _=>h.2,fun _=>rfl⟩
 | succ n=>exact ⟨nofun,fun hz=>absurd hz h.2.1⟩

end

section
variable {ε σ:Type}{handle:(q:Ask) → Exec ε σ q.Answer}{m:Memory}{s:σ}{F:ε→Prop}
 {a:Addr}{n:ℕ}(reads:∀a,handle (.byte a)=pure (m.byte a))

include reads

lemma holds_byte {Q:UInt8→σ→Prop}:Holds (run handle (ask (Ask.byte a))) s Q F ↔ Q (m.byte a) s:=by
 rw[holds_run_ask,reads,holds_pure]

variable (h:StringAt m n a)
include h

lemma strlenFrom_spec {turns:ℕ}(ht:n<turns):
 Holds (run handle (strlenFrom turns a)) s (fun k t=>k=n ∧ t=s) F:=by
 induction turns generalizing n a with
 | zero=>omega
 | succ turns ih=>
  refine holds_run_bind.2 ((holds_byte reads).2 ?_)
  cases n with
  | zero=>
   rw[if_pos h.2]
   exact ⟨rfl,rfl⟩
  | succ n=>
   rw[if_neg h.2.1]
   refine holds_run_bind.2 ((ih h.2.2 (by omega)).imp ?_)
   rintro k t ⟨rfl,rfl⟩
   exact ⟨rfl,rfl⟩

lemma holds_strlen (ha:a≠0){Q:ℕ→σ→Prop}:Holds (run handle (strlen a)) s Q F ↔ Q n s:=by
 unfold strlen
 rw[if_neg ha]
 exact holds_value (strlenFrom_spec reads h (fits h))

lemma memcpy_spec {turns k:ℕ}(hk:k≤n)(ht:n<turns):
 Holds (run handle (memcpy k a)) s (fun l t=>l=(stringFrom m turns a).take k ∧ t=s) F:=by
 induction k generalizing n a turns with
 | zero=>exact ⟨rfl,rfl⟩
 | succ k ih=>
  obtain ⟨n,rfl⟩:∃n',n=n'+1:=⟨n-1,by omega⟩
  obtain ⟨turns,rfl⟩:∃t',turns=t'+1:=⟨turns-1,by omega⟩
  have rest:Holds (run handle (memcpy k (a+1))) s
    (fun l t=>l=(stringFrom m turns (a+1)).take k ∧ t=s) F:=
   ih h.2.2 (by omega) (by omega)
  refine holds_run_bind.2 ((holds_byte reads).2 (holds_run_bind.2 (rest.imp ?_)))
  rintro l t ⟨rfl,rfl⟩
  refine ⟨?_,rfl⟩
  rw[stringFrom,if_neg h.2.1,take_succ_cons]

lemma holds_strlcpy (ha:a≠0){size:ℕ}{Q:List UInt8→σ→Prop}:
 Holds (run handle (strlcpy a size)) s Q F ↔ Q ((string m a).val.take (size-1)) s:=by
 unfold strlcpy
 rw[holds_run_bind,holds_strlen reads h ha,
  holds_value (memcpy_spec reads h (Nat.min_le_left ..) (fits h))]
 change Q ((string m a).val.take _) s ↔ _
 rw[Nat.min_comm,←string_length h,←take_take,take_length]

end

lemma tokens_eq_nil (l:List UInt8):tokens l=[] ↔ ∀b∈l,b=blank:=by
 induction l with
 | nil=>exact ⟨fun _=>nofun,fun _=>rfl⟩
 | cons b l ih=>
  unfold tokens splitOn at ih ⊢
  rw[splitOnP_cons_eq_if_modifyHead,forall_mem_cons]
  by_cases hb:b=blank
  · rw[if_pos (beq_iff_eq.2 hb),filter_cons_of_neg (by simp),ih]
    exact ⟨fun h=>⟨hb,h⟩,And.right⟩
  · rw[if_neg (by simpa using hb)]
    refine ⟨fun h=>?_,fun h=>absurd h.1 hb⟩
    obtain ⟨w,ws,hw⟩:=exists_cons_of_ne_nil (splitOnP_ne_nil (· == blank) l)
    rw[hw] at h
    simp at h

lemma strtok_eq_none (l:List UInt8):strtok l=none ↔ ∀b∈l,b=blank:=by
 rw[strtok,head?_eq_none_iff,tokens_eq_nil]

end Pintos.UserStrings
