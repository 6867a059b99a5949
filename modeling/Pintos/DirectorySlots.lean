import Mathlib.Data.List.Basic
import Pintos.Directory

/-! The directory functions in terms of the slots that the backing file shows. -/
namespace Pintos.Directory
open ExecHoare ByteWords Cache List

variable {σ:Type}

/-- While `I` holds, reading entry after entry gives `slots` and then a short
read, and keeps `I`. -/
structure DirFile.Shows (io:DirFile σ)(I:σ→Prop)(slots:List DirEntry)
  (E:Fault→Prop):Prop where
 turns:slots.length < io.turns
 read:∀s e i,I s → i ≤ slots.length → Holds (io.readAt e (20*i)) s (fun r t=>I t ∧
  ((r.1=20 ∧ slots[i]?=some r.2) ∨ (r.1≠20 ∧ i=slots.length))) E

/-- The first slot from `i` on that `stop` accepts, or the end. -/
def Reached (slots:List DirEntry)(stop:DirEntry→Bool)(i:ℕ)(r:DirEntry×ℕ×Bool):Prop:=
 ∃j,i≤j ∧ r.2.1=20*j ∧ (∀k x,i≤k → k<j → slots[k]?=some x → stop x=false) ∧
  ((r.2.2=true ∧ slots[j]?=some r.1 ∧ stop r.1=true) ∨ (r.2.2=false ∧ j=slots.length))

def Names (name:CString)(e:DirEntry):Bool:=e.inUse && e.nameIs name
lemma names_inUse {name:CString}{e:DirEntry}(h:Names name e=true):e.inUse=true:=
 (Bool.and_eq_true_iff.1 h).1
def LookedUp (slots:List DirEntry)(name:CString):Option (DirEntry×ℕ) → Prop
 | some (e,ofs)=>∃j,ofs=20*j ∧ slots[j]?=some e ∧ slots.find? (Names name)=some e
 | none=>∀e∈slots,Names name e=false

/-- The slot that `dir_add` writes: a free one, or the one past the end. -/
def Vacant (slots:List DirEntry)(j:ℕ)(e:DirEntry):Prop:=
 (slots[j]?=some e ∧ e.inUse=false) ∨ (j=slots.length ∧ ∀x∈slots,x.inUse=true)
variable {io:DirFile σ}{I:σ→Prop}{slots:List DirEntry}{E:Fault→Prop}{s:σ}
 {r:DirEntry×ℕ×Bool}{Q:Bool→σ→Prop}

lemma scan_spec (shows_:io.Shows I slots E)(stop:DirEntry→Bool)(turns i:ℕ)
 (e:DirEntry)(hs:I s)(hi:i ≤ slots.length)(ht:slots.length < i+turns):
 Holds (scan io stop turns e (20*i)) s (fun r t=>I t ∧ Reached slots stop i r) E:=by
 induction turns generalizing i e s with
 | zero=>omega
 | succ turns ih=>
  refine (shows_.read s e i hs hi).seq ?_
  intro r t ⟨ht',hr⟩
  rcases hr with ⟨hn,hx⟩|⟨hn,he⟩
  · have hlt:i<slots.length:=(List.getElem?_eq_some_iff.1 hx).1
    simp only[hn]
    cases hstop:stop r.2 with
    | true=>
     simp only[if_true]
     refine ⟨ht',i,Nat.le_refl i,rfl,fun k x hk hk'=>by omega,.inl ⟨rfl,hx,hstop⟩⟩
    | false=>
     simp only[Bool.false_eq_true]
     refine (ih (i+1) r.2 ht' hlt (by omega)).imp ?_
     rintro r' t' ⟨ht'',j,hij,hofs,hpass,hend⟩
     refine ⟨ht'',j,by omega,hofs,fun k x hk hkj hkx=>?_,hend⟩
     by_cases hki:k=i
     · subst hki
       obtain rfl:r.2=x:=Option.some.inj (hx.symm.trans hkx)
       exact hstop
     · exact hpass k x (by omega) hkj hkx
  · simp only[hn,if_false]
    exact ⟨ht',i,Nat.le_refl i,rfl,fun k x hk hk'=>by omega,.inr ⟨rfl,he⟩⟩

lemma Reached.none_accepted {stop:DirEntry→Bool}(h:Reached slots stop 0 r)
 (hf:r.2.2=false):r.2.1=20*slots.length ∧ ∀x∈slots,stop x=false:=by
 obtain ⟨j,-,hofs,hpass,⟨ht,-⟩|⟨-,rfl⟩⟩:=h
 · rw[hf] at ht
   cases ht
 · refine ⟨hofs,fun x hx=>?_⟩
   obtain ⟨k,hk,rfl⟩:=mem_iff_getElem.1 hx
   exact hpass k _ (Nat.zero_le k) hk (getElem?_eq_getElem hk)

lemma Reached.first {stop:DirEntry→Bool}(h:Reached slots stop 0 r)(hf:r.2.2=true):
 ∃j,r.2.1=20*j ∧ slots[j]?=some r.1 ∧ slots.find? stop=some r.1:=by
 obtain ⟨j,-,hofs,hpass,⟨-,hx,hstop⟩|⟨hff,-⟩⟩:=h
 · refine ⟨j,hofs,hx,find?_eq_some_iff_getElem.2 ⟨hstop,j,?_⟩⟩
   obtain ⟨hj,he⟩:=List.getElem?_eq_some_iff.1 hx
   refine ⟨hj,he,fun k hk=>?_⟩
   rw[hpass k _ (Nat.zero_le k) hk (getElem?_eq_getElem (by omega))]
   rfl
 · rw[hf] at hff
   cases hff

lemma lookup_spec (shows_:io.Shows I slots E)(name:CString)(hs:I s):
 Holds (lookup io name) s (fun r t=>I t ∧ LookedUp slots name r) E:=by
 have turns:=shows_.turns
 refine (scan_spec shows_ (Names name) io.turns 0 io.stack hs (Nat.zero_le _) (by omega)).seq ?_
 rintro r t ⟨ht,hr⟩
 refine ⟨ht,?_⟩
 cases hf:r.2.2 with
 | true=>exact hr.first hf
 | false=>exact (hr.none_accepted hf).2

lemma dirLookup_rule (shows_:io.Shows I slots E)(name:CString)(hs:I s){Q:Option ℕ→σ→Prop}
 (absent:∀t,I t → (∀e∈slots,Names name e=false) → Q none t)
 (present:∀t e,I t → e∈slots → Names name e=true → Holds (io.inodeOpen e.inodeSector) t Q E):
 Holds (dirLookup io name) s Q E:=by
 refine (lookup_spec shows_ name hs).seq ?_
 rintro r t ⟨ht,hr⟩
 cases r with
 | none=>exact absent t ht hr
 | some p=>
  obtain ⟨j,-,hx,first⟩:=hr
  exact present t p.1 ht (mem_of_getElem? hx) (find?_some first)

/-- To prove something of `dir_add`, prove it of its refusals and of the write
of the new entry into a vacant slot. -/
lemma dirAdd_rule (shows_:io.Shows I slots E)(name:CString)(sector:ℕ)(hs:I s)
 (refused:∀t,I t → ((name.val=[] ∨ nameMax<name.val.length) ∨ ∃e∈slots,Names name e=true) → Q false t)
 (write:∀t e j,I t → name.val≠[] → name.val.length≤nameMax →
  (∀e∈slots,Names name e=false) → Vacant slots j e →
  Holds (io.writeAt (e.fill name sector) (20*j)) t (fun n u=>Q (n=20) u) E):
 Holds (dirAdd io name sector) s Q E:=by
 unfold dirAdd
 split
 · rename_i invalid
   exact refused s hs (.inl invalid)
 rename_i valid
 obtain ⟨hne,hlen⟩:name.val≠[] ∧ name.val.length≤nameMax:=by
  constructor
  · exact fun h=>valid (.inl h)
  · by_contra h
    exact valid (.inr (by omega))
 refine (lookup_spec shows_ name hs).seq ?_
 rintro r t ⟨ht,hr⟩
 cases r with
 | some p=>
  obtain ⟨j,-,hx,first⟩:=hr
  exact refused t ht (.inr ⟨p.1,mem_of_getElem? hx,find?_some first⟩)
 | none=>
  have turns:=shows_.turns
  refine (scan_spec shows_ (fun e=>!e.inUse) io.turns 0 io.stack ht (Nat.zero_le _)
   (by omega)).seq ?_
  rintro ⟨e,ofs,found⟩ u ⟨hu,hreached⟩
  have vacant:∃j,ofs=20*j ∧ Vacant slots j e:=by
   cases found with
   | false=>
    obtain ⟨hofs,hall⟩:=hreached.none_accepted rfl
    exact ⟨slots.length,hofs,.inr ⟨rfl,fun x hx=>by simpa using hall x hx⟩⟩
   | true=>
    obtain ⟨j,hofs,hx,first⟩:=hreached.first rfl
    exact ⟨j,hofs,.inl ⟨hx,by simpa using find?_some first⟩⟩
  obtain ⟨j,rfl,hv⟩:=vacant
  exact (write u e j hu hne hlen hr hv).seq (fun n v hq=>hq)

lemma dirRemove_rule (shows_:io.Shows I slots E)(name:CString)(hs:I s)
 (absent:∀t,I t → (∀e∈slots,Names name e=false) → Holds (io.inodeClose none) t (fun _ u=>Q false u) E)
 (present:∀t e j,I t → slots[j]?=some e → slots.find? (Names name)=some e →
  Holds (io.inodeOpen e.inodeSector) t (fun inode u=>match inode with
   | none=>Holds (io.inodeClose none) u (fun _ v=>Q false v) E
   | some p=>Holds (eraseEntry io e (20*j) p) u (fun success v=>
    Holds (io.inodeClose (some p)) v (fun _ w=>Q success w) E) E) E):
 Holds (dirRemove io name) s Q E:=by
 refine (lookup_spec shows_ name hs).seq ?_
 rintro r t ⟨ht,hr⟩
 cases r with
 | none=>exact (absent t ht hr).seq (fun _ _ h=>h)
 | some p=>
  obtain ⟨e,ofs⟩:=p
  obtain ⟨j,rfl,hx,first⟩:=hr
  refine (present t e j ht hx first).seq ?_
  intro inode u hu
  cases inode with
  | none=>exact hu.seq (fun _ _ h=>h)
  | some p=>
   refine hu.seq ?_
   intro success v hv
   exact hv.seq (fun _ _ h=>h)

lemma dirReaddir_spec (shows_:io.Shows I slots E)(hs:I s){i:ℕ}(hi:i ≤ slots.length):
 Holds (dirReaddir io (20*i)) s (fun r t=>I t ∧ ∃j,i≤j ∧
  (∀k x,i≤k → k<j → slots[k]?=some x → x.inUse=false) ∧
  ((∃e,slots[j]?=some e ∧ e.inUse=true ∧ r=(some e.copyName,20*(j+1))) ∨
   (j=slots.length ∧ r=(none,20*j)))) E:=by
 have turns:=shows_.turns
 refine (scan_spec shows_ (·.inUse) io.turns i io.stack hs hi (by omega)).seq ?_
 rintro ⟨e,ofs,found⟩ t ⟨ht,j,hij,hofs,hpass,hend⟩
 refine ⟨ht,j,hij,hpass,?_⟩
 rcases hend with ⟨hf,hx,hu⟩|⟨hf,hj⟩
 · left
   subst hf hofs
   exact ⟨e,hx,hu,rfl⟩
 · right
   subst hf hofs
   exact ⟨hj,rfl⟩

end Pintos.Directory
