import Mathlib.Data.List.Nodup

/-! Lists of records with a key that no two of them share. -/
namespace Pintos.KeyedList
open List

variable {α κ:Type}[DecidableEq κ](key:α→κ)

def find (k:κ)(l:List α):Option α:=l.find? (fun a=>key a=k)
def set (k:κ)(f:α→α)(l:List α):List α:=l.map (fun a=>if key a=k then f a else a)
def erase (k:κ)(l:List α):List α:=l.eraseP (fun a=>key a=k)

variable {key}{k:κ}{l:List α}{a b:α}

lemma find_eq_none:find key k l=none ↔ ∀a∈l,key a≠k:=by
 simp[find]
lemma find_mem (h:find key k l=some a):a∈l ∧ key a=k:=
 ⟨mem_of_find?_eq_some h,by simpa using find?_some h⟩

lemma find_eq_some (h:(l.map key).Nodup):find key k l=some a ↔ a∈l ∧ key a=k:=by
 refine ⟨find_mem,fun ⟨ha,hk⟩=>?_⟩
 cases hf:find key k l with
 | none=>exact absurd hk (find_eq_none.1 hf a ha)
 | some b=>
  obtain ⟨hb,hkb⟩:=find_mem hf
  rw[inj_on_of_nodup_map h hb ha (hkb.trans hk.symm)]

lemma mem_set {f:α→α}:b∈set key k f l ↔ ∃a∈l,(key a=k ∧ b=f a) ∨ (key a≠k ∧ b=a):=by
 simp only[set,List.mem_map]
 constructor
 · rintro ⟨a,ha,rfl⟩
   refine ⟨a,ha,?_⟩
   by_cases h:key a=k<;>simp[h]
 · rintro ⟨a,ha,⟨h,rfl⟩|⟨h,rfl⟩⟩
   · exact ⟨a,ha,by simp[h]⟩
   · exact ⟨b,ha,by simp[h]⟩

lemma map_set {β:Type}{g:α→β}{f:α→α}(keep:∀a,g (f a)=g a):(set key k f l).map g=l.map g:=by
 simp only[set,List.map_map]
 apply map_congr_left
 intro a _
 simp only[Function.comp]
 split
 · exact keep a
 · rfl

lemma find_set {f:α→α}(keep:∀a,key (f a)=key a):find key k (set key k f l)=(find key k l).map f:=by
 induction l with
 | nil=>rfl
 | cons a l ih=>
  simp only[find,set,map_cons] at ih ⊢
  by_cases h:key a=k
  · simp[h,keep]
  · simpa[h] using ih

lemma filterMap_set {β:Type}{g:α→Option β}{f:α→α}(keep:∀a,g (f a)=g a):
 (set key k f l).filterMap g=l.filterMap g:=by
 simp only[set,filterMap_map]
 congr 1
 funext a
 simp only[Function.comp]
 split
 · exact keep a
 · rfl

lemma erase_sublist:(erase key k l).Sublist l:=eraseP_sublist

lemma mem_erase (h:(l.map key).Nodup):b∈erase key k l ↔ b∈l ∧ key b≠k:=by
 induction l with
 | nil=>simp[erase]
 | cons a l ih=>
  obtain ⟨ha,hl⟩:=nodup_cons.1 h
  have ih:=ih hl
  unfold erase at ih ⊢
  by_cases hk:key a=k
  · subst hk
    simp only[eraseP_cons,mem_cons]
    constructor
    · intro hb
      exact ⟨.inr hb,fun he=>ha (List.mem_map.2 ⟨b,hb,he⟩)⟩
    · rintro ⟨rfl|hb,hne⟩
      · exact absurd rfl hne
      · exact hb
  · simp only[eraseP_cons,hk,decide_false,cond_false,mem_cons,ih]
    constructor
    · rintro (rfl|⟨hb,hne⟩)
      · exact ⟨.inl rfl,hk⟩
      · exact ⟨.inr hb,hne⟩
    · rintro ⟨rfl|hb,hne⟩
      · exact .inl rfl
      · exact .inr ⟨hb,hne⟩

lemma exists_split (h:(l.map key).Nodup)(ha:a∈l):∃l₁ l₂,l=l₁++a::l₂ ∧
 (∀f,set key (key a) f l=l₁++f a::l₂) ∧ erase key (key a) l=l₁++l₂:=by
 obtain ⟨l₁,l₂,rfl⟩:=append_of_mem ha
 rw[map_append,map_cons,nodup_append'] at h
 obtain ⟨-,h₂,disj⟩:=h
 have before:∀b∈l₁,key b≠key a:=by
  intro b hb he
  exact disj (List.mem_map_of_mem hb) (he▸mem_cons_self)
 have after:∀b∈l₂,key b≠key a:=by
  intro b hb he
  exact (nodup_cons.1 h₂).1 (he▸List.mem_map_of_mem hb)
 refine ⟨l₁,l₂,rfl,fun f=>?_,?_⟩
 · have same:∀l':List α,(∀b∈l',key b≠key a) → l'.map (fun b=>if key b=key a then f b else b)=l':=by
    intro l' hl'
    conv_rhs=>rw[←List.map_id l']
    apply map_congr_left
    intro b hb
    rw[if_neg (hl' b hb)]
    rfl
   simp only[set,map_append,map_cons,if_true,same l₁ before,same l₂ after]
 · rw[erase,eraseP_append_right _ (by simpa using before),eraseP_cons_of_pos]
   simp

end Pintos.KeyedList
