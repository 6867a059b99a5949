import Mathlib.Algebra.Group.Nat.Defs
import Mathlib.Tactic.Common

/-! `memmove` of `lib/string.c`. An address is a 32-bit word, and a failed assertion has no
result. -/
namespace Pintos.Memmove
open Function (update update_self update_of_ne)

/-- The memory and `dst` behind `while (size-- > 0) *dst++ = *src++`. -/
def copyUp:ℕ→(ℕ→UInt8)→ℕ→ℕ→(ℕ→UInt8)×ℕ
 | 0,m,dst,_=>(m,dst)
 | size+1,m,dst,src=>copyUp size (update m dst (m src)) ((dst+1)%2^32) ((src+1)%2^32)

def decrement (p:ℕ):ℕ:=if p=0 then 2^32-1 else p-1

/-- The same for `while (size-- > 0) *--dst = *--src`. -/
def copyDown:ℕ→(ℕ→UInt8)→ℕ→ℕ→(ℕ→UInt8)×ℕ
 | 0,m,dst,_=>(m,dst)
 | size+1,m,dst,src=>
  copyDown size (update m (decrement dst) (m (decrement src))) (decrement dst) (decrement src)

def memmove (m:ℕ→UInt8)(dst src size:ℕ):Option ((ℕ→UInt8)×ℕ):=
 if ¬(dst≠0 ∨ size=0) ∨ ¬(src≠0 ∨ size=0) then none
 else if dst<src then some (copyUp size m dst src)
 else some (copyDown size m ((dst+size)%2^32) ((src+size)%2^32))

/-- The bytes at `dst` are those that were at `src`, and no other byte has changed. -/
structure Moved (m m':ℕ→UInt8)(dst src size:ℕ):Prop where
 copied:∀i<size,m' (dst+i)=m (src+i)
 frame:∀a,a<dst ∨ dst+size≤a → m' a=m a

variable {m:ℕ→UInt8}{dst src size:ℕ}

lemma copyUp_moved (up:dst<src)(fits:src+size≤2^32):Moved m (copyUp size m dst src).1 dst src size:=by
 induction size generalizing m dst src with
 | zero=>exact ⟨nofun,fun _ _=>rfl⟩
 | succ size ih=>
  rw[copyUp,Nat.mod_eq_of_lt (by omega)]
  by_cases last:size=0
  · subst last
    refine ⟨fun i hi=>?_,fun a outside=>update_of_ne (by omega) ..⟩
    obtain rfl:i=0:=by omega
    exact update_self ..
  rw[Nat.mod_eq_of_lt (by omega)]
  obtain ⟨copied,frame⟩:=ih (m:=update m dst (m src)) (Nat.add_lt_add_right up 1) (by omega)
  refine ⟨fun i hi=>?_,fun a outside=>?_⟩
  · rcases i with _|i
    · rw[frame _ (by omega)]
      exact update_self ..
    · have next:=copied i (by omega)
      -- the bytes that are still to be read lie above the one just written
      rw[update_of_ne (by omega)] at next
      rwa[Nat.add_right_comm,Nat.add_right_comm src] at next
  · rw[frame a (by omega),update_of_ne (by omega)]

lemma decrement_add (p n:ℕ):decrement ((p+(n+1))%2^32)=(p+n)%2^32:=by
 unfold decrement
 split_ifs<;>omega

lemma copyDown_moved (down:src≤dst)(fits:dst+size≤2^32):
 Moved m (copyDown size m ((dst+size)%2^32) ((src+size)%2^32)).1 dst src size ∧
 (copyDown size m ((dst+size)%2^32) ((src+size)%2^32)).2=dst%2^32:=by
 induction size generalizing m with
 | zero=>exact ⟨⟨nofun,fun _ _=>rfl⟩,rfl⟩
 | succ size ih=>
  have small:(dst+size)%2^32=dst+size:=Nat.mod_eq_of_lt (by omega)
  have small':(src+size)%2^32=src+size:=Nat.mod_eq_of_lt (by omega)
  rw[copyDown,decrement_add,decrement_add]
  obtain ⟨⟨copied,frame⟩,back⟩:=ih (m:=update m ((dst+size)%2^32) (m ((src+size)%2^32))) (by omega)
  refine ⟨⟨fun i hi=>?_,fun a outside=>?_⟩,back⟩
  · by_cases last:i=size
    · rw[last,frame _ (by omega),small,update_self,small']
    · rw[copied i (by omega),small,update_of_ne (by omega)]
  · rw[frame a (by omega),small,update_of_ne (by omega)]

lemma copyUp_snd (m:ℕ→UInt8)(dst src size:ℕ):(copyUp size m dst src).2%2^32=(dst+size)%2^32:=by
 induction size generalizing m dst src with
 | zero=>rfl
 | succ size ih=>
  rw[copyUp,ih]
  omega

lemma memmove_moved (fits:dst+size≤2^32)(fits':src+size≤2^32)
 (proper:size=0 ∨ 0<dst ∧ 0<src):∃r,memmove m dst src size=some r ∧ Moved m r.1 dst src size:=by
 rw[memmove,if_neg (by omega)]
 split_ifs with up
 · exact ⟨_,rfl,copyUp_moved up fits'⟩
 · exact ⟨_,rfl,(copyDown_moved (by omega) fits).1⟩

/-- The copy is right wherever the assertions hold; the pointer is right unless the copy went
upwards, which moves it to the end. -/
theorem memmove_iff (hd:dst<2^32)(hs:src<2^32)(fits:dst+size≤2^32)(fits':src+size≤2^32):
 (size=0 ∨ 0<dst ∧ 0<src → ∃r,memmove m dst src size=some r ∧ Moved m r.1 dst src size) ∧
 ((∃r,memmove m dst src size=some r ∧ Moved m r.1 dst src size ∧ r.2=dst) ↔
  size=0 ∨ 0<src ∧ src≤dst):=by
 refine ⟨memmove_moved fits fits',?_⟩
 by_cases empty:size=0
 · subst empty
   refine iff_of_true ⟨(m,dst),?_,⟨nofun,fun _ _=>rfl⟩,rfl⟩ (.inl rfl)
   simpa[memmove,copyUp,copyDown] using fun _=>hd
 rw[or_iff_right empty,memmove]
 constructor
 · rintro ⟨r,result,-,same⟩
   split_ifs at result with null up
   · have after:=copyUp_snd m dst src size
     rw[Option.some.inj result,same] at after
     omega
   · omega
 · intro ⟨positive,down⟩
   rw[if_neg (by omega),if_neg (by omega)]
   obtain ⟨moved,back⟩:=copyDown_moved (m:=m) down fits
   exact ⟨_,rfl,moved,back.trans (Nat.mod_eq_of_lt hd)⟩

theorem memmove_iff_overlap:
 (4=0 ∨ 0<5 ∧ 0<3 → ∃r,memmove UInt8.ofNat 5 3 4=some r ∧ Moved UInt8.ofNat r.1 5 3 4) ∧
 ((∃r,memmove UInt8.ofNat 5 3 4=some r ∧ Moved UInt8.ofNat r.1 5 3 4 ∧ r.2=5) ↔ 4=0 ∨ 0<3 ∧ 3≤5):=
 memmove_iff (by decide) (by decide) (by decide) (by decide)

/-- Three bytes moved down by two places: the copy is right, but the end of it is returned. -/
theorem memmove_returns_end:∃r,memmove UInt8.ofNat 3 5 3=some r ∧
 Moved UInt8.ofNat r.1 3 5 3 ∧ r.2≠3:=
 ⟨_,rfl,copyUp_moved (show 3<5 by decide) (show 5+3≤2^32 by decide),by decide⟩

end Pintos.Memmove
