import Mathlib.Data.Nat.Size
import Mathlib.Tactic.Ring

/-! `timer_calibrate` of `devices/timer.c`. An unsigned is 32 bits wide; a failed assertion and a
loop that takes more than `turns` turns have no result. -/
namespace Pintos.Timer
open Nat

section
variable (tooManyLoops:ℕ→Bool)

/-- The largest power of two that still fits a tick. -/
def approximate:ℕ→ℕ→Option ℕ
 | 0,_=>none
 | turns+1,loopsPerTick=>
  let twice:=(loopsPerTick<<<1)%2^32
  if tooManyLoops twice then some loopsPerTick
  else if twice=0 then none
  else approximate turns twice

def refineBits (highBit:ℕ):ℕ→ℕ→ℕ→Option ℕ
 | 0,_,_=>none
 | turns+1,testBit,loopsPerTick=>
  if testBit=highBit>>>10 then some loopsPerTick
  else refineBits highBit turns (testBit>>>1)
   (if tooManyLoops (highBit|||testBit) then loopsPerTick else loopsPerTick|||testBit)

def timerCalibrate (turns:ℕ):Option ℕ:=
 (approximate tooManyLoops turns (1<<<10)).bind fun highBit=>
  refineBits tooManyLoops highBit turns (highBit>>>1) highBit

end

/-- Exactly `threshold` loops fit a tick. -/
def takesLonger (threshold loops:ℕ):Bool:=decide (threshold<loops)

variable {k t:ℕ}

lemma approximate_eq (reached:2^k≤t)(below:t<2^(k+1))(small:k<31){i turns:ℕ}(le:i≤k)
 (enough:k < i+turns):approximate (takesLonger t) turns (2^i)=some (2^k):=by
 induction turns generalizing i with
 | zero=>omega
 | succ turns ih=>
  have twice:(2^i<<<1)%2^32=2^(i+1):=by
   rw[shiftLeft_eq,←pow_add,mod_eq_of_lt (Nat.pow_lt_pow_right (by decide) (by omega))]
  rw[approximate,twice]
  rcases lt_or_eq_of_le le with more|rfl
  · have fits:2^(i+1)≤2^k:=Nat.pow_le_pow_right (by decide) more
    rw[takesLonger,if_neg (by simpa using fits.trans reached),if_neg (Nat.two_pow_pos _).ne']
    exact ih more (by omega)
  · rw[takesLonger,if_pos (decide_eq_true below)]

/-- Of the `d` bits that are left, those from the first one that fits on are set. -/
lemma refineBits_eq {c d r loops turns:ℕ}(least:c+d≤c+9)(apart:2^(c+d+1)∣loops)(enough:d<turns):
 refineBits (takesLonger (2^(c+10)+r)) (2^(c+10)) turns (2^(c+d)) loops=
  some (loops+2^(c+1)*(2^min d (r/2^(c+1)).size-1)):=by
 induction turns generalizing d loops with
 | zero=>omega
 | succ turns ih=>
  have stop:2^(c+10)>>>10=2^c:=by
   rw[Nat.shiftRight_eq_div_pow,pow_add,Nat.mul_div_cancel _ (by decide)]
  rw[refineBits,stop]
  rcases d with _|d
  · simp
  have half:2^(c+(d+1))>>>1=2^(c+d):=by
   rw[Nat.shiftRight_eq_div_pow,←add_assoc,pow_succ,pow_one,Nat.mul_div_cancel _ (by decide)]
  have going:2^(c+(d+1))≠2^c:=by
   intro same
   have:=Nat.pow_right_injective (le_refl 2) same
   omega
  have tested:2^(c+10)|||2^(c+(d+1))=2^(c+10)+2^(c+(d+1)):=by
   have lower:2^(c+(d+1))<2^(c+10):=Nat.pow_lt_pow_right (by decide) (by omega)
   have joined:=two_pow_add_eq_or_of_lt lower 1
   rw[mul_one] at joined
   exact joined.symm
  have fits:2^(c+10)+2^(c+(d+1))≤2^(c+10)+r ↔ d<(r/2^(c+1)).size:=by
   rw[Nat.add_le_add_iff_left,lt_size,le_div_iff_mul_le (Nat.two_pow_pos _),←pow_add]
   rw[show d+(c+1)=c+(d+1) by omega]
  rw[if_neg going,half,tested,takesLonger]
  by_cases set:d<(r/2^(c+1)).size
  · have added:loops|||2^(c+(d+1))=loops+2^(c+(d+1)):=by
     obtain ⟨m,rfl⟩:=apart
     exact (two_pow_add_eq_or_of_lt (Nat.pow_lt_pow_right (by decide) (by omega)) m).symm
    have next:2^(c+d+1)∣loops+2^(c+(d+1)):=
     Nat.dvd_add ((pow_dvd_pow 2 (by omega)).trans apart) (dvd_of_eq (by rw[add_assoc]))
    rw[if_neg (by simpa using fits.2 set),added,ih (by omega) next (by omega),
     min_eq_left (by omega),min_eq_left (by omega)]
    have bits:2^(c+(d+1))=2^(c+1)*2^d:=by rw[←pow_add];congr 1;omega
    have positive:=Nat.two_pow_pos d
    obtain ⟨m,hm⟩:=Nat.exists_eq_add_of_lt positive
    rw[bits,pow_succ,hm,add_assoc,←mul_add]
    congr 3
    omega
  · rw[if_pos (by simpa using fits.not.2 set),
     ih (by omega) ((pow_dvd_pow 2 (by omega)).trans apart) (by omega),
     min_eq_right (by omega),min_eq_right (by omega)]

/-- What is set is no more than what is there exactly if all the bits from the first one on are
there. -/
lemma filled_le_iff {b q r:ℕ}(hq:r/2^b=q):2^b*(2^q.size-1)≤r ↔ ∃n,q+1=2^n:=by
 have below:q<2^q.size:=lt_size_self q
 rw[mul_comm,←le_div_iff_mul_le (Nat.two_pow_pos b),hq]
 constructor
 · intro reached
   exact ⟨q.size,by omega⟩
 · rintro ⟨n,full⟩
   have short:q.size≤n:=size_le.2 (by omega)
   have:=Nat.pow_le_pow_right (n:=2) (by decide) short
   omega

/-- The largest power of two that is not above `t`. -/
def highBit (t:ℕ):ℕ:=2^t.log2

/-- Every bit is tested together with the high bit alone, so the bits behind the first one that
fits are set too: the result is right exactly if the threshold has all of them. -/
theorem timer_calibrate_iff {t:ℕ}(low:2^10≤t)(high:t<2^31):
 ∃loops,(∀turns,22≤turns → timerCalibrate (takesLonger t) turns=some loops) ∧
  (loops≤t ∧ t-loops<highBit t/2^8 ↔ ∃n,(t-highBit t)/(highBit t/2^9)+1=2^n):=by
 have positive:t≠0:=by omega
 have reached:2^t.log2≤t:=log2_self_le positive
 have below:t<2^(t.log2+1):=lt_log2_self
 have least:10≤t.log2:=(le_log2 positive).2 low
 have small:t.log2<31:=(log2_lt positive).2 high
 obtain ⟨c,hc⟩:∃c,t.log2=c+10:=⟨t.log2-10,by omega⟩
 rw[hc] at reached below small
 obtain ⟨r,rfl⟩:=Nat.exists_eq_add_of_le reached
 have bits:2^(c+10)=2^(c+1)*2^9:=by rw[←pow_add]
 have short:(r/2^(c+1)).size≤9:=by
  rw[size_le,div_lt_iff_lt_mul (Nat.two_pow_pos _),mul_comm,←bits]
  rw[pow_succ 2 (c+10)] at below
  omega
 refine ⟨2^(c+10)+2^(c+1)*(2^(r/2^(c+1)).size-1),fun turns enough=>?_,?_⟩
 · have half:2^(c+10)>>>1=2^(c+9):=by
    rw[Nat.shiftRight_eq_div_pow,pow_succ 2 (c+9),pow_one,Nat.mul_div_cancel _ (by decide)]
   rw[timerCalibrate,show 1<<<10=2^10 from rfl,
    approximate_eq reached below (by omega) (by omega) (by omega),Option.bind_some,half,
    refineBits_eq (by omega) dvd_rfl (by omega),min_eq_right short]
 · have eighth:2^(c+10)/2^8=2*2^(c+1):=by
    rw[bits,show 2^9=2*2^8 from rfl,←mul_assoc,Nat.mul_div_cancel _ (by decide),mul_comm]
   have ninth:2^(c+10)/2^9=2^(c+1):=by rw[bits,Nat.mul_div_cancel _ (by decide)]
   rw[highBit,hc,eighth,ninth,Nat.add_sub_cancel_left,Nat.add_le_add_iff_left,
    Nat.add_sub_add_left,←filled_le_iff rfl]
   refine and_iff_left_of_imp fun _=>?_
   have filled:r/2^(c+1)≤2^(r/2^(c+1)).size-1:=le_sub_one_of_lt (lt_size_self _)
   have most:=mul_le_mul_left (2^(c+1)) filled
   have split:=div_add_mod r (2^(c+1))
   have rest:=mod_lt r (Nat.two_pow_pos (c+1))
   omega

theorem timer_calibrate_iff_low:∃loops,
 (∀turns,22≤turns → timerCalibrate (takesLonger 1535) turns=some loops) ∧
  (loops≤1535 ∧ 1535-loops<highBit 1535/2^8 ↔ ∃n,(1535-highBit 1535)/(highBit 1535/2^9)+1=2^n):=
 timer_calibrate_iff (by decide) (by decide)

/-- One and a half times the high bit: the lower bits are all set as well. -/
theorem calibration_overshoots:∃loops,
 timerCalibrate (takesLonger 1536) 22=some loops ∧ ¬loops≤1536:=⟨2046,by decide,by decide⟩

end Pintos.Timer
