import Mathlib.Algebra.Order.Ring.Int

/-! Computations with 32-bit integers in which an overflow is an error. -/
namespace Pintos.CheckedWords

inductive Trap where
 | overflow
 | endless
 deriving DecidableEq,Repr

def int32 (x:ℤ):Except Trap ℤ:=
 if -2^31≤x ∧ x<2^31 then .ok x else .error .overflow
def uint32 (x:ℤ):Except Trap ℤ:=
 if 0≤x ∧ x<2^32 then .ok x else .error .overflow
lemma ok_bind {α β:Type}(a:α)(f:α→Except Trap β):(.ok a >>= f)=f a:=rfl
lemma int32_of_lt {x:ℕ}(h:x<2^31):int32 x=.ok x:=by
 unfold int32
 rw[if_pos (by omega)]
lemma uint32_of_lt {x:ℕ}(h:x<2^32):uint32 x=.ok x:=by
 unfold uint32
 rw[if_pos (by omega)]

end Pintos.CheckedWords
