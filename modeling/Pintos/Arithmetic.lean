import Mathlib.Tactic.Ring

/-! The 64-bit divisions and remainders of `lib/arithmetic.c`. -/
namespace Pintos.Arithmetic
open Option UInt64

/-- The `DIVL` instruction; `none` is the trap for a quotient that does not fit. -/
def divl (n:UInt64)(d:UInt32):Option UInt32:=
 if d=0 ∨ 4294967296≤n/d.toUInt64 then none else some (n/d.toUInt64).toUInt32

def shiftUp (limit shift:UInt32)(nx:ℕ×UInt32):ℕ×UInt32:=
 if nx.2≤limit then (nx.1+shift.toNat,nx.2 <<< shift) else nx

def nlz (x:UInt32):ℕ:=
 let nx:=shiftUp 0x0000FFFF 16 (0,x)
 let nx:=shiftUp 0x00FFFFFF 8 nx
 let nx:=shiftUp 0x0FFFFFFF 4 nx
 let nx:=shiftUp 0x3FFFFFFF 2 nx
 if nx.2≤0x7FFFFFFF then nx.1+1 else nx.1

def udiv64 (n d:UInt64):Option UInt64:=
 if d >>> 32=0 then do
  let b:=(1:UInt64) <<< 32
  let n1:=(n >>> 32).toUInt32
  let n0:=n.toUInt32
  let d0:=d.toUInt32
  let q←divl (b*(n1%d0).toUInt64+n0.toUInt64) d0
  return q.toUInt64+b*(n1/d0).toUInt64
 else if n<d then
  some 0
 else do
  let d1:=(d >>> 32).toUInt32
  let s:=nlz d1
  let q←divl (n >>> 1) ((d <<< UInt64.ofNat s) >>> 32).toUInt32
  let q:=(q >>> UInt32.ofNat (31-s)).toUInt64
  return if n-(q-1)*d<d then q-1 else q

def sdiv64 (n d:Int64):Option Int64:=do
 let nAbs:=if 0≤n then n.toUInt64 else -n.toUInt64
 let dAbs:=if 0≤d then d.toUInt64 else -d.toUInt64
 let qAbs←udiv64 nAbs dAbs
 return if (n<0)=(d<0) then qAbs.toInt64 else -qAbs.toInt64

def umod64 (n d:UInt64):Option UInt32:=do
 let q←udiv64 n d
 return (n-d*q).toUInt32
def smod64 (n d:Int64):Option Int32:=do
 let q←sdiv64 n d
 return (n-d*q).toInt32
def umoddi3 (n d:UInt64):Option UInt64:=(umod64 n d).map UInt32.toUInt64

def moddi3 (n d:Int64):Option Int64:=(smod64 n d).map Int32.toInt64
variable {x:UInt32}{low:ℕ}{nx:ℕ×UInt32}

structure Shifted (x:UInt32)(low:ℕ)(nx:ℕ×UInt32):Prop where
 shifted:nx.2.toNat=x.toNat*2^nx.1
 least:2^low≤nx.2.toNat

lemma Shifted.step (h:Shifted x low nx)(limit shift:UInt32)
 (top:limit.toNat+1=2^(low+shift.toNat))(bits:low+2*shift.toNat=32)
 (narrow:shift.toNat<32):Shifted x (low+shift.toNat) (shiftUp limit shift nx):=by
 have small:limit.toNat<2^(low+shift.toNat):=by omega
 unfold shiftUp
 split
 · rename_i below
   have room:nx.2.toNat*2^shift.toNat<2^32:=by
    rw[←bits,Nat.two_mul,←Nat.add_assoc,Nat.pow_add _ (low+shift.toNat)]
    refine Nat.mul_lt_mul_of_pos_right ?_ (Nat.two_pow_pos _)
    exact Nat.lt_of_le_of_lt (UInt32.le_iff_toNat_le.1 below) small
   have value:(nx.2 <<< shift).toNat=nx.2.toNat*2^shift.toNat:=by
    rw[UInt32.toNat_shiftLeft,Nat.mod_eq_of_lt narrow,Nat.shiftLeft_eq,Nat.mod_eq_of_lt room]
   constructor
   · rw[value,h.shifted,Nat.pow_add,Nat.mul_assoc]
   · rw[value,Nat.pow_add]
     exact Nat.mul_le_mul_right _ h.least
 · rename_i above
   refine ⟨h.shifted,?_⟩
   rw[UInt32.le_iff_toNat_le] at above
   omega

lemma nlz_spec (hx:x≠0):2^31≤x.toNat*2^nlz x ∧ x.toNat*2^nlz x<2^32:=by
 have pos:2^0≤x.toNat:=Nat.pos_of_ne_zero fun eq=>hx (UInt32.toNat_inj.1 eq)
 have start:Shifted x 0 (0,x):=⟨(Nat.mul_one _).symm,pos⟩
 have h:=(((start.step 0x0000FFFF 16 rfl rfl (by decide)).step 0x00FFFFFF 8 rfl rfl
  (by decide)).step 0x0FFFFFFF 4 rfl rfl (by decide)).step 0x3FFFFFFF 2 rfl rfl (by decide)
 unfold nlz
 dsimp only
 generalize shiftUp 0x3FFFFFFF 2 _=nx at h ⊢
 have shifted:=h.shifted
 have least:2^30≤nx.2.toNat:=h.least
 have top:=nx.2.toNat_lt
 split
 · rename_i below
   have below':nx.2.toNat≤0x7FFFFFFF:=UInt32.le_iff_toNat_le.1 below
   rw[Nat.pow_succ 2 nx.1,←Nat.mul_assoc,←shifted]
   omega
 · rename_i above
   have above':¬nx.2.toNat≤0x7FFFFFFF:=fun le=>above (UInt32.le_iff_toNat_le.2 le)
   omega

lemma nlz_le (hx:x≠0):nlz x≤31:=by
 have pos:0<x.toNat:=Nat.pos_of_ne_zero fun eq=>hx (UInt32.toNat_inj.1 eq)
 have small:2^nlz x<2^32:=Nat.lt_of_le_of_lt (Nat.le_mul_of_pos_left _ pos) (nlz_spec hx).2
 exact Nat.le_of_lt_succ ((Nat.pow_lt_pow_iff_right (by decide)).1 small)

variable {n d w:ℕ}

/-- The quotient by a divisor that is a little too small is at most one too large. -/
lemma estimate_quotient (pos:0<w)(le:w≤d)(close:n/w*(d-w)≤d):n/d≤n/w ∧ (n/w-1)*d≤n:=by
 refine ⟨Nat.div_le_div_left le pos,?_⟩
 have below:n/w*w≤n:=Nat.div_mul_le_self n w
 have whole:n/w*d=n/w*w+n/w*(d-w):=by
  rw[←Nat.mul_add,Nat.add_sub_cancel' le]
 rw[Nat.sub_mul,Nat.one_mul]
 omega

lemma corrected_quotient {q:ℕ}(pos:0<d)(low:n/d≤q)(high:(q-1)*d≤n):
 n/d=if n-(q-1)*d<d then q-1 else q:=by
 split
 · refine Nat.div_eq_of_lt_le high ?_
   rw[Nat.succ_mul]
   omega
 · rename_i large
   refine Nat.le_antisymm low ((Nat.le_div_iff_mul_le pos).2 ?_)
   cases q with
   | zero=>simp
   | succ q=>
    rw[Nat.add_sub_cancel] at high large
    rw[Nat.succ_mul]
    omega

lemma divl_eq {n:UInt64}{d:UInt32}(pos:0<d.toNat)(fits:n.toNat/d.toNat<2^32):
 ∃q,divl n d=some q ∧ q.toNat=n.toNat/d.toNat:=by
 have value:(n/d.toUInt64).toNat=n.toNat/d.toNat:=by simp
 have notZero:d≠0:=by
  rintro rfl
  exact Nat.lt_irrefl 0 pos
 have small:¬4294967296≤n/d.toUInt64:=by
  exact Nat.not_le.2 fits
 refine ⟨_,if_neg (not_or.2 ⟨notZero,small⟩),?_⟩
 rw[toNat_toUInt32,value,Nat.mod_eq_of_lt fits]

lemma split_quotient (pos:0<d)(b:ℕ):(b*(n/b%d)+n%b)/d+b*(n/b/d)=n/d:=by
 have split:n=d*(b*(n/b/d))+(b*(n/b%d)+n%b):=by
  calc n=b*(n/b)+n%b:=(Nat.div_add_mod n b).symm
    _ = b*(d*(n/b/d)+n/b%d)+n%b:=by rw[Nat.div_add_mod (n/b) d]
    _ = d*(b*(n/b/d))+(b*(n/b%d)+n%b):=by ring
 conv_rhs=>rw[split]
 rw[Nat.mul_add_div pos,Nat.add_comm]

lemma udiv64_narrow {n d:UInt64}(hd:d≠0)(narrow:d >>> 32=0):udiv64 n d=some (n/d):=by
 have top:=n.toNat_lt
 have pos:0<d.toNat:=Nat.pos_of_ne_zero fun eq=>hd (UInt64.toNat_inj.1 eq)
 have small:d.toNat<2^32:=by
  have high:=congrArg UInt64.toNat narrow
  simp at high
  omega
 have hn1:(n >>> 32).toUInt32.toNat=n.toNat/2^32:=by
  simp[Nat.shiftRight_eq_div_pow]
  omega
 have hd0:d.toUInt32.toNat=d.toNat:=by
  rw[toNat_toUInt32,Nat.mod_eq_of_lt small]
 have less:n.toNat/2^32%d.toNat<d.toNat:=Nat.mod_lt _ pos
 have arg:(((1:UInt64) <<< 32)*((n >>> 32).toUInt32%d.toUInt32).toUInt64 +
   n.toUInt32.toUInt64).toNat=2^32*(n.toNat/2^32%d.toNat)+n.toNat%2^32:=by
  rw[UInt64.toNat_add,UInt64.toNat_mul,UInt32.toNat_toUInt64,UInt32.toNat_toUInt64,
   UInt32.toNat_mod,hn1,hd0,toNat_toUInt32]
  have shift:((1:UInt64) <<< 32).toNat=2^32:=rfl
  rw[shift]
  omega
 have fits:(2^32*(n.toNat/2^32%d.toNat)+n.toNat%2^32)/d.toNat<2^32:=by
  rw[Nat.div_lt_iff_lt_mul pos]
  omega
 obtain ⟨q,run,value⟩:=divl_eq (d:=d.toUInt32) (hd0.symm▸pos) (by rw[arg,hd0];exact fits)
 rw[arg,hd0] at value
 unfold udiv64
 rw[if_pos narrow]
 simp only[run,bind_eq_bind,bind_some,Option.pure_def,some.injEq]
 rw[←UInt64.toNat_inj,UInt64.toNat_add,UInt64.toNat_mul,UInt32.toNat_toUInt64,
  UInt32.toNat_toUInt64,UInt32.toNat_div,hn1,hd0,value,UInt64.toNat_div]
 have shift:((1:UInt64) <<< 32).toNat=2^32:=rfl
 have total:=split_quotient (n:=n.toNat) pos (2^32)
 have bound:n.toNat/d.toNat<2^64:=Nat.lt_of_le_of_lt (Nat.div_le_self _ _) top
 rw[shift]
 omega

/-- `v` has the upper 32 bits of `d` when it is shifted up by `s` places. -/
structure Normalised (n d s v:ℕ):Prop where
 fits:d*2^s<2^64
 least:2^31≤v
 below:v*2^(32-s)≤d
 close:n/(v*2^(32-s))*(d-v*2^(32-s))≤d

lemma normalised {s:ℕ}(top:n<2^64)(places:s≤31)(least:2^31≤d/2^32*2^s)(most:d/2^32*2^s<2^32):
 Normalised n d s (d*2^s/2^32):=by
 have pos:0<2^s:=Nat.two_pow_pos s
 have whole:2^(32-s)*2^s=2^32:=by
  rw[←Nat.pow_add,Nat.sub_add_cancel (by omega)]
 have upper:d/2^32<2^(32-s) :=  Nat.lt_of_mul_lt_mul_right (Nat.lt_of_lt_of_eq most whole.symm)
 have fits:d*2^s<2^64:=by
  calc d*2^s<2^32*(d/2^32+1)*2^s:=
        Nat.mul_lt_mul_of_pos_right (Nat.lt_mul_div_succ d (by decide)) pos
    _ ≤ 2^32*2^(32-s)*2^s:=Nat.mul_le_mul_right _ (Nat.mul_le_mul_left _ upper)
    _ = 2^32*2^32:=by rw[Nat.mul_assoc,whole]
 generalize hv:d*2^s/2^32=v
 have floor:v*2^32≤d*2^s:=hv▸Nat.div_mul_le_self _ _
 have ceil:d*2^s<(v+1)*2^32:=by
  rw[←hv]
  exact Nat.lt_mul_of_div_lt (Nat.lt_succ_self _) (by decide)
 have atLeast:2^31≤v:=by
  rw[←hv,Nat.le_div_iff_mul_le (by decide)]
  calc 2^31*2^32≤d/2^32*2^s*2^32:=Nat.mul_le_mul_right _ least
    _ = d/2^32*2^32*2^s:=Nat.mul_right_comm _ _ _
    _ ≤ d*2^s:=Nat.mul_le_mul_right _ (Nat.div_mul_le_self _ _)
 rw[←whole,←Nat.mul_assoc] at floor ceil
 have below:=Nat.le_of_mul_le_mul_right floor pos
 have above:=Nat.lt_of_mul_lt_mul_right ceil
 refine ⟨fits,atLeast,below,?_⟩
 have weight:2^31*2^(32-s)≤v*2^(32-s):=Nat.mul_le_mul_right _ atLeast
 have quotient:n/(v*2^(32-s))<2^(s+1):=by
  rw[Nat.div_lt_iff_lt_mul (by omega)]
  refine Nat.lt_of_lt_of_le top ?_
  calc 2^64=2^(s+1)*(2^31*2^(32-s)):=by
        rw[←Nat.pow_add,←Nat.pow_add]
        congr 1
        omega
    _ ≤ 2^(s+1)*(v*2^(32-s)):=Nat.mul_le_mul_left _ weight
 have product:n/(v*2^(32-s))*(d-v*2^(32-s))≤2^(s+1)*(2^(32-s)-1):=by
  refine Nat.mul_le_mul (Nat.le_of_lt quotient) ?_
  rw[Nat.add_mul,Nat.one_mul] at above
  omega
 refine Nat.le_trans product (Nat.le_trans ?_ (Nat.le_trans weight below))
 rw[Nat.mul_sub,Nat.mul_one,Nat.pow_succ,Nat.mul_right_comm,Nat.mul_comm (2^s),whole]
 -- the error is largest where only one bit is cut off
 by_cases one:s=31
 · subst one
   decide
 · have:2^2≤2^(32-s):=Nat.pow_le_pow_right (by decide) (by omega)
   omega

lemma udiv64_wide {n d:UInt64}(wide:d >>> 32≠0):udiv64 n d=some (n/d):=by
 have top:=n.toNat_lt
 have high:(d >>> 32).toNat=d.toNat/2^32:=by
  simp[Nat.shiftRight_eq_div_pow]
 have hd1:(d >>> 32).toUInt32.toNat=d.toNat/2^32:=by
  have:=d.toNat_lt
  rw[toNat_toUInt32,high]
  omega
 have ne:(d >>> 32).toUInt32≠0:=by
  intro eq
  have zero:=congrArg UInt32.toNat eq
  rw[hd1,←high] at zero
  exact wide (UInt64.toNat_inj.1 zero)
 unfold udiv64
 rw[if_neg wide]
 split
 · rename_i less
   refine congrArg some (UInt64.toNat_inj.1 ?_).symm
   exact Nat.div_eq_of_lt (lt_iff_toNat_lt.1 less)
 rename_i notLess
 have le:d.toNat≤n.toNat:=UInt64.le_iff_toNat_le.1 (UInt64.not_lt.1 notLess)
 obtain ⟨least,most⟩:=nlz_spec ne
 have places:=nlz_le ne
 rw[hd1] at least most
 dsimp only
 generalize nlz (d >>> 32).toUInt32=s at least most places ⊢
 have norm:=normalised top places least most
 have arg:((d <<< UInt64.ofNat s) >>> 32).toUInt32.toNat=d.toNat*2^s/2^32:=by
  have fits:=norm.fits
  have value:(d <<< UInt64.ofNat s).toNat=d.toNat*2^s:=by
   rw[UInt64.toNat_shiftLeft,toNat_ofNat',Nat.shiftLeft_eq]
   rw[Nat.mod_eq_of_lt (a:=s) (by omega),Nat.mod_eq_of_lt (a:=s) (by omega),Nat.mod_eq_of_lt fits]
  rw[toNat_toUInt32,UInt64.toNat_shiftRight,value,Nat.shiftRight_eq_div_pow]
  simp
  omega
 generalize d.toNat*2^s/2^32=v at norm arg
 have atLeast:=norm.least
 have half:(n >>> 1).toNat=n.toNat/2:=by simp[Nat.shiftRight_eq_div_pow]
 have fits:n.toNat/2/v<2^32:=by
  rw[Nat.div_lt_iff_lt_mul (by omega)]
  omega
 obtain ⟨q,run,value⟩:=divl_eq (Nat.lt_of_lt_of_eq (by omega) arg.symm)
  (by rw[arg,half];exact fits)
 rw[arg,half] at value
 simp only[run,bind_eq_bind,bind_some,Option.pure_def,some.injEq]
 have estimate:(q >>> UInt32.ofNat (31-s)).toUInt64.toNat=n.toNat/(v*2^(32-s)):=by
  have shift:(UInt32.ofNat (31-s)).toNat%32=31-s:=by
   rw[UInt32.toNat_ofNat']
   omega
  have twice:2*(v*2^(31-s))=v*2^(32-s):=by
   rw[show 32-s=31-s+1 by omega,Nat.pow_succ]
   ring
  rw[UInt32.toNat_toUInt64,UInt32.toNat_shiftRight,shift,Nat.shiftRight_eq_div_pow,value,
   Nat.div_div_eq_div_mul,Nat.div_div_eq_div_mul,twice]
 generalize (q >>> UInt32.ofNat (31-s)).toUInt64=q' at estimate ⊢
 have pos:0<v*2^(32-s):=Nat.mul_pos (by omega) (Nat.two_pow_pos _)
 obtain ⟨low,high⟩:=estimate_quotient pos norm.below norm.close
 rw[←estimate] at low high
 have posd:0<d.toNat:=Nat.lt_of_lt_of_le pos norm.below
 have some:1≤q'.toNat:=Nat.le_trans ((Nat.one_le_div_iff posd).2 le) low
 have one:(q'-1).toNat=q'.toNat-1:=UInt64.toNat_sub_of_le _ _ (UInt64.le_iff_toNat_le.2 some)
 have times:((q'-1)*d).toNat=(q'.toNat-1)*d.toNat:=by
  rw[UInt64.toNat_mul,one,Nat.mod_eq_of_lt (Nat.lt_of_le_of_lt high top)]
 have rest:(n-(q'-1)*d).toNat=n.toNat-(q'.toNat-1)*d.toNat:=by
  rw[UInt64.toNat_sub_of_le _ _ (UInt64.le_iff_toNat_le.2 (times▸high)),times]
 rw[←UInt64.toNat_inj,UInt64.toNat_div,corrected_quotient posd low high,←rest,
  apply_ite UInt64.toNat,one]
 simp only[lt_iff_toNat_lt]

lemma udiv64_eq {n d:UInt64}(hd:d≠0):udiv64 n d=some (n/d):=by
 by_cases narrow:d >>> 32=0
 · exact udiv64_narrow hd narrow
 · exact udiv64_wide narrow

lemma toNat_abs (n:Int64):(if 0≤n then n.toUInt64 else -n.toUInt64).toNat=n.toInt.natAbs:=by
 have top:=n.toUInt64.toNat_lt
 have word:n.toInt=if 2*n.toUInt64.toNat<2^64 then (n.toUInt64.toNat:ℤ)
   else n.toUInt64.toNat-(2^64:ℕ):=BitVec.toInt_eq_toNat_cond n.toBitVec
 have sign:0≤n ↔ 0≤n.toInt:=Int64.le_iff_toInt_le
 by_cases nonneg:0≤n
 · have:=sign.1 nonneg
   rw[if_pos nonneg]
   split at word<;>omega
 · have:=mt sign.2 nonneg
   rw[if_neg nonneg,toNat_neg,size]
   split at word<;>omega

lemma tdiv_eq_natAbs (a b:ℤ):
 (if a<0 ↔ b<0 then ((a.tdiv b).natAbs:ℤ) else -(a.tdiv b).natAbs)=a.tdiv b:=by
 split
 · rename_i same
   refine Int.natAbs_of_nonneg ?_
   by_cases neg:a<0
   · exact Int.tdiv_nonneg_of_nonpos_of_nonpos (Int.le_of_lt neg) (Int.le_of_lt (same.1 neg))
   · exact Int.tdiv_nonneg (by omega) (by omega)
 · have nonpos:a.tdiv b≤0:=by
    by_cases neg:a<0
    · have nonneg:0≤(-a).tdiv b:=Int.tdiv_nonneg (by omega) (by omega)
      rw[Int.neg_tdiv] at nonneg
      omega
    · exact Int.tdiv_nonpos_of_nonneg_of_nonpos (by omega) (by omega)
   rw[Int.ofNat_natAbs_of_nonpos nonpos,Int.neg_neg]

lemma sdiv64_eq {n d:Int64}(hd:d≠0):sdiv64 n d=some (Int64.ofInt (n.toInt.tdiv d.toInt)):=by
 have ne:(if 0≤d then d.toUInt64 else -d.toUInt64)≠0:=by
  intro eq
  have zero:=congrArg UInt64.toNat eq
  rw[toNat_abs] at zero
  exact hd (Int64.toInt_inj.1 (Int.natAbs_eq_zero.1 zero))
 unfold sdiv64
 dsimp only
 rw[udiv64_eq ne,bind_eq_bind,bind_some,Option.pure_def,some.injEq]
 generalize hq:(if 0≤n then n.toUInt64 else -n.toUInt64) /
  (if 0≤d then d.toUInt64 else -d.toUInt64)=q
 have value:q.toNat=(n.toInt.tdiv d.toInt).natAbs:=by
  rw[←hq,UInt64.toNat_div,toNat_abs,toNat_abs,Int.natAbs_tdiv]
  rfl
 have cast:q.toInt64=Int64.ofInt (n.toInt.tdiv d.toInt).natAbs:=by
  rw[←value,Int64.ofInt_eq_ofNat,←toInt64_ofNat',UInt64.ofNat_toNat]
 have negative:∀x:Int64,x<0 ↔ x.toInt<0:=fun x=>Int64.lt_iff_toInt_lt
 simp only[cast,negative,eq_iff_iff,←Int64.ofInt_neg]
 rw[←apply_ite Int64.ofInt]
 exact congrArg _ (tdiv_eq_natAbs _ _)

/-- No `DIVL` traps in `udiv64`, and what it returns is the quotient. -/
theorem division_exact:(∀n d:UInt64,d≠0 → (udiv64 n d).map UInt64.toNat=some (n.toNat/d.toNat)) ∧
  ∀n d:Int64,d≠0 → sdiv64 n d=some (Int64.ofInt (n.toInt.tdiv d.toInt)):=by
 refine ⟨fun n d hd=>?_,fun n d hd=>sdiv64_eq hd⟩
 rw[udiv64_eq hd,map_some,UInt64.toNat_div]

theorem division_exact_extremes:
 (udiv64 0xffffffffffffffff 0x1ffffffff).map UInt64.toNat=some 0x80000000 ∧
  sdiv64 (-0x8000000000000000) (-1)=some (-0x8000000000000000):=by
 refine ⟨division_exact.1 _ _ (by decide),(division_exact.2 _ _ (by decide)).trans ?_⟩
 decide

lemma umoddi3_eq {n d:UInt64}(hd:d≠0):
 (umoddi3 n d).map UInt64.toNat=some (n.toNat%d.toNat%2^32):=by
 have below:n.toNat/d.toNat*d.toNat≤n.toNat:=Nat.div_mul_le_self _ _
 have product:(d*(n/d)).toNat=d.toNat*(n.toNat/d.toNat):=by
  rw[UInt64.toNat_mul,UInt64.toNat_div,Nat.mul_comm]
  exact Nat.mod_eq_of_lt (Nat.lt_of_le_of_lt below n.toNat_lt)
 have rest:(n-d*(n/d)).toNat=n.toNat%d.toNat:=by
  rw[UInt64.toNat_sub_of_le _ _ (UInt64.le_iff_toNat_le.2 (by rwa[product,Nat.mul_comm])),
   product,Nat.mod_eq_sub]
 simp only[umoddi3,umod64,udiv64_eq hd,bind_eq_bind,bind_some,Option.pure_def,
  map_some,UInt32.toNat_toUInt64,toNat_toUInt32,rest]

lemma moddi3_eq {n d:Int64}(hd:d≠0):
 ∃m,moddi3 n d=some m ∧ m.toInt=(n.toInt.tmod d.toInt).bmod (2^32):=by
 have rest:n-d*Int64.ofInt (n.toInt.tdiv d.toInt)=Int64.ofInt (n.toInt.tmod d.toInt):=by
  rw[Int.tmod_def,Int64.ofInt_sub,Int64.ofInt_mul,Int64.ofInt_toInt,Int64.ofInt_toInt]
 simp only[moddi3,smod64,sdiv64_eq hd,bind_eq_bind,bind_some,rest,Int64.toInt32_ofInt]
 exact ⟨_,rfl,by rw[Int32.toInt_toInt64,Int32.toInt_ofInt];rfl⟩

/-- A remainder is right if it fits the 32 bits that `umod64` and `smod64` return. -/
theorem remainder_exact_iff (n d:UInt64)(hd:d≠0)(a b:Int64)(hb:b≠0):
 ((umoddi3 n d).map UInt64.toNat=some (n.toNat%d.toNat) ↔ n.toNat%d.toNat<2^32) ∧
 (moddi3 a b=some (Int64.ofInt (a.toInt-b.toInt*a.toInt.tdiv b.toInt)) ↔
  -2^31≤a.toInt.tmod b.toInt ∧ a.toInt.tmod b.toInt<2^31):=by
 constructor
 · rw[umoddi3_eq hd,some.injEq]
   omega
 · obtain ⟨m,run,value⟩:=moddi3_eq (n:=a) hb
   have low:=a.le_toInt
   have high:=a.toInt_lt
   have size:(a.toInt.tmod b.toInt).natAbs≤a.toInt.natAbs:=by
    rw[Int.natAbs_tmod]
    exact Nat.mod_le _ _
   rw[run,some.injEq,←Int64.toInt_inj,value,←Int.tmod_def]
   generalize a.toInt.tmod b.toInt=r at size ⊢
   rw[Int64.toInt_ofInt,Int64.size,Int.bmod_def,Int.bmod_def]
   omega

theorem remainder_exact_iff_small:
 (umoddi3 0xffffffffffffffff 10).map UInt64.toNat=some 5 ∧ moddi3 (-7) 2=some (-1):=by
 have exact_iff:=remainder_exact_iff 0xffffffffffffffff 10 (by decide) (-7) 2 (by decide)
 exact ⟨exact_iff.1.2 (by decide),exact_iff.2.2 (by decide)⟩
theorem remainder_truncated:(umoddi3 0x100000000 0x200000000).map UInt64.toNat=some 0 ∧
  moddi3 0x80000000 0x100000000=some (-0x80000000):=by
 decide

end Pintos.Arithmetic
