import Mathlib.Algebra.Order.Ring.Int

/-! The generator of `lib/random.c` and the cipher of `tests/arc4.c`. An array of 256 bytes is read
at numbers below 256 only. -/
namespace Pintos.Random
open List (replicate)

def swapByte (s:ℕ→UInt8)(a b:ℕ):ℕ→UInt8:=Function.update (Function.update s a (s b)) b (s a)

structure State where
 s:ℕ→UInt8
 i:UInt8
 j:UInt8
 inited:Bool

def seedByte (seed:UInt32)(k:ℕ):UInt8:=UInt8.ofNat (seed.toNat/256^k)

/-- `s` and `j` after the given number of turns of the second loop of `random_init`. -/
def mix (seed:UInt32):ℕ→(ℕ→UInt8)×UInt8
 | 0=>(UInt8.ofNat,0)
 | i+1=>
  let (s,j):=mix seed i
  let j:=j+(s i+seedByte seed (i%4))
  (swapByte s i j.toNat,j)

def randomInit (seed:UInt32):State:=⟨(mix seed 256).1,0,0,true⟩

def randomByte (r:State):UInt8×State:=
 let i:=r.i+1
 let j:=r.j+r.s i.toNat
 let s:=swapByte r.s i.toNat j.toNat
 (s (s i.toNat+s j.toNat).toNat,{r with s:=s,i:=i,j:=j})

def byteLoop:State→ℕ→List UInt8×State
 | r,0=>([],r)
 | r,size+1=>
  let (byte,r):=randomByte r
  let (buf,r):=byteLoop r size
  (byte::buf,r)

def randomBytes (r:State)(size:ℕ):List UInt8×State:=
 byteLoop (if r.inited then r else randomInit 0) size

/-- One call of `random_bytes` after the other. -/
def randomCalls:State→List ℕ→List UInt8×State
 | r,[]=>([],r)
 | r,n::sizes=>
  let (buf,r):=randomBytes r n
  let (bufs,r):=randomCalls r sizes
  (buf++bufs,r)

structure Arc4 where
 s:ℕ→UInt8
 i:UInt8
 j:UInt8

/-- `s`, `j` and `key_idx` after the given number of turns; `j` is an `int`. -/
def schedule (key:List UInt8):ℕ→(ℕ→UInt8)×ℕ×ℕ
 | 0=>(UInt8.ofNat,0,0)
 | i+1=>
  let (s,j,keyIdx):=schedule key i
  let j:=(j+(s i).toNat+(key.getD keyIdx 0).toNat)&&&255
  (swapByte s i j,j,if key.length ≤ keyIdx+1 then 0 else keyIdx+1)

def arc4Init (key:List UInt8):Arc4:=⟨(schedule key 256).1,0,0⟩

def arc4Crypt:Arc4→List UInt8→List UInt8×Arc4
 | a,[]=>([],a)
 | a,b::buf=>
  let i:=a.i+1
  let j:=a.j+a.s i.toNat
  let s:=swapByte a.s i.toNat j.toNat
  let (rest,a):=arc4Crypt ⟨s,i,j⟩ buf
  ((b^^^s (((s i.toNat).toNat+(s j.toNat).toNat)&&&255))::rest,a)

variable {s:ℕ→UInt8}{seed:UInt32}

/-- Every byte is at exactly one place. -/
def Permutation (s:ℕ→UInt8):Prop:=∀v,∃! i,i<256 ∧ s i=v

lemma swapByte_eq (a b:ℕ):swapByte s a b=s ∘ Equiv.swap a b:=by
 funext i
 simp only[swapByte,Function.update_apply,Function.comp_apply,Equiv.swap_apply_def]
 split_ifs<;>simp_all

lemma Permutation.swapByte (h:Permutation s){a b:ℕ}(ha:a<256)(hb:b<256):
 Permutation (swapByte s a b):=by
 have inside (i:ℕ) (hi:i<256):Equiv.swap a b i<256:=by
  rw[Equiv.swap_apply_def]
  split_ifs<;>assumption
 intro v
 obtain ⟨i,⟨hi,hv⟩,only⟩:=h v
 rw[swapByte_eq]
 refine ⟨Equiv.swap a b i,⟨inside i hi,by simpa using hv⟩,fun k ⟨hk,hkv⟩=>?_⟩
 rw[←only _ ⟨inside k hk,hkv⟩,Equiv.swap_apply_self]

lemma mix_permutation (i:ℕ)(small:i≤256):Permutation (mix seed i).1:=by
 induction i with
 | zero=>
  intro v
  refine ⟨v.toNat,⟨v.toNat_lt,UInt8.ofNat_toNat⟩,fun i ⟨hi,hv⟩=>?_⟩
  rw[←hv,mix,UInt8.toNat_ofNat',Nat.mod_eq_of_lt hi]
 | succ i ih=>exact (ih (by omega)).swapByte small (UInt8.toNat_lt _)

lemma byteLoop_permutation {r:State}(h:Permutation r.s)(n:ℕ):Permutation (byteLoop r n).2.s:=by
 induction n generalizing r with
 | zero=>exact h
 | succ n ih=>exact ih (h.swapByte (UInt8.toNat_lt _) (UInt8.toNat_lt _))
lemma byteLoop_inited {r:State}(n:ℕ):(byteLoop r n).2.inited=r.inited:=by
 induction n generalizing r with
 | zero=>rfl
 | succ n ih=>exact ih
lemma and_255 (n:ℕ):n&&&255=n%256:=Nat.and_two_pow_sub_one_eq_mod n 8
def keyOf (seed:UInt32):List UInt8:=(List.range 4).map (seedByte seed)

lemma schedule_eq (seed:UInt32)(i:ℕ):
 schedule (keyOf seed) i=((mix seed i).1,(mix seed i).2.toNat,i%4):=by
 induction i with
 | zero=>rfl
 | succ i ih=>
  have key:(keyOf seed).getD (i%4) 0=seedByte seed (i%4):=by
   have:=Nat.mod_lt i (show 0<4 by decide)
   simp[keyOf,this]
  have sum (a b c:UInt8):(a.toNat+b.toNat+c.toNat)%256=(a+(b+c)).toNat:=by
   simp[Nat.add_assoc]
  simp only[schedule,ih,key,and_255,sum]
  congr 2
  change (if 4 ≤ i%4+1 then 0 else i%4+1)=(i+1)%4
  split_ifs<;>omega

def State.cipher (r:State):Arc4:=⟨r.s,r.i,r.j⟩

lemma arc4Crypt_eq (r:State)(n:ℕ):
 arc4Crypt r.cipher (replicate n 0)=((byteLoop r n).1,(byteLoop r n).2.cipher):=by
 induction n generalizing r with
 | zero=>rfl
 | succ n ih=>
  have sum (a b:UInt8):(a.toNat+b.toNat)%256=(a+b).toNat:=(UInt8.toNat_add a b).symm
  have next:=ih (randomByte r).2
  simp only[randomByte,State.cipher] at next
  simp only[State.cipher,List.replicate_succ,arc4Crypt,byteLoop,randomByte,and_255,sum,
   UInt8.zero_xor,next]

lemma byteLoop_add (r:State)(m n:ℕ):byteLoop r (m+n)=
  ((byteLoop r m).1++(byteLoop (byteLoop r m).2 n).1,(byteLoop (byteLoop r m).2 n).2):=by
 induction m generalizing r with
 | zero=>simp[byteLoop]
 | succ m ih=>
  rw[Nat.add_right_comm]
  simp only[byteLoop,ih,List.cons_append]

lemma randomCalls_eq {r:State}(inited:r.inited=true)(sizes:List ℕ):
 randomCalls r sizes=byteLoop r sizes.sum:=by
 induction sizes generalizing r with
 | nil=>rfl
 | cons n sizes ih=>
  have still:(byteLoop r n).2.inited=true:=(byteLoop_inited n).trans inited
  simp only[randomCalls,randomBytes,inited,if_true,ih still,List.sum_cons,byteLoop_add]

theorem random_is_arc4 (seed:UInt32)(sizes:List ℕ):(randomCalls (randomInit seed) sizes).1=
  (arc4Crypt (arc4Init (keyOf seed)) (replicate sizes.sum 0)).1 ∧
 Permutation (randomCalls (randomInit seed) sizes).2.s:=by
 have start:arc4Init (keyOf seed)=(randomInit seed).cipher:=by
  rw[arc4Init,schedule_eq]
  rfl
 rw[randomCalls_eq rfl,start,arc4Crypt_eq]
 have first:Permutation (randomInit seed).s:=by
  simp only[randomInit]
  exact mix_permutation 256 (Nat.le_refl _)
 exact ⟨rfl,byteLoop_permutation first _⟩

end Pintos.Random
