import Mathlib.Data.Nat.Digits.Lemmas
import Pintos.PrintfFrontEnds

/-! The text of one integer conversion. -/
namespace Pintos.Printf
open List Nat

def Base.digit (b:Base)(d:ℕ):UInt8:=b.digits.getD d 0

structure Base.Proper (b:Base):Prop where
 large:8≤b.base
 groups:0<b.group
 zero:b.digit 0=byte '0'
 index:∀d<b.base,b.digits.idxOf (b.digit d)=d
 plain:∀d<b.base,b.digit d≠byte ',' ∧ b.digit d≠byte ' '

def Standard (b:Base):Prop:=b=baseD ∨ b=baseO ∨ b=basex ∨ b=baseX
lemma Standard.proper {b:Base}(h:Standard b):b.Proper:=by
 rcases h with rfl|rfl|rfl|rfl<;>constructor<;>decide

/-- The digits of a number, the last one first, with separators from the digit `k` on. -/
def grouped (b:Base)(group:Bool):List ℕ→ℕ→List UInt8
 | [],_=>[]
 | d::ds,k=>
  (if group ∧ 0<k ∧ k%b.group=0 then [byte ','] else [])++b.digit d::grouped b group ds (k+1)

variable {b:Base}{group:Bool}{c:Conversion}{value:ℕ}

lemma digitLoop_eq (b:Base)(group:Bool)(value cnt:ℕ):
 digitLoop b group value cnt=grouped b group (digits b.base value) cnt:=by
 induction value using Nat.strong_induction_on generalizing cnt with
 | _ value ih=>
  have two:=b.two_le
  by_cases zero:value=0
  · rw[zero,digitLoop,if_pos rfl,digits_zero]
    rfl
  · rw[digitLoop,if_neg zero,digits_def' (by omega) (by omega),grouped,
     ih _ (div_lt_self (by omega) two)]
    rfl

lemma grouped_length (ds:List ℕ)(k:ℕ):(grouped b group ds k).length≤2*ds.length:=by
 induction ds generalizing k with
 | nil=>rfl
 | cons d ds ih=>
  have rest:=ih (k+1)
  rw[grouped]
  split<;>simp<;>omega

lemma grouped_plain (h:b.Proper){ds:List ℕ}(small:∀d∈ds,d<b.base)(k:ℕ):
 byte ' '∉grouped b group ds k:=by
 induction ds generalizing k with
 | nil=>simp[grouped]
 | cons d ds ih=>
  have digit:=(h.plain d (small d mem_cons_self)).2
  have rest:=ih (fun e mem=>small e (mem_cons_of_mem d mem)) (k+1)
  have comma:byte ' '≠byte ',':=by decide
  rw[grouped]
  split<;>simp[digit.symm,rest,comma]

lemma digits_small (b:Base)(value:ℕ):∀d∈Nat.digits b.base value,d<b.base:=fun _ mem=>
 digits_lt_base b.two_le mem
def renderedPrecision (c:Conversion):ℕ:=if c.precision<0 then 1 else c.precision.toNat

lemma integerBuf_eq (h:b.Proper)(wide:value<2^64)(c:Conversion):∃z,integerBuf value b c=
   grouped b c.flags.group (digits b.base value) 0++replicate z (byte '0') ∧
  min (renderedPrecision c) 63≤(integerBuf value b c).length ∧
  (integerBuf value b c).length≤64 ∧
  (c.flags.pound=true → b.base=8 → (integerBuf value b c).getLast?=some (byte '0')):=by
 have few:(digits b.base value).length≤22:=by
  rw[digits_length_le_iff (by have:=b.two_le;omega)]
  calc value<8^22:=by omega
    _ ≤ b.base^22:=Nat.pow_le_pow_left h.large 22
 have short:(grouped b c.flags.group (digits b.base value) 0).length≤44:=
  (grouped_length _ 0).trans (by omega)
 unfold integerBuf renderedPrecision
 rw[digitLoop_eq]
 generalize grouped b c.flags.group (digits b.base value) 0=w at short ⊢
 generalize (if c.precision<0 then 1 else c.precision.toNat)=n
 dsimp only
 have length:(w++replicate (min n 63-w.length) (byte '0')).length=max w.length (min n 63):=by
  rw[length_append,length_replicate]
  omega
 split
 · refine ⟨min n 63-w.length+1,?_,?_,?_,fun _ _=>getLast?_concat⟩
   · rw[append_assoc,←replicate_succ']
   · rw[length_append,length]
     omega
   · rw[length_append,length,length_singleton]
     omega
 · rename_i plain
   refine ⟨_,rfl,by omega,by omega,fun pound octal=>?_⟩
   by_contra other
   exact plain ⟨pound,octal,other⟩

def denotes (b:Base)(w:List UInt8):ℕ:=w.foldl (fun v ch=>v*b.base+b.digits.idxOf ch) 0

/-- The characters between the sign or prefix and the padding. -/
def numeral (value:ℕ)(b:Base)(c:Conversion):List UInt8:=(integerBuf value b c).reverse

def integerPrefix (value:ℕ)(b:Base)(c:Conversion):List UInt8:=
 if c.flags.pound ∧ value≠0 ∧ b.x≠0 then [byte '0',b.x] else []

variable {isSigned negative:Bool}{mem:ℕ→UInt8}{turns format:ℕ}{args:Args}

/-- The padding of a field whose text is `front` and `digits`. `left` says that the field is
left-justified. -/
structure PaddedOnce (width:ℤ)(left:Prop)(front digits w:List UInt8):Prop where
 length:w.length=max width.natAbs (front++digits).length
 side:∃k,w=replicate k (byte ' ')++(front++digits) ∨
  w=front++replicate k (byte '0')++digits ∨ w=front++digits++replicate k (byte ' ')
 justified:left → ∃k,w=front++digits++replicate k (byte ' ')

lemma formatInteger_eq (isSigned negative:Bool)(h:Standard b)(wide:value<2^64)
 (low:0≤c.width)(high:c.width<2^31):
 let front:=integerSign isSigned negative c.flags++integerPrefix value b c
 let digits:=numeral value b c
 let pad:=c.width.toNat-(front++digits).length
 formatInteger value isSigned negative b c=
  (if c.flags.minus ∨ c.flags.zero then [] else replicate pad (byte ' ')) ++ front ++
  (if c.flags.zero then replicate pad (byte '0') else [])++digits ++
  (if c.flags.minus then replicate pad (byte ' ') else []):=by
 obtain ⟨z,-,-,short,-⟩:=integerBuf_eq h.proper wide c
 have sign:(integerSign isSigned negative c.flags).length≤1:=by
  unfold integerSign
  split_ifs<;>simp
 have two:(integerPrefix value b c).length≤2:=by
  unfold integerPrefix
  split_ifs<;>simp
 have pad:(wrap (c.width-(integerBuf value b c).length-(integerPrefix value b c).length -
   (integerSign isSigned negative c.flags).length)).toNat=
   c.width.toNat-(integerSign isSigned negative c.flags++integerPrefix value b c ++
    numeral value b c).length:=by
  rw[wrap_of_fits (by omega) (by simp only[intMax];omega)]
  simp only[length_append,numeral,length_reverse]
  omega
 simp only[formatInteger]
 rw[←integerPrefix,pad]
 simp only[append_assoc]
 rfl

lemma not_paddedOnce {width:ℤ}{left:Prop}{front digits:List UInt8}{p:ℕ}(some:0<p)
 (plain:byte ' '∉digits):
 ¬PaddedOnce width left front digits
  (front++replicate p (byte '0')++digits++replicate p (byte ' ')):=by
 intro h
 obtain ⟨k,side⟩:=h.side
 have none:digits.count (byte ' ')=0:=count_eq_zero.2 plain
 have apart:(byte '0' == byte ' ')=false:=by decide
 rcases side with eq|eq|eq <;>
 · have blanks:=congrArg (List.count (byte ' ')) eq
   have lengths:=congrArg List.length eq
   simp[count_replicate,apart] at blanks lengths
   omega

lemma paddedOnce_iff {width:ℤ}{front digits:List UInt8}{minus zero:Bool}{p:ℕ}
 (size:p=width.natAbs-(front++digits).length)(plain:byte ' '∉digits):
 PaddedOnce width (minus=true) front digits
  ((if minus ∨ zero then [] else replicate p (byte ' '))++front ++
   (if zero then replicate p (byte '0') else [])++digits ++
   (if minus then replicate p (byte ' ') else [])) ↔
 ¬(minus=true ∧ zero=true ∧ 0<p):=by
 have total:p+(front++digits).length=max width.natAbs (front++digits).length:=by omega
 rw[length_append] at total
 cases minus<;>cases zero<;>simp only[reduceIte,or_true,Bool.false_eq_true,
  nil_append,append_nil,false_and,true_and,not_false_eq_true,iff_true]
 · exact ⟨by simp;omega,⟨p,.inl (append_assoc ..)⟩,False.elim⟩
 · exact ⟨by simp;omega,⟨p,.inr (.inl rfl)⟩,False.elim⟩
 · exact ⟨by simp;omega,⟨p,.inr (.inr rfl)⟩,fun _=>⟨p,rfl⟩⟩
 · refine ⟨fun once some=>not_paddedOnce some plain once,fun none=>?_⟩
   obtain rfl:p=0:=by omega
   simp only[replicate_zero,append_nil]
   exact ⟨by omega,⟨0,.inl (by simp)⟩,fun _=>⟨0,by simp⟩⟩

/-- A number in the format without a bound. -/
def numberGiven (mem:ℕ→UInt8):ℕ→ℕ→ℕ→Option (ℕ×ℕ)
 | 0,_,_=>none
 | turns+1,format,n=>
  if isdigit (mem format) then
   numberGiven mem turns (format+1) (n*10+((mem format).toNat-(byte '0').toNat))
  else some (n,format)

def widthGiven (mem:ℕ→UInt8)(turns format:ℕ)(args:Args):Option ℤ:=
 if mem format=byte '*' then some args.int.1
 else (numberGiven mem turns format 0).map fun r=>(r.1:ℤ)

lemma parseDigits_wrap {n v f:ℕ}(given:numberGiven mem turns format n=some (v,f)):
 parseDigits mem turns format (wrap n)=some (wrap v,f):=by
 induction turns generalizing format n with
 | zero=>cases given
 | succ turns ih=>
  rw[numberGiven] at given
  rw[parseDigits]
  split at given
  · rename_i digit
    have least:(byte '0').toNat≤(mem format).toNat:=
     UInt8.le_iff_toNat_le.1 (by simpa[isdigit] using (Bool.and_eq_true_iff.1 digit).1)
    have next:wrap (wrap n*10+(mem format).toNat-(byte '0').toNat)=
      wrap ((n*10+((mem format).toNat-(byte '0').toNat):ℕ)):=by
     simp only[wrap_eq_bmod,Int.bmod_def]
     omega
    rw[if_pos digit,next]
    exact ih given
  · rename_i other
    rw[if_neg other]
    cases given
    rfl

lemma parseNumber_width {width W:ℤ}{f:ℕ}{args':Args}
 (parsed:parseNumber mem turns format args=some (width,f,args'))
 (given:widthGiven mem turns format args=some W)(low:-2^31<W)(high:W<2^31):width=W:=by
 unfold parseNumber at parsed
 unfold widthGiven at given
 split at parsed
 · rename_i star
   rw[if_pos star] at given
   cases parsed
   exact Option.some.inj given
 · rename_i other
   rw[if_neg other] at given
   obtain ⟨⟨v,g⟩,number,rfl⟩:=Option.map_eq_some_iff.1 given
   have digits:=parseDigits_wrap number
   rw[show wrap (0:ℕ)=0 from rfl] at digits
   rw[digits,wrap_of_fits (by omega) (by simp only[intMax];omega)] at parsed
   cases parsed
   rfl

def IntegerKind (kind:UInt8):Prop:=
 kind=byte 'd' ∨ kind=byte 'i' ∨ kind=byte 'o' ∨ kind=byte 'u' ∨ kind=byte 'x' ∨ kind=byte 'X'

lemma signedArg_lt (type:Size)(args:Args):(signedArg type args).1.natAbs<2^64:=by
 have bound {w:ℕ} (small:w≤64) (n:ℕ):(signed w n).natAbs<2^64:=by
  have low:=BitVec.le_two_mul_toInt (x:=BitVec.ofNat w n)
  have high:=BitVec.two_mul_toInt_lt (x:=BitVec.ofNat w n)
  have most:(2:ℤ)^w≤2^64:=by exact_mod_cast Nat.pow_le_pow_right (show 0<2 by decide) small
  unfold signed
  omega
 cases type<;>exact bound (by decide) _

lemma unsignedArg_lt (type:Size)(args:Args):(unsignedArg type args).1<2^64:=by
 have word (args:Args):args.word.1<2^32:=UInt32.toNat_lt _
 have low:=word args
 have high:=word args.word.2
 cases type<;>simp only[unsignedArg,Args.long]<;>omega

lemma convert_integer {kind:UInt8}(h:IntegerKind kind)(c:Conversion)(args:Args):
 ∃value isSigned negative b,value<2^64 ∧ Standard b ∧
  (convert mem kind c args).1=formatInteger value isSigned negative b c:=by
 have signed_lt:=signedArg_lt c.type args
 have unsigned_lt:=unsignedArg_lt c.type args
 rcases h with rfl|rfl|rfl|rfl|rfl|rfl
 · exact ⟨_,_,_,_,signed_lt,.inl rfl,rfl⟩
 · exact ⟨_,_,_,_,signed_lt,.inl rfl,rfl⟩
 · exact ⟨_,_,_,_,unsigned_lt,.inr (.inl rfl),rfl⟩
 · exact ⟨_,_,_,_,unsigned_lt,.inl rfl,rfl⟩
 · exact ⟨_,_,_,_,unsigned_lt,.inr (.inr (.inl rfl)),rfl⟩
 · exact ⟨_,_,_,_,unsigned_lt,.inr (.inr (.inr rfl)),rfl⟩

lemma parseConversion_eq {flags:Flags}{W precision:ℤ}{f₁ f₂ f₃:ℕ}{args₁ args₂:Args}
 (flagged:parseFlags mem turns format noFlags=some (flags,f₁))
 (read:parseNumber mem turns f₁ args=some (W,f₂,args₁))(low:-2^31<W)(high:W<2^31)
 (precise:parsePrecision mem turns f₂ args₁=some (precision,f₃,args₂)):
 parseConversion mem turns format args=some (⟨⟨flags.minus || decide (W<0),flags.plus,
   flags.space && !flags.plus,flags.pound,flags.zero && !flags.minus && decide (precision<0),
   flags.group⟩,W.natAbs,precision,(parseSize mem f₃).1⟩,(parseSize mem f₃).2,args₂):=by
 have size:W.natAbs=if W<0 then wrap (-W) else W:=by
  split
  · rw[wrap_of_fits (by omega) (by simp only[intMax];omega)]
    omega
  · omega
 simp only[parseConversion,flagged,read,precise,Option.bind_eq_bind,Option.bind_some,
  size]
 rcases Int.lt_or_le precision 0 with late|late
 · by_cases neg:W<0<;>simp[neg,late]
 · by_cases neg:W<0<;>simp[neg,late]

/-- A field is padded once, unless a negative width argument comes after a flag `0`. -/
theorem padded_once_iff {flags:Flags}{width W precision:ℤ}{f₁ f₂ f₃:ℕ}{args₁ args₂:Args}
 (flagged:parseFlags mem turns format noFlags=some (flags,f₁))
 (read:parseNumber mem turns f₁ args=some (width,f₂,args₁))
 (given:widthGiven mem turns f₁ args=some W)(low:-2^31<W)(high:W<2^31)
 (precise:parsePrecision mem turns f₂ args₁=some (precision,f₃,args₂)):
 ∃c f,parseConversion mem turns format args=some (c,f,args₂) ∧
  (IntegerKind (mem f) → ∃value isSigned negative b,value<2^64 ∧ Standard b ∧
   (convert mem (mem f) c args₂).1=formatInteger value isSigned negative b c) ∧
  ∀value isSigned negative b,value<2^64 → Standard b → (PaddedOnce W (flags.minus=true ∨ W<0)
     (integerSign isSigned negative c.flags++integerPrefix value b c) (numeral value b c)
     (formatInteger value isSigned negative b c) ↔
    ¬(flags.zero=true ∧ flags.minus=false ∧ W<0 ∧ precision<0 ∧
     (integerSign isSigned negative c.flags++integerPrefix value b c ++
      numeral value b c).length<W.natAbs)):=by
 obtain rfl:=parseNumber_width read given low high
 refine ⟨_,_,parseConversion_eq flagged read low high precise,
  fun kind=>convert_integer kind _ _,fun value isSigned negative b wide standard=>?_⟩
 generalize hc:Conversion.mk _ _ _ _=c
 have hw:c.width=width.natAbs:=by rw[←hc]
 have minus:c.flags.minus=(flags.minus || decide (width<0)):=by rw[←hc]
 have zero:c.flags.zero=(flags.zero && !flags.minus && decide (precision<0)):=by rw[←hc]
 have eq:=formatInteger_eq (c:=c) isSigned negative standard wide (by omega) (by omega)
 obtain ⟨z,buf,-⟩:=integerBuf_eq standard.proper wide c
 have plain:byte ' '∉numeral value b c:=by
  rw[numeral,mem_reverse,buf,mem_append,not_or]
  exact ⟨grouped_plain standard.proper (digits_small b value) 0,fun mem=>
   absurd (eq_of_mem_replicate mem) (by decide)⟩
 dsimp only at eq
 rw[eq,hw,Int.toNat_natCast]
 generalize integerSign isSigned negative c.flags++integerPrefix value b c=front
 generalize numeral value b c=digits at plain ⊢
 have left:(flags.minus=true ∨ width<0)=(c.flags.minus=true):=by simp[minus]
 rw[left,paddedOnce_iff rfl plain,zero,minus]
 cases flags.minus with
 | false=>
  simp
  tauto
 | true=>simp

theorem padded_once_iff_five:
 ∃c f,parseConversion (literal "%5d") 4 1 ⟨fun _=>42,0⟩=some (c,f,⟨fun _=>42,0⟩) ∧
  (IntegerKind (literal "%5d" f) → ∃value isSigned negative b,value<2^64 ∧ Standard b ∧
   (convert (literal "%5d") (literal "%5d" f) c ⟨fun _=>42,0⟩).1=
    formatInteger value isSigned negative b c) ∧
  ∀value isSigned negative b,value<2^64 → Standard b → PaddedOnce 5 (noFlags.minus=true ∨ (5:ℤ)<0)
   (integerSign isSigned negative c.flags++integerPrefix value b c) (numeral value b c)
   (formatInteger value isSigned negative b c):=by
 obtain ⟨c,f,parsed,kind,once⟩:=padded_once_iff
  (show parseFlags (literal "%5d") 4 1 noFlags=some (noFlags,1) from rfl)
  (show parseNumber (literal "%5d") 4 1 ⟨fun _=>42,0⟩=some (5,2,⟨fun _=>42,0⟩) from rfl)
  (show widthGiven (literal "%5d") 4 1 ⟨fun _=>42,0⟩=some 5 from rfl) (by decide) (by decide)
  (show parsePrecision (literal "%5d") 4 2 ⟨fun _=>42,0⟩=some (-1,2,⟨fun _=>42,0⟩) from rfl)
 exact ⟨c,f,parsed,kind,fun value isSigned negative b wide standard=>
  (once value isSigned negative b wide standard).2 fun left=>absurd left.1 (by decide)⟩

/-- The width -5 and the value 42. -/
def leftArgs:Args:=⟨fun i=>if i=0 then 4294967291 else 42,0⟩

theorem left_zero_filled:vprintfChars (literal "%0*d") 5 0 leftArgs=some (text "00042   ") ∧
 ¬PaddedOnce (-5) True [] (text "42") (text "00042   "):=by
 have buf:integerBuf 42 baseD ⟨{noFlags with zero:=true,minus:=true},5,-1,.int⟩=
   [byte '2',byte '4']:=by
  simp[integerBuf,digitLoop,baseD,noFlags,text]
 have emits:vprintfChars (literal "%0*d") 5 0 leftArgs=some (formatInteger 42 true false baseD
   ⟨{noFlags with zero:=true,minus:=true},5,-1,.int⟩++[]):=rfl
 refine ⟨?_,not_paddedOnce (p:=3) (by decide) (by decide)⟩
 rw[emits]
 simp only[formatInteger,buf]
 rfl

end Pintos.Printf
