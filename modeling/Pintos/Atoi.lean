import Pintos.PrintfFormats
import Pintos.PrintfIntegers

/-! `atoi` of `lib/stdlib.c`, and what it makes of the text of a `%d`. -/
namespace Pintos.Stdlib
open Printf List Option Nat

section
variable (mem:ℕ→UInt8)

def isspace (c:UInt8):Bool:=c=byte ' ' || c=12 || c=byte '\n' || c=byte '\r' || c=byte '\t' || c=11

/-- A value of type `int`. There is none if the arithmetic overflows. -/
def int (z:ℤ):Option ℤ:=if -2147483648≤z ∧ z≤2147483647 then some z else none

def skipSpace:ℕ→ℕ→Option ℕ
 | 0,_=>none
 | turns+1,s=>if isspace (mem s) then skipSpace turns (s+1) else some s
def parseSign (s:ℕ):Bool×ℕ:=
 if mem s=byte '+' then (false,s+1)
 else if mem s=byte '-' then (true,s+1)
 else (false,s)

/-- The loop over the digits, which counts downwards from 0. -/
def parseValue:ℕ→ℕ→ℤ→Option ℤ
 | 0,_,_=>none
 | turns+1,s,value=>
  if isdigit (mem s) then do
   let value←int (value*10)
   let value←int (value-((mem s).toNat-(byte '0').toNat))
   parseValue turns (s+1) value
  else some value

def atoi (turns s:ℕ):Option ℤ:=do
 let s←skipSpace mem turns s
 let (negative,s):=parseSign mem s
 let value←parseValue mem turns s 0
 if negative then some value else int (-value)

end

variable {mem:ℕ→UInt8}{turns z p k t:ℕ}{s:List UInt8}{ds:List ℕ}{c:Conversion}

lemma int_eq {n:ℤ}(low:-2147483648≤n)(high:n≤2147483647):int n=some n:=if_pos ⟨low,high⟩

lemma skipSpace_ends (turns:ℕ)(h:Ends mem z p s)(enough:s.length<turns):
 ∃q,skipSpace mem turns p=some q ∧ Ends mem z q (s.dropWhile isspace):=by
 induction turns generalizing p s with
 | zero=>omega
 | succ turns ih=>
  rw[skipSpace]
  cases s with
  | nil=>
   rw[if_neg (by rw[h.2];decide)]
   exact ⟨p,rfl,h⟩
  | cons c s=>
   rw[h.2.1]
   by_cases space:isspace c=true
   · rw[if_pos space,dropWhile_cons_of_pos space]
     exact ih h.2.2 (lt_of_succ_lt_succ enough)
   · rw[if_neg space,dropWhile_cons_of_neg space]
     exact ⟨p,rfl,h⟩

def horner (v:ℕ)(ds:List ℕ):ℕ:=ds.foldl (fun v d=>v*10+d) v

lemma horner_ge (v:ℕ)(ds:List ℕ):v≤horner v ds:=by
 induction ds generalizing v with
 | nil=>exact le_refl v
 | cons d ds ih=>
  have rest:v*10+d≤horner v (d::ds):=ih (v*10+d)
  omega

lemma parseValue_digits (h:Ends mem z p (ds.map baseD.digit++replicate t (byte ' ')))
 (small:∀d∈ds,d<10)(enough:ds.length<turns){v:ℕ}(fits:horner v ds≤2147483648):
 parseValue mem turns p (-v)=some (-(horner v ds:ℤ)):=by
 induction ds generalizing p v turns with
 | nil=>
  obtain ⟨turns,rfl⟩:=exists_eq_succ_of_ne_zero (ne_of_gt enough)
  have other:isdigit (mem p)=false:=by
   cases t with
   | zero=>
    rw[h.2]
    decide
   | succ t=>
    rw[h.2.1]
    decide
  rw[parseValue,other]
  rfl
 | cons d ds ih=>
  obtain ⟨turns,rfl⟩:=exists_eq_succ_of_ne_zero (ne_of_gt (zero_lt_of_lt enough))
  have digit:∀e<10,isdigit (baseD.digit e)=true ∧ (baseD.digit e).toNat=48+e:=by decide
  obtain ⟨is,value⟩:=digit d (small d mem_cons_self)
  have most:v*10+d≤2147483648:=(horner_ge (v*10+d) ds).trans fits
  have rest:=ih h.2.2 (fun e mem=>small e (mem_cons_of_mem d mem))
   (lt_of_succ_lt_succ enough) fits
  have next:-(v:ℤ)*10-((48+d:ℕ)-(byte '0').toNat)=-((v*10+d:ℕ):ℤ):=by
   rw[show (byte '0').toNat=48 from rfl]
   omega
  rw[parseValue,h.2.1,if_pos is,value,int_eq (by omega) (by omega)]
  simp only[bind_eq_bind,bind_some]
  rw[next,int_eq (by omega) (by omega),bind_some]
  exact rest

def SignOf (negative:Bool)(sign:List UInt8):Prop:=
 sign=(if negative then [byte '-'] else []) ∨ negative=false ∧ sign=[byte '+']
lemma digit_plain:∀d<10,isspace (baseD.digit d)=false ∧ baseD.digit d≠byte '+' ∧
 baseD.digit d≠byte '-' ∧ baseD.digit d≠0:=by
 decide

lemma dropWhile_text {negative:Bool}{sign:List UInt8}(signs:SignOf negative sign)
 (small:∀d∈ds,d<10)(k t:ℕ):
 ∃t',(replicate k (byte ' ')++(sign++(ds.map baseD.digit ++
   replicate t (byte ' ')))).dropWhile isspace=
  sign++(ds.map baseD.digit++replicate t' (byte ' ')):=by
 have blanks (k:ℕ):∀c∈replicate k (byte ' '),isspace c=true:=fun c mem=>by
  rw[eq_of_mem_replicate mem]
  decide
 rw[dropWhile_append_of_pos (blanks k)]
 rcases signs with rfl|⟨-,rfl⟩
 · cases negative with
   | true=>exact ⟨t,dropWhile_cons_of_neg (by decide)⟩
   | false=>
    cases ds with
    | nil=>exact ⟨0,by simpa using blanks t⟩
    | cons d ds=>
     have digit:=(digit_plain d (small d mem_cons_self)).1
     exact ⟨t,dropWhile_cons_of_neg (by rw[digit];decide)⟩
 · exact ⟨t,dropWhile_cons_of_neg (by decide)⟩

lemma parseSign_text {negative:Bool}{sign:List UInt8}(signs:SignOf negative sign)(small:∀d∈ds,d<10)
 (h:Ends mem z p (sign++(ds.map baseD.digit++replicate t (byte ' ')))):
 ∃q,parseSign mem p=(negative,q) ∧ Ends mem z q (ds.map baseD.digit++replicate t (byte ' ')):=by
 unfold parseSign
 rcases signs with rfl|⟨rfl,rfl⟩
 · cases negative with
   | true=>
    rw[h.2.1]
    exact ⟨p+1,rfl,h.2.2⟩
   | false=>
    have head:∀c,(ds.map baseD.digit++replicate t (byte ' ')).head?=some c →
      c≠byte '+' ∧ c≠byte '-':=by
     intro c eq
     cases ds with
     | nil=>
      have mem:=mem_of_head? eq
      rw[eq_of_mem_replicate mem]
      decide
     | cons d ds=>
      cases eq
      have digit:=(digit_plain d (small d mem_cons_self)).2
      exact ⟨digit.1,digit.2.1⟩
    rw[if_neg fun eq=>(head _ ((h.head_iff (by decide)).1 eq)).1 rfl,
     if_neg fun eq=>(head _ ((h.head_iff (by decide)).1 eq)).2 rfl]
    exact ⟨p,rfl,h⟩
 · rw[h.2.1]
   exact ⟨p+1,rfl,h.2.2⟩

lemma atoi_text {negative:Bool}{sign:List UInt8}(signs:SignOf negative sign)
 (small:∀d∈ds,d<10)(h:Ends mem z p (replicate k (byte ' ')++(sign++(ds.map baseD.digit ++
  replicate t (byte ' ')))))(enough:z<turns)
 (fits:horner 0 ds ≤ if negative then 2147483648 else 2147483647):
 atoi mem turns p=some (if negative then -(horner 0 ds:ℤ) else horner 0 ds):=by
 have length:=h.length
 obtain ⟨q,skipped,h₁⟩:=skipSpace_ends turns h (by omega)
 obtain ⟨t',eq⟩:=dropWhile_text signs small k t
 rw[eq] at h₁
 obtain ⟨r,signed,h₂⟩:=parseSign_text signs small h₁
 have rest:=h₂.length
 rw[length_append,length_map] at rest
 have value:=parseValue_digits h₂ small (show ds.length<turns by omega) (v:=0)
  (by split at fits<;>omega)
 simp only[Int.natCast_zero,Int.neg_zero] at value
 simp only[atoi,skipped,signed,value,bind_eq_bind,bind_some]
 cases negative with
 | true=>rfl
 | false=>
  rw[if_neg Bool.false_ne_true] at fits
  rw[Int.neg_neg]
  exact int_eq (by omega) (by omega)

lemma grouped_false (b:Base)(ds:List ℕ)(k:ℕ):grouped b false ds k=ds.map b.digit:=by
 induction ds generalizing k with
 | nil=>rfl
 | cons d ds ih=>
  rw[grouped,ih]
  rfl

lemma horner_digits (n q:ℕ):horner 0 (Nat.digits 10 n++replicate q 0).reverse=n:=by
 have fold (ds:List ℕ):horner 0 ds.reverse=ofDigits 10 ds:=by
  rw[horner,foldl_reverse,ofDigits_eq_foldr]
  simp[mul_comm,add_comm]
 rw[fold,ofDigits_append_replicate_zero,ofDigits_digits]

lemma integerSign_eq (negative:Bool)(flags:Flags):
 ∃j sign,integerSign true negative flags=replicate j (byte ' ')++sign ∧ SignOf negative sign:=by
 unfold integerSign
 cases negative with
 | true=>exact ⟨0,[byte '-'],by simp,.inl rfl⟩
 | false=>
  by_cases plus:flags.plus=true
  · exact ⟨0,[byte '+'],by simp[plus],.inr ⟨rfl,rfl⟩⟩
  · by_cases space:flags.space=true
    · exact ⟨1,[],by simp[plus,space],.inl rfl⟩
    · exact ⟨0,[],by simp[plus,space],.inl rfl⟩

/-- The text of a decimal conversion without separators. -/
lemma formatInteger_decimal {value:ℕ}(wide:value<2^64)(negative:Bool)(plain:c.flags.group=false):
 ∃k q t sign,formatInteger value true negative baseD c=replicate k (byte ' ')++(sign ++
  (((Nat.digits 10 value++replicate q 0).reverse.map baseD.digit)++replicate t (byte ' '))) ∧
  SignOf negative sign:=by
 obtain ⟨y,buf,-⟩:=integerBuf_eq (b:=baseD) (Standard.proper (.inl rfl)) wide c
 rw[plain,grouped_false] at buf
 have digits (p:ℕ):replicate p (byte '0')++(integerBuf value baseD c).reverse=
   (Nat.digits 10 value++replicate (y+p) 0).reverse.map baseD.digit:=by
  rw[buf,map_reverse,map_append,map_replicate,
   show baseD.digit 0=byte '0' from rfl,reverse_append,reverse_append,
   reverse_replicate,reverse_replicate,←append_assoc,
   replicate_append_replicate,add_comm p]
  rfl
 have shape (sign:List UInt8) (n:ℕ):
   (if c.flags.minus ∨ c.flags.zero then [] else replicate n (byte ' '))++sign++[] ++
    (if c.flags.zero then replicate n (byte '0') else []) ++
    (integerBuf value baseD c).reverse ++
    (if c.flags.minus then replicate n (byte ' ') else [])=
   replicate (if c.flags.minus ∨ c.flags.zero then 0 else n) (byte ' ')++(sign ++
    ((Nat.digits 10 value++replicate (y+if c.flags.zero then n else 0) 0).reverse.map
      baseD.digit++replicate (if c.flags.minus then n else 0) (byte ' '))):=by
  rw[←digits]
  split_ifs<;>simp
 have bare:(if c.flags.pound ∧ value≠0 ∧ baseD.x≠0 then [byte '0',baseD.x] else [])=[]:=
  if_neg fun h=>h.2.2 rfl
 obtain ⟨j,sign,eq,signs⟩:=integerSign_eq negative c.flags
 simp only[formatInteger,bare,shape]
 rw[eq,append_assoc,←append_assoc (replicate _ _),replicate_append_replicate]
 exact ⟨_,_,_,sign,rfl,signs⟩

lemma ends_of_stored {w:List UInt8}(plain:0∉w)(stored:∀i<w.length,mem (p+i)=w.getD i 0)
 (zero:mem (p+w.length)=0):Ends mem (p+w.length) p w:=by
 induction w generalizing p with
 | nil=>exact ⟨rfl,zero⟩
 | cons c w ih=>
  rw[mem_cons,not_or] at plain
  have first:mem p=c:=stored 0 (zero_lt_succ _)
  rw[length_cons,←add_assoc,add_right_comm] at zero ⊢
  refine ⟨Ne.symm plain.1,first,ih plain.2 (fun i hi=>?_) zero⟩
  have:=stored (i+1) (succ_lt_succ hi)
  rwa[add_comm i,←add_assoc,add_comm 1 i,getD_cons_succ] at this

lemma text_nonzero {negative:Bool}{sign:List UInt8}(signs:SignOf negative sign)(small:∀d∈ds,d<10):
 0∉replicate k (byte ' ')++(sign++(ds.map baseD.digit++replicate t (byte ' '))):=by
 have blank {n:ℕ}:0∉replicate n (byte ' '):=fun mem=>
  absurd (eq_of_mem_replicate mem) (by decide)
 have sign_nonzero:0∉sign:=by
  rcases signs with rfl|⟨-,rfl⟩
  · cases negative<;>decide
  · decide
 have digit:0∉ds.map baseD.digit:=by
  intro mem
  obtain ⟨d,hd,eq⟩:=List.mem_map.1 mem
  exact (digit_plain d (small d hd)).2.2.2 eq
 simp only[mem_append,not_or]
 exact ⟨blank,sign_nonzero,digit,blank⟩

lemma vsnprintf_ends {format bufSize:ℕ}{args:Args}{w:List UInt8}
 (emits:vprintfChars mem turns format args=some w)(plain:0∉w)(room:w.length<bufSize)
 (small:bufSize ≤ intMax)(buffer:ℕ→UInt8):
 ∃buffer',vsnprintf mem turns buffer bufSize format args=some (buffer',(w.length:ℤ)) ∧
  Ends buffer' (0+w.length) 0 w:=by
 refine ⟨_,vsnprintf_stores emits (by omega) buffer (by omega) small,?_⟩
 have most:min w.length (bufSize-1)=w.length:=by omega
 rw[most]
 refine ends_of_stored plain (fun i hi=>?_) ?_
 · rw[zero_add,if_pos hi]
 · rw[zero_add,if_neg (lt_irrefl _),if_pos rfl]

/-- `atoi` gives back the argument of a `%d` from the string that `vsnprintf` leaves in a buffer
with room for it. -/
theorem atoi_inverts {format next bufSize:ℕ}{args args':Args}(start:mem format=byte '%')
 (single:mem (format+1)≠byte '%')
 (parsed:parseConversion mem turns (format+1) args=some (c,next,args'))(kind:mem next=byte 'd')
 (type:c.type=.int)(plain:c.flags.group=false)(ends:mem (next+1)=0)
 (room:(convert mem (mem next) c args').1.length<bufSize)(small:bufSize ≤ intMax)
 (buffer:ℕ→UInt8):
 ∃buffer' length turns',vsnprintf mem (turns+1) buffer bufSize format args=some (buffer',length) ∧
  atoi buffer' turns' 0=some args'.int.1:=by
 have value:signedArg c.type args'=args'.int:=by
  rw[type]
  rfl
 have chars:(convert mem (mem next) c args').1=formatInteger args'.int.1.natAbs true
   (decide (args'.int.1<0)) baseD c:=by
  rw[kind,convert,if_pos (.inl rfl),value]
 have emits:vprintfChars mem (turns+1) format args=some (convert mem (mem next) c args').1:=by
  cases turns with
  | zero=>cases parsed
  | succ turns=>
   have done:vprintfChars mem (turns+1) (next+1) (convert mem (mem next) c args').2=some []:=by
    rw[vprintfChars,if_pos ends]
   have some:mem format≠0:=by
    rw[start]
    decide
   rw[vprintfChars,if_neg some,if_neg (not_not.2 start),if_neg single,parsed]
   simp only[bind_eq_bind,bind_some,done,Option.pure_def,append_nil]
 have low:=BitVec.le_two_mul_toInt (x:=BitVec.ofNat 32 args'.word.1)
 have high:=BitVec.two_mul_toInt_lt (x:=BitVec.ofNat 32 args'.word.1)
 change -(2^32:ℤ)≤2*args'.int.1 at low
 change 2*args'.int.1<(2^32:ℤ) at high
 rw[chars] at emits room
 generalize args'.int.1=n at emits room low high ⊢
 obtain ⟨k,q,t,sign,text,signs⟩:=formatInteger_decimal (c:=c) (show n.natAbs<2^64 by omega)
  (decide (n<0)) plain
 rw[text] at emits room
 have digits:∀d∈(Nat.digits 10 n.natAbs++replicate q 0).reverse,d<10:=by
  intro d mem
  rcases mem_append.1 (mem_reverse.1 mem) with digit|zero
  · exact digits_lt_base (by decide) digit
  · rw[eq_of_mem_replicate zero]
    decide
 obtain ⟨buffer',stored,ends⟩:=vsnprintf_ends emits (text_nonzero signs digits) room small buffer
 have fits:n.natAbs ≤ if decide (n<0) then 2147483648 else 2147483647:=by
  by_cases negative:n<0 <;>
   simp only[negative,decide_true,decide_false,reduceIte,Bool.false_eq_true]<;>omega
 rw[←horner_digits n.natAbs q] at fits
 have back:=atoi_text signs digits ends (lt_succ_self _) fits
 rw[horner_digits] at back
 refine ⟨buffer',_,_,stored,back.trans ?_⟩
 by_cases negative:n<0 <;>
  simp only[negative,decide_true,decide_false,reduceIte,Bool.false_eq_true,Option.some.injEq] <;>
  omega

theorem atoi_inverts_five:
 ∃buffer' length turns',vsnprintf (literal "%-4d") 6 (fun _=>0) 16 0 ⟨fun _=>5,0⟩=
   some (buffer',length) ∧ atoi buffer' turns' 0=some 5:=by
 have buf:integerBuf 5 baseD ⟨{noFlags with minus:=true},4,-1,.int⟩=[byte '5']:=by
  simp[integerBuf,digitLoop,baseD,noFlags,text]
 have text:(convert (literal "%-4d") (byte 'd') ⟨{noFlags with minus:=true},4,-1,.int⟩
   ⟨fun _=>5,0⟩).1=formatInteger 5 true false baseD ⟨{noFlags with minus:=true},4,-1,.int⟩:=rfl
 have start:literal "%-4d" 0=byte '%':=rfl
 have parsed:parseConversion (literal "%-4d") 5 1 ⟨fun _=>5,0⟩=
   some (⟨{noFlags with minus:=true},4,-1,.int⟩,3,⟨fun _=>5,0⟩):=rfl
 refine atoi_inverts start (by decide) parsed rfl rfl rfl rfl ?_ (show 16 ≤ intMax by decide) _
 rw[show literal "%-4d" 3=byte 'd' from rfl,text]
 simp only[formatInteger,buf]
 decide

end Pintos.Stdlib
