import Mathlib.Data.List.Induction
import Pintos.Printf

/-!
# The front ends of formatted output

`vsnprintf`, the user `vhprintf` and the kernel `vprintf`: three `output` functions that receive
the characters of `__vprintf` one by one. A store or a call that the code does not guard against
has no result here.
-/
namespace Pintos.Printf
open Function List Option

def intMax:ℕ:=2147483647

/-- `__vprintf`, for an `output` that leaves the format and the arguments alone. -/
def vprintfTo {σ:Type}(output:σ→UInt8→Option σ)(mem:ℕ→UInt8)(turns format:ℕ)
 (args:Args)(aux:σ):Option σ:=do
 let w←vprintfChars mem turns format args
 w.foldlM output aux

/-- `struct vsnprintf_aux`, and the bytes from `buffer` on. -/
structure SnprintfAux where
 buffer:ℕ→UInt8
 p:ℕ
 length:ℤ
 maxLength:ℤ

def vsnprintfHelper (aux:SnprintfAux)(ch:UInt8):SnprintfAux:=
 if aux.length<aux.maxLength then
  {aux with
    buffer:=update aux.buffer aux.p ch
    p:=aux.p+1
    length:=wrap (aux.length+1)}
 else {aux with length:=wrap (aux.length+1)}

/-- What is behind `buffer` afterwards, and the return value. -/
def vsnprintf (mem:ℕ→UInt8)(turns:ℕ)(buffer:ℕ→UInt8)(bufSize format:ℕ)
 (args:Args):Option ((ℕ→UInt8)×ℤ):=do
 let maxLength:=wrap (if 0<bufSize then bufSize-1 else 0)
 let aux←vprintfTo (fun aux ch=>some (vsnprintfHelper aux ch)) mem turns format args
  ⟨buffer,0,0,maxLength⟩
 let buffer:=if 0<bufSize then update aux.buffer aux.p 0 else aux.buffer
 return (buffer,aux.length)

/-- `struct vhprintf_aux`, and the calls of `write` so far. -/
structure VhprintfAux where
 buf:ℕ→UInt8
 p:ℕ
 charCnt:ℤ
 handle:ℤ
 writes:List (ℤ×List UInt8)

def flush (aux:VhprintfAux):VhprintfAux:=
 if 0<aux.p then
  {aux with p:=0,writes:=aux.writes++[(aux.handle,(List.range aux.p).map aux.buf)]}
 else {aux with p:=0}

def addChar (aux:VhprintfAux)(c:UInt8):Option VhprintfAux:=
 -- there is no room behind `buf[63]`
 if 64≤aux.p then none
 else
  let aux:={aux with buf:=update aux.buf aux.p c,p:=aux.p+1}
  let aux:=if 64≤aux.p then flush aux else aux
  some {aux with charCnt:=wrap (aux.charCnt+1)}

/-- The calls of `write`, and the return value. The buffer starts with any content. -/
def vhprintf (mem:ℕ→UInt8)(turns:ℕ)(buf:ℕ→UInt8)(handle:ℤ)(format:ℕ)
 (args:Args):Option (List (ℤ×List UInt8)×ℤ):=do
 let aux←vprintfTo addChar mem turns format args ⟨buf,0,0,handle,[]⟩
 let aux:=flush aux
 return (aux.writes,aux.charCnt)

/-- The console as one thread sees it: `held` says that the thread has the lock, and
`out` lists the characters that were passed to `putchar_have_lock`. -/
structure Console where
 intrContext:Bool
 useConsoleLock:Bool
 held:Bool
 depth:ℕ
 out:List UInt8

def acquireConsole (s:Console):Console:=
 if !s.intrContext && s.useConsoleLock then
  if s.held then {s with depth:=s.depth+1} else {s with held:=true}
 else s

def releaseConsole (s:Console):Option Console:=
 if !s.intrContext && s.useConsoleLock then
  if 0<s.depth then some {s with depth:=s.depth-1}
  else if s.held then some {s with held:=false}
  else none
 else some s

def consoleLockedByCurrentThread (s:Console):Bool:=s.intrContext || !s.useConsoleLock || s.held
def putcharHaveLock (s:Console)(c:UInt8):Option Console:=
 if consoleLockedByCurrentThread s then some {s with out:=s.out++[c]} else none
def vprintfHelper (s:Console×ℤ)(c:UInt8):Option (Console×ℤ):=do
 let console←putcharHaveLock s.1 c
 return (console,wrap (s.2+1))

def vprintf (mem:ℕ→UInt8)(turns format:ℕ)(args:Args)(s:Console):
 Option (Console×ℤ):=do
 let (console,charCnt)←vprintfTo vprintfHelper mem turns format args (acquireConsole s,0)
 let console←releaseConsole console
 return (console,charCnt)

lemma wrap_eq_bmod (z:ℤ):wrap z=z.bmod 4294967296:=by
 simp[wrap]
lemma wrap_of_fits {z:ℤ}(low:-2147483648≤z)(high:z ≤ intMax):wrap z=z:=by
 rw[wrap_eq_bmod]
 simp only[intMax] at high
 apply Int.bmod_eq_of_le<;>omega

lemma wrap_le (z:ℤ):wrap z ≤ intMax:=by
 rw[wrap_eq_bmod]
 have bound:=Int.bmod_lt (x:=z) (m:=4294967296) (by decide)
 simp only[intMax]
 omega

lemma wrap_wrap_add (z k:ℤ):wrap (wrap z+k)=wrap (z+k):=by
 simp[wrap_eq_bmod]

lemma wrap_length_snoc (w:List UInt8)(c:UInt8):wrap (wrap w.length+1)=wrap (w++[c]).length:=by
 rw[wrap_wrap_add]
 simp
variable {mem:ℕ→UInt8}{turns format:ℕ}{args:Args}{w:List UInt8}

lemma snprintf_chars {aux:SnprintfAux}(start:aux.p=0)(zero:aux.length=0)
 {max:ℕ}(bound:aux.maxLength=max)(w:List UInt8)(fits:w.length ≤ intMax):
 w.foldl vsnprintfHelper aux=
  {buffer:=fun i=>if i < min w.length max then w.getD i 0 else aux.buffer i
   p:=min w.length max
   length:=w.length
   maxLength:=max}:=by
 induction w using reverseRecOn with
 | nil=>
  obtain ⟨buffer,p,length,maxLength⟩:=aux
  simp_all
 | append_singleton w c ih=>
  simp only[length_append,length_cons] at fits
  have count:wrap ((w.length:ℤ)+1)=w.length+1:=wrap_of_fits (by omega) (by omega)
  rw[foldl_append,ih (by omega)]
  simp only[foldl_cons,foldl_nil,vsnprintfHelper]
  by_cases room:w.length < max
  · rw[if_pos (by exact_mod_cast room)]
    have here:min w.length max=w.length:=by omega
    have next:min (w.length+1) max=w.length+1:=by omega
    simp only[length_append,length_cons,length_nil,here,next,
     SnprintfAux.mk.injEq,true_and,and_true]
    refine ⟨?_,by omega⟩
    funext i
    rcases Nat.lt_trichotomy i w.length with below|rfl|above
    · simp[below,Nat.ne_of_lt below,Nat.lt_succ_of_lt below]
    · simp
    · simp[Nat.ne_of_gt above,show ¬i<w.length by omega,show ¬i<w.length+1 by omega]
  · rw[if_neg (by exact_mod_cast room)]
    have here:min w.length max=max:=by omega
    have next:min (w.length+1) max=max:=by omega
    simp only[length_append,length_cons,length_nil,here,next,
     SnprintfAux.mk.injEq,true_and,and_true]
    refine ⟨?_,by omega⟩
    funext i
    by_cases below:i < max
    · simp[getElem?_append_left (show i<w.length by omega)]
    · simp[below]

lemma foldlM_some {σ:Type}(f:σ→UInt8→σ)(w:List UInt8)(s:σ):
 w.foldlM (fun s c=>some (f s c)) s=some (w.foldl f s):=by
 induction w generalizing s with
 | nil=>rfl
 | cons c w ih=>exact ih (f s c)

lemma vsnprintf_stores (emits:vprintfChars mem turns format args=some w)
 (fits:w.length ≤ intMax)(buffer:ℕ→UInt8){bufSize:ℕ}(positive:1≤bufSize)
 (small:bufSize ≤ intMax):
 vsnprintf mem turns buffer bufSize format args=
  some (fun i=>if i < min w.length (bufSize-1) then w.getD i 0
   else if i=min w.length (bufSize-1) then 0 else buffer i,(w.length:ℤ)):=by
 have limit:wrap (if 0<bufSize then (bufSize:ℤ)-1 else 0)=(bufSize-1:ℕ):=by
  rw[if_pos (by omega),wrap_of_fits (by omega) (by omega)]
  omega
 simp only[vsnprintf,vprintfTo,emits,limit,Option.pure_def,bind_eq_bind,bind_some,foldlM_some]
 rw[snprintf_chars rfl rfl rfl w fits]
 simp only[if_pos (show 0<bufSize by omega),Option.some.injEq,Prod.mk.injEq,and_true]
 funext i
 by_cases last:i=min w.length (bufSize-1)
 · simp[last]
 · simp[last]

structure Buffered (handle:ℤ)(w:List UInt8)(aux:VhprintfAux):Prop where
 room:aux.p<64
 cnt:aux.charCnt=wrap w.length
 dest:aux.handle=handle
 chunks:∃full:List (List UInt8),aux.writes=full.map (Prod.mk handle) ∧
  (∀chunk∈full,chunk.length=64) ∧
  full.flatten++(List.range aux.p).map aux.buf=w

lemma Buffered.addChar {handle:ℤ}{aux:VhprintfAux}(h:Buffered handle w aux)(c:UInt8):
 ∃aux',addChar aux c=some aux' ∧ Buffered handle (w++[c]) aux':=by
 obtain ⟨full,writes,sizes,joined⟩:=h.chunks
 have stored:(List.range (aux.p+1)).map (update aux.buf aux.p c)=
   (List.range aux.p).map aux.buf++[c]:=by
  rw[range_succ,map_append]
  congr 1
  · apply map_congr_left
    intro i inside
    rw[update_of_ne (Nat.ne_of_lt (mem_range.1 inside))]
  · simp
 have room:=h.room
 unfold Printf.addChar
 rw[if_neg (by omega)]
 refine ⟨_,rfl,?_⟩
 by_cases last:64≤aux.p+1
 · -- the buffer is full and becomes a chunk
   refine ⟨?_,?_,?_,full++[(List.range aux.p).map aux.buf++[c]],?_,?_,?_⟩
   · simp[flush,last]
   · simp only[flush,last,if_true,Nat.succ_pos,h.cnt]
     exact wrap_length_snoc w c
   · simp[flush,last,h.dest]
   · simp[flush,last,writes,stored,h.dest]
   · intro chunk mem
     rcases mem_append.1 mem with old|new
     · exact sizes chunk old
     · rw[mem_singleton.1 new]
       simp
       omega
   · simp[flush,last,←joined]
 · refine ⟨?_,?_,?_,full,?_,sizes,?_⟩
   · simp only[last,if_false]
     omega
   · simp only[last,h.cnt]
     exact wrap_length_snoc w c
   · simp[last,h.dest]
   · simp[last,writes]
   · simp only[last,if_false,stored]
     rw[←append_assoc,joined]

lemma Buffered.chars {handle:ℤ}{v:List UInt8}{aux:VhprintfAux}
 (h:Buffered handle v aux)(w:List UInt8):
 ∃aux',w.foldlM Printf.addChar aux=some aux' ∧ Buffered handle (v++w) aux':=by
 induction w generalizing v aux with
 | nil=>exact ⟨aux,rfl,by simpa using h⟩
 | cons c w ih=>
  obtain ⟨aux₁,added,h₁⟩:=h.addChar c
  obtain ⟨aux₂,rest,h₂⟩:=ih h₁
  refine ⟨aux₂,?_,by simpa using h₂⟩
  simp[added,rest]

lemma vhprintf_writes (emits:vprintfChars mem turns format args=some w)(buf:ℕ→UInt8)(handle:ℤ):
 ∃chunks:List (List UInt8),vhprintf mem turns buf handle format args=
   some (chunks.map (Prod.mk handle),wrap w.length) ∧
  chunks.flatten=w ∧ ∀chunk∈chunks,1≤chunk.length ∧ chunk.length≤64:=by
 have empty:Buffered handle [] ⟨buf,0,0,handle,[]⟩:=
  ⟨Nat.zero_lt_succ 63,rfl,rfl,[],rfl,by simp,rfl⟩
 obtain ⟨aux,received,h⟩:=empty.chars w
 obtain ⟨full,writes,sizes,joined⟩:=h.chunks
 simp only[vhprintf,vprintfTo,emits,bind_eq_bind,bind_some,received]
 have room:=h.room
 have cnt:=h.cnt
 rw[nil_append] at joined cnt
 by_cases rest:0<aux.p
 · refine ⟨full++[(List.range aux.p).map aux.buf],?_,by simp[←joined],?_⟩
   · simp[flush,rest,writes,h.dest,cnt]
   · intro chunk mem
     rcases mem_append.1 mem with old|new
     · have size:=sizes chunk old
       omega
     · rw[mem_singleton.1 new]
       simp
       omega
 · refine ⟨full,?_,?_,?_⟩
   · simp[flush,rest,writes,cnt]
   · simpa[show aux.p=0 by omega] using joined
   · intro chunk mem
     have size:=sizes chunk mem
     omega

lemma vprintfHelper_chars {s:Console}(locked:consoleLockedByCurrentThread s=true)(v w:List UInt8):
 w.foldlM vprintfHelper (s,wrap v.length)=some ({s with out:=s.out++w},wrap (v++w).length):=by
 induction w generalizing s v with
 | nil=>simp
 | cons c w ih=>
  have put:vprintfHelper (s,wrap v.length) c=
    some ({s with out:=s.out++[c]},wrap (v++[c]).length):=by
   rw[←wrap_length_snoc]
   simp only[vprintfHelper,putcharHaveLock,locked,if_true,Option.pure_def,bind_eq_bind,bind_some]
  have still:consoleLockedByCurrentThread {s with out:=s.out++[c]}=true:=locked
  rw[foldlM_cons,put]
  simp only[bind_eq_bind,bind_some]
  rw[ih still]
  simp

lemma acquireConsole_locked (s:Console):consoleLockedByCurrentThread (acquireConsole s)=true:=by
 obtain ⟨intr,use,held,depth,out⟩:=s
 cases intr<;>cases use<;>cases held<;>rfl

lemma releaseConsole_some {s:Console}(locked:consoleLockedByCurrentThread s=true):
 ∃s',releaseConsole s=some s' ∧ s'.out=s.out:=by
 obtain ⟨intr,use,held,depth,out⟩:=s
 cases intr<;>cases use<;>cases held<;>rcases depth with _|depth <;>
  simp_all[consoleLockedByCurrentThread,releaseConsole]

lemma vprintf_puts (emits:vprintfChars mem turns format args=some w)(s:Console):
 ∃s',vprintf mem turns format args s=some (s',wrap w.length) ∧ s'.out=s.out++w:=by
 have zero:(0:ℤ)=wrap ([]:List UInt8).length:=by decide
 have locked:=acquireConsole_locked s
 have same:(acquireConsole s).out=s.out:=by
  unfold acquireConsole
  split_ifs<;>rfl
 obtain ⟨s',released,out⟩:=releaseConsole_some
  (s:={acquireConsole s with out:=(acquireConsole s).out++w}) locked
 refine ⟨s',?_,by rw[out,same]⟩
 simp only[vprintf,vprintfTo,emits,bind_eq_bind,bind_some]
 rw[zero,vprintfHelper_chars locked]
 simp[released]

def literal (s:String)(i:ℕ):UInt8:=(text s).getD i 0

/-- What the three front ends do with the characters `w` of one call. -/
structure FrontEndsAgree (mem:ℕ→UInt8)(turns format:ℕ)(args:Args)(w:List UInt8):
  Prop where
 stored:∀ (buffer:ℕ→UInt8) (bufSize:ℕ),1≤bufSize → bufSize ≤ intMax →
  ∃buffer',vsnprintf mem turns buffer bufSize format args=some (buffer',(w.length:ℤ)) ∧
   (∀i < min w.length (bufSize-1),w[i]?=some (buffer' i)) ∧
   buffer' (min w.length (bufSize-1))=0 ∧
   ∀i,min w.length (bufSize-1) < i → buffer' i=buffer i
 written:∀ (buf:ℕ→UInt8) (handle:ℤ),∃chunks:List (List UInt8),
  vhprintf mem turns buf handle format args=some (chunks.map (Prod.mk handle),(w.length:ℤ)) ∧
  chunks.flatten=w ∧ ∀chunk∈chunks,1≤chunk.length ∧ chunk.length≤64
 put:∀s:Console,∃s',vprintf mem turns format args s=some (s',(w.length:ℤ)) ∧ s'.out=s.out++w

lemma FrontEndsAgree.fits (agree:FrontEndsAgree mem turns format args w)
 (emits:vprintfChars mem turns format args=some w):w.length ≤ intMax:=by
 obtain ⟨s,counted,-⟩:=agree.put ⟨true,false,false,0,[]⟩
 obtain ⟨s',wrapped,-⟩:=vprintf_puts emits ⟨true,false,false,0,[]⟩
 rw[counted,Option.some.injEq,Prod.mk.injEq] at wrapped
 have bound:=wrap_le w.length
 rw[←wrapped.2] at bound
 exact_mod_cast bound

/-- The counters are `int`s: the front ends agree as long as these can hold the length. -/
theorem front_ends_agree_iff (emits:vprintfChars mem turns format args=some w):
 FrontEndsAgree mem turns format args w ↔ w.length ≤ intMax:=by
 constructor
 · intro agree
   exact agree.fits emits
 · intro fits
   have count:wrap w.length=w.length:=wrap_of_fits (by omega) (by exact_mod_cast fits)
   refine ⟨?_,?_,?_⟩
   · intro buffer bufSize positive small
     refine ⟨_,vsnprintf_stores emits fits buffer positive small,?_,?_,?_⟩
     · intro i inside
       have short:i<w.length:=by omega
       simp[inside,short]
     · simp
     · intro i beyond
       simp[Nat.ne_of_gt beyond,Nat.not_lt_of_gt beyond]
   · intro buf handle
     simpa only[count] using vhprintf_writes emits buf handle
   · intro s
     simpa only[count] using vprintf_puts emits s

theorem front_ends_agree_percent:vprintfChars (literal "%c%%") 4 0 ⟨fun _=>65,0⟩=some [65,37] ∧
  FrontEndsAgree (literal "%c%%") 4 0 ⟨fun _=>65,0⟩ [65,37]:=
 ⟨rfl,(front_ends_agree_iff rfl).2 (by decide)⟩

lemma formatInteger_zero {n:ℕ}(positive:1≤n)(small:n ≤ intMax):
 formatInteger 0 true false baseD ⟨noFlags,n,-1,.int⟩=replicate (n-1) (byte ' ')++[byte '0']:=by
 have digits:integerBuf 0 baseD ⟨noFlags,n,-1,.int⟩=[byte '0']:=by
  simp[integerBuf,digitLoop]
 have pad:(wrap ((n:ℤ)-1)).toNat=n-1:=by
  rw[wrap_of_fits (by omega) (by omega)]
  omega
 simp only[formatInteger,digits]
 simp[integerSign,noFlags,pad]

def wideArgs:Args:=⟨fun i=>if i%2=0 then UInt32.ofNat intMax else 0,0⟩
lemma wide_emits:vprintfChars (literal "%*d%*d") 7 0 wideArgs=
 some (formatInteger 0 true false baseD ⟨noFlags,intMax,-1,.int⟩ ++
  (formatInteger 0 true false baseD ⟨noFlags,intMax,-1,.int⟩++[])):=by
 rfl

theorem front_ends_lose_count:∃w,vprintfChars (literal "%*d%*d") 7 0 wideArgs=some w ∧
  ¬FrontEndsAgree (literal "%*d%*d") 7 0 wideArgs w:=by
 have emits:=wide_emits
 have positive:1 ≤ intMax:=by decide
 rw[formatInteger_zero positive (Nat.le_refl _)] at emits
 refine ⟨_,emits,fun agree=>?_⟩
 have bound:=agree.fits emits
 rw[append_nil,length_append,length_append,length_replicate,
  length_singleton,Nat.sub_add_cancel positive] at bound
 have twice:¬intMax+intMax ≤ intMax:=by decide
 exact twice bound

end Pintos.Printf
