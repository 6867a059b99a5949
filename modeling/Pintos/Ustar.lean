import Mathlib.Data.List.TakeWhile
import Pintos.Directory
import Pintos.PrintfFrontEnds

/-!
# Archive headers

`lib/ustar.c`: `ustar_make_header` composes the 512 bytes in front of an archived file and
`ustar_parse_header` reads them back. The octal numbers go through `snprintf`.
-/
namespace Pintos.Ustar
open Printf List
open Directory (CString)
open Cache (Sector)

/-- The loop of `strip_antisocial_prefixes`: on to what is behind the first slash. -/
def skipPrefixes (s:List UInt8):List UInt8:=
 if (text "/").isPrefixOf s ∨ (text "./").isPrefixOf s ∨ (text "../").isPrefixOf s then
  skipPrefixes (s.dropWhile (· ≠ byte '/')).tail
 else s
 termination_by s.length
 decreasing_by
  have nonempty:s≠[]:=by
   rintro rfl
   simp_all[text]
  have shorter:=(dropWhile_sublist (· ≠ byte '/') (l:=s)).length_le
  have positive:=length_pos_iff.2 nonempty
  simp only[length_tail]
  omega

lemma skipPrefixes_suffix (s:List UInt8):skipPrefixes s <:+ s:=by
 fun_induction skipPrefixes s with
 | case1 s starts ih=>
  exact ih.trans ((tail_suffix _).trans (dropWhile_suffix _))
 | case2 s stops=>exact suffix_rfl

lemma skipPrefixes_skipPrefixes (s:List UInt8):skipPrefixes (skipPrefixes s)=skipPrefixes s:=by
 fun_induction skipPrefixes s with
 | case1 s starts ih=>exact ih
 | case2 s stops=>rw[skipPrefixes,if_neg stops]
def stripAntisocialPrefixes (fileName:CString):CString:=
 let s:=skipPrefixes fileName.val
 if s=[] ∨ s=text ".." then ⟨text ".",by decide⟩
 else ⟨s,fun zero=>fileName.property ((skipPrefixes_suffix _).subset zero)⟩
lemma skipPrefixes_dot:skipPrefixes (text ".")=text ".":=by
 rw[skipPrefixes,if_neg (by decide)]

lemma strip_strip (fileName:CString):stripAntisocialPrefixes (stripAntisocialPrefixes fileName)=
  stripAntisocialPrefixes fileName:=by
 apply Subtype.ext
 by_cases special:skipPrefixes fileName.val=[] ∨ skipPrefixes fileName.val=text ".."
 · have dot:stripAntisocialPrefixes fileName=⟨text ".",by decide⟩:=if_pos special
   rw[dot]
   simp only[stripAntisocialPrefixes,skipPrefixes_dot]
   rw[if_neg (by decide)]
 · have plain:(stripAntisocialPrefixes fileName).val=skipPrefixes fileName.val:=by
    rw[stripAntisocialPrefixes,if_neg special]
   rw[stripAntisocialPrefixes,if_neg (by rwa[plain,skipPrefixes_skipPrefixes])]
   calc skipPrefixes (stripAntisocialPrefixes fileName).val
     _ = skipPrefixes (skipPrefixes fileName.val):=by rw[plain]
     _ = skipPrefixes fileName.val:=skipPrefixes_skipPrefixes _
     _ = (stripAntisocialPrefixes fileName).val:=plain.symm

structure Field where
 start:ℕ
 size:ℕ

def nameField:Field:=⟨0,100⟩
def modeField:Field:=⟨100,8⟩
def uidField:Field:=⟨108,8⟩
def gidField:Field:=⟨116,8⟩
def sizeField:Field:=⟨124,12⟩
def mtimeField:Field:=⟨136,12⟩
def chksumField:Field:=⟨148,8⟩
def typeflagField:Field:=⟨156,1⟩
def magicField:Field:=⟨257,6⟩
def versionField:Field:=⟨263,2⟩
def unameField:Field:=⟨265,32⟩
def gnameField:Field:=⟨297,32⟩
def prefixField:Field:=⟨345,155⟩

inductive UstarType where
 | regular
 | directory
 deriving DecidableEq,Repr

def UstarType.flag:UstarType→UInt8
 | .regular=>byte '0'
 | .directory=>byte '5'
def byteAt (h:Sector)(i:ℕ):UInt8:=if inside:i<512 then h ⟨i,inside⟩ else 0
def field (h:Sector)(f:Field):List UInt8:=(List.range f.size).map fun i=>byteAt h (f.start+i)

/-- Stores at consecutive bytes of the header. -/
def put (h:Sector)(start:ℕ)(bytes:List UInt8):Sector:=fun i=>
 if start ≤ i.val ∧ i.val<start+bytes.length then bytes.getD (i.val-start) 0 else h i

def strlcpy (h:Sector)(f:Field)(src:List UInt8):Sector:=put h f.start (src.take (f.size-1)++[0])
def snprintf (h:Sector)(f:Field)(format:String)(value:UInt32):Option Sector:=do
 let (buffer,_)←vsnprintf (literal format) (format.length+1)
  (fun i=>byteAt h (f.start+i)) f.size 0 ⟨fun _=>value,0⟩
 return fun i=>if f.start ≤ i.val then buffer (i.val-f.start) else h i

/-- What a byte counts: those of the checksum count as blanks. -/
def chksumByte (h:Sector)(i:Fin 512):ℕ:=
 if chksumField.start ≤ i.val ∧ i.val<chksumField.start+chksumField.size
 then (byte ' ').toNat else (h i).toNat

def calculateChksum (h:Sector):ℕ:=
 (finRange 512).foldl (fun chksum i=>(chksum+chksumByte h i)%4294967296) 0

/-- The return value, and what is in `header` afterwards. -/
def makeHeader (fileName:CString)(type:UstarType)(size:ℤ)(header:Sector):
 Option (Bool×Sector):=do
 let fileName:=stripAntisocialPrefixes fileName
 if 99<fileName.val.length then return (false,header)
 let h:Sector:=fun _=>0
 let h:=strlcpy h nameField fileName.val
 let h←snprintf h modeField "%07o" (if type=.regular then 420 else 493)
 let h:=strlcpy h uidField (text "0000000")
 let h:=strlcpy h gidField (text "0000000")
 let h←snprintf h sizeField "%011o" (UInt32.ofInt size)
 let h←snprintf h mtimeField "%011o" 1136102400
 let h:=put h typeflagField.start [type.flag]
 let h:=strlcpy h magicField (text "ustar")
 let h:=put h versionField.start [byte '0',byte '0']
 let h:=strlcpy h gnameField (text "root")
 let h:=strlcpy h unameField (text "root")
 let h←snprintf h chksumField "%07o" (UInt32.ofNat (calculateChksum h))
 return (true,h)

def parseOctal:List UInt8→ℕ→ℕ→Option ℕ
 | [],_,_=>none
 | c::s,ofs,value=>
  if byte '0' ≤ c ∧ c≤byte '7' then
   if 4294967295/8<value then none
   else parseOctal s (ofs+1) (c.toNat-(byte '0').toNat+value*8)
  else if c=byte ' ' ∨ c=0 then if 0<ofs then some value else none
  else none

def parseOctalField (s:List UInt8):Option ℕ:=parseOctal s 0 0
def isAllZeros (h:Sector):Bool:=(finRange 512).all fun i=>h i == 0

inductive Entry where
 | eof
 | file (name:CString) (type:UstarType) (size:ℤ)
 deriving DecidableEq

def stringOf (bytes:List UInt8):CString:=
 ⟨bytes.takeWhile (· ≠ 0),fun zero=>by simpa using mem_takeWhile_imp zero⟩
def parseType (flag:UInt8):Option UstarType:=
 if flag=UstarType.regular.flag then some .regular
 else if flag=UstarType.directory.flag then some .directory
 else none

def parseSize (h:Sector):UstarType→Except String ℤ
 | .directory=>.ok 0
 | .regular=>
  match parseOctalField (field h sizeField) with
  | none=>.error "corrupt file size field"
  | some size=>if intMax<size then .error "file too large" else .ok size

def parseHeader (h:Sector):Except String Entry:=
 if isAllZeros h then .ok .eof
 else if field h magicField≠text "ustar" ++ [0] then .error "not a ustar archive"
 else if field h versionField≠[byte '0',byte '0'] then .error "invalid ustar version"
 else
  match parseOctalField (field h chksumField) with
  | none=>.error "corrupt chksum field"
  | some chksum=>
   if chksum≠calculateChksum h then .error "checksum mismatch"
   else if byteAt h 99≠0 ∨ byteAt h prefixField.start≠0 then .error "file name too long"
   else
    match parseType (byteAt h typeflagField.start) with
    | none=>.error "unimplemented file type"
    | some type=>do
      let size←parseSize h type
      return .file (stripAntisocialPrefixes (stringOf (field h nameField))) type size

section
variable {l:List UInt8}{v value:ℕ}

def octalFrom (l:List UInt8)(v:ℕ):ℕ:=l.foldl (fun v c=>c.toNat-(byte '0').toNat+v*8) v
lemma octalFrom_cons (c:UInt8)(l:List UInt8)(v:ℕ):
 octalFrom (c::l) v=octalFrom l (c.toNat-(byte '0').toNat+v*8):=rfl

structure Octal (l:List UInt8)(v:ℕ):Prop where
 digits:∀c∈l,byte '0' ≤ c ∧ c≤byte '7'
 value:octalFrom l 0=v

lemma octal_digit:∀d<8,byte '0' ≤ baseO.digits.getD d 0 ∧ baseO.digits.getD d 0≤byte '7' ∧
  (baseO.digits.getD d 0).toNat-(byte '0').toNat=d:=by
 decide

lemma Octal.snoc {d:ℕ}(h:Octal l v)(small:d<8):Octal (l++[baseO.digits.getD d 0]) (d+v*8):=by
 obtain ⟨low,high,value⟩:=octal_digit d small
 constructor
 · intro c mem
   rcases mem_append.1 mem with old|new
   · exact h.digits c old
   · rw[mem_singleton.1 new]
     exact ⟨low,high⟩
 · have before:=h.value
   rw[octalFrom] at before ⊢
   rw[foldl_append,before,foldl_cons,foldl_nil,value]

lemma Octal.zeros (h:Octal l v)(n:ℕ):Octal (replicate n (byte '0')++l) v:=by
 induction n with
 | zero=>simpa using h
 | succ n ih=>
  refine ⟨?_,?_⟩
  · intro c mem
    rcases mem_cons.1 mem with rfl|old
    · decide
    · exact ih.digits c old
  · exact ih.value

lemma digitLoop_step (positive:value≠0)(cnt:ℕ):digitLoop baseO false value cnt=
  baseO.digits.getD (value%8) 0::digitLoop baseO false (value/8) (cnt+1):=by
 rw[digitLoop,if_neg positive,if_neg (by simp)]
 rfl

lemma digitLoop_octal (value cnt:ℕ):Octal (digitLoop baseO false value cnt).reverse value:=by
 induction value using Nat.strong_induction_on generalizing cnt with
 | _ value ih=>
  by_cases positive:value=0
  · rw[positive,digitLoop,if_pos rfl]
    exact ⟨by simp,rfl⟩
  · have rest:=ih (value/8) (by omega) (cnt+1)
    have last:=rest.snoc (Nat.mod_lt value (by decide:0<8))
    rw[Nat.mod_add_div'] at last
    rwa[digitLoop_step positive,reverse_cons]

lemma digitLoop_length {n:ℕ}(cnt:ℕ)(small:value<8^n):(digitLoop baseO false value cnt).length≤n:=by
 induction n generalizing value cnt with
 | zero=>
  rw[digitLoop,if_pos (by omega)]
  simp
 | succ n ih=>
  by_cases positive:value=0
  · rw[positive,digitLoop,if_pos rfl]
    simp
  · have rest:=ih (cnt+1) (show value/8<8^n by omega)
    rw[digitLoop_step positive,length_cons]
    omega

def octalText (n value:ℕ):List UInt8:=
 formatInteger value false false baseO ⟨{noFlags with zero:=true},n,-1,.int⟩

lemma octalText_spec {n:ℕ}(positive:1≤n)(short:n≤63)(small:value<8^n):
 Octal (octalText n value) value ∧ (octalText n value).length=n:=by
 have length:=digitLoop_length 0 small
 have buffer:∃buf:List UInt8,Octal buf.reverse value ∧ buf.length≤n ∧
   integerBuf value baseO ⟨{noFlags with zero:=true},n,-1,.int⟩=buf:=by
  by_cases zero:value=0
  · refine ⟨[byte '0'],⟨?_,zero.symm⟩,positive,?_⟩
    · simp only[reverse_singleton,mem_singleton,forall_eq]
      decide
    · simp[integerBuf,zero,digitLoop]
  · refine ⟨_,digitLoop_octal value 0,length,?_⟩
    have long:1-(digitLoop baseO false value 0).length=0:=by
     rw[digitLoop_step zero,length_cons]
     omega
    simp[integerBuf,noFlags,long]
 obtain ⟨buf,octal,fits,eq⟩:=buffer
 have pad:(wrap ((n:ℤ)-buf.length)).toNat=n-buf.length:=by
  rw[wrap_of_fits (by omega) (by simp only[intMax];omega)]
  omega
 have written:octalText n value=replicate (n-buf.length) (byte '0')++buf.reverse:=by
  simp only[octalText,formatInteger,eq]
  simp[noFlags,integerSign,pad]
 rw[written]
 refine ⟨octal.zeros _,?_⟩
 simp
 omega

lemma le_octalFrom (l:List UInt8)(v:ℕ):v≤octalFrom l v:=by
 induction l generalizing v with
 | nil=>exact Nat.le_refl v
 | cons c l ih=>
  have step:=ih (c.toNat-(byte '0').toNat+v*8)
  rw[octalFrom_cons]
  omega

/-- `ofs` digits of the field have been read, and `value` is their number. -/
def Denotes (s:List UInt8)(ofs value v:ℕ):Prop:=
 ∃digits stop rest,s=digits++stop::rest ∧ 0<ofs+digits.length ∧
  (∀c∈digits,byte '0' ≤ c ∧ c≤byte '7') ∧ (stop=byte ' ' ∨ stop=0) ∧
  octalFrom digits value=v ∧ v<2^32

lemma digit_le {c:UInt8}(digit:c≤byte '7'):c.toNat-(byte '0').toNat≤7:=
 Nat.sub_le_sub_right (UInt8.le_iff_toNat_le.1 digit) 48

lemma denotes_cons {c:UInt8}(digit:byte '0' ≤ c ∧ c≤byte '7'):Denotes (c::s) ofs value v ↔
 Denotes s (ofs+1) (c.toNat-(byte '0').toNat+value*8) v:=by
 constructor
 · rintro ⟨_|⟨d,digits⟩,stop,rest,split,-,all,ends,number⟩
   · obtain ⟨rfl,-⟩:=cons.inj split
     rcases ends with rfl|rfl<;>exact absurd digit.1 (by decide)
   · obtain ⟨rfl,-⟩:=cons.inj split
     exact ⟨digits,stop,rest,(cons.inj split).2,by omega,(forall_mem_cons.1 all).2,ends,number⟩
 · rintro ⟨digits,stop,rest,rfl,-,all,ends,number⟩
   exact ⟨c::digits,stop,rest,rfl,by rw[length_cons];omega,forall_mem_cons.2 ⟨digit,all⟩,ends,
    number⟩

lemma parseOctal_iff (small:value<2^32):parseOctal s ofs value=some v ↔ Denotes s ofs value v:=by
 induction s generalizing ofs value with
 | nil=>simp[parseOctal,Denotes]
 | cons c s ih=>
  rw[parseOctal]
  by_cases digit:byte '0' ≤ c ∧ c≤byte '7'
  · have least:=digit_le digit.2
    rw[if_pos digit,denotes_cons digit]
    split_ifs with beyond
    · refine iff_of_false nofun ?_
      rintro ⟨digits,-,-,-,-,-,-,number,fits⟩
      have:=le_octalFrom digits (c.toNat-(byte '0').toNat+value*8)
      omega
    · exact ih (by omega)
  · rw[if_neg digit]
    constructor
    · intro result
      split_ifs at result with ends positive
      obtain rfl:=Option.some.inj result
      exact ⟨[],c,s,rfl,positive,nofun,ends,rfl,small⟩
    · rintro ⟨_|⟨d,digits⟩,stop,rest,split,positive,all,ends,rfl,-⟩
      · obtain ⟨rfl,-⟩:=cons.inj split
        rw[if_pos ends,if_pos (by simpa using positive)]
        rfl
      · obtain ⟨rfl,-⟩:=cons.inj split
        exact absurd (all c mem_cons_self) digit

lemma Octal.parse (h:Octal l v)(fits:v≤4294967295)(nonempty:0<l.length):
 parseOctalField (l++[0])=some v:=
 (parseOctal_iff (by decide)).2
  ⟨l,0,[],rfl,by omega,h.digits,.inr rfl,h.value,Nat.lt_succ_of_le fits⟩

end

lemma byteAt_put (h:Sector){start:ℕ}{bytes:List UInt8}(inside:start+bytes.length≤512)(i:ℕ):
 byteAt (put h start bytes) i=
  if start ≤ i ∧ i<start+bytes.length then bytes.getD (i-start) 0 else byteAt h i:=by
 unfold byteAt put
 by_cases bound:i<512
 · simp only[bound,dif_pos]
 · rw[dif_neg bound,dif_neg bound,if_neg (by omega)]

lemma field_put_apart (h:Sector)(f:Field){start:ℕ}{bytes:List UInt8}(inside:start+bytes.length≤512)
 (apart:f.start+f.size ≤ start ∨ start+bytes.length≤f.start):
 field (put h start bytes) f=field h f:=by
 apply map_congr_left
 intro i mem
 have bound:=mem_range.1 mem
 rw[byteAt_put h inside,if_neg (by omega)]

lemma field_put (h:Sector)(f:Field){bytes:List UInt8}(length:bytes.length≤f.size)
 (inside:f.start+f.size≤512):
 field (put h f.start bytes) f=bytes++(field h f).drop bytes.length:=by
 apply ext_getElem
 · simp[field,length]
 · intro i low high
   simp only[field,getElem_map,getElem_range]
   rw[byteAt_put h (by omega),Nat.add_sub_cancel_left]
   by_cases stored:i<bytes.length
   · simp[stored]
   · rw[if_neg (by omega),getElem_append_right (by omega)]
     simp[show bytes.length+(i-bytes.length)=i by omega]

def putAll (h:Sector)(stores:List (ℕ×List UInt8)):Sector:=
 stores.foldl (fun h store=>put h store.1 store.2) h
def Apart (f:Field)(store:ℕ×List UInt8):Prop:=
 store.1+store.2.length≤512 ∧ (f.start+f.size ≤ store.1 ∨ store.1+store.2.length≤f.start)

lemma field_putAll_apart (h:Sector)(f:Field){stores:List (ℕ×List UInt8)}
 (apart:∀store∈stores,Apart f store):field (putAll h stores) f=field h f:=by
 induction stores generalizing h with
 | nil=>rfl
 | cons store stores ih=>
  obtain ⟨inside,outside⟩:=apart store mem_cons_self
  calc field (putAll h (store::stores)) f
    _ = field (put h store.1 store.2) f:=
      ih _ fun other mem=>apart other (mem_cons_of_mem store mem)
    _ = field h f:=field_put_apart h f inside outside

lemma field_putAll (h:Sector)(f:Field)(stores before after:List (ℕ×List UInt8))
 {bytes:List UInt8}(split:stores=before++(f.start,bytes)::after)
 (length:bytes.length=f.size)(inside:f.start+f.size≤512)
 (apart:∀store∈after,Apart f store):field (putAll h stores) f=bytes:=by
 have last:=field_put (putAll h before) f length.le inside
 rw[drop_eq_nil_of_le (by simp[field,length]),append_nil] at last
 calc field (putAll h stores) f
   _ = field (putAll (put (putAll h before) f.start bytes) after) f:=by
     rw[split,putAll,foldl_append,foldl_cons]
     rfl
   _ = field (put (putAll h before) f.start bytes) f:=field_putAll_apart _ f apart
   _ = bytes:=last

lemma field_single (h:Sector)(i:ℕ):field h ⟨i,1⟩=[byteAt h i]:=by
 simp[field]

lemma emits_seven (value:UInt32):
 vprintfChars (literal "%07o") ("%07o".length+1) 0 ⟨fun _=>value,0⟩=
  some (octalText 7 value.toNat):=by
 rw[←append_nil (octalText 7 value.toNat)]
 rfl

lemma emits_eleven (value:UInt32):
 vprintfChars (literal "%011o") ("%011o".length+1) 0 ⟨fun _=>value,0⟩=
  some (octalText 11 value.toNat):=by
 rw[←append_nil (octalText 11 value.toNat)]
 rfl

lemma snprintf_octal (h:Sector){f:Field}{format:String}{n:ℕ}{value:UInt32}
 (emits:vprintfChars (literal format) (format.length+1) 0 ⟨fun _=>value,0⟩=
  some (octalText n value.toNat))
 (positive:1≤n)(short:n≤63)(size:f.size=n+1)(small:value.toNat<8^n):
 snprintf h f format value=some (put h f.start (octalText n value.toNat++[0])):=by
 have length:=(octalText_spec positive short small).2
 have fits:(octalText n value.toNat).length ≤ intMax:=by
  simp only[intMax]
  omega
 have some:1≤f.size:=by omega
 have small:f.size ≤ intMax:=by
  simp only[intMax]
  omega
 have stores:=vsnprintf_stores emits fits (fun i=>byteAt h (f.start+i)) some small
 rw[snprintf,stores]
 simp only[Option.bind_eq_bind,Option.bind_some,Option.pure_def,Option.some.injEq]
 funext i
 simp only[put,size,length,length_append,length_singleton,Nat.add_sub_cancel,Nat.min_self]
 by_cases before:i.val<f.start
 · rw[if_neg (by omega),if_neg (by omega)]
 rw[if_pos (by omega)]
 rcases Nat.lt_trichotomy (i.val - f.start) n with digit|last|beyond
 · rw[if_pos digit,if_pos (by omega)]
   have inside:i.val-f.start<(octalText n value.toNat).length:=by omega
   simp[getElem?_append_left inside]
 · rw[if_neg (by omega),if_pos last,if_pos (by omega)]
   simp[last,length]
 · rw[if_neg (by omega),if_neg (by omega),if_neg (by omega),byteAt]
   have back:f.start+(i.val-f.start)=i.val:=by omega
   simp[back]

def members (fileName:List UInt8)(type:UstarType)(size:ℕ):List (ℕ×List UInt8):=
 [(nameField.start,fileName++[0]),
  (modeField.start,octalText 7 (if type=.regular then 420 else 493)++[0]),
  (uidField.start,text "0000000" ++ [0]),
  (gidField.start,text "0000000" ++ [0]),
  (sizeField.start,octalText 11 size++[0]),
  (mtimeField.start,octalText 11 1136102400++[0]),
  (typeflagField.start,[type.flag]),
  (magicField.start,text "ustar" ++ [0]),
  (versionField.start,[byte '0',byte '0']),
  (gnameField.start,text "root" ++ [0]),
  (unameField.start,text "root" ++ [0])]

lemma octalText_length {n value:ℕ}(positive:1≤n)(short:n≤63)
 (small:value<8^n):(octalText n value).length=n:=
 (octalText_spec positive short small).2
lemma makeHeader_long {fileName:CString}(type:UstarType)(size:ℤ)(header:Sector)
 (long:99<(stripAntisocialPrefixes fileName).val.length):
 makeHeader fileName type size header=some (false,header):=by
 simp[makeHeader,long]

lemma chksumByte_le (h:Sector)(i:Fin 512):chksumByte h i≤255:=by
 have small:=(h i).toNat_lt
 unfold chksumByte
 split_ifs
 · decide
 · omega

lemma chksum_le (h:Sector):calculateChksum h≤512*255:=by
 have sums:∀ (l:List (Fin 512)) (c:ℕ),l.foldl (fun chksum i=>(chksum+chksumByte h i)%4294967296) c ≤
    c+l.length*255:=by
  intro l
  induction l with
  | nil=>
   simp
  | cons i l ih=>
   intro c
   have small:=chksumByte_le h i
   have step:=ih ((c+chksumByte h i)%4294967296)
   rw[foldl_cons,length_cons]
   omega
 simpa[calculateChksum] using sums (finRange 512) 0

lemma chksum_put (h:Sector){bytes:List UInt8}(length:bytes.length≤chksumField.size):
 calculateChksum (put h chksumField.start bytes)=calculateChksum h:=by
 have same:chksumByte (put h chksumField.start bytes)=chksumByte h:=by
  funext i
  unfold chksumByte put
  split_ifs
  · rfl
  · omega
  · rfl
 unfold calculateChksum
 rw[same]

lemma makeHeader_short {fileName:CString}(type:UstarType){size:ℕ}(header:Sector)
 (short:(stripAntisocialPrefixes fileName).val.length≤99)(fits:size ≤ intMax):
 makeHeader fileName type size header=
  let h:=putAll (fun _=>0) (members (stripAntisocialPrefixes fileName).val type size)
  some (true,put h chksumField.start (octalText 7 (calculateChksum h)++[0])):=by
 have name:(stripAntisocialPrefixes fileName).val.take (nameField.size-1)=
   (stripAntisocialPrefixes fileName).val:=take_of_length_le short
 have mode (h:Sector):snprintf h modeField "%07o" (if type=.regular then 420 else 493)=
   some (put h modeField.start (octalText 7 (if type=.regular then 420 else 493)++[0])):=by
  cases type
  · exact snprintf_octal h (emits_seven 420) (by decide) (by decide) rfl (by decide)
  · exact snprintf_octal h (emits_seven 493) (by decide) (by decide) rfl (by decide)
 have number:(UInt32.ofInt (size:ℤ)).toNat=size:=by
  simp only[intMax] at fits
  simp[UInt32.ofInt]
  omega
 have length (h:Sector):snprintf h sizeField "%011o" (UInt32.ofInt size)=
   some (put h sizeField.start (octalText 11 size++[0])):=by
  have eq:=snprintf_octal h (emits_eleven (UInt32.ofInt size)) (by decide) (by decide)
   (rfl:sizeField.size=12) (by simp only[intMax] at fits;omega)
  rwa[number] at eq
 have time (h:Sector):snprintf h mtimeField "%011o" 1136102400=
   some (put h mtimeField.start (octalText 11 1136102400++[0])):=
  snprintf_octal h (emits_eleven 1136102400) (by decide) (by decide) rfl (by decide)
 have chksum (h:Sector):snprintf h chksumField "%07o" (UInt32.ofNat (calculateChksum h))=
    some (put h chksumField.start (octalText 7 (calculateChksum h)++[0])):=by
  have bound:=chksum_le h
  have number:(UInt32.ofNat (calculateChksum h)).toNat=calculateChksum h:=by
   simp
   omega
  have eq:=snprintf_octal h (emits_seven (UInt32.ofNat (calculateChksum h))) (by decide)
   (by decide) (rfl:chksumField.size=8) (by rw[number];omega)
  rwa[number] at eq
 unfold makeHeader
 rw[if_neg (by omega)]
 simp only[mode,length,time,chksum]
 simp only[strlcpy,name]
 rfl
def stores (fileName:List UInt8)(type:UstarType)(size chksum:ℕ):List (ℕ×List UInt8):=
 members fileName type size++[(chksumField.start,octalText 7 chksum++[0])]

def extents:List (ℕ×ℕ):=
 [(100,8),(108,8),(116,8),(124,12),(136,12),(156,1),(257,6),(263,2),(297,5),(265,5),(148,8)]

variable (fileName:CString)(type:UstarType){size chksum:ℕ}

lemma stores_extents (fits:size ≤ intMax)(small:chksum<8^7):
 (stores fileName.val type size chksum).tail.map (fun s=>(s.1,s.2.length))=extents:=by
 have modeLength:(octalText 7 (if type=.regular then 420 else 493)).length=7:=
  octalText_length (by decide) (by decide) (by split_ifs<;>decide)
 have sizeLength:(octalText 11 size).length=11:=
  octalText_length (by decide) (by decide) (by simp only[intMax] at fits;omega)
 have timeLength:(octalText 11 1136102400).length=11:=
  octalText_length (by decide) (by decide) (by decide)
 have chksumLength:(octalText 7 chksum).length=7:=octalText_length (by decide) (by decide) small
 simp only[stores,members,cons_append,tail_cons,map_cons,length_append,
  modeLength,sizeLength,timeLength,chksumLength,nil_append]
 rfl

lemma stores_apart (fits:size ≤ intMax)(small:chksum<8^7)(f:Field)(k:ℕ)(apart:∀e∈extents.drop k,
  e.1+e.2≤512 ∧ (f.start+f.size≤e.1 ∨ e.1+e.2≤f.start)):
 ∀store∈(stores fileName.val type size chksum).tail.drop k,Apart f store:=by
 intro store mem
 apply apart (store.1,store.2.length)
 rw[←stores_extents fileName type fits small,←map_drop]
 exact List.mem_map_of_mem mem

def written (size chksum:ℕ):Sector:=putAll (fun _=>0) (stores fileName.val type size chksum)

section
variable (fits:size ≤ intMax)(small:chksum<8^7)
include fits small

lemma written_front (f:Field)
 (apart:∀e∈extents,e.1+e.2≤512 ∧ (f.start+f.size≤e.1 ∨ e.1+e.2≤f.start)):
 field (written fileName type size chksum) f=
  field (put (fun _=>0) nameField.start (fileName.val++[0])) f:=by
 have others:=stores_apart fileName type fits small f 0 apart
 exact field_putAll_apart _ f others

lemma written_field (f:Field)(k:ℕ)(bytes:List UInt8)
 (split:stores fileName.val type size chksum=(stores fileName.val type size chksum).take (k+1) ++
   (f.start,bytes)::(stores fileName.val type size chksum).tail.drop (k+1))
 (length:bytes.length=f.size)(inside:f.start+f.size≤512)
 (apart:∀e∈extents.drop (k+1),e.1+e.2≤512 ∧ (f.start+f.size≤e.1 ∨ e.1+e.2≤f.start)):
 field (written fileName type size chksum) f=bytes:=
 field_putAll _ f _ _ _ split length inside (stores_apart fileName type fits small f (k+1) apart)

variable (short:fileName.val.length≤99)
include short

lemma written_name:stringOf (field (written fileName type size chksum) nameField)=fileName:=by
 have room:(fileName.val++[0]).length≤nameField.size:=by
  rw[length_append]
  exact Nat.succ_le_succ short
 rw[written_front fileName type fits small nameField (by decide),
  field_put _ nameField room (by decide)]
 have nonzero:∀c∈fileName.val,decide (c≠0)=true:=by
  intro c mem
  simpa using fun zero:c=0=>fileName.property (zero▸mem)
 simp only[stringOf,append_assoc,takeWhile_append_of_pos nonzero]
 simp

lemma written_last:byteAt (written fileName type size chksum) 99=0:=by
 have front:=written_front fileName type fits small ⟨99,1⟩ (by decide)
 rw[field_single,field_single,singleton_inj] at front
 have inside:nameField.start+(fileName.val++[0]).length≤512:=by
  simp[nameField]
  omega
 rw[front,byteAt_put _ inside]
 split_ifs with stored
 · have last:99-nameField.start=fileName.val.length:=by
    simp[nameField] at stored ⊢
    omega
   simp[last]
 · rfl

lemma written_prefix:byteAt (written fileName type size chksum) prefixField.start=0:=by
 have front:=written_front fileName type fits small ⟨345,1⟩ (by decide)
 rw[field_single,field_single,singleton_inj] at front
 have inside:nameField.start+(fileName.val++[0]).length≤100:=by
  simp[nameField]
  omega
 rw[show prefixField.start=345 from rfl,front,byteAt_put _ (by omega),if_neg (by omega)]
 rfl

end

lemma isAllZeros_field {h:Sector}(zeros:isAllZeros h=true)(f:Field):
 field h f=replicate f.size 0:=by
 have all (i:ℕ):byteAt h i=0:=by
  unfold byteAt
  split_ifs with inside
  · simpa[isAllZeros] using List.all_eq_true.1 zeros ⟨i,inside⟩ (mem_finRange _)
  · rfl
 simp[field,all,map_const']

lemma parseHeader_written (fits:size ≤ intMax)(small:chksum<8^7)(short:fileName.val.length≤99)
 (sum:calculateChksum (written fileName type size chksum)=chksum):
 parseHeader (written fileName type size chksum)=.ok (.file (stripAntisocialPrefixes fileName) type
   (if type=.regular then size else 0)):=by
 have magic:=written_field fileName type fits small magicField 6 (text "ustar" ++ [0]) rfl rfl
  (by decide) (by decide)
 have version:=written_field fileName type fits small versionField 7 [byte '0',byte '0'] rfl
  rfl (by decide) (by decide)
 have flag:=written_field fileName type fits small typeflagField 5 [type.flag] rfl rfl
  (by decide) (by decide)
 obtain ⟨sizeOctal,sizeLength⟩:=octalText_spec (n:=11) (by decide) (by decide)
  (show size<8^11 by simp only[intMax] at fits;omega)
 obtain ⟨chksumOctal,chksumLength⟩:=octalText_spec (n:=7) (by decide) (by decide) small
 have length:=written_field fileName type fits small sizeField 3 (octalText 11 size++[0]) rfl
  (by simp[sizeLength,sizeField]) (by decide) (by decide)
 have check:=written_field fileName type fits small chksumField 10 (octalText 7 chksum++[0])
  rfl (by simp[chksumLength,chksumField]) (by decide) (by decide)
 have chksumRead:parseOctalField (octalText 7 chksum++[0])=some chksum:=
  chksumOctal.parse (by omega) (by omega)
 have sizeRead:parseOctalField (octalText 11 size++[0])=some size:=
  sizeOctal.parse (by simp only[intMax] at fits;omega) (by omega)
 have name:=written_name fileName type fits small short
 have last:=written_last fileName type fits small short
 have noPrefix:= written_prefix fileName type fits small short
 generalize written fileName type size chksum=h at *
 have data:isAllZeros h=false:=by
  by_contra zeros
  have empty:=isAllZeros_field (Bool.not_eq_false _▸zeros) magicField
  rw[magic] at empty
  exact absurd empty (by decide)
 have kind:parseType (byteAt h typeflagField.start)=some type:=by
  have single:=field_single h typeflagField.start
  rw[show (⟨typeflagField.start,1⟩:Field)=typeflagField from rfl,flag,singleton_inj] at single
  rw[←single]
  cases type<;>decide
 simp only[parseHeader,data,magic,version,check,chksumRead,sum,last,noPrefix,kind,name,
  ne_eq]
 cases type with
 | regular=>simp[parseSize,length,sizeRead,Nat.not_lt.2 fits,Bind.bind,Except.bind,
   Pure.pure,Except.pure]
 | directory=>rfl

lemma makeHeader_parse {name:CString}(header:Sector)
 (short:(stripAntisocialPrefixes name).val.length≤99)(fits:size ≤ intMax):
 ∃h,makeHeader name type size header=some (true,h) ∧
  parseHeader h=.ok (.file (stripAntisocialPrefixes name) type
   (if type=.regular then size else 0)):=by
 have composed:=makeHeader_short type header short fits
 generalize before:putAll (fun _=>0)
  (members (stripAntisocialPrefixes name).val type size)=h at composed
 have bound:=chksum_le h
 have small:calculateChksum h<8^7:=by omega
 have digits:(octalText 7 (calculateChksum h)).length=7:=
  octalText_length (by decide) (by decide) small
 have same:written (stripAntisocialPrefixes name) type size (calculateChksum h)=
   put h chksumField.start (octalText 7 (calculateChksum h)++[0]):=by
  rw[written,putAll,stores,foldl_append,←before]
  rfl
 have sum:=chksum_put h (show (octalText 7 (calculateChksum h)++[0]).length≤chksumField.size by
   simp[digits,chksumField])
 refine ⟨_,composed,?_⟩
 rw[←same] at sum ⊢
 rw[parseHeader_written _ type fits small short sum,strip_strip]

/-- What `ustar_make_header` composes, `ustar_parse_header` reads back; only a name that is too
long is refused. -/
theorem ustar_round_trip (size:ℤ)(positive:0 ≤ size)(fits:size ≤ intMax)(header:Sector):
 ∃done h,makeHeader fileName type size header=some (done,h) ∧
  (done=false ↔ 99<(stripAntisocialPrefixes fileName).val.length) ∧
  (done=true → parseHeader h=.ok (.file (stripAntisocialPrefixes fileName) type
    (if type=.regular then size else 0))):=by
 obtain ⟨n,rfl⟩:=Int.eq_ofNat_of_zero_le positive
 by_cases long:99<(stripAntisocialPrefixes fileName).val.length
 · exact ⟨false,header,makeHeader_long type n header long,by simp[long],by simp⟩
 · obtain ⟨h,composed,read⟩:=makeHeader_parse type header (Nat.not_lt.1 long) (Int.ofNat_le.1 fits)
   exact ⟨true,h,composed,by simp[long],fun _=>read⟩

theorem ustar_round_trip_max:∃done h,
  makeHeader ⟨text "../a",by decide⟩ .regular 2147483647 (fun _=>0)=some (done,h) ∧
  (done=false ↔ 99<(stripAntisocialPrefixes ⟨text "../a",by decide⟩).val.length) ∧
  (done=true → parseHeader h=
   .ok (.file (stripAntisocialPrefixes ⟨text "../a",by decide⟩) .regular 2147483647)):=
 ustar_round_trip ⟨text "../a",by decide⟩ .regular 2147483647 (by decide) (by decide) (fun _=>0)

variable {h h':Sector}{i:Fin 512}

lemma chksum_sum (h:Sector):calculateChksum h%4294967296=
 ((finRange 512).map (chksumByte h)).sum%4294967296:=by
 have sums:∀ (l:List (Fin 512)) (c:ℕ),
   l.foldl (fun chksum i=>(chksum+chksumByte h i)%4294967296) c%4294967296=
    (c+(l.map (chksumByte h)).sum)%4294967296:=by
  intro l
  induction l with
  | nil=>exact fun c=>rfl
  | cons i l ih=>
   intro c
   have step:=ih ((c+chksumByte h i)%4294967296)
   rw[foldl_cons,map_cons,sum_cons]
   omega
 simpa[calculateChksum] using sums (finRange 512) 0

lemma chksum_ne (outside:¬(148 ≤ i.val ∧ i.val<156))(differs:h' i≠h i)
 (same:∀j,j≠i → h' j=h j):calculateChksum h'≠calculateChksum h:=by
 have split (g:Sector):((finRange 512).map (chksumByte g)).sum=
   (g i).toNat+(((finRange 512).erase i).map (chksumByte g)).sum:=by
  have own:chksumByte g i=(g i).toNat:=if_neg outside
  have perm:=(perm_cons_erase (mem_finRange i)).map (chksumByte g)
  rw[perm.sum_nat,map_cons,sum_cons,own]
 have rest:((finRange 512).erase i).map (chksumByte h')=
   ((finRange 512).erase i).map (chksumByte h):=by
  refine map_congr_left fun j mem=>?_
  have ne:j≠i:=fun eq=>(nodup_finRange 512).not_mem_erase (eq▸mem)
  rw[chksumByte,chksumByte,same j ne]
 intro equal
 have old:=chksum_sum h
 have new:=chksum_sum h'
 rw[equal,old,split,split,rest] at new
 have low:=(h' i).toNat_lt
 have high:=(h i).toNat_lt
 exact differs (UInt8.toNat_inj.1 (by omega))

lemma parseHeader_accepted {entry:Entry}(accepted:parseHeader h=.ok entry):
 isAllZeros h=true ∨ field h magicField=text "ustar" ++ [0] ∧
  parseOctalField (field h chksumField)=some (calculateChksum h):=by
 rw[parseHeader] at accepted
 by_cases zeros:isAllZeros h=true
 · exact .inl zeros
 rw[if_neg zeros] at accepted
 by_cases magic:field h magicField=text "ustar" ++ [0]
 · rw[if_neg (not_not.2 magic)] at accepted
   split at accepted
   · cases accepted
   · cases parsed:parseOctalField (field h chksumField) with
     | none=>
      rw[parsed] at accepted
      cases accepted
     | some chksum=>
      rw[parsed] at accepted
      by_cases sum:chksum=calculateChksum h
      · exact .inr ⟨magic,congrArg some sum⟩
      · dsimp only at accepted
        rw[if_pos sum] at accepted
        cases accepted
 · rw[if_pos magic] at accepted
   cases accepted

/-- A header that is accepted is refused when one byte outside the checksum changes. -/
theorem corrupted_byte_rejected {name:CString}{type:UstarType}{size:ℤ}
 (accepted:parseHeader h=.ok (.file name type size))(outside:¬(148 ≤ i.val ∧ i.val<156))
 (differs:h' i≠h i)(same:∀j,j≠i → h' j=h j):∃e,parseHeader h'=.error e:=by
 have stored:field h' chksumField=field h chksumField:=by
  refine map_congr_left fun k mem=>?_
  have small:k<8:=mem_range.1 mem
  have inside:chksumField.start+k<512:=by
   simp only[chksumField]
   omega
  simp only[byteAt,inside,dite_true]
  refine same _ fun eq=>outside ?_
  rw[←eq]
  simp only[chksumField]
  omega
 have nonzero:isAllZeros h≠true:=by
  intro zeros
  rw[parseHeader,if_pos zeros] at accepted
  cases accepted
 obtain zeros|⟨magic,old⟩:=parseHeader_accepted accepted
 · exact absurd zeros nonzero
 cases run:parseHeader h' with
 | error e=>exact ⟨e,rfl⟩
 | ok entry=>
  obtain zeros|⟨-,new⟩:=parseHeader_accepted run
  · -- of the first two letters of the magic one is unchanged
    have letter (k:ℕ) (hk:k<6):byteAt h (257+k)=(text "ustar" ++ [0]).getD k 0:=by
     rw[←magic]
     simp[field,magicField,hk]
    have zero (j:Fin 512) (ne:j≠i):h j=0:=by
     rw[←same j ne]
     simpa using List.all_eq_true.1 zeros j (mem_finRange j)
    by_cases first:(⟨257,by decide⟩:Fin 512)=i
    · have second:=(letter 1 (by decide)).symm.trans (zero ⟨258,by decide⟩ (by rw[←first];decide))
      exact absurd second (by decide)
    · exact absurd ((letter 0 (by decide)).symm.trans (zero _ first)) (by decide)
  · rw[stored,old,Option.some.injEq] at new
    exact absurd new.symm (chksum_ne outside differs same)

theorem corrupted_byte_rejected_first:
 ∃h,parseHeader h=.ok (.file (stripAntisocialPrefixes ⟨text "a",by decide⟩) .regular 7) ∧
  ∃e,parseHeader (Function.update h ⟨0,by decide⟩ (h ⟨0,by decide⟩+1))=.error e:=by
 have short:(stripAntisocialPrefixes ⟨text "a",by decide⟩).val.length≤99:=by
  simp[stripAntisocialPrefixes,skipPrefixes,text,byte]
 obtain ⟨h,-,accepted⟩:=makeHeader_parse .regular (fun _=>0) short (show 7 ≤ intMax by decide)
 refine ⟨h,accepted,corrupted_byte_rejected accepted (by decide) ?_
  fun j ne=>Function.update_of_ne ne _ _⟩
 rw[Function.update_self]
 simp

end Pintos.Ustar
