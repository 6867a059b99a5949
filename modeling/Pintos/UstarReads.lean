import Pintos.Ustar

/-!
# Reading an archive header

`parse_octal_field` and `strip_antisocial_prefixes` of `lib/ustar.c` byte by byte. A pointer is the
bytes from it to the end of its buffer, and what is behind the end has no value.
-/
namespace Pintos.Ustar
open Printf List Option
open Directory (CString)

/-- `parse_octal_field` on the bytes from `s` on, of which it may read `size`; `word` is what an
`unsigned long` keeps of a number. -/
def octalLoop (word:ℕ→ℕ)(s:List UInt8):ℕ→ℕ→ℕ→Option (Bool×ℕ)
 | 0,_,value=>some (false,value)
 | size+1,ofs,value=>do
  let c←s[ofs]?
  if byte '0' ≤ c ∧ c≤byte '7' then
   if 4294967295/8<value then return (false,value)
   else octalLoop word s size (ofs+1) (word (c.toNat-(byte '0').toNat+word (value*8)))
  else if c=byte ' ' ∨ c=0 then return (decide (0<ofs),value)
  else return (false,value)

lemma octalLoop_spec (word:ℕ→ℕ)(exact_:∀n<2^32,word n=n)(l s:List UInt8)(value:ℕ)
 (small:value<2^32):∃r,octalLoop word (l++s) s.length l.length value=some r ∧
 octalLoop id (l++s) s.length l.length value=some r ∧
  ∀v,r=(true,v) ↔ parseOctal s l.length value=some v:=by
 induction s generalizing l value with
 | nil=>exact ⟨_,rfl,rfl,by simp[parseOctal]⟩
 | cons c s ih=>
  have here:(l++c::s)[l.length]?=some c:=by simp
  simp only[length_cons,octalLoop,here,bind_eq_bind,bind_some,parseOctal]
  by_cases digit:byte '0' ≤ c ∧ c≤byte '7'
  · have least:=digit_le digit.2
    split_ifs with beyond
    · exact ⟨_,rfl,rfl,by simp⟩
    · have next:=ih (l++[c]) (c.toNat-(byte '0').toNat+value*8) (by omega)
      rw[exact_ (value*8) (by omega),exact_ _ (by omega)]
      simpa using next
  · split_ifs with ends positive
    · exact ⟨_,rfl,rfl,by simp[positive]⟩
    · exact ⟨_,rfl,rfl,by simp[positive]⟩
    · exact ⟨_,rfl,rfl,by simp⟩

/-- A field of any size: the loop stays inside it, computes as if an `unsigned long` had no limit,
and accepts it exactly if it denotes a number. -/
theorem octal_field_exact (field:List UInt8):∃r,
 octalLoop (· % 2^32) field field.length 0 0=some r ∧ octalLoop id field field.length 0 0=some r ∧
 ∀v,r=(true,v) ↔ Denotes field 0 0 v:=by
 obtain ⟨r,wraps,plain,result⟩:=
  octalLoop_spec (· % 2^32) (fun _=>Nat.mod_eq_of_lt) [] field 0 (by decide)
 exact ⟨r,wraps,plain,fun v=>(result v).trans (parseOctal_iff (by decide))⟩

/-- The second block has exactly `size` bytes. -/
def memcmp:List UInt8→List UInt8→Option ℤ
 | _,[]=>some 0
 | [],_::_=>none
 | x::a,y::b=>if x≠y then some (if y<x then 1 else -1) else memcmp a b
def strchr (c:UInt8):List UInt8→Option (Option (List UInt8))
 | []=>none
 | x::s=>if x=c then some (some (x::s)) else if x=0 then some none else strchr c s
def strcmp:List UInt8→List UInt8→Option ℤ
 | x::a,y::b=>
  if x≠0 ∧ x=y then strcmp a b else some (if x<y then -1 else if y<x then 1 else 0)
 | _,_=>none

/-- The condition of the loop. -/
def antisocial (fileName:List UInt8):Option Bool:=do
 let c←fileName.head?
 if c=byte '/' then return true
 else if (← memcmp fileName (text "./"))=0 then return true
 else return decide ((← memcmp fileName (text "../"))=0)

def stripLoop:ℕ→List UInt8→Option (List UInt8)
 | 0,_=>none
 | turns+1,fileName=>do
  if←antisocial fileName then
   match←strchr (byte '/') fileName with
   | none=>none
   | some slash=>stripLoop turns slash.tail
  else return fileName

def strip (turns:ℕ)(fileName:List UInt8):Option (List UInt8):=do
 let fileName←stripLoop turns fileName
 if (← fileName.head?)=0 then return text "."++[0]
 else if (← strcmp fileName (text ".."++[0]))=0 then return text "."++[0]
 else return fileName

variable {s l:List UInt8}

lemma memcmp_spec (hs:0∉s)(hl:0∉l):∃r,memcmp (s++[0]) l=some r ∧ (r=0 ↔ l.isPrefixOf s=true):=by
 induction l generalizing s with
 | nil=>exact ⟨0,by simp[memcmp]⟩
 | cons y l ih=>
  obtain ⟨first,rest⟩:=not_or.1 (mem_cons.not.1 hl)
  cases s with
  | nil=>exact ⟨_,if_pos first,by split_ifs<;>simp⟩
  | cons x s=>
   rw[cons_append,memcmp]
   split_ifs with other less
   · exact ⟨1,rfl,by simp[Ne.symm other]⟩
   · exact ⟨-1,rfl,by simp[Ne.symm other]⟩
   · obtain ⟨r,result,same⟩:=ih (fun zero=>hs (mem_cons_of_mem x zero)) rest
     exact ⟨r,result,by simp[not_not.1 other,same]⟩

lemma strcmp_spec (hs:0∉s)(hl:0∉l):∃r,strcmp (s++[0]) (l++[0])=some r ∧ (r=0 ↔ s=l):=by
 induction s generalizing l with
 | nil=>
  cases l with
  | nil=>exact ⟨0,by decide⟩
  | cons y l=>
   have first:=(not_or.1 (mem_cons.not.1 hl)).1
   refine ⟨_,if_neg (by simp),?_⟩
   rw[if_pos (UInt8.pos_iff_ne_zero.2 (Ne.symm first))]
   simp
 | cons x s ih=>
  obtain ⟨first,rest⟩:=not_or.1 (mem_cons.not.1 hs)
  cases l with
  | nil=>
   refine ⟨_,if_neg (by simp[Ne.symm first]),?_⟩
   rw[if_neg (by simp),if_pos (UInt8.pos_iff_ne_zero.2 (Ne.symm first))]
   simp
  | cons y l=>
   rw[cons_append,cons_append,strcmp]
   by_cases same:x=y
   · obtain ⟨r,result,equal⟩:=ih rest (not_or.1 (mem_cons.not.1 hl)).2
     rw[if_pos ⟨Ne.symm first,same⟩]
     exact ⟨r,result,by simp[same,equal]⟩
   · have:=UInt8.lt_or_lt_of_ne same
     split_ifs<;>simp_all

lemma strchr_spec {c:UInt8}(mem:c∈s)(hs:0∉s):
 strchr c (s++[0])=some (some (s.dropWhile (· ≠ c)++[0])):=by
 induction s with
 | nil=>cases mem
 | cons x s ih=>
  obtain ⟨first,rest⟩:=not_or.1 (mem_cons.not.1 hs)
  rw[cons_append,strchr]
  by_cases here:x=c
  · simp[here]
  · rw[if_neg here,if_neg (Ne.symm first),ih ((mem_cons.1 mem).resolve_left (Ne.symm here)) rest]
    simp[here]

/-- What the loop goes on for. -/
def Antisocial (s:List UInt8):Prop:=
 (text "/").isPrefixOf s=true ∨ (text "./").isPrefixOf s=true ∨ (text "../").isPrefixOf s=true

instance (s:List UInt8):Decidable (Antisocial s):=inferInstanceAs (Decidable (_ ∨ _))

lemma antisocial_spec (hs:0∉s):antisocial (s++[0])=some (decide (Antisocial s)):=by
 obtain ⟨r,first,same⟩:=memcmp_spec (l:=text "./") hs (by decide)
 obtain ⟨r',second,same'⟩:=memcmp_spec (l:=text "../") hs (by decide)
 have slash:∃c,(s++[0]).head?=some c ∧ (c=byte '/' ↔ (text "/").isPrefixOf s=true):=by
  cases s with
  | nil=>exact ⟨0,rfl,iff_of_false (by decide) (by decide)⟩
  | cons x s=>
   refine ⟨x,rfl,?_⟩
   rw[ isPrefixOf_iff_prefix]
   exact ⟨fun eq=>⟨s,by rw[eq];rfl⟩,fun ⟨_,eq⟩=>(cons.inj eq).1.symm⟩
 obtain ⟨c,head,starts⟩:=slash
 simp only[antisocial,head,first,second,Antisocial,←starts,
  ←same,←same']
 by_cases h:c=byte '/'<;>by_cases h':r=0<;>simp[h,h']

lemma stripLoop_spec (hs:0∉s){turns:ℕ}(enough:s.length<turns):
 stripLoop turns (s++[0])=some (skipPrefixes s++[0]):=by
 fun_induction skipPrefixes s generalizing turns with
 | case1 s starts ih=>
  obtain ⟨turns,rfl⟩:∃n,turns=n+1:=⟨turns-1,by omega⟩
  have slash:byte '/'∈s:=by
   rcases starts with h|h|h<;>exact ( isPrefixOf_iff_prefix.1 h).subset (by decide)
  have shorter:(s.dropWhile (· ≠ byte '/')).tail.length<s.length:=by
   have:=(dropWhile_sublist (· ≠ byte '/') (l:=s)).length_le
   have:=length_pos_of_mem slash
   rw[length_tail]
   omega
  have suffix:=(tail_suffix _).trans (dropWhile_suffix (l:=s) (· ≠ byte '/'))
  have some_:s.dropWhile (· ≠ byte '/')≠[]:=by
   intro empty
   simpa using dropWhile_eq_nil_iff.1 empty _ slash
  have goes:decide (Antisocial s)=true:=decide_eq_true starts
  rw[stripLoop,antisocial_spec hs,goes]
  simp only[bind_eq_bind,bind_some,strchr_spec slash hs,tail_append_of_ne_nil some_]
  exact ih (fun zero=>hs (suffix.subset zero)) (by omega)
 | case2 s stops=>
  obtain ⟨turns,rfl⟩:∃n,turns=n+1:=⟨turns-1,by omega⟩
  have ends:decide (Antisocial s)=false:=decide_eq_false stops
  rw[stripLoop,antisocial_spec hs,ends]
  rfl

lemma not_antisocial_skipPrefixes (s:List UInt8):¬Antisocial (skipPrefixes s):=by
 fun_induction skipPrefixes s with
 | case1 s starts ih=>exact ih
 | case2 s stops=>exact stops

lemma strip_val (name:CString):(stripAntisocialPrefixes name).val=
  if skipPrefixes name.val=[] ∨ skipPrefixes name.val=text ".." then text "."
  else skipPrefixes name.val:=by
 rw[stripAntisocialPrefixes]
 split_ifs<;>rfl

lemma strip_spec (name:CString){turns:ℕ}(enough:name.val.length<turns):
 strip turns (name.val++[0])=some ((stripAntisocialPrefixes name).val++[0]):=by
 have nonzero:0∉skipPrefixes name.val:=fun zero=>name.property ((skipPrefixes_suffix _).subset zero)
 obtain ⟨r,compared,same⟩:=strcmp_spec (l:=text "..") nonzero (by decide)
 rw[strip,stripLoop_spec name.property enough,strip_val]
 simp only[bind_eq_bind,bind_some,compared,same]
 generalize skipPrefixes name.val=s at nonzero
 cases s with
 | nil=>rfl
 | cons c s=>
  have first:c≠0:=by
   rintro rfl
   exact nonzero mem_cons_self
  simp only[cons_append,head?_cons,bind_some,first,if_false,reduceCtorEq,false_or]
  split_ifs<;>rfl

theorem prefixes_removed (name:CString):∃r:CString,
 (∀turns,name.val.length<turns → strip turns (name.val++[0])=some (r.val++[0])) ∧
 r.val≠[] ∧ r.val≠text ".." ∧ ¬Antisocial r.val ∧ (r.val <:+ name.val ∨ r.val=text ".") ∧
 ∀turns,r.val.length<turns → strip turns (r.val++[0])=some (r.val++[0]):=by
 refine ⟨stripAntisocialPrefixes name,fun _=>strip_spec name,?_,?_,?_,?_,fun turns enough=>?_⟩
 rotate_right
 · rw[strip_spec _ enough,strip_strip]
 all_goals rw[strip_val]
 all_goals split_ifs with special
 · decide
 · exact fun empty=>special (.inl empty)
 · decide
 · exact fun dots=>special (.inr dots)
 · decide
 · exact not_antisocial_skipPrefixes _
 · exact .inr rfl
 · exact .inl (skipPrefixes_suffix _)

end Pintos.Ustar
