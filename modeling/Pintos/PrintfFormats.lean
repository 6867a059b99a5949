import Pintos.PrintfFrontEnds

namespace Pintos.Printf
open List

/-- The positions of the characters of the format that are read. `parse_conversion` reads each
character up to the one that it returns. -/
def reads (mem:ℕ→UInt8):ℕ→ℕ→Args→Option (List ℕ)
 | 0,_,_=>none
 | turns+1,format,args=>
  if mem format=0 then some [format]
  else if mem format≠byte '%' then do
   let rest←reads mem turns (format+1) args
   return format::rest
  else if mem (format+1)=byte '%' then do
   let rest←reads mem turns (format+2) args
   return format::(format+1)::rest
  else do
   let (c,next,args)←parseConversion mem turns (format+1) args
   let rest←reads mem turns (next+1) (convert mem (mem next) c args).2
   return format::range' (format+1) (next-format)++rest

/-- The string `s` is at `p`, with its terminator at `z`. -/
def Ends (mem:ℕ→UInt8)(z:ℕ):ℕ→List UInt8→Prop
 | p,[]=>p=z ∧ mem p=0
 | p,c::s=>c≠0 ∧ mem p=c ∧ Ends mem z (p+1) s

def skipLetter (c:UInt8)(s:List UInt8):List UInt8:=if s.head?=some c then s.tail else s
def skipNumber (s:List UInt8):List UInt8:=
 if s.head?=some (byte '*') then s.tail else s.dropWhile isdigit
def skipPrecision (s:List UInt8):List UInt8:=
 if s.head?=some (byte '.') then skipNumber s.tail else s

def skipSize (s:List UInt8):List UInt8:=
 if s.head?=some (byte 'h') then skipLetter (byte 'h') s.tail
 else if s.head?=some (byte 'j') then s.tail
 else if s.head?=some (byte 'l') then skipLetter (byte 'l') s.tail
 else if s.head?=some (byte 't') then s.tail
 else if s.head?=some (byte 'z') then s.tail
 else s

/-- What is left of a format when the flags, width, precision and size of a conversion are gone. -/
def skipConversion (s:List UInt8):List UInt8:=
 skipSize (skipPrecision (skipNumber (s.dropWhile fun c=>(noFlags.set c).isSome)))

lemma skipLetter_suffix (c:UInt8)(s:List UInt8):skipLetter c s<:+s:=by
 unfold skipLetter
 split
 · exact tail_suffix s
 · exact suffix_rfl

lemma skipNumber_suffix (s:List UInt8):skipNumber s<:+s:=by
 unfold skipNumber
 split
 · exact tail_suffix s
 · exact dropWhile_suffix _

lemma skipPrecision_suffix (s:List UInt8):skipPrecision s<:+s:=by
 unfold skipPrecision
 split
 · exact (skipNumber_suffix _).trans (tail_suffix s)
 · exact suffix_rfl

lemma skipSize_suffix (s:List UInt8):skipSize s<:+s:=by
 unfold skipSize
 split_ifs
 all_goals first
  | exact (skipLetter_suffix _ _).trans (tail_suffix s)
  | exact tail_suffix s
  | exact suffix_rfl

lemma skipConversion_suffix (s:List UInt8):skipConversion s<:+s:=
 (skipSize_suffix _).trans <| (skipPrecision_suffix _).trans <|
  (skipNumber_suffix _).trans (dropWhile_suffix _)

/-- The format ends inside a conversion. -/
def cutOff:List UInt8→Bool
 | []=>false
 | c::s=>
  if c≠byte '%' then cutOff s
  else if s.head?=some (byte '%') then cutOff s.tail
  else if skipConversion s=[] then true
  else cutOff (skipConversion s).tail
 termination_by s=>s.length
 decreasing_by
 · simp
 · simp only[length_tail,length_cons]
   omega
 · have shorter:=(skipConversion_suffix s).length_le
   simp only[length_tail,length_cons]
   omega

variable {mem:ℕ→UInt8}{turns z p:ℕ}{s:List UInt8}{args:Args}{c:UInt8}

lemma Ends.length (h:Ends mem z p s):p+s.length=z:=by
 induction s generalizing p with
 | nil=>exact h.1
 | cons c s ih=>
  have rest:=ih h.2.2
  rw[length_cons]
  omega

lemma Ends.head_iff (h:Ends mem z p s)(ne:c≠0):mem p=c ↔ s.head?=some c:=by
 cases s with
 | nil=>
  rw[h.2,head?_nil]
  exact iff_of_false ne.symm nofun
 | cons d s=>
  rw[h.2.1,head?_cons,Option.some.injEq]

lemma Ends.tail (h:Ends mem z p s)(head:s.head?=some c):Ends mem z (p+1) s.tail:=by
 cases s with
 | nil=>cases head
 | cons d s=>exact h.2.2

lemma parseFlags_cases (turns:ℕ)(h:Ends mem z p s)(flags:Flags):
 parseFlags mem turns p flags=none ∧ turns ≤ s.length ∨
 ∃f q,parseFlags mem turns p flags=some (f,q) ∧
  Ends mem z q (s.dropWhile fun c=>(noFlags.set c).isSome):=by
 have same (flags:Flags) (c:UInt8):(flags.set c).isSome=(noFlags.set c).isSome:=by
  unfold Flags.set
  split_ifs<;>rfl
 induction turns generalizing p s flags with
 | zero=>exact .inl ⟨rfl,Nat.zero_le _⟩
 | succ turns ih=>
  rw[parseFlags]
  cases s with
  | nil=>
   have none:flags.set (mem p)=none:=by rw[h.2];rfl
   rw[none]
   exact .inr ⟨_,_,rfl,h⟩
  | cons c s=>
   rw[h.2.1]
   cases set:flags.set c with
   | none=>
    refine .inr ⟨_,_,rfl,?_⟩
    rwa[dropWhile_cons_of_neg (by rw[←same flags,set];nofun)]
   | some flags'=>
    rw[dropWhile_cons_of_pos (by rw[←same flags,set];rfl)]
    rcases ih h.2.2 flags' with ⟨out,few⟩|found
    · exact .inl ⟨out,by rw[length_cons];omega⟩
    · exact .inr found

lemma parseDigits_cases (turns:ℕ)(h:Ends mem z p s)(n:ℤ):
 parseDigits mem turns p n=none ∧ turns ≤ s.length ∨
 ∃m q,parseDigits mem turns p n=some (m,q) ∧ Ends mem z q (s.dropWhile isdigit):=by
 induction turns generalizing p s n with
 | zero=>exact .inl ⟨rfl,Nat.zero_le _⟩
 | succ turns ih=>
  rw[parseDigits]
  cases s with
  | nil=>
   rw[if_neg (by rw[h.2];decide)]
   exact .inr ⟨_,_,rfl,h⟩
  | cons c s=>
   rw[h.2.1]
   by_cases digit:isdigit c=true
   · rw[if_pos digit,dropWhile_cons_of_pos digit]
     rcases ih h.2.2 _ with ⟨out,few⟩|found
     · exact .inl ⟨out,by rw[length_cons];omega⟩
     · exact .inr found
   · rw[if_neg digit,dropWhile_cons_of_neg digit]
     exact .inr ⟨_,_,rfl,h⟩

lemma parseNumber_cases (turns:ℕ)(h:Ends mem z p s)(args:Args):
 parseNumber mem turns p args=none ∧ turns ≤ s.length ∨
 ∃n q args',parseNumber mem turns p args=some (n,q,args') ∧ Ends mem z q (skipNumber s):=by
 have star:=h.head_iff (c:=byte '*') (by decide)
 unfold parseNumber skipNumber
 by_cases head:s.head?=some (byte '*')
 · rw[if_pos (star.2 head),if_pos head]
   exact .inr ⟨_,_,_,rfl,h.tail head⟩
 · rw[if_neg fun eq=>head (star.1 eq),if_neg head]
   rcases parseDigits_cases turns h 0 with ⟨out,few⟩|⟨m,q,found,rest⟩
   · exact .inl ⟨by rw[out];rfl,few⟩
   · exact .inr ⟨_,_,_,by rw[found];rfl,rest⟩

lemma parsePrecision_cases (turns:ℕ)(h:Ends mem z p s)(args:Args):
 parsePrecision mem turns p args=none ∧ turns ≤ s.length ∨
 ∃n q args',parsePrecision mem turns p args=some (n,q,args') ∧ Ends mem z q (skipPrecision s):=by
 have dot:=h.head_iff (c:=byte '.') (by decide)
 unfold parsePrecision skipPrecision
 by_cases head:s.head?=some (byte '.')
 · rw[if_pos (dot.2 head),if_pos head]
   rcases parseNumber_cases turns (h.tail head) args with
    ⟨out,few⟩ | ⟨m,q,args',found,rest⟩
   · rw[length_tail] at few
     exact .inl ⟨by rw[out];rfl,by omega⟩
   · exact .inr ⟨_,_,_,by rw[found];rfl,rest⟩
 · rw[if_neg fun eq=>head (dot.1 eq),if_neg head]
   exact .inr ⟨_,_,_,rfl,h⟩

lemma parseSize_ends (h:Ends mem z p s):Ends mem z (parseSize mem p).2 (skipSize s):=by
 have letter {p:ℕ} {s:List UInt8} (h:Ends mem z p s) {c:UInt8} (ne:c≠0) (k l:Size):
   Ends mem z (if mem p=c then (k,p+1) else (l,p)).2 (skipLetter c s):=by
  have iff:=h.head_iff ne
  unfold skipLetter
  split
  · rename_i eq
    rw[if_pos (iff.1 eq)]
    exact h.tail (iff.1 eq)
  · rename_i other
    rwa[if_neg fun head=>other (iff.2 head)]
 unfold parseSize skipSize
 simp only[h.head_iff (show byte 'h'≠0 by decide),h.head_iff (show byte 'j'≠0 by decide),
  h.head_iff (show byte 'l'≠0 by decide),h.head_iff (show byte 't'≠0 by decide),
  h.head_iff (show byte 'z'≠0 by decide)]
 by_cases hh:s.head?=some (byte 'h')
 · rw[if_pos hh,if_pos hh]
   exact letter (h.tail hh) (by decide) .char .short
 rw[if_neg hh,if_neg hh]
 by_cases hj:s.head?=some (byte 'j')
 · rw[if_pos hj,if_pos hj]
   exact h.tail hj
 rw[if_neg hj,if_neg hj]
 by_cases hl:s.head?=some (byte 'l')
 · rw[if_pos hl,if_pos hl]
   exact letter (h.tail hl) (by decide) .longlong .long
 rw[if_neg hl,if_neg hl]
 by_cases ht:s.head?=some (byte 't')
 · rw[if_pos ht,if_pos ht]
   exact h.tail ht
 rw[if_neg ht,if_neg ht]
 by_cases hz:s.head?=some (byte 'z')
 · rw[if_pos hz,if_pos hz]
   exact h.tail hz
 · rwa[if_neg hz,if_neg hz]

lemma parseConversion_cases (turns:ℕ)(h:Ends mem z p s)(args:Args):
 parseConversion mem turns p args=none ∧ turns ≤ s.length ∨
 ∃c q args',parseConversion mem turns p args=some (c,q,args') ∧ Ends mem z q (skipConversion s):=by
 have flags:=(dropWhile_suffix (l:=s) fun c=>(noFlags.set c).isSome).length_le
 rcases parseFlags_cases turns h noFlags with ⟨out,few⟩|⟨f,q₁,flagged,h₁⟩
 · exact .inl ⟨by rw[parseConversion,out];rfl,few⟩
 have width:=(skipNumber_suffix (s.dropWhile fun c=>(noFlags.set c).isSome)).length_le
 rcases parseNumber_cases turns h₁ args with ⟨out,few⟩|⟨n,q₂,args₂,read,h₂⟩
 · refine .inl ⟨?_,by omega⟩
   simp only[parseConversion,flagged,out,Option.bind_eq_bind,Option.bind_some,Option.bind_none]
 rcases parsePrecision_cases turns h₂ args₂ with ⟨out,few⟩|⟨m,q₃,args₃,precise,h₃⟩
 · refine .inl ⟨?_,by omega⟩
   simp only[parseConversion,flagged,read,out,Option.bind_eq_bind,Option.bind_some,Option.bind_none]
 · have parsed:∃c,parseConversion mem turns p args=some (c,(parseSize mem q₃).2,args₃):=by
    simp only[parseConversion,flagged,read,precise,Option.bind_eq_bind,Option.bind_some]
    exact ⟨_,rfl⟩
   obtain ⟨c,eq⟩:=parsed
   exact .inr ⟨c,_,args₃,eq,parseSize_ends h₃⟩

lemma mem_of_reads {l:List ℕ}(run:reads mem turns p args=some l):p∈l:=by
 cases turns with
 | zero=>cases run
 | succ turns=>
  simp only[reads,Option.bind_eq_bind,Option.pure_def] at run
  split_ifs at run
  · cases run
    exact mem_cons_self
  all_goals
   simp only[Option.bind_eq_some_iff,Option.some.injEq] at run
  · obtain ⟨_,-,rfl⟩:=run
    exact mem_cons_self
  · obtain ⟨_,-,rfl⟩:=run
    exact mem_cons_self
  · obtain ⟨_,-,_,-,rfl⟩:=run
    exact mem_cons_self

/-- A format that is not cut off is read up to its terminator, and one that is beyond it. -/
lemma reads_spec (turns:ℕ)(h:Ends mem z p s)(args:Args):
 (cutOff s=false → s.length<turns → ∃l w,reads mem turns p args=some l ∧ (∀q∈l,q≤z) ∧
  vprintfChars mem turns p args=some w) ∧
 (cutOff s=true → ∀l,reads mem turns p args=some l → z+1∈l):=by
 induction turns generalizing p s args with
 | zero=>exact ⟨fun _ few=>absurd few (Nat.not_lt_zero _),fun _ l run=>by cases run⟩
 | succ turns ih=>
  have length:=h.length
  rw[reads,vprintfChars]
  cases s with
  | nil=>
   rw[if_pos h.2,if_pos h.2,cutOff]
   exact ⟨fun _ _=>⟨_,_,rfl,by simpa using Nat.le_of_eq h.1,rfl⟩,nofun⟩
  | cons c s=>
   rw[cutOff]
   rw[length_cons] at length ⊢
   simp only[h.2.1,h.1]
   by_cases plain:c≠byte '%'
   · simp only[if_pos plain]
     obtain ⟨stay,leave⟩:=ih h.2.2 args
     refine ⟨fun whole few=>?_,fun cut l run=>?_⟩
     · obtain ⟨l,w,run,inside,chars⟩:=stay whole (by omega)
       rw[run,chars]
       exact ⟨_,_,rfl,forall_mem_cons.2 ⟨by omega,inside⟩,rfl⟩
     · obtain ⟨l',rest,eq⟩:=Option.bind_eq_some_iff.1 run
       cases eq
       exact mem_cons_of_mem _ (leave cut l' rest)
   have percent:=h.2.2.head_iff (show byte '%'≠0 by decide)
   by_cases twice:s.head?=some (byte '%')
   · simp only[if_neg plain,if_pos twice,if_pos (percent.2 twice)]
     have next:=h.2.2.tail twice
     obtain ⟨stay,leave⟩:=ih next args
     rw[length_tail] at stay
     refine ⟨fun whole few=>?_,fun cut l run=>?_⟩
     · obtain ⟨l,w,run,inside,chars⟩:=stay whole (by omega)
       rw[run,chars]
       exact ⟨_,_,rfl,forall_mem_cons.2 ⟨by omega,forall_mem_cons.2 ⟨by omega,inside⟩⟩,rfl⟩
     · obtain ⟨l',rest,eq⟩:=Option.bind_eq_some_iff.1 run
       cases eq
       exact mem_cons_of_mem _ (mem_cons_of_mem _ (leave cut l' rest))
   have other:mem (p+1)≠byte '%':=fun eq=>twice (percent.1 eq)
   simp only[if_neg plain,if_neg twice,if_neg other]
   have shorter:=(skipConversion_suffix s).length_le
   rcases parseConversion_cases turns h.2.2 args with ⟨out,few⟩|⟨k,q,args',parsed,rest⟩
   · rw[out]
     exact ⟨fun _ enough=>by omega,fun _ l run=>by cases run⟩
   have upto:=rest.length
   simp only[parsed,Option.bind_eq_bind,Option.bind_some]
   cases eq:skipConversion s with
   | nil=>
    -- the conversion character is the terminator, and the loop goes on behind it
    rw[eq] at rest
    refine ⟨fun whole=>absurd whole (by simp),fun _ l run=>?_⟩
    obtain ⟨l',after,eq⟩:=Option.bind_eq_some_iff.1 run
    cases eq
    rw[←rest.1]
    exact mem_cons_of_mem _ (mem_append_right _ (mem_of_reads after))
   | cons d t=>
    rw[eq] at rest shorter upto
    rw[length_cons] at shorter upto
    obtain ⟨stay,leave⟩:=ih rest.2.2 (convert mem (mem q) k args').2
    simp only[reduceCtorEq,if_false]
    refine ⟨fun whole few=>?_,fun cut l run=>?_⟩
    · obtain ⟨l,w,run,inside,chars⟩:=stay whole (by omega)
      rw[run,chars]
      refine ⟨_,_,rfl,forall_mem_cons.2 ⟨by omega,fun x mem=>?_⟩,rfl⟩
      rcases mem_append.1 mem with range|rest
      · have:=mem_range'_1.1 range
        omega
      · exact inside x rest
    · obtain ⟨l',after,eq⟩:=Option.bind_eq_some_iff.1 run
      cases eq
      exact mem_cons_of_mem _ (mem_append_right _ (leave cut l' after))

/-- `parse_conversion` stays inside the format, and `__vprintf` does unless the format ends inside
a conversion. -/
theorem format_read_iff {format:ℕ}(h:Ends mem z format s)(args:Args):
 (∀p t args,Ends mem z p t → ∃turns c q args',
   parseConversion mem turns p args=some (c,q,args') ∧ q≤z) ∧
 ((∃turns l w,reads mem turns format args=some l ∧ (∀q∈l,q≤z) ∧
   vprintfChars mem turns format args=some w) ↔ cutOff s=false):=by
 refine ⟨fun p t args at_=>?_,?_⟩
 · rcases parseConversion_cases (t.length+1) at_ args with
    ⟨-,few⟩ | ⟨c,q,args',parsed,rest⟩
   · omega
   · exact ⟨_,c,q,args',parsed,by have:=rest.length;omega⟩
 · constructor
   · rintro ⟨turns,l,w,run,inside,-⟩
     by_contra cut
     have beyond:=inside _ ((reads_spec turns h args).2 (by simpa using cut) l run)
     omega
   · intro whole
     exact ⟨_,(reads_spec _ h args).1 whole (Nat.lt_succ_self _)⟩

theorem format_read_iff_int:
 ∃turns l w,reads (literal "%d") turns 0 ⟨fun _=>0,0⟩=some l ∧ (∀q∈l,q≤2) ∧
  vprintfChars (literal "%d") turns 0 ⟨fun _=>0,0⟩=some w:=by
 have ends:Ends (literal "%d") 2 0 (text "%d"):=⟨by decide,rfl,by decide,rfl,rfl,rfl⟩
 have kind:skipConversion [byte 'd']=[byte 'd']:=rfl
 have other:byte 'd'≠byte '%':=by decide
 refine (format_read_iff ends _).2.2 ?_
 simp[cutOff,text,kind,other]

/-- The loop steps over the terminator of `"%"` and reads the byte behind it. -/
theorem cut_off_read:Ends (literal "%") 1 0 (text "%") ∧
 reads (literal "%") 3 0 ⟨fun _=>0,0⟩=some [0,1,2]:=
 ⟨⟨by decide,rfl,rfl,rfl⟩,rfl⟩

end Pintos.Printf
