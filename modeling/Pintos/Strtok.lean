import Mathlib.Data.List.TakeWhile
import Pintos.Process

/-!
# strtok_r

`strtok_r` of `lib/string.c` on a buffer, in which it puts a null byte behind each token. A loop
that leaves the buffer, which has no meaning in the source, has no result.
-/
namespace Pintos.Strtok
open List Option Process

section
variable (delimiters buf:List UInt8)

/-- `strchr` also finds the null byte at the end of the delimiters. -/
def strchr (c:UInt8):Bool:=decide (c∈delimiters ∨ c=0)

def advance (go:UInt8→Bool):ℕ→ℕ→Option ℕ
 | 0,_=>none
 | turns+1,s=>
  match buf[s]? with
  | none=>none
  | some c=>if go c then advance go turns (s+1) else some s

/-- The first loop: it stops at a null byte too. -/
def skip (s:ℕ):Option ℕ:=advance buf (fun c=>strchr delimiters c && decide (c≠0)) (buf.length+1) s

def scan (s:ℕ):Option ℕ:=advance buf (fun c=>!strchr delimiters c) (buf.length+1) s

/-- The token, the buffer and `*save_ptr`. -/
def strtokR (s:ℕ):Option (Option ℕ×List UInt8×ℕ):=
 (skip delimiters buf s).bind fun token=>
  if buf[token]?=some 0 then some (none,buf,token)
  else
   (scan delimiters buf token).map fun s=>
    if buf[s]?=some 0 then (some token,buf,s) else (some token,buf.set s 0,s+1)

def cstring (s:ℕ):List UInt8:=(buf.drop s).takeWhile (· ≠ 0)

end

/-- The strings that a loop over the tokens sees. -/
def strtokAll (delimiters:List UInt8):ℕ→List UInt8→ℕ→Option (List (List UInt8))
 | 0,_,_=>none
 | turns+1,buf,s=>
  (strtokR delimiters buf s).bind fun r=>
   match r with
   | (none,_,_)=>some []
   | (some token,buf,savePtr)=>
    (strtokAll delimiters turns buf savePtr).map (cstring buf token :: ·)

section
variable {l run tail:List UInt8}{c:UInt8}{go:UInt8→Bool}{n:ℕ}

lemma getElem?_place (l tail:List UInt8)(c:UInt8):(l++c::tail)[l.length]?=some c:=by
 rw[getElem?_append_right (Nat.le_refl _),Nat.sub_self,getElem?_cons_zero]

lemma advance_spec (all:∀d∈run,go d=true)(stop:go c=false)(enough:run.length<n):
 advance (l++run++c::tail) go n l.length=some (l++run).length:=by
 obtain ⟨n,rfl⟩:∃m,n=m+1:=⟨n-1,by omega⟩
 induction run generalizing l n with
 | nil=>
  rw[append_nil,advance,getElem?_place]
  simp only[stop,Bool.false_eq_true,if_false]
 | cons d run ih=>
  obtain ⟨first,rest⟩:=forall_mem_cons.1 all
  rw[length_cons] at enough
  obtain ⟨n,rfl⟩:∃m,n=m+1:=⟨n-1,by omega⟩
  have shape:l++d::run=l++[d]++run:=by simp
  have place:(l++d::run++c::tail)[l.length]?=some d:=by
   rw[append_assoc,cons_append,getElem?_place]
  rw[advance,place]
  simp only[if_pos first]
  have more:=ih (l:=l++[d]) rest n (by omega)
  rw[length_append,length_singleton] at more
  rw[shape,more]

lemma cstring_spec (nonzero:0∉run):cstring (l++run++0::tail) l.length=run:=by
 rw[cstring,append_assoc,drop_left,takeWhile_append_of_pos]
 · simp
 · intro b mem
   exact decide_eq_true fun zero=>nonzero (zero▸mem)

end
variable {delimiters l ds token line tail:List UInt8}{d:UInt8}

def words (delimiters line:List UInt8):List (List UInt8):=
 (line.splitOnP (fun c=>decide (c∈delimiters))).filter (· ≠ [])

lemma words_skip (all:∀d∈ds,d∈delimiters):words delimiters (ds++line)=words delimiters line:=by
 induction ds with
 | nil=>rfl
 | cons d ds ih=>
  obtain ⟨first,rest⟩:=forall_mem_cons.1 all
  rw[←ih rest,cons_append,words,splitOnP_cons_eq_if_modifyHead,if_pos (decide_eq_true first)]
  rfl

lemma words_last (some_:token≠[])(free:∀c∈token,c∉delimiters):words delimiters token=[token]:=by
 rw[words,splitOnP_eq_singleton (by simpa using free)]
 simp[some_]
lemma words_first (some_:token≠[])(free:∀c∈token,c∉delimiters)(delimiter:d∈delimiters):
 words delimiters (token++d::line)=token::words delimiters line:=by
 rw[words,splitOnP_append_cons_of_forall_mem (by simpa using free) d (decide_eq_true delimiter)]
 simp[some_,words]

lemma skip_spec {c:UInt8}(all:∀d∈ds,d∈delimiters ∧ d≠0)(stop:c∉delimiters ∨ c=0):
 skip delimiters (l++ds++c::tail) l.length=some (l++ds).length:=by
 refine advance_spec (fun d mem=>?_) ?_ ?_
 · simp[strchr,all d mem]
 · rcases stop with free|rfl
   · by_cases zero:c=0<;>simp[strchr,free]
   · simp
 · simp only[length_append]
   omega

lemma scan_spec {c:UInt8}(free:∀d∈token,d∉delimiters ∧ d≠0)(stop:c∈delimiters ∨ c=0):
 scan delimiters (l++token++c::tail) l.length=some (l++token).length:=by
 refine advance_spec (fun d mem=>?_) ?_ ?_
 · simp[strchr,free d mem]
 · simp[strchr,stop]
 · simp only[length_append]
   omega

lemma strtokR_none (all:∀d∈ds,d∈delimiters ∧ d≠0):strtokR delimiters (l++ds++0::tail) l.length=
  some (none,l++ds++0::tail,(l++ds).length):=by
 rw[strtokR,skip_spec all (.inr rfl),bind_some,getElem?_place,if_pos rfl]

lemma strtokR_some (all:∀d∈ds,d∈delimiters ∧ d≠0)(some_:token≠[])
 (free:∀d∈token,d∉delimiters ∧ d≠0)(stop:d∈delimiters ∨ d=0):
 strtokR delimiters (l++ds++token++d::tail) l.length=
  some (some (l++ds).length,l++ds++token++0::tail,(l++ds++token).length+if d=0 then 0 else 1):=by
 obtain ⟨c,rest,rfl⟩:=exists_cons_of_ne_nil some_
 obtain ⟨first,-⟩:=forall_mem_cons.1 free
 have start:l++ds++c::rest++d::tail=l++ds++c::(rest++d::tail):=by simp
 have skipped:skip delimiters (l++ds++c::rest++d::tail) l.length=some (l++ds).length:=by
  rw[start,skip_spec all (.inl first.1)]
 have here:(l++ds++c::rest++d::tail)[(l++ds).length]?=some c:=by
  rw[start,getElem?_place]
 rw[strtokR,skipped,bind_some,here,if_neg (by simpa using first.2),
  scan_spec free stop,map_some,getElem?_place]
 by_cases zero:d=0
 · subst zero
   simp
 · simp[zero]

lemma exists_run (p:UInt8→Prop)[DecidablePred p](line:List UInt8):
 ∃run rest,line=run++rest ∧ (∀c∈run,p c) ∧ (rest=[] ∨ ∃c rest',rest=c::rest' ∧ ¬p c):=by
 induction line with
 | nil=>exact ⟨[],[],rfl,nofun,.inl rfl⟩
 | cons c line ih=>
  by_cases first:p c
  · obtain ⟨run,rest,rfl,all,stop⟩:=ih
    exact ⟨c::run,rest,rfl,forall_mem_cons.2 ⟨first,all⟩,stop⟩
  · exact ⟨[],c::line,rfl,nofun,.inr ⟨c,line,rfl,first⟩⟩

lemma line_cases (delimiters line:List UInt8):
 (∀d∈line,d∈delimiters) ∨ ∃ds token rest,line=ds++(token++rest) ∧
  (∀d∈ds,d∈delimiters) ∧ token≠[] ∧ (∀c∈token,c∉delimiters) ∧
  (rest=[] ∨ ∃d line',rest=d::line' ∧ d∈delimiters):=by
 obtain ⟨ds,rest,rfl,all,stop⟩:=exists_run (· ∈ delimiters) line
 rcases stop with rfl|⟨c,more,rfl,first⟩
 · rw[append_nil]
   exact .inl all
 obtain ⟨token,rest,split,free,stop⟩:=exists_run (· ∉ delimiters) (c::more)
 refine .inr ⟨ds,token,rest,by rw[split],all,?_,free,?_⟩
 · rintro rfl
   rcases stop with rfl|⟨d,rest',rfl,inside⟩
   · cases split
   · obtain ⟨rfl,-⟩:=List.cons.inj split
     exact inside first
 · exact stop.imp_right fun ⟨d,line',eq,inside⟩=>⟨d,line',eq,not_not.1 inside⟩

/-- A byte of the string is as it was, or a null byte now. -/
def Terminated:List UInt8→List UInt8→Prop:=Forall₂ fun a b=>b=a ∨ b=0

lemma terminated_self (s:List UInt8):Terminated s s:=forall₂_same.2 fun _ _=>.inl rfl

lemma words_token {rest:List UInt8}(some_:token≠[])(free:∀c∈token,c∉delimiters)
 (ends:rest=[] ∨ ∃d line',rest=d::line' ∧ d∈delimiters):
 words delimiters (token++rest)=token::words delimiters rest.tail:=by
 rcases ends with rfl|⟨d,line',rfl,inside⟩
 · rw[append_nil,words_last some_ free]
   rfl
 · exact words_first some_ free inside

/-- A call on what is left of a string, and where it leaves the rest. The bytes before `line`, which
earlier calls may have changed, are not read again. -/
lemma strtokR_line (delimiters l tail:List UInt8)(nonzero:0∉line):
 ((∀d∈line,d∈delimiters) ∧ strtokR delimiters (l++line++0::tail) l.length=
  some (none,l++line++0::tail,(l++line).length)) ∨
 ∃ds token rest,line=ds++(token++rest) ∧ (∀d∈ds,d∈delimiters) ∧ token≠[] ∧
  (∀c∈token,c∉delimiters) ∧ (rest=[] ∨ ∃d line',rest=d::line' ∧ d∈delimiters) ∧ ∃stop,
  strtokR delimiters (l++line++0::tail) l.length=
   some (some (l++ds).length,l++ds++token++stop++rest.tail++0::tail,(l++ds++token++stop).length) ∧
  ∀t,Terminated rest.tail t → Terminated rest (stop++t) ∧
   cstring (l++ds++token++stop++t++0::tail) (l++ds).length=token:=by
 have bytes:∀c∈line,c≠0:=fun c mem zero=>nonzero (zero▸mem)
 rcases line_cases delimiters line with all|⟨ds,token,rest,rfl,all,some_,free,ends⟩
 · exact .inl ⟨all,strtokR_none fun d mem=>⟨all d mem,bytes d mem⟩⟩
 refine .inr ⟨ds,token,rest,rfl,all,some_,free,ends,?_⟩
 obtain ⟨dsBytes,bytes⟩:=forall_mem_append.1 bytes
 obtain ⟨tokenBytes,bytes⟩:=forall_mem_append.1 bytes
 replace all:∀d∈ds,d∈delimiters ∧ d≠0:=fun d mem=>⟨all d mem,dsBytes d mem⟩
 replace free:∀c∈token,c∉delimiters ∧ c≠0:=fun c mem=>⟨free c mem,tokenBytes c mem⟩
 have string (tail:List UInt8):cstring (l++ds++token++0::tail) (l++ds).length=token:=
  cstring_spec fun zero=>tokenBytes 0 zero rfl
 rcases ends with rfl|⟨d,line',rfl,inside⟩
 · have call:strtokR delimiters (l++ds++token++0::tail) l.length=_:=
    strtokR_some all some_ free (.inr rfl)
   refine ⟨[],by simpa using call,fun t same=>⟨same,?_⟩⟩
   obtain rfl:=forall₂_nil_left_iff.1 same
   simpa using string tail
 · have call:strtokR delimiters (l++ds++token++d::(line'++0::tail)) l.length=_:=
    strtokR_some all some_ free (.inl inside)
   rw[if_neg (bytes d mem_cons_self)] at call
   refine ⟨[0],by simpa[Nat.add_assoc] using call,fun t same=>⟨.cons (.inr rfl) same,?_⟩⟩
   simpa using string (t++0::tail)

lemma strtokAll_some {turns:ℕ}{buf buf':List UInt8}{s token savePtr:ℕ}
 (call:strtokR delimiters buf s=some (some token,buf',savePtr)):
 strtokAll delimiters (turns+1) buf s=
  (strtokAll delimiters turns buf' savePtr).map (cstring buf' token :: ·):=by
 rw[strtokAll,call]
 rfl

/-- The loop over the tokens sees the words, in order. -/
lemma strtokAll_from {turns:ℕ}(nonzero:0∉line)(enough:line.length<turns):
 strtokAll delimiters turns (l++line++0::tail) l.length=some (words delimiters line):=by
 induction turns generalizing l line with
 | zero=>omega
 | succ n ih=>
  rcases strtokR_line delimiters l tail nonzero with
   ⟨all,call⟩ | ⟨ds,token,rest,rfl,all,some_,free,ends,stop,call,left⟩
  · rw[strtokAll,call,←append_nil line,words_skip all]
    rfl
  · have long:=length_pos_of_ne_nil some_
    have more:0∉rest.tail:=fun zero=>nonzero (by simp[mem_of_mem_tail zero])
    simp only[length_append] at enough
    rw[strtokAll_some call,(left _ (terminated_self _)).2,ih more (by rw[length_tail];omega),
     words_skip all,words_token some_ free ends]
    rfl

lemma words_blank (line:List UInt8):words [Process.blank] line=Process.tokens line:=by
 have same:(fun c:UInt8=>decide (c∈[blank]))=(· == blank):=by
  simp only[mem_singleton]
  rfl
 rw[words,same,tokens,splitOn]

lemma mem_of_mem_splitOnP {p:UInt8→Bool}{t:List UInt8}{c:UInt8}
 (piece:t∈line.splitOnP p)(mem:c∈t):c∈line:=by
 induction line generalizing t with
 | nil=>
  obtain rfl:=mem_singleton.1 piece
  exact mem
 | cons b line ih=>
  rw[splitOnP_cons_eq_if_modifyHead] at piece
  split at piece
  · rcases mem_cons.1 piece with rfl|piece
    · cases mem
    · exact mem_cons_of_mem b (ih piece mem)
  · obtain ⟨first,rest,split⟩:=exists_cons_of_ne_nil (splitOnP_ne_nil p line)
    rw[split] at ih
    rw[split,modifyHead_cons] at piece
    rcases mem_cons.1 piece with rfl|piece
    · rcases mem_cons.1 mem with rfl|mem
      · exact mem_cons_self
      · exact mem_cons_of_mem b (ih mem_cons_self mem)
    · exact mem_cons_of_mem b (ih (mem_cons_of_mem first piece) mem)

lemma mem_of_mem_tokens {t:List UInt8}{c:UInt8}(token:t∈Process.tokens line)(mem:c∈t):c∈line:=
 mem_of_mem_splitOnP (mem_of_mem_filter token) mem

lemma strtokAll_tokens (nonzero:0∉line)(tail:List UInt8):
 strtokAll [blank] (line.length+1) (line++0::tail) 0=some (tokens line):=by
 have all:strtokAll [blank] (line.length+1) ([]++line++0::tail) 0=
   some (words [blank] line):=strtokAll_from nonzero (Nat.lt_succ_self _)
 rwa[words_blank] at all

/-- Calls on one string, the first of them with the string itself and the others with a null
pointer; each has its own delimiters. -/
def strtokCalls:List (List UInt8)→List UInt8→ℕ→Option (List (Option ℕ)×List UInt8×ℕ)
 | [],buf,s=>some ([],buf,s)
 | delimiters::sets,buf,s=>do
  let (token,buf,savePtr)←strtokR delimiters buf s
  let (tokens,r)←strtokCalls sets buf savePtr
  return (token::tokens,r)

/-- What a call leaves of the string for the next one. -/
def afterToken (line delimiters:List UInt8):List UInt8:=
 ((line.dropWhile (· ∈ delimiters)).dropWhile (· ∉ delimiters)).tail

/-- Where the token of each call begins in a string that ends at `stop`, and what it is. -/
def tokensOf (stop:ℕ):List (List UInt8)→List UInt8→List (Option (ℕ×List UInt8))
 | [],_=>[]
 | delimiters::sets,line=>
  let rest:=line.dropWhile (· ∈ delimiters)
  (if rest=[] then none else some (stop-rest.length,rest.takeWhile (· ∉ delimiters))) ::
   tokensOf stop sets (afterToken line delimiters)

variable {rest:List UInt8}{stop:ℕ}{sets:List (List UInt8)}

lemma tokensOf_blank (stop:ℕ)(sets:List (List UInt8))(all:∀d∈line,d∈delimiters):
 tokensOf stop (delimiters::sets) line=none::tokensOf stop sets [] ∧ afterToken line delimiters=[]:=by
 have none_:line.dropWhile (· ∈ delimiters)=[]:=dropWhile_eq_nil_iff.2 (by simpa using all)
 simp[tokensOf,afterToken,none_]

lemma tokensOf_token (stop:ℕ)(sets:List (List UInt8))(all:∀d∈ds,d∈delimiters)
 (some_:token≠[])(free:∀c∈token,c∉delimiters)
 (ends:rest=[] ∨ ∃d line',rest=d::line' ∧ d∈delimiters):
 tokensOf stop (delimiters::sets) (ds++(token++rest))=
  some (stop-(token++rest).length,token)::tokensOf stop sets rest.tail ∧
 afterToken (ds++(token++rest)) delimiters=rest.tail:=by
 have blanks:(ds++(token++rest)).dropWhile (· ∈ delimiters)=token++rest:=by
  rw[dropWhile_append_of_pos (by simpa using all)]
  obtain ⟨c,more,rfl⟩:=exists_cons_of_ne_nil some_
  exact dropWhile_cons_of_neg (by simpa using free c mem_cons_self)
 have word:(token++rest).takeWhile (· ∉ delimiters)=token ∧
   (token++rest).dropWhile (· ∉ delimiters)=rest:=by
  rw[takeWhile_append_of_pos (by simpa using free),dropWhile_append_of_pos (by simpa using free)]
  rcases ends with rfl|⟨d,line',rfl,inside⟩<;>simp[*]
 rw[tokensOf,afterToken,blanks,word.1,word.2,if_neg (by simp[some_])]
 exact ⟨rfl,rfl⟩

lemma tokensOf_append (sets':List (List UInt8)):tokensOf stop (sets++sets') line=
  tokensOf stop sets line++tokensOf stop sets' (sets.foldl afterToken line):=by
 induction sets generalizing line with
 | nil=>rfl
 | cons d sets ih=>
  rw[cons_append,tokensOf,ih]
  rfl

lemma tokensOf_replicate (n:ℕ):(tokensOf stop (replicate n delimiters) line).map (Option.map Prod.snd)=
  ((words delimiters line).map some++replicate n none).take n:=by
 induction n generalizing line with
 | zero=>rfl
 | succ n ih=>
  rw[replicate_succ]
  rcases line_cases delimiters line with all|⟨ds,token,rest,rfl,all,some_,free,ends⟩
  · have none_:words delimiters line=[]:=by
     rw[←append_nil line,words_skip all]
     rfl
    rw[(tokensOf_blank _ _ all).1,none_,map_cons,ih]
    simp[words,replicate_succ]
  · rw[(tokensOf_token _ _ all some_ free ends).1,words_skip all,map_cons,ih]
    simp[words_token some_ free ends,replicate_succ',take_append]

def Written (buf:List UInt8)(tokens:List (Option (ℕ×List UInt8))):Prop:=
 ∀x∈tokens,∀token∈x,token.2≠[] ∧ cstring buf token.1=token.2

lemma strtokCalls_cons {buf buf':List UInt8}{s p:ℕ}{token:Option ℕ}{tokens:List (Option ℕ)}
 {r:List UInt8×ℕ}(call:strtokR delimiters buf s=some (token,buf',p))
 (more:strtokCalls sets buf' p=some (tokens,r)):
 strtokCalls (delimiters::sets) buf s=some (token::tokens,r):=by
 simp[strtokCalls,call,more]

lemma Written.cons {buf:List UInt8}{token:ℕ×List UInt8}{tokens:List (Option (ℕ×List UInt8))}
 (some_:token.2≠[])(string:cstring buf token.1=token.2)(h:Written buf tokens):
 Written buf (some token::tokens):=by
 refine forall_mem_cons.2 ⟨?_,h⟩
 rintro _ ⟨⟩
 exact ⟨some_,string⟩

lemma strtokCalls_spec (l line:List UInt8)(nonzero:0∉line)(hs:stop=l.length+line.length):
 ∃t,strtokCalls sets (l++line++0::tail) l.length=
  some ((tokensOf stop sets line).map (Option.map Prod.fst),l++t++0::tail,
   stop-(sets.foldl afterToken line).length) ∧ Terminated line t ∧
  Written (l++t++0::tail) (tokensOf stop sets line):=by
 induction sets generalizing l line with
 | nil=>exact ⟨line,by simp[strtokCalls,tokensOf,hs],terminated_self _,by simp[Written,tokensOf]⟩
 | cons delimiters sets ih=>
  rcases strtokR_line delimiters l tail nonzero with
   ⟨all,call⟩ | ⟨ds,token,rest,rfl,all,some_,free,ends,z,call,left⟩
  · obtain ⟨tokens,after⟩:=tokensOf_blank stop sets all
    obtain ⟨t,more,same,written⟩:=ih (l++line) [] nofun (by simp[hs])
    obtain rfl:=forall₂_nil_left_iff.1 same
    rw[append_nil] at more written
    rw[tokens,foldl_cons,after]
    exact ⟨line,strtokCalls_cons call more,terminated_self _,forall_mem_cons.2 ⟨nofun,written⟩⟩
  obtain ⟨tokens,after⟩:=tokensOf_token stop sets all some_ free ends
  have size:=((left _ (terminated_self _)).1).length_eq
  simp only[length_append] at hs size
  obtain ⟨t,more,same,written⟩:=ih (l++ds++token++z) rest.tail
   (fun zero=>nonzero (by simp[mem_of_mem_tail zero])) (by simp only[length_append];omega)
  obtain ⟨ended,string⟩:=left t same
  have place:stop-(token++rest).length=(l++ds).length:=by
   simp only[length_append]
   omega
  have shape:l++(ds++(token++(z++t)))++0::tail=l++ds++token++z++t++0::tail:=by simp
  rw[tokens,place,foldl_cons,after]
  refine ⟨ds++(token++(z++t)),?_,?_,?_⟩
  · simpa[shape] using strtokCalls_cons call more
  · exact rel_append (terminated_self _) (rel_append (terminated_self _) ended)
  · rw[shape]
    exact .cons some_ string written

/-- `strtok_r` splits a string as its delimiters say at each call, and writes null bytes into it
only. What the calls leave is split into its words by further calls with one set. -/
theorem strtok_splits {s tail:List UInt8}(nonzero:0∉s)(sets:List (List UInt8)):
 ∃t,strtokCalls sets (s++0::tail) 0=
  some ((tokensOf s.length sets s).map (Option.map Prod.fst),t++0::tail,
   s.length-(sets.foldl afterToken s).length) ∧ Terminated s t ∧
  Written (t++0::tail) (tokensOf s.length sets s) ∧
  ∀n delimiters,(tokensOf s.length (sets++replicate n delimiters) s).map (Option.map Prod.snd)=
   (tokensOf s.length sets s).map (Option.map Prod.snd) ++
    ((words delimiters (sets.foldl afterToken s)).map some++replicate n none).take n:=by
 obtain ⟨t,calls,same,written⟩:=strtokCalls_spec [] s nonzero (Nat.zero_add _).symm
 refine ⟨t,calls,same,written,fun n delimiters=>?_⟩
 rw[tokensOf_append,map_append,tokensOf_replicate]

/-- The set changes after the first token of ` ab c,d`. -/
theorem strtok_splits_two:∃t,strtokCalls [[32],[44],[44],[44]] [32,97,98,32,99,44,100,0] 0=
  some ([some 1,some 4,some 6,none],t++[0],7):=by
 obtain ⟨t,calls,-⟩:= @strtok_splits [32,97,98,32,99,44,100] [] (by decide) [[32],[44],[44],[44]]
 exact ⟨t,calls⟩

end Pintos.Strtok
