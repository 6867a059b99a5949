import Pintos.ArgumentPushes
import Pintos.Spawning
import Pintos.Strtok

/-!
# The arguments on the stack

`setup_stack` pushes blocks of bytes, each right below the one before, from `PHYS_BASE` down. What
it leaves is one string of bytes that ends there, from which a program reads its arguments.
-/
namespace Pintos.ArgumentStack
open ExecHoare Interaction Paging PageMaps Process ElfImage ByteWords List
open Spawning (below below_toNat below_add userBytes userBytes_eq stringBytes argBytes_eq
 argBytes_le wordOf)

section

def writeBytes (byte:Addr→UInt8)(a:Addr)(bytes:List UInt8):Addr→UInt8:=fun x=>
 if (x-a).toNat<bytes.length then bytes.getD (x-a).toNat 0 else byte x
def Top (byte:Addr→UInt8)(content:List UInt8):Prop:=
 ∀i,i<content.length → byte (below (content.length-i))=content.getD i 0

variable {byte:Addr→UInt8}{content:List UInt8}

lemma writeBytes_below {bytes:List UInt8}{d e:ℕ}(fits:d+bytes.length≤userBytes)(high:e≤userBytes):
 writeBytes byte (below (d+bytes.length)) bytes (below e)=
  if d<e ∧ e≤d+bytes.length then bytes.getD (d+bytes.length-e) 0
  else byte (below e):=by
 have index:(below e-below (d+bytes.length)).toNat=
   if e≤d+bytes.length then d+bytes.length-e else 2^32+(d+bytes.length)-e:=by
  rw[UInt32.toNat_sub,below_toNat fits,below_toNat high]
  rw[userBytes_eq] at *
  split<;>omega
 rw[writeBytes,index]
 rw[userBytes_eq] at *
 by_cases inside:e≤d+bytes.length
 · rw[if_pos inside]
   by_cases new:d<e
   · rw[if_pos (by omega),if_pos ⟨new,inside⟩]
   · rw[if_neg (by omega),if_neg fun both=>new both.1]
 · rw[if_neg inside,if_neg (by omega),if_neg fun both=>inside both.2]

lemma Top.push (h:Top byte content)(bytes:List UInt8)(fits:content.length+bytes.length≤userBytes):
 Top (writeBytes byte (below (content.length+bytes.length)) bytes) (bytes++content):=by
 intro i inside
 rw[length_append] at inside ⊢
 rw[writeBytes_below fits (by omega)]
 by_cases new:i<bytes.length
 · rw[if_pos (by omega),getD_append _ _ _ _ new]
   congr 1
   omega
 · rw[if_neg (by omega),getD_append_right _ _ _ _ (by omega),←h _ (by omega)]
   congr 2
   omega

lemma Top.getD (h:Top byte content){l r:List UInt8}(split:content=l++r){i:ℕ}
 (inside:i<r.length):byte (below (r.length-i))=r.getD i 0:=by
 have at_:=h (l.length+i) (by rw[split,length_append];omega)
 rw[split,length_append,getD_append_right _ _ _ _ (by omega)] at at_
 rwa[Nat.add_sub_add_left,Nat.add_sub_cancel_left] at at_

lemma Top.word (h:Top byte content){l r:List UInt8}{n:ℕ}
 (fits:content.length≤userBytes)(split:content=l++(wordBytes n++r))
 (small:n<2^32):wordOf byte (below (content.length-l.length))=UInt32.ofNat n:=by
 have length:(wordBytes n++r).length=4+r.length:=length_append
 have depth:content.length-l.length=4+r.length:=by
  rw[split,length_append,length]
  omega
 rw[depth]
 have at_:∀i,i<4 → byte (below (4+r.length)+UInt32.ofNat i)=wordByte n i:=by
  intro i inside
  have bytes:=h.getD split (i:=i) (by omega)
  rw[below_add (by omega) (by omega),←length,bytes]
  rcases i with _|_|_|_|i
  · rfl
  · rfl
  · rfl
  · rfl
  · omega
 have zero:=at_ 0 (by decide)
 have one:=at_ 1 (by decide)
 have two:=at_ 2 (by decide)
 have three:=at_ 3 (by decide)
 have start:below (4+r.length)+UInt32.ofNat 0=below (4+r.length):=
  below_add (by omega) (Nat.zero_le _)
 rw[start] at zero
 change UInt32.ofNat (ByteWords.word _ (byte (below _+UInt32.ofNat 1))
  (byte (below _+UInt32.ofNat 2)) (byte (below _+UInt32.ofNat 3)))=_
 rw[zero,one,two,three,word_wordByte small]

def StringIs (byte:Addr→UInt8)(a:Addr)(t:List UInt8):Prop:=
 (∀j,j<t.length → byte (a+UInt32.ofNat j)=t.getD j 0) ∧ byte (a+UInt32.ofNat t.length)=0 ∧ 0∉t

/-- What `_start` and `main` find on the stack: a return address, `argc` and `argv`. -/
structure Decodes (byte:Addr→UInt8)(esp:Addr)(ts:List (List UInt8)):Prop where
 return_:wordOf byte esp=0
 argc:wordOf byte (esp+4)=UInt32.ofNat ts.length
 argv:wordOf byte (esp+8)=esp+12
 null:wordOf byte (wordOf byte (esp+8)+UInt32.ofNat (4*ts.length))=0
 strings:∀i t,ts[i]?=some t → StringIs byte (wordOf byte (wordOf byte (esp+8)+UInt32.ofNat (4*i))) t

lemma Top.string (h:Top byte content){r t:List UInt8}(fits:content.length≤userBytes)
 (suffix:t++0::r <:+ content)(nonzero:0∉t):
 StringIs byte (below (t.length+1+r.length)) t:=by
 obtain ⟨l,split⟩:=suffix
 have length:(t++0::r).length=t.length+1+r.length:=by
  rw[length_append,length_cons]
  omega
 rw[←split,length_append,length] at fits
 have at_:∀j,j≤t.length → byte (below (t.length+1+r.length)+UInt32.ofNat j)=(t++0::r).getD j 0:=by
  intro j inside
  rw[below_add (by omega) (by omega),←length,h.getD split.symm (by omega)]
 refine ⟨fun j inside=>?_,?_,nonzero⟩
 · rw[at_ j (by omega),getD_append _ _ _ _ inside]
 · rw[at_ _ (Nat.le_refl _),getD_append_right _ _ _ _ (Nat.le_refl _),Nat.sub_self]
   rfl

def stringsOf (ts:List (List UInt8)):List UInt8:=(ts.map (· ++ [0])).reverse.flatten
def frame (ts:List (List UInt8)):List UInt8:=
 wordBytes 0++(wordBytes ts.length++(wordBytes (below (argvPlace ts)).toNat ++
  ((places ts 0).flatMap (fun a=>wordBytes a.toNat)++(wordBytes 0++stringsOf ts))))
lemma blocks_frame (ts:List (List UInt8)):(blocks ts).reverse.flatten=frame ts:=by
 simp[blocks,frame,vectorWords,stringsOf,flatMap,Function.comp_def]
lemma stringsOf_length (ts:List (List UInt8)):(stringsOf ts).length=stringBytes ts:=by
 rw[stringsOf,←size_strings,size,length_flatten,map_reverse,sum_reverse]
lemma stringsOf_split (ts us:List (List UInt8))(t:List UInt8):
 stringsOf (ts++t::us)=stringsOf us++(t++0::stringsOf ts):=by
 simp[stringsOf]
lemma stringsOf_suffix (ts:List (List UInt8)):stringsOf ts <:+ frame ts:=by
 unfold frame
 simp only[←append_assoc]
 exact suffix_append _ _

lemma flatMap_words_length (as:List Addr):
 (as.flatMap (fun a=>wordBytes a.toNat)).length=4*as.length:=by
 induction as with
 | nil=>rfl
 | cons a as ih=>
  rw[flatMap_cons,length_append,ih,length_cons]
  change 4+_=_
  omega

lemma frame_length (ts:List (List UInt8)):(frame ts).length=stringBytes ts+4*(ts.length+1)+12:=by
 have four:∀n,(wordBytes n).length=4:=fun _=>rfl
 simp only[frame,length_append,four,flatMap_words_length,places_length,stringsOf_length]
 omega

lemma split_at {ts:List (List UInt8)}{i:ℕ}{t:List UInt8}(h:ts[i]?=some t):
 ∃us vs,ts=us++t::vs ∧ us.length=i:=by
 obtain ⟨inside,rfl⟩:=List.getElem?_eq_some_iff.1 h
 refine ⟨ts.take i,ts.drop (i+1),?_,length_take_of_le (by omega)⟩
 rw[←drop_eq_getElem_cons inside,take_append_drop]

variable {ts:List (List UInt8)}

variable (h:Top byte (frame ts))(fits:(frame ts).length≤userBytes)
include h fits

lemma Top.last:wordOf byte (below (frame ts).length)=0 ∧
  wordOf byte (below (frame ts).length+4)=UInt32.ofNat ts.length ∧
  wordOf byte (below (frame ts).length+8)=below (argvPlace ts):=by
 have length:=frame_length ts
 have four:∀n,(wordBytes n).length=4:=fun _=>rfl
 have limit:=userBytes_eq
 have first:=h.word (l:=[]) fits (nil_append _).symm (by decide)
 have second:=h.word (l:=wordBytes 0) fits rfl (by omega)
 have third:=h.word (l:=wordBytes 0++wordBytes ts.length) fits (append_assoc ..).symm (UInt32.toNat_lt _)
 rw[four,←below_add fits (by omega)] at second
 rw[length_append,four,four,UInt32.ofNat_toNat,←below_add fits (by omega)] at third
 exact ⟨first,second,third⟩

lemma Top.vector {p q:List Addr}{n:ℕ}{r:List UInt8}(split:places ts 0=p++q)
 (word:q.flatMap (fun a=>wordBytes a.toNat)++(wordBytes 0++stringsOf ts)=
  wordBytes n++r)(small:n<2^32):
 wordOf byte (below (argvPlace ts)+UInt32.ofNat (4*p.length))=UInt32.ofNat n:=by
 have length:=frame_length ts
 have four:∀n,(wordBytes n).length=4:=fun _=>rfl
 have count:p.length≤ts.length:=by
  rw[←places_length ts 0,split,length_append]
  omega
 have found:=h.word (l:=wordBytes 0++(wordBytes ts.length ++
   (wordBytes (below (argvPlace ts)).toNat++p.flatMap (fun a=>wordBytes a.toNat))))
  (r:=r) fits (by rw[frame,split,flatMap_append,append_assoc,word];simp) small
 have depth:below (argvPlace ts)+UInt32.ofNat (4*p.length)=
   below ((frame ts).length-(4+(4+(4+4*p.length)))):=by
  unfold argvPlace
  rw[below_add (by omega) (by omega),length]
  congr 1
  omega
 simp only[length_append,four,flatMap_words_length] at found
 rw[depth,found]

lemma Top.decodes (nonzero:∀t∈ts,0∉t):Decodes byte (below (frame ts).length) ts:=by
 have length:=frame_length ts
 obtain ⟨first,second,third⟩:=h.last fits
 refine ⟨first,second,?_,?_,?_⟩
 · rw[third]
   refine Eq.trans ?_ (below_add (i:=12) fits (by omega)).symm
   congr 1
   unfold argvPlace
   omega
 · rw[third,←places_length ts 0]
   exact h.vector (q:=[]) fits (append_nil _).symm rfl (by decide)
 · intro i t found
   obtain ⟨us,vs,rfl,rfl⟩:=split_at found
   have places:places (us++t::vs) 0=places us 0 ++
     below (stringBytes us+(t.length+1))::places vs (stringBytes us+(t.length+1)):=by
    rw[places_append,Nat.zero_add,ArgumentStack.places]
   have pointer:=h.vector fits places (by rw[flatMap_cons,append_assoc]) (UInt32.toNat_lt _)
   rw[places_length,UInt32.ofNat_toNat] at pointer
   rw[third,pointer]
   have suffix:=stringsOf_suffix (us++t::vs)
   rw[stringsOf_split] at suffix
   have string:=h.string fits ((suffix_append _ _).trans suffix) (nonzero t (by simp))
   rwa[stringsOf_length,Nat.add_comm] at string

end

def Apart (w v:Addr×List UInt8):Prop:=
 ∀i j,i<w.2.length → j<v.2.length → w.1+UInt32.ofNat i≠v.1+UInt32.ofNat j

lemma mem_pushes {bs:List (List UInt8)}{d:ℕ}{w:Addr×List UInt8}(mem:w∈pushes bs d):
 ∃e,d≤e ∧ e+w.2.length≤d+size bs ∧ w.1=below (e+w.2.length):=by
 induction bs generalizing d with
 | nil=>cases mem
 | cons b bs ih=>
  rw[size_cons]
  rcases mem_cons.1 mem with rfl|mem
  · exact ⟨d,Nat.le_refl _,by dsimp only;omega,rfl⟩
  · obtain ⟨e,low,high,place⟩:=ih mem
    exact ⟨e,by omega,by omega,place⟩

lemma pushes_apart {bs:List (List UInt8)}{d:ℕ}(fits:d+size bs≤userBytes):
 (pushes bs d).Pairwise Apart:=by
 induction bs generalizing d with
 | nil=>exact List.Pairwise.nil
 | cons b bs ih=>
  rw[size_cons,←Nat.add_assoc] at fits
  refine List.Pairwise.cons (fun w mem i j hi hj same=>?_) (ih fits)
  obtain ⟨e,low,high,place⟩:=mem_pushes mem
  dsimp only at hi same
  rw[place,below_add (by omega) (by omega),below_add (by omega) (by omega),
   ← UInt32.toNat_inj,below_toNat (by omega),below_toNat (by omega)] at same
  omega
/-- User memory, and what has been stored there. -/
structure Flat where
 byte:Addr→UInt8
 log:List (Addr×List UInt8)

/-- A kernel with a page for everybody, in which all user memory may be written to. -/
def handleFlat (pd:PageDir):(q:Ask) → Exec Unit Flat q.Answer
 | .store a bytes=>modify fun s=>⟨writeBytes s.byte a bytes,s.log++[(a,bytes)]⟩
 | .palloc _=>pure (some 0)
 | .pallocFree _=>pure ()
 | .pagedir=>pure (some pd)
 | .setPagedir _=>pure ()
 | _=>throw ()

variable {pd:PageDir}{s:Flat}{content:List UInt8}

lemma storeAll_flat {bs:List (List UInt8)}(top:Top s.byte content)
 (fits:content.length+size bs≤userBytes):
 Holds (run (handleFlat pd) (storeAll (pushes bs content.length))) s
  (fun _ s'=>Top s'.byte (bs.reverse.flatten++content) ∧
   s'.log=s.log++pushes bs content.length) NoFault:=by
 induction bs generalizing s content with
 | nil=>
  refine ⟨?_,(append_nil _).symm⟩
  exact top
 | cons b bs ih=>
  rw[size_cons] at fits
  rw[pushes,storeAll,holds_run_bind]
  have length:content.length+b.length=(b++content).length:=by
   rw[length_append,Nat.add_comm]
  have pushed:=top.push b (by omega)
  rw[length] at pushed ⊢
  refine (ih pushed (by omega)).imp ?_
  rintro _ s' ⟨whole,log⟩
  refine ⟨by simpa using whole,?_⟩
  rw[log,append_assoc,singleton_append]

lemma installPage_flat {u:Addr}{kpage:ℕ}{w:Bool}{Q:Bool→Flat→Prop}
 (aligned:pgOfs u=0)(user:isUserVaddr u)(any:∀ok,Q ok s):
 Holds (run (handleFlat pd) (installPage u kpage w)) s Q NoFault:=by
 refine holds_run_bind.2 (holds_run_ask.2 (holds_pure.2 ?_))
 dsimp only
 split
 · exact any false
 · have set:Holds (run (handleFlat pd) (pagedirSetPage pd u kpage w)) s
     (fun d s'=>d≠none ∧ s'=s) NoFault:=by
    unfold pagedirSetPage
    rw[if_neg (by simp[aligned,user])]
    cases there:pd.table (pdNo u) with
    | none=>exact holds_run_bind.2 (holds_run_ask.2 (holds_pure.2 ⟨nofun,rfl⟩))
    | some pt=>
     have absent:¬(pt.entry (ptNo u)).present=true:=by
      intro present
      have mapped:pagedirGetPage pd u≠none:=by
       rw[pagedirGetPage,lookupPage,there]
       simp[present]
      exact ‹¬pagedirGetPage pd u≠none› mapped
     dsimp only
     rw[if_neg absent]
     exact ⟨nofun,rfl⟩
   refine holds_run_bind.2 (set.imp ?_)
   rintro d s' ⟨some_,rfl⟩
   cases d with
   | none=>exact absurd rfl some_
   | some pd'=>exact holds_run_bind.2 (holds_run_ask.2 (holds_pure.2 (any true)))

lemma pushArguments_flat {input:List UInt8}(short:input.length≤pgSize-1)
 (nonzero:0∉input)(few:(tokens input).length≤128)(start:s.log=[]):
 Holds (run (handleFlat pd) (pushArguments input)) s
  (fun esp s'=>Decodes s'.byte esp (tokens input) ∧ s'.log.Pairwise Apart) NoFault:=by
 have total:=frame_length (tokens input)
 have small:=argBytes_le short
 have fits:size (blocks (tokens input))≤userBytes:=by rwa[size_blocks]
 have empty:Top s.byte []:=fun i inside=>absurd inside (Nat.not_lt_zero i)
 rw[←argBytes_eq] at total
 refine (holds_pushArguments short few).2 (Holds.imp (storeAll_flat empty ?_) ?_)
 · rwa[length_nil,Nat.zero_add]
 rintro _ s' ⟨top,log⟩
 rw[append_nil,blocks_frame] at top
 refine ⟨?_,?_⟩
 · rw[←total]
   exact top.decodes (by rwa[total]) fun t mem zero=>
    nonzero (Strtok.mem_of_mem_tokens mem zero)
 · rw[log,start]
   exact pushes_apart (by rwa[length_nil,Nat.zero_add])

/-- The tokens that the loop in `setup_stack` gets are the words of the command line, and a
program finds them on its stack. -/
theorem arguments_round_trip (pd:PageDir)(byte:Addr→UInt8){input:List UInt8}
 (short:input.length<pgSize)(nonzero:0∉input)(few:(tokens input).length≤128)
 (tail:List UInt8):
 Strtok.strtokAll [blank] (input.length+1) (input++0::tail) 0=some (tokens input) ∧
 ∃ok esp s',(run (handleFlat pd) (setupStack input)).run ⟨byte,[]⟩=.ok ((ok,esp),s') ∧
  Decodes s'.byte esp (tokens input) ∧ s'.log.Pairwise Apart:=by
 refine ⟨Strtok.strtokAll_tokens nonzero tail,?_⟩
 have copied:input.take (pgSize-1)=input:=take_of_length_le (by omega)
 have runs:Holds (run (handleFlat pd) (setupStack input)) ⟨byte,[]⟩
   (fun res s'=>Decodes s'.byte res.2 (tokens input) ∧ s'.log.Pairwise Apart) NoFault:=by
  unfold setupStack
  refine holds_run_bind.2 (holds_run_ask.2 (holds_pure.2 ?_))
  refine holds_run_bind.2 (holds_run_ask.2 (holds_pure.2 ?_))
  refine holds_run_bind.2 (holds_run_bind.2 (installPage_flat (by decide) (by decide) ?_))
  have pushed:∀success:Bool,Holds (run (handleFlat pd)
    (pushArguments (input.take (pgSize-1)) >>= fun esp=>pure (success,esp))) ⟨byte,[]⟩
    (fun res s'=>Decodes s'.byte res.2 (tokens input) ∧ s'.log.Pairwise Apart) NoFault:=by
   intro success
   rw[copied]
   exact holds_run_bind.2 (pushArguments_flat (by omega) nonzero few rfl)
  intro ok
  cases ok with
  | true=>exact pushed true
  | false=>exact holds_run_bind.2 (holds_run_ask.2 (holds_pure.2 (pushed false)))
 obtain ⟨⟨ok,esp⟩,s',ran,facts⟩:=runs.returns
 exact ⟨ok,esp,s',ran,facts⟩

theorem arguments_round_trip_echo:∃ok esp s',(run (handleFlat stackPage)
   (setupStack [101,99,104,111,32,32,120,32])).run ⟨fun _=>0xcc,[]⟩=.ok ((ok,esp),s') ∧
  Decodes s'.byte esp [[101,99,104,111],[120]] ∧ s'.log.Pairwise Apart:=
 (arguments_round_trip stackPage _ (by decide) (by decide) (by decide) []).2

end Pintos.ArgumentStack
