import Pintos.ElfImage

/-!
# The stores of setup_stack

`setup_stack` pushes strings and words. Whatever a store does, this is a list of stores, each right
below the one before, unless there are too many strings.
-/
namespace Pintos.Spawning
open Paging PageMaps Process ElfImage List UInt32

def below (d:ℕ):Addr:=physBase-UInt32.ofNat d
def userBytes:ℕ:=userLimit*pgSize
lemma userBytes_eq:userBytes=3221225472:=rfl

lemma below_toNat {d:ℕ}(h:d≤userBytes):(below d).toNat=userBytes-d:=by
 have top:physBase.toNat=3221225472:=rfl
 rw[userBytes_eq] at *
 rw[below,UInt32.toNat_sub,toNat_ofNat',top]
 omega

lemma below_sub {d n:ℕ}(h:d+n≤userBytes):below d-UInt32.ofNat n=below (d+n):=by
 rw[←UInt32.toNat_inj,UInt32.toNat_sub,below_toNat h,below_toNat (by omega),toNat_ofNat']
 rw[userBytes_eq] at *
 omega
lemma below_add {d i:ℕ}(h:d≤userBytes)(inside:i≤d):below d+UInt32.ofNat i=below (d-i):=by
 rw[←UInt32.toNat_inj,UInt32.toNat_add,below_toNat h,below_toNat (by omega),toNat_ofNat']
 rw[userBytes_eq] at *
 omega
def stringBytes (ts:List (List UInt8)):ℕ:=(ts.map (fun t=>t.length+1)).sum
lemma stringBytes_cons (t:List UInt8)(ts:List (List UInt8)):
 stringBytes (t::ts)=t.length+1+stringBytes ts:=by
 rw[stringBytes,map_cons,sum_cons,stringBytes]

lemma splitOn_bytes (x:UInt8)(l:List UInt8):stringBytes (l.splitOn x)=l.length+1:=by
 induction l with
 | nil=>rfl
 | cons b l ih=>
  unfold splitOn at ih ⊢
  rw[splitOnP_cons_eq_if_modifyHead]
  split_ifs with hb
  · rw[stringBytes_cons,ih,length_nil,length_cons]
    omega
  · obtain ⟨first,rest,split⟩:=exists_cons_of_ne_nil (splitOnP_ne_nil (· == x) l)
    rw[split] at ih ⊢
    rw[modifyHead_cons,stringBytes_cons,length_cons,length_cons]
    rw[stringBytes_cons] at ih
    omega

lemma filter_bytes (keep:List UInt8→Bool)(ts:List (List UInt8)):
 stringBytes (ts.filter keep) ≤ stringBytes ts:=by
 induction ts with
 | nil=>exact Nat.le_refl _
 | cons t ts ih=>
  rw[filter_cons,stringBytes_cons]
  split_ifs
  · rw[stringBytes_cons]
    omega
  · omega

lemma tokens_bytes (l:List UInt8):stringBytes (tokens l)≤l.length+1:=
 splitOn_bytes blank l▸filter_bytes _ _

lemma length_le_bytes {ts:List (List UInt8)}{t:List UInt8}(mem:t∈ts):
 t.length+1 ≤ stringBytes ts:=by
 induction ts with
 | nil=>cases mem
 | cons u ts ih=>
  rw[stringBytes_cons]
  rcases mem_cons.1 mem with rfl|mem
  · omega
  · have rest:=ih mem
    omega

lemma count_le_bytes (ts:List (List UInt8)):ts.length ≤ stringBytes ts:=by
 induction ts with
 | nil=>exact Nat.le_refl _
 | cons t ts ih=>
  rw[stringBytes_cons,length_cons]
  omega

lemma argBytes_eq (input:List UInt8):
 argBytes input=stringBytes (tokens input)+4*((tokens input).length+1)+12:=rfl

lemma argBytes_le {input:List UInt8}(short:input.length≤pgSize-1):argBytes input≤userBytes:=by
 have strings:=tokens_bytes input
 have count:=count_le_bytes (tokens input)
 rw[argBytes_eq,userBytes_eq]
 unfold pgSize at short
 omega

end Pintos.Spawning

namespace Pintos.ArgumentStack
open ExecHoare Interaction Paging PageMaps Process ElfImage Spawning List

def storeAll:List (Addr×List UInt8) → Proc Unit
 | []=>return ()
 | (a,bytes)::rest=>do
  ask (Ask.store a bytes)
  storeAll rest

/-- The stores that push blocks below the upper `d` bytes of user memory. -/
def pushes:List (List UInt8) → ℕ → List (Addr×List UInt8)
 | [],_=>[]
 | b::rest,d=>(below (d+b.length),b)::pushes rest (d+b.length)

def size (blocks:List (List UInt8)):ℕ:=(blocks.map List.length).sum
def places:List (List UInt8) → ℕ → List Addr
 | [],_=>[]
 | t::rest,d=>below (d+(t.length+1))::places rest (d+(t.length+1))

/-- The words that `setup_stack` pushes below the strings `ts`. -/
def vectorWords (ts:List (List UInt8)):List ℕ:=0::(places ts 0).reverse.map UInt32.toNat

def argvPlace (ts:List (List UInt8)):ℕ:=stringBytes ts+4*(ts.length+1)

def blocks (ts:List (List UInt8)):List (List UInt8):=
 ts.map (· ++ [0])++(vectorWords ts).map wordBytes ++
  [wordBytes (below (argvPlace ts)).toNat,wordBytes ts.length,wordBytes 0]
variable {ts:List (List UInt8)}{bs cs:List (List UInt8)}{d:ℕ}

lemma size_cons (b:List UInt8)(bs:List (List UInt8)):size (b::bs)=b.length+size bs:=by
 rw[size,map_cons,sum_cons,size]
lemma size_append (bs cs:List (List UInt8)):size (bs++cs)=size bs+size cs:=by
 rw[size,map_append,sum_append,size,size]

lemma size_strings (ts:List (List UInt8)):size (ts.map (· ++ [0]))=stringBytes ts:=by
 rw[size,List.map_map,stringBytes]
 congr 1
 simp

lemma size_words (ws:List ℕ):size (ws.map wordBytes)=4*ws.length:=by
 induction ws with
 | nil=>rfl
 | cons w ws ih=>
  rw[map_cons,size_cons,ih,length_cons]
  change 4+_=_
  omega

lemma pushes_append (bs cs:List (List UInt8))(d:ℕ):
 pushes (bs++cs) d=pushes bs d++pushes cs (d+size bs):=by
 induction bs generalizing d with
 | nil=>rfl
 | cons b bs ih=>
  rw[cons_append,pushes,ih,size_cons,pushes,cons_append,Nat.add_assoc]

lemma places_length (ts:List (List UInt8))(d:ℕ):(places ts d).length=ts.length:=by
 induction ts generalizing d with
 | nil=>rfl
 | cons t ts ih=>rw[places,length_cons,ih,length_cons]

lemma places_append (ts us:List (List UInt8))(d:ℕ):
 places (ts++us) d=places ts d++places us (d+stringBytes ts):=by
 induction ts generalizing d with
 | nil=>rfl
 | cons t ts ih=>
  rw[cons_append,places,ih,stringBytes_cons,places,cons_append,Nat.add_assoc]

lemma vectorWords_length (ts:List (List UInt8)):(vectorWords ts).length=ts.length+1:=by
 rw[vectorWords,length_cons,length_map,length_reverse,places_length]
lemma size_blocks (input:List UInt8):size (blocks (tokens input))=argBytes input:=by
 rw[blocks,size_append,size_append,size_strings,size_words,vectorWords_length,argBytes_eq]
 rfl

variable {ε σ:Type}{handle:(q:Ask) → Exec ε σ q.Answer}{s:σ}{F:ε→Prop}

lemma holds_storeAll_append {ws vs:List (Addr×List UInt8)}{Q:Unit→σ→Prop}:
 Holds (run handle (storeAll (ws++vs))) s Q F ↔
  Holds (run handle (storeAll ws)) s (fun _ t=>Holds (run handle (storeAll vs)) t Q F) F:=by
 induction ws generalizing s with
 | nil=>rfl
 | cons w ws ih=>
  rw[cons_append,storeAll,storeAll,holds_run_bind,holds_run_bind]
  exact holds_congr fun _ _=>ih

lemma holds_pushWords {ws:List ℕ}{d:ℕ}(fits:d+4*ws.length≤userBytes){Q:Addr→σ→Prop}:
 Holds (run handle (pushWords ws (below d))) s Q F ↔
  Holds (run handle (storeAll (pushes (ws.map wordBytes) d))) s
   (fun _ t=>Q (below (d+4*ws.length)) t) F:=by
 induction ws generalizing d s with
 | nil=>rfl
 | cons w ws ih=>
  rw[length_cons,Nat.mul_succ,Nat.add_comm _ 4,←Nat.add_assoc] at fits ⊢
  have place:below d-4=below (d+(wordBytes w).length):=below_sub (d:=d) (n:=4) (by omega)
  rw[pushWords,map_cons,pushes,storeAll,place,holds_run_bind,holds_run_bind]
  exact holds_congr fun _ _=>ih fits

lemma holds_pushStrings {ts:List (List UInt8)}{d:ℕ}{pointers:List Addr}
 (short:∀t∈ts,t.length≤pgSize-1)(fits:d+stringBytes ts≤userBytes)
 (few:pointers.length+ts.length≤128){Q:Addr×List Addr→σ→Prop}:
 Holds (run handle (pushStrings ts (below d) pointers)) s Q F ↔
  Holds (run handle (storeAll (pushes (ts.map (· ++ [0])) d))) s
   (fun _ t=>Q (below (d+stringBytes ts),pointers++places ts d) t) F:=by
 induction ts generalizing d pointers s with
 | nil=>rw[places,append_nil];rfl
 | cons t ts ih=>
  obtain ⟨first,rest⟩:=forall_mem_cons.1 short
  rw[stringBytes_cons,←Nat.add_assoc] at fits ⊢
  rw[length_cons] at few
  have length:(t++[(0:UInt8)]).length=t.length+1:=length_append
  rw[pushStrings,map_cons,pushes,storeAll,holds_run_bind,length,places,
   take_of_length_le first,below_sub (by omega)]
  rw[if_neg (by omega),holds_run_bind]
  have few':(pointers++[below (d+(t.length+1))]).length+ts.length≤128:=by
   rw[length_append,length_singleton]
   omega
  have assoc:pointers++[below (d+(t.length+1))]++places ts (d+(t.length+1))=
    pointers++below (d+(t.length+1))::places ts (d+(t.length+1)):=by simp
  rw[←assoc]
  exact holds_congr fun _ _=>ih rest fits few'

lemma holds_pushArguments {input:List UInt8}(short:input.length≤pgSize-1)
 (few:(tokens input).length≤128){Q:Addr→σ→Prop}:
 Holds (run handle (pushArguments input)) s Q F ↔
  Holds (run handle (storeAll (pushes (blocks (tokens input)) 0))) s
   (fun _ t=>Q (below (argBytes input)) t) F:=by
 have strings:=tokens_bytes input
 have total:=argBytes_eq input
 have small:=argBytes_le short
 have each:∀t∈tokens input,t.length≤pgSize-1:=by
  intro t mem
  have one:=length_le_bytes mem
  omega
 have start:physBase=below 0:=rfl
 have words:=vectorWords_length (tokens input)
 unfold pushArguments
 rw[start,holds_run_bind,holds_pushStrings each (by omega) (by rw[length_nil];omega),
  blocks,pushes_append,pushes_append,size_append,size_strings,size_words,words,
  holds_storeAll_append,holds_storeAll_append]
 refine holds_congr fun _ t=>?_
 have vector:0::((places (tokens input) 0).reverse.map UInt32.toNat)=vectorWords (tokens input):=rfl
 dsimp only
 rw[nil_append,Nat.zero_add,vector,holds_run_bind,holds_pushWords (by omega),words]
 refine holds_congr fun _ u=>?_
 have three:∀a b c:ℕ,[wordBytes a,wordBytes b,wordBytes c]=[a,b,c].map wordBytes:=
  fun _ _ _=>rfl
 have twelve:∀a b c:ℕ,4 * [a,b,c].length=12:=fun _ _ _=>rfl
 rw[holds_pushWords (by rw[twelve];omega),places_length,three,twelve,total,argvPlace,Nat.zero_add]

lemma holds_pushStrings_many {ts:List (List UInt8)}{kp:Addr}{pointers:List Addr}
 (room:pointers.length≤128)(many:128<pointers.length+ts.length)
 {Q Q':Addr×List Addr→σ→Prop}
 (h:Holds (run handle (pushStrings ts kp pointers)) s Q F):
 Holds (run handle (pushStrings ts kp pointers)) s Q' F:=by
 induction ts generalizing kp pointers s with
 | nil=>
  rw[length_nil] at many
  omega
 | cons t ts ih=>
  rw[length_cons] at many
  rw[pushStrings] at h ⊢
  by_cases full:pointers.length=128
  · rw[if_pos full] at h ⊢
    exact holds_run_stop.2 (holds_run_stop.1 h)
  · rw[if_neg full,holds_run_bind] at h ⊢
    refine h.imp fun _ t=>ih ?_ ?_
    · rw[length_append,length_singleton]
      omega
    · rw[length_append,length_singleton]
      omega

lemma holds_pushArguments_many {input:List UInt8}(many:128<(tokens input).length)
 {Q Q':Addr→σ→Prop}(h:Holds (run handle (pushArguments input)) s Q F):
 Holds (run handle (pushArguments input)) s Q' F:=by
 unfold pushArguments at h ⊢
 rw[holds_run_bind] at h ⊢
 refine holds_pushStrings_many (Nat.zero_le _) ?_ h
 rwa[length_nil,Nat.zero_add]

end Pintos.ArgumentStack
