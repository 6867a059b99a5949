import Mathlib.Data.List.Nodup
import Mathlib.Data.List.TakeWhile
import Pintos.DirectorySlots
import Pintos.ExecRuns

namespace Pintos.Directory
open ExecHoare ExecRuns ByteWords Cache List

/-- A string with its terminator begins `l` when it is what `l` has before its
first zero, and there is one. -/
lemma terminated_prefix_iff {n l:List UInt8}(hn:0∉n):
 n++[0] <+: l ↔ l.takeWhile (· != 0)=n ∧ n.length<l.length:=by
 induction n generalizing l with
 | nil=>
  cases l with
  | nil=>simp
  | cons b l=>
   by_cases hb:b=0
   · simp[hb]
   · simp[hb,Ne.symm hb]
 | cons a n ih=>
  obtain ⟨ha,hn⟩:0≠a ∧ 0∉n:=by simpa using hn
  cases l with
  | nil=>simp
  | cons b l=>
   rw[cons_append,cons_prefix_cons,ih hn,length_cons,length_cons]
   by_cases hb:b=0
   · subst hb
     simp[Ne.symm ha]
   · rw[takeWhile_cons_of_pos (by simpa using hb),List.cons.injEq]
     constructor
     · rintro ⟨rfl,hw,hl⟩
       exact ⟨⟨rfl,hw⟩,by omega⟩
     · rintro ⟨⟨rfl,hw⟩,hl⟩
       exact ⟨rfl,hw,by omega⟩

namespace DirEntry

lemma nameBytes_length (e:DirEntry):e.nameBytes.length=16:=by
 simp[nameBytes]
lemma nameBytes_getElem? (e:DirEntry){k:ℕ}(hk:k<16):e.nameBytes[k]?=some (e ⟨4+k,by omega⟩):=by
 rw[nameBytes,List.getElem?_ofFn,dif_pos hk]
 rfl
def name (e:DirEntry):CString:=
 ⟨e.nameBytes.takeWhile (· != 0),fun h=>by simpa using mem_takeWhile_imp h⟩

variable (e:DirEntry)
include e

lemma nameIs_iff (n:CString):e.nameIs n=true ↔ e.name=n ∧ n.val.length<16:=by
 unfold nameIs
 rw[ isPrefixOf_iff_prefix,terminated_prefix_iff n.property,nameBytes_length,Subtype.ext_iff]
 rfl

lemma fill_nameIs {n:CString}(hn:n.val.length≤nameMax)(sector:ℕ):
 (e.fill n sector).nameIs n=true:=by
 have hlen:n.val.length≤14:=hn
 have hmin:min n.val.length nameMax=n.val.length:=Nat.min_eq_left hn
 unfold nameIs
 rw[ isPrefixOf_iff_prefix,prefix_iff_getElem?]
 intro k hk
 rw[length_append,length_singleton] at hk
 rw[nameBytes_getElem? _ (by omega)]
 simp only[fill,hmin]
 rw[if_neg (by omega),if_neg (by omega)]
 by_cases hkn:k<n.val.length
 · simp[hkn]
 · have hke:k=n.val.length:=by omega
   subst hke
   simp

lemma fill_inUse (n:CString)(sector:ℕ):(e.fill n sector).inUse=true:=by
 rfl
lemma fill_inodeSector (n:CString){sector:ℕ}(h:sector<2^32):(e.fill n sector).inodeSector=sector:=
 word_wordByte h
lemma fill_name {n:CString}(hn:n.val.length≤nameMax)(sector:ℕ):(e.fill n sector).name=n:=
 ((nameIs_iff _ n).1 (e.fill_nameIs hn sector)).1
lemma clear_inUse:e.clear.inUse=false:=by
 rfl
lemma copyName_eq (h:e.name.val.length≤nameMax):e.copyName=e.name.val:= take_of_length_le h

end DirEntry

/-- A file of fixed length, read and written up to its length. -/
structure ByteFile where
 length:ℕ
 bytes:ℕ→UInt8

namespace ByteFile

def slot (f:ByteFile)(i:ℕ):DirEntry:=fun k=>f.bytes (20*i+k.val)
def slots (f:ByteFile):List DirEntry:=(List.range (f.length/20)).map f.slot
def read (f:ByteFile)(e:DirEntry)(ofs:ℕ):ℕ×DirEntry:=
 let n:=min 20 (f.length-ofs)
 (n,fun k=>if k.val<n then f.bytes (ofs+k.val) else e k)
def write (f:ByteFile)(e:DirEntry)(ofs:ℕ):ℕ×ByteFile:=
 let n:=min 20 (f.length-ofs)
 (n,{f with bytes:=fun i=>
  if h:ofs ≤ i ∧ i<ofs+n then e ⟨i-ofs,by omega⟩ else f.bytes i})
lemma slots_length (f:ByteFile):f.slots.length=f.length/20:=by
 simp[slots]

variable {i:ℕ}

lemma slots_getElem? (f:ByteFile)(hi:i<f.length/20):f.slots[i]?=some (f.slot i):=by
 simp[slots,hi]

lemma read_slot (f:ByteFile)(e:DirEntry)(hi:i<f.length/20):f.read e (20*i)=(20,f.slot i):=by
 have hn:min 20 (f.length-20*i)=20:=by omega
 simp only[read,hn,Prod.mk.injEq,true_and]
 funext k
 rw[if_pos k.isLt]
 rfl

lemma read_end (f:ByteFile)(e:DirEntry):(f.read e (20*(f.length/20))).1≠20:=by
 simp only[read]
 omega

lemma write_slot (f:ByteFile)(e:DirEntry)(hi:i<f.length/20):
 (f.write e (20*i)).1=20 ∧ (f.write e (20*i)).2.slots=f.slots.set i e:=by
 have hn:min 20 (f.length-20*i)=20:=by omega
 refine ⟨hn,?_⟩
 apply ext_getElem?
 intro j
 rw[getElem?_set]
 by_cases hj:j<f.length/20
 · rw[show (f.write e (20*i)).2.slots[j]?=some ((f.write e (20*i)).2.slot j) from
    slots_getElem? _ hj]
   by_cases hij:i=j
   · subst hij
     rw[if_pos rfl,if_pos (by rw[slots_length];exact hj),Option.some.injEq]
     funext k
     simp only[slot,write,hn]
     simp
   · rw[if_neg hij,slots_getElem? f hj,Option.some.injEq]
     funext k
     simp only[slot,write]
     rw[dif_neg (by omega)]
 · have hlen:(f.write e (20*i)).2.slots.length≤j:=by
    rw[slots_length]
    change f.length/20≤j
    omega
   rw[getElem?_eq_none hlen]
   split
   · omega
   · exact (getElem?_eq_none (by rw[slots_length];omega)).symm

lemma write_end (f:ByteFile)(e:DirEntry):(f.write e (20*(f.length/20))).1≠20 ∧
  (f.write e (20*(f.length/20))).2.slots=f.slots ∧
  (f.length%20=0 → (f.write e (20*(f.length/20))).2=f):=by
 refine ⟨by simp only[write];omega,?_,fun hm=>?_⟩
 · apply ext_getElem?
   intro j
   by_cases hj:j<f.length/20
   · rw[f.slots_getElem? hj]
     refine ((f.write e (20*(f.length/20))).2.slots_getElem? hj).trans (congrArg some ?_)
     funext k
     simp only[slot,write]
     rw[dif_neg (by omega)]
   · rw[getElem?_eq_none (by rw[slots_length];exact Nat.le_of_not_lt hj),
      getElem?_eq_none (by rw[slots_length];omega)]
 · have hn:min 20 (f.length-20*(f.length/20))=0:=by omega
   simp only[write,hn]
   congr 1
   funext i
   rw[dif_neg (by omega)]

end ByteFile

def byteFile (length:ℕ)(stack:DirEntry)(opens:Bool):DirFile ByteFile where
 readAt e ofs:=do
  let f←get
  return f.read e ofs
 writeAt e ofs:=do
  let f←get
  set (f.write e ofs).2
  return (f.write e ofs).1
 inodeOpen _:=return if opens then some 0 else none
 inodeRemove _:=return ()
 inodeClose _:=return ()
 stack:=stack
 turns:=length/20+1

/-- The file of a new directory: the product is taken in `size_t`, and
`inode_create` asserts that it is not negative as an `off_t`. -/
def dirCreate (entryCnt:ℕ):Option ByteFile:=
 let length:=entryCnt*20%2^32
 if length<2^31 then some ⟨length,fun _=>0⟩ else none

lemma byteFile_shows (f:ByteFile)(stack:DirEntry)(opens:Bool):
 (byteFile f.length stack opens).Shows (· = f) f.slots NoFault where
 turns:=by
  rw[f.slots_length]
  exact Nat.lt_succ_self _
 read:=by
  rintro s e i rfl hi
  rw[s.slots_length] at hi
  refine ⟨rfl,?_⟩
  rcases Nat.lt_or_eq_of_le hi with hlt|rfl
  · left
    rw[s.read_slot e hlt,s.slots_getElem? hlt]
    exact ⟨rfl,rfl⟩
  · right
    exact ⟨s.read_end e,s.slots_length.symm⟩

/-- The finite map that a directory is meant to be. -/
abbrev Map:=List (CString×ℕ)

def Map.sector (m:Map)(name:CString):Option ℕ:=(m.find? (fun p=>p.1=name)).map (·.2)
def Map.Has (m:Map)(name:CString):Prop:=name∈m.map (·.1)
def Map.Admits (n:ℕ)(m:Map)(name:CString):Prop:=
 (name.val≠[] ∧ name.val.length≤nameMax) ∧ ¬m.Has name ∧ m.length<n
def decode (e:DirEntry):CString×ℕ:=(e.name,e.inodeSector)

/-- The entries in use are those of `m`, under proper names, no name twice. -/
structure Represents (slots:List DirEntry)(m:Map):Prop where
 entries:((slots.filter (·.inUse)).map decode).Perm m
 proper:∀e∈slots,e.inUse=true → e.name.val≠[] ∧ e.name.val.length≤nameMax
 distinct:(m.map (·.1)).Nodup
variable {slots:List DirEntry}{m:Map}{name:CString}{e:DirEntry}{j:ℕ}

section
variable (h:Represents slots m)
include h

lemma Represents.names_iff (he:e∈slots):Names name e=true ↔ e.inUse=true ∧ e.name=name:=by
 unfold Names
 rw[Bool.and_eq_true,DirEntry.nameIs_iff]
 constructor
 · rintro ⟨hu,hn,-⟩
   exact ⟨hu,hn⟩
 · rintro ⟨hu,rfl⟩
   have hlen:e.name.val.length≤14:=(h.proper e he hu).2
   exact ⟨hu,rfl,by omega⟩

lemma Represents.mem_of_slot (he:e∈slots)(hu:e.inUse=true):(e.name,e.inodeSector)∈m:=
 h.entries.mem_iff.1 (List.mem_map_of_mem (mem_filter.2 ⟨he,hu⟩))
lemma Represents.slot_of_mem {p:CString×ℕ}(hp:p∈m):∃e∈slots,e.inUse=true ∧ decode e=p:=by
 obtain ⟨e,he,rfl⟩:=List.mem_map.1 (h.entries.mem_iff.2 hp)
 obtain ⟨hs,hu⟩:=mem_filter.1 he
 exact ⟨e,hs,hu,rfl⟩

lemma Represents.has_iff:m.Has name ↔ ∃e∈slots,Names name e=true:=by
 constructor
 · intro hm
   obtain ⟨p,hp,rfl⟩:=List.mem_map.1 hm
   obtain ⟨e,he,hu,rfl⟩:=h.slot_of_mem hp
   exact ⟨e,he,(h.names_iff he).2 ⟨hu,rfl⟩⟩
 · rintro ⟨e,he,hn⟩
   obtain ⟨hu,rfl⟩:=(h.names_iff he).1 hn
   exact List.mem_map.2 ⟨_,h.mem_of_slot he hu,rfl⟩

lemma Represents.sector_of_slot (he:e∈slots)
 (hn:Names name e=true):m.sector name=some e.inodeSector:=by
 obtain ⟨hu,rfl⟩:=(h.names_iff he).1 hn
 have hm:=h.mem_of_slot he hu
 unfold Map.sector
 cases hf:m.find? (fun p=>decide (p.1=e.name)) with
 | none=>simpa using find?_eq_none.1 hf _ hm
 | some p=>
  have hp:p.1=e.name:=by simpa using find?_some hf
  have:=inj_on_of_nodup_map h.distinct (mem_of_find?_eq_some hf) hm hp
  rw[this]
  rfl

end

lemma sector_none (h:¬m.Has name):m.sector name=none:=by
 have hf:m.find? (fun p=>decide (p.1=name))=none:=by
  rw[find?_eq_none]
  intro p hp hn
  exact h (List.mem_map.2 ⟨p,hp,by simpa using hn⟩)
 rw[Map.sector,hf]
 rfl

lemma Represents.length (h:Represents slots m):m.length=(slots.filter (·.inUse)).length:=by
 rw[←h.entries.length_eq,length_map]

lemma Represents.vacant (h:Represents slots m)(hv:Vacant slots j e):
 j<slots.length ↔ m.length<slots.length:=by
 rw[h.length]
 have hle:=length_filter_le (fun e:DirEntry=>e.inUse) slots
 rcases hv with ⟨hx,hu⟩|⟨rfl,hall⟩
 · refine iff_of_true (List.getElem?_eq_some_iff.1 hx).1 ?_
   refine Nat.lt_of_le_of_ne hle (fun heq=>?_)
   have:=length_filter_eq_length_iff.1 heq e (mem_of_getElem? hx)
   rw[hu] at this
   cases this
 · refine iff_of_false (Nat.lt_irrefl _) ?_
   rw[length_filter_eq_length_iff.2 hall]
   exact Nat.lt_irrefl _

lemma filter_set_perm {l:List DirEntry}{x:DirEntry}(hx:l[j]?=some e):
 ∃rest,(l.filter (·.inUse)).Perm ([e].filter (·.inUse)++rest) ∧
  ((l.set j x).filter (·.inUse)).Perm ([x].filter (·.inUse)++rest):=by
 obtain ⟨hj,rfl⟩:=List.getElem?_eq_some_iff.1 hx
 refine ⟨(l.take j++l.drop (j+1)).filter (·.inUse),?_,?_⟩
 · have hl:l=l.take j++l[j]::l.drop (j+1):=by simp
   conv_lhs=>rw[hl]
   rw[←filter_append]
   exact perm_middle.filter _
 · rw[set_eq_take_append_cons_drop,if_pos hj,←filter_append]
   exact perm_middle.filter _

lemma Represents.add (h:Represents slots m){sector:ℕ}(hx:slots[j]?=some e)
 (free:e.inUse=false)(valid:name.val≠[] ∧ name.val.length≤nameMax)
 (absent:¬m.Has name)(range:sector<2^32):
 Represents (slots.set j (e.fill name sector)) ((name,sector)::m)
:=by
 obtain ⟨rest,old,new⟩:=filter_set_perm (x:=e.fill name sector) hx
 have hname:=e.fill_name valid.2 sector
 rw[filter_singleton,free] at old
 refine ⟨?_,?_,nodup_cons.2 ⟨absent,h.distinct⟩⟩
 · refine (new.map decode).trans ?_
   change (decode (e.fill name sector)::rest.map decode).Perm _
   rw[decode,hname,DirEntry.fill_inodeSector e name range]
   exact ((old.map decode).symm.trans h.entries).cons _
 · intro x hm hu
   rcases mem_or_eq_of_mem_set hm with hm|rfl
   · exact h.proper x hm hu
   · rw[hname]
     exact valid

lemma Represents.remove (h:Represents slots m)(hx:slots[j]?=some e)(hn:Names name e=true):
 Represents (slots.set j e.clear) (m.filter (fun p=>p.1≠name)):=by
 obtain ⟨hu,rfl⟩:=(h.names_iff (mem_of_getElem? hx)).1 hn
 obtain ⟨rest,old,new⟩:=filter_set_perm (x:=e.clear) hx
 rw[filter_singleton,hu] at old
 rw[filter_singleton,DirEntry.clear_inUse] at new
 have hm:m.Perm (decode e::rest.map decode):=h.entries.symm.trans (old.map decode)
 have hd:=(hm.map (·.1)).nodup_iff.1 h.distinct
 obtain ⟨hfresh,-⟩:=nodup_cons.1 hd
 refine ⟨?_,?_,(filter_sublist.map _).nodup h.distinct⟩
 · refine (new.map decode).trans ?_
   refine Perm.trans ?_ (hm.filter _).symm
   have hself:decide ((decode e).1≠e.name)=false:=by simp[decode]
   rw[filter_cons,hself]
   have hrest:(rest.map decode).filter (fun p=>decide (p.1≠e.name))=rest.map decode:=by
    rw[filter_eq_self]
    intro p hp
    have:p.1≠e.name:=fun he=>hfresh (List.mem_map.2 ⟨p,hp,he⟩)
    simpa using this
   rw[if_neg (by simp),hrest]
   exact Perm.refl _
 · intro x hm' hu'
   rcases mem_or_eq_of_mem_set hm' with hm'|rfl
   · exact h.proper x hm' hu'
   · cases hu'

end Pintos.Directory
