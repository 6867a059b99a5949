import Pintos.ByteWords
import Pintos.Cache

/-!
# Partition tables

`partition_scan` and `read_partition_table` of `devices/partition.c`. The table of every sector is
read from sector 0. What is recorded are the calls of `found_partition`; memory for the table is
always there.
-/
namespace Pintos.Partition
open ByteWords List Option
open Cache (Sector)

/-- A block device; `size` and sector numbers are 32-bit words. -/
structure Device where
 size:ℕ
 data:ℕ→Sector

/-- What the code reads of `struct partition_table_entry`. -/
structure TableEntry where
 type:UInt8
 offset:ℕ
 size:ℕ
 deriving DecidableEq,Repr

def entryByte (t:Sector)(i:Fin 4)(k:Fin 16):UInt8:=t ⟨446+16*i.val+k.val,by omega⟩
def tableEntry (t:Sector)(i:Fin 4):TableEntry where
 type:=entryByte t i 4
 offset:=word (entryByte t i 8) (entryByte t i 9) (entryByte t i 10) (entryByte t i 11)
 size:=word (entryByte t i 12) (entryByte t i 13) (entryByte t i 14) (entryByte t i 15)
def partitions (t:Sector):List TableEntry:=(finRange 4).map (tableEntry t)
def signature (t:Sector):ℕ:=(t ⟨510,by decide⟩).toNat+256*(t ⟨511,by decide⟩).toNat
def TableEntry.isEmpty (e:TableEntry):Bool:=e.size=0 ∨ e.type=0
def TableEntry.isExtended (e:TableEntry):Bool:=
 e.type=0x05 ∨ e.type=0x0f ∨ e.type=0x85 ∨ e.type=0xc5
def addSector (a b:ℕ):ℕ:=(a+b)%4294967296

structure Part where
 type:UInt8
 start:ℕ
 size:ℕ
 deriving DecidableEq,Repr

/-- `*part_nr`, and the calls of `found_partition` with the number that each was given. -/
structure Scan where
 partNr:ℕ
 found:List (Part×ℕ)
 deriving DecidableEq,Repr

def Scan.foundPartition (scan:Scan)(p:Part):Scan:=⟨scan.partNr+1,scan.found++[(p,scan.partNr+1)]⟩
def TableEntry.part (e:TableEntry)(sector:ℕ):Part:=⟨e.type,addSector e.offset sector,e.size⟩

/-- The arguments of the recursive call: the sector, and that of the primary extended table. -/
def nextTable (sector primary:ℕ)(e:TableEntry):ℕ×ℕ:=
 if sector=0 then (e.offset,e.offset) else (addSector e.offset primary,primary)

/-- The number bounds the depth of the recursion. -/
def readPartitionTable (d:Device):ℕ→ℕ→ℕ→Scan→Option Scan
 | 0,_,_,_=>none
 | depth+1,sector,primary,scan=>
  if d.size ≤ sector then some scan
  -- `block_read (block, 0, pt)`, whatever the sector is
  else if signature (d.data 0)≠0xaa55 then some scan
  else (partitions (d.data 0)).foldlM (fun scan e=>
   if e.isEmpty then some scan
   else if e.isExtended then
    readPartitionTable d depth (nextTable sector primary e).1 (nextTable sector primary e).2 scan
   else some (scan.foundPartition (e.part sector))) scan

def partitionScan (d:Device)(depth:ℕ):Option Scan:=readPartitionTable d depth 0 0 ⟨0,[]⟩
def extended (t:Sector):List TableEntry:=(partitions t).filter fun e=>!e.isEmpty && e.isExtended

def returns (d:Device):ℕ→ℕ→ℕ→Prop
 | 0,_,_=>False
 | depth+1,sector,primary=>
  d.size ≤ sector ∨ signature (d.data 0)≠0xaa55 ∨ ∀e∈extended (d.data 0),
    returns d depth (nextTable sector primary e).1 (nextTable sector primary e).2

lemma foldlM_isSome {σ α:Type}{f:σ→α→Option σ}{P:α→Prop}(l:List α)
 (step:∀s,∀a∈l,(f s a).isSome ↔ P a)(s:σ):
 (l.foldlM f s).isSome ↔ ∀a∈l,P a:=by
 induction l generalizing s with
 | nil=>simp
 | cons a l ih=>
  have first:=step s a mem_cons_self
  rw[foldlM_cons,forall_mem_cons]
  cases result:f s a with
  | none=>
   rw[result] at first
   simp only[isSome_none,Bool.false_eq_true,false_iff] at first
   simp[first]
  | some t=>
   rw[result] at first
   simp only[isSome_some,true_iff] at first
   simp only[first,true_and]
   exact ih (fun s b mem=>step s b (mem_cons_of_mem a mem)) t

lemma readPartitionTable_isSome (d:Device)(depth sector primary:ℕ)(scan:Scan):
 (readPartitionTable d depth sector primary scan).isSome ↔ returns d depth sector primary:=by
 induction depth generalizing sector primary scan with
 | zero=>simp[readPartitionTable,returns]
 | succ depth ih=>
  rw[readPartitionTable,returns]
  by_cases past:d.size ≤ sector
  · simp[past]
  by_cases bad:signature (d.data 0)≠0xaa55
  · simp[bad]
  simp only[past,bad,if_false]
  rw[foldlM_isSome (P:=fun e=>(!e.isEmpty && e.isExtended)=true →
   returns d depth (nextTable sector primary e).1 (nextTable sector primary e).2)]
  · simp[extended]
  · intro s e _
    cases empty:e.isEmpty<;>cases ext:e.isExtended<;>simp[ih]

/-- Every extended entry of sector 0 leads off the device, at once or in the second step. -/
def Stops (d:Device):Prop:=
 signature (d.data 0)=0xaa55 → ∀e∈extended (d.data 0),d.size≤e.offset ∨
   e.offset≠0 ∧ ∀e'∈extended (d.data 0),d.size≤addSector e'.offset e.offset

lemma returns_of_stops {d:Device}(stops:Stops d):returns d 3 0 0:=by
 by_cases bad:signature (d.data 0)≠0xaa55
 · exact Or.inr (Or.inl bad)
 refine Or.inr (Or.inr fun e mem=>?_)
 rcases stops (not_not.1 bad) e mem with past|⟨nonzero,rest⟩
 · exact Or.inl past
 · refine Or.inr (Or.inr fun e' mem'=>Or.inl ?_)
   have below:nextTable e.offset e.offset e'=(addSector e'.offset e.offset,e.offset):=
    if_neg nonzero
   change d.size≤(nextTable e.offset e.offset e').1
   rw[below]
   exact rest e' mem'

lemma not_returns {d:Device}(Stuck:ℕ→ℕ→Prop)
 (step:∀sector primary,Stuck sector primary → sector<d.size ∧
  signature (d.data 0)=0xaa55 ∧ ∃e∈extended (d.data 0),
   Stuck (nextTable sector primary e).1 (nextTable sector primary e).2)
 (depth:ℕ){sector primary:ℕ}(stuck:Stuck sector primary):
 ¬returns d depth sector primary:=by
 induction depth generalizing sector primary with
 | zero=>exact id
 | succ depth ih=>
  obtain ⟨inside,valid,e,mem,next⟩:=step sector primary stuck
  rintro (past|bad|all)
  · omega
  · exact bad valid
  · exact ih next (all e mem)

lemma stops_of_returns {d:Device}{depth:ℕ}(h:returns d depth 0 0):Stops d:=by
 intro valid e mem
 by_contra stuck
 push Not at stuck
 obtain ⟨inside,again⟩:=stuck
 by_cases zero:e.offset=0
 · refine not_returns (fun sector _=>sector=0) ?_ depth rfl h
   rintro _ primary rfl
   exact ⟨by omega,valid,e,mem,by simpa[nextTable] using zero⟩
 · obtain ⟨e',mem',inside'⟩:=again zero
   -- from sector 0 to the extended table, and from there to itself or to `e'`
   refine not_returns (fun sector primary=>sector=0 ∨
    primary=e.offset ∧ (sector=e.offset ∨ sector=addSector e'.offset e.offset)) ?_ depth
    (Or.inl rfl) h
   intro sector primary reached
   by_cases top:sector=0
   · refine ⟨by omega,valid,e,mem,?_⟩
     simp[nextTable,top]
   · obtain ⟨rfl,place⟩:=reached.resolve_left top
     refine ⟨by rcases place with rfl|rfl<;>assumption,valid,e',mem',?_⟩
     simp[nextTable,top]

/-- `partition_scan` returns on exactly the devices that stop. -/
theorem partition_scan_returns_iff (d:Device):
 (∃depth scan,partitionScan d depth=some scan) ↔ Stops d:=by
 constructor
 · rintro ⟨depth,scan,result⟩
   have done:=(readPartitionTable_isSome d depth 0 0 ⟨0,[]⟩).1 (isSome_iff_exists.2 ⟨scan,result⟩)
   exact stops_of_returns done
 · intro stops
   have some:=(readPartitionTable_isSome d 3 0 0 ⟨0,[]⟩).2 (returns_of_stops stops)
   obtain ⟨scan,result⟩:=isSome_iff_exists.1 some
   exact ⟨3,scan,result⟩

def tableOf (es:List TableEntry):Sector:=fun i=>
 if i.val<446 then 0
 else if 510 ≤ i.val then (if i.val=510 then 0x55 else 0xaa)
 else
  let e:=es.getD ((i.val-446)/16) ⟨0,0,0⟩
  let k:=(i.val-446)%16
  if k=4 then e.type
  else if 8≤k ∧ k<12 then wordByte e.offset (k-8)
  else if 12≤k then wordByte e.size (k-12)
  else 0

theorem partition_scan_returns_plain:
 ∃depth scan,partitionScan ⟨8,fun _=>tableOf [⟨0x20,1,2⟩]⟩ depth=some scan:=
 (partition_scan_returns_iff _).2 (by unfold Stops;decide)

/-- One extended entry in front of which there is room for another table. -/
theorem partition_scan_loops:
 ¬ ∃depth scan,partitionScan ⟨8,fun _=>tableOf [⟨0x05,2,6⟩]⟩ depth=some scan:=by
 rintro ⟨depth,scan,result⟩
 have done:=(readPartitionTable_isSome _ depth 0 0 ⟨0,[]⟩).1 (isSome_iff_exists.2 ⟨scan,result⟩)
 exact absurd (stops_of_returns done) (by unfold Stops;decide)

/-- What a table lists, with `below` in the place of its extended entries. -/
def listing (t:Sector)(sector:ℕ)(below:List Part):List Part:=
 (partitions t).flatMap fun e=>
  if e.isEmpty then [] else if e.isExtended then below else [e.part sector]

/-- What the tables of a chain list, each in the place of the entry that leads to it. -/
def listed (d:Device):List ℕ→List Part
 | []=>[]
 | sector::chain=>listing (d.data sector) sector (listed d chain)

/-- The next table of a chain is the one that the only extended entry names. -/
def Linked (d:Device)(primary:ℕ):List ℕ→Prop
 | []=>True
 | [sector]=>extended (d.data sector)=[]
 | sector::next::chain=>
  (∃e,extended (d.data sector)=[e] ∧ next=(nextTable sector primary e).1) ∧
   Linked d primary (next::chain)

/-- The tables of a device: the MBR, the extended table that it names, and the chain from there. -/
structure WellFormed (d:Device)(chain:List ℕ):Prop where
 mbr:chain.head?=some 0
 signatures:∀sector∈chain,signature (d.data sector)=0xaa55
 inside:∀sector∈chain,sector<d.size
 acyclic:chain.Nodup
 linked:Linked d (chain.getD 1 0) chain

def numbered (parts:List Part):List (Part×ℕ):=parts.zipIdx 1
def Finds (d:Device)(chain:List ℕ):Prop:=
 ∃depth scan,partitionScan d depth=some scan ∧ scan.found=numbered (listed d chain)
def Scan.addAll (scan:Scan)(parts:List Part):Scan:=parts.foldl Scan.foundPartition scan

lemma addAll_found (parts:List Part)(scan:Scan):
 (scan.addAll parts).found=scan.found++parts.zipIdx (scan.partNr+1):=by
 induction parts generalizing scan with
 | nil=>simp[Scan.addAll]
 | cons p parts ih=>
  rw[Scan.addAll,foldl_cons,←Scan.addAll,ih]
  simp[Scan.foundPartition]

/-- A call that adds the same partitions to whatever was found before. -/
def Adds (d:Device)(depth sector primary:ℕ)(parts:List Part):Prop:=
 ∀scan,readPartitionTable d depth sector primary scan=some (scan.addAll parts)

lemma adds_past {d:Device}{depth sector primary:ℕ}(past:d.size ≤ sector):
 Adds d (depth+1) sector primary []:=by
 intro scan
 rw[readPartitionTable,if_pos past]
 rfl

lemma foldlM_addAll {f:Scan→TableEntry→Option Scan}{g:TableEntry→List Part}
 (es:List TableEntry)(step:∀e∈es,∀scan:Scan,f scan e=some (scan.addAll (g e)))
 (scan:Scan):es.foldlM f scan=some (scan.addAll (es.flatMap g)):=by
 induction es generalizing scan with
 | nil=>rfl
 | cons e es ih=>
  rw[foldlM_cons,step e mem_cons_self]
  simp only[bind_eq_bind,bind_some]
  rw[ih (fun e' mem=>step e' (mem_cons_of_mem e mem)),flatMap_cons,Scan.addAll,
   Scan.addAll,Scan.addAll,foldl_append]

lemma adds_listing {d:Device}{depth sector primary:ℕ}{below:List Part}
 (inside:sector<d.size)(valid:signature (d.data 0)=0xaa55)
 (next:∀e∈extended (d.data 0),
  Adds d depth (nextTable sector primary e).1 (nextTable sector primary e).2 below):
 Adds d (depth+1) sector primary (listing (d.data 0) sector below):=by
 intro scan
 rw[readPartitionTable,if_neg (by omega),if_neg (by simpa using valid),listing]
 apply foldlM_addAll
 intro e mem scan
 cases empty:e.isEmpty with
 | true=>rfl
 | false=>
  cases ext:e.isExtended with
  | true=>
   have entry:e∈extended (d.data 0):=by
    simp[extended,mem,empty,ext]
   simpa using next e entry scan
  | false=>rfl

lemma flatMap_plain (sector:ℕ){es:List TableEntry}
 (none:∀e∈es,¬(!e.isEmpty && e.isExtended)=true)(below:List Part):
 (es.flatMap fun e=>
  if e.isEmpty then [] else if e.isExtended then below else [e.part sector])=
 es.flatMap fun e=>if e.isEmpty then [] else [e.part sector]:=by
 rw[flatMap_def,flatMap_def]
 congr 1
 apply map_congr_left
 intro e mem
 cases empty:e.isEmpty<;>simp_all

lemma listing_split {t:Sector}{e:TableEntry}(only:extended t=[e])(sector:ℕ):
 ∃before after,∀below,listing t sector below=before++below++after:=by
 obtain ⟨es₁,es₂,split,none₁,ext,none₂⟩:=filter_eq_cons_iff.1 only
 rw[Bool.and_eq_true,Bool.not_eq_true'] at ext
 refine ⟨es₁.flatMap fun e=>if e.isEmpty then [] else [e.part sector],
  es₂.flatMap fun e=>if e.isEmpty then [] else [e.part sector],fun below=>?_⟩
 rw[listing,split,flatMap_append,flatMap_cons,flatMap_plain sector none₁,
  flatMap_plain sector (filter_eq_nil_iff.1 none₂)]
 simp only[ext,Bool.false_eq_true,if_false,if_true]
 rw[append_assoc]

lemma foldlM_mono {σ α:Type}{f g:σ→α→Option σ}(l:List α)
 (step:∀s a t,f s a=some t → g s a=some t){s t:σ}(h:l.foldlM f s=some t):
 l.foldlM g s=some t:=by
 induction l generalizing s with
 | nil=>exact h
 | cons a l ih=>
  rw[foldlM_cons] at h ⊢
  obtain ⟨u,first,rest⟩:=bind_eq_some_iff.1 h
  rw[step s a u first]
  exact ih rest

lemma readPartitionTable_mono (d:Device){depth:ℕ}{sector primary:ℕ}{scan scan':Scan}
 (h:readPartitionTable d depth sector primary scan=some scan'):
 readPartitionTable d (depth+1) sector primary scan=some scan':=by
 induction depth generalizing sector primary scan scan' with
 | zero=>cases h
 | succ depth ih=>
  rw[readPartitionTable] at h ⊢
  split_ifs at h ⊢
  · exact h
  · exact h
  · refine foldlM_mono _ ?_ h
    intro s e t result
    split_ifs at result ⊢
    · exact result
    · exact ih result
    · exact result

lemma partitionScan_unique (d:Device){m n:ℕ}{scan scan':Scan}
 (h:partitionScan d m=some scan)(h':partitionScan d n=some scan'):scan=scan':=by
 have more (k depth:ℕ) (scan:Scan) (h:partitionScan d depth=some scan):
   partitionScan d (depth+k)=some scan:=by
  induction k with
  | zero=>exact h
  | succ k ih=>exact readPartitionTable_mono d ih
 have left:=more n m scan h
 have right:=more m n scan' h'
 rw[Nat.add_comm,left] at right
 exact some.inj right

variable {d:Device}{chain:List ℕ}

lemma finds_plain (h:WellFormed d [0]):Finds d [0]:=by
 have none:extended (d.data 0)=[]:=h.linked
 have adds:Adds d 1 0 0 (listing (d.data 0) 0 []):=
  adds_listing (h.inside 0 (by simp)) (h.signatures 0 (by simp)) (by simp[none])
 exact ⟨1,_,adds ⟨0,[]⟩,addAll_found _ _⟩

lemma scan_extended {first:ℕ}{rest:List ℕ}(h:WellFormed d (0::first::rest))
 (past:d.size≤addSector first first):
 partitionScan d 3=some (Scan.addAll ⟨0,[]⟩
  (listing (d.data 0) 0 (listing (d.data 0) first []))):=by
 obtain ⟨⟨e,only,named⟩,-⟩:=h.linked
 have offset:e.offset=first:=named.symm
 have nonzero:first≠0:=by
  intro zero
  simpa[zero] using h.acyclic
 have valid:=h.signatures 0 (by simp)
 have below:Adds d 2 first first (listing (d.data 0) first []):=by
  refine adds_listing (h.inside first (by simp)) valid fun e' mem=>?_
  rw[only,mem_singleton] at mem
  rw[mem,nextTable,if_neg nonzero,offset]
  exact adds_past past
 have top:Adds d 3 0 0 (listing (d.data 0) 0 (listing (d.data 0) first [])):=by
  refine adds_listing (h.inside 0 (by simp)) valid fun e' mem=>?_
  rw[only,mem_singleton] at mem
  rw[mem,nextTable,if_pos rfl,offset]
  exact below
 exact top ⟨0,[]⟩

/-- The extended entry leads on past the end of the device, and the tables behind it list what the
MBR lists, as if that stood in the place of the first of them. -/
def Coincides (d:Device)(first:ℕ)(rest:List ℕ):Prop:=
 d.size≤addSector first first ∧ listed d (first::rest)=listing (d.data 0) first []

lemma numbered_injective {parts parts':List Part}(same:numbered parts=numbered parts'):
 parts=parts':=by
 have firsts (l:List Part):(numbered l).map Prod.fst=l:=by simp[numbered]
 rw[←firsts parts,same,firsts]

lemma finds_extended_iff {first:ℕ}{rest:List ℕ}(h:WellFormed d (0::first::rest)):
 Finds d (0::first::rest) ↔ Coincides d first rest:=by
 obtain ⟨⟨e,only,named⟩,-⟩:=h.linked
 have offset:e.offset=first:=named.symm
 obtain ⟨before,after,split⟩:=listing_split only 0
 have reported (past:d.size≤addSector first first):=scan_extended h past
 constructor
 · rintro ⟨depth,scan,result,found⟩
   have done:=(readPartitionTable_isSome d depth 0 0 ⟨0,[]⟩).1 (isSome_iff_exists.2 ⟨scan,result⟩)
   have stops:=stops_of_returns done (h.signatures 0 (by simp)) e (by simp[only])
   have inside:=h.inside first (by simp)
   rw[offset] at stops
   have past:d.size≤addSector first first:=by
    rcases stops with far|⟨-,again⟩
    · omega
    · rw[←offset] at again ⊢
      exact again e (by simp[only])
   refine ⟨past,?_⟩
   rw[partitionScan_unique d result (reported past),addAll_found,nil_append] at found
   have lists:=numbered_injective found
   rw[listed,split,split] at lists
   exact (append_cancel_left (append_cancel_right lists)).symm
 · rintro ⟨past,same⟩
   refine ⟨3,_,reported past,?_⟩
   rw[addAll_found,nil_append,listed,same]
   rfl

/-- On well-formed tables the scan is right exactly when there is no extended table, or reading
the MBR in its place makes no difference. -/
theorem partition_scan_finds_iff (h:WellFormed d chain):Finds d chain ↔
  chain=[0] ∨ ∃first rest,chain=0::first::rest ∧ Coincides d first rest:=by
 rcases chain with _|⟨sector,_|⟨first,rest⟩⟩
 · cases h.mbr
 · obtain rfl:sector=0:=some.inj h.mbr
   exact iff_of_true (finds_plain h) (Or.inl rfl)
 · obtain rfl:sector=0:=some.inj h.mbr
   rw[finds_extended_iff h]
   constructor
   · intro same
     exact Or.inr ⟨first,rest,rfl,same⟩
   · rintro (plain|⟨first',rest',same,coincides⟩)
     · cases plain
     · cases same
       exact coincides

def plainDevice:Device:=⟨8,fun _=>tableOf [⟨0x20,1,2⟩]⟩

/-- A kernel partition and, in sector 4, the table of an extended one. -/
def nestedWith (inner:TableEntry):Device where
 size:=6
 data sector:=
  if sector=4 then tableOf [inner] else tableOf [⟨0x20,1,2⟩,⟨0x05,4,2⟩]

def nested:Device:=nestedWith ⟨0x21,1,1⟩

lemma nested_wellFormed:WellFormed nested [0,4]:=
 ⟨rfl,by decide,by decide,by decide,
  ⟨⟨0x05,4,2⟩,by decide,by decide⟩,(by decide:extended (nested.data 4)=[])⟩

theorem partition_scan_finds_same:(WellFormed plainDevice [0] ∧ Finds plainDevice [0]) ∧
  WellFormed (nestedWith ⟨0x20,1,2⟩) [0,4] ∧ Finds (nestedWith ⟨0x20,1,2⟩) [0,4]:=by
 have plain:WellFormed plainDevice [0]:=
  ⟨rfl,by decide,by decide,by decide,(by decide:extended (plainDevice.data 0)=[])⟩
 have same:WellFormed (nestedWith ⟨0x20,1,2⟩) [0,4]:=
  ⟨rfl,by decide,by decide,by decide,
   ⟨⟨0x05,4,2⟩,by decide,by decide⟩,(by decide:extended (tableOf [⟨0x20,1,2⟩])=[])⟩
 exact ⟨⟨plain,(partition_scan_finds_iff plain).2 (.inl rfl)⟩,
  same,(partition_scan_finds_iff same).2 (.inr ⟨4,[],rfl,by decide,by decide +kernel⟩)⟩

/-- The file system is not found, and the kernel partition is found twice. -/
theorem partition_scan_misses:WellFormed nested [0,4] ∧ ¬Finds nested [0,4]:=by
 refine ⟨nested_wellFormed,fun finds=>?_⟩
 obtain ⟨-,same⟩:=(finds_extended_iff nested_wellFormed).1 finds
 exact absurd same (by decide)

inductive BlockType where
 | kernel
 | filesys
 | scratch
 | swap
 | foreign
 deriving DecidableEq,Repr

/-- What `block_register` is given of a partition; `start` is that of the descriptor. -/
structure Registered where
 type:BlockType
 start:ℕ
 size:ℕ
 deriving DecidableEq,Repr

def blockType (partType:UInt8):BlockType:=
 if partType=0x20 then .kernel
 else if partType=0x21 then .filesys
 else if partType=0x22 then .scratch
 else if partType=0x23 then .swap
 else .foreign

variable (d:Device)

def foundPartition (p:Part):Option Registered:=
 if d.size ≤ p.start then none
 else if addSector p.start p.size<p.start ∨ d.size<addSector p.start p.size then none
 else some ⟨blockType p.type,p.start,p.size⟩

/-- `block_read` of the device; `check_sector` panics past its end. -/
def blockRead (sector:ℕ):Option Sector:=if d.size ≤ sector then none else some (d.data sector)

def blockWrite (sector:ℕ)(buffer:Sector):Option Device:=
 if d.size ≤ sector then none else some {d with data:=Function.update d.data sector buffer}
def partitionRead (p:Registered)(sector:ℕ):Option Sector:=blockRead d (addSector p.start sector)
def partitionWrite (p:Registered)(sector:ℕ)(buffer:Sector):Option Device:=
 blockWrite d (addSector p.start sector) buffer

/-- The numbers of a call are 32-bit words. -/
def Words (p:Part):Prop:=p.start<4294967296 ∧ p.size<4294967296

variable {d}

lemma tableEntry_size (t:Sector){e:TableEntry}(mem:e∈partitions t):e.size<4294967296:=by
 obtain ⟨i,-,rfl⟩:=List.mem_map.1 mem
 exact word_lt ..

lemma foldlM_keeps {σ α:Type}{f:σ→α→Option σ}{I:σ→Prop}(l:List α)
 (step:∀s,∀a∈l,∀t,I s → f s a=some t → I t){s t:σ}(hs:I s)(h:l.foldlM f s=some t):I t:=by
 induction l generalizing s with
 | nil=>exact some.inj h▸hs
 | cons a l ih=>
  obtain ⟨u,first,rest⟩:=bind_eq_some_iff.1 h
  exact ih (fun s b mem=>step s b (List.mem_cons_of_mem a mem))
   (step s a List.mem_cons_self u hs first) rest

lemma readPartitionTable_words {depth sector primary:ℕ}{scan scan':Scan}
 (words:∀x∈scan.found,Words x.1)
 (h:readPartitionTable d depth sector primary scan=some scan'):∀x∈scan'.found,Words x.1:=by
 induction depth generalizing sector primary scan scan' with
 | zero=>cases h
 | succ depth ih=>
  rw[readPartitionTable] at h
  split_ifs at h
  · exact some.inj h▸words
  · exact some.inj h▸words
  · refine foldlM_keeps (I:=fun scan=>∀x∈scan.found,Words x.1) _ ?_ words h
    intro s e mem t before result
    split_ifs at result
    · exact some.inj result▸before
    · exact ih before result
    · obtain rfl:=some.inj result
      simp only[Scan.foundPartition,List.forall_mem_append,List.forall_mem_singleton]
      exact ⟨before,Nat.mod_lt _ (by decide),tableEntry_size _ mem⟩

/-- What is registered lies on the device, and its sectors are those from `start` on. -/
theorem partitions_inside {depth nr:ℕ}{scan:Scan}{p:Part}{r:Registered}
 (run:partitionScan d depth=some scan)(found:(p,nr)∈scan.found)(reg:foundPartition d p=some r):
 addSector r.start r.size=r.start+r.size ∧ r.start+r.size≤d.size ∧
 (∀sector<r.size,addSector r.start sector=r.start+sector ∧
  partitionRead d r sector=some (d.data (r.start+sector)) ∧
  ∀buffer,partitionWrite d r sector buffer=
   some {d with data:=Function.update d.data (r.start+sector) buffer}) ∧
 ∀s<r.size,∀s'<r.size,addSector r.start s=addSector r.start s' → s=s':=by
 obtain ⟨start,size⟩:Words p:=readPartitionTable_words (by simp) run _ found
 rw[foundPartition] at reg
 split_ifs at reg with past wraps
 obtain rfl:=some.inj reg
 simp only[addSector] at wraps ⊢
 have whole:p.start+p.size≤d.size ∧ (p.start+p.size)%4294967296=p.start+p.size:=by omega
 refine ⟨whole.2,whole.1,fun sector inside=>?_,fun s _ s' _ same=>by omega⟩
 have place:(p.start+sector)%4294967296=p.start+sector:=by omega
 have on:¬d.size≤p.start+sector:=by omega
 simp[partitionRead,blockRead,partitionWrite,blockWrite,addSector,place,on]

theorem partitions_inside_plain:∃scan p nr r,partitionScan plainDevice 3=some scan ∧
 (p,nr)∈scan.found ∧ foundPartition plainDevice p=some r ∧
 partitionRead plainDevice r 1=some (tableOf [⟨0x20,1,2⟩]) ∧
 ∀buffer,(partitionWrite plainDevice r 1 buffer).map (·.data 2)=some buffer:=by
 have run:partitionScan plainDevice 3=some ⟨1,[(⟨0x20,1,2⟩,1)]⟩:=by
  decide +kernel
 have reg:foundPartition plainDevice ⟨0x20,1,2⟩=some ⟨.kernel,1,2⟩:=by decide
 have mem:(⟨0x20,1,2⟩,1)∈[((⟨0x20,1,2⟩:Part),1)]:=List.mem_singleton.2 rfl
 obtain ⟨-,read,write⟩:=(partitions_inside run mem reg).2.2.1 1 (by decide)
 refine ⟨_,_,_,_,run,mem,reg,read,fun buffer=>?_⟩
 simp[write]

end Pintos.Partition
