import Pintos.DirectoryMap

namespace Pintos.Directory
open ExecHoare ExecRuns ByteWords Cache List Option

def readdirAll {σ:Type}(io:DirFile σ):ℕ→ℕ→Exec Fault σ (List (List UInt8))
 | 0,_=>throw .endless
 | fuel+1,pos=>do
  match←dirReaddir io pos with
  | (none,_)=>return []
  | (some name,pos)=>
   let rest←readdirAll io fuel pos
   return name::rest

section
variable {σ:Type}{io:DirFile σ}{I:σ→Prop}{slots:List DirEntry}{E:Fault→Prop}{s:σ}

lemma filter_drop_skip {p:DirEntry→Bool}{i j:ℕ}(hij:i≤j)
 (skip:∀k x,i≤k → k<j → slots[k]?=some x → p x=false):
 (slots.drop i).filter p=(slots.drop j).filter p:=by
 induction j with
 | zero=>rw[Nat.le_zero.1 hij]
 | succ j ih=>
  by_cases he:i=j+1
  · rw[he]
  · rw[ih (by omega) (fun k x hk hkj=>skip k x hk (by omega))]
    by_cases hj:j<slots.length
    · rw[drop_eq_getElem_cons hj,filter_cons,
       skip j _ (by omega) (by omega) (getElem?_eq_getElem hj)]
      rfl
    · rw[drop_eq_nil_of_le (by omega),drop_eq_nil_of_le (by omega)]

lemma readdirAll_spec (shows_:io.Shows I slots E)(fuel i:ℕ)(hs:I s)
 (hi:i ≤ slots.length)(hf:slots.length < i+fuel):
 Holds (readdirAll io fuel (20*i)) s (fun r t=>I t ∧
  r=((slots.drop i).filter (·.inUse)).map (·.copyName)) E:=by
 induction fuel generalizing i s with
 | zero=>omega
 | succ fuel ih=>
  refine (dirReaddir_spec shows_ hs hi).seq ?_
  rintro r t ⟨ht,j,hij,skip,⟨e,hx,hu,rfl⟩|⟨hj,rfl⟩⟩
  · have hj:j<slots.length:=(List.getElem?_eq_some_iff.1 hx).1
    refine (ih (j+1) ht hj (by omega)).seq ?_
    rintro rest u ⟨hu',rfl⟩
    refine ⟨hu',?_⟩
    have he:slots[j]=e:=(List.getElem?_eq_some_iff.1 hx).2
    rw[filter_drop_skip hij skip,drop_eq_getElem_cons hj,he,filter_cons,if_pos hu,map_cons]
  · refine ⟨ht,?_⟩
    rw[filter_drop_skip hij skip,hj,drop_length]
    rfl

variable {f:ByteFile}{m:Map}{stack:DirEntry}{opens:Bool}

variable (h:Represents f.slots m)
include h

lemma lookup_sim (name:CString):∃r,(lookup (byteFile f.length stack opens) name).run f=.ok (r,f) ∧
  r.map (·.1.inodeSector)=m.sector name:=by
 obtain ⟨r,t,hr,rfl,looked⟩:=(lookup_spec (byteFile_shows f stack opens) name rfl).returns
 refine ⟨r,hr,?_⟩
 cases r with
 | none=>
  rw[sector_none (fun hm=>?_)]
  · rfl
  · obtain ⟨e,he,hn⟩:=h.has_iff.1 hm
    rw[looked e he] at hn
    cases hn
 | some p=>
  obtain ⟨j,-,hx,first⟩:=looked
  exact (h.sector_of_slot (mem_of_getElem? hx) (find?_some first)).symm

lemma dirLookup_sim (name:CString):
 ∃r,(dirLookup (byteFile f.length stack opens) name).run f=.ok (r,f) ∧
  (r.isSome ↔ m.Has name ∧ opens=true):=by
 have spec:Holds (dirLookup (byteFile f.length stack opens) name) f
   (fun r t=>t=f ∧ (r.isSome ↔ m.Has name ∧ opens=true)) NoFault:=by
  apply dirLookup_rule (byteFile_shows f stack opens) name rfl
  · rintro t rfl absent
    refine ⟨rfl,iff_of_false (by simp) (fun hm=>?_)⟩
    obtain ⟨e,he,hn⟩:=h.has_iff.1 hm.1
    rw[absent e he] at hn
    cases hn
  · rintro t e rfl he hn
    refine ⟨rfl,?_⟩
    have hm:=h.has_iff.2 ⟨e,he,hn⟩
    cases opens<;>simp[hm]
 obtain ⟨r,t,hr,rfl,hiff⟩:=spec.returns
 exact ⟨r,hr,hiff⟩

lemma dirAdd_sim (name:CString){sector:ℕ}(range:sector<2^32):
 Holds (dirAdd (byteFile f.length stack opens) name sector) f (fun r t=>
  t.length=f.length ∧
  ((r=true ∧ m.Admits (f.length/20) name ∧ Represents t.slots ((name,sector)::m)) ∨
   (r=false ∧ ¬m.Admits (f.length/20) name ∧ Represents t.slots m ∧
    (f.length%20=0 → t=f)))) NoFault:=by
 apply dirAdd_rule (byteFile_shows f stack opens) name sector rfl
 · rintro t rfl refusal
   refine ⟨rfl,.inr ⟨rfl,?_,h,fun _=>rfl⟩⟩
   rintro ⟨⟨hne,hlen⟩,absent,-⟩
   rcases refusal with (he|hl) | present
   · exact hne he
   · omega
   · exact absent (h.has_iff.2 present)
 · rintro t e j rfl hne hlen absent vacant
   have habsent:¬m.Has name:=by
    intro hm
    obtain ⟨x,hx,hn⟩:=h.has_iff.1 hm
    rw[absent x hx] at hn
    cases hn
   have room:=h.vacant vacant
   rw[t.slots_length] at room
   refine ⟨rfl,?_⟩
   rcases vacant with ⟨hx,hu⟩|⟨rfl,-⟩
   · have hj:j<t.length/20:=by
      rw[←t.slots_length]
      exact (List.getElem?_eq_some_iff.1 hx).1
     obtain ⟨hn,hslots⟩:=t.write_slot (e.fill name sector) hj
     refine .inl ⟨by simpa using hn,⟨⟨hne,hlen⟩,habsent,room.1 hj⟩,?_⟩
     rw[hslots]
     exact h.add hx hu ⟨hne,hlen⟩ habsent range
   · rw[t.slots_length] at room ⊢
     obtain ⟨hn,hslots,same⟩:=t.write_end (e.fill name sector)
     refine .inr ⟨by simpa using hn,?_,by rw[hslots];exact h,same⟩
     rintro ⟨-,-,hlt⟩
     exact absurd (room.2 hlt) (Nat.lt_irrefl _)

lemma dirRemove_sim (name:CString):
 Holds (dirRemove (byteFile f.length stack opens) name) f (fun r t=>
  t.length=f.length ∧
  ((r=true ∧ (m.Has name ∧ opens=true) ∧ Represents t.slots (m.filter (fun p=>p.1≠name))) ∨
   (r=false ∧ ¬(m.Has name ∧ opens=true) ∧ t=f))) NoFault:=by
 apply dirRemove_rule (byteFile_shows f stack opens) name rfl
 · rintro t rfl absent
   refine ⟨rfl,.inr ⟨rfl,fun hm=>?_,rfl⟩⟩
   obtain ⟨e,he,hn⟩:=h.has_iff.1 hm.1
   rw[absent e he] at hn
   cases hn
 · rintro t e j rfl hx first
   have hn:=find?_some first
   have hm:=h.has_iff.2 ⟨e,mem_of_getElem? hx,hn⟩
   cases opens with
   | false=>exact ⟨rfl,.inr ⟨rfl,by simp,rfl⟩⟩
   | true=>
    have hj:j<t.length/20:=by
     rw[←t.slots_length]
     exact (List.getElem?_eq_some_iff.1 hx).1
    obtain ⟨hn',hslots⟩:=t.write_slot e.clear hj
    change Holds (if (t.write e.clear (20*j)).1=20 then _ else _) _ _ _
    rw[if_pos hn']
    refine ⟨rfl,.inl ⟨rfl,⟨hm,rfl⟩,?_⟩⟩
    rw[hslots]
    exact h.remove hx hn

lemma readdir_sim:∃names,(readdirAll (byteFile f.length stack opens) (f.length/20+1) 0).run f=
   .ok (names,f) ∧ names.Perm (m.map (·.1.val)) ∧ names.Nodup:=by
 have spec:=readdirAll_spec (byteFile_shows f stack opens) (f.length/20+1) 0 rfl
  (Nat.zero_le _) (by rw[f.slots_length];omega)
 obtain ⟨names,t,hr,rfl,rfl⟩:=spec.returns
 have hnames:((t.slots.drop 0).filter (·.inUse)).map (·.copyName)=
   ((t.slots.filter (·.inUse)).map decode).map (·.1.val):=by
  rw[drop_zero,List.map_map]
  apply map_congr_left
  intro e he
  obtain ⟨hs,hu⟩:=mem_filter.1 he
  exact e.copyName_eq (h.proper e hs hu).2
 have perm:(((t.slots.filter (·.inUse)).map decode).map (·.1.val)).Perm (m.map (·.1.val)):=
  h.entries.map _
 refine ⟨_,hr,?_,?_⟩
 · rw[hnames]
   exact perm
 · rw[hnames,perm.nodup_iff]
   have:=h.distinct.map (f:=fun c:CString=>c.val) Subtype.val_injective
   rwa[List.map_map] at this

end

instance (n:ℕ)(m:Map)(name:CString):Decidable (m.Admits n name):=
 inferInstanceAs (Decidable ((_ ∧ _) ∧ ¬name∈_ ∧ _))
def Map.add (n:ℕ)(m:Map)(name:CString)(sector:ℕ):Map:=
 if m.Admits n name then (name,sector)::m else m

/-- The name goes when its inode could be opened. -/
def Map.remove (m:Map)(name:CString)(opens:Bool):Map:=
 if opens then m.filter (fun p=>p.1≠name) else m

structure Session where
 file:ByteFile
 map:Map
 pos:ℕ

inductive Op where
 | add (name:CString) (sector:ℕ) (stack:DirEntry)
 | remove (name:CString) (opens:Bool) (stack:DirEntry)
 | lookup (name:CString) (opens:Bool) (stack:DirEntry)
 | readdir (stack:DirEntry)
 | rewind

def next (n:ℕ)(s:Session):Op→Option Session
 | .add name sector stack=>
  (result (dirAdd (byteFile s.file.length stack true) name sector) s.file).map
   (fun r=>{s with file:=r.2,map:=s.map.add n name sector})
 | .remove name opens stack=>
  (result (dirRemove (byteFile s.file.length stack opens) name) s.file).map
   (fun r=>{s with file:=r.2,map:=s.map.remove name opens})
 | .lookup name opens stack=>
  (result (dirLookup (byteFile s.file.length stack opens) name) s.file).map
   (fun r=>{s with file:=r.2})
 | .readdir stack=>
  (result (dirReaddir (byteFile s.file.length stack true) s.pos) s.file).map
   (fun r=>{s with file:=r.2,pos:=r.1.2})
 | .rewind=>some {s with pos:=0}

def InRange (_:Session):Op→Prop
 | .add _ sector _=>sector<2^32
 | _=>True

structure IsMap (n:ℕ)(s:Session):Prop where
 bound:s.map.length≤n
 valid:∀p∈s.map,p.1.val≠[] ∧ p.1.val.length≤nameMax
 lookup:∀name stack opens,∃r,
  (lookup (byteFile s.file.length stack opens) name).run s.file=.ok (r,s.file) ∧
   r.map (·.1.inodeSector)=s.map.sector name
 dirLookup:∀name stack opens,∃r,
  (dirLookup (byteFile s.file.length stack opens) name).run s.file=.ok (r,s.file) ∧
   (r.isSome ↔ s.map.Has name ∧ opens=true)
 add:∀name sector stack,sector<2^32 → ∃r f,
  (dirAdd (byteFile s.file.length stack true) name sector).run s.file=.ok (r,f) ∧
   (r=true ↔ s.map.Admits n name) ∧ (r=false → f=s.file)
 remove:∀name stack opens,∃r f,
  (dirRemove (byteFile s.file.length stack opens) name).run s.file=.ok (r,f) ∧
   (r=true ↔ s.map.Has name ∧ opens=true) ∧ (r=false → f=s.file)
 distinct:((s.file.slots.filter (·.inUse)).map (·.name)).Nodup
 readdir:∀stack opens,∃names,
  (readdirAll (byteFile s.file.length stack opens) (s.file.length/20+1) 0).run s.file=
    .ok (names,s.file) ∧ names.Perm (s.map.map (·.1.val)) ∧ names.Nodup

/-- The file has as many slots as the map may have entries, and represents it. -/
structure Inv (n:ℕ)(s:Session):Prop where
 length:s.file.length=n*20
 represents:Represents s.file.slots s.map
 pos:∃i≤n,s.pos=20*i

variable {n:ℕ}{s u:Session}{stack:DirEntry}

lemma Inv.capacity (h:Inv n s):s.file.length/20=n:=by
 rw[h.length]
 omega
lemma Inv.slots_length (h:Inv n s):s.file.slots.length=n:=by
 rw[s.file.slots_length,h.capacity]

lemma Inv.add (h:Inv n s){name:CString}{sector:ℕ}(range:sector<2^32)
 (step:next n s (.add name sector stack)=some u):Inv n u:=by
 obtain ⟨r,hr,rfl⟩:=map_eq_some_iff.1 step
 obtain ⟨hlen,cases_⟩:=(dirAdd_sim h.represents name range).result hr
 rw[h.capacity] at cases_
 refine ⟨hlen.trans h.length,?_,h.pos⟩
 unfold Map.add
 rcases cases_ with ⟨-,admits,hrep⟩|⟨-,admits,hrep,-⟩
 · rwa[if_pos admits]
 · rwa[if_neg admits]

lemma filter_not_has {m:Map}{name:CString}(h:¬m.Has name):m.filter (fun p=>p.1≠name)=m:=by
 rw[filter_eq_self]
 intro p hp
 have:p.1≠name:=fun he=>h (List.mem_map.2 ⟨p,hp,he⟩)
 simpa using this

lemma Inv.remove (h:Inv n s){name:CString}{opens:Bool}
 (step:next n s (.remove name opens stack)=some u):Inv n u:=by
 obtain ⟨r,hr,rfl⟩:=map_eq_some_iff.1 step
 obtain ⟨hlen,cases_⟩:=(dirRemove_sim h.represents name).result hr
 refine ⟨hlen.trans h.length,?_,h.pos⟩
 unfold Map.remove
 rcases cases_ with ⟨-,⟨-,hopens⟩,hrep⟩|⟨-,hnot,hfile⟩
 · rwa[if_pos hopens]
 · rw[hfile]
   split
   · rename_i hopens
     rw[filter_not_has (fun hm=>hnot ⟨hm,hopens⟩)]
     exact h.represents
   · exact h.represents

lemma Inv.lookup (h:Inv n s){name:CString}{opens:Bool}
 (step:next n s (.lookup name opens stack)=some u):Inv n u:=by
 obtain ⟨r,hr,rfl⟩:=map_eq_some_iff.1 step
 obtain ⟨r',hr',-⟩:=@dirLookup_sim s.file s.map stack opens h.represents name
 obtain rfl:(r',s.file)=r:=by
  rw[result_eq_some,hr'] at hr
  exact Except.ok.inj hr
 exact h

lemma Inv.readdir (h:Inv n s)(step:next n s (.readdir stack)=some u):Inv n u:=by
 obtain ⟨r,hr,rfl⟩:=map_eq_some_iff.1 step
 obtain ⟨i,hi,hpos⟩:=h.pos
 rw[hpos] at hr
 have spec:=dirReaddir_spec (byteFile_shows s.file stack true) rfl
  (i:=i) (by rw[h.slots_length];exact hi)
 obtain ⟨hfile,j,-,-,hend⟩:=spec.result hr
 have pos:∃i≤n,r.1.2=20*i:=by
  rcases hend with ⟨e,hx,-,hr⟩|⟨hj,hr⟩
  · have hj:=(List.getElem?_eq_some_iff.1 hx).1
    rw[h.slots_length] at hj
    exact ⟨j+1,hj,by rw[hr]⟩
  · rw[h.slots_length] at hj
    exact ⟨j,by omega,by rw[hr]⟩
 obtain ⟨⟨name,at_⟩,file⟩:=r
 obtain rfl:file=s.file:=hfile
 exact ⟨h.length,h.represents,pos⟩

lemma Inv.next {op:Op}(h:Inv n s)(range:InRange s op)(step:next n s op=some u):Inv n u:=by
 cases op with
 | add name sector stack=>exact h.add range step
 | remove name opens stack=>exact h.remove step
 | lookup name opens stack=>exact h.lookup step
 | readdir stack=>exact h.readdir step
 | rewind=>
  obtain rfl:=Option.some.inj step
  exact ⟨h.length,h.represents,0,Nat.zero_le n,rfl⟩

lemma Inv.isMap (h:Inv n s):IsMap n s where
 bound:=by
  rw[h.represents.length,←h.slots_length]
  exact length_filter_le _ _
 valid p hp:=by
  obtain ⟨e,he,hu,rfl⟩:=h.represents.slot_of_mem hp
  exact h.represents.proper e he hu
 lookup name stack opens:=lookup_sim h.represents name
 dirLookup name stack opens:=dirLookup_sim h.represents name
 add name sector stack range:=by
  obtain ⟨r,f,hr,-,cases_⟩:=(dirAdd_sim h.represents name range).returns
  rw[h.capacity] at cases_
  refine ⟨r,f,hr,?_⟩
  rcases cases_ with ⟨rfl,admits,-⟩|⟨rfl,admits,-,same⟩
  · exact ⟨iff_of_true rfl admits,by simp⟩
  · refine ⟨iff_of_false (by simp) admits,fun _=>same ?_⟩
    rw[h.length]
    omega
 remove name stack opens:=by
  obtain ⟨r,f,hr,-,cases_⟩:=(dirRemove_sim h.represents name).returns
  refine ⟨r,f,hr,?_⟩
  rcases cases_ with ⟨rfl,hm,-⟩|⟨rfl,hm,same⟩
  · exact ⟨iff_of_true rfl hm,by simp⟩
  · exact ⟨iff_of_false (by simp) hm,fun _=>same⟩
 distinct:=by
  have:=(h.represents.entries.map (·.1)).nodup_iff.2 h.represents.distinct
  rwa[List.map_map] at this
 readdir stack opens:=readdir_sim h.represents

lemma dirCreate_represents {f:ByteFile}(made:dirCreate n=some f):
 f.length=n*20%2^32 ∧ f.length<2^31 ∧ Represents f.slots []:=by
 unfold dirCreate at made
 dsimp only at made
 split at made
 swap
 · cases made
 rename_i hlen
 obtain rfl:=Option.some.inj made
 refine ⟨rfl,hlen,?_,?_,nodup_nil⟩
 · have none_used:(ByteFile.slots ⟨n*20%2^32,fun _=>0⟩).filter (·.inUse)=[]:=by
    rw[filter_eq_nil_iff]
    intro e he
    obtain ⟨i,-,rfl⟩:=List.mem_map.1 he
    exact Bool.false_ne_true
   rw[none_used]
   exact Perm.refl _
 · intro e he hu
   obtain ⟨i,-,rfl⟩:=List.mem_map.1 he
   cases hu

def digit (x:ℕ):UInt8:=UInt8.ofNat (x%128+1)
lemma digit_toNat (x:ℕ):(digit x).toNat=x%128+1:=by
 unfold digit
 rw[UInt8.toNat_ofNat']
 omega

lemma digit_ne_zero (x:ℕ):0≠digit x:=by
 intro h
 have:=congrArg UInt8.toNat h
 rw[digit_toNat,UInt8.toNat_zero] at this
 omega

lemma digit_inj {x y:ℕ}(h:digit x=digit y):x%128=y%128:=by
 have:=congrArg UInt8.toNat h
 rw[digit_toNat,digit_toNat] at this
 omega
def nameOf (i:ℕ):CString:=
 ⟨[digit i,digit (i/128),digit (i/128^2),digit (i/128^3)],by
  simp[digit_ne_zero]⟩

lemma nameOf_inj {i j:ℕ}(hi:i<2^28)(hj:j<2^28)(h:nameOf i=nameOf j):i=j:=by
 simp only[nameOf,Subtype.mk.injEq,List.cons.injEq,and_true] at h
 obtain ⟨h₀,h₁,h₂,h₃⟩:=h
 have d₀:=digit_inj h₀
 have d₁:=digit_inj h₁
 have d₂:=digit_inj h₂
 have d₃:=digit_inj h₃
 omega

lemma runs_filled {f:ByteFile}(made:dirCreate n=some f)(few:f.length/20≤n){k:ℕ}
 (hk:k≤f.length/20):∃ops s,Runs (next n) InRange ⟨f,[],0⟩ ops s ∧
  s.file.length=f.length ∧ Represents s.file.slots s.map ∧ s.map.length=k ∧
  ∀c,s.map.Has c → ∃i<k,c=nameOf i:=by
 obtain ⟨-,hlen,hrep⟩:=dirCreate_represents made
 induction k with
 | zero=>exact ⟨[],_,.nil _,rfl,hrep,rfl,fun c hc=>by cases hc⟩
 | succ k ih=>
  obtain ⟨ops,s,run,hfile,hs,hcount,hnames⟩:=ih (by omega)
  have absent:¬s.map.Has (nameOf k):=by
   intro hm
   obtain ⟨i,hi,he⟩:=hnames _ hm
   have:=nameOf_inj (by omega) (by omega) he
   omega
  have valid:(nameOf k).val≠[] ∧ (nameOf k).val.length≤nameMax:=by
   simp[nameOf,nameMax]
  obtain ⟨r,t,hr,hlen',added⟩:=
   (@dirAdd_sim s.file s.map (fun _=>0) true hs (nameOf k) 0 (by omega)).returns
  have room:s.map.Admits (s.file.length/20) (nameOf k):=⟨valid,absent,by omega⟩
  rcases added with ⟨-,-,ht⟩|⟨-,refused,-⟩
  swap
  · exact absurd room refused
  have step:next n s (.add (nameOf k) 0 (fun _=>0))=
    some {s with file:=t,map:=s.map.add n (nameOf k) 0}:=by
   change (result _ _).map _=_
   rw[result_eq_some.2 hr]
   rfl
  have admits:s.map.add n (nameOf k) 0=(nameOf k,0)::s.map:=if_pos ⟨valid,absent,by omega⟩
  have range:InRange s (.add (nameOf k) 0 (fun _=>0)):=Nat.two_pow_pos 32
  refine ⟨_,_,run.snoc range step,hlen'.trans hfile,?_,?_,?_⟩
  · simp only[admits]
    exact ht
  · simp only[admits,length_cons,hcount]
  · intro c hc
    simp only[admits,Map.Has,map_cons,mem_cons] at hc
    rcases hc with rfl|hc
    · exact ⟨k,by omega,rfl⟩
    · obtain ⟨i,hi,he⟩:=hnames c hc
      exact ⟨i,by omega,he⟩

/-- A directory made for `n` entries is a map of at most `n` entries in every
run just when the size of `n` entries fits a `size_t`. -/
theorem directory_isMap_iff {f:ByteFile}(made:dirCreate n=some f):
 (∀ops s,Runs (next n) InRange ⟨f,[],0⟩ ops s → IsMap n s) ↔ n*20<2^32:=by
 obtain ⟨hsize,hlen,hrep⟩:=dirCreate_represents made
 constructor
 · intro behaves
   by_contra wrapped
   have few:f.length/20<n:=by omega
   obtain ⟨ops,s,run,hfile,hs,hcount,hnames⟩:=runs_filled made (Nat.le_of_lt few) (Nat.le_refl _)
   have absent:¬s.map.Has (nameOf (f.length/20)):=by
    intro hm
    obtain ⟨i,hi,he⟩:=hnames _ hm
    have:=nameOf_inj (by omega) (by omega) he
    omega
   have admits:s.map.Admits n (nameOf (f.length/20)):=⟨by simp[nameOf,nameMax],absent,by omega⟩
   obtain ⟨r,t,hr,hiff,-⟩:=(behaves ops s run).add (nameOf (f.length/20)) 0 (fun _=>0) (by omega)
   obtain ⟨-,added⟩:=(dirAdd_sim hs (nameOf (f.length/20)) (by omega)).ok hr
   -- the sizes differ, so one of the two maps has no room for the name
   rcases added with ⟨-,⟨-,-,room⟩,-⟩|⟨hr,-⟩
   · omega
   · rw[hiff.2 admits] at hr
     cases hr
 · intro fits ops s run
   have start:Inv n ⟨f,[],0⟩:=⟨by rw[hsize];omega,hrep,0,Nat.zero_le n,rfl⟩
   exact (run.invariant (fun s op u h range step=>h.next range step) start).isMap

theorem directory_isMap_sixteen:∃f,dirCreate 16=some f ∧
 ∀ops s,Runs (next 16) InRange ⟨f,[],0⟩ ops s → IsMap 16 s:=
 ⟨_,rfl,(directory_isMap_iff rfl).2 (by decide)⟩

/-- `dir_create` for 214748365 entries makes a file of four bytes: the first
`dir_add` is refused, and has changed the file. -/
theorem wrapped_directory_full:∃f f' name,dirCreate 214748365=some f ∧ f.length=4 ∧
 Map.Admits 214748365 [] name ∧
 (dirAdd (byteFile f.length (fun _=>0) true) name 7).run f=.ok (false,f') ∧
 f'.bytes 0≠f.bytes 0 ∧ ¬IsMap 214748365 ⟨f,[],0⟩:=by
 have admits:Map.Admits 214748365 [] (nameOf 0):=by decide
 have run:∃f',(dirAdd (byteFile 4 (fun _=>0) true) (nameOf 0) 7).run
   ⟨4,fun _=>0⟩=.ok (false,f') ∧ f'.bytes 0≠0:=⟨_,rfl,by decide⟩
 obtain ⟨f',hr,hbytes⟩:=run
 refine ⟨⟨4,fun _=>0⟩,f',nameOf 0,rfl,rfl,admits,hr,hbytes,fun isMap=>?_⟩
 obtain ⟨r,t,hr',hiff,-⟩:=isMap.add (nameOf 0) 7 (fun _=>0) (by omega)
 obtain ⟨rfl,-⟩:=Prod.mk.inj (Except.ok.inj (hr'.symm.trans hr))
 exact Bool.false_ne_true (hiff.2 admits)

end Pintos.Directory
