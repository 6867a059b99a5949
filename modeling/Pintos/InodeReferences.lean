import Pintos.InodeTable

namespace Pintos.InodeTable
open ExecRuns Function List Option

/-- A call, with the reference it uses: the sector that was opened and the
object it got for it. `none` is the null pointer. -/
inductive Call where
 | open (sector:ℕ) (memory:Bool) (data:InodeDisk)
 | reopen (ref:Option (ℕ×ℕ))
 | remove (ref:ℕ×ℕ)
 | close (ref:Option (ℕ×ℕ))
 deriving DecidableEq,Repr

/-- The table with what an observer notes: the references outstanding, each
object's sector and header, the objects removed, and every sector range that
was released, with the object it belonged to. -/
structure Tracked where
 table:Table
 refs:List (ℕ×ℕ)
 made:ℕ→ℕ×InodeDisk
 condemned:List ℕ
 released:List (ℕ×ℕ×ℕ)

def next (t:Tracked):Call→Option Tracked
 | .open sector memory data=>
  let (p,table):=inodeOpen t.table sector memory data
  some {t with
   table:=table
   refs:=(p.map (fun p=>(sector,p))).toList++t.refs
   made:=if table.nextId=t.table.nextId then t.made
    else update t.made t.table.nextId (sector,data)}
 | .reopen ref=>
  (inodeReopen t.table (ref.map (·.2))).map fun (_,table)=>
   {t with table:=table,refs:=ref.toList++t.refs}
 | .remove ref=>
  (inodeRemove t.table ref.2).map fun table=>
   {t with table:=table,condemned:=ref.2::t.condemned}
 | .close none=>
  (inodeClose t.table none).map fun (_,table)=>{t with table:=table}
 | .close (some ref)=>
  (inodeClose t.table (some ref.2)).map fun (ranges,table)=>
   {t with
     table:=table
     refs:=t.refs.erase ref
     released:=t.released++ranges.map (fun r=>(ref.2,r))}

def Holding (t:Tracked):Call→Prop
 | .open _ _ _ | .reopen none | .close none=>True
 | .reopen (some ref) | .remove ref | .close (some ref)=>ref∈t.refs
instance (t:Tracked):∀c,Decidable (Holding t c)
 | .open _ _ _ | .reopen none | .close none=>.isTrue trivial
 | .reopen (some ref) | .remove ref | .close (some ref)=>
  inferInstanceAs (Decidable (ref∈t.refs))

/-- What is released for an object, if anything ever is. -/
def ranges (t:Tracked)(p:ℕ):List (ℕ×ℕ×ℕ):=
 [(p,(t.made p).1,1),(p,(t.made p).2.start,bytesToSectors (t.made p).2.length)]

structure Inv (t:Tracked):Prop where
 counted:Counted t.table t.refs
 origin:∀i∈t.table.openInodes,t.made i.id=(i.sector,i.data)
 flag:∀i∈t.table.openInodes,i.removed=true ↔ i.id∈t.condemned
 old:∀p∈t.condemned,p<t.table.nextId
 log:∀p,t.released.filter (fun r=>r.1=p)=
  if p∈t.condemned ∧ openers t.refs p=0 then ranges t p else []

section
variable {t u:Tracked}{i:Inode}{r:ℕ×ℕ}

lemma Inv.log_congr (h:Inv t)(same:u.released=t.released)(made:∀p<t.table.nextId,u.made p=t.made p)
 (closed:∀p,p∈u.condemned ∧ openers u.refs p=0 ↔ p∈t.condemned ∧ openers t.refs p=0)
 (p:ℕ):u.released.filter (fun r=>r.1=p)=
  if p∈u.condemned ∧ openers u.refs p=0 then ranges u p else []:=by
 rw[same,h.log p]
 by_cases hp:p∈t.condemned ∧ openers t.refs p=0
 · rw[if_pos hp,if_pos ((closed p).2 hp)]
   simp only[ranges,made p (h.old p hp.1)]
 · rw[if_neg hp,if_neg (fun hu=>hp ((closed p).1 hu))]

lemma Inv.change (h:Inv t){p:ℕ}{f:Inode→Inode}(table:u.table=t.table.set p f)
 (keep:∀i,(f i).id=i.id ∧ (f i).sector=i.sector ∧ (f i).data=i.data)
 (made:u.made=t.made)(released:u.released=t.released)
 (counted:Counted u.table u.refs)
 (own:∀i∈t.table.openInodes,i.id=p → ((f i).removed=true ↔ p∈u.condemned))
 (other:∀q,q≠p → openers u.refs q=openers t.refs q ∧ (q∈u.condemned ↔ q∈t.condemned))
 (stays:1≤openers t.refs p ∧ 1≤openers u.refs p):Inv u:=by
 have back:∀j∈u.table.openInodes,∃i∈t.table.openInodes,(i.id=p ∧ j=f i) ∨ (i.id≠p ∧ j=i):=by
  intro j hj
  rw[table] at hj
  exact KeyedList.mem_set.1 hj
 refine ⟨counted,fun j hj=>?_,fun j hj=>?_,fun q hq=>?_,
  h.log_congr released (fun p _=>by rw[made]) fun q=>?_⟩
 · rw[made]
   obtain ⟨i,hi,⟨hp,rfl⟩|⟨hp,rfl⟩⟩:=back j hj
   · rw[(keep i).1,(keep i).2.1,(keep i).2.2]
     exact h.origin i hi
   · exact h.origin j hi
 · obtain ⟨i,hi,⟨hp,rfl⟩|⟨hp,rfl⟩⟩:=back j hj
   · rw[(keep i).1,hp]
     exact own i hi hp
   · rw[(other j.id hp).2]
     exact h.flag j hi
 · rw[table]
   by_cases hqp:q=p
   · by_contra hnew
     have:=h.counted.openers_new (Nat.le_of_not_lt hnew)
     rw[hqp] at this
     omega
   · exact h.old q ((other q hqp).2.1 hq)
 · by_cases hqp:q=p
   · subst hqp
     exact iff_of_false (by omega) (by omega)
   · rw[(other q hqp).1,(other q hqp).2]

lemma Inv.addRef (h:Inv t)(hi:i∈t.table.openInodes)
 (table:u.table=t.table.set i.id (fun i=>{i with openCnt:=i.openCnt+1}))
 (refs:u.refs=(i.sector,i.id)::t.refs)(condemned:u.condemned=t.condemned)
 (made:u.made=t.made)(released:u.released=t.released):Inv u:=by
 refine h.change table (fun _=>⟨rfl,rfl,rfl⟩) made released ?_ ?_ ?_ ?_
 · rw[table,refs]
   exact h.counted.addRef hi
 · intro j hj he
   rw[condemned,←he]
   exact h.flag j hj
 · intro q hq
   rw[refs,openers_cons,if_neg (Ne.symm hq),condemned]
   exact ⟨rfl,Iff.rfl⟩
 · have:=(h.counted.count i hi).2
   rw[refs,openers_cons,if_pos rfl]
   omega

lemma Inv.new (h:Inv t){sector:ℕ}(data:InodeDisk)(fresh:openedAt t.table sector=none)
 (table:u.table=(pushInode t.table sector data).2)
 (refs:u.refs=(sector,t.table.nextId)::t.refs)(condemned:u.condemned=t.condemned)
 (made:u.made=update t.made t.table.nextId (sector,data))
 (released:u.released=t.released):Inv u:=by
 have old_made:∀p<t.table.nextId,u.made p=t.made p:=by
  intro p hp
  rw[made,update_of_ne (by omega)]
 have opened:u.table.openInodes=⟨t.table.nextId,sector,1,false,0,data⟩::t.table.openInodes:=by
  rw[table]
  rfl
 have next:u.table.nextId=t.table.nextId+1:=by
  rw[table]
  rfl
 refine ⟨?_,fun i hi=>?_,fun i hi=>?_,fun p hp=>?_,h.log_congr released old_made fun q=>?_⟩
 · rw[table,refs]
   exact h.counted.push data fresh
 · rw[opened] at hi
   rcases mem_cons.1 hi with rfl|hi
   · rw[made,update_self]
   · rw[old_made i.id (h.counted.wf.bound i hi)]
     exact h.origin i hi
 · rw[opened] at hi
   rw[condemned]
   rcases mem_cons.1 hi with rfl|hi
   · refine ⟨fun hf=>(by cases hf),fun hc=>?_⟩
     have:=h.old _ hc
     dsimp only at this
     omega
   · exact h.flag i hi
 · rw[condemned] at hp
   have:=h.old p hp
   omega
 · rw[condemned,refs,openers_cons]
   by_cases hq:t.table.nextId=q
   · subst hq
     have fresh_id:t.table.nextId∉t.condemned:=fun hc=>Nat.lt_irrefl _ (h.old _ hc)
     exact iff_of_false (fun hc=>fresh_id hc.1) (fun hc=>fresh_id hc.1)
   · rw[if_neg hq,Nat.add_zero]

lemma Inv.remove (h:Inv t)(hr:r∈t.refs)
 (table:u.table=t.table.set r.2 (fun i=>{i with removed:=true}))
 (refs:u.refs=t.refs)(condemned:u.condemned=r.2::t.condemned)(made:u.made=t.made)
 (released:u.released=t.released):Inv u:=by
 refine h.change table (fun _=>⟨rfl,rfl,rfl⟩) made released ?_ ?_ ?_ ?_
 · rw[table,refs]
   exact h.counted.touch (fun _=>⟨rfl,rfl,rfl⟩)
 · rw[condemned]
   simp
 · intro q hq
   rw[refs,condemned]
   simp[hq]
 · rw[refs]
   exact ⟨openers_pos hr,openers_pos hr⟩

lemma Inv.counted_erase (h:Inv t)(hr:r∈t.refs):Counted t.table (r::t.refs.erase r):=
 h.counted.perm (perm_cons_erase hr)
lemma openers_erase {refs:List (ℕ×ℕ)}(hr:r∈refs)(q:ℕ):
 openers refs q=openers (refs.erase r) q+if r.2=q then 1 else 0:=by
 rw[←openers_cons]
 exact (perm_cons_erase hr).countP_eq _

lemma Inv.closeShared (h:Inv t)(hr:r∈t.refs)(hi:i∈t.table.openInodes)
 (hid:i.id=r.2)(shared:i.openCnt-1≠0)
 (table:u.table=t.table.set r.2 (fun i=>{i with openCnt:=i.openCnt-1}))
 (refs:u.refs=t.refs.erase r)(condemned:u.condemned=t.condemned)
 (made:u.made=t.made)(released:u.released=t.released):Inv u:=by
 have hcount:=openers_erase hr
 refine h.change table (fun _=>⟨rfl,rfl,rfl⟩) made released ?_ ?_ ?_ ?_
 · rw[table,refs]
   exact (h.counted_erase hr).closeShared hi hid shared
 · intro j hj he
   rw[condemned,←he]
   exact h.flag j hj
 · intro q hq
   rw[refs,hcount q,if_neg (Ne.symm hq),condemned]
   exact ⟨rfl,Iff.rfl⟩
 · have hc:=(h.counted.count i hi).1
   rw[hid,hcount r.2,if_pos rfl] at hc
   rw[refs,hcount r.2,if_pos rfl]
   omega

lemma Inv.closeLast (h:Inv t)(hr:r∈t.refs)(hi:i∈t.table.openInodes)(hid:i.id=r.2)
 (last:i.openCnt-1=0)(table:u.table=
  {t.table with openInodes:=KeyedList.erase Inode.id r.2 t.table.openInodes})
 (refs:u.refs=t.refs.erase r)(condemned:u.condemned=t.condemned)
 (made:u.made=t.made)(released:u.released=t.released ++
  (if i.removed then i.extent else []).map (fun x=>(r.2,x))):Inv u:=by
 have hcount:=openers_erase hr
 obtain ⟨none_left,counted⟩:=(h.counted_erase hr).closeLast hi hid last
 have kept:∀j∈u.table.openInodes,j∈t.table.openInodes:=by
  intro j hj
  rw[table] at hj
  exact KeyedList.erase_sublist.subset hj
 refine ⟨by rw[table,refs];exact counted,fun j hj=>?_,fun j hj=>?_,fun p hp=>?_,fun p=>?_⟩
 · rw[made]
   exact h.origin j (kept j hj)
 · rw[condemned]
   exact h.flag j (kept j hj)
 · rw[condemned] at hp
   rw[table]
   exact h.old p hp
 · have hranges:ranges u p=ranges t p:=by
    simp only[ranges,made]
   rw[released,filter_append,h.log p,condemned,hranges,refs]
   by_cases hp:p=r.2
   · subst hp
     have horigin:=h.origin i hi
     have hflag:=h.flag i hi
     have hpos:=openers_pos hr
     rw[hid] at horigin hflag
     rw[if_neg (by omega)]
     cases hrem:i.removed with
     | true=>
      have closed:r.2∈t.condemned ∧ openers (t.refs.erase r) r.2=0:=⟨hflag.1 hrem,none_left⟩
      rw[if_pos closed]
      simp[Inode.extent,ranges,horigin]
     | false=>
      have spared:¬(r.2∈t.condemned ∧ openers (t.refs.erase r) r.2=0):=by
       intro hu
       rw[hflag.2 hu.1] at hrem
       cases hrem
      rw[if_neg spared]
      simp
   · have hnone:((if i.removed then i.extent else []).map (fun x=>(r.2,x))).filter
       (fun x=>x.1=p)=[]:=by
      apply filter_eq_nil_iff.2
      intro x hx
      obtain ⟨y,-,rfl⟩:=List.mem_map.1 hx
      simpa using Ne.symm hp
     rw[hnone,append_nil,hcount p,if_neg (Ne.symm hp),Nat.add_zero]

lemma Inv.next (h:Inv t){c:Call}(holding:Holding t c)(step:InodeTable.next t c=some u):Inv u:=by
 cases c with
 | «open» sector memory data=>
  simp only[InodeTable.next,some.injEq] at step
  subst step
  cases ho:openedAt t.table sector with
  | some i=>
   obtain ⟨hi,rfl⟩:=KeyedList.find_mem ho
   refine h.addRef hi ?_ ?_ rfl ?_ rfl<;>simp[inodeOpen,ho,Table.set]
  | none=>
   cases memory with
   | true=>refine h.new data ho ?_ ?_ rfl ?_ rfl<;>simp[inodeOpen,ho,pushInode]
   | false=>simpa[inodeOpen,ho] using h
 | reopen ref=>
  cases ref with
  | none=>
   obtain rfl:t=u:=by simpa[InodeTable.next,inodeReopen] using step
   exact h
  | some r=>
   obtain ⟨i,hi,hid,hs,hf⟩:=h.counted.find holding
   simp only[InodeTable.next,inodeReopen,map_some,hf,some.injEq] at step
   subst step
   refine h.addRef hi ?_ ?_ rfl rfl rfl
   · rw[hid]
   · simp[hid,hs]
 | remove r=>
  obtain ⟨i,hi,hid,-,hf⟩:=h.counted.find holding
  simp only[InodeTable.next,inodeRemove,hf,map_some,some.injEq] at step
  subst step
  exact h.remove holding rfl rfl rfl rfl rfl
 | close ref=>
  cases ref with
  | none=>
   obtain rfl:t=u:=by simpa[InodeTable.next,inodeClose] using step
   exact h
  | some r=>
   obtain ⟨i,hi,hid,-,hf⟩:=h.counted.find holding
   simp only[InodeTable.next,inodeClose,hf,map_some,some.injEq] at step
   subst step
   by_cases last:i.openCnt-1=0
   · refine h.closeLast holding hi hid last ?_ rfl rfl rfl ?_<;>simp[last]
   · refine h.closeShared holding hi hid last ?_ rfl rfl rfl ?_<;>simp[last]

end

lemma inv_empty (made:ℕ→ℕ×InodeDisk):Inv ⟨⟨[],0⟩,[],made,[],[]⟩:=by
 refine ⟨⟨⟨by simp,by simp,by simp⟩,by simp,by simp⟩,by simp,by simp,by simp,fun p=>?_⟩
 simp

/-- Over every sequence of calls that use the references they hold: a sector is
open at most once, references to one sector are references to one object, an
inode counts its openers, and its sectors are released, header and data once
each, when it was removed and its last reference is closed, and not before. -/
theorem openInodes_invariant {made:ℕ→ℕ×InodeDisk}{calls:List Call}{t:Tracked}
 (run:Runs next Holding ⟨⟨[],0⟩,[],made,[],[]⟩ calls t):
 (t.table.openInodes.map (·.sector)).Nodup ∧
 (∀s p q,(s,p)∈t.refs → (s,q)∈t.refs → p=q) ∧
 (∀r∈t.refs,∃i∈t.table.openInodes,i.id=r.2 ∧ i.sector=r.1) ∧
 (∀i∈t.table.openInodes,i.openCnt=openers t.refs i.id ∧ 1 ≤ i.openCnt) ∧
 (∀p,t.released.filter (fun r=>r.1=p)=
  if p∈t.condemned ∧ openers t.refs p=0 then
   [(p,(t.made p).1,1),(p,(t.made p).2.start,bytesToSectors (t.made p).2.length)]
  else []) ∧
 (∀c,Holding t c → ∃u,next t c=some u):=by
 have h:Inv t:=run.invariant (fun _ _ _ h holding step=>h.next holding step) (inv_empty made)
 refine ⟨h.counted.wf.sectors,?_,h.counted.held,?_,h.log,?_⟩
 · intro s p q hp hq
   obtain ⟨i,hi,rfl,hs⟩:=h.counted.held _ hp
   obtain ⟨j,hj,rfl,hs'⟩:=h.counted.held _ hq
   rw[inj_on_of_nodup_map h.counted.wf.sectors hi hj (hs.trans hs'.symm)]
 · intro i hi
   obtain ⟨hc,hpos⟩:=h.counted.count i hi
   exact ⟨hc,by omega⟩
 · have found:∀r∈t.refs,∃i,t.table.find r.2=some i:=by
    intro r hr
    obtain ⟨i,-,-,-,hf⟩:=h.counted.find hr
    exact ⟨i,hf⟩
   intro c holding
   cases c with
   | «open» sector memory data=>exact ⟨_,rfl⟩
   | remove r=>
    obtain ⟨i,hf⟩:=found r holding
    simp[next,inodeRemove,hf]
   | reopen ref | close ref=>
    cases ref with
    | none=>exact ⟨_,rfl⟩
    | some r=>
     obtain ⟨i,hf⟩:=found r holding
     simp[next,inodeReopen,inodeClose,hf]

theorem openInodes_shared:∃calls t,Runs next Holding ⟨⟨[],0⟩,[],fun _=>(0,⟨0,0,0⟩),[],[]⟩ calls t ∧
 t.released=[(0,5,1),(0,9,2)] ∧ (t.table.openInodes.map (·.sector)).Nodup:=by
 have run:∃t,Runs next Holding ⟨⟨[],0⟩,[],fun _=>(0,⟨0,0,0⟩),[],[]⟩
   [.open 5 true ⟨9,1000,0⟩,.open 5 false ⟨9,1000,0⟩,.remove (5,0),
    .close (some (5,0)),.reopen (some (5,0)),.close (some (5,0)),.close (some (5,0))] t ∧
   t.released=[(0,5,1),(0,9,2)]:=
  ⟨_,exec_runs rfl,rfl⟩
 obtain ⟨t,h,hr⟩:=run
 exact ⟨_,t,h,hr,(openInodes_invariant h).1⟩

end Pintos.InodeTable
